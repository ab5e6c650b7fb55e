import CboxTelemetry.Extension.Forks
import CboxTelemetry.Lib.Chain
import Mathlib.Logic.Function.Basic

/-!
# The chain of interrupt handlers

`zend_interrupt_function` is one pointer for all extensions. Who wants to see the engine's interrupts puts a
handler there and calls the one it found, and so does the profiler, which keeps what it found in
`cbox_previous_interrupt`.

While the profiler is installed, an interrupt reaches every handler once. At the end of the module the
profiler takes its handler back out of the pointer, unless somebody has chained on top of it: then it stays
in the middle of the chain, and forgets whom it has to call (`reachesOnce_loaded_unloaded`).
-/

namespace CboxTelemetry.Extension

open Profiler (Instant Stack State)

variable {H : Type*}

/-- What `zend_interrupt_function` can point to: `cbox_profiler_interrupt`, or another extension's. -/
inductive Handler (H : Type*)
  | profilerInterrupt
  | other (h : H)
  deriving DecidableEq

/-- `zend_interrupt_function`, `cbox_previous_interrupt`, `cbox_profiler.installed`, and what each of the
other handlers has replaced. -/
structure Interrupts (H : Type*) where
  zendInterruptFunction : Option (Handler H)
  previousInterrupt : Option (Handler H)
  installed : Bool
  replaced : H → Option (Handler H)

/-- `cbox_profiler_shutdown`. -/
def shutdown (s : State) : State :=
  { s.stop with arena := .cleared, frames := .cleared, tree := .cleared, ready := false }

/-- The states in which the profiler's handler returns: the storage is in order, or is not looked at. -/
def Returns (s : State) : Prop := s.Sound ∨ s.running = false

/-- A profiler that is shut down returns from its interrupt. -/
theorem returns_shutdown (s : State) : Returns (shutdown s) := by
  right
  show s.stop.running = false
  exact Profiler.State.stop_running s

/-- One that returns has an interrupt. -/
theorem Returns.exists_interrupt {s : State} (h : Returns s) (stack : Stack) (between : List Nat)
    (now : Instant) : ∃ s', s.interrupt stack between now = some s' ∧ Returns s' := by
  rcases h with hsound | hstopped
  · obtain ⟨s', hserved⟩ := hsound.exists_interrupt stack between now
    exact ⟨s', hserved, .inl (hsound.interrupt hserved).sound⟩
  · have hticks : (between.foldl State.tick s.takeTicks.2).takeDeliveries.2.running = false := by
      rw [Profiler.State.foldl_tick_eq]
      exact hstopped
    refine ⟨_, ?_, .inr hticks⟩
    simp only [State.interrupt, State.serve, State.books, hticks, Bool.and_false, Bool.false_and,
      Bool.false_eq_true, if_false]

namespace Interrupts

/-- Before any extension has started. -/
def blank : Interrupts H := ⟨none, none, false, fun _ => none⟩

/-- `cbox_profiler_install`. -/
def install (v : Interrupts H) : Interrupts H :=
  if v.installed then v
  else { v with
    previousInterrupt := v.zendInterruptFunction
    zendInterruptFunction := some .profilerInterrupt
    installed := true }

section
variable [DecidableEq H]

/-- `cbox_profiler_uninstall`. -/
def uninstall (v : Interrupts H) : Interrupts H :=
  if !v.installed then v
  else { v with
    zendInterruptFunction :=
      if v.zendInterruptFunction = some .profilerInterrupt then v.previousInterrupt
      else v.zendInterruptFunction
    previousInterrupt := none
    installed := false }

/-- Another extension puts its handler on top. -/
def chain (v : Interrupts H) (h : H) : Interrupts H := { v with
  zendInterruptFunction := some (.other h)
  replaced := Function.update v.replaced h v.zendInterruptFunction }

/-- Other extensions, one after the other. -/
def chainAll (v : Interrupts H) (hs : List H) : Interrupts H := hs.foldl chain v

end

/-- Whom a handler calls. -/
def calls (v : Interrupts H) : Handler H → Option (Handler H)
  | .profilerInterrupt => v.previousInterrupt
  | .other h => v.replaced h

/-- What a handler does to the profile before it calls the next. -/
def act (stack : Stack) (between : List Nat) (now : Instant) : Handler H → State → Option State
  | .profilerInterrupt, s => s.interrupt stack between now
  | .other _, s => some s

/-- One interrupt of the engine: the handlers that are called, and the profile afterwards. -/
def vmInterrupt (v : Interrupts H) (stack : Stack) (between : List Nat) (now : Instant) (fuel : Nat)
    (s : State) : Option (List (Handler H) × State) :=
  Chain.walk v.calls (act stack between now) fuel v.zendInterruptFunction s

/-- The handlers of the chain, from the top. -/
def Reaches (v : Interrupts H) (hs : List (Handler H)) : Prop :=
  Chain.Links v.calls v.zendInterruptFunction hs none

section
variable [DecidableEq H]

/-- An interrupt comes to an end, and reaches each of the handlers `others` once. -/
def ReachesOnce (v : Interrupts H) (s : State) (others : List H) : Prop :=
  ∀ stack between now, ∃ fuel called s', v.vmInterrupt stack between now fuel s = some (called, s') ∧
    ∀ h ∈ others, called.count (.other h) = 1

/-- The profiler is installed over the handlers `below`, and the handlers `above` chained on top of it. -/
def loaded (below above : List H) : Interrupts H := ((blank.chainAll below).install).chainAll above

/-- Afterwards the profiler is uninstalled, and the handlers `later` chained on top. -/
def unloaded (below above later : List H) : Interrupts H := (loaded below above).uninstall.chainAll later

end

/-! ## What is in the chain -/

section
variable {v : Interrupts H} {hs : List (Handler H)}

theorem reaches_blank : (blank : Interrupts H).Reaches [] := .nil none

/-- `cbox_profiler_install` puts the profiler on top. -/
theorem Reaches.install (h : v.Reaches hs) (hout : v.installed = false) (hnew : .profilerInterrupt ∉ hs) :
    v.install.Reaches (.profilerInterrupt :: hs) := by
  unfold Interrupts.install
  rw [hout, if_neg Bool.false_ne_true]
  apply Chain.Links.cons
  apply Chain.Links.congr h
  intro g hmem
  cases g with
  | profilerInterrupt => exact absurd hmem hnew
  | other g => rfl

/-- An interrupt reaches what is in the chain. -/
theorem Reaches.exists_vmInterrupt (h : v.Reaches hs) {s : State} (hreturns : Returns s) (stack : Stack)
    (between : List Nat) (now : Instant) {fuel : Nat} (hfuel : hs.length ≤ fuel) :
    ∃ s', v.vmInterrupt stack between now fuel s = some (hs, s') := by
  have hact : ∀ (g : Handler H) (s : State), Returns s →
      ∃ s', act stack between now g s = some s' ∧ Returns s' := by
    intro g s hs
    cases g with
    | profilerInterrupt => exact hs.exists_interrupt stack between now
    | other g => exact ⟨s, rfl, hs⟩
  obtain ⟨s', hwalk, -⟩ := Chain.exists_walk hact h hfuel hreturns
  exact ⟨s', hwalk⟩

/-- The handlers below and above are different ones. -/
theorem disjoint_of_nodup_append {below above : List H} (h : (below ++ above).Nodup) :
    below.Nodup ∧ above.Nodup ∧ ∀ g ∈ above, g ∉ below := by
  obtain ⟨hbelow, habove, hdisjoint⟩ := List.nodup_append.mp h
  exact ⟨hbelow, habove, fun g hg hg' => hdisjoint g hg' g hg rfl⟩

/-- The handlers `hs`, and others chained on top of them. -/
def stacked (gs : List H) (hs : List (Handler H)) : List (Handler H) := gs.reverse.map .other ++ hs

theorem mem_stacked {gs : List H} {g : H} : .other g ∈ stacked gs hs ↔ g ∈ gs ∨ .other g ∈ hs := by
  simp [stacked]

/-- Stacking different handlers keeps them different. -/
theorem nodup_stacked {gs : List H} (hnodup : gs.Nodup) (hhs : hs.Nodup) (hnew : ∀ g ∈ gs, .other g ∉ hs) :
    (stacked gs hs).Nodup := by
  have hinj : Function.Injective (Handler.other : H → Handler H) := by
    intro g g' heq
    cases heq
    rfl
  refine List.nodup_append.mpr ⟨(List.nodup_reverse.mpr hnodup).map hinj, hhs, ?_⟩
  rintro h hmem h' hmem' rfl
  obtain ⟨g, hg, rfl⟩ := List.mem_map.mp hmem
  exact hnew g (List.mem_reverse.mp hg) hmem'

variable [DecidableEq H]

/-- A handler chained reaches what was there. -/
theorem Reaches.chain (h : v.Reaches hs) {g : H} (hnew : .other g ∉ hs) :
    (v.chain g).Reaches (.other g :: hs) := by
  have hcalls : (v.chain g).calls (.other g) = v.zendInterruptFunction := Function.update_self _ _ _
  apply Chain.Links.cons
  rw [hcalls]
  apply Chain.Links.congr h
  intro g' hmem
  cases g' with
  | profilerInterrupt => rfl
  | other g' =>
    have hne : g' ≠ g := by
      rintro rfl
      exact hnew hmem
    exact Function.update_of_ne hne _ _

/-- So do many. -/
theorem Reaches.chainAll (h : v.Reaches hs) {gs : List H} (hnodup : gs.Nodup)
    (hnew : ∀ g ∈ gs, .other g ∉ hs) : (v.chainAll gs).Reaches (stacked gs hs) := by
  induction gs generalizing v hs with
  | nil => exact h
  | cons g gs ih =>
    obtain ⟨hfresh, hrest⟩ := List.nodup_cons.mp hnodup
    have htop := h.chain (hnew g List.mem_cons_self)
    have hall := ih htop hrest fun g' hmem hin => by
      rcases List.mem_cons.mp hin with heq | hold
      · cases heq
        exact hfresh hmem
      · exact hnew g' (List.mem_cons_of_mem _ hmem) hold
    unfold stacked at hall ⊢
    rw [List.reverse_cons, List.map_append, List.append_assoc]
    exact hall

/-- Chaining leaves the mark. -/
@[simp] theorem chainAll_installed (v : Interrupts H) (gs : List H) :
    (v.chainAll gs).installed = v.installed := by
  induction gs generalizing v with
  | nil => rfl
  | cons g gs ih => exact ih (v.chain g)

/-- A chain without repetitions reaches each of its handlers once, and no other. -/
theorem Reaches.reachesOnce_iff (h : v.Reaches hs) (hnodup : hs.Nodup) {s : State} (hreturns : Returns s)
    {others : List H} : v.ReachesOnce s others ↔ ∀ g ∈ others, .other g ∈ hs := by
  constructor
  · intro honce g hmem
    obtain ⟨fuel, called, s', hcalled, hcount⟩ := honce [] [] 0
    have hlinks := Chain.links_of_walk hcalled
    rw [Chain.Links.unique h hlinks] at hcount
    rw [← List.count_pos_iff, hcount g hmem]
    exact Nat.one_pos
  · intro hall stack between now
    obtain ⟨s', hwalk⟩ := h.exists_vmInterrupt hreturns stack between now (Nat.le_refl _)
    exact ⟨_, hs, s', hwalk, fun g hmem => List.count_eq_one_of_mem hnodup (hall g hmem)⟩

theorem reaches_chainAll {below : List H} (h : below.Nodup) :
    ((blank : Interrupts H).chainAll below).Reaches (stacked below []) :=
  reaches_blank.chainAll h fun _ _ hmem => absurd hmem List.not_mem_nil

/-- Installed, the profiler's handler stands between those below and those above it. -/
theorem reaches_loaded {below above : List H} (h : (below ++ above).Nodup) :
    ∃ hs, (loaded below above).Reaches hs ∧ hs.Nodup ∧ ∀ g, .other g ∈ hs ↔ g ∈ below ∨ g ∈ above := by
  obtain ⟨hbelow, habove, hdisjoint⟩ := disjoint_of_nodup_append h
  have hlow : (stacked below []).Nodup := nodup_stacked hbelow List.nodup_nil fun _ _ => List.not_mem_nil
  have hours : Handler.profilerInterrupt ∉ stacked below [] := by simp [stacked]
  have hnew : ∀ g ∈ above, Handler.other g ∉ Handler.profilerInterrupt :: stacked below [] := by
    intro g hg hmem
    rcases List.mem_cons.mp hmem with heq | hin
    · cases heq
    · exact hdisjoint g hg ((mem_stacked.mp hin).resolve_right List.not_mem_nil)
  have hinstall := (reaches_chainAll hbelow).install (chainAll_installed blank below) hours
  refine ⟨_, hinstall.chainAll habove hnew, nodup_stacked habove (List.nodup_cons.mpr ⟨hours, hlow⟩) hnew,
    fun g => ?_⟩
  simp [mem_stacked, or_comm]

/-! ## Uninstalled -/

/-- What is left of the profiler in a chain that somebody else is on top of. -/
def forgotten (v : Interrupts H) : Interrupts H := { v with previousInterrupt := none, installed := false }

/-- And what is forgotten. -/
theorem forgotten_chainAll (v : Interrupts H) (gs : List H) :
    (v.chainAll gs).forgotten = v.forgotten.chainAll gs := by
  induction gs generalizing v with
  | nil => rfl
  | cons g gs ih => exact ih (v.chain g)

/-- The last one chained is on the top. -/
theorem top_chainAll (v : Interrupts H) {gs : List H} (hne : gs ≠ []) :
    (v.chainAll gs).zendInterruptFunction ≠ some .profilerInterrupt := by
  induction gs generalizing v with
  | nil => exact absurd rfl hne
  | cons g gs ih =>
    cases gs with
    | nil =>
      intro htop
      cases htop
    | cons g' gs => exact ih (v.chain g) (List.cons_ne_nil _ _)

theorem installed_loaded (below above : List H) : (loaded below above).installed = true := by
  rw [loaded, chainAll_installed, install, chainAll_installed]
  rfl

/-- Uninstalled in the middle of a chain, the profiler's handler is still called, and calls nobody. -/
theorem reaches_uninstall_middle (below : List H) {above : List H} (habove : above.Nodup) (hne : above ≠ []) :
    (loaded below above).uninstall.Reaches (stacked above [.profilerInterrupt]) := by
  have htop := top_chainAll (blank.chainAll below).install hne
  have huninstall : (loaded below above).uninstall = (blank.chainAll below).install.forgotten.chainAll above := by
    rw [← forgotten_chainAll, uninstall, installed_loaded, Bool.not_true, if_neg Bool.false_ne_true]
    unfold loaded at htop ⊢
    rw [if_neg htop]
    rfl
  rw [huninstall]
  have hours : (blank.chainAll below).install.forgotten.Reaches [.profilerInterrupt] := by
    have hinstall : (blank.chainAll below).install.zendInterruptFunction = some .profilerInterrupt := by
      rw [install, chainAll_installed]
      rfl
    unfold Reaches
    rw [show (blank.chainAll below).install.forgotten.zendInterruptFunction = _ from hinstall]
    exact .cons _ (.nil none)
  exact hours.chainAll habove fun g _ hmem => by cases List.mem_singleton.mp hmem

/-- Uninstalled on top of the chain, the profiler is gone from it. -/
theorem reaches_uninstall_top {below : List H} (hbelow : below.Nodup) :
    (loaded below []).uninstall.Reaches (stacked below []) := by
  have hinstalled := installed_loaded below []
  have hloaded : loaded below [] = { (blank : Interrupts H).chainAll below with
      previousInterrupt := (blank.chainAll below).zendInterruptFunction
      zendInterruptFunction := some .profilerInterrupt
      installed := true } := by
    show (blank.chainAll below).install = _
    rw [install, chainAll_installed]
    rfl
  have hreaches := reaches_chainAll hbelow
  rw [hloaded]
  apply Chain.Links.congr hreaches
  intro g hmem
  cases g with
  | profilerInterrupt => simp [stacked] at hmem
  | other g => rfl

/-- What is reached after the unload. -/
theorem reaches_unloaded {below above later : List H} (h : (below ++ above ++ later).Nodup) :
    ∃ hs, (unloaded below above later).Reaches hs ∧ hs.Nodup ∧
      ∀ g, .other g ∈ hs ↔ g ∈ later ∨ g ∈ above ∨ above = [] ∧ g ∈ below := by
  obtain ⟨hboth, hlater, hdisjoint⟩ := disjoint_of_nodup_append h
  obtain ⟨hbelow, habove, -⟩ := disjoint_of_nodup_append hboth
  by_cases hnone : above = []
  · subst hnone
    have hnew : ∀ g ∈ later, Handler.other g ∉ stacked below [] := fun g hg hmem =>
      hdisjoint g hg (List.mem_append_left _ ((mem_stacked.mp hmem).resolve_right List.not_mem_nil))
    refine ⟨_, (reaches_uninstall_top hbelow).chainAll hlater hnew,
      nodup_stacked hlater (nodup_stacked hbelow List.nodup_nil fun _ _ => List.not_mem_nil) hnew, fun g => ?_⟩
    simp [mem_stacked]
  -- The module stays in the chain, called by the one above it, and what was below it is lost.
  · have hnew : ∀ g ∈ later, Handler.other g ∉ stacked above [.profilerInterrupt] := fun g hg hmem => by
      rcases mem_stacked.mp hmem with hin | hours
      · exact hdisjoint g hg (List.mem_append_right _ hin)
      · cases List.mem_singleton.mp hours
    refine ⟨_, (reaches_uninstall_middle below habove hnone).chainAll hlater hnew,
      nodup_stacked hlater (nodup_stacked habove (List.nodup_singleton _) fun g _ hmem => ?_) hnew, fun g => ?_⟩
    · cases List.mem_singleton.mp hmem
    · simp [mem_stacked, hnone]

/-- **Interrupts reach every other handler once** while the profiler is installed. Once it is not, they do
exactly where there was nobody below it, or nobody above: what is left of it in the middle of a chain calls
nobody, and those below are not reached any more. -/
theorem reachesOnce_loaded_unloaded {ini : Ini} {io : StartupIo} {pid : Int} {as : List Action} {w : Worker}
    (hrun : Run WorkerSteps (startedWorker ini io pid) as w) {below above later : List H}
    (hdistinct : (below ++ above ++ later).Nodup) :
    (loaded below above).ReachesOnce w.globals.prof (below ++ above) ∧
      ∀ s, s = w.globals.prof ∨ s = shutdown w.globals.prof →
        ((unloaded below above later).ReachesOnce s (below ++ above ++ later) ↔ below = [] ∨ above = []) := by
  have hsound : Returns w.globals.prof := .inl (steady_of_run hrun).sound
  have hboth := (disjoint_of_nodup_append hdistinct).1
  constructor
  · obtain ⟨hs, hreaches, hnodup, hmem⟩ := reaches_loaded hboth
    rw [hreaches.reachesOnce_iff hnodup hsound]
    intro g hg
    exact (hmem g).mpr (List.mem_append.mp hg)
  · intro s hs
    have hreturns : Returns s := by
      rcases hs with rfl | rfl
      · exact hsound
      · exact returns_shutdown _
    obtain ⟨hs, hreaches, hnodup, hmem⟩ := reaches_unloaded hdistinct
    -- The two states differ in the profiler, and its interrupt returns in both.
    rw [hreaches.reachesOnce_iff hnodup hreturns]
    constructor
    · intro hall
      by_contra hneither
      obtain ⟨hbelow, habove⟩ := not_or.mp hneither
      obtain ⟨g, hg⟩ := List.exists_mem_of_ne_nil below hbelow
      have hin := (hmem g).mp (hall g (List.mem_append_left _ (List.mem_append_left _ hg)))
      -- A handler below is neither above nor later, and somebody is above.
      obtain ⟨-, -, hdisjoint⟩ := disjoint_of_nodup_append hdistinct
      rcases hin with hlater | hin | hnone
      · exact hdisjoint g hlater (List.mem_append_left _ hg)
      · exact (disjoint_of_nodup_append hboth).2.2 g hin hg
      · exact habove hnone.1
    · intro hcond g hg
      rw [hmem]
      rw [List.mem_append, List.mem_append] at hg
      rcases hg with (hg | hg) | hg
      · rcases hcond with hnone | hnone
        · rw [hnone] at hg
          cases hg
        · exact .inr (.inr ⟨hnone, hg⟩)
      · exact .inr (.inl hg)
      · exact .inl hg

/-- Handlers on both sides of the module, and one later. -/
theorem reachesOnce_between :
    (loaded [0, 1] [2]).ReachesOnce (startedWorker autoIni plainStartup 100).globals.prof [0, 1, 2] ∧
      ¬(unloaded [0, 1] [2] [3]).ReachesOnce (shutdown (startedWorker autoIni plainStartup 100).globals.prof)
        [0, 1, 2, 3] := by
  obtain ⟨hloaded, hunloaded⟩ :=
    reachesOnce_loaded_unloaded (.nil (startedWorker autoIni plainStartup 100))
      (show ([0, 1] ++ [2] ++ [3]).Nodup by decide)
  refine ⟨hloaded, fun honce => ?_⟩
  have hneither := (hunloaded _ (.inr rfl)).mp honce
  simp at hneither

/-- One handler below the profiler's, and one above: after the module's end the one below is cut off. -/
theorem cut_off : ¬∀ (below above : List Nat), (below ++ above).Nodup →
    (loaded below above).uninstall.ReachesOnce (startedWorker autoIni plainStartup 100).globals.prof
      (below ++ above) := by
  intro hall
  have hreturns : Returns (startedWorker autoIni plainStartup 100).globals.prof :=
    .inl (steady_of_run (.nil _)).sound
  have hreaches := reaches_uninstall_middle [0] (List.nodup_singleton 1) (List.cons_ne_nil _ _)
  have hnodup : (stacked [1] [Handler.profilerInterrupt]).Nodup := by decide
  have hmem := (hreaches.reachesOnce_iff hnodup hreturns).mp (hall [0] [1] (by decide)) 0 List.mem_cons_self
  revert hmem
  decide

end

end Interrupts

end CboxTelemetry.Extension
