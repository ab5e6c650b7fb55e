import CboxTelemetry.Extension.HookStacks

/-!
# What the hooks promise

A hooked function is called like before, through every wrapper once, as long as the hooks are installed and
afterwards (`hooks_transparent`). The end of the module takes every hook away that nobody has wrapped, and
those only (`uninstall_clean_iff`). What is reported is what was asked for and what was found
(`hook_report`).
-/

namespace CboxTelemetry.Extension

variable {F A : Type*}

/-- A handler that calls the one it has found. -/
def ZifHandler.passOn (_ : ZifHandler F A) (u : Unit) : Option Unit := some u

/-- A call of a function: the handlers that are called, in order. -/
def Hooked.call (s : Hooked F A) (f : F) (fuel : Nat) : Option (List (ZifHandler F A)) :=
  (Chain.walk s.calls ZifHandler.passOn fuel (s.handler f) ()).map Prod.fst

section
variable {e : Engine F} {s : Hooked F A} {w : Wrapped F A} {f : F}

/-- With enough fuel, a call goes through the whole stack. -/
theorem Hooked.Represents.call (h : s.Represents e 0 w) (hf : e.native f = true) {fuel : Nat}
    (hfuel : (w.wrappers f).length < fuel) : s.call f fuel = some (w.wrappers f ++ [.own f]) := by
  have hlength : (w.wrappers f ++ [ZifHandler.own f]).length ≤ fuel := by
    rw [List.length_append, List.length_singleton]
    exact hfuel
  have hpass : ∀ (g : ZifHandler F A) (u : Unit), u = () → ∃ u', g.passOn u = some u' ∧ u' = () :=
    fun _ u hu => ⟨u, rfl, hu⟩
  obtain ⟨_, hwalk, -⟩ := Chain.exists_walk hpass (h.chain f hf) hlength rfl
  rw [Hooked.call, hwalk]
  rfl

/-- What a call that comes to an end has called. -/
theorem Hooked.Represents.call_unique (h : s.Represents e 0 w) {fuel : Nat}
    {called : List (ZifHandler F A)} (hcall : s.call f fuel = some called) :
    called = if e.native f then w.wrappers f ++ [.own f] else [] := by
  obtain ⟨⟨hs, u⟩, hwalk, rfl⟩ := Option.map_eq_some_iff.mp hcall
  have hlinks := Chain.links_of_walk hwalk
  cases hf : e.native f with
  | true => exact Chain.Links.unique (h.chain f hf) hlinks
  | false =>
    rw [(h.bare f hf).1] at hlinks
    cases hlinks
    rfl

end

/-! ## A call -/

section
variable [DecidableEq F] [DecidableEq A] {e : Engine F} {as : List (HookAction F A)} {s s' : Hooked F A}

theorem Hooked.represents_after (h : HookRun e (.blank e) as s) : s.Represents e 0 (Wrapped.after e as) :=
  Hooked.represents_of_run (Hooked.represents_blank e) h

/-- **Hooks are transparent.** At any time, before the hooks are installed, while they are and after they are
taken away, and whatever other extensions have put below and above them, a call of a function goes once
through each of its wrappers, from the last one to the first, and then once to the function. -/
theorem hooks_transparent (h : HookRun e (.blank e) as s) {f : F} (hf : e.native f = true) :
    (∀ fuel, ((Wrapped.after e as).wrappers f).length < fuel →
      s.call f fuel = some ((Wrapped.after e as).wrappers f ++ [.own f])) ∧
    ((Wrapped.after e as).wrappers f ++ [ZifHandler.own f]).Nodup := by
  have hrep := Hooked.represents_after h
  refine ⟨fun fuel hfuel => hrep.call hf hfuel, ?_⟩
  rw [List.nodup_append]
  refine ⟨hrep.nodup f, List.nodup_singleton _, ?_⟩
  intro g hg g' hg'
  rw [List.mem_singleton] at hg'
  subst hg'
  rintro rfl
  exact hrep.own f f hg

end

/-- An engine with `curl_exec` and the constructor of `PDO`. -/
def smallEngine : Engine Nat where
  functionTable name := if name = ascii "curl_exec" then some 0 else none
  classTable name :=
    if name = ascii "pdo" then some fun method => if method = ascii "__construct" then some 1 else none
    else none
  internal _ := true
  native f := decide (f < 2)

/-- Another extension wraps `curl_exec` before the hooks are installed, and the constructor after that. -/
def wrappedTwice : List (HookAction Nat Nat) :=
  [.wrap 0 7, .install ⟨true, false, true, false⟩, .wrap 1 8]

/-- The steps can be taken. -/
theorem run_wrappedTwice : ∃ s : Hooked Nat Nat, HookRun smallEngine (.blank smallEngine) wrappedTwice s := by
  refine ⟨_, .cons ⟨trivial, rfl⟩ (.cons ⟨?_, rfl⟩ (.cons ⟨trivial, rfl⟩ (.nil _)))⟩
  intro _ index
  rfl

/-- And leave these stacks. -/
theorem wrappers_wrappedTwice : (Wrapped.after smallEngine wrappedTwice).done = true ∧
    (Wrapped.after smallEngine wrappedTwice).wrappers 0 = [.cbox 1, .other 7] ∧
    (Wrapped.after smallEngine wrappedTwice).wrappers 1 = [.other 8, .cbox 0] := by
  decide +kernel

/-- The calls go through them. -/
theorem hooks_transparent_wrapped : ∃ s : Hooked Nat Nat,
    HookRun smallEngine (.blank smallEngine) wrappedTwice s ∧
      s.call 0 3 = some [.cbox 1, .other 7, .own 0] ∧ s.call 1 3 = some [.other 8, .cbox 0, .own 1] := by
  obtain ⟨s, hrun⟩ := run_wrappedTwice
  obtain ⟨-, hcurl, hpdo⟩ := wrappers_wrappedTwice
  have hfirst := (hooks_transparent hrun (show smallEngine.native 0 = true from rfl)).1 3
  have hsecond := (hooks_transparent hrun (show smallEngine.native 1 = true from rfl)).1 3
  rw [hcurl] at hfirst
  rw [hpdo] at hsecond
  exact ⟨s, hrun, hfirst (by decide), hsecond (by decide)⟩

/-! ## The end of the module -/

section
variable [DecidableEq F] [DecidableEq A] {e : Engine F} {as : List (HookAction F A)} {s s' : Hooked F A}

/-- No handler of this module is called when the function is. -/
def Hooked.Clean (s : Hooked F A) (f : F) : Prop :=
  ∀ fuel called, s.call f fuel = some called → ∀ index, .cbox index ∉ called

omit [DecidableEq F] [DecidableEq A] in
/-- What is left of this module's handlers is what was below the top. -/
theorem mem_dropHook_iff (hs : List (ZifHandler F A)) :
    (∃ index, .cbox index ∈ dropHook hs) ↔ ∃ index, .cbox index ∈ hs.tail := by
  cases hs with
  | nil => exact Iff.rfl
  | cons h rest =>
    cases h with
    | cbox i => exact Iff.rfl
    | own f | other a => simp [dropHook]

/-- **What the end of the module leaves behind.** When the hooks are taken away, a function is free of this
module exactly if none of its hooks was below the top of its stack: nobody had wrapped the hook, and the
function was not hooked twice under two names. -/
theorem uninstall_clean_iff (h : HookRun e (.blank e) as s) (hdone : s.hooksDone = true)
    (hstep : HookSteps e s .uninstall s') (f : F) :
    s'.Clean f ↔ ∀ index, .cbox index ∉ ((Wrapped.after e as).wrappers f).tail := by
  have hrep := Hooked.represents_after h
  have hrep' := hrep.step (show Guarded NotReused (HookSteps e) s .uninstall s' from ⟨trivial, hstep⟩)
  have hw : (Wrapped.after e as).done = true := hrep.done.symm.trans hdone
  have hwrappers : ((Wrapped.after e as).step e .uninstall).wrappers f =
      dropHook ((Wrapped.after e as).wrappers f) := by
    simp [Wrapped.step, hw]
  have hiff := mem_dropHook_iff ((Wrapped.after e as).wrappers f)
  -- What is left of a wrapper is what lay under another's.
  rw [← not_exists, ← hiff, not_exists]
  constructor
  · intro hclean index hmem
    have hf : e.native f = true := by
      by_contra hn
      rw [Bool.not_eq_true] at hn
      have hempty := (hrep'.bare f hn).2
      rw [hwrappers] at hempty
      rw [hempty] at hmem
      cases hmem
    apply hclean _ _ (hrep'.call hf (Nat.lt_succ_self _)) index
    rw [hwrappers]
    exact List.mem_append_left _ hmem
  · intro hnone fuel called hcall index hmem
    rw [hrep'.call_unique hcall] at hmem
    split at hmem
    · rw [hwrappers] at hmem
      rcases List.mem_append.mp hmem with hin | hin
      · exact hnone index hin
      · simp at hin
    · cases hmem

end

/-- The hook of `curl_exec` is taken away, and that of the constructor stays, below another extension's. -/
theorem uninstall_clean_iff_wrapped : ∃ s s' : Hooked Nat Nat,
    HookRun smallEngine (.blank smallEngine) wrappedTwice s ∧ HookSteps smallEngine s .uninstall s' ∧
      s'.Clean 0 ∧ ¬s'.Clean 1 := by
  obtain ⟨s, hrun⟩ := run_wrappedTwice
  obtain ⟨hdone, hcurl, hpdo⟩ := wrappers_wrappedTwice
  have hdone' : s.hooksDone = true := (Hooked.represents_after hrun).done.trans hdone
  refine ⟨s, s.hooksUninstall, hrun, rfl, ?_, ?_⟩
  · rw [uninstall_clean_iff hrun hdone' rfl, hcurl]
    simp
  · rw [uninstall_clean_iff hrun hdone' rfl, hpdo]
    simp

/-! ## The report -/

/-- The requests that can be hooked. -/
def Engine.found (e : Engine F) (rs : List HookRequest) : List HookRequest :=
  rs.filter fun r => (e.hookable r).isSome

/-- The report is about the requests `rs`: the names and the counts of each group, and a hook for each request
that could be hooked, in order. -/
structure Reported (e : Engine F) (rs : List HookRequest) (s : Hooked F A) : Prop where
  names : s.names = (e.found rs).map HookRequest.name
  count : s.hookCount = (e.found rs).length
  installed : ∀ group, (s.groups group).installed = (e.found rs).countP (·.group = group)
  missing : ∀ group, (s.groups group).installed + (s.groups group).missing = rs.countP (·.group = group)
  hooks : ∀ i r, (e.found rs)[i]? = some r → ∃ hook, s.hooks i = some hook ∧ hook.op = r.op ∧
    hook.className = r.className ∧ hook.functionName = r.functionName ∧ e.hookable r = some hook.target

section
variable {e : Engine F} {rs : List HookRequest} {r : HookRequest} {s : Hooked F A} {w : Wrapped F A} {f : F}

theorem found_snoc_of_some (hr : e.hookable r = some f) : e.found (rs ++ [r]) = e.found rs ++ [r] := by
  simp [Engine.found, List.filter_append, hr]

theorem found_snoc_of_none (hr : e.hookable r = none) : e.found (rs ++ [r]) = e.found rs := by
  simp [Engine.found, List.filter_append, hr]

/-- A function that is not there adds to the missing. -/
theorem Reported.missing_step (h : Reported e rs s) (hr : e.hookable r = none) :
    Reported e (rs ++ [r]) (s.countMissing r.group) := by
  have hfound : e.found (rs ++ [r]) = e.found rs := found_snoc_of_none hr
  refine ⟨?_, ?_, ?_, ?_, ?_⟩
  · rw [hfound]
    exact h.names
  · rw [hfound]
    exact h.count
  · intro group
    rw [hfound, ← h.installed group]
    by_cases hg : group = r.group
    · subst hg
      simp [Hooked.countMissing]
    · simp [Hooked.countMissing, hg]
  · intro group
    rw [List.countP_append, ← h.missing group]
    by_cases hg : group = r.group
    · subst hg
      simp [Hooked.countMissing]
      omega
    · simp [Hooked.countMissing, hg, Ne.symm hg]
  · rw [hfound]
    exact h.hooks

variable [DecidableEq F]

/-- A hook adds its name, its group and its slot. -/
theorem Reported.hook_step (h : Reported e rs s) (hr : e.hookable r = some f) (hroom : s.hookCount < hookMax)
    (original : ZifHandler F A) : Reported e (rs ++ [r]) ((s.hook r f original).countInstalled r.group) := by
  have hfound : e.found (rs ++ [r]) = e.found rs ++ [r] := found_snoc_of_some hr
  have hnames : s.names.length < hookMax := by
    rw [h.names, List.length_map, ← h.count]
    exact hroom
  refine ⟨?_, ?_, ?_, ?_, ?_⟩
  · rw [hfound, List.map_append, ← h.names]
    simp [Hooked.countInstalled, Hooked.hook, hnames]
  · rw [hfound, List.length_append, ← h.count]
    rfl
  · intro group
    rw [hfound, List.countP_append, ← h.installed group]
    by_cases hg : group = r.group
    · subst hg
      simp [Hooked.countInstalled, Hooked.hook]
    · simp [Hooked.countInstalled, Hooked.hook, hg, Ne.symm hg]
  · intro group
    rw [List.countP_append, ← h.missing group]
    by_cases hg : group = r.group
    · subst hg
      simp [Hooked.countInstalled, Hooked.hook]
      omega
    · simp [Hooked.countInstalled, Hooked.hook, hg, Ne.symm hg]
  · intro i r' hi
    rw [hfound, List.getElem?_append] at hi
    by_cases hlt : i < (e.found rs).length
    · rw [if_pos hlt] at hi
      obtain ⟨hook, hhook, hrest⟩ := h.hooks i r' hi
      have hne : i ≠ s.hookCount := by
        rw [h.count]
        exact Nat.ne_of_lt hlt
      exact ⟨hook, by simpa [Hooked.countInstalled, Hooked.hook, hne] using hhook, hrest⟩
    · -- the hook that has just been installed
      rw [if_neg hlt] at hi
      have hlast : i = s.hookCount := by
        have hbound := (List.getElem?_eq_some_iff.mp hi).1
        rw [List.length_singleton] at hbound
        rw [h.count]
        omega
      subst hlast
      rw [← h.count, Nat.sub_self] at hi
      cases hi
      exact ⟨⟨r.className, r.functionName, r.op, original, f, true⟩,
        by simp [Hooked.countInstalled, Hooked.hook], rfl, rfl, rfl, hr⟩

/-- Each request adds one or the other. -/
theorem Reported.hookAdd (h : Reported e rs s) (hrep : s.Represents e 0 w) (hroom : s.hookCount < hookMax) :
    Reported e (rs ++ [r]) (Hooked.hookAdd e s r) := by
  have havailable := hrep.available_eq (r := r)
  unfold Hooked.hookAdd
  rw [if_neg (Nat.not_le.mpr hroom)]
  cases hr : e.hookable r with
  | none =>
    rw [hr, Option.bind_none] at havailable
    rw [havailable]
    exact h.missing_step hr
  | some f =>
    have hn : e.native f = true := by
      have hfilter := Option.filter_eq_some_iff.mp hr
      exact (Bool.and_eq_true_iff.mp hfilter.2).2
    obtain ⟨original, horiginal⟩ := Option.ne_none_iff_exists'.mp (hrep.handler_ne_none.mpr hn)
    rw [hr, Option.bind_some, horiginal, Option.map_some] at havailable
    rw [havailable]
    exact h.hook_step hr hroom original

/-- So does a list of them. -/
theorem Reported.hookAll {rs' : List HookRequest} (h : Reported e rs s) (hrep : s.Represents e 0 w)
    (hw : w.done = true) (hroom : rs.length + rs'.length ≤ hookMax) :
    Reported e (rs ++ rs') (rs'.foldl (Hooked.hookAdd e) s) := by
  induction rs' generalizing rs s w with
  | nil =>
    rw [List.append_nil]
    exact h
  | cons r rs' ih =>
    have hcount : s.hookCount < hookMax := by
      have hle : (e.found rs).length ≤ rs.length := List.length_filter_le ..
      rw [List.length_cons] at hroom
      rw [h.count]
      omega
    have hadd := h.hookAdd (r := r) hrep hcount
    have hroom' : (rs ++ [r]).length + rs'.length ≤ hookMax := by
      rw [List.length_append, List.length_singleton]
      rw [List.length_cons] at hroom
      omega
    obtain ⟨hsome, hnone⟩ := hrep.hookAdd (r := r) hw hcount
    rw [List.foldl_cons, List.append_cons]
    cases hr : e.hookable r with
    | none => exact ih hadd (hnone hr).1 hw hroom'
    | some f => exact ih hadd (hsome f hr).1 hw hroom'

/-- What `cbox_hook_add` leaves as it is. -/
theorem hookAdd_frame (e : Engine F) (s : Hooked F A) (r : HookRequest) :
    (Hooked.hookAdd e s r).summary = s.summary ∧ (Hooked.hookAdd e s r).hooksDone = s.hooksDone ∧
      ∀ group, ((Hooked.hookAdd e s r).groups group).requested = (s.groups group).requested := by
  unfold Hooked.hookAdd
  split
  · exact ⟨rfl, rfl, fun _ => rfl⟩
  · split
    all_goals
      refine ⟨rfl, rfl, ?_⟩
      intro group
      by_cases hg : group = r.group
      · subst hg
        simp [Hooked.countMissing, Hooked.countInstalled, Hooked.hook]
      · simp [Hooked.countMissing, Hooked.countInstalled, Hooked.hook, hg]

/-- The requests leave the summary, the mark and the numbers requested. -/
theorem hookAll_frame (e : Engine F) (rs : List HookRequest) (s : Hooked F A) :
    (rs.foldl (Hooked.hookAdd e) s).summary = s.summary ∧
      (rs.foldl (Hooked.hookAdd e) s).hooksDone = s.hooksDone ∧
      ∀ group, ((rs.foldl (Hooked.hookAdd e) s).groups group).requested = (s.groups group).requested := by
  induction rs generalizing s with
  | nil => exact ⟨rfl, rfl, fun _ => rfl⟩
  | cons r rs ih =>
    obtain ⟨hsummary, hdone, hrequested⟩ := ih (Hooked.hookAdd e s r)
    obtain ⟨hsummary', hdone', hrequested'⟩ := hookAdd_frame e s r
    exact ⟨hsummary.trans hsummary', hdone.trans hdone', fun group =>
      (hrequested group).trans (hrequested' group)⟩

end

/-- What the first call of `cbox_hooks_install` has been asked for. -/
def firstInstall : List (HookAction F A) → Option HookFlags
  | [] => none
  | .install flags :: _ => some flags
  | _ :: as => firstInstall as

theorem firstInstall_cons (a : HookAction F A) (as : List (HookAction F A)) :
    firstInstall (a :: as) = (firstInstall [a]).or (firstInstall as) := by
  cases a <;> rfl

/-- What the module says about its hooks. -/
def Hooked.Tells (e : Engine F) (s : Hooked F A) : Option HookFlags → Prop
  | none => Reported e [] s ∧ s.hooksDone = false ∧ s.hooksActive = ascii "none" ∧
      (∀ index, s.hooks index = none) ∧ ∀ group, s.groups group = ⟨false, 0, 0⟩
  | some flags => Reported e flags.requests s ∧ s.hooksDone = true ∧
      s.hooksActive = Hooked.buildSummary flags ∧ ∀ group, (s.groups group).requested = flags.asksFor group

section
variable {e : Engine F} {s s' : Hooked F A} {w : Wrapped F A} {told : Option HookFlags}

/-- The report is not about the handlers. -/
theorem Hooked.Tells.of_handlers (h : s.Tells e told) (hhooks : s'.hooks = s.hooks)
    (hcount : s'.hookCount = s.hookCount) (hdone : s'.hooksDone = s.hooksDone)
    (hgroups : s'.groups = s.groups) (hnames : s'.names = s.names) (hsummary : s'.summary = s.summary) :
    s'.Tells e told := by
  have hreported : ∀ rs, Reported e rs s → Reported e rs s' := fun rs hr =>
    ⟨hnames ▸ hr.names, hcount ▸ hr.count, hgroups ▸ hr.installed, hgroups ▸ hr.missing, hhooks ▸ hr.hooks⟩
  have hactive : s'.hooksActive = s.hooksActive := by
    unfold Hooked.hooksActive
    rw [hsummary]
  cases told with
  | none =>
    obtain ⟨hr, hd, ha, hh, hg⟩ := h
    exact ⟨hreported _ hr, hdone.trans hd, hactive.trans ha, hhooks ▸ hh, hgroups ▸ hg⟩
  | some flags =>
    obtain ⟨hr, hd, ha, hg⟩ := h
    exact ⟨hreported _ hr, hdone.trans hd, hactive.trans ha, hgroups ▸ hg⟩

theorem buildSummary_ne_nil (flags : HookFlags) : Hooked.buildSummary flags ≠ [] := by
  obtain ⟨pdo, redis, curl, streams⟩ := flags
  cases pdo <;> cases redis <;> cases curl <;> cases streams <;> decide

variable [DecidableEq F]

/-- The first install tells, and later ones add nothing. -/
theorem Hooked.Tells.install (h : s.Tells e told) (hrep : s.Represents e 0 w) (flags : HookFlags) :
    (s.hooksInstall e flags).Tells e (told.or (some flags)) := by
  unfold Hooked.hooksInstall
  cases told with
  | some first =>
    rw [if_pos h.2.1]
    exact h
  | none =>
    obtain ⟨hr, hdone, -, hempty, hgroups⟩ := h
    rw [if_neg (by simp [hdone])]
    have hreported : Reported e [] (s.announce flags) := ⟨hr.names, hr.count, hr.installed, hr.missing, hr.hooks⟩
    have hroom : ([] : List HookRequest).length + flags.requests.length ≤ hookMax := by
      rw [List.length_nil, Nat.zero_add]
      exact (length_requests flags).trans (by decide)
    obtain ⟨hsummary, hdone', hrequested⟩ := hookAll_frame e flags.requests (s.announce flags)
    refine ⟨hreported.hookAll (hrep.announce flags hempty) rfl hroom, hdone', ?_, hrequested⟩
    unfold Hooked.hooksActive
    rw [hsummary]
    exact if_neg (buildSummary_ne_nil flags)

variable [DecidableEq A]

/-- No step but an uninstall changes what is told. -/
theorem Hooked.Tells.step {a : HookAction F A} (h : s.Tells e told) (hrep : s.Represents e 0 w)
    (ha : ∀ f, f = HookAction.uninstall → a ≠ f) (hstep : HookSteps e s a s') :
    s'.Tells e (told.or (firstInstall [a])) := by
  cases a with
  | install flags =>
    cases hstep
    exact h.install hrep flags
  | uninstall => exact absurd rfl (ha _ rfl)
  | wrap f a =>
    simp only [HookSteps, Hooked.step] at hstep
    split at hstep
    case isFalse => cases hstep
    case isTrue =>
      cases hstep
      rw [show firstInstall [HookAction.wrap f a] = none from rfl, Option.or_none]
      exact h.of_handlers rfl rfl rfl rfl rfl rfl
  | unwrap f a =>
    simp only [HookSteps, Hooked.step] at hstep
    split at hstep
    case isFalse => cases hstep
    case isTrue =>
      cases hstep
      rw [show firstInstall [HookAction.unwrap f a] = none from rfl, Option.or_none]
      exact h.of_handlers rfl rfl rfl rfl rfl rfl

/-- So it goes over a run. -/
theorem Hooked.Tells.run {as : List (HookAction F A)} (h : s.Tells e told) (hrep : s.Represents e 0 w)
    (hrun : HookRun e s as s') (has : .uninstall ∉ as) : s'.Tells e (told.or (firstInstall as)) := by
  induction hrun generalizing told w with
  | nil s => simpa [firstInstall] using h
  | @cons s s₁ s' a as hstep _ ih =>
    have hnext := h.step hrep (fun _ hf ha => has (by rw [hf] at ha; rw [ha]; exact List.mem_cons_self)) hstep.2
    have hrest := ih hnext (hrep.step hstep) fun hmem => has (List.mem_cons_of_mem _ hmem)
    rwa [firstInstall_cons, ← Option.or_assoc]

/-- **What is reported is what was asked for and what was found.** As long as the module is loaded, the report
is about the first call of `cbox_hooks_install`, whatever later requests and other extensions do: the names of
the functions that could be hooked, in order, and for each group how many were installed and how many were
missing, none lost for want of room; and each of these functions has a hook that measures its own type of
operation. -/
theorem hook_report {as : List (HookAction F A)} (h : HookRun e (.blank e) as s) (has : .uninstall ∉ as) :
    s.Tells e (firstInstall as) := by
  have hblank : (Hooked.blank e : Hooked F A).Tells e none := by
    refine ⟨⟨rfl, rfl, fun _ => rfl, fun _ => rfl, ?_⟩, rfl, rfl, fun _ => rfl, fun _ => rfl⟩
    intro i r hi
    simp [Engine.found] at hi
  exact hblank.run (Hooked.represents_blank e) h has

end

/-- One install, over wrappers of others. -/
theorem hook_report_wrapped : ∃ s : Hooked Nat Nat,
    HookRun smallEngine (.blank smallEngine) wrappedTwice s ∧
      s.Tells smallEngine (some ⟨true, false, true, false⟩) ∧
      s.names = [ascii "PDO::__construct", ascii "curl_exec"] := by
  obtain ⟨s, hrun⟩ := run_wrappedTwice
  have htells : s.Tells smallEngine (some ⟨true, false, true, false⟩) :=
    hook_report hrun (by simp [wrappedTwice])
  have hnames : (smallEngine.found (HookFlags.requests ⟨true, false, true, false⟩)).map HookRequest.name =
      [ascii "PDO::__construct", ascii "curl_exec"] := by
    decide +kernel
  exact ⟨s, hrun, htells, htells.1.names.trans hnames⟩

end CboxTelemetry.Extension
