import CboxTelemetry.Crash.Signals
import CboxTelemetry.Profiler.Arena
import CboxTelemetry.Profiler.Timer

/-!
# The signal of the timer

The POSIX timer is delivered on a real-time signal, and the handler that `timer_posix.c` puts there sees
whatever else comes on that number too. What is not the timer's it hands on to the disposition it has
replaced, and the process is to fare as it would have without the handler. It does so but for two kinds of
action: one with `SA_SIGINFO` that is no function, and one with `SA_RESETHAND`, which the kernel no longer
takes out (`timer_fates_iff`).
-/

namespace CboxTelemetry.Profiler

open Signals (Sigaction Handler)

/-- A delivery of the timer's signal. `siTimer` and `siValueOwn` are the two comparisons of
`cbox_timer_signal`; `survives` says whether the process goes on after a handler of its own. -/
structure TimerDelivery where
  siTimer : Bool
  siValueOwn : Bool
  siOverrun : Int
  survives : Bool
  deriving DecidableEq

/-- The ticks that a delivery stands for. -/
def TimerDelivery.ticks (d : TimerDelivery) : Nat :=
  if 0 < d.siOverrun then u32 (1 + u32 d.siOverrun.toNat) else 1

/-- What becomes of a delivery. `counted` is a call of `cbox_profiler_tick`, and `faulted` one of `SIG_IGN`,
which is no function. -/
inductive TimerFate
  | counted (ticks : Nat)
  | passed (address : Nat) (siginfo : Bool)
  | ignored
  | faulted
  | terminated
  deriving DecidableEq

def TimerFate.isCounted : TimerFate → Bool
  | .counted _ => true
  | _ => false

/-- The process is gone. -/
def TimerFate.ends (d : TimerDelivery) : TimerFate → Bool
  | .counted _ | .ignored => false
  | .passed _ _ => !d.survives
  | .faulted | .terminated => true

/-- What the signal does: an action, or `cbox_timer_signal`. -/
inductive TimerDisposition
  | action (a : Sigaction)
  | sampler
  deriving DecidableEq

/-- The timer, what its signal does, and `cbox_prev_action`. -/
structure TimerSignal where
  timer : Timer
  disposition : TimerDisposition
  prevAction : Sigaction
  deriving DecidableEq

/-- What a delivery leaves of an action: with `SA_RESETHAND` the kernel takes the handler out. -/
def afterDelivery (a : Sigaction) : Sigaction :=
  match a.handler with
  | .function _ => if a.resetHand then { a with handler := .dfl } else a
  | _ => a

namespace TimerSignal

/-- A process without the module. -/
def bare (a : Sigaction) : TimerSignal := ⟨.blank, .action a, ⟨.dfl, false, false⟩⟩

/-- What `sigaction` gives back of the disposition. -/
def oldAction (s : TimerSignal) : Sigaction :=
  match s.disposition with
  | .action a => a
  | .sampler => s.prevAction

/-- `sigaction(cbox_signal, &action, &cbox_prev_action)`. -/
def take (s : TimerSignal) : TimerSignal := { s with disposition := .sampler, prevAction := s.oldAction }

/-- `sigaction(cbox_signal, &cbox_prev_action, NULL)`. -/
def giveBack (s : TimerSignal) : TimerSignal := { s with disposition := .action s.prevAction }

/-! ## Deliveries -/

/-- A delivery under an action. The default of a real-time signal is to end the process. -/
def deliverAction (s : TimerSignal) (a : Sigaction) : TimerFate × TimerSignal :=
  match a.handler with
  | .dfl => (.terminated, s)
  | .ign => (.ignored, s)
  | .function address => (.passed address a.siginfo, { s with disposition := .action (afterDelivery a) })

/-- `cbox_timer_chain`. -/
def chain (s : TimerSignal) : TimerFate × TimerSignal :=
  if s.prevAction.siginfo then
    match s.prevAction.handler with
    | .dfl => (.ignored, s)
    | .ign => (.faulted, s)
    | .function address => (.passed address true, s)
  else
    match s.prevAction.handler with
    | .ign => (.ignored, s)
    | .function address => (.passed address false, s)
    | .dfl => s.giveBack.deliverAction s.prevAction

/-- The test of `cbox_timer_signal`. -/
def isOwn (s : TimerSignal) (d : TimerDelivery) : Bool := s.timer.created && d.siTimer && d.siValueOwn

/-- `cbox_timer_signal`. -/
def handle (s : TimerSignal) (d : TimerDelivery) : TimerFate × TimerSignal :=
  if s.isOwn d then (.counted d.ticks, s) else s.chain

/-- A delivery. -/
def deliver (s : TimerSignal) (d : TimerDelivery) : TimerFate × TimerSignal :=
  match s.disposition with
  | .action a => s.deliverAction a
  | .sampler => s.handle d

/-- The fates of deliveries that come one after the other, until the process is gone. -/
def fates (s : TimerSignal) : List TimerDelivery → List TimerFate
  | [] => []
  | d :: ds => (s.deliver d).1 :: if (s.deliver d).1.ends d then [] else (s.deliver d).2.fates ds

/-! ## What the handler is to keep -/

/-- The action is a function, or is not taken for one. -/
def ReadRight (a : Sigaction) : Prop := a.siginfo = true → ∃ address, a.handler = .function address

/-- The deliveries of others under which the handler makes no difference. -/
def Transparent (a : Sigaction) : List TimerDelivery → Prop
  | [] => True
  | d :: rest => ReadRight a ∧ (a.Once → d.survives = true → rest = [])

section
variable {s b : TimerSignal} {a : Sigaction} {d : TimerDelivery} {ds : List TimerDelivery}

/-- A handler that is not called once stays as it is. -/
theorem afterDelivery_of_not_once (h : ¬a.Once) : afterDelivery a = a := by
  unfold afterDelivery
  split
  next address hhandler =>
    have hreset : ¬a.resetHand = true := by
      intro hreset
      exact h ⟨address, hhandler, hreset⟩
    rw [if_neg hreset]
  · rfl

theorem deliver_of_action (h : s.disposition = .action a) : s.deliver d = s.deliverAction a := by
  rw [deliver, h]

theorem deliver_of_sampler (h : s.disposition = .sampler) : s.deliver d = s.handle d := by
  rw [deliver, h]

theorem handle_own (h : s.isOwn d = true) : s.handle d = (.counted d.ticks, s) := by
  rw [handle, if_pos h]

theorem handle_foreign (h : s.isOwn d = false) : s.handle d = s.chain := by
  rw [handle, h, if_neg Bool.false_ne_true]

/-- Under an action nothing is counted. -/
theorem isCounted_deliverAction (s : TimerSignal) (a : Sigaction) : (s.deliverAction a).1.isCounted = false := by
  unfold deliverAction
  split <;> rfl

/-- What is handed on is never counted. -/
theorem isCounted_chain (s : TimerSignal) : s.chain.1.isCounted = false := by
  unfold chain
  split
  · split <;> rfl
  · split
    · rfl
    · rfl
    · exact isCounted_deliverAction _ _

/-- A function is called as it would have been. -/
theorem chain_function {address : Nat} (h : s.prevAction.handler = .function address) :
    s.chain = (.passed address s.prevAction.siginfo, s) := by
  unfold chain
  simp only [h]
  cases s.prevAction.siginfo <;> rfl

/-- An action that is read right has the fate it would have had. -/
theorem chain_fate (hread : ReadRight s.prevAction) (hb : b.disposition = .action s.prevAction) :
    s.chain.1 = (b.deliver d).1 := by
  rw [deliver_of_action hb]
  cases hhandler : s.prevAction.handler with
  | function address => simp [chain_function hhandler, deliverAction, hhandler]
  | dfl | ign =>
    have hplain : s.prevAction.siginfo = false := by
      rw [Bool.eq_false_iff]
      intro hsiginfo
      obtain ⟨address, hfunction⟩ := hread hsiginfo
      rw [hfunction] at hhandler
      cases hhandler
    simp [chain, deliverAction, hhandler, hplain]

/-- One that is misread has another. -/
theorem chain_fate_ne (hread : ¬ReadRight s.prevAction) (hb : b.disposition = .action s.prevAction) :
    s.chain.1 ≠ (b.deliver d).1 := by
  rw [deliver_of_action hb]
  have hsiginfo : s.prevAction.siginfo = true := by
    by_contra hplain
    exact hread fun h => absurd h hplain
  cases hhandler : s.prevAction.handler with
  | function address => exact absurd (fun _ => ⟨address, hhandler⟩) hread
  | dfl | ign => simp [chain, deliverAction, hhandler, hsiginfo]

/-- As long as the process is there, the handler is. -/
theorem chain_stays (hends : s.chain.1.ends d = false) : s.chain.2 = s := by
  revert hends
  unfold chain
  split
  · split <;> intro _ <;> rfl
  · split
    · intro _
      rfl
    · intro _
      rfl
    next hhandler =>
      intro hends
      simp [deliverAction, hhandler, TimerFate.ends] at hends

/-! ## Whole sequences -/

/-- A delivery of the timer is counted, and nobody else sees it. -/
theorem handedOn_own (h : s.disposition = .sampler) (hown : s.isOwn d = true) :
    (s.fates (d :: ds)).filter (!·.isCounted) = (s.fates ds).filter (!·.isCounted) := by
  rw [fates, deliver_of_sampler h, handle_own hown]
  rfl

/-- One of somebody else is handed on, and the handler is still there if the process is. -/
theorem handedOn_foreign (h : s.disposition = .sampler) (hforeign : s.isOwn d = false) :
    (s.fates (d :: ds)).filter (!·.isCounted) =
      s.chain.1 :: if s.chain.1.ends d then [] else (s.fates ds).filter (!·.isCounted) := by
  rw [fates, deliver_of_sampler h, handle_foreign hforeign,
    List.filter_cons_of_pos (by rw [isCounted_chain]; rfl)]
  cases hends : s.chain.1.ends d with
  | true => rfl
  | false => simp [chain_stays hends]

/-- A handler that is called once is not there for the next delivery. -/
theorem deliver_once (hb : b.disposition = .action s.prevAction) {address : Nat}
    (hfunction : s.prevAction.handler = .function address) (hreset : s.prevAction.resetHand = true) :
    (b.deliver d).2.disposition = .action { s.prevAction with handler := .dfl } := by
  rw [deliver_of_action hb]
  simp [deliverAction, afterDelivery, hfunction, hreset]

/-- Any other disposition is. -/
theorem deliver_again (hb : b.disposition = .action s.prevAction) (honce : ¬s.prevAction.Once) :
    (b.deliver d).2.disposition = .action s.prevAction := by
  rw [deliver_of_action hb, deliverAction]
  split
  · exact hb
  · exact hb
  · rw [afterDelivery_of_not_once honce]

/-- Where the kernel has taken the handler out, the next delivery ends the process. -/
theorem handedOn_taken_out (h : s.disposition = .sampler) (honce : s.prevAction.Once) {dead : Sigaction}
    (hdead : dead.handler = .dfl) (hb : b.disposition = .action dead) :
    (s.fates ds).filter (!·.isCounted) = b.fates (ds.filter (!s.isOwn ·)) ↔ ds.filter (!s.isOwn ·) = [] := by
  induction ds with
  | nil => exact iff_of_true rfl rfl
  | cons d ds ih =>
    cases hown : s.isOwn d with
    | true =>
      rw [handedOn_own h hown, List.filter_cons_of_neg (by simp [hown])]
      exact ih
    | false =>
      rw [handedOn_foreign h hown, List.filter_cons_of_pos (by simp [hown])]
      apply iff_of_false
      · intro heq
        obtain ⟨address, hfunction, -⟩ := honce
        have hhead := (List.cons.inj heq).1
        rw [chain_function hfunction, deliver_of_action hb, deliverAction] at hhead
        simp [hdead] at hhead
      · exact List.cons_ne_nil _ _

/-- The fates of what is not the timer's are those of `b`, a process where the handler is not, exactly when
the deliveries are transparent. -/
theorem handedOn_iff (h : s.disposition = .sampler) (hb : b.disposition = .action s.prevAction) :
    (s.fates ds).filter (!·.isCounted) = b.fates (ds.filter (!s.isOwn ·)) ↔
      Transparent s.prevAction (ds.filter (!s.isOwn ·)) := by
  induction ds generalizing b with
  | nil => exact iff_of_true rfl trivial
  | cons d ds ih =>
    cases hown : s.isOwn d with
    | true =>
      rw [handedOn_own h hown, List.filter_cons_of_neg (by simp [hown])]
      -- The module's own expiry goes nowhere, and nobody without the module gets it either.
      exact ih hb
    | false =>
      rw [handedOn_foreign h hown, List.filter_cons_of_pos (by simp [hown]), fates, Transparent]
      -- A foreign expiry comes out alike exactly when the previous disposition is read for what it is.
      by_cases hread : ReadRight s.prevAction
      · rw [← chain_fate (d := d) hread hb]
        cases hends : s.chain.1.ends d with
        | true =>
          -- the process is gone, so a handler that is called once was not survived
          apply iff_of_true rfl
          refine ⟨hread, ?_⟩
          rintro ⟨address, hfunction, -⟩ hsurvives
          simp [chain_function hfunction, TimerFate.ends, hsurvives] at hends
        | false =>
          simp only [Bool.false_eq_true, if_false, List.cons_inj_right]
          by_cases honce : s.prevAction.Once
          · obtain ⟨address, hfunction, hreset⟩ := honce
            have hsurvives : d.survives = true := by
              simpa [chain_function hfunction, TimerFate.ends] using hends
            rw [handedOn_taken_out h ⟨address, hfunction, hreset⟩ rfl (deliver_once hb hfunction hreset)]
            constructor
            · intro hnil
              exact ⟨hread, fun _ _ => hnil⟩
            · intro htransparent
              exact htransparent.2 ⟨address, hfunction, hreset⟩ hsurvives
          · rw [ih (deliver_again hb honce)]
            -- A disposition that stays and is read right makes all deliveries transparent.
            apply iff_of_true
            · cases ds.filter (!s.isOwn ·) with
              | nil => trivial
              | cons d' rest => exact ⟨hread, fun hagain => absurd hagain honce⟩
            · exact ⟨hread, fun hagain => absurd hagain honce⟩
      · apply iff_of_false
        · intro heq
          exact chain_fate_ne (d := d) hread hb (List.cons.inj heq).1
        · intro htransparent
          exact hread htransparent.1

/-- The deliveries of the timer that come while the process is there are counted, each with its overruns. -/
theorem counted_fates (h : s.disposition = .sampler) (ds : List TimerDelivery) :
    (s.fates ds).filter TimerFate.isCounted =
      ((ds.take (s.fates ds).length).filter s.isOwn).map fun d => .counted d.ticks := by
  induction ds with
  | nil => rfl
  | cons d ds ih =>
    rw [fates, deliver_of_sampler h]
    cases hown : s.isOwn d with
    | true =>
      have hstays : (s.fates (d :: ds)) = .counted d.ticks :: s.fates ds := by
        rw [fates, deliver_of_sampler h, handle_own hown]
        rfl
      rw [handle_own hown, List.filter_cons_of_pos rfl]
      show _ :: (s.fates ds).filter _ = (((d :: ds).take ((s.fates ds).length + 1)).filter _).map _
      rw [List.take_succ_cons, List.filter_cons_of_pos hown, List.map_cons, ← ih]
    | false =>
      have hchain := isCounted_chain s
      rw [handle_foreign hown, List.filter_cons_of_neg (by rw [hchain]; exact Bool.false_ne_true)]
      cases hends : s.chain.1.ends d with
      | true =>
        rw [if_pos rfl, List.length_singleton, List.take_succ_cons, List.take_zero,
          List.filter_cons_of_neg (by rw [hown]; exact Bool.false_ne_true)]
        rfl
      | false =>
        rw [if_neg Bool.false_ne_true, chain_stays hends, List.length_cons, List.take_succ_cons,
          List.filter_cons_of_neg (by rw [hown]; exact Bool.false_ne_true)]
        exact ih

end

/-- **The timer's handler is transparent** for what is not the timer's. After `cbox_timer_init` has replaced an action,
and whatever the timer has done since, each expiry is counted as long as the process is there; and every other
delivery has the fate it would have had without the handler, exactly when the action is read right, and is not called
again after the kernel would have taken it out. -/
theorem timer_fates_iff {b : TimerSignal} {a : Sigaction} (hb : b.disposition = .action a) (timer : Timer)
    (ds : List TimerDelivery) :
    let s := { b.take with timer := timer }
    (s.fates ds).filter TimerFate.isCounted =
        ((ds.take (s.fates ds).length).filter s.isOwn).map (fun d => .counted d.ticks) ∧
      ((s.fates ds).filter (!·.isCounted) = b.fates (ds.filter (!s.isOwn ·)) ↔
        Transparent a (ds.filter (!s.isOwn ·))) := by
  intro s
  have hprev : s.prevAction = a := by
    show b.oldAction = a
    rw [oldAction, hb]
  refine ⟨counted_fates rfl ds, ?_⟩
  rw [handedOn_iff rfl (hb.trans (congrArg _ hprev.symm)), hprev]

/-- Two overruns of the timer, and between them a signal that somebody has sent. -/
def mixedDeliveries : List TimerDelivery :=
  [⟨true, true, 2, true⟩, ⟨false, false, 0, true⟩, ⟨true, true, 0, true⟩]

/-- Two expiries of the timer with one of another's between them. -/
theorem timer_fates_iff_mixed :
    let b := bare ⟨.function 4096, true, true⟩
    let s := { b.take with timer := ⟨true, true, true, .ticking⟩ }
    s.fates mixedDeliveries = [.counted 3, .passed 4096 true, .counted 1] ∧
      (s.fates mixedDeliveries).filter (!·.isCounted) = b.fates (mixedDeliveries.filter (!s.isOwn ·)) :=
  ⟨by decide, (timer_fates_iff rfl _ mixedDeliveries).2.mpr ⟨fun _ => ⟨4096, rfl⟩, fun _ _ => rfl⟩⟩

end TimerSignal

end CboxTelemetry.Profiler
