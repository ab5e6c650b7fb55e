import CboxTelemetry.Crash.Record
import CboxTelemetry.Crash.SinkName
import Mathlib.Logic.Function.Basic

/-!
# What becomes of a fatal signal

The recorder takes the place of the dispositions of four signals and is to give every delivery the fate it
would have had: the handler writes its record, puts the previous disposition of that one signal back and
hands the delivery on. The latch against a crash inside the handler is set once and never cleared. So a
process that survives one delivery has a recorder that ends it at the next delivery of another signal
(`fates_install_iff`).

A process without the recorder is the same model with no disposition replaced (`bare`).
-/

namespace CboxTelemetry.Signals

open Crash (crashPathMax)

/-! ## Signals and dispositions -/

/-- `cbox_crash_signals`. -/
inductive Signal
  | segv
  | abrt
  | bus
  | ill
  deriving DecidableEq, Repr

/-- The numbers of Linux. -/
def Signal.number : Signal → Nat
  | .segv => 11
  | .abrt => 6
  | .bus => 7
  | .ill => 4

def crashSignals : List Signal := [.segv, .abrt, .bus, .ill]

/-- `sa_handler` or `sa_sigaction`: `SIG_DFL` (the null pointer), `SIG_IGN`, or a function. -/
inductive Handler
  | dfl
  | ign
  | function (address : Nat)
  deriving DecidableEq, Repr

/-- `struct sigaction`, with the flags that matter here. -/
structure Sigaction where
  handler : Handler
  siginfo : Bool
  resetHand : Bool
  deriving DecidableEq, Repr

/-- What a signal does: an action, or `cbox_crash_handler`. -/
inductive Disposition
  | action (a : Sigaction)
  | recorder
  deriving DecidableEq, Repr

/-- A process as its signals see it. -/
structure Process where
  disposition : Signal → Disposition
  previous : Signal → Sigaction
  inProgress : Bool
  installed : Bool

/-- One delivery. `trap` is a fault of the instruction, which comes again when the instruction is run again;
the other signals were sent. `survives` says whether the process goes on after a handler of its own. -/
structure Delivery where
  signal : Signal
  trap : Bool
  survives : Bool
  deriving DecidableEq, Repr

/-- What becomes of a delivery. -/
inductive Fate
  | passed (address : Nat) (siginfo : Bool)
  | ignored
  | terminated (signal : Signal)
  | exited (status : Nat)
  deriving DecidableEq, Repr

/-- The process is gone. -/
def Fate.ends (d : Delivery) : Fate → Bool
  | .passed _ _ => !d.survives
  | .ignored => false
  | .terminated _ => true
  | .exited _ => true

/-! ## Deliveries -/

/-- Delivery under an action. The kernel does not let a trap be ignored, and a handler with `SA_RESETHAND`
is taken out when it is called. -/
def Sigaction.deliver (a : Sigaction) (d : Delivery) : Fate × Sigaction :=
  match a.handler with
  | .dfl => (.terminated d.signal, a)
  | .ign => (if d.trap then .terminated d.signal else .ignored, a)
  | .function address =>
    (.passed address a.siginfo, if a.resetHand then { a with handler := .dfl } else a)

namespace Process

def setDisposition (s : Process) (signal : Signal) (disposition : Disposition) : Process :=
  { s with disposition := Function.update s.disposition signal disposition }

/-- A delivery under an action. -/
def deliverAction (s : Process) (a : Sigaction) (d : Delivery) : Fate × Process :=
  ((a.deliver d).1, s.setDisposition d.signal (.action (a.deliver d).2))

/-- `raise` under an action, and the return from the handler after it, where a trap comes again. -/
def reRaise (s : Process) (a : Sigaction) (d : Delivery) : Fate × Process :=
  match s.deliverAction a { d with trap := false } with
  | (.ignored, s) => if d.trap then s.deliverAction a d else (.ignored, s)
  | result => result

/-- A call of `SIG_IGN`, which is no function: a trap inside the handler. -/
def callIgn (s : Process) (d : Delivery) : Fate × Process :=
  match s.disposition .segv with
  | .recorder => (.exited (128 + Signal.number .segv), s)
  | .action a => s.deliverAction a { d with signal := .segv, trap := true }

/-- `cbox_crash_handler`, without the record it writes. -/
def handle (s : Process) (d : Delivery) : Fate × Process :=
  if s.inProgress then (.exited (128 + d.signal.number), s)
  else
    let a := s.previous d.signal
    let s := { s with inProgress := true }.setDisposition d.signal (.action a)
    if a.siginfo then
      match a.handler with
      | .dfl => s.reRaise a d
      | .ign => s.callIgn d
      | .function address => (.passed address true, s)
    else
      match a.handler with
      | .function address => (.passed address false, s)
      | _ => s.reRaise a d

/-- A delivery. -/
def deliver (s : Process) (d : Delivery) : Fate × Process :=
  match s.disposition d.signal with
  | .recorder => s.handle d
  | .action a => s.deliverAction a d

/-- The fates of deliveries that come one after the other, until the process is gone. -/
def fates (s : Process) : List Delivery → List Fate
  | [] => []
  | d :: ds => (s.deliver d).1 :: if (s.deliver d).1.ends d then [] else (s.deliver d).2.fates ds

/-- The deliveries that the process is still there for. -/
def served (s : Process) : List Delivery → List Delivery
  | [] => []
  | d :: ds => d :: if (s.deliver d).1.ends d then [] else (s.deliver d).2.served ds

/-- A process without the recorder. -/
def bare (previous : Signal → Sigaction) : Process :=
  ⟨fun signal => .action (previous signal), fun _ => ⟨.dfl, false, false⟩, false, false⟩

/-! ## Installation -/

/-- What `sigaction` gives back of a disposition. -/
def oldAction (s : Process) (signal : Signal) : Sigaction :=
  match s.disposition signal with
  | .action a => a
  | .recorder => s.previous signal

/-- The loop that puts the dispositions back. -/
def rollBack (s : Process) (signals : List Signal) : Process :=
  signals.foldl (fun s signal => s.setDisposition signal (.action (s.previous signal))) s

/-- The loop of `cbox_crash_install`. `sigactionOk` says which calls of `sigaction` work, `done` are the
signals it has been through. -/
def installFrom (sigactionOk : Signal → Bool) (s : Process) (done : List Signal) : List Signal → Process
  | [] => { s with installed := true }
  | signal :: signals =>
    if sigactionOk signal then
      installFrom sigactionOk
        ({ s with previous := Function.update s.previous signal (s.oldAction signal) }.setDisposition
          signal .recorder) (signal :: done) signals
    else s.rollBack done

/-- `cbox_crash_install`. -/
def install (dir : Option Bytes) (sigactionOk : Signal → Bool) (s : Process) : Process :=
  if s.installed then s
  else
    match dir with
    | none => s
    | some dir =>
      if dir = [] ∨ crashPathMax - 32 ≤ dir.length then s else s.installFrom sigactionOk [] crashSignals

end Process

/-! ## Actions -/

/-- A handler that is called once and then taken out. -/
def Sigaction.Once (a : Sigaction) : Prop := ∃ address, a.handler = .function address ∧ a.resetHand = true

/-- An action that is not reset by its first delivery stays as it is. -/
theorem Sigaction.deliver_stays {a : Sigaction} (h : ¬a.Once) (d : Delivery) : (a.deliver d).2 = a := by
  unfold Sigaction.deliver
  split
  · rfl
  · rfl
  · next address hhandler =>
    have hreset : a.resetHand = false := by
      cases hreset : a.resetHand with
      | false => rfl
      | true => exact absurd ⟨address, hhandler, hreset⟩ h
    rw [hreset]
    rfl

/-- An action never ends the process with a status. -/
theorem Sigaction.deliver_ne_exited (a : Sigaction) (d : Delivery) (status : Nat) :
    (a.deliver d).1 ≠ .exited status := by
  unfold Sigaction.deliver
  split
  · exact nofun
  · split <;> exact nofun
  · exact nofun

namespace Process

/-- The recorder is not there. -/
structure Untouched (previous : Signal → Sigaction) (b : Process) : Prop where
  disposition_eq : ∀ signal, b.disposition signal = .action (previous signal)

/-- The recorder has all four signals and has seen none. -/
structure Armed (previous : Signal → Sigaction) (s : Process) : Prop where
  disposition_eq : ∀ signal, s.disposition signal = .recorder
  previous_eq : s.previous = previous
  inProgress_eq : s.inProgress = false

/-- The recorder has handed a delivery of `signal` on, and the process is still there. -/
structure Latched (previous : Signal → Sigaction) (signal : Signal) (s : Process) : Prop where
  restored : s.disposition signal = .action (previous signal)
  others : ∀ other, other ≠ signal → s.disposition other = .recorder
  inProgress_eq : s.inProgress = true

variable {previous : Signal → Sigaction} {s b : Process} {signal : Signal} {d : Delivery} {ds : List Delivery}

theorem deliver_of_action {a : Sigaction} (h : s.disposition d.signal = .action a) :
    s.deliver d = s.deliverAction a d := by
  rw [deliver, h]

/-! ## After the first delivery -/

theorem setDisposition_self (h : s.disposition signal = .action (previous signal)) :
    s.setDisposition signal (.action (previous signal)) = s := by
  rw [setDisposition, ← h, Function.update_eq_self]

/-- Under an action that stays, a delivery leaves the dispositions alone. -/
theorem deliverAction_stays (h : s.disposition d.signal = .action (previous d.signal))
    (hstays : ¬(previous d.signal).Once) : (s.deliverAction (previous d.signal) d).2 = s := by
  rw [deliverAction, Sigaction.deliver_stays hstays]
  exact setDisposition_self h

/-- Another signal after the first ends the process with a status. -/
theorem Latched.deliver_other (h : s.Latched previous signal) (hother : d.signal ≠ signal) :
    (s.deliver d).1 = .exited (128 + d.signal.number) := by
  rw [deliver, h.others _ hother, handle, if_pos h.inProgress_eq]

theorem fates_cons_inj {d : Delivery} (h : s.fates (d :: ds) = b.fates (d :: ds)) :
    (s.deliver d).1 = (b.deliver d).1 := (List.cons.inj h).1

/-- Once one signal was restored the fates agree as long as it is the only one. -/
theorem Latched.fates_iff (h : s.Latched previous signal) (hb : b.disposition signal = .action (previous signal))
    (hactions : ∀ other, ∃ a, b.disposition other = .action a) (hstays : ¬(previous signal).Once) :
    s.fates ds = b.fates ds ↔ ∀ d ∈ b.served ds, d.signal = signal := by
  induction ds with
  | nil => exact iff_of_true rfl nofun
  | cons d ds ih =>
    by_cases hsignal : d.signal = signal
    · subst hsignal
      have hs := deliver_of_action h.restored
      have ht := deliver_of_action hb
      have hsame : (s.deliverAction (previous d.signal) d).2 = s := deliverAction_stays h.restored hstays
      have hsame' : (b.deliverAction (previous d.signal) d).2 = b := deliverAction_stays hb hstays
      rw [fates, fates, served, hs, ht, hsame, hsame']
      show _ :: (if (((previous d.signal).deliver d).1).ends d then _ else _) =
        _ :: (if (((previous d.signal).deliver d).1).ends d then _ else _) ↔
          ∀ d' ∈ d :: (if (((previous d.signal).deliver d).1).ends d then _ else _), d'.signal = d.signal
      -- The fate ends the run, or both go on with the other deliveries.
      split
      · exact iff_of_true rfl fun d' hd' => by rw [List.mem_singleton.mp hd']
      · rw [List.forall_mem_cons, ← ih]
        constructor
        · exact fun heq => ⟨rfl, (List.cons.inj heq).2⟩
        · exact fun heq => congrArg _ heq.2
    -- Another signal finds our handler latched and exits, which the bare process does not do.
    · refine iff_of_false (fun heq => ?_) fun hall => hsignal (hall d List.mem_cons_self)
      obtain ⟨a, ha⟩ := hactions d.signal
      have hfate := fates_cons_inj heq
      rw [h.deliver_other hsignal, deliver_of_action ha] at hfate
      exact a.deliver_ne_exited d _ hfate.symm

/-- After a handler that is called once, no delivery has the fate it would have had. -/
theorem Latched.fates_iff_once (h : s.Latched previous signal) {a : Sigaction} (ha : a.handler = .dfl)
    (hb : b.disposition signal = .action a) (hactions : ∀ other, ∃ a, b.disposition other = .action a)
    (honce : (previous signal).Once) : s.fates ds = b.fates ds ↔ ds = [] := by
  cases ds with
  | nil => exact iff_of_true rfl rfl
  | cons d ds =>
    refine iff_of_false (fun heq => ?_) (List.cons_ne_nil _ _)
    have hfate := fates_cons_inj heq
    -- The handler that was there is called again where the bare process has the default by now.
    by_cases hsignal : d.signal = signal
    · subst hsignal
      obtain ⟨address, hfunction, _⟩ := honce
      rw [deliver_of_action h.restored, deliver_of_action hb] at hfate
      simp only [deliverAction, Sigaction.deliver, hfunction, ha] at hfate
      cases hfate
    · obtain ⟨a', ha'⟩ := hactions d.signal
      rw [h.deliver_other hsignal, deliver_of_action ha'] at hfate
      exact a'.deliver_ne_exited d _ hfate.symm

/-! ## The first delivery -/

/-- `SIG_IGN` with `SA_SIGINFO`: the recorder takes it for a function. Only of a fault of the access itself
the outcome is the same. -/
def Misread (previous : Signal → Sigaction) (d : Delivery) : Prop :=
  (previous d.signal).handler = .ign ∧ (previous d.signal).siginfo = true ∧
    ¬(d.signal = .segv ∧ d.trap = true)

/-- The state in which the handler hands the delivery on. -/
theorem Armed.latched (h : s.Armed previous) (signal : Signal) :
    ({ s with inProgress := true }.setDisposition signal (.action (previous signal))).Latched previous signal where
  restored := Function.update_self _ _ _
  others other hother := by
    show Function.update s.disposition signal _ other = _
    rw [Function.update_of_ne hother, h.disposition_eq]
  inProgress_eq := rfl

/-- The handler on its first delivery, with the state it hands the delivery on in. -/
theorem Armed.deliver_eq (h : s.Armed previous) : ∃ s' : Process, s'.Latched previous d.signal ∧ s.deliver d =
    match (previous d.signal).handler, (previous d.signal).siginfo with
    | .function address, siginfo => (.passed address siginfo, s')
    | .ign, true => s'.callIgn d
    | .ign, false => s'.reRaise (previous d.signal) d
    | .dfl, _ => s'.reRaise (previous d.signal) d := by
  refine ⟨_, h.latched d.signal, ?_⟩
  rw [deliver, h.disposition_eq, handle, if_neg (by rw [h.inProgress_eq]; exact Bool.false_ne_true),
    h.previous_eq]
  cases hsiginfo : (previous d.signal).siginfo <;> cases hhandler : (previous d.signal).handler <;>
    simp only [hsiginfo, hhandler, if_true, if_false, Bool.false_eq_true]

/-- Sending a signal again that is ignored changes nothing. -/
theorem Latched.reRaise_ign (h : s.Latched previous d.signal) (hign : (previous d.signal).handler = .ign) :
    s.reRaise (previous d.signal) d =
      if d.trap then (.terminated d.signal, s) else (.ignored, s) := by
  have hsent : s.deliverAction (previous d.signal) { d with trap := false } = (.ignored, s) := by
    simp only [deliverAction, Sigaction.deliver, hign, Bool.false_eq_true, if_false]
    rw [setDisposition_self h.restored]
  rw [reRaise, hsent]
  show (if d.trap then s.deliverAction (previous d.signal) d else (.ignored, s)) = _
  cases htrap : d.trap with
  | false => rfl
  -- Trapping again, it cannot be ignored and terminates the process.
  | true =>
    simp only [deliverAction, Sigaction.deliver, hign, htrap, if_true]
    rw [setDisposition_self h.restored]

theorem reRaise_dfl {a : Sigaction} (hdfl : a.handler = .dfl) :
    (s.reRaise a d).1 = .terminated d.signal := by
  simp only [reRaise, deliverAction, Sigaction.deliver, hdfl]

/-- The first delivery has the fate it would have had. -/
theorem Armed.deliver_agrees (h : s.Armed previous) (hread : ¬Misread previous d) :
    (s.deliver d).1 = ((previous d.signal).deliver d).1 ∧
      (((previous d.signal).deliver d).1.ends d = false → (s.deliver d).2.Latched previous d.signal) := by
  obtain ⟨s', hlatched, heq⟩ := h.deliver_eq (d := d)
  rw [heq]
  cases hhandler : (previous d.signal).handler with
  | dfl =>
    simp only [Sigaction.deliver, hhandler, reRaise_dfl hhandler, Fate.ends, Bool.true_eq_false, false_imp_iff,
      and_self]
  | ign =>
    cases hsiginfo : (previous d.signal).siginfo with
    | false =>
      simp only [hlatched.reRaise_ign hhandler, Sigaction.deliver, hhandler]
      cases d.trap with
      | false => exact ⟨rfl, fun _ => hlatched⟩
      | true => exact ⟨rfl, fun hends => absurd hends nofun⟩
    -- SIG_IGN read as a handler is harmless only for a SIGSEGV that traps: the call faults, and the
    -- fault ends the process.
    | true =>
      obtain ⟨hsegv, htrap⟩ : d.signal = .segv ∧ d.trap = true := by
        by_contra hnot
        exact hread ⟨hhandler, hsiginfo, hnot⟩
      have hrestored : s'.disposition .segv = .action (previous d.signal) := by
        rw [← hsegv]
        exact hlatched.restored
      rw [hsegv] at hhandler
      simp only [callIgn, hrestored, deliverAction, Sigaction.deliver, hhandler, htrap, hsegv, if_true, Fate.ends,
        Bool.true_eq_false, false_imp_iff, and_self]
  | function address =>
    simp only [Sigaction.deliver, hhandler]
    exact ⟨trivial, fun _ => hlatched⟩

/-- A misread delivery has another fate. -/
theorem Armed.deliver_misread (h : s.Armed previous) (hread : Misread previous d) :
    (s.deliver d).1 ≠ ((previous d.signal).deliver d).1 := by
  obtain ⟨hhandler, hsiginfo, hnot⟩ := hread
  obtain ⟨s', hlatched, heq⟩ := h.deliver_eq (d := d)
  rw [heq]
  simp only [hhandler, hsiginfo, Sigaction.deliver]
  -- The call of SIG_IGN faults while SIGSEGV is handled, so the fault has the previous action.
  by_cases hsegv : d.signal = .segv
  · have hrestored : s'.disposition .segv = .action (previous d.signal) := by
      rw [← hsegv]
      exact hlatched.restored
    have htrap : d.trap = false := by
      cases htrap : d.trap with
      | false => rfl
      | true => exact absurd ⟨hsegv, htrap⟩ hnot
    simp only [callIgn, hrestored, deliverAction, Sigaction.deliver, hhandler, htrap, if_true,
      Bool.false_eq_true, if_false]
    exact nofun
  -- With another signal the fault meets our handler a second time, which exits.
  · have hother := hlatched.others .segv (Ne.symm hsegv)
    simp only [callIgn, hother]
    split <;> exact nofun

/-! ## Whole sequences -/

/-- The deliveries that reach a process without the recorder are such that the recorder makes no difference:
there is one signal only, its handler stays when it is called, and the recorder reads its action right. -/
def Transparent (previous : Signal → Sigaction) (ds : List Delivery) : Prop :=
  match (bare previous).served ds with
  | [] => True
  | d :: rest => ¬Misread previous d ∧ ∀ d' ∈ rest, d'.signal = d.signal ∧ ¬(previous d.signal).Once

/-- What the bare process is after its first delivery. -/
theorem bare_deliver (previous : Signal → Sigaction) (d : Delivery) :
    ((bare previous).deliver d).1 = ((previous d.signal).deliver d).1 ∧
      ((bare previous).deliver d).2.disposition d.signal = .action ((previous d.signal).deliver d).2 ∧
      ∀ other, ∃ a, ((bare previous).deliver d).2.disposition other = .action a := by
  rw [deliver_of_action (rfl : (bare previous).disposition d.signal = .action (previous d.signal))]
  refine ⟨rfl, Function.update_self _ _ _, fun other => ?_⟩
  show ∃ a, Function.update (bare previous).disposition d.signal _ other = .action a
  by_cases hother : other = d.signal
  · subst hother
    exact ⟨_, Function.update_self _ _ _⟩
  · rw [Function.update_of_ne hother]
    exact ⟨previous other, rfl⟩

/-- Deliveries are served from the first on, so none is served only when there is none. -/
theorem served_eq_nil : s.served ds = [] ↔ ds = [] := by
  cases ds with
  | nil => exact iff_of_true rfl rfl
  | cons d ds => exact iff_of_false (List.cons_ne_nil _ _) (List.cons_ne_nil _ _)

/-- The fates under the recorder are those without it exactly when the deliveries are transparent. -/
theorem Armed.fates_iff (h : s.Armed previous) : s.fates ds = (bare previous).fates ds ↔ Transparent previous ds := by
  cases ds with
  | nil => exact iff_of_true rfl trivial
  | cons d ds =>
    obtain ⟨hfate, hsignal, hactions⟩ := bare_deliver previous d
    rw [Transparent, served, fates, fates]
    -- The first delivery decides: what comes behind it is up to the latched process.
    by_cases hread : Misread previous d
    · refine iff_of_false (fun heq => ?_) fun htransparent => htransparent.1 hread
      exact h.deliver_misread hread ((List.cons.inj heq).1.trans hfate)
    · obtain ⟨hagree, hlatched⟩ := h.deliver_agrees hread
      rw [hagree, hfate]
      cases hends : ((previous d.signal).deliver d).1.ends d with
      | true =>
        simp only [if_true]
        exact iff_of_true trivial ⟨hread, nofun⟩
      | false =>
        simp only [Bool.false_eq_true, if_false, List.cons_inj_right]
        have hlatch := hlatched hends
        -- A handler that is reset by its first delivery leaves the default action there, and ours
        -- leaves the handler.
        by_cases honce : (previous d.signal).Once
        · have hdfl : ((previous d.signal).deliver d).2.handler = .dfl := by
            obtain ⟨address, hfunction, hreset⟩ := honce
            simp only [Sigaction.deliver, hfunction, hreset, if_true]
          rw [hlatch.fates_iff_once hdfl hsignal hactions honce, ← served_eq_nil]
          constructor
          · intro hnil
            rw [hnil]
            exact ⟨hread, nofun⟩
          · intro hall
            exact List.eq_nil_iff_forall_not_mem.mpr fun d' hd' => (hall.2 d' hd').2 honce
        · rw [Sigaction.deliver_stays honce] at hsignal
          rw [hlatch.fates_iff hsignal hactions honce]
          exact ⟨fun hall => ⟨hread, fun d' hd' => ⟨hall d' hd', honce⟩⟩, fun hall d' hd' => (hall.2 d' hd').1⟩

/-- Processes with the same actions, whatever else they have. -/
theorem fates_of_untouched (h : s.Untouched previous) (ds : List Delivery) :
    s.fates ds = (bare previous).fates ds := by
  -- Two processes with the same dispositions have the same fates, whatever else they hold.
  suffices hgeneral : ∀ (s b : Process) (ds : List Delivery), s.disposition = b.disposition →
      (∀ signal, ∃ a, s.disposition signal = .action a) → s.fates ds = b.fates ds from
    hgeneral s (bare previous) ds (funext h.disposition_eq) fun signal => ⟨_, h.disposition_eq signal⟩
  intro s b ds hsame hactions
  induction ds generalizing s b with
  | nil => rfl
  | cons d ds ih =>
    obtain ⟨a, ha⟩ := hactions d.signal
    rw [fates, fates, deliver_of_action ha, deliver_of_action (by rw [← hsame]; exact ha)]
    have hnext : (s.deliverAction a d).2.disposition = (b.deliverAction a d).2.disposition := by
      show Function.update s.disposition _ _ = Function.update b.disposition _ _
      rw [hsame]
    have hnextActions : ∀ signal, ∃ a', (s.deliverAction a d).2.disposition signal = .action a' := by
      intro signal
      show ∃ a', Function.update s.disposition d.signal _ signal = .action a'
      by_cases hsignal : signal = d.signal
      · subst hsignal
        exact ⟨_, Function.update_self _ _ _⟩
      · rw [Function.update_of_ne hsignal]
        exact hactions signal
    rw [ih _ _ hnext hnextActions]
    rfl

/-! ## Installing -/

/-- The loop has been through the signals `done`. -/
structure Installing (previous : Signal → Sigaction) (done : List Signal) (s : Process) : Prop where
  recorder : ∀ signal ∈ done, s.disposition signal = .recorder
  saved : ∀ signal ∈ done, s.previous signal = previous signal
  others : ∀ signal, signal ∉ done → s.disposition signal = .action (previous signal)
  inProgress_eq : s.inProgress = false

/-- Before the first signal nothing is taken. -/
theorem Installing.bare (previous : Signal → Sigaction) : (Process.bare previous).Installing previous [] where
  recorder _ h := absurd h List.not_mem_nil
  saved _ h := absurd h List.not_mem_nil
  others _ _ := rfl
  inProgress_eq := rfl

/-- Taking one more signal keeps what holds of the taken ones. -/
theorem Installing.take {done : List Signal} (h : s.Installing previous done) (hsignal : signal ∉ done) :
    ({ s with previous := Function.update s.previous signal (s.oldAction signal) }.setDisposition
      signal .recorder).Installing previous (signal :: done) := by
  have hold : s.oldAction signal = previous signal := by rw [oldAction, h.others signal hsignal]
  have hne : ∀ other ∈ done, other ≠ signal := fun other hother heq => hsignal (heq ▸ hother)
  -- The signal just taken, and the ones before it.
  refine ⟨fun other hother => ?_, fun other hother => ?_, fun other hother => ?_, h.inProgress_eq⟩
  · show Function.update s.disposition signal .recorder other = .recorder
    rcases List.mem_cons.mp hother with rfl | hmem
    · exact Function.update_self _ _ _
    · rw [Function.update_of_ne (hne other hmem), h.recorder other hmem]
  · show Function.update s.previous signal (s.oldAction signal) other = previous other
    rcases List.mem_cons.mp hother with rfl | hmem
    · rw [Function.update_self, hold]
    · rw [Function.update_of_ne (hne other hmem), h.saved other hmem]
  · rw [List.mem_cons, not_or] at hother
    show Function.update s.disposition signal .recorder other = .action (previous other)
    rw [Function.update_of_ne hother.1, h.others other hother.2]

/-- Rolling back undoes the installation. -/
theorem untouched_rollBack (done : List Signal) (hsaved : ∀ signal ∈ done, s.previous signal = previous signal)
    (hothers : ∀ signal, signal ∉ done → s.disposition signal = .action (previous signal)) :
    (s.rollBack done).Untouched previous := by
  induction done generalizing s with
  | nil => exact ⟨fun signal => hothers signal List.not_mem_nil⟩
  | cons first done ih =>
    refine ih (fun signal hmem => hsaved signal (List.mem_cons_of_mem _ hmem)) fun signal hnot => ?_
    show Function.update s.disposition first (.action (s.previous first)) signal = .action (previous signal)
    by_cases hfirst : signal = first
    · subst hfirst
      rw [Function.update_self, hsaved signal List.mem_cons_self]
    · rw [Function.update_of_ne hfirst]
      exact hothers signal fun hmem => (List.mem_cons.mp hmem).elim hfirst hnot

/-- The loop takes every signal over, or none. -/
theorem Installing.installFrom {done : List Signal} (h : s.Installing previous done)
    (sigactionOk : Signal → Bool) (signals : List Signal) (hnodup : (signals.reverse ++ done).Nodup)
    (hall : ∀ signal, signal ∈ signals.reverse ++ done) :
    if ∀ signal ∈ signals, sigactionOk signal then (s.installFrom sigactionOk done signals).Armed previous
    else (s.installFrom sigactionOk done signals).Untouched previous := by
  induction signals generalizing s done with
  | nil =>
    rw [if_pos (fun _ hmem => absurd hmem List.not_mem_nil)]
    exact ⟨fun signal => h.recorder signal (hall signal), funext fun signal => h.saved signal (hall signal),
      h.inProgress_eq⟩
  | cons first signals ih =>
    rw [List.reverse_cons, List.append_assoc, List.singleton_append] at hnodup hall
    -- The loop goes on with the signal taken, or stops at the first one refused and rolls back.
    cases hok : sigactionOk first with
    | true =>
      have hfirst : first ∉ done := (List.nodup_cons.mp (List.nodup_append.mp hnodup).2.1).1
      have hrest := ih (h.take hfirst) hnodup hall
      rw [Process.installFrom, if_pos hok]
      simpa only [List.forall_mem_cons, hok, true_and] using hrest
    | false =>
      rw [if_neg (fun hgood => by rw [hgood first List.mem_cons_self] at hok; cases hok), Process.installFrom,
        if_neg (by rw [hok]; exact Bool.false_ne_true)]
      exact untouched_rollBack done h.saved h.others

/-- The recorder is installed: there is a directory that fits, and `sigaction` works for every signal. -/
def Installs (dir : Option Bytes) (sigactionOk : Signal → Bool) : Prop :=
  (∃ path, dir = some path ∧ path ≠ [] ∧ path.length < crashPathMax - 32) ∧ ∀ signal, sigactionOk signal

/-- The installation arms the recorder when it succeeds and leaves the process untouched when it
does not. -/
theorem install_spec (dir : Option Bytes) (sigactionOk : Signal → Bool) (previous : Signal → Sigaction) :
    (Installs dir sigactionOk → ((bare previous).install dir sigactionOk).Armed previous) ∧
      (¬Installs dir sigactionOk → ((bare previous).install dir sigactionOk).Untouched previous) := by
  have hloop := (Installing.bare previous).installFrom sigactionOk crashSignals (by decide)
    (by intro signal; cases signal <;> decide)
  -- All signals are taken in one loop.
  have hall : (∀ signal ∈ crashSignals, sigactionOk signal) ↔ ∀ signal, sigactionOk signal :=
    ⟨fun h signal => h signal (by cases signal <;> decide), fun h signal _ => h signal⟩
  have hfresh : (bare previous).installed = false := rfl
  simp only [install, hfresh, Bool.false_eq_true, if_false]
  -- No directory, a bad one, and one that leaves room for the name.
  cases dir with
  | none =>
    refine ⟨fun h => ?_, fun _ => ⟨fun _ => rfl⟩⟩
    obtain ⟨⟨path, hpath, _⟩, _⟩ := h
    cases hpath
  | some path =>
    by_cases hfits : path = [] ∨ crashPathMax - 32 ≤ path.length
    · simp only [hfits, if_true]
      refine ⟨fun h => ?_, fun _ => ⟨fun _ => rfl⟩⟩
      obtain ⟨⟨path', hpath, hne, hlength⟩, _⟩ := h
      cases hpath
      rcases hfits with hnil | hlong
      · exact absurd hnil hne
      · exact absurd hlength (Nat.not_lt.mpr hlong)
    · rw [not_or, Nat.not_le] at hfits
      simp only [hfits.1, Nat.not_le.mpr hfits.2, or_self, if_false]
      constructor
      · intro h
        rwa [if_pos (hall.mpr h.2)] at hloop
      · intro h
        rwa [if_neg fun hgood => h ⟨⟨path, rfl, hfits⟩, hall.mp hgood⟩] at hloop

/-- **Signal transparency.** Under the recorder every delivery of a sequence has the fate it would have had
without it, exactly when the recorder is not installed or the deliveries are of one signal whose action
the recorder reads right and the kernel does not take out. -/
theorem fates_install_iff (dir : Option Bytes) (sigactionOk : Signal → Bool) (previous : Signal → Sigaction)
    (ds : List Delivery) : ((bare previous).install dir sigactionOk).fates ds = (bare previous).fates ds ↔
      (Installs dir sigactionOk → Transparent previous ds) := by
  obtain ⟨harmed, huntouched⟩ := install_spec dir sigactionOk previous
  by_cases hinstalls : Installs dir sigactionOk
  · rw [(harmed hinstalls).fates_iff]
    exact ⟨fun htransparent _ => htransparent, fun h => h hinstalls⟩
  · exact iff_of_true (fates_of_untouched (huntouched hinstalls) ds) fun h => absurd h hinstalls

/-- A `SIGSEGV` that was to be ignored, and then an abort: the recorder ends the process with status 134. -/
theorem not_fates_second : ¬∀ (dir : Option Bytes) (sigactionOk : Signal → Bool) (previous : Signal → Sigaction)
    (ds : List Delivery),
    ((bare previous).install dir sigactionOk).fates ds = (bare previous).fates ds := by
  intro hall
  have hfates := hall (some (ascii "/var/crash")) (fun _ => true)
    (fun signal => ⟨if signal = .segv then .ign else .dfl, false, false⟩)
    [⟨.segv, false, true⟩, ⟨.abrt, false, true⟩]
  revert hfates
  decide

end Process

end CboxTelemetry.Signals
