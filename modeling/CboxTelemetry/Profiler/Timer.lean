import Mathlib.Tactic.ByContra

/-!
# The sampling timer

The backend for Linux: a POSIX per-thread CPU timer. `Timer` is what `timer_posix.c` believes of it,
next to the kernel's own state. The two come apart at a fork: flags are memory and are copied, a timer
is not.
-/

namespace CboxTelemetry.Profiler

/-- What the kernel holds for `cbox_timer` in this process. -/
inductive KernelTimer
  | none
  | disarmed
  | ticking
  deriving DecidableEq

/-- `cbox_timer_created`, `cbox_timer_installed` and `cbox_timer_is_armed`, and the kernel's timer. -/
structure Timer where
  created : Bool
  installed : Bool
  isArmed : Bool
  kernel : KernelTimer
  deriving DecidableEq

/-- The outcomes of `timer_create` and `timer_settime`. -/
structure TimerIo where
  create : Bool
  settime : Bool

namespace Timer

/-- Before `cbox_timer_init`. -/
def blank : Timer := ⟨false, false, false, .none⟩

/-- `cbox_timer_init`, when `sigaction` succeeds or fails. -/
def init (sigaction : Bool) (t : Timer) : Bool × Timer :=
  if t.installed then (true, t)
  else if sigaction then (true, { t with installed := true })
  else (false, t)

/-- `cbox_timer_create_once`. -/
def createOnce (io : TimerIo) (t : Timer) : Bool × Timer :=
  if t.created then (true, t)
  else if io.create then (true, { t with created := true, kernel := .disarmed })
  else (false, t)

/-- `cbox_timer_arm`. Setting a timer that this process does not have fails. -/
def arm (io : TimerIo) (periodNs : Nat) (t : Timer) : Bool × Timer :=
  if !t.installed || periodNs == 0 then (false, t)
  else
    match t.createOnce io with
    | (false, t) => (false, t)
    | (true, t) =>
      if t.kernel = .none ∨ !io.settime then (false, t)
      else (true, { t with isArmed := true, kernel := .ticking })

/-- `cbox_timer_disarm`. -/
def disarm (t : Timer) : Timer :=
  if !t.created then { t with isArmed := false }
  else { t with isArmed := false, kernel := if t.kernel = .none then .none else .disarmed }

/-- `cbox_timer_after_fork`. -/
def afterFork (t : Timer) : Timer := { t with created := false, isArmed := false }

/-- What a forked child gets: the flags, and no timer. -/
def fork (t : Timer) : Timer := { t with kernel := .none }

/-- The flags and the kernel's timer agree. -/
structure Sound (t : Timer) : Prop where
  created_iff : t.created = true ↔ t.kernel ≠ .none
  armed_iff : t.isArmed = true ↔ t.kernel = .ticking

variable {t : Timer} {io : TimerIo} {periodNs : Nat}

/-- Arming succeeds and leaves the timer ticking, or fails and leaves it as it was, as far as anybody
can tell. -/
theorem arm_cases (io : TimerIo) (periodNs : Nat) (t : Timer) :
    (∃ t', t.arm io periodNs = (true, t') ∧ t'.isArmed = true ∧ t'.kernel = .ticking ∧
      t'.created = true ∧ t'.installed = t.installed) ∨
    ∃ t', t.arm io periodNs = (false, t') ∧ t'.isArmed = t.isArmed ∧ t'.installed = t.installed ∧
      (t' = t ∨ t.created = false ∧ t'.created = true ∧ t'.kernel = .disarmed) := by
  unfold arm
  split
  · exact .inr ⟨t, rfl, rfl, rfl, .inl rfl⟩
  · unfold createOnce
    cases hcreated : t.created with
    | true =>
      simp only [if_true]
      split
      · exact .inr ⟨t, rfl, rfl, rfl, .inl rfl⟩
      · exact .inl ⟨_, rfl, rfl, rfl, hcreated, rfl⟩
    | false =>
      cases hcreate : io.create with
      | false => exact .inr ⟨t, rfl, rfl, rfl, .inl rfl⟩
      | true =>
        simp only [Bool.false_eq_true, if_false, if_true, reduceCtorEq, false_or]
        split
        · exact .inr ⟨_, rfl, rfl, rfl, .inr ⟨trivial, rfl, rfl⟩⟩
        · exact .inl ⟨_, rfl, rfl, rfl, rfl, rfl⟩

/-- When arming succeeds. -/
theorem arm_iff : (t.arm io periodNs).1 = true ↔ t.installed = true ∧ periodNs ≠ 0 ∧
    (if t.created then t.kernel ≠ .none else io.create = true) ∧ io.settime = true := by
  obtain ⟨created, installed, isArmed, kernel⟩ := t
  unfold arm createOnce
  cases installed with
  | false => simp
  | true =>
    by_cases hperiod : periodNs = 0
    · simp [hperiod]
    · cases created with
      | true => cases io.settime <;> cases kernel <;> simp [hperiod]
      | false => cases io.create <;> cases io.settime <;> simp [hperiod]

@[simp] theorem disarm_isArmed (t : Timer) : t.disarm.isArmed = false := by
  unfold disarm
  split <;> rfl

@[simp] theorem disarm_installed (t : Timer) : t.disarm.installed = t.installed := by
  unfold disarm
  split <;> rfl

/-- Without a kernel timer there is nothing to disarm. -/
theorem disarm_kernel_none (h : t.kernel = .none) : t.disarm.kernel = .none := by
  unfold disarm
  rw [if_pos h]
  split
  · exact h
  · rfl

/-- A timer that has been disarmed can be armed if it could be before. -/
theorem arm_disarm (t : Timer) (io : TimerIo) (periodNs : Nat) :
    (t.disarm.arm io periodNs).1 = (t.arm io periodNs).1 := by
  rw [Bool.eq_iff_iff, arm_iff, arm_iff]
  obtain ⟨created, installed, isArmed, kernel⟩ := t
  cases created <;> cases kernel <;> simp [disarm]

/-- Disarming keeps the bookkeeping sound. -/
theorem Sound.disarm (h : t.Sound) : t.disarm.Sound := by
  obtain ⟨hcreated, -⟩ := h
  unfold Timer.disarm
  cases hc : t.created with
  | false =>
    have hnone : t.kernel = .none := by
      by_contra hne
      rw [hcreated.mpr hne] at hc
      cases hc
    constructor <;> simp [hnone]
  | true =>
    have hne := hcreated.mp hc
    constructor <;> simp [hne]

theorem Sound.afterFork (h : t.kernel = .none) : t.afterFork.Sound := by
  constructor <;> simp [Timer.afterFork, h]

/-- So does arming. -/
theorem Sound.arm (h : t.Sound) (io : TimerIo) (periodNs : Nat) : (t.arm io periodNs).2.Sound := by
  obtain ⟨t', harm, harmed, hticking, hcreated, -⟩ | ⟨t', hfail, harmed, -, rfl | hnew⟩ :=
    arm_cases io periodNs t
  · rw [harm]
    constructor <;> simp [harmed, hticking, hcreated]
  · rw [hfail]
    exact h
  -- The timer was created and not set, and it ran neither before.
  · obtain ⟨hold, hcreated, hdisarmed⟩ := hnew
    have hnone : t.kernel = .none := by
      by_contra hne
      rw [h.created_iff.mpr hne] at hold
      cases hold
    have hidle : t.isArmed = false := by
      cases ha : t.isArmed with
      | false => rfl
      | true =>
        have := h.armed_iff.mp ha
        rw [hnone] at this
        cases this
    rw [hfail]
    constructor <;> simp [harmed, hidle, hcreated, hdisarmed]

end Timer

end CboxTelemetry.Profiler
