import Mathlib.Data.List.Basic

/-!
# Straight-line code that is interrupted

A list of instructions is performed one after the other, and between any two of them something else can
change the state. `R s t` says that interruptions can make `t` of `s`. If no instruction loses this relation
(`Respects`), the interrupted code is at every moment where the undisturbed code would be, up to `R`
(`Halfway`), so a property that interruptions do not spoil holds at every moment if it holds throughout the
undisturbed code (`Halfway.of_throughout`).
-/

namespace StraightLine
variable {State Instr : Type*}

/-- The state after undisturbed code. -/
def after (perform : State → Instr → State) (s : State) (code : List Instr) : State := code.foldl perform s

/-- `I` holds before each instruction of the undisturbed code, and after the last. -/
def Throughout (perform : State → Instr → State) (I : State → Prop) : State → List Instr → Prop
  | s, [] => I s
  | s, i :: code => I s ∧ Throughout perform I (perform s i) code

/-- The instructions keep what interruptions make of a state. -/
def Respects (perform : State → Instr → State) (R : State → State → Prop) : Prop :=
  ∀ {s t i}, R s t → R (perform s i) (perform t i)

/-- Code that began in `s` with `code` before it is in `t`, and has `rest` before it. -/
def Halfway (perform : State → Instr → State) (R : State → State → Prop) (s : State) (code : List Instr)
    (t : State) (rest : List Instr) : Prop :=
  ∃ done, code = done ++ rest ∧ R (after perform s done) t

section after
variable (perform : State → Instr → State) (s : State) (i : Instr) (code rest : List Instr)

@[simp] theorem after_nil : after perform s [] = s := by
  simp only [after, List.foldl_nil]

@[simp] theorem after_cons : after perform s (i :: code) = after perform (perform s i) code := rfl

@[simp] theorem after_append : after perform s (code ++ rest) = after perform (after perform s code) rest :=
  List.foldl_append

end after

variable {perform : State → Instr → State} {R : State → State → Prop} {I J : State → Prop} {s t u : State}
  {i : Instr} {code rest : List Instr}

/-! ## Undisturbed code -/

/-- What no instruction of the code changes. -/
theorem after_frame {β : Type*} (view : State → β)
    (hframe : ∀ i ∈ code, ∀ s, view (perform s i) = view s) : view (after perform s code) = view s := by
  induction code generalizing s with
  | nil => rfl
  | cons i code ih =>
    rw [after_cons]
    have hrest : view (after perform (perform s i) code) = view (perform s i) := by
      apply ih
      intro j hj
      exact hframe j (List.mem_cons_of_mem _ hj)
    rw [hrest]
    exact hframe i List.mem_cons_self s

namespace Throughout

/-- What holds throughout holds at the start. -/
theorem start (h : Throughout perform I s code) : I s := by
  cases code with
  | nil => exact h
  | cons i code => exact h.1

/-- And at the end. -/
theorem last (h : Throughout perform I s code) : I (after perform s code) := by
  induction code generalizing s with
  | nil => exact h
  | cons i code ih => exact ih h.2

/-- Code and the code after it. -/
theorem append (h : Throughout perform I s code) (hrest : Throughout perform I (after perform s code) rest) :
    Throughout perform I s (code ++ rest) := by
  induction code generalizing s with
  | nil => exact hrest
  | cons i code ih => exact ⟨h.1, ih h.2 hrest⟩

/-- What holds throughout the code holds after each first part of it. -/
theorem first (h : Throughout perform I s (code ++ rest)) : Throughout perform I s code := by
  induction code generalizing s with
  | nil => exact h.start
  | cons i code ih => exact ⟨h.1, ih h.2⟩

/-- A weaker invariant holds throughout as well. -/
theorem mono (hle : ∀ s, I s → J s) (h : Throughout perform I s code) : Throughout perform J s code := by
  induction code generalizing s with
  | nil => exact hle s h
  | cons i code ih => exact ⟨hle s h.1, ih h.2⟩

end Throughout

/-! ## Interrupted code -/

/-- A respected relation is kept by the whole code. -/
theorem Respects.after (h : Respects perform R) (hrel : R s t) :
    R (after perform s code) (after perform t code) := by
  induction code generalizing s t with
  | nil => exact hrel
  | cons i code ih => exact ih (h hrel)

namespace Halfway

theorem start (h : R s t) : Halfway perform R s code t code := ⟨[], rfl, h⟩

/-- The next instruction is performed. -/
theorem next (hrespects : Respects perform R) (h : Halfway perform R s code t (i :: rest)) :
    Halfway perform R s code (perform t i) rest := by
  obtain ⟨done, hcode, hrel⟩ := h
  refine ⟨done ++ [i], ?_, ?_⟩
  · rw [hcode, List.append_assoc, List.singleton_append]
  · rw [after_append]
    exact hrespects hrel

/-- An interruption. -/
theorem interrupt (htrans : ∀ {s t u}, R s t → R t u → R s u) (h : Halfway perform R s code t rest)
    (hrel : R t u) : Halfway perform R s code u rest := by
  obtain ⟨done, hcode, hdone⟩ := h
  exact ⟨done, hcode, htrans hdone hrel⟩

/-- At the end of the code. -/
theorem finish (h : Halfway perform R s code t []) : R (after perform s code) t := by
  obtain ⟨done, hcode, hdone⟩ := h
  rw [List.append_nil] at hcode
  rw [hcode]
  exact hdone

/-- What holds throughout the undisturbed code, and is not spoilt by interruptions, holds at every moment. -/
theorem of_throughout (hstable : ∀ {s t}, R s t → I s → I t) (h : Halfway perform R s code t rest)
    (hcode : Throughout perform I s code) : I t := by
  obtain ⟨done, rfl, hdone⟩ := h
  exact hstable hdone hcode.first.last

end Halfway

end StraightLine
