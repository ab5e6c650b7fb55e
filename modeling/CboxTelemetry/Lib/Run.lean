import Mathlib.Logic.Basic

/-!
# Runs of a labelled step relation

A system is a relation `step s a t`: in state `s` the action `a` can lead to `t`. A *run* is a
list of actions taken one after the other. What one step preserves, a run preserves
(`Run.invariant`); a run whose every step meets a side condition is a run of the guarded relation
(`Guarded`), so "in every run whose steps all meet the condition" needs no machinery of its own.
-/

variable {State Action : Type*}

/-- `Run step s as t`: taking the actions `as` in order leads from `s` to `t`. -/
inductive Run (step : State → Action → State → Prop) : State → List Action → State → Prop
  | nil (s : State) : Run step s [] s
  | cons {s t u : State} {a : Action} {as : List Action} :
      step s a t → Run step t as u → Run step s (a :: as) u

/-- The steps of `step` whose state and action meet `ok`. -/
def Guarded (ok : State → Action → Prop) (step : State → Action → State → Prop) :
    State → Action → State → Prop :=
  fun s a t => ok s a ∧ step s a t

/-- The step relation of a total transition function. -/
def Computes (next : State → Action → State) : State → Action → State → Prop :=
  fun s a t => next s a = t

/-- Where a partial transition function gets to when each of its steps meets `ok`. -/
def takes (ok : State → Action → Prop) [∀ s a, Decidable (ok s a)] (next : State → Action → Option State)
    (s : State) : List Action → Option State
  | [] => some s
  | a :: as => if ok s a then (next s a).bind fun t => takes ok next t as else none

namespace Run
variable {step : State → Action → State → Prop} {s t u : State} {a : Action} {as bs : List Action}

/-- What every step preserves holds at the end of every run that starts with it. -/
theorem invariant {inv : State → Prop} (hstep : ∀ s a t, inv s → step s a t → inv t)
    (hs : inv s) (h : Run step s as t) : inv t := by
  induction h with
  | nil s => exact hs
  | cons hst _ ih => exact ih (hstep _ _ _ hs hst)

/-- Two runs one behind the other are a run. -/
theorem append (h₁ : Run step s as t) (h₂ : Run step t bs u) : Run step s (as ++ bs) u := by
  induction h₁ with
  | nil s => exact h₂
  | cons hst _ ih => exact .cons hst (ih h₂)

/-- A run of actions of which the last ones are `bs`. -/
theorem of_append (h : Run step s (as ++ bs) u) : ∃ t, Run step s as t ∧ Run step t bs u := by
  induction as generalizing s with
  | nil => exact ⟨s, .nil s, h⟩
  | cons a as ih =>
    cases h with
    | cons hst hrest =>
      obtain ⟨t, hfirst, hlast⟩ := ih hrest
      exact ⟨t, .cons hst hfirst, hlast⟩

/-- A step relation that is a partial function has one run of each list of actions. -/
theorem unique (hstep : ∀ {s a t u}, step s a t → step s a u → t = u) (h : Run step s as t)
    (h' : Run step s as u) : t = u := by
  induction h with
  | nil s =>
    cases h'
    rfl
  | cons hst _ ih =>
    cases h' with
    | cons hst' hrest =>
      cases hstep hst hst'
      exact ih hrest

theorem single (h : step s a t) : Run step s [a] t :=
  .cons h (.nil t)

/-- A run of the guarded steps is a run. -/
theorem of_guarded {ok : State → Action → Prop} (h : Run (Guarded ok step) s as t) :
    Run step s as t := by
  induction h with
  | nil s => exact .nil s
  | cons hst _ ih => exact .cons hst.2 ih

/-- A run of actions that meet the condition is a run of the guarded steps. -/
theorem guarded {ok : Action → Prop} (h : Run step s as t) (hok : ∀ a ∈ as, ok a) :
    Run (Guarded (fun _ a => ok a) step) s as t := by
  induction h with
  | nil s => exact .nil s
  | cons hst _ ih =>
    apply Run.cons
    · exact ⟨hok _ List.mem_cons_self, hst⟩
    · apply ih
      intro a ha
      exact hok a (List.mem_cons_of_mem _ ha)

/-- A system that can always take a step towards `done`, and of these only so many, gets there. -/
theorem exists_done {done : State → Prop} {ok : Action → Prop} (inv : State → Prop) (μ : State → Nat)
    (hprogress : ∀ s, inv s → done s ∨ ∃ a t, step s a t ∧ ok a ∧ inv t ∧ μ t < μ s) (hs : inv s) :
    ∃ as t, Run step s as t ∧ (∀ a ∈ as, ok a) ∧ done t ∧ as.length ≤ μ s := by
  induction hμ : μ s using Nat.strongRecOn generalizing s with
  | _ n ih =>
    rcases hprogress s hs with hdone | ⟨a, t, hstep, hok, ht, hlt⟩
    · exact ⟨[], s, .nil s, by simp, hdone, by simp⟩
    · obtain ⟨as, u, hrun, hall, hdone, hlength⟩ := ih (μ t) (hμ ▸ hlt) ht rfl
      refine ⟨a :: as, u, .cons hstep hrun, ?_, hdone, ?_⟩
      · intro b hb
        rcases List.mem_cons.mp hb with rfl | hb
        · exact hok
        · exact hall b hb
      · rw [List.length_cons]
        omega

/-- A run of which every step costs something is only as long as there is something to spend. -/
theorem length_le {ok : Action → Prop} (inv : State → Prop) (μ : State → Nat)
    (hstep : ∀ s a t, inv s → ok a → step s a t → inv t ∧ μ t < μ s) (hs : inv s) (h : Run step s as t)
    (hok : ∀ a ∈ as, ok a) : inv t ∧ as.length + μ t ≤ μ s := by
  induction h with
  | nil s => exact ⟨hs, by simp⟩
  | cons hst _ ih =>
    obtain ⟨ht, hlt⟩ := hstep _ _ _ hs (hok _ List.mem_cons_self) hst
    obtain ⟨hu, hle⟩ := ih ht fun b hb => hok b (List.mem_cons_of_mem _ hb)
    refine ⟨hu, ?_⟩
    rw [List.length_cons]
    omega

/-- The steps that a partial transition function takes are a run. -/
theorem of_takes {ok : State → Action → Prop} [∀ s a, Decidable (ok s a)]
    {next : State → Action → Option State} (h : takes ok next s as = some t) :
    Run (Guarded ok fun s a t => next s a = some t) s as t := by
  induction as generalizing s with
  | nil =>
    cases h
    exact .nil _
  | cons a as ih =>
    simp only [takes] at h
    split at h
    case isFalse => cases h
    case isTrue hok =>
      obtain ⟨u, hu, hrest⟩ := Option.bind_eq_some_iff.mp h
      exact .cons ⟨hok, hu⟩ (ih hrest)

end Run
