import CboxTelemetry.Lib.Run

/-!
# Two runs side by side

A statement about two runs is one about a run of their product, in which a step is taken on both sides or on
one. A guard on the product says which steps go together. What a product run is made of are two runs
(`left_of_product`, `right_of_product`), and a relation that answers every step on the left makes a product
run of every run on the left (`exists_product`).
-/

variable {S S' A A' : Type*}

/-- Who moves: both sides, or one. -/
inductive Move (A A' : Type*)
  | both (a : A) (a' : A')
  | left (a : A)
  | right (a' : A')

/-- The steps of the product. -/
inductive ProductSteps (step : S → A → S → Prop) (step' : S' → A' → S' → Prop) :
    S × S' → Move A A' → S × S' → Prop
  | both {s t : S} {s' t' : S'} {a : A} {a' : A'} : step s a t → step' s' a' t' →
      ProductSteps step step' (s, s') (.both a a') (t, t')
  | left {s t : S} {s' : S'} {a : A} : step s a t → ProductSteps step step' (s, s') (.left a) (t, s')
  | right {s : S} {s' t' : S'} {a' : A'} : step' s' a' t' →
      ProductSteps step step' (s, s') (.right a') (s, t')

namespace Move

/-- What is done on the left. -/
def onLeft : Move A A' → Option A
  | .both a _ => some a
  | .left a => some a
  | .right _ => none

/-- What is done on the right. -/
def onRight : Move A A' → Option A'
  | .both _ a' => some a'
  | .left _ => none
  | .right a' => some a'

end Move

section
variable {step : S → A → S → Prop} {step' : S' → A' → S' → Prop} {p q : S × S'}
  {ms : List (Move A A')}

/-- Of a run of the product the first component makes a run. -/
theorem left_of_product (h : Run (ProductSteps step step') p ms q) :
    Run step p.1 (ms.filterMap Move.onLeft) q.1 := by
  induction h with
  | nil p => exact .nil _
  | cons hstep _ ih =>
    cases hstep with
    | both hleft _ => exact .cons hleft ih
    | left hleft => exact .cons hleft ih
    | right _ => exact ih

/-- So does the second one. -/
theorem right_of_product (h : Run (ProductSteps step step') p ms q) :
    Run step' p.2 (ms.filterMap Move.onRight) q.2 := by
  induction h with
  | nil p => exact .nil _
  | cons hstep _ ih =>
    cases hstep with
    | both _ hright => exact .cons hright ih
    | left _ => exact ih
    | right hright => exact .cons hright ih

/-- **Every run on the left is half of a product run**, if every step that is taken there has an answer that
keeps the relation. -/
theorem exists_product {taken : S → A → S → Prop} {ok : S × S' → Move A A' → Prop} {R : S → S' → Prop}
    (hanswer : ∀ s s' a t, R s s' → taken s a t → ∃ m t', m.onLeft = some a ∧
      Guarded ok (ProductSteps step step') (s, s') m (t, t') ∧ R t t')
    {s t : S} {s' : S'} {as : List A} (hs : R s s') (hrun : Run taken s as t) :
    ∃ ms t', ms.filterMap Move.onLeft = as ∧
      Run (Guarded ok (ProductSteps step step')) (s, s') ms (t, t') ∧ R t t' := by
  induction hrun generalizing s' with
  | nil s => exact ⟨[], s', rfl, .nil _, hs⟩
  | cons hstep _ ih =>
    obtain ⟨m, u', hleft, hmove, hu⟩ := hanswer _ _ _ _ hs hstep
    obtain ⟨ms, t', hlefts, hmoves, ht⟩ := ih hu
    refine ⟨m :: ms, t', ?_, .cons hmove hmoves, ht⟩
    rw [List.filterMap_cons, hleft, hlefts]

end
