import CboxTelemetry.Lib.Run

/-!
# Forward simulation

Two labelled step relations, the lower with more and smaller steps than the upper. An observer of either sees
of each action an event or nothing. `Answers` says that the upper system can do, from one of its states, what
the observer has just seen of the lower; `Simulates` that it always can, along a relation of the states. What
the observer sees of a whole run of the lower system is then what it sees of some run of the upper one
(`Simulates.run`), and the relation reaches wherever the lower system does (`Simulates.related`).
-/

variable {State State' Action Action' Event : Type*}

/-- From `s'` some run shows the observer `seen`, and ends in a state with `post`. -/
def Answers (step' : State' → Action' → State' → Prop) (event' : Action' → Option Event) (s' : State')
    (seen : Option Event) (post : State' → Prop) : Prop :=
  ∃ bs t', Run step' s' bs t' ∧ bs.filterMap event' = seen.toList ∧ post t'

namespace Answers
variable {step' : State' → Action' → State' → Prop} {event' : Action' → Option Event} {s' : State'}
  {seen : Option Event} {post : State' → Prop}

/-- The upper system stays where it is. -/
theorem stay (h : post s') : Answers step' event' s' none post :=
  ⟨[], s', .nil s', rfl, h⟩

/-- The upper system takes one step. -/
theorem one (b : Action') (t' : State') (hstep : step' s' b t') (hseen : event' b = seen) (h : post t') :
    Answers step' event' s' seen post := by
  refine ⟨[b], t', .single hstep, ?_, h⟩
  subst hseen
  cases hb : event' b <;> simp [hb]

end Answers

/-- Along `rel` the upper system answers every step of the lower one. -/
def Simulates (step : State → Action → State → Prop) (event : Action → Option Event)
    (step' : State' → Action' → State' → Prop) (event' : Action' → Option Event)
    (rel : State → State' → Prop) : Prop :=
  ∀ {s t s' a}, rel s s' → step s a t → Answers step' event' s' (event a) (rel t)

namespace Simulates
variable {step : State → Action → State → Prop} {event : Action → Option Event}
  {step' : State' → Action' → State' → Prop} {event' : Action' → Option Event}
  {rel : State → State' → Prop} {s t : State} {s' : State'} {as : List Action}

/-- What is seen of a run of the lower system is seen of a run of the upper one. -/
theorem run (sim : Simulates step event step' event' rel) (hs : rel s s') (h : Run step s as t) :
    ∃ bs t', Run step' s' bs t' ∧ bs.filterMap event' = as.filterMap event ∧ rel t t' := by
  induction h generalizing s' with
  | nil s => exact ⟨[], s', .nil s', rfl, hs⟩
  | @cons s t u a as hst _ ih =>
    obtain ⟨bs, t', hbs, hseen, ht⟩ := sim hs hst
    obtain ⟨cs, u', hcs, hseen', hu⟩ := ih ht
    refine ⟨bs ++ cs, u', hbs.append hcs, ?_, hu⟩
    rw [List.filterMap_append, hseen, hseen', List.filterMap_cons]
    cases event a <;> rfl

/-- Where the lower system gets to, the relation holds with some state of the upper one. -/
theorem related (sim : Simulates step event step' event' rel) (hs : rel s s') (h : Run step s as t) :
    ∃ t', rel t t' := by
  obtain ⟨_, t', _, _, ht⟩ := sim.run hs h
  exact ⟨t', ht⟩

end Simulates
