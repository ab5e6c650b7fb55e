import CboxTelemetry.Extension.Operations

/-!
# Operations that cannot be told apart

Two states of the operations are alike if they have the same slots in use, by calls of the same types, and the
same counts. When they were reset is not part of it: a token of one state goes with a token of the other that is
as many resets old. If the calls take the same time in both (`timed`), the sums and the maxima are the same too.
-/

namespace CboxTelemetry.Extension

structure OpState.Alike (timed : Prop) (s s' : OpState) : Prop where
  count_eq : ∀ type, (s'.agg type).count = (s.agg type).count
  agg_eq : timed → s'.agg = s.agg
  types_eq : ∀ slot : Nat, s'.frames[slot]?.map OpFrame.type = s.frames[slot]?.map OpFrame.type
  depth_eq : s'.depth = s.depth
  overflow_eq : s'.overflow = s.overflow

/-- Tokens of one call in two runs. -/
structure OpToken.Alike (s s' : OpState) (t t' : OpToken) : Prop where
  type_eq : t'.type = t.type
  slot_eq : t'.slot = t.slot
  age_eq : s'.generation - t'.generation = s.generation - t.generation

variable {timed : Prop} {s s' r r' : OpState} {t t' : OpToken}

/-- Both are of the unit that is open, or neither is. -/
theorem OpToken.Alike.current_iff (h : t.Alike s s' t') :
    t'.generation = s'.generation ↔ t.generation = s.generation := by
  have hage := h.age_eq
  constructor <;> intro heq <;> grind

/-- Generations that move on by as much keep tokens alike. -/
theorem OpToken.Alike.later (h : t.Alike s s' t') {resets : UInt32} (hr : r.generation = s.generation + resets)
    (hr' : r'.generation = s'.generation + resets) : t.Alike r r' t' := by
  have hage := h.age_eq
  refine ⟨h.type_eq, h.slot_eq, ?_⟩
  rw [hr, hr']
  grind

namespace OpState

/-- States that have been reset. -/
theorem alike_opsReset (s s' : OpState) : Alike timed s.opsReset s'.opsReset :=
  ⟨fun _ => rfl, fun _ => rfl, fun _ => rfl, rfl, rfl⟩

/-- The types in the slots decide where the stack ends. -/
theorem topFrom_congr {frames frames' : Vector OpFrame opStackMax}
    (htypes : ∀ slot : Nat, frames'[slot]?.map OpFrame.type = frames[slot]?.map OpFrame.type) (n : Nat) :
    topFrom frames' n = topFrom frames n := by
  induction n with
  | zero => rfl
  | succ n ih => rw [topFrom, topFrom, htypes, ih]

/-- Slots that are set to calls of one type. -/
theorem types_set {frames frames' : Vector OpFrame opStackMax}
    (htypes : ∀ slot : Nat, frames'[slot]?.map OpFrame.type = frames[slot]?.map OpFrame.type) {slot : Nat}
    (hslot : slot < opStackMax) {f f' : OpFrame} (hf : f'.type = f.type) (other : Nat) :
    (frames'.set slot f')[other]?.map OpFrame.type = (frames.set slot f)[other]?.map OpFrame.type := by
  rw [Vector.getElem?_set, Vector.getElem?_set]
  split
  · rw [Option.map_some, Option.map_some, hf]
  · exact htypes other

/-- **A call that begins** gets the same slot in both. -/
theorem Alike.opsBegin (h : Alike timed s s') (type : OpType) (now now' : UInt64) :
    (s.opsBegin type now).1.Alike (s.opsBegin type now).2 (s'.opsBegin type now').2 (s'.opsBegin type now').1 ∧
      Alike timed (s.opsBegin type now).2 (s'.opsBegin type now').2 := by
  have hage : ∀ g g' : UInt32, g' - g' = g - g := fun g g' => by rw [UInt32.sub_self, UInt32.sub_self]
  unfold OpState.opsBegin
  rw [h.depth_eq]
  split
  · exact ⟨⟨rfl, rfl, hage _ _⟩, h⟩
  · split
    · next hroom =>
      refine ⟨⟨rfl, rfl, hage _ _⟩, h.count_eq, h.agg_eq, ?_, rfl, h.overflow_eq⟩
      exact types_set h.types_eq hroom rfl
    · refine ⟨⟨rfl, rfl, hage _ _⟩, h.count_eq, h.agg_eq, h.types_eq, rfl, ?_⟩
      show s'.overflow + 1 = s.overflow + 1
      rw [h.overflow_eq]

theorem Alike.release (h : Alike timed s s') (slot : Option Nat) :
    Alike timed (s.release slot) (s'.release slot) := by
  unfold OpState.release
  cases slot with
  | none => exact h
  | some slot =>
    simp only
    split
    · next hslot =>
      have htypes := types_set h.types_eq hslot
        (show ({ s'.frames[slot] with type := .none } : OpFrame).type =
          ({ s.frames[slot] with type := .none } : OpFrame).type from rfl)
      refine ⟨h.count_eq, h.agg_eq, htypes, ?_, h.overflow_eq⟩
      show topFrom _ s'.depth = topFrom _ s.depth
      rw [h.depth_eq, topFrom_congr htypes]
    · exact h

/-- **A call that ends** is booked in both, or in neither. -/
theorem Alike.opsEnd (h : Alike timed s s') (ht : t.Alike s s' t') {now now' : UInt64}
    (hnow : timed → elapsed t'.startNs now' = elapsed t.startNs now) :
    Alike timed (s.opsEnd t now) (s'.opsEnd t' now') := by
  have hcurrent := not_congr ht.current_iff
  have hfree := h.release t.slot
  unfold OpState.opsEnd
  simp only [ht.type_eq, ht.slot_eq, ne_eq, hcurrent]
  split
  · exact h
  · split
    · exact h
    -- The call is booked on both sides: one more, with a time that is the same where the clocks are.
    · refine ⟨fun type => ?_, fun htimed => ?_, hfree.types_eq, hfree.depth_eq, hfree.overflow_eq⟩
      · show (Function.update (s'.release t.slot).agg t.type _ type).count =
          (Function.update (s.release t.slot).agg t.type _ type).count
        rw [Function.update_apply, Function.update_apply]
        split
        · show ((s'.release t.slot).agg t.type).count + 1 = ((s.release t.slot).agg t.type).count + 1
          rw [hfree.count_eq]
        · exact hfree.count_eq type
      · show Function.update (s'.release t.slot).agg t.type _ = Function.update (s.release t.slot).agg t.type _
        rw [hfree.agg_eq htimed, hnow htimed]

end OpState
end CboxTelemetry.Extension
