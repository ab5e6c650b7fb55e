import CboxTelemetry.Extension.Operations
import Mathlib.Order.Nat
import Mathlib.Tactic.ByContra

/-!
# The slots of operations

An operation that gets a slot keeps it until it ends, and operations can end in any order, so there are holes.
`Slots` ties the slots to whoever holds them: a later operation is in a higher slot, and the slots in use are
those that are held. A begin (`Slots.taken`) and an end (`Slots.released`) keep to that, and so the innermost
slot in use is that of the last operation that holds one (`Slots.current`).
-/

namespace CboxTelemetry.Extension

/-- What stands in a list that has grown by one. -/
theorem getElem?_snoc {α : Type} {xs : List α} {x y : α} {i : Nat} :
    (xs ++ [x])[i]? = some y ↔ xs[i]? = some y ∨ i = xs.length ∧ x = y := by
  rw [List.getElem?_append]
  split
  · next hlt => simp [Nat.ne_of_lt hlt]
  · next hge =>
    have hnone : xs[i]? = none := List.getElem?_eq_none (Nat.not_lt.mp hge)
    rw [hnone, List.getElem?_singleton]
    by_cases hlast : i = xs.length
    · simp [hlast]
    · have hpos : i - xs.length ≠ 0 := by omega
      simp [hlast, hpos]

/-! ## The innermost slot -/

section
variable {frames : Vector OpFrame opStackMax}

/-- The top that is found is not above the place where the search began. -/
theorem topFrom_le (frames : Vector OpFrame opStackMax) (n : Nat) : OpState.topFrom frames n ≤ n := by
  induction n with
  | zero => exact Nat.le_refl 0
  | succ n ih =>
    rw [OpState.topFrom]
    split
    · exact ih.trans (Nat.le_succ n)
    · exact Nat.le_refl _

/-- The slots above it are free. -/
theorem topFrom_free {n slot : Nat} (habove : OpState.topFrom frames n ≤ slot) (hlt : slot < n) {f : OpFrame}
    (hf : frames[slot]? = some f) : f.type = .none := by
  induction n with
  | zero => exact absurd hlt (Nat.not_lt_zero slot)
  | succ n ih =>
    rw [OpState.topFrom] at habove
    split at habove
    · next hfree =>
      rcases Nat.lt_succ_iff_lt_or_eq.mp hlt with hbelow | rfl
      · exact ih habove hbelow
      · rw [hf] at hfree
        exact hfree
    · exact absurd hlt (Nat.not_lt.mpr habove)

/-- It is in use. -/
theorem topFrom_used {n : Nat} (hpos : 0 < OpState.topFrom frames n) :
    ∃ f, frames[OpState.topFrom frames n - 1]? = some f ∧ f.type ≠ .none := by
  induction n with
  | zero => exact absurd hpos (Nat.lt_irrefl 0)
  | succ n ih =>
    rw [OpState.topFrom] at hpos ⊢
    split at hpos
    · next hfree =>
      rw [if_pos hfree]
      exact ih hpos
    · next hused =>
      rw [if_neg hused, Nat.add_sub_cancel]
      cases hget : frames[n]? with
      | none =>
        rw [hget] at hused
        exact absurd rfl hused
      | some f =>
        rw [hget] at hused
        exact ⟨f, rfl, hused⟩

end

/-! ## The slot of a begin and of an end -/

/-- The slot of a call that begins: none, or the one above all that are in use. -/
inductive SlotTaken (s : OpState) (type : OpType) (now : UInt64) : Option Nat → OpState → Prop
  | nowhere (s' : OpState) : s'.frames = s.frames → s'.depth = s.depth → SlotTaken s type now none s'
  | top (s' : OpState) : type ≠ .none → s.depth < opStackMax → s'.depth = s.depth + 1 →
      (∀ slot, s'.frames[slot]? = if slot = s.depth then some ⟨type, now⟩ else s.frames[slot]?) →
      SlotTaken s type now (some s.depth) s'

/-- The begin of an operation takes the slot at the depth, or none. -/
theorem slotTaken_opsBegin (s : OpState) (type : OpType) (now : UInt64) :
    SlotTaken s type now (s.opsBegin type now).1.slot (s.opsBegin type now).2 := by
  unfold OpState.opsBegin
  split
  · exact .nowhere _ rfl rfl
  · next htype =>
    split
    · next hroom =>
      refine .top _ htype hroom rfl fun slot => ?_
      show (s.frames.set s.depth ⟨type, now⟩)[slot]? = _
      rw [Vector.getElem?_set]
      by_cases hslot : slot = s.depth
      · rw [if_pos hslot.symm, if_pos hslot]
      · rw [if_neg (Ne.symm hslot), if_neg hslot]
    · exact .nowhere _ rfl rfl

/-- The slot of a call that ends is let go of, and with it those above it that are free. -/
theorem release_slot (s : OpState) {slot : Nat} (hslot : slot < opStackMax) :
    (∀ slot', (s.release (some slot)).frames[slot']? =
      if slot' = slot then s.frames[slot]?.map fun f => { f with type := .none } else s.frames[slot']?) ∧
      (s.release (some slot)).depth = OpState.topFrom (s.release (some slot)).frames s.depth := by
  unfold OpState.release
  simp only [hslot, dite_true]
  refine ⟨fun slot' => ?_, trivial⟩
  rw [Vector.getElem?_set]
  by_cases heq : slot' = slot
  · rw [if_pos heq.symm, if_pos heq, Vector.getElem?_eq_getElem hslot]
    rfl
  · rw [if_neg (Ne.symm heq), if_neg heq]

/-! ## Who holds a slot -/

/-- `holds call slot f`: of the operations that have not ended, the one that began as number `call` is `f`, and
has `slot`. -/
structure Slots (s : OpState) (holds : Nat → Nat → OpFrame → Prop) : Prop where
  depth_le : s.depth ≤ opStackMax
  free : ∀ slot f, s.depth ≤ slot → s.frames[slot]? = some f → f.type = .none
  held : ∀ call slot f, holds call slot f → s.frames[slot]? = some f ∧ f.type ≠ .none
  owned : ∀ slot f, s.frames[slot]? = some f → f.type ≠ .none → ∃ call, holds call slot f
  ordered : ∀ call slot f call' slot' f', holds call slot f → holds call' slot' f' → call < call' → slot < slot'
  single : ∀ call slot f slot' f', holds call slot f → holds call slot' f' → slot = slot'

namespace Slots
variable {s s' : OpState} {holds : Nat → Nat → OpFrame → Prop} {call slot : Nat} {f : OpFrame}

/-- What holds the slots may be said otherwise. -/
theorem congr {holds' : Nat → Nat → OpFrame → Prop} (hs : Slots s holds)
    (h : ∀ call slot f, holds' call slot f ↔ holds call slot f) : Slots s holds' := by
  have heq : holds' = holds := funext fun call => funext fun slot => funext fun f => propext (h call slot f)
  rwa [heq]

/-- Two operations do not share a slot. -/
theorem unique (hs : Slots s holds) {call' : Nat} {f' : OpFrame} (hcall : holds call slot f)
    (hcall' : holds call' slot f') : call = call' := by
  rcases Nat.lt_trichotomy call call' with hlt | heq | hgt
  · exact absurd (hs.ordered _ _ _ _ _ _ hcall hcall' hlt) (Nat.lt_irrefl slot)
  · exact heq
  · exact absurd (hs.ordered _ _ _ _ _ _ hcall' hcall hgt) (Nat.lt_irrefl slot)

/-- A slot that is held is below the depth. -/
theorem below (hs : Slots s holds) (hcall : holds call slot f) : slot < s.depth := by
  obtain ⟨hframe, hused⟩ := hs.held call slot f hcall
  by_contra hge
  exact hused (hs.free slot _ (Nat.not_lt.mp hge) hframe)

/-- A slot that is held is not above the innermost one in use. -/
theorem lt_top (hs : Slots s holds) (hcall : holds call slot f) : slot < s.opsTop := by
  obtain ⟨hframe, hused⟩ := hs.held call slot f hcall
  by_contra hge
  exact hused (topFrom_free (Nat.not_lt.mp hge) (hs.below hcall) hframe)

/-- As long as somebody holds a slot, something is reported. -/
theorem current_ne_none (hs : Slots s holds) (hcall : holds call slot f) : s.opsCurrent ≠ .none := by
  have htop := hs.lt_top hcall
  obtain ⟨f', hf', hused⟩ := topFrom_used (Nat.zero_lt_of_lt htop)
  have hframe : s.frames[s.opsTop - 1]? = some f' := hf'
  rw [OpState.opsCurrent, if_neg (Nat.ne_of_gt (Nat.zero_lt_of_lt htop)), hframe]
  exact hused

/-- **What the crash record reports**: the last operation that holds a slot. -/
theorem current (hs : Slots s holds) (hcall : holds call slot f)
    (hlast : ∀ call' slot' f', holds call' slot' f' → call' ≤ call) :
    s.opsCurrent = f.type ∧ s.opsCurrentStart = f.startNs := by
  obtain ⟨hframe, hused⟩ := hs.held call slot f hcall
  -- The innermost slot in use is not below this one, and the operation that holds it is not a later one.
  have hslot := hs.lt_top hcall
  obtain ⟨f', hf', hfused⟩ := topFrom_used (Nat.zero_lt_of_lt hslot)
  obtain ⟨call', hcall'⟩ := hs.owned _ f' hf' hfused
  have htop : s.opsTop - 1 = slot := by
    by_contra hne
    rcases Nat.lt_or_eq_of_le (hlast _ _ _ hcall') with hlt | rfl
    · have hbelow := hs.ordered _ _ _ _ _ _ hcall' hcall hlt
      have hsame : OpState.topFrom s.frames s.depth = s.opsTop := rfl
      omega
    · exact hne (hs.single _ _ _ _ _ hcall' hcall)
  have hne : s.opsTop ≠ 0 := Nat.ne_of_gt (Nat.zero_lt_of_lt hslot)
  rw [OpState.opsCurrent, OpState.opsCurrentStart, if_neg hne, if_neg hne, htop, hframe]
  exact ⟨rfl, rfl⟩

/-- Nothing is reported when nobody holds a slot. -/
theorem current_none (hs : Slots s holds) (hnone : ∀ call slot f, ¬holds call slot f) :
    s.opsCurrent = .none ∧ s.opsCurrentStart = 0 := by
  have htop : s.opsTop = 0 := by
    by_contra hpos
    obtain ⟨f, hf, hused⟩ := topFrom_used (Nat.pos_of_ne_zero hpos)
    obtain ⟨call, hcall⟩ := hs.owned _ f hf hused
    exact hnone _ _ _ hcall
  rw [OpState.opsCurrent, OpState.opsCurrentStart, if_pos htop, if_pos htop]
  exact ⟨rfl, rfl⟩

/-! ### Steps -/

/-- Cleared slots are free. -/
theorem type_of_cleared {slot : Nat} {f : OpFrame} (hframes : s.frames = OpState.cleared.frames)
    (hf : s.frames[slot]? = some f) : f.type = .none := by
  rw [hframes] at hf
  obtain ⟨hlt, heq⟩ := Vector.getElem?_eq_some_iff.mp hf
  rw [← heq]
  show (Vector.replicate opStackMax (⟨.none, 0⟩ : OpFrame))[slot].type = .none
  rw [Vector.getElem_replicate]

/-- A state without slots in use. -/
theorem empty (hdepth : s.depth = 0) (hfree : ∀ (slot : Nat) (f : OpFrame), s.frames[slot]? = some f → f.type = .none)
    (hnone : ∀ call slot f, ¬holds call slot f) : Slots s holds where
  depth_le := by
    rw [hdepth]
    exact Nat.zero_le _
  free slot f _ hf := hfree slot f hf
  held call slot f hcall := absurd hcall (hnone call slot f)
  owned slot f hf hused := absurd (hfree slot f hf) hused
  ordered _ _ _ _ _ _ hcall := absurd hcall (hnone _ _ _)
  single _ _ _ _ _ hcall := absurd hcall (hnone _ _ _)

/-- A step that leaves the slots alone. -/
theorem kept (hs : Slots s holds) (hframes : s'.frames = s.frames) (hdepth : s'.depth = s.depth) :
    Slots s' holds where
  depth_le := hdepth ▸ hs.depth_le
  free := by
    rw [hdepth, hframes]
    exact hs.free
  held := by
    rw [hframes]
    exact hs.held
  owned := by
    rw [hframes]
    exact hs.owned
  ordered := hs.ordered
  single := hs.single

/-- The operation that begins as number `next`. -/
theorem taken (hs : Slots s holds) {type : OpType} {now : UInt64} {taken : Option Nat}
    (htaken : SlotTaken s type now taken s') {next : Nat} (hnext : ∀ call slot f, holds call slot f → call < next) :
    Slots s' fun call slot f => holds call slot f ∨ call = next ∧ taken = some slot ∧ f = ⟨type, now⟩ := by
  cases htaken with
  | nowhere _ hframes hdepth =>
    refine (hs.kept hframes hdepth).congr fun call slot f => ⟨?_, .inl⟩
    rintro (hold | ⟨-, hnew, -⟩)
    · exact hold
    · cases hnew
  | top _ htype hroom hdepth hframes =>
    refine ⟨?_, ?_, ?_, ?_, ?_, ?_⟩
    · rw [hdepth]
      exact hroom
    · intro slot f hge hf
      rw [hdepth] at hge
      rw [hframes, if_neg (by omega)] at hf
      exact hs.free slot f (by omega) hf
    · rintro call slot f (hold | ⟨-, hnew, rfl⟩)
      · rw [hframes, if_neg (Nat.ne_of_lt (hs.below hold))]
        exact hs.held _ _ _ hold
      · rw [hframes, if_pos (Option.some.inj hnew).symm]
        exact ⟨rfl, htype⟩
    · intro slot f hf hused
      rw [hframes] at hf
      split at hf
      · next heq =>
        exact ⟨next, .inr ⟨rfl, congrArg some heq.symm, (Option.some.inj hf).symm⟩⟩
      · obtain ⟨call, hcall⟩ := hs.owned slot f hf hused
        exact ⟨call, .inl hcall⟩
    · rintro call slot f call' slot' f' (hold | ⟨rfl, -, -⟩) (hold' | ⟨rfl, hnew, -⟩) hlt
      · exact hs.ordered _ _ _ _ _ _ hold hold' hlt
      · rw [← Option.some.inj hnew]
        exact hs.below hold
      · -- Nothing is later than the operation that has just begun.
        exact absurd (hnext _ _ _ hold') (Nat.not_lt.mpr hlt.le)
      · exact absurd hlt (Nat.lt_irrefl _)
    · rintro call slot f slot' f' (hold | ⟨rfl, hnew, -⟩) (hold' | ⟨hcall, hnew', -⟩)
      · exact hs.single _ _ _ _ _ hold hold'
      · exact absurd (hnext _ _ _ hold) (by omega)
      · exact absurd (hnext _ _ _ hold') (Nat.lt_irrefl _)
      · exact Option.some.inj (hnew.symm.trans hnew')

/-- The end of an operation that has no slot. -/
theorem dropped (hs : Slots s holds) (hnowhere : ∀ slot f, ¬holds call slot f) :
    Slots s fun call' slot f => holds call' slot f ∧ call' ≠ call := by
  refine hs.congr fun call' slot f => ⟨And.left, fun hcall => ⟨hcall, ?_⟩⟩
  rintro rfl
  exact hnowhere slot f hcall

/-- The end of an operation that has one. -/
theorem released (hs : Slots s holds) (hcall : holds call slot f)
    (hframes : s'.frames = (s.release (some slot)).frames) (hdepth : s'.depth = (s.release (some slot)).depth) :
    Slots s' fun call' slot' f' => holds call' slot' f' ∧ call' ≠ call := by
  obtain ⟨hframe, -⟩ := hs.held call slot f hcall
  obtain ⟨hreleased, htop⟩ := release_slot s (Vector.getElem?_eq_some_iff.mp hframe).1
  have hother : ∀ {call' slot' f'}, holds call' slot' f' → call' ≠ call → slot' ≠ slot := by
    rintro call' slot' f' hcall' hne rfl
    exact hne (hs.unique hcall' hcall)
  refine ⟨?_, ?_, ?_, ?_, ?_, ?_⟩
  · rw [hdepth, htop]
    exact (topFrom_le _ _).trans hs.depth_le
  -- The depth goes down past the slots that are free.
  · intro slot' f' hge hf
    rw [hdepth, htop] at hge
    rw [hframes] at hf
    by_cases hbelow : slot' < s.depth
    · exact topFrom_free hge hbelow hf
    · rw [hreleased, if_neg (by have := hs.below hcall; omega)] at hf
      exact hs.free slot' f' (Nat.not_lt.mp hbelow) hf
  · rintro call' slot' f' ⟨hold, hne⟩
    rw [hframes, hreleased, if_neg (hother hold hne)]
    exact hs.held _ _ _ hold
  · intro slot' f' hf hused
    rw [hframes, hreleased] at hf
    split at hf
    · rw [hframe] at hf
      cases hf
      exact absurd rfl hused
    · next hslot' =>
      obtain ⟨call', hold⟩ := hs.owned slot' f' hf hused
      refine ⟨call', hold, ?_⟩
      rintro rfl
      exact hslot' (hs.single _ _ _ _ _ hold hcall)
  · rintro _ _ _ _ _ _ ⟨hold, -⟩ ⟨hold', -⟩ hlt
    exact hs.ordered _ _ _ _ _ _ hold hold' hlt
  · rintro _ _ _ _ _ ⟨hold, -⟩ ⟨hold', -⟩
    exact hs.single _ _ _ _ _ hold hold'

end Slots

end CboxTelemetry.Extension
