import Mathlib.Data.Fintype.Card
import Mathlib.Data.Nat.Find
import Mathlib.Data.Nat.ModEq
import Mathlib.Logic.Function.Basic

/-!
# Open addressing with linear probing

A table of `size` slots finds the entry of a key without storing the key in the slot: slot `s` holds
`0` when it is empty and `id + 1` when it belongs to entry `id`. A *probe* starts at the key's home
slot and goes on to the next slot until it meets an entry that hits or an empty slot.

`Chained` is what makes this a map: from the home slot of each key up to the slot of its entry there
is no empty slot. Under it, and with a slot to spare, a probe ends, it finds a key that is there
(`Chained.probe_found`), and where it does not, filling the empty slot keeps the table chained
(`Chained.insert`).
-/

namespace OpenAddressing

/-- How a probe ends: at an entry that hits, or at an empty slot. -/
inductive Probe
  | found (id : Nat)
  | free (slot : Nat)
  deriving DecidableEq

/-- The loop from slot `slot`. Without fuel there is no answer. -/
def probe (next : Nat → Nat) (bucket : Nat → Nat) (hit : Nat → Bool) : Nat → Nat → Option Probe
  | 0, _ => none
  | fuel + 1, slot =>
    match bucket slot with
    | 0 => some (.free slot)
    | id + 1 => if hit id then some (.found id) else probe next bucket hit fuel (next slot)

section walk
variable {size fuel home d : Nat} {next bucket : Nat → Nat} {hit : Nat → Bool}

theorem mod_next (hnext : ∀ s, next s = (s + 1) % size) (a : Nat) :
    next (a % size) = (a + 1) % size := by
  rw [hnext, Nat.mod_add_mod]

/-- A probe passes by slots that are taken by entries that do not hit. -/
theorem probe_pass (hnext : ∀ s, next s = (s + 1) % size)
    (hpass : ∀ j < d, ∃ id, bucket ((home + j) % size) = id + 1 ∧ hit id = false) (rest : Nat) :
    probe next bucket hit (d + rest) (home % size) =
      probe next bucket hit rest ((home + d) % size) := by
  -- By induction on the passed buckets: each one is taken and no hit, so the probe goes on.
  induction d generalizing home with
  | zero => rw [Nat.zero_add, Nat.add_zero]
  | succ d ih =>
    obtain ⟨id, hslot, hmiss⟩ := hpass 0 (Nat.succ_pos d)
    rw [Nat.add_zero] at hslot
    have htail : ∀ j < d, ∃ id, bucket ((home + 1 + j) % size) = id + 1 ∧ hit id = false := by
      intro j hj
      have := hpass (j + 1) (Nat.succ_lt_succ hj)
      rwa [← Nat.add_assoc, Nat.add_right_comm] at this
    have hrest := ih htail
    rw [Nat.add_right_comm d 1 rest, probe, hslot]
    simp only [hmiss, Bool.false_eq_true, if_false]
    rw [mod_next hnext, hrest, Nat.add_assoc, Nat.add_comm 1 d]

/-- A probe depends on the slots of the table and on what hits. -/
theorem probe_congr {bucket' : Nat → Nat} {hit' : Nat → Bool} (fuel : Nat) (hnext : ∀ s, next s < size)
    (hbucket : ∀ s < size, bucket' s = bucket s) (hhit : ∀ id, hit' id = hit id) {slot : Nat}
    (hslot : slot < size) :
    probe next bucket' hit' fuel slot = probe next bucket hit fuel slot := by
  induction fuel generalizing slot with
  | zero => rfl
  | succ fuel ih =>
    rw [probe, probe, hbucket slot hslot]
    cases bucket slot with
    | zero => rfl
    | succ id => simp only [hhit id, ih (hnext slot)]

end walk

/-- The entries `keys`, those from `first` on, are in the table: each slot belongs to one of them,
no two slots to the same, no two of them have one key, and each is reached from its home slot. -/
structure Chained {Key : Type*} (size first : Nat) (home : Key → Nat) (bucket : Nat → Nat)
    (keys : List Key) : Prop where
  of_bucket : ∀ s < size, ∀ id, bucket s = id + 1 → first ≤ id ∧ id < keys.length
  bucket_inj : ∀ s < size, ∀ t < size, bucket s ≠ 0 → bucket s = bucket t → s = t
  keys_inj : ∀ i j k, first ≤ i → first ≤ j → keys[i]? = some k → keys[j]? = some k → i = j
  reach : ∀ id k, first ≤ id → keys[id]? = some k → ∃ d < size,
    bucket ((home k + d) % size) = id + 1 ∧ ∀ j < d, bucket ((home k + j) % size) ≠ 0

namespace Chained
variable {Key : Type*} {size first : Nat} {home : Key → Nat} {next bucket : Nat → Nat}
  {keys : List Key} {hit : Nat → Bool} {k : Key}

/-- An empty table. -/
theorem empty (hbucket : ∀ s < size, bucket s = 0) (hkeys : keys.length ≤ first) :
    Chained size first home bucket keys where
  of_bucket s hs id h := by
    rw [hbucket s hs] at h
    cases h
  bucket_inj s hs _ _ hne _ := absurd (hbucket s hs) hne
  keys_inj i _ _ hi _ h _ := by
    obtain ⟨hlt, -⟩ := List.getElem?_eq_some_iff.mp h
    omega
  reach id k hid h := by
    obtain ⟨hlt, -⟩ := List.getElem?_eq_some_iff.mp h
    omega

/-- A table with more slots than entries has an empty slot. -/
theorem exists_free (h : Chained size first home bucket keys) (hload : keys.length < size) :
    ∃ s < size, bucket s = 0 := by
  -- Were all buckets taken, each would hold another key, and there are fewer keys than buckets.
  by_contra hfull
  have hfull : ∀ s : Fin size, bucket s ≠ 0 := fun s hs => hfull ⟨s, s.isLt, hs⟩
  have hentry : ∀ s : Fin size, bucket s - 1 < keys.length := by
    intro s
    obtain ⟨id, hid⟩ := Nat.exists_eq_succ_of_ne_zero (hfull s)
    have := (h.of_bucket s s.isLt id hid).2
    omega
  have hinj : Function.Injective fun s : Fin size => (⟨bucket s - 1, hentry s⟩ : Fin keys.length) := by
    intro s t hst
    have hst : bucket s - 1 = bucket t - 1 := Fin.mk.inj hst
    refine Fin.ext (h.bucket_inj s s.isLt t t.isLt (hfull s) ?_)
    have := hfull s
    have := hfull t
    omega
  have hcard := Fintype.card_le_of_injective _ hinj
  rw [Fintype.card_fin, Fintype.card_fin] at hcard
  omega

/-- From any home there is a first empty slot, less than a whole round away. -/
theorem exists_first_free (h : Chained size first home bucket keys) (hload : keys.length < size)
    (a : Nat) : ∃ d < size, bucket ((a + d) % size) = 0 ∧ ∀ j < d, bucket ((a + j) % size) ≠ 0 := by
  obtain ⟨s, hs, hfree⟩ := h.exists_free hload
  have hround : ∃ d, bucket ((a + d) % size) = 0 ∧ d < size := by
    have hpos : 0 < size := Nat.zero_lt_of_lt hs
    refine ⟨(s + (size - a % size)) % size, ?_, Nat.mod_lt _ hpos⟩
    have ha := Nat.mod_lt a hpos
    rw [Nat.add_mod_mod, ← Nat.mod_add_mod, ← Nat.add_assoc, Nat.add_comm (a % size) s,
      Nat.add_assoc, Nat.add_sub_cancel' ha.le, Nat.add_mod_right, Nat.mod_eq_of_lt hs]
    exact hfree
  classical
  refine ⟨Nat.find hround, (Nat.find_spec hround).2, (Nat.find_spec hround).1, ?_⟩
  intro j hj hbucket
  exact Nat.find_min hround hj ⟨hbucket, hj.trans (Nat.find_spec hround).2⟩

/-- The slots passed on the way belong to entries with another key, so they do not hit. -/
theorem misses (h : Chained size first home bucket keys) (hpos : 0 < size)
    (hhit : ∀ id k', first ≤ id → keys[id]? = some k' → (hit id = true ↔ k' = k)) {s : Nat}
    (htaken : bucket (s % size) ≠ 0) :
    ∃ id, bucket (s % size) = id + 1 ∧ (hit id = false ∨ first ≤ id ∧ keys[id]? = some k) := by
  obtain ⟨id, hid⟩ := Nat.exists_eq_succ_of_ne_zero htaken
  obtain ⟨hfirst, hlt⟩ := h.of_bucket _ (Nat.mod_lt s hpos) id hid
  refine ⟨id, hid, ?_⟩
  have hiff := hhit id keys[id] hfirst (List.getElem?_eq_getElem hlt)
  cases hcase : hit id with
  | false => exact .inl rfl
  | true =>
    have hkey := hiff.mp hcase
    exact .inr ⟨hfirst, hkey ▸ List.getElem?_eq_getElem hlt⟩

/-- A key that is in the table is found. -/
theorem probe_found (h : Chained size first home bucket keys) (hnext : ∀ s, next s = (s + 1) % size)
    (hhit : ∀ id k', first ≤ id → keys[id]? = some k' → (hit id = true ↔ k' = k)) {id : Nat}
    (hid : first ≤ id) (hkey : keys[id]? = some k) :
    probe next bucket hit size (home k % size) = some (.found id) := by
  obtain ⟨d, hd, hslot, htaken⟩ := h.reach id k hid hkey
  have hpos : 0 < size := Nat.zero_lt_of_lt hd
  have hpass : ∀ j < d, ∃ i, bucket ((home k + j) % size) = i + 1 ∧ hit i = false := by
    intro j hj
    obtain ⟨i, hi, hmiss | ⟨hfirst, hsame⟩⟩ := h.misses hpos hhit (htaken j hj)
    · exact ⟨i, hi, hmiss⟩
    · -- The same entry in two slots: they would be one slot, less than a round apart.
      have hii := h.keys_inj i id k hfirst hid hsame hkey
      rw [hii, ← hslot] at hi
      have hmod := h.bucket_inj _ (Nat.mod_lt _ hpos) _ (Nat.mod_lt _ hpos) (htaken j hj) hi
      have hjd : j % size = d % size := Nat.ModEq.add_left_cancel' _ hmod
      rw [Nat.mod_eq_of_lt (hj.trans hd), Nat.mod_eq_of_lt hd] at hjd
      exact absurd hjd hj.ne
  obtain ⟨rest, rfl⟩ := Nat.exists_eq_add_of_lt hd
  have hfuel : d + rest + 1 = d + (rest + 1) := Nat.add_assoc d rest 1
  rw [hfuel] at hpass hslot hnext ⊢
  rw [probe_pass hnext hpass, probe, hslot]
  simp only [(hhit id k hid hkey).mpr rfl, if_true]

/-- A key that is not in the table leads to the first empty slot after its home. -/
theorem probe_free (h : Chained size first home bucket keys) (hnext : ∀ s, next s = (s + 1) % size)
    (hload : keys.length < size)
    (hhit : ∀ id k', first ≤ id → keys[id]? = some k' → (hit id = true ↔ k' = k))
    (hnew : ∀ id, first ≤ id → keys[id]? ≠ some k) :
    ∃ d < size, probe next bucket hit size (home k % size) = some (.free ((home k + d) % size)) ∧
      bucket ((home k + d) % size) = 0 ∧ ∀ j < d, bucket ((home k + j) % size) ≠ 0 := by
  obtain ⟨d, hd, hfree, htaken⟩ := h.exists_first_free hload (home k)
  -- Every bucket on the way holds another key, for this one is not in the table.
  have hpass : ∀ j < d, ∃ i, bucket ((home k + j) % size) = i + 1 ∧ hit i = false := by
    intro j hj
    obtain ⟨i, hi, hmiss | ⟨hfirst, hsame⟩⟩ := h.misses (Nat.zero_lt_of_lt hd) hhit (htaken j hj)
    · exact ⟨i, hi, hmiss⟩
    · exact absurd hsame (hnew i hfirst)
  refine ⟨d, hd, ?_, hfree, htaken⟩
  obtain ⟨rest, rfl⟩ := Nat.exists_eq_add_of_lt hd
  have hfuel : d + rest + 1 = d + (rest + 1) := Nat.add_assoc d rest 1
  rw [hfuel] at hpass hfree hnext ⊢
  rw [probe_pass hnext hpass, probe, hfree]

/-- Filling the empty slot that the probe met, with a new entry at the end. -/
theorem insert (h : Chained size first home bucket keys) (hfirst : first ≤ keys.length)
    (hnew : ∀ id, first ≤ id → keys[id]? ≠ some k) {d : Nat} (hd : d < size)
    (hfree : bucket ((home k + d) % size) = 0)
    (htaken : ∀ j < d, bucket ((home k + j) % size) ≠ 0) :
    Chained size first home
      (Function.update bucket ((home k + d) % size) (keys.length + 1)) (keys ++ [k]) where
  of_bucket s hs id hid := by
    rw [List.length_append, List.length_singleton]
    rw [Function.update_apply] at hid
    -- The new bucket holds the new key, the others what they held.
    split at hid
    · cases hid
      exact ⟨hfirst, Nat.lt_succ_self _⟩
    · obtain ⟨hle, hlt⟩ := h.of_bucket s hs id hid
      exact ⟨hle, Nat.lt_succ_of_lt hlt⟩
  bucket_inj s hs t ht hne heq := by
    -- No bucket held the new key before.
    have hold : ∀ u < size, bucket u ≠ keys.length + 1 := by
      intro u hu hbucket
      exact absurd (h.of_bucket u hu _ hbucket).2 (Nat.lt_irrefl _)
    simp only [Function.update_apply] at hne heq
    split at heq
    next hs' =>
      split at heq
      next ht' => rw [hs', ht']
      next ht' => exact absurd heq.symm (hold t ht)
    next hs' =>
      split at heq
      next ht' => exact absurd heq (hold s hs)
      next ht' =>
        rw [if_neg hs'] at hne
        exact h.bucket_inj s hs t ht hne heq
  -- The key is new, so it is none of the old ones.
  keys_inj i j k' hi hj hki hkj := by
    rw [List.getElem?_append] at hki hkj
    split at hki
    next hilt =>
      split at hkj
      next hjlt => exact h.keys_inj i j k' hi hj hki hkj
      next hjle =>
        rw [List.getElem?_singleton] at hkj
        split at hkj
        · cases hkj
          exact absurd hki (hnew i hi)
        · cases hkj
    next hile =>
      rw [List.getElem?_singleton] at hki
      split at hki
      next hi0 =>
        cases hki
        split at hkj
        next hjlt => exact absurd hkj (hnew j hj)
        next hjle =>
          rw [List.getElem?_singleton] at hkj
          split at hkj
          · omega
          · cases hkj
      · cases hki
  -- The way to an old key crosses only taken buckets, and the new one was free.
  reach id k' hid hkey := by
    have hother : ∀ s, bucket s ≠ 0 → Function.update bucket ((home k + d) % size) (keys.length + 1) s
        = bucket s := by
      intro s hs
      refine Function.update_of_ne ?_ _ _
      rintro rfl
      exact hs hfree
    rw [List.getElem?_append] at hkey
    split at hkey
    · obtain ⟨e, he, hslot, hway⟩ := h.reach id k' hid hkey
      refine ⟨e, he, ?_, ?_⟩
      · rw [hother _ (hslot ▸ Nat.succ_ne_zero id), hslot]
      · intro j hj
        rw [hother _ (hway j hj)]
        exact hway j hj
    next hle =>
      rw [List.getElem?_singleton] at hkey
      split at hkey
      next hzero =>
        cases hkey
        have hlast : id = keys.length := by omega
        refine ⟨d, hd, ?_, ?_⟩
        · rw [Function.update_self, hlast]
        · intro j hj
          rw [hother _ (htaken j hj)]
          exact htaken j hj
      · cases hkey

end Chained

end OpenAddressing
