import Mathlib.Data.List.Basic

/-!
# Chains of handlers

A handler that takes the place of another keeps what it found there, and calls it when it is called. The
handlers of a slot are then a chain, and a call of the slot walks it: `walk` calls the handler it finds,
and goes on at what that one calls. `Links next a hs b` is a stretch of the chain: from the pointer `a` the
handlers `hs` are called, and after them what is at `b`. A stretch that ends at no handler is what a walk
calls (`exists_walk`, `links_of_walk`), and there is only one such stretch (`Links.unique`).
-/

namespace Chain
variable {H S : Type*}

/-- A walk from a pointer, where the handler `h` does `act h` to the state: the handlers called, and the
state they leave. There is none if a handler does not return, or if there are more of them than `fuel`. -/
def walk (next : H → Option H) (act : H → S → Option S) : Nat → Option H → S → Option (List H × S)
  | _, none, s => some ([], s)
  | 0, some _, _ => none
  | fuel + 1, some h, s =>
    match act h s with
    | none => none
    | some s =>
      match walk next act fuel (next h) s with
      | none => none
      | some (called, s) => some (h :: called, s)

/-- From the pointer `a` the handlers `hs` are called, and then what is at `b`. -/
inductive Links (next : H → Option H) : Option H → List H → Option H → Prop
  | nil (a : Option H) : Links next a [] a
  | cons (h : H) {hs : List H} {b : Option H} : Links next (next h) hs b → Links next (some h) (h :: hs) b

variable {next next' : H → Option H} {a b c : Option H} {hs hs' : List H}

/-- A stretch depends on what its own handlers call, and on nothing else. -/
theorem Links.congr (h : Links next a hs b) (hsame : ∀ g ∈ hs, next' g = next g) : Links next' a hs b := by
  induction h with
  | nil a => exact .nil a
  | cons g _ ih =>
    apply Links.cons
    rw [hsame g List.mem_cons_self]
    exact ih fun g' hmem => hsame g' (List.mem_cons_of_mem _ hmem)

/-- A walk to the end is determined by its start. -/
theorem Links.unique (h : Links next a hs none) (h' : Links next a hs' none) : hs' = hs := by
  induction hs generalizing a hs' with
  | nil =>
    cases h
    cases h'
    rfl
  | cons g hs ih =>
    cases h with
    | cons _ hrest =>
      cases h' with
      | cons _ hrest' => rw [ih hrest hrest']

/-- A walk that comes to an end has gone along a stretch that does. -/
theorem links_of_walk {act : H → S → Option S} {fuel : Nat} {s s' : S}
    (h : walk next act fuel a s = some (hs, s')) : Links next a hs none := by
  induction fuel generalizing a s hs with
  | zero =>
    cases a with
    | none =>
      cases h
      exact .nil none
    | some g => cases h
  | succ fuel ih =>
    cases a with
    | none =>
      cases h
      exact .nil none
    | some g =>
      simp only [walk] at h
      -- The call fails, or the walk behind it does, or both go through.
      split at h
      · cases h
      · split at h
        · cases h
        next called _ hrest =>
          cases h
          exact .cons g (ih hrest)

/-- **A walk along a stretch that ends** comes to its end, if every handler returns. -/
theorem exists_walk {act : H → S → Option S} {inv : S → Prop}
    (hact : ∀ g s, inv s → ∃ s', act g s = some s' ∧ inv s') (h : Links next a hs none) {fuel : Nat}
    (hfuel : hs.length ≤ fuel) {s : S} (hinv : inv s) :
    ∃ s', walk next act fuel a s = some (hs, s') ∧ inv s' := by
  induction fuel generalizing a s hs with
  | zero =>
    cases h with
    | nil _ => exact ⟨s, rfl, hinv⟩
    | cons _ _ => cases hfuel
  | succ fuel ih =>
    cases h with
    | nil _ => exact ⟨s, rfl, hinv⟩
    -- The call keeps the invariant for the handlers behind it.
    | cons g hrest =>
      obtain ⟨s₁, hcall, hinv₁⟩ := hact g s hinv
      obtain ⟨s₂, hwalk, hinv₂⟩ := ih hrest (Nat.le_of_succ_le_succ hfuel) hinv₁
      refine ⟨s₂, ?_, hinv₂⟩
      simp only [walk, hcall, hwalk]

end Chain
