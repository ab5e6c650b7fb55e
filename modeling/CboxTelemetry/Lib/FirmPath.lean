import CboxTelemetry.Lib.FileTree

/-!
# Firm paths

What a call of one user can change is `Permitted`. To a user `me` all others but root are strangers; an entry
is `Kept` when no stranger may alter it, and a path is `Firm` when every lookup on it is settled in this
way.
-/

namespace FileTree
variable {t t' : FileTree} {u me : Uid}

/-- What a call of the user `u` leaves: the mode and the group of an object belong to its owner, an entry to
whoever may alter it, and a directory is found elsewhere, or has another parent, only if `u` could take it
away from where it was. -/
structure Permitted (u : Uid) (t t' : FileTree) : Prop where
  root : t'.root = t.root
  member : t'.member = t.member
  stat : ∀ i s, t.stat i = some s →
    ∃ s', t'.stat i = some s' ∧ s'.uid = s.uid ∧ s'.kind = s.kind ∧ (s.uid ≠ u → s' = s)
  kept : ∀ d n i, t.isDir d → t.entry d n = some i → t.mayAlter u d i = false → t'.entry d n = some i
  missing : ∀ d n, t.isDir d → t.entry d n = none → t.may Perm.write u d = false → t'.entry d n = none
  held : ∀ d n i, t.isDir i → t'.entry d n = some i →
    t.entry d n = some i ∨ ∃ d₀ n₀, t.entry d₀ n₀ = some i ∧ t.mayAlter u d₀ i
  up : ∀ i, t.isDir i → t'.up i = t.up i ∨ ∃ d₀ n₀, t.entry d₀ n₀ = some i ∧ t.mayAlter u d₀ i

theorem exists_stat_of_isDir {i : Ino} (h : t.isDir i) : ∃ s, t.stat i = some s ∧ s.kind = .dir := by
  rw [isDir, beq_iff_eq, kind, Option.map_eq_some_iff] at h
  exact h

/-- A name leads nowhere when it is an ordinary one with no entry. -/
theorem child_eq_none {d : Ino} {n : Name} :
    t.child d n = none ↔ n ≠ dot ∧ n ≠ dotdot ∧ t.entry d n = none := by
  rw [child]
  by_cases hdot : n = dot
  · simp [hdot]
  · by_cases hdd : n = dotdot
    · rw [if_neg hdot, if_pos hdd]
      simp [hdd]
    · simp [hdot, hdd]

/-- A new entry leads to the new inode, and the new inode has no entries. -/
theorem entry_create (d : Ino) (n : Name) (i : Ino) (s : Stat) (d' : Ino) (n' : Name) :
    (t.create d n i s).entry d' n'
      = if d' = d ∧ n' = n then some i else if d' = i then none else t.entry d' n' := by
  simp only [create, entry_setEntry]
  congr 1
  by_cases hd : d' = i
  · simp [entry, setUp, hd]
  · simp [entry, setUp, hd]

theorem proper_iff {n : Name} : proper n ↔ n ≠ [] ∧ n ≠ dot ∧ n ≠ dotdot := by
  simp [proper, and_assoc]

theorem child_of_ne {d : Ino} {n : Name} (hdot : n ≠ dot) (hdotdot : n ≠ dotdot) :
    t.child d n = t.entry d n := by
  rw [child, if_neg hdot, if_neg hdotdot]

/-- A new object under a new entry. -/
theorem permitted_create {d : Ino} {n : Name} {i : Ino} {s : Stat} (hadd : t.mayAdd u d n)
    (hfresh : t.stat i = none) : Permitted u t (t.create d n i s) := by
  simp only [mayAdd, Bool.and_eq_true, beq_iff_eq] at hadd
  obtain ⟨⟨⟨hdir, hwrite⟩, -⟩, hnone⟩ := hadd
  -- The new inode was none before, so it is no directory of the tree.
  have hne : ∀ j, t.isDir j → j ≠ i := by
    rintro j hj rfl
    obtain ⟨s, hs, -⟩ := exists_stat_of_isDir hj
    rw [hfresh] at hs
    cases hs
  refine ⟨rfl, rfl, ?_, ?_, ?_, ?_, ?_⟩
  · intro j r hr
    have hj : j ≠ i := by
      rintro rfl
      rw [hfresh] at hr
      cases hr
    exact ⟨r, by rw [← hr]; exact Function.update_of_ne hj _ _, rfl, rfl, fun _ => rfl⟩
  -- The entries there were are kept, and no other is written over.
  · intro d' n' j hd' hentry _
    rw [entry_create, if_neg, if_neg (hne d' hd'), hentry]
    rintro ⟨rfl, rfl⟩
    rw [hnone] at hentry
    cases hentry
  · intro d' n' hd' hentry hwrite'
    rw [entry_create, if_neg, if_neg (hne d' hd'), hentry]
    rintro ⟨rfl, rfl⟩
    rw [hwrite] at hwrite'
    cases hwrite'
  -- The only new entry leads to the new inode, which is none of the old ones.
  · intro d' n' j hj hentry
    rw [entry_create] at hentry
    split at hentry
    · cases hentry
      exact absurd rfl (hne _ hj)
    · split at hentry
      · cases hentry
      · exact .inl hentry
  · intro j hj
    exact .inl (Function.update_of_ne (hne j hj) _ _)

/-- A second entry of what is no directory. -/
theorem permitted_link {d : Ino} {n : Name} {i : Ino} (hadd : t.mayAdd u d n) (hi : t.isDir i = false) :
    Permitted u t (t.setEntry d n (some i)) := by
  simp only [mayAdd, Bool.and_eq_true, beq_iff_eq] at hadd
  obtain ⟨⟨⟨-, hwrite⟩, -⟩, hnone⟩ := hadd
  refine ⟨rfl, rfl, fun j r hr => ⟨r, hr, rfl, rfl, fun _ => rfl⟩, ?_, ?_, ?_, fun j _ => .inl rfl⟩
  -- The name was free, so every entry there was is kept.
  · intro d' n' j _ hentry _
    rw [entry_setEntry, if_neg, hentry]
    rintro ⟨rfl, rfl⟩
    rw [hnone] at hentry
    cases hentry
  · intro d' n' _ hentry hwrite'
    rw [entry_setEntry, if_neg, hentry]
    rintro ⟨rfl, rfl⟩
    rw [hwrite] at hwrite'
    cases hwrite'
  · intro d' n' j hj hentry
    rw [entry_setEntry] at hentry
    split at hentry
    · cases hentry
      rw [hi] at hj
      cases hj
    · exact .inl hentry

/-- Removing an entry the user may alter is permitted. -/
theorem permitted_remove {d : Ino} {n : Name} {i : Ino} (hentry : t.entry d n = some i)
    (halter : t.mayAlter u d i) : Permitted u t (t.setEntry d n none) := by
  refine ⟨rfl, rfl, fun j r hr => ⟨r, hr, rfl, rfl, fun _ => rfl⟩, ?_, ?_, ?_, fun j _ => .inl rfl⟩
  -- The removed entry is not one that is kept from the user.
  · intro d' n' j _ hentry' hkept
    rw [entry_setEntry, if_neg, hentry']
    rintro ⟨rfl, rfl⟩
    rw [hentry] at hentry'
    cases hentry'
    rw [halter] at hkept
    cases hkept
  · intro d' n' _ hentry' _
    rw [entry_setEntry, hentry', ite_self]
  · intro d' n' j _ hentry'
    rw [entry_setEntry] at hentry'
    split at hentry'
    · cases hentry'
    · exact .inl hentry'

/-- A move puts the inode at its new place and takes it from the old one. -/
theorem entry_move (d : Ino) (n : Name) (d' : Ino) (n' : Name) (i : Ino) (e : Ino) (m : Name) :
    (t.move d n d' n' i).entry e m
      = if e = d' ∧ m = n' then some i else if e = d ∧ m = n then none else t.entry e m := by
  have h : (t.move d n d' n' i).entry e m
      = ((t.setEntry d n none).setEntry d' n' (some i)).entry e m := by
    simp only [move]
    split <;> rfl
  rw [h, entry_setEntry, entry_setEntry]

/-- A move changes no inode. -/
theorem stat_move (d : Ino) (n : Name) (d' : Ino) (n' : Name) (i : Ino) :
    (t.move d n d' n' i).stat = t.stat := by
  simp only [move]
  split <;> rfl

/-- A rename takes the entry away, and what the new name stood for. -/
theorem permitted_move {d : Ino} {n : Name} {d' : Ino} {n' : Name} {i : Ino}
    (hentry : t.entry d n = some i) (halter : t.mayAlter u d i) (hwrite : t.may Perm.write u d')
    (hover : ∀ j, t.entry d' n' = some j → t.mayAlter u d' j) : Permitted u t (t.move d n d' n' i) := by
  refine ⟨?_, ?_, ?_, ?_, ?_, ?_, ?_⟩
  · simp only [move]
    split <;> rfl
  · simp only [move]
    split <;> rfl
  · intro j r hr
    exact ⟨r, by rw [stat_move, hr], rfl, rfl, fun _ => rfl⟩
  -- Neither the moved entry nor the one it replaces is kept from the user.
  · intro e m j _ he hkept
    rw [entry_move, if_neg, if_neg, he]
    · rintro ⟨rfl, rfl⟩
      rw [hentry] at he
      cases he
      rw [halter] at hkept
      cases hkept
    · rintro ⟨rfl, rfl⟩
      rw [hover j he] at hkept
      cases hkept
  · intro e m _ he hwrite'
    rw [entry_move, if_neg, he, ite_self]
    rintro ⟨rfl, rfl⟩
    rw [hwrite] at hwrite'
    cases hwrite'
  -- A directory with a new parent is the one moved, and the user may alter it.
  · intro e m j _ he
    rw [entry_move] at he
    split at he
    · cases he
      exact .inr ⟨d, n, hentry, halter⟩
    · split at he
      · cases he
      · exact .inl he
  -- A directory has another parent above it only when it is the one moved.
  · intro j _
    by_cases hj : j = i
    · subst hj
      exact .inr ⟨d, n, hentry, halter⟩
    · refine .inl ?_
      simp only [move]
      split
      · exact Function.update_of_ne hj _ _
      · rfl

/-- The owner's change of a mode or a group. -/
theorem permitted_setStat {i : Ino} {s s' : Stat} (hs : t.stat i = some s) (howner : s.uid = u)
    (huid : s'.uid = s.uid) (hkind : s'.kind = s.kind) : Permitted u t (t.setStat i s') := by
  refine ⟨rfl, rfl, ?_, fun _ _ _ _ h _ => h, fun _ _ _ h _ => h, fun _ _ _ _ h => .inl h,
    fun _ _ => .inl rfl⟩
  intro j r hr
  by_cases hj : j = i
  · subst hj
    rw [hs] at hr
    cases hr
    exact ⟨s', Function.update_self _ _ _, huid, hkind, fun h => absurd howner h⟩
  · exact ⟨r, by rw [← hr]; exact Function.update_of_ne hj _ _, rfl, rfl, fun _ => rfl⟩

theorem exists_stat_of_owner {i : Ino} (h : t.owner i = some u) : ∃ s, t.stat i = some s ∧ s.uid = u := by
  rwa [owner, Option.map_eq_some_iff] at h

/-- Every call of a user is permitted. -/
theorem UserOp.permitted {op : UserOp} (h : op.run t u = some t') : Permitted u t t' := by
  -- Each operation checks the rights it needs before it does anything.
  cases op with
  | create d n i s =>
    rw [UserOp.run, Option.ite_none_right_eq_some] at h
    obtain ⟨hif, h⟩ := h
    cases h
    simp only [Bool.and_eq_true, beq_iff_eq] at hif
    exact permitted_create hif.1.1 hif.1.2
  | link d n i =>
    rw [UserOp.run, Option.ite_none_right_eq_some] at h
    obtain ⟨hif, h⟩ := h
    cases h
    simp only [Bool.and_eq_true, Bool.not_eq_true'] at hif
    exact permitted_link hif.1.1 hif.2
  | remove d n =>
    rw [UserOp.run] at h
    split at h
    · rename_i i hentry
      rw [Option.ite_none_right_eq_some] at h
      obtain ⟨hif, h⟩ := h
      cases h
      rw [removable, Bool.and_eq_true] at hif
      exact permitted_remove hentry hif.1
    · cases h
  | rename d n d' n' =>
    rw [UserOp.run] at h
    split at h
    · rename_i i hentry
      rw [Option.ite_none_right_eq_some] at h
      obtain ⟨hif, h⟩ := h
      cases h
      simp only [Bool.and_eq_true, movable] at hif
      obtain ⟨⟨⟨⟨⟨halter, -⟩, -⟩, hwrite⟩, -⟩, hover⟩ := hif
      refine permitted_move hentry halter hwrite ?_
      intro j hj
      rw [hj, Option.all_some, removable, Bool.and_eq_true] at hover
      exact hover.1
    · cases h
  -- Only the owner changes a mode or a group.
  | chmod i m =>
    rw [UserOp.run, Option.ite_none_right_eq_some] at h
    obtain ⟨hif, h⟩ := h
    obtain ⟨s, hs, howner⟩ := exists_stat_of_owner (beq_iff_eq.mp hif)
    cases h
    rw [FileTree.chmod, hs]
    exact permitted_setStat hs howner rfl rfl
  | chgrp i g =>
    rw [UserOp.run, Option.ite_none_right_eq_some, Bool.and_eq_true] at h
    obtain ⟨⟨hif, -⟩, h⟩ := h
    obtain ⟨s, hs, howner⟩ := exists_stat_of_owner (beq_iff_eq.mp hif)
    cases h
    rw [FileTree.chgrp, hs]
    exact permitted_setStat hs howner rfl rfl

/-! ## Strangers -/

/-- Whom `me` does not trust: anybody but root. -/
def Stranger (me u : Uid) : Prop := u ≠ 0 ∧ u ≠ me

section
variable (me : Uid) (t : FileTree)

/-- The object belongs to root or to `me`. -/
def Owned (i : Ino) : Prop := ∃ s, t.stat i = some s ∧ (s.uid = 0 ∨ s.uid = me)

/-- No stranger can write to the directory. -/
def Shut (d : Ino) : Prop := Owned me t d ∧ ∀ u, Stranger me u → t.may Perm.write u d = false

/-- A stranger who can write to the directory has to respect its sticky bit. -/
def Restricted (d : Ino) : Prop :=
  Owned me t d ∧ (t.sticky d ∨ ∀ u, Stranger me u → t.may Perm.write u d = false)

/-- No stranger may alter an entry of `d` that stands for `i`. -/
def Kept (d i : Ino) : Prop :=
  Owned me t d ∧ (t.stat i).isSome ∧ ∀ u, Stranger me u → t.mayAlter u d i = false

/-- No stranger can change what the name finds in the directory `d`. For `..` these are the entries that
stand for `d` itself. -/
def Settled (d : Ino) (n : Name) (i : Ino) : Prop :=
  if n = dot then True
  else if n = dotdot then (t.stat i).isSome ∧ ∀ p m, t.entry p m = some d → Kept me t p d
  else Kept me t d i

end

/-- An entry of a restricted directory is kept from strangers when its inode is not theirs. -/
theorem Restricted.kept {d i : Ino} (h : Restricted me t d) (hi : Owned me t i) : Kept me t d i := by
  obtain ⟨⟨s, hs, hsowner⟩, hwrite⟩ := h
  obtain ⟨r, hr, hrowner⟩ := hi
  refine ⟨⟨s, hs, hsowner⟩, by simp [hr], ?_⟩
  intro u hu
  -- In a sticky directory the owner decides, in another one the right to write.
  rcases hwrite with hsticky | hwrite
  · have hd : s.uid ≠ u := by
      rintro rfl
      rcases hsowner with h | h
      · exact hu.1 h
      · exact hu.2 h
    have hi : r.uid ≠ u := by
      rintro rfl
      rcases hrowner with h | h
      · exact hu.1 h
      · exact hu.2 h
    simp [mayAlter, hsticky, owner, hs, hr, hd, hi, hu.1]
  · rw [mayAlter, hwrite u hu, Bool.false_and]

/-! ## What names lead to -/

theorem leads_nil (fuel : Nat) (d : Ino) : t.leads fuel d [] = some d := by
  cases fuel <;> rfl

theorem leads_notDir {fuel : Nat} {d : Ino} {n : Name} {rest : List Name} (hdir : t.isDir d = false) :
    t.leads (fuel + 1) d (n :: rest) = none := by
  simp [FileTree.leads, walk, hdir]

theorem leads_missing {fuel : Nat} {d : Ino} {n : Name} {rest : List Name} (hdir : t.isDir d)
    (hchild : t.child d n = none) : t.leads (fuel + 1) d (n :: rest) = none := by
  simp [FileTree.leads, walk, hdir, hchild]

/-- Through a directory the path goes on behind it. -/
theorem leads_through {fuel : Nat} {d i : Ino} {n : Name} {rest : List Name} (hdir : t.isDir d)
    (hchild : t.child d n = some i) (htarget : t.target i = none) :
    t.leads (fuel + 1) d (n :: rest) = t.leads fuel i rest := by
  simp [FileTree.leads, walk, hdir, hchild, htarget]

/-- Through a link the path goes on with the names of the link in front. -/
theorem leads_link {fuel : Nat} {d i : Ino} {n : Name} {rest : List Name} {p : Path} (hdir : t.isDir d)
    (hchild : t.child d n = some i) (htarget : t.target i = some p) :
    t.leads (fuel + 1) d (n :: rest) = t.leads fuel (t.start d p) (p.names ++ rest) := by
  simp [FileTree.leads, walk, hdir, hchild, htarget]

/-- What names lead to for one who may pass, they lead to. -/
theorem walk_all {search : Ino → Bool} {follow : Bool} {fuel : Nat} {d i : Ino} {names : List Name}
    (h : t.walk search follow fuel d names = some i) :
    t.walk (fun _ => true) follow fuel d names = some i := by
  induction fuel generalizing d names with
  | zero =>
    cases names with
    | nil => exact h
    | cons n rest => cases h
  | succ fuel ih =>
    cases names with
    | nil => exact h
    | cons n rest =>
      simp only [walk, Bool.and_true] at h ⊢
      -- The search right is asked for at each directory, and walking without it asks for less.
      by_cases hdir : t.isDir d && search d
      · rw [if_pos hdir] at h
        rw [Bool.and_eq_true] at hdir
        rw [if_pos hdir.1]
        cases hchild : t.child d n with
        | none => simp [hchild] at h
        | some j =>
          cases htarget : t.target j with
          | none =>
            simp only [hchild, htarget] at h ⊢
            exact ih h
          | some p =>
            simp only [hchild, htarget] at h ⊢
            split at h
            -- The last name is not followed, any other link is.
            · rename_i hlast
              rwa [if_pos hlast]
            · rename_i hlast
              rw [if_neg hlast]
              exact ih h
      · rw [if_neg hdir] at h
        cases h

/-- The last name is looked up in what the names before it lead to. -/
theorem walk_concat {fuel : Nat} {d i : Ino} {names : List Name} {n : Name}
    (h : t.walk (fun _ => true) false fuel d (names ++ [n]) = some i) :
    ∃ p, t.leads fuel d names = some p ∧ t.isDir p ∧ t.child p n = some i := by
  induction fuel generalizing d names with
  | zero => cases names <;> cases h
  | succ fuel ih =>
    cases names with
    -- The walk is at its last name.
    | nil =>
      refine ⟨d, rfl, ?_⟩
      simp only [List.nil_append, walk, Bool.and_true] at h
      by_cases hdir : t.isDir d
      · refine ⟨hdir, ?_⟩
        rw [if_pos hdir] at h
        cases hchild : t.child d n with
        | none => simp [hchild] at h
        | some j =>
          cases htarget : t.target j with
          | none =>
            simp only [hchild, htarget] at h
            cases fuel <;> exact h
          -- The last name is a link, which is not followed.
          | some p => simpa [hchild, htarget] using h
      · rw [if_neg hdir] at h
        cases h
    -- Before the last name: a directory or a link, and the rest of the walk behind it.
    | cons m rest =>
      simp only [List.cons_append, walk, Bool.and_true] at h
      by_cases hdir : t.isDir d
      · rw [if_pos hdir] at h
        cases hchild : t.child d m with
        | none => simp [hchild] at h
        | some j =>
          cases htarget : t.target j with
          | none =>
            simp only [hchild, htarget] at h
            rw [leads_through hdir hchild htarget]
            exact ih h
          | some p =>
            simp only [hchild, htarget, List.append_eq_nil_iff, List.cons_ne_self, and_false, false_and,
              if_false] at h
            rw [leads_link hdir hchild htarget]
            exact ih (by rw [List.append_assoc]; exact h)
      · rw [if_neg hdir] at h
        cases h

/-- What is no link is found whether links are followed or not. -/
theorem walk_follow {fuel : Nat} {d i : Ino} {names : List Name}
    (h : t.walk (fun _ => true) false fuel d names = some i) (htarget : t.target i = none) :
    t.leads fuel d names = some i := by
  induction fuel generalizing d names with
  | zero =>
    cases names with
    | nil => exact h
    | cons n rest => cases h
  | succ fuel ih =>
    cases names with
    | nil => exact h
    | cons n rest =>
      simp only [walk, Bool.and_true] at h
      by_cases hdir : t.isDir d
      · rw [if_pos hdir] at h
        cases hchild : t.child d n with
        | none => simp [hchild] at h
        | some j =>
          cases hj : t.target j with
          | none =>
            simp only [hchild, hj] at h
            rw [leads_through hdir hchild hj]
            exact ih h
          | some p =>
            simp only [hchild, hj] at h
            -- The last name was not followed, and it is no link.
            split at h
            · cases h
              rw [hj] at htarget
              cases htarget
            · rw [leads_link hdir hchild hj]
              exact ih h
      · rw [if_neg hdir] at h
        cases h

/-! ## Firm paths -/

/-- No stranger can change what any of the lookups finds that the names ask for, and what they lead to meets
`post`. -/
inductive Firm (me : Uid) (t : FileTree) (post : Ino → Prop) : Nat → Ino → List Name → Prop
  | here {fuel : Nat} {d : Ino} : post d → Firm me t post fuel d []
  | spent {d : Ino} {n : Name} {rest : List Name} : Firm me t post 0 d (n :: rest)
  | notDir {fuel : Nat} {d : Ino} {n : Name} {rest : List Name} {k : Kind} :
      t.kind d = some k → k ≠ .dir → Firm me t post (fuel + 1) d (n :: rest)
  | missing {fuel : Nat} {d : Ino} {n : Name} {rest : List Name} :
      t.isDir d → t.child d n = none → Shut me t d → Firm me t post (fuel + 1) d (n :: rest)
  | through {fuel : Nat} {d i : Ino} {n : Name} {rest : List Name} :
      t.isDir d → t.child d n = some i → Settled me t d n i → t.target i = none →
      Firm me t post fuel i rest → Firm me t post (fuel + 1) d (n :: rest)
  | link {fuel : Nat} {d i : Ino} {n : Name} {rest : List Name} {p : Path} :
      t.isDir d → t.child d n = some i → Settled me t d n i → t.target i = some p →
      Firm me t post fuel (t.start d p) (p.names ++ rest) → Firm me t post (fuel + 1) d (n :: rest)

/-- What a change leaves when it does not touch a settled lookup. -/
structure Steady (me : Uid) (t t' : FileTree) : Prop where
  root : t'.root = t.root
  kind : ∀ i k, t.kind i = some k → t'.kind i = some k
  found : ∀ d n i, t.isDir d → t.child d n = some i → Settled me t d n i →
    t'.child d n = some i ∧ Settled me t' d n i

namespace Firm
variable {post post' : Ino → Prop} {fuel : Nat} {d i : Ino} {names more : List Name}

/-- What a firm path leads to. -/
theorem leads (h : Firm me t post fuel d names) (hl : t.leads fuel d names = some i) : post i := by
  -- One case for each way a path can be firm.
  induction h with
  | here hpost =>
    rw [leads_nil] at hl
    cases hl
    exact hpost
  | spent => cases hl
  | notDir hkind hne =>
    rw [leads_notDir (by simp [isDir, hkind, hne])] at hl
    cases hl
  | missing hdir hchild _ =>
    rw [leads_missing hdir hchild] at hl
    cases hl
  | through hdir hchild _ htarget _ ih =>
    rw [leads_through hdir hchild htarget] at hl
    exact ih hl
  | link hdir hchild _ htarget _ ih =>
    rw [leads_link hdir hchild htarget] at hl
    exact ih hl

/-- A firm path is followed by another where it leads to. -/
theorem append (h : Firm me t (fun i => ∀ fuel, Firm me t post fuel i more) fuel d names) :
    Firm me t post fuel d (names ++ more) := by
  induction h with
  | here hpost => exact hpost _
  | spent => exact .spent
  | notDir hkind hne => exact .notDir hkind hne
  | missing hdir hchild hshut => exact .missing hdir hchild hshut
  | through hdir hchild hsettled htarget _ ih => exact .through hdir hchild hsettled htarget ih
  | link hdir hchild hsettled htarget _ ih =>
    refine .link hdir hchild hsettled htarget ?_
    rwa [List.append_assoc] at ih

/-- A firm path is firm for everything that follows from what it is firm for. -/
theorem mono (h : Firm me t post fuel d names) (himp : ∀ i, post i → post' i) :
    Firm me t post' fuel d names := by
  induction h with
  | here hpost => exact .here (himp _ hpost)
  | spent => exact .spent
  | notDir hkind hne => exact .notDir hkind hne
  | missing hdir hchild hshut => exact .missing hdir hchild hshut
  | through hdir hchild hsettled htarget _ ih => exact .through hdir hchild hsettled htarget ih
  | link hdir hchild hsettled htarget _ ih => exact .link hdir hchild hsettled htarget ih

end Firm

namespace Steady
variable {d i : Ino}

protected theorem refl (t : FileTree) : Steady me t t :=
  ⟨rfl, fun _ _ h => h, fun _ _ _ _ hchild hsettled => ⟨hchild, hsettled⟩⟩

theorem isDir (h : Steady me t t') (hi : t.isDir i) : t'.isDir i := by
  rw [FileTree.isDir, beq_iff_eq] at hi ⊢
  exact h.kind i _ hi

/-- A link stays the link it was. -/
theorem target_some (h : Steady me t t') {p : Path} (hi : t.target i = some p) : t'.target i = some p := by
  rw [target] at hi ⊢
  split at hi
  · rename_i hk
    rw [h.kind i _ hk]
    exact hi
  · cases hi

/-- What was no link becomes none. -/
theorem target_none (h : Steady me t t') (hsome : (t.stat i).isSome) (hi : t.target i = none) :
    t'.target i = none := by
  obtain ⟨s, hs⟩ := Option.isSome_iff_exists.mp hsome
  have hk : t.kind i = some s.kind := by rw [FileTree.kind, hs, Option.map_some]
  rw [target, hk] at hi
  rw [target, h.kind i _ hk]
  exact hi

theorem start (h : Steady me t t') (p : Path) : t'.start d p = t.start d p := by
  rw [FileTree.start, FileTree.start, h.root]

end Steady

/-- What a settled name finds is there. -/
theorem Settled.isSome {d i : Ino} {n : Name} (h : Settled me t d n i) (hdir : t.isDir d)
    (hchild : t.child d n = some i) : (t.stat i).isSome := by
  rw [Settled] at h
  rw [child] at hchild
  by_cases hdot : n = dot
  · rw [if_pos hdot] at hchild
    cases hchild
    obtain ⟨s, hs, -⟩ := exists_stat_of_isDir hdir
    rw [hs, Option.isSome_some]
  · rw [if_neg hdot] at h
    by_cases hdd : n = dotdot
    · rw [if_pos hdd] at h
      exact h.1
    · rw [if_neg hdd] at h
      exact h.2.1

namespace Firm
variable {post post' : Ino → Prop} {fuel : Nat} {d i : Ino} {names more : List Name}

/-- A change that touches nothing that is settled leaves a path firm. -/
theorem steady (h : Firm me t post fuel d names) (hsteady : Steady me t t')
    (hmissing : ∀ d n, t.isDir d → t.child d n = none → Shut me t d → t'.child d n = none ∧ Shut me t' d)
    (hpost : ∀ i, post i → post' i) : Firm me t' post' fuel d names := by
  induction h with
  | here hi => exact .here (hpost _ hi)
  | spent => exact .spent
  | notDir hkind hne => exact .notDir (hsteady.kind _ _ hkind) hne
  -- What was missing is assumed to be missing still.
  | missing hdir hchild hshut =>
    obtain ⟨hchild', hshut'⟩ := hmissing _ _ hdir hchild hshut
    exact .missing (hsteady.isDir hdir) hchild' hshut'
  | through hdir hchild hsettled htarget _ ih =>
    obtain ⟨hchild', hsettled'⟩ := hsteady.found _ _ _ hdir hchild hsettled
    have htarget' := hsteady.target_none (hsettled.isSome hdir hchild) htarget
    exact .through (hsteady.isDir hdir) hchild' hsettled' htarget' ih
  | link hdir hchild hsettled htarget _ ih =>
    obtain ⟨hchild', hsettled'⟩ := hsteady.found _ _ _ hdir hchild hsettled
    refine .link (hsteady.isDir hdir) hchild' hsettled' (hsteady.target_some htarget) ?_
    rwa [hsteady.start]

/-- A path that leads somewhere stays firm and leads to the same place also where a change adds what a lookup
off the path misses. -/
theorem found (h : Firm me t post fuel d names) (hsteady : Steady me t t')
    (hl : t.leads fuel d names = some i) :
    Firm me t' (fun j => j = i) fuel d names ∧ t'.leads fuel d names = some i := by
  -- As above, with the inode the path leads to on the way.
  induction h with
  | here _ =>
    rw [leads_nil] at hl ⊢
    cases hl
    exact ⟨.here rfl, rfl⟩
  | spent => cases hl
  | notDir hkind hne =>
    rw [leads_notDir (by simp [isDir, hkind, hne])] at hl
    cases hl
  | missing hdir hchild _ =>
    rw [leads_missing hdir hchild] at hl
    cases hl
  | through hdir hchild hsettled htarget _ ih =>
    obtain ⟨hchild', hsettled'⟩ := hsteady.found _ _ _ hdir hchild hsettled
    have htarget' := hsteady.target_none (hsettled.isSome hdir hchild) htarget
    rw [leads_through hdir hchild htarget] at hl
    rw [leads_through (hsteady.isDir hdir) hchild' htarget']
    obtain ⟨hfirm, hleads⟩ := ih hl
    exact ⟨.through (hsteady.isDir hdir) hchild' hsettled' htarget' hfirm, hleads⟩
  | link hdir hchild hsettled htarget _ ih =>
    obtain ⟨hchild', hsettled'⟩ := hsteady.found _ _ _ hdir hchild hsettled
    have htarget' := hsteady.target_some htarget
    rw [leads_link hdir hchild htarget] at hl
    rw [leads_link (hsteady.isDir hdir) hchild' htarget', hsteady.start]
    obtain ⟨hfirm, hleads⟩ := ih hl
    refine ⟨.link (hsteady.isDir hdir) hchild' hsettled' htarget' ?_, hleads⟩
    rwa [hsteady.start]

end Firm

/-! ## Changes that keep a path firm -/

/-- A change after which no stranger may do what none could do before. -/
structure Calm (me : Uid) (t t' : FileTree) : Prop where
  isSome : ∀ i, (t.stat i).isSome → (t'.stat i).isSome
  owned : ∀ i, Owned me t i → Owned me t' i
  write : ∀ u d, Stranger me u → Owned me t d → t.may Perm.write u d = false →
    t'.may Perm.write u d = false
  alter : ∀ u d i, Stranger me u → Owned me t d → (t.stat i).isSome → t.mayAlter u d i = false →
    t'.mayAlter u d i = false
  restricted : ∀ d, Restricted me t d → Restricted me t' d

namespace Calm
variable {d i : Ino}

theorem shut (h : Calm me t t') (hd : Shut me t d) : Shut me t' d :=
  ⟨h.owned _ hd.1, fun u hu => h.write u d hu hd.1 (hd.2 u hu)⟩

theorem kept (h : Calm me t t') (hd : Kept me t d i) : Kept me t' d i :=
  ⟨h.owned _ hd.1, h.isSome _ hd.2.1, fun u hu => h.alter u d i hu hd.1 hd.2.1 (hd.2.2 u hu)⟩

/-- A change that leaves root's objects and those of `me` as they are, and leaves all objects their owner. -/
theorem of_same (hmember : t'.member = t.member) (hstat : ∀ i, Owned me t i → t'.stat i = t.stat i)
    (howner : ∀ i, (t.stat i).isSome → t'.owner i = t.owner i) : Calm me t t' := by
  -- Rights, stickiness and ownership read only what is kept.
  have hmay : ∀ r u d, Owned me t d → t'.may r u d = t.may r u d := by
    intro r u d hd
    simp only [may, perm, hstat d hd, hmember]
  have hsticky : ∀ d, Owned me t d → t'.sticky d = t.sticky d := by
    intro d hd
    simp only [sticky, hstat d hd]
  have howned : ∀ i, Owned me t i → Owned me t' i := by
    intro i hi
    obtain ⟨s, hs, hsowner⟩ := hi
    exact ⟨s, by rw [hstat i ⟨s, hs, hsowner⟩, hs], hsowner⟩
  refine ⟨?_, howned, ?_, ?_, ?_⟩
  · intro i hi
    have h := howner i hi
    rw [owner, owner] at h
    have hmap := congrArg Option.isSome h
    rwa [Option.isSome_map, Option.isSome_map, hi] at hmap
  -- What strangers may write to or alter, they may not more than before.
  · intro u d _ hd hwrite
    rw [hmay _ _ _ hd, hwrite]
  · intro u d i _ hd hi halter
    have hdsome : (t.stat d).isSome := by
      obtain ⟨s, hs, -⟩ := hd
      rw [hs, Option.isSome_some]
    rw [mayAlter, hmay _ _ _ hd, hsticky d hd, howner d hdsome, howner i hi]
    exact halter
  · intro d hd
    refine ⟨howned d hd.1, ?_⟩
    rcases hd.2 with hst | hwrite
    · exact .inl (by rw [hsticky d hd.1, hst])
    · exact .inr fun u hu => by rw [hmay _ _ _ hd.1, hwrite u hu]

/-- A calm change is steady when settled names find what they found, and no entry of a directory is added
whose entries are all kept. -/
theorem steady (h : Calm me t t') (hroot : t'.root = t.root)
    (hkind : ∀ i k, t.kind i = some k → t'.kind i = some k)
    (hentry : ∀ d n i, t.isDir d → t.entry d n = some i → Kept me t d i → t'.entry d n = some i)
    (hup : ∀ d, t.isDir d → (∀ p m, t.entry p m = some d → Kept me t p d) → t'.up d = t.up d)
    (hheld : ∀ d, t.isDir d → (∀ p m, t.entry p m = some d → Kept me t p d) →
      ∀ p m, t'.entry p m = some d → t.entry p m = some d) : Steady me t t' := by
  refine ⟨hroot, hkind, ?_⟩
  intro d n i hdir hchild hsettled
  rw [child] at hchild ⊢
  rw [Settled] at hsettled ⊢
  -- The three kinds of names: the directory itself, its parent, and an entry.
  by_cases hdot : n = dot
  · rw [if_pos hdot] at hchild ⊢
    rw [if_pos hdot]
    exact ⟨hchild, trivial⟩
  · rw [if_neg hdot] at hchild hsettled ⊢
    rw [if_neg hdot]
    by_cases hdd : n = dotdot
    · rw [if_pos hdd] at hchild hsettled ⊢
      rw [if_pos hdd]
      obtain ⟨hsome, hkept⟩ := hsettled
      refine ⟨by rw [hup d hdir hkept, hchild], h.isSome _ hsome, ?_⟩
      -- The parent is the one it was, and no other has come.
      intro p m hp
      exact h.kept (hkept p m (hheld d hdir hkept p m hp))
    · rw [if_neg hdd] at hchild hsettled ⊢
      rw [if_neg hdd]
      exact ⟨hentry d n i hdir hchild hsettled, h.kept hsettled⟩

end Calm

/-! The calls of strangers. -/

namespace Permitted
variable {d i : Ino}

/-- A stranger's operation changes no inode of the owner. -/
theorem stat_owned (h : Permitted u t t') (hu : Stranger me u) (hi : Owned me t i) :
    t'.stat i = t.stat i := by
  obtain ⟨s, hs, hsowner⟩ := hi
  obtain ⟨s', hs', -, -, hsame⟩ := h.stat i s hs
  rw [hs', hs, hsame]
  rintro rfl
  rcases hsowner with hroot | hme
  · exact hu.1 hroot
  · exact hu.2 hme

/-- A stranger's operation is calm. -/
theorem calm (h : Permitted u t t') (hu : Stranger me u) : Calm me t t' := by
  refine .of_same h.member (fun i hi => h.stat_owned hu hi) ?_
  intro i hi
  obtain ⟨s, hs⟩ := Option.isSome_iff_exists.mp hi
  obtain ⟨s', hs', huid, -, -⟩ := h.stat i s hs
  rw [owner, owner, hs, hs', Option.map_some, Option.map_some, huid]

/-- It is steady as well. -/
theorem steady (h : Permitted u t t') (hu : Stranger me u) : Steady me t t' := by
  -- What is kept from strangers was not altered by this one.
  have hnot : ∀ d, (∀ p m, t.entry p m = some d → Kept me t p d) →
      ¬ ∃ d₀ n₀, t.entry d₀ n₀ = some d ∧ t.mayAlter u d₀ d := by
    rintro d hkept ⟨d₀, n₀, hentry, halter⟩
    have := (hkept d₀ n₀ hentry).2.2 u hu
    rw [this] at halter
    cases halter
  refine (h.calm hu).steady h.root ?_ ?_ ?_ ?_
  · intro i k hk
    rw [kind, Option.map_eq_some_iff] at hk ⊢
    obtain ⟨s, hs, hsk⟩ := hk
    obtain ⟨s', hs', -, hkind, -⟩ := h.stat i s hs
    exact ⟨s', hs', by rw [hkind, hsk]⟩
  · intro d n i hdir hentry hkept
    exact h.kept d n i hdir hentry (hkept.2.2 u hu)
  · intro d hdir hkept
    exact (h.up d hdir).resolve_right (hnot d hkept)
  · intro d hdir hkept p m hp
    exact (h.held p m d hdir hp).resolve_right (hnot d hkept)

/-- What is missing where no stranger can write stays missing. -/
theorem missing_shut (h : Permitted u t t') (hu : Stranger me u) {n : Name} (hdir : t.isDir d)
    (hchild : t.child d n = none) (hd : Shut me t d) : t'.child d n = none ∧ Shut me t' d := by
  refine ⟨?_, (h.calm hu).shut hd⟩
  rw [child_eq_none] at hchild ⊢
  obtain ⟨hdot, hdotdot, hentry⟩ := hchild
  exact ⟨hdot, hdotdot, h.missing d n hdir hentry (hd.2 u hu)⟩

end Permitted

/-- A firm path is the same path after a call of a stranger. -/
theorem Firm.permitted {post post' : Ino → Prop} {fuel : Nat} {d : Ino} {names : List Name}
    (h : Firm me t post fuel d names) (hp : Permitted u t t') (hu : Stranger me u)
    (hpost : ∀ i, post i → post' i) : Firm me t' post' fuel d names :=
  h.steady (hp.steady hu) (fun _ _ hdir hchild hd => hp.missing_shut hu hdir hchild hd) hpost

/-! The calls of `me`. -/

/-- A new object. -/
theorem steady_create (me : Uid) {d : Ino} {n : Name} {i : Ino} {s : Stat} (hentry : t.entry d n = none)
    (hfresh : t.stat i = none) :
    Calm me t (t.create d n i s) ∧ Steady me t (t.create d n i s) := by
  -- The new inode is none of the tree's.
  have hne : ∀ j, (t.stat j).isSome → j ≠ i := by
    rintro j hj rfl
    rw [hfresh] at hj
    cases hj
  have hdir : ∀ j, t.isDir j → j ≠ i := by
    intro j hj
    obtain ⟨r, hr, -⟩ := exists_stat_of_isDir hj
    exact hne j (by rw [hr, Option.isSome_some])
  have hstat : ∀ j, j ≠ i → (t.create d n i s).stat j = t.stat j := fun j hj => Function.update_of_ne hj _ _
  have hcalm : Calm me t (t.create d n i s) := by
    refine .of_same rfl ?_ ?_
    · rintro j ⟨r, hr, -⟩
      exact hstat j (hne j (by rw [hr, Option.isSome_some]))
    · intro j hj
      rw [owner, owner, hstat j (hne j hj)]
  refine ⟨hcalm, hcalm.steady rfl ?_ ?_ ?_ ?_⟩
  -- Kinds, entries, parents and what leads to a directory are as they were.
  · intro j k hk
    have hj : j ≠ i := by
      apply hne
      rw [kind, Option.map_eq_some_iff] at hk
      obtain ⟨r, hr, -⟩ := hk
      rw [hr, Option.isSome_some]
    rw [kind, hstat j hj]
    exact hk
  · intro d' n' j hd' he _
    rw [entry_create, if_neg, if_neg (hdir d' hd'), he]
    rintro ⟨rfl, rfl⟩
    rw [hentry] at he
    cases he
  · intro d' hd' _
    exact Function.update_of_ne (hdir d' hd') _ _
  · intro d' hd' _ p m hp
    rw [entry_create] at hp
    split at hp
    · cases hp
      exact absurd rfl (hdir _ hd')
    · split at hp
      · cases hp
      · exact hp

/-- A change of mode changes the mode of one inode. -/
theorem stat_chmod (i : Ino) (m : Mode) (j : Ino) :
    (t.chmod i m).stat j = if j = i then (t.stat i).map fun s => { s with mode := m } else t.stat j := by
  rw [chmod]
  split
  · rename_i s hs
    by_cases hj : j = i
    · subst hj
      rw [if_pos rfl, hs]
      exact Function.update_self _ _ _
    · rw [if_neg hj]
      exact Function.update_of_ne hj _ _
  · rename_i hs
    split
    · rename_i hj
      rw [hj, hs, Option.map_none]
    · rfl

/-- It changes no entry. -/
@[simp] theorem entry_chmod (i : Ino) (m : Mode) (d : Ino) (n : Name) :
    (t.chmod i m).entry d n = t.entry d n := by
  rw [chmod]
  split <;> rfl

/-- It changes no owner. -/
theorem owner_chmod (i : Ino) (m : Mode) (j : Ino) : (t.chmod i m).owner j = t.owner j := by
  rw [owner, owner, stat_chmod]
  split
  · rename_i hj
    rw [hj, Option.map_map]
    rfl
  · rfl

/-- It changes no kind. -/
theorem kind_chmod (i : Ino) (m : Mode) (j : Ino) : (t.chmod i m).kind j = t.kind j := by
  rw [kind, kind, stat_chmod]
  split
  · rename_i hj
    rw [hj, Option.map_map]
    rfl
  · rfl

/-- It takes nothing from the owner. -/
theorem owned_chmod {i j : Ino} {m : Mode} (h : Owned me t j) : Owned me (t.chmod i m) j := by
  obtain ⟨s, hs, hsowner⟩ := h
  rw [Owned, stat_chmod]
  by_cases hj : j = i
  · subst hj
    rw [if_pos rfl, hs]
    exact ⟨_, rfl, hsowner⟩
  · rw [if_neg hj, hs]
    exact ⟨s, rfl, hsowner⟩

/-- Under 0700 a stranger may not write. -/
theorem write_ownerOnly {i : Ino} (hi : Owned me t i) (hu : Stranger me u) :
    (t.chmod i .ownerOnly).may Perm.write u i = false := by
  obtain ⟨s, hs, hsowner⟩ := hi
  have hne : u ≠ s.uid := by
    rintro rfl
    rcases hsowner with h | h
    · exact hu.1 h
    · exact hu.2 h
  have hperm : (t.chmod i .ownerOnly).perm u { s with mode := .ownerOnly } = Perm.none := by
    rw [perm, if_neg hne]
    split <;> rfl
  rw [may, stat_chmod, if_pos rfl, hs, Option.map_some, Option.any_some, hperm, Bool.or_eq_false_iff]
  exact ⟨beq_false_of_ne hu.1, rfl⟩

/-- The rights on other inodes stay. -/
theorem may_chmod_of_ne {i j : Ino} {m : Mode} {right : Perm → Bool} (hj : j ≠ i) :
    (t.chmod i m).may right u j = t.may right u j := by
  have hmember : (t.chmod i m).member = t.member := by
    rw [chmod]
    split <;> rfl
  rw [may, may, stat_chmod, if_neg hj]
  simp only [perm, hmember]

/-- An object that is made private. -/
theorem calm_ownerOnly (me : Uid) (i : Ino) : Calm me t (t.chmod i .ownerOnly) := by
  have hwrite : ∀ u d, Stranger me u → Owned me t d → t.may Perm.write u d = false →
      (t.chmod i .ownerOnly).may Perm.write u d = false := by
    intro u d hu hd hmay
    -- The inode itself loses the right, and the others keep theirs.
    by_cases hdi : d = i
    · subst hdi
      exact write_ownerOnly hd hu
    · rw [may_chmod_of_ne hdi, hmay]
  refine ⟨?_, fun j hj => owned_chmod hj, hwrite, ?_, ?_⟩
  · intro j hj
    rw [stat_chmod]
    split
    · rename_i hji
      rw [hji] at hj
      rw [Option.isSome_map, hj]
    · exact hj
  -- What strangers may not alter stays so, by the right to write or by the sticky bit.
  · intro u d j hu hd _ halter
    by_cases hdi : d = i
    · subst hdi
      rw [mayAlter, write_ownerOnly hd hu, Bool.false_and]
    · rw [mayAlter, may_chmod_of_ne hdi, owner_chmod, owner_chmod, sticky, stat_chmod, if_neg hdi]
      exact halter
  · intro d hd
    refine ⟨owned_chmod hd.1, ?_⟩
    by_cases hdi : d = i
    · subst hdi
      exact .inr fun u hu => write_ownerOnly hd.1 hu
    · rcases hd.2 with hsticky | hmay
      · exact .inl (by rw [sticky, stat_chmod, if_neg hdi]; exact hsticky)
      · exact .inr fun u hu => hwrite u d hu hd.1 (hmay u hu)

/-- Making a directory owner-only is steady. -/
theorem steady_ownerOnly (me : Uid) (i : Ino) : Steady me t (t.chmod i .ownerOnly) := by
  have hup : (t.chmod i .ownerOnly).up = t.up := by
    rw [chmod]
    split <;> rfl
  have hroot : (t.chmod i .ownerOnly).root = t.root := by
    rw [chmod]
    split <;> rfl
  refine (calm_ownerOnly me i).steady hroot ?_ ?_ ?_ ?_
  · intro j k hk
    rw [kind_chmod, hk]
  · intro d n j _ hentry _
    rw [entry_chmod, hentry]
  · intro d _ _
    rw [hup]
  · intro d _ _ p m hp
    rwa [entry_chmod] at hp

/-- A firm path is the same path after an object has been made private. -/
theorem Firm.ownerOnly {post post' : Ino → Prop} {fuel : Nat} {d : Ino} {names : List Name}
    (h : Firm me t post fuel d names) (i : Ino) (hpost : ∀ j, post j → post' j) :
    Firm me (t.chmod i .ownerOnly) post' fuel d names := by
  refine h.steady (steady_ownerOnly me i) ?_ hpost
  intro d n _ hchild hd
  refine ⟨?_, (calm_ownerOnly me i).shut hd⟩
  rw [child_eq_none] at hchild ⊢
  rwa [entry_chmod]

end FileTree
