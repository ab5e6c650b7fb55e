import CboxTelemetry.Crash.World
import CboxTelemetry.Crash.OneKind

/-!
# No record is lost

`NoneLost` is the promise of a directory shared without a lock: every record that was completely
written has been handed over, or is in a file that has a name. It is broken by a handler that appends
to a sink the drainer has already made up its mind about (`Exposed`), or to a file whose name is gone;
without such writes it holds in every state a run reaches (`noneLost_of_run`).

The invariant behind it is that each sink is, at every step of the drainer, what was written through
its name and not yet handed over (`Holds`), be it as a plain file or as one that is being moved.
-/

namespace CboxTelemetry.Crash

open InPlace (shifted overwrite)

/-- The contents of a sink of records of this version. -/
def flat (rs : List OwnRecord) : Bytes := encode (rs.map .own)

/-- These records stand in the file one behind the other, each in a place of its own, with anything in
front of them, between them and behind them. -/
inductive Spaced : List OwnRecord → Bytes → Prop
  | nil (file : Bytes) : Spaced [] file
  | cons {rs : List OwnRecord} {file : Bytes} (gap : Bytes) (r : OwnRecord) :
      Spaced rs file → Spaced (r :: rs) (gap ++ r.bytes ++ file)

/-- The drainer has seen all of the sink of `p` that it will see before it cuts it off: it has found
out the size of a file that it can read whole and hand over within its budget, or is about to remove
the file, or has met the end of it while compacting. -/
def Exposed (w : World) (p : Pid) : Prop :=
  match w.pc with
  | .statted q _ size =>
    q = p ∧ size ≤ crashDrainMaxBytes ∧ size ≤ w.budget * recordSize
  | .removing q => q = p
  | .truncating q _ _ => q = p
  | _ => False

/-- A handler writes to a file that has the name it was opened by, and that is not exposed. -/
def SafeWrite (w : World) (a : Action) : Prop :=
  ∀ p r path q ino, a = .crashWrite p r → w.procs p = some ⟨path, .checked q ino⟩ →
    w.link q = some ino ∧ ¬Exposed w q

/-! ## What a sink holds -/

/-- A sink nobody works on holds the records `left`; without a file there are none. -/
def Plain (files : Nat → Bytes) (link : Option Nat) (left : List OwnRecord) : Prop :=
  match link with
  | none => left = []
  | some ino => files ino = flat left

/-- The file `file` is being compacted: of the records `gone ++ left` it started with, and those that
have been appended since, `writeAt` bytes have been moved over the records `gone`. -/
structure Moving (file : Bytes) (gone left : List OwnRecord) (readAt writeAt : Nat) : Prop where
  some_gone : gone ≠ []
  read_eq : readAt = gone.length * recordSize + writeAt
  read_le : readAt ≤ (flat (gone ++ left)).length
  file_eq : file = shifted (flat (gone ++ left)) (gone.length * recordSize) writeAt

/-- What the file `ino` of a sink holds while the drainer works on it, when `left` is still to be
handed over. -/
def Worked (pc : DrainPc) (budget : Nat) (file : Bytes) (ino : Nat) (left : List OwnRecord) : Prop :=
  match pc with
  | .opened _ i => i = ino ∧ file = flat left
  | .statted _ i size => i = ino ∧ file = flat left ∧
      (∃ n, size = n * recordSize ∧ n ≤ left.length) ∧
      (size ≤ crashDrainMaxBytes → size ≤ budget * recordSize → size = left.length * recordSize)
  | .removing _ => left = []
  | .discarding _ consumed => ∃ gone, gone ≠ [] ∧ consumed = gone.length * recordSize ∧
      file = flat (gone ++ left)
  | .copying _ i readAt writeAt => i = ino ∧ ∃ gone, Moving file gone left readAt writeAt
  | .holding _ i readAt writeAt chunk => i = ino ∧ chunk ≠ [] ∧
      ∃ gone, Moving file gone left readAt writeAt ∧
        chunk = ((flat (gone ++ left)).drop readAt).take chunk.length
  | .truncating _ i writeAt => i = ino ∧ ∃ gone readAt, Moving file gone left readAt writeAt ∧
      readAt = (flat (gone ++ left)).length
  | _ => file = flat left

/-- The sink of `p` holds the records `left`, in the way the drainer's step asks for. -/
def Holds (w : World) (p : Pid) (left : List OwnRecord) : Prop :=
  if w.pc.sink = some p then
    ∃ ino, w.link p = some ino ∧ Worked w.pc w.budget (w.files ino) ino left
  else Plain w.files (w.link p) left

/-- Every sink holds what was written through its name and not yet handed over. -/
def Kept (w : World) (p : Pid) : Prop :=
  ∃ done left, w.written p = done ++ left ∧
    (done.map OwnRecord.bytes).Subperm (w.handed p) ∧ Holds w p left

structure Inv (w : World) : Prop where
  kept : ∀ p, Kept w p
  ino_lt : ∀ p ino, w.link p = some ino → ino < w.nextIno
  ino_inj : ∀ p q ino, w.link p = some ino → w.link q = some ino → p = q

theorem flat_append (a b : List OwnRecord) : flat (a ++ b) = flat a ++ flat b := by
  rw [flat, List.map_append, encode_append]
  rfl

@[simp] theorem length_flat (rs : List OwnRecord) : (flat rs).length = rs.length * recordSize :=
  length_encode_own rs

theorem flat_concat (rs : List OwnRecord) (r : OwnRecord) : flat (rs ++ [r]) = flat rs ++ r.bytes := by
  rw [flat_append]
  exact congrArg _ (List.append_nil _)

theorem drop_flat {rs : List OwnRecord} {k : Nat} (hk : k ≤ rs.length) :
    (flat rs).drop (k * recordSize) = flat (rs.drop k) :=
  drop_encode_own hk

theorem drop_flat_append (a b : List OwnRecord) :
    (flat (a ++ b)).drop (a.length * recordSize) = flat b := by
  rw [drop_flat (by rw [List.length_append]; omega), List.drop_left]

/-! ## Records in a place of their own -/

/-- Bytes in front of spaced records do not matter. -/
theorem Spaced.prepend {rs : List OwnRecord} {file : Bytes} (h : Spaced rs file) (more : Bytes) :
    Spaced rs (more ++ file) := by
  cases h with
  | nil => exact .nil _
  | cons gap r hrest =>
    rw [← List.append_assoc, ← List.append_assoc]
    exact .cons (more ++ gap) r hrest

/-- Spaced records behind spaced records are spaced. -/
theorem Spaced.append {rs rs' : List OwnRecord} {file file' : Bytes} (h : Spaced rs file)
    (h' : Spaced rs' file') : Spaced (rs ++ rs') (file ++ file') := by
  induction h with
  | nil file => exact h'.prepend file
  | cons gap r _ ih =>
    rw [List.cons_append, List.append_assoc]
    exact .cons gap r ih

/-- Records one behind another are spaced. -/
theorem spaced_flat (rs : List OwnRecord) : Spaced rs (flat rs) := by
  induction rs with
  | nil => exact .nil _
  | cons r rs ih => exact .cons [] r ih

/-! ## The promise follows from the invariant -/

variable {w w' : World}

/-- In a file that is being moved, the first records are in the part that has been moved, and the others
in the part that has not been written over: the two overlap by as much as is discarded, which is at
least one record. -/
theorem Moving.spaced {file : Bytes} {gone left : List OwnRecord} {readAt writeAt : Nat}
    (h : Moving file gone left readAt writeAt) : Spaced left file := by
  have hone : recordSize ≤ gone.length * recordSize :=
    Nat.le_mul_of_pos_left _ (List.length_pos_of_ne_nil h.some_gone)
  have hread := h.read_le
  rw [h.read_eq, length_flat, List.length_append, Nat.add_mul] at hread
  -- `m` records have been moved whole.
  obtain ⟨m, hmoved, hpart⟩ : ∃ m, m * recordSize ≤ writeAt ∧ writeAt < m * recordSize + recordSize := by
    refine ⟨writeAt / recordSize, Nat.div_mul_le_self _ _, ?_⟩
    exact Nat.lt_div_mul_add (by decide)
  have hm : m ≤ left.length := Nat.le_of_mul_le_mul_right (by omega) (by decide : 0 < recordSize)
  -- Those are in the moved front, with a part of the next record behind them.
  have hfront : Spaced (left.take m) ((flat left).take writeAt) := by
    have hlength : (flat (left.take m)).length = m * recordSize := by
      rw [length_flat, List.length_take, Nat.min_eq_left hm]
    have hsplit : (flat left).take writeAt =
        flat (left.take m) ++ (flat (left.drop m)).take (writeAt - m * recordSize) := by
      conv_lhs => rw [← List.take_append_drop m left, flat_append]
      rw [List.take_append, hlength, List.take_of_length_le (by omega)]
    have hall := (spaced_flat (left.take m)).append
      (.nil ((flat (left.drop m)).take (writeAt - m * recordSize)))
    rw [List.append_nil] at hall
    rw [hsplit]
    exact hall
  -- The others are in the untouched back, which still holds them where they were.
  have hback : Spaced (left.drop m) ((flat (gone ++ left)).drop writeAt) := by
    have hend : writeAt ≤ (gone.length + m) * recordSize := by
      rw [Nat.add_mul]
      omega
    have hdrop : (flat (gone ++ left)).drop ((gone.length + m) * recordSize) = flat (left.drop m) := by
      rw [drop_flat (by rw [List.length_append]; omega), ← List.drop_drop, List.drop_left]
    rw [← List.take_append_drop ((gone.length + m) * recordSize - writeAt) ((flat (gone ++ left)).drop writeAt),
      List.drop_drop, Nat.add_sub_cancel' hend, hdrop]
    exact (spaced_flat _).prepend _
  have hboth := hfront.append hback
  rw [List.take_append_drop] at hboth
  rw [h.file_eq, InPlace.shifted, drop_flat_append]
  exact hboth

/-- Whatever the drainer is doing with a sink, the records left in it are spaced in its file. -/
theorem Worked.spaced {pc : DrainPc} {budget : Nat} {file : Bytes} {ino : Nat}
    {left : List OwnRecord} (h : Worked pc budget file ino left) : Spaced left file := by
  have hplain : file = flat left → Spaced left file := by
    rintro rfl
    exact spaced_flat left
  cases pc with
  | idle => exact hplain h
  | named p => exact hplain h
  | dead p => exact hplain h
  | opened p i => exact hplain h.2
  | statted p i size => exact hplain h.2.1
  | removing p =>
    rw [show left = [] from h]
    exact .nil _
  -- The consumed records are still in front.
  | discarding p consumed =>
    obtain ⟨gone, -, -, hfile⟩ := h
    rw [hfile, flat_append]
    exact (spaced_flat left).prepend _
  -- While records are moved, whole ones are in the front and the others behind.
  | copying p i readAt writeAt =>
    obtain ⟨-, gone, hmoving⟩ := h
    exact hmoving.spaced
  | holding p i readAt writeAt chunk =>
    obtain ⟨-, -, gone, hmoving, -⟩ := h
    exact hmoving.spaced
  | truncating p i writeAt =>
    obtain ⟨-, gone, readAt, hmoving, -⟩ := h
    exact hmoving.spaced

section
variable {p : Pid} {left : List OwnRecord}

/-- Of the sink it works on, the drainer's place says what the file holds. -/
theorem holds_worked (h : w.pc.sink = some p) :
    Holds w p left ↔
      ∃ ino, w.link p = some ino ∧ Worked w.pc w.budget (w.files ino) ino left := by
  rw [Holds, if_pos h]

theorem holds_plain (h : w.pc.sink ≠ some p) : Holds w p left ↔ Plain w.files (w.link p) left := by
  rw [Holds, if_neg h]

/-- A sink at rest holds its records one behind another. -/
theorem Plain.file {files : Nat → Bytes} {link : Option Nat} {ino : Nat}
    (h : Plain files link left) (hlink : link = some ino) : files ino = flat left := by
  subst hlink
  exact h

/-- Where there is no file, nothing is left. -/
theorem Plain.left_eq_nil {files : Nat → Bytes} {link : Option Nat} (h : Plain files link left)
    (hlink : link = none) : left = [] := by
  subst hlink
  exact h

/-- Only the sink's own file matters. -/
theorem Plain.frame {files files' : Nat → Bytes} {link : Option Nat}
    (h : Plain files link left) (hfiles : ∀ ino, link = some ino → files' ino = files ino) :
    Plain files' link left := by
  cases link with
  | none => exact h
  | some ino => exact (hfiles ino rfl).trans h

/-- What happens elsewhere does not matter to a sink. -/
theorem Holds.frame (h : Holds w p left) (hpc : w'.pc = w.pc) (hbudget : w'.budget = w.budget)
    (hlink : w'.link p = w.link p)
    (hfiles : ∀ ino, w.link p = some ino → w'.files ino = w.files ino) : Holds w' p left := by
  by_cases hsink : w.pc.sink = some p
  · obtain ⟨ino, hino, hworked⟩ := (holds_worked hsink).mp h
    refine (holds_worked (by rw [hpc]; exact hsink)).mpr ⟨ino, hlink.trans hino, ?_⟩
    rw [hpc, hbudget, hfiles ino hino]
    exact hworked
  · rw [holds_plain hsink] at h
    rw [holds_plain (by rw [hpc]; exact hsink), hlink]
    exact h.frame hfiles

/-- Nor does what the drainer does on another one. -/
theorem Holds.frame_plain (h : Holds w p left) (hpc : w.pc.sink ≠ some p)
    (hpc' : w'.pc.sink ≠ some p) (hlink : w'.link p = w.link p)
    (hfiles : ∀ ino, w.link p = some ino → w'.files ino = w.files ino) : Holds w' p left := by
  rw [holds_plain hpc] at h
  rw [holds_plain hpc', hlink]
  exact h.frame hfiles

/-- The records left in a sink are spaced in its file. -/
theorem Holds.spaced (h : Holds w p left) :
    left = [] ∨ ∃ ino, w.link p = some ino ∧ Spaced left (w.files ino) := by
  by_cases hsink : w.pc.sink = some p
  · obtain ⟨ino, hlink, hworked⟩ := (holds_worked hsink).mp h
    exact .inr ⟨ino, hlink, hworked.spaced⟩
  · rw [holds_plain hsink] at h
    cases hlink : w.link p with
    | none => exact .inl (h.left_eq_nil hlink)
    | some ino =>
      refine .inr ⟨ino, rfl, ?_⟩
      rw [h.file hlink]
      exact spaced_flat left

end

/-- The invariant does not look at processes. -/
theorem Inv.setProc (h : Inv w) (p : Pid) (x : Option Process) : Inv (w.setProc p x) where
  kept := h.kept
  ino_lt := h.ino_lt
  ino_inj := h.ino_inj

/-- Opening a sink for a crash keeps the invariant, whether the file was there or is made. -/
theorem Inv.crashOpen (h : Inv w) (p q : Pid) (x : Process) : Inv (w.crashOpen p q x) := by
  rw [World.crashOpen]
  split
  next => exact h.setProc _ _
  next hlink =>
    have hne : ∀ p' ino, w.link p' = some ino → ino ≠ w.nextIno := fun p' ino hp' =>
      Nat.ne_of_lt (h.ino_lt p' ino hp')
    have hlink' : ∀ p' ino, Function.update w.link q (some w.nextIno) p' = some ino →
        (p' = q ∧ ino = w.nextIno) ∨ w.link p' = some ino := by
      intro p' ino hp'
      by_cases hq : p' = q
      · subst hq
        rw [Function.update_self, Option.some.injEq] at hp'
        exact .inl ⟨rfl, hp'.symm⟩
      · rw [Function.update_of_ne hq] at hp'
        exact .inr hp'
    -- The three parts of the invariant: what each sink keeps, the bound on the numbers, and that no
    -- two sinks share one.
    refine ⟨fun p' => ?_, fun p' ino hp' => ?_, fun p₁ p₂ ino h₁ h₂ => ?_⟩
    · obtain ⟨done, left, hwritten, hdone, hholds⟩ := h.kept p'
      refine ⟨done, left, hwritten, hdone, ?_⟩
      by_cases hq : p' = q
      · -- Nobody works on a sink that does not exist, and it holds nothing.
        subst hq
        have hsink : w.pc.sink ≠ some p' := by
          intro hsink
          obtain ⟨ino, hino, -⟩ := (holds_worked hsink).mp hholds
          rw [hlink] at hino
          cases hino
        rw [holds_plain hsink] at hholds
        rw [hholds.left_eq_nil hlink]
        rw [holds_plain]
        · show Plain _ (Function.update w.link p' (some w.nextIno) p') []
          rw [Function.update_self]
          exact Function.update_self _ _ _
        · exact hsink
      · exact hholds.frame rfl rfl (Function.update_of_ne hq _ _)
          fun ino hino => Function.update_of_ne (hne p' ino hino) _ _
    · rcases hlink' p' ino hp' with ⟨-, rfl⟩ | hold
      · exact Nat.lt_succ_self _
      · exact Nat.lt_succ_of_lt (h.ino_lt p' ino hold)
    · rcases hlink' p₁ ino h₁ with ⟨rfl, hi₁⟩ | hold₁ <;>
        rcases hlink' p₂ ino h₂ with ⟨rfl, hi₂⟩ | hold₂
      · rfl
      · exact absurd hi₁ (hne p₂ ino hold₂)
      · exact absurd hi₂ (hne p₁ ino hold₁)
      · exact h.ino_inj p₁ p₂ ino hold₁ hold₂

/-- Appending to a file that is being compacted. -/
theorem Moving.append {file : Bytes} {gone left : List OwnRecord} {readAt writeAt : Nat}
    (h : Moving file gone left readAt writeAt) (r : OwnRecord) :
    Moving (file ++ r.bytes) gone (left ++ [r]) readAt writeAt where
  some_gone := h.some_gone
  read_eq := h.read_eq
  read_le := by
    rw [← List.append_assoc, flat_concat, List.length_append]
    exact Nat.le_add_right_of_le h.read_le
  file_eq := by
    have hread := h.read_le
    rw [h.read_eq] at hread
    rw [h.file_eq, ← List.append_assoc, flat_concat, InPlace.shifted_append hread]

/-- A write that the drainer is going to see. -/
theorem Worked.append {p : Pid} {ino : Nat} {left : List OwnRecord}
    (h : Worked w.pc w.budget (w.files ino) ino left) (hsink : w.pc.sink = some p)
    (hsafe : ¬Exposed w p) (r : OwnRecord) :
    Worked w.pc w.budget (w.files ino ++ r.bytes) ino (left ++ [r]) := by
  rw [Exposed] at hsafe
  -- Where the drainer is with the sink decides whether a record at its end is safe.
  cases hpc : w.pc with
  | idle => rw [hpc] at hsink; cases hsink
  | named q => rw [hpc] at hsink; cases hsink
  | dead q => rw [hpc] at hsink; cases hsink
  | opened q i =>
    rw [hpc] at h
    exact ⟨h.1, by rw [h.2, flat_concat]⟩
  | statted q i size =>
    rw [hpc] at h hsafe hsink
    obtain ⟨hi, hfile, ⟨n, hsize, hn⟩, -⟩ := h
    refine ⟨hi, by rw [hfile, flat_concat], ⟨n, hsize, ?_⟩, fun hcap hbudget => ?_⟩
    -- Behind the fstat the write is safe only when the drain leaves the file standing.
    · rw [List.length_append]; omega
    · exact absurd ⟨Option.some.inj hsink, hcap, hbudget⟩ hsafe
  | removing q =>
    rw [hpc] at hsafe hsink
    exact absurd (Option.some.inj hsink) hsafe
  | discarding q consumed =>
    rw [hpc] at h
    obtain ⟨gone, hgone, hconsumed, hfile⟩ := h
    exact ⟨gone, hgone, hconsumed, by rw [hfile, ← List.append_assoc, flat_concat]⟩
  -- The compaction reads until the file ends, so it moves the new record as well.
  | copying q i readAt writeAt =>
    rw [hpc] at h
    obtain ⟨hi, gone, hmoving⟩ := h
    exact ⟨hi, gone, hmoving.append r⟩
  | holding q i readAt writeAt chunk =>
    rw [hpc] at h
    obtain ⟨hi, hchunk, gone, hmoving, hread⟩ := h
    refine ⟨hi, hchunk, gone, hmoving.append r, ?_⟩
    -- The chunk was read in full before the write, so it is where it was.
    have hlen := congrArg List.length hread
    rw [List.length_take] at hlen
    rw [← List.append_assoc, flat_concat, List.drop_append_of_le_length hmoving.read_le,
      List.take_append_of_le_length (by omega)]
    exact hread
  | truncating q i writeAt =>
    rw [hpc] at hsafe hsink
    exact absurd (Option.some.inj hsink) hsafe

/-- A safe write keeps the invariant. -/
theorem Inv.append (h : Inv w) {q : Pid} {ino : Nat} (hlink : w.link q = some ino)
    (hsafe : ¬Exposed w q) (r : OwnRecord) : Inv (w.append q ino r) where
  ino_lt := h.ino_lt
  ino_inj := h.ino_inj
  kept p := by
    obtain ⟨done, left, hwritten, hdone, hholds⟩ := h.kept p
    -- The sink that was written to has one more record left.
    by_cases hp : p = q
    · subst hp
      refine ⟨done, left ++ [r], ?_, hdone, ?_⟩
      · show Function.update w.written p (w.written p ++ [r]) p = _
        rw [Function.update_self, hwritten, List.append_assoc]
      · have hfile : (w.append p ino r).files ino = w.files ino ++ r.bytes :=
          Function.update_self _ _ _
        by_cases hsink : w.pc.sink = some p
        · obtain ⟨i, hi, hworked⟩ := (holds_worked hsink).mp hholds
          obtain rfl : i = ino := Option.some.inj (hi.symm.trans hlink)
          rw [holds_worked (show (w.append p i r).pc.sink = some p from hsink)]
          refine ⟨i, hlink, ?_⟩
          rw [hfile]
          exact hworked.append hsink hsafe r
        · rw [holds_plain hsink] at hholds
          rw [holds_plain (show (w.append p ino r).pc.sink ≠ some p from hsink)]
          show Plain _ (w.link p) _
          rw [hlink]
          show (w.append p ino r).files ino = _
          rw [hfile, hholds.file hlink, flat_concat]
    -- Another sink has another file.
    · refine ⟨done, left, (Function.update_of_ne hp _ _).trans hwritten, hdone, ?_⟩
      refine hholds.frame rfl rfl rfl fun i hi => Function.update_of_ne ?_ _ _
      rintro rfl
      exact hp (h.ino_inj p q i hi hlink)

/-- **A step of another process** keeps the invariant, if a write is safe. -/
theorem Inv.processStep {self : Pid} {a : Action} (h : Inv w) (hsafe : SafeWrite w a)
    (hstep : processStep self w a = some w') : Inv w' := by
  -- Of the processes' steps only an open and a write reach a file.
  cases a with
  | spawn p =>
    simp only [Crash.processStep] at hstep
    split at hstep
    · cases hstep
    · cases hstep; exact h.setProc _ _
  | fork p child =>
    simp only [Crash.processStep] at hstep
    split at hstep
    · cases hstep; exact h.setProc _ _
    · cases hstep
  | exit p =>
    simp only [Crash.processStep] at hstep
    split at hstep
    · cases hstep
    · cases hstep; exact h.setProc _ _
  | openSink p ok =>
    simp only [Crash.processStep] at hstep
    split at hstep
    · cases hstep; exact h.setProc _ _
    · cases hstep
  | crashOpen p =>
    simp only [Crash.processStep] at hstep
    split at hstep
    · cases hstep
    · split at hstep
      · cases hstep; exact h.crashOpen _ _ _
      · cases hstep
  | crashStat p =>
    simp only [Crash.processStep] at hstep
    split at hstep
    · cases hstep; exact h.setProc _ _
    · cases hstep
  -- The write, which the assumption makes safe.
  | crashWrite p r =>
    simp only [Crash.processStep] at hstep
    split at hstep
    next path q ino hproc =>
      obtain ⟨hlink, hhidden⟩ := hsafe p r path q ino rfl hproc
      cases hstep
      exact (h.append hlink hhidden r).setProc _ _
    · cases hstep
  | crashFails p =>
    simp only [Crash.processStep] at hstep
    split at hstep
    · cases hstep
    · split at hstep
      · cases hstep; exact h.setProc _ _
      · cases hstep
  -- The other steps are the drainer's.
  | _ => cases hstep

/-! ## Steps of the drainer -/

/-- What one read of a sink of records is: the first of them, and too few bytes for another. -/
theorem exists_take_flat {left : List OwnRecord} {n : Nat} (hn : n ≤ left.length) :
    ∃ m tail, m ≤ n ∧ (n * recordSize ≤ crashDrainMaxBytes → m = n ∧ tail = []) ∧
      tail.length < recordSize ∧
      (flat left).take (min (n * recordSize) crashDrainMaxBytes) = flat (left.take m) ++ tail := by
  -- The read is within the cap and ends between two records, or the cap cuts a record.
  by_cases hcap : n * recordSize ≤ crashDrainMaxBytes
  · refine ⟨n, [], le_rfl, fun _ => ⟨rfl, rfl⟩, by decide, ?_⟩
    rw [Nat.min_eq_left hcap, List.append_nil, flat,
      ← Nat.add_zero (n * recordSize), take_encode_own hn (Nat.zero_le _)]
    cases (left.drop n).head? with
    | none => exact List.append_nil _
    | some r => exact List.append_nil _
  · have hlong : readRecords ≤ n := by
      by_contra hshort
      have hmul : n * recordSize ≤ readRecords * recordSize :=
        Nat.mul_le_mul_right _ (by omega)
      have hread : readRecords * recordSize ≤ crashDrainMaxBytes := by decide
      omega
    have hsize : crashDrainMaxBytes = readRecords * recordSize + cutBytes := by decide
    refine ⟨readRecords, (left.drop readRecords).head?.elim [] fun r => r.bytes.take cutBytes, hlong,
      fun h => absurd h hcap, ?_, ?_⟩
    -- What is cut off is the front of the next record, if there is one.
    · cases (left.drop readRecords).head? with
      | none => decide
      | some r =>
        rw [Option.elim_some, List.length_take]
        exact (Nat.min_le_left _ _).trans_lt (by decide)
    · rw [Nat.min_eq_right (by omega), hsize, flat, take_encode_own (by omega) (by decide)]
      rfl

/-- **The verdict on a sink of records.** The first `k` records are handed over. The file goes only
if it was read whole and within the budget, and then all of it was handed over; what is discarded
otherwise is what was handed over. -/
theorem drainVerdict_flat {left : List OwnRecord} {n : Nat} (hn : n ≤ left.length) (b : Nat) :
    let buffer := (flat left).take (min (n * recordSize) crashDrainMaxBytes)
    let r := drainVerdict (n * recordSize) buffer
      (crashScan drainVisit buffer b ⟨0, [], 0, false, false⟩)
    ∃ k, k ≤ left.length ∧ records r.visits = (left.take k).map OwnRecord.bytes ∧
      (r.consumable = true →
        n * recordSize ≤ crashDrainMaxBytes ∧ n * recordSize ≤ b * recordSize ∧ k = n) ∧
      (0 < r.consumedBytes → r.consumedBytes = k * recordSize) := by
  obtain ⟨m, tail, hmn, hwhole, htail, hbuffer⟩ := exists_take_flat hn
  intro buffer r
  have hlen : (left.take m).length = m := by rw [List.length_take]; omega
  obtain ⟨hvisits, hcons, hoffset, -, -⟩ := scan_own hbuffer htail b
  rw [hlen] at hcons hoffset
  have hscan := crashScan_eq drainVisit_eq buffer b ⟨0, [], 0, false, false⟩
  have hr : r = _ := congrArg (drainVerdict (n * recordSize) buffer) hscan
  refine ⟨min b m, by omega, ?_, fun hgone => ?_, fun hpos => ?_⟩
  · rw [hr]
    show records ([] ++ _) = _
    rw [List.nil_append, ← List.take_take]
    exact hvisits
  -- Consumable: all was read, and the scan came to its end, so the budget covered every record.
  · rw [hr] at hgone
    simp only [drainVerdict, Bool.and_eq_true, beq_iff_eq, decide_eq_true_eq] at hgone
    obtain ⟨⟨-, hall⟩, hend⟩ := hgone
    have hsize : buffer.length = min (n * recordSize) crashDrainMaxBytes := by
      rw [show buffer = _ from rfl, List.length_take, length_flat]
      have := Nat.mul_le_mul_right recordSize hn
      omega
    have hcap : n * recordSize ≤ crashDrainMaxBytes := by omega
    obtain ⟨rfl, rfl⟩ := hwhole hcap
    -- With less budget the scan would have stopped a whole record before the end.
    have hbudget : m ≤ b := by
      by_contra hless
      have hstop := hoffset (by omega)
      have hmul : (b + 1) * recordSize ≤ m * recordSize := Nat.mul_le_mul_right _ (by omega)
      have hheader : headerProbeSize < recordSize := by decide
      simp only [Nat.sub_zero, List.length_nil] at hend
      rw [Nat.succ_mul] at hmul
      rw [show (Scan.scan (sinkInput buffer) b 0).offset = _ from hstop] at hend
      omega
    exact ⟨hcap, Nat.mul_le_mul_right _ hbudget, Nat.min_eq_right hbudget⟩
  -- Something is consumed only when nothing foreign was seen.
  · rw [hr] at hpos ⊢
    simp only [drainVerdict] at hpos ⊢
    split at hpos
    · cases hpos
    next hquiet =>
      rw [if_neg hquiet]
      exact hcons

/-- The drainer's steps change one sink. -/
theorem Inv.onSink (h : Inv w) (p : Pid) (hpc : ∀ q, q ≠ p → w.pc.sink ≠ some q)
    (hpc' : ∀ q, q ≠ p → w'.pc.sink ≠ some q) (hlink : ∀ q, q ≠ p → w'.link q = w.link q)
    (hlinkp : w'.link p = w.link p ∨ w'.link p = none) (hnext : w'.nextIno = w.nextIno)
    (hfiles : ∀ ino, w.link p ≠ some ino → w'.files ino = w.files ino)
    (hwritten : w'.written = w.written) (hhanded : ∀ q, q ≠ p → w'.handed q = w.handed q)
    (hp : Kept w p → Kept w' p) : Inv w' := by
  -- No file gets a new number in such a step.
  have hsub : ∀ q ino, w'.link q = some ino → w.link q = some ino := by
    intro q ino hq
    by_cases hqp : q = p
    · subst hqp
      rcases hlinkp with hsame | hnone
      · exact hsame ▸ hq
      · rw [hnone] at hq; cases hq
    · rw [← hlink q hqp]; exact hq
  refine ⟨fun q => ?_, fun q ino hq => ?_, fun q₁ q₂ ino h₁ h₂ => ?_⟩
  -- What is kept of the sink worked on is the assumption. The other sinks are at rest before and after.
  · by_cases hqp : q = p
    · subst hqp
      exact hp (h.kept q)
    · obtain ⟨done, left, hw, hdone, hholds⟩ := h.kept q
      refine ⟨done, left, by rw [hwritten]; exact hw, by rw [hhanded q hqp]; exact hdone, ?_⟩
      refine hholds.frame_plain (hpc q hqp) (hpc' q hqp) (hlink q hqp) fun ino hino => ?_
      exact hfiles ino fun hp => hqp (h.ino_inj q p ino hino hp)
  · rw [hnext]
    exact h.ino_lt q ino (hsub q ino hq)
  · exact h.ino_inj q₁ q₂ ino (hsub q₁ ino h₁) (hsub q₂ ino h₂)

/-- At most the sink of `p` is being worked on. -/
def DrainPc.Only (pc : DrainPc) (p : Pid) : Prop := pc.sink = none ∨ pc.sink = some p

/-- A place that works on one sink works on no other. -/
theorem DrainPc.Only.ne {pc : DrainPc} {p : Pid} (h : pc.Only p) : ∀ q, q ≠ p → pc.sink ≠ some q := by
  rintro q hq hsink
  rcases h with hnone | hsome
  · rw [hnone] at hsink; cases hsink
  · rw [hsome, Option.some.injEq] at hsink
    exact hq hsink.symm

/-- A step that only moves the drainer on. -/
theorem Inv.setPc (h : Inv w) (p : Pid) {pc : DrainPc} (hpc : w.pc.Only p) (hpc' : pc.Only p)
    (hp : ∀ left, Holds w p left → Holds { w with pc := pc } p left) : Inv { w with pc := pc } := by
  refine h.onSink p hpc.ne hpc'.ne (fun _ _ => rfl) (.inl rfl) rfl (fun _ _ => rfl) rfl
    (fun _ _ => rfl) ?_
  rintro ⟨done, left, hwritten, hdone, hholds⟩
  exact ⟨done, left, hwritten, hdone, hp left hholds⟩

section
variable {p : Pid} {ino : Nat} {left : List OwnRecord}

/-- Opening the sink for reading changes nothing in it. -/
theorem Inv.openRead (h : Inv w) (hpc : w.pc = .dead p) (hlink : w.link p = some ino) :
    Inv { w with pc := .opened p ino } := by
  refine h.setPc p (.inl (by rw [hpc]; rfl)) (.inr rfl) fun left hholds => ?_
  rw [holds_plain (by rw [hpc]; exact nofun)] at hholds
  exact (holds_worked rfl).mpr ⟨ino, hlink, rfl, hholds.file hlink⟩

/-- The drainer's fstat is right about the file at that moment. -/
theorem Inv.fstat (h : Inv w) (hpc : w.pc = .opened p ino) :
    Inv { w with pc := if (w.files ino).length = 0 then .removing p
      else .statted p ino (w.files ino).length } := by
  have honly : DrainPc.sink (if (w.files ino).length = 0 then .removing p
      else .statted p ino (w.files ino).length) = some p := by split <;> rfl
  refine h.setPc p (.inr (by rw [hpc]; rfl)) (.inr honly) fun left hholds => ?_
  rw [holds_worked (by rw [hpc]; rfl), hpc] at hholds
  obtain ⟨i, hlink, hi, hfile⟩ := hholds
  subst hi
  refine (holds_worked honly).mpr ⟨ino, hlink, ?_⟩
  have hsize : (w.files ino).length = left.length * recordSize := by rw [hfile, length_flat]
  -- An empty file is removed at once, any other is read.
  by_cases hempty : (w.files ino).length = 0
  · have hnone : left.length = 0 := by
      rw [hsize] at hempty
      exact (Nat.mul_eq_zero.mp hempty).resolve_right (by decide)
    simp only [hempty, if_true]
    exact List.length_eq_zero_iff.mp hnone
  · simp only [hempty, if_false]
    exact ⟨rfl, hfile, ⟨left.length, hsize, le_rfl⟩, fun _ _ => hsize⟩

/-- The read, the loop over it and the verdict. -/
theorem Inv.drainFile (h : Inv w) {size : Nat} (hpc : w.pc = .statted p ino size) :
    Inv (w.drainFile p ino size) := by
  have honly : (w.drainFile p ino size).pc.Only p := by
    -- Behind the scan the drainer removes the file, compacts it, or is done with it.
    show (DrainPc.after p _).Only p
    rw [DrainPc.after]
    split
    · exact .inr rfl
    · split
      · exact .inr rfl
      · exact .inl rfl
  refine h.onSink p (DrainPc.Only.ne (.inr (by rw [hpc]; rfl))) honly.ne (fun _ _ => rfl) (.inl rfl)
    rfl (fun _ _ => rfl) rfl (fun q hq => Function.update_of_ne hq _ _) ?_
  rintro ⟨done, left, hwritten, hdone, hholds⟩
  rw [holds_worked (by rw [hpc]; rfl), hpc] at hholds
  obtain ⟨i, hlink, hi, hfile, ⟨n, hsize, hn⟩, hall⟩ := hholds
  subst hi hsize
  obtain ⟨k, hk, hvisits, hgone, hconsumed⟩ := drainVerdict_flat hn w.budget
  rw [← hfile] at hvisits hgone hconsumed
  have hhanded : (w.drainFile p ino (n * recordSize)).handed p =
      w.handed p ++ (left.take k).map OwnRecord.bytes := by
    rw [← hvisits]
    exact Function.update_self _ _ _
  have hpc' : (w.drainFile p ino (n * recordSize)).pc = DrainPc.after p _ := rfl
  rw [DrainPc.after] at hpc'
  have hmore : ((done ++ left.take k).map OwnRecord.bytes).Subperm
      ((w.drainFile p ino (n * recordSize)).handed p) := by
    rw [hhanded, List.map_append]
    exact hdone.append (List.Subperm.refl _)
  have hsplit : w.written p = (done ++ left.take k) ++ left.drop k := by
    rw [hwritten, List.append_assoc, List.take_append_drop]
  split at hpc'
  next hremove =>
    obtain ⟨hcap, hbudget, rfl⟩ := hgone hremove
    -- All of the file was read and handed over.
    have hcount : k = left.length := Nat.eq_of_mul_eq_mul_right (by decide) (hall hcap hbudget)
    have hnone : left.drop k = [] := List.drop_eq_nil_of_le (by omega)
    refine ⟨done ++ left.take k, left.drop k, hsplit, hmore, ?_⟩
    rw [holds_worked (by rw [hpc']; rfl), hpc']
    exact ⟨ino, hlink, hnone⟩
  -- The file stays: something is discarded from its front, or nothing was consumed.
  next =>
    split at hpc'
    next hpos =>
      have hbytes := hconsumed hpos
      refine ⟨done ++ left.take k, left.drop k, hsplit, hmore, ?_⟩
      rw [holds_worked (by rw [hpc']; rfl), hpc']
      refine ⟨ino, hlink, left.take k, ?_, ?_, ?_⟩
      · intro hnil
        rw [List.take_eq_nil_iff] at hnil
        rcases hnil with rfl | rfl
        · omega
        · rw [List.length_nil] at hk
          obtain rfl : k = 0 := by omega
          omega
      · rw [hbytes, List.length_take, Nat.min_eq_left hk]
      · rw [List.take_append_drop]
        exact hfile
    -- Nothing consumed: handed over, but also still in the file.
    next =>
      refine ⟨done, left, hwritten, ?_, ?_⟩
      · rw [hhanded]
        exact hdone.trans (List.sublist_append_left _ _).subperm
      · rw [holds_plain (by rw [hpc']; exact nofun)]
        show Plain w.files (w.link p) left
        rw [hlink]
        exact hfile

/-- Removing a file that holds nothing loses nothing. -/
theorem Inv.unlink (h : Inv w) (hpc : w.pc = .removing p) :
    Inv { w with pc := .idle, link := Function.update w.link p none } := by
  refine h.onSink p (DrainPc.Only.ne (.inr (by rw [hpc]; rfl))) (DrainPc.Only.ne (.inl rfl))
    (fun q hq => Function.update_of_ne hq _ _) (.inr (Function.update_self _ _ _)) rfl
    (fun _ _ => rfl) rfl (fun _ _ => rfl) ?_
  rintro ⟨done, left, hwritten, hdone, hholds⟩
  rw [holds_worked (by rw [hpc]; rfl), hpc] at hholds
  obtain ⟨i, -, hnone⟩ := hholds
  refine ⟨done, left, hwritten, hdone, ?_⟩
  rw [holds_plain (show DrainPc.idle.sink ≠ some p from nofun)]
  show Plain w.files (Function.update w.link p none p) left
  rw [Function.update_self]
  exact hnone

/-- The compaction starts behind the discarded records with nothing moved. -/
theorem Inv.compactOpen (h : Inv w) {consumed : Nat} (hpc : w.pc = .discarding p consumed)
    (hlink : w.link p = some ino) : Inv { w with pc := .copying p ino consumed 0 } := by
  refine h.setPc p (.inr (by rw [hpc]; rfl)) (.inr rfl) fun left hholds => ?_
  rw [holds_worked (by rw [hpc]; rfl), hpc] at hholds
  obtain ⟨i, hi, gone, hgone, hconsumed, hfile⟩ := hholds
  obtain rfl : i = ino := Option.some.inj (hi.symm.trans hlink)
  refine (holds_worked rfl).mpr ⟨i, hlink, rfl, gone, ⟨hgone, ?_, ?_, ?_⟩⟩
  · rw [Nat.add_zero]
    exact hconsumed
  · rw [hconsumed, length_flat, List.length_append, Nat.add_mul]
    exact Nat.le_add_right _ _
  · rw [InPlace.shifted_zero]
    exact hfile

/-- A read of the compaction takes what comes next, or finds the end. -/
theorem Inv.compactRead (h : Inv w) {readAt writeAt : Nat}
    (hpc : w.pc = .copying p ino readAt writeAt) :
    Inv { w with pc := if ((w.files ino).drop readAt).take compactChunk = [] then
        .truncating p ino writeAt
      else .holding p ino readAt writeAt (((w.files ino).drop readAt).take compactChunk) } := by
  have honly : DrainPc.sink (if ((w.files ino).drop readAt).take compactChunk = [] then
      .truncating p ino writeAt
    else .holding p ino readAt writeAt (((w.files ino).drop readAt).take compactChunk)) =
      some p := by split <;> rfl
  refine h.setPc p (.inr (by rw [hpc]; rfl)) (.inr honly) fun left hholds => ?_
  rw [holds_worked (by rw [hpc]; rfl), hpc] at hholds
  obtain ⟨i, hlink, hi, gone, hmoving⟩ := hholds
  subst hi
  refine (holds_worked honly).mpr ⟨ino, hlink, ?_⟩
  have hle := hmoving.read_le
  -- What comes next is where it was before any moving.
  have hread : (w.files ino).drop readAt = (flat (gone ++ left)).drop readAt := by
    rw [hmoving.file_eq]
    rw [hmoving.read_eq] at hle ⊢
    exact InPlace.drop_shifted hle (Nat.le_add_left _ _)
  -- At the end everything has been moved.
  by_cases hend : ((w.files ino).drop readAt).take compactChunk = []
  · simp only [hend, if_true]
    refine ⟨rfl, gone, readAt, hmoving, ?_⟩
    rw [hread, List.take_eq_nil_iff, List.drop_eq_nil_iff] at hend
    exact le_antisymm hle (hend.resolve_left (by decide))
  · simp only [hend, if_false]
    refine ⟨rfl, hend, gone, hmoving, ?_⟩
    rw [hread]
    exact List.prefix_iff_eq_take.mp (List.take_prefix _ _)

/-- A step of the drainer that changes the file of the sink it works on. -/
theorem Inv.setFile (h : Inv w) {pc : DrainPc} {file : Bytes} (hpc : w.pc.sink = some p)
    (hpc' : pc.Only p) (hlink : w.link p = some ino)
    (hp : ∀ left, Holds w p left →
      Holds { w with pc := pc, files := Function.update w.files ino file } p left) :
    Inv { w with pc := pc, files := Function.update w.files ino file } := by
  refine h.onSink p (DrainPc.Only.ne (.inr hpc)) hpc'.ne (fun _ _ => rfl) (.inl rfl) rfl ?_ rfl
    (fun _ _ => rfl) ?_
  · intro i hi
    refine Function.update_of_ne ?_ _ _
    rintro rfl
    exact hi hlink
  · rintro ⟨done, left, hwritten, hdone, hholds⟩
    exact ⟨done, left, hwritten, hdone, hp left hholds⟩

/-- A write of the compaction moves the chunk. -/
theorem Inv.compactWrite (h : Inv w) {readAt writeAt : Nat} {chunk : Bytes}
    (hpc : w.pc = .holding p ino readAt writeAt chunk) :
    Inv { w with
      pc := .copying p ino (readAt + chunk.length) (writeAt + chunk.length)
      files := Function.update w.files ino (overwrite (w.files ino) writeAt chunk) } := by
  have hsink : w.pc.sink = some p := by rw [hpc]; rfl
  obtain ⟨done, left, -, -, hworking⟩ := h.kept p
  rw [holds_worked hsink, hpc] at hworking
  obtain ⟨i, hlink, hi, -⟩ := hworking
  subst hi
  refine h.setFile hsink (.inr rfl) hlink fun left hholds => ?_
  rw [holds_worked hsink, hpc] at hholds
  obtain ⟨i, -, hi, -, gone, hmoving, hchunk⟩ := hholds
  subst hi
  refine (holds_worked rfl).mpr ⟨ino, hlink, rfl, gone, ?_⟩
  dsimp only
  rw [Function.update_self]
  have hread := hmoving.read_le
  have hroom := congrArg List.length hchunk
  rw [List.length_take, List.length_drop] at hroom
  have hle := hread
  rw [hmoving.read_eq] at hle hchunk
  -- The chunk is what the next move of this length moves.
  have hmove := InPlace.overwrite_shifted hle chunk.length
  rw [InPlace.drop_shifted hle (Nat.le_add_left _ _), ← hchunk] at hmove
  refine ⟨hmoving.some_gone, ?_, by omega, ?_⟩
  · rw [hmoving.read_eq, Nat.add_assoc]
  · rw [hmoving.file_eq]
    exact hmove

/-- The truncation cuts off what was moved to the front. -/
theorem Inv.ftruncate (h : Inv w) {writeAt : Nat} (hpc : w.pc = .truncating p ino writeAt) :
    Inv { w with
      pc := .idle
      files := Function.update w.files ino ((w.files ino).take writeAt) } := by
  have hsink : w.pc.sink = some p := by rw [hpc]; rfl
  obtain ⟨done, left, -, -, hworking⟩ := h.kept p
  rw [holds_worked hsink, hpc] at hworking
  obtain ⟨i, hlink, hi, -⟩ := hworking
  subst hi
  refine h.setFile hsink (.inl rfl) hlink fun left hholds => ?_
  rw [holds_worked hsink, hpc] at hholds
  obtain ⟨i, -, hi, gone, readAt, hmoving, hend⟩ := hholds
  subst hi
  rw [holds_plain (show DrainPc.idle.sink ≠ some p from nofun)]
  show Plain _ (w.link p) left
  rw [hlink]
  -- Everything behind the discarded records has been moved to the front, so that is what stays.
  show Function.update w.files ino _ ino = flat left
  rw [Function.update_self, hmoving.file_eq, InPlace.take_shifted (hmoving.read_eq.symm.trans hend),
    drop_flat_append]

end

/-- **A step of the drainer** keeps the invariant. -/
theorem Inv.drainerStep {self : Pid} {a : Action} (h : Inv w)
    (hstep : drainerStep self w a = some w') : Inv w' := by
  -- One case for each of the drainer's system calls, in the order of the source.
  cases a with
  | drain max =>
    simp only [Crash.drainerStep] at hstep
    split at hstep
    next hpc =>
      cases hstep
      refine h.onSink self (DrainPc.Only.ne (.inl (by rw [hpc]; rfl)))
        (DrainPc.Only.ne (.inl (by rw [hpc]; rfl))) (fun _ _ => rfl) (.inl rfl) rfl (fun _ _ => rfl)
        rfl (fun _ _ => rfl) ?_
      rintro ⟨done, left, hwritten, hdone, hholds⟩
      refine ⟨done, left, hwritten, hdone, ?_⟩
      have hidle : w.pc.sink ≠ some self := by rw [hpc]; exact nofun
      exact hholds.frame_plain hidle hidle rfl fun _ _ => rfl
    · cases hstep
  | readdir p =>
    simp only [Crash.drainerStep] at hstep
    split at hstep
    next hpc =>
      split at hstep
      · cases hstep
        refine h.setPc p (.inl (by rw [hpc]; rfl)) (.inl rfl) fun left hholds => ?_
        exact hholds.frame_plain (by rw [hpc]; exact nofun) nofun rfl fun _ _ => rfl
      · cases hstep
    · cases hstep
  | checkAlive =>
    -- A process that lives is left alone, and so is the drainer's own sink.
    simp only [Crash.drainerStep] at hstep
    split at hstep
    next p hpc =>
      cases hstep
      have hnone : DrainPc.sink (if p = self ∨ (w.procs p).isSome then .idle else .dead p) = none := by
        split <;> rfl
      refine h.setPc p (.inl (by rw [hpc]; rfl)) (.inl hnone) fun left hholds => ?_
      refine hholds.frame_plain (by rw [hpc]; exact nofun) ?_ rfl fun _ _ => rfl
      show DrainPc.sink _ ≠ some p
      rw [hnone]
      exact nofun
    · cases hstep
  | openRead =>
    simp only [Crash.drainerStep] at hstep
    split at hstep
    next p hpc =>
      split at hstep
      next ino hlink => cases hstep; exact h.openRead hpc hlink
      -- The sink is gone by now, and the drainer goes on with the next name.
      next hlink =>
        cases hstep
        refine h.setPc p (.inl (by rw [hpc]; rfl)) (.inl rfl) fun left hholds => ?_
        exact hholds.frame_plain (by rw [hpc]; exact nofun) nofun rfl fun _ _ => rfl
    · cases hstep
  | fstat =>
    simp only [Crash.drainerStep] at hstep
    split at hstep
    next p ino hpc =>
      -- An empty file goes to the unlink, any other to the read.
      have hinv := h.fstat hpc
      split at hstep
      next hempty => cases hstep; simpa only [hempty, if_true] using hinv
      next hempty => cases hstep; simpa only [hempty, if_false] using hinv
    · cases hstep
  | pread =>
    simp only [Crash.drainerStep] at hstep
    split at hstep
    next hpc => cases hstep; exact h.drainFile hpc
    · cases hstep
  | unlink =>
    simp only [Crash.drainerStep] at hstep
    split at hstep
    next hpc => cases hstep; exact h.unlink hpc
    · cases hstep
  | compactOpen =>
    simp only [Crash.drainerStep] at hstep
    split at hstep
    next p consumed hpc =>
      split at hstep
      next ino hlink => cases hstep; exact h.compactOpen hpc hlink
      next hlink =>
        -- The drainer alone removes sinks, so this one is still there.
        obtain ⟨done, left, -, -, hholds⟩ := h.kept p
        obtain ⟨ino, hino, -⟩ := (holds_worked (by rw [hpc]; rfl)).mp hholds
        rw [hlink] at hino
        cases hino
    · cases hstep
  | compactRead =>
    simp only [Crash.drainerStep] at hstep
    split at hstep
    next p ino readAt writeAt hpc =>
      have hinv := h.compactRead hpc
      split at hstep
      next hend => cases hstep; simpa only [hend, if_true] using hinv
      next hmore => cases hstep; simpa only [hmore, if_false] using hinv
    · cases hstep
  | compactWrite =>
    simp only [Crash.drainerStep] at hstep
    split at hstep
    next hpc => cases hstep; exact h.compactWrite hpc
    · cases hstep
  | ftruncate =>
    simp only [Crash.drainerStep] at hstep
    split at hstep
    next hpc => cases hstep; exact h.ftruncate hpc
    · cases hstep
  | _ => cases hstep

/-! ## Runs -/

/-- A step of a run whose writes are safe keeps the invariant. -/
theorem Inv.step {self : Pid} {a : Action} (h : Inv w) (hsafe : SafeWrite w a)
    (hstep : Steps self w a w') : Inv w' := by
  rcases Option.or_eq_some_iff.mp hstep with hproc | ⟨-, hdrain⟩
  · exact h.processStep hsafe hproc
  · exact h.drainerStep hdrain

instance (w : World) (p : Pid) : Decidable (Exposed w p) :=
  match hpc : w.pc with
  | .statted q _ size =>
    decidable_of_iff (q = p ∧ size ≤ crashDrainMaxBytes ∧ size ≤ w.budget * recordSize)
      (by rw [Exposed, hpc])
  | .removing q => decidable_of_iff (q = p) (by rw [Exposed, hpc])
  | .truncating q _ _ => decidable_of_iff (q = p) (by rw [Exposed, hpc])
  | .idle | .named _ | .dead _ | .opened _ _ | .discarding _ _ | .copying _ _ _ _ | .holding _ _ _ _ _ =>
    isFalse (by rw [Exposed, hpc]; exact not_false)

/-- `SafeWrite` as a test. -/
def World.writesSafely (w : World) : Action → Bool
  | .crashWrite p _ =>
    match w.procs p with
    | some ⟨_, .checked q ino⟩ => decide (w.link q = some ino ∧ ¬Exposed w q)
    | _ => true
  | _ => true

/-- The test decides whether a write is safe. -/
theorem writesSafely_iff (w : World) (a : Action) : w.writesSafely a = true ↔ SafeWrite w a := by
  cases a with
  -- Only a write can be unsafe, and only one that a process is about to make.
  | crashWrite p r =>
    constructor
    · intro hsafe p' r' path q ino ha hproc
      cases ha
      simp only [World.writesSafely, hproc] at hsafe
      exact of_decide_eq_true hsafe
    · intro hsafe
      simp only [World.writesSafely]
      cases hproc : w.procs p with
      | none => rfl
      | some x =>
        obtain ⟨path, phase⟩ := x
        cases phase with
        | checked q ino => exact decide_eq_true (hsafe p r path q ino rfl hproc)
        | _ => rfl
  | _ => exact iff_of_true rfl (by intro _ _ _ _ _ ha; cases ha)

instance (w : World) (a : Action) : Decidable (SafeWrite w a) := decidable_of_iff _ (writesSafely_iff w a)

end CboxTelemetry.Crash
