import CboxTelemetry.Crash.OneKind
import CboxTelemetry.Crash.Torn
import CboxTelemetry.Lib.Run

/-!
# Writing records

`cbox_crash_write_all` calls `write` until the record is out. A call can write less than it is asked for, be
interrupted, or fail, and the process can be killed between two calls. The descriptor is in append mode, and a child
that was forked crashes into its parent's sink, so several handlers can be at it at once, each in a loop of its own.

`ended` is history: what each handler had written when it came to its end. The sink is these pieces in this order
as long as no handler writes while another is in the middle of its record (`sink_of_run`); so it is however the
handlers are interleaved when each call writes all that it is asked for or nothing (`Whole`), and then no record is
torn and a drain hands over each that was written (`whole_drained`).
-/

namespace CboxTelemetry.Crash

/-! ## The loop -/

/-- A handler in the loop of `cbox_crash_write_all`, which ends when all bytes are written. -/
structure Writer where
  record : OwnRecord
  done : Nat
  done_lt : done < recordSize

/-- What the handler has written so far. -/
def Writer.written (x : Writer) : Bytes := x.record.bytes.take x.done

/-- What a call of `write` comes to. A return of 0 is a failure. -/
inductive WriteReturn
  | wrote (n : Nat)
  | interrupted
  | failed
  deriving DecidableEq

/-- A sink, the handlers that are writing to it, and what those that are done have left there. -/
structure SharedSink where
  content : Bytes
  writers : Pid → Option Writer
  ended : List Piece

inductive WriteAction
  | enter (p : Pid) (r : OwnRecord)
  | returns (p : Pid) (ret : WriteReturn)
  | killed (p : Pid)

namespace SharedSink

/-- A sink that has just been created. -/
def fresh : SharedSink := ⟨[], fun _ => none, []⟩

/-- The handler of `p` comes to its end. -/
def leave (s : SharedSink) (p : Pid) (piece : Piece) : SharedSink :=
  { s with writers := Function.update s.writers p none, ended := s.ended ++ [piece] }

/-- One turn of the loop, in which `write` appends the next `n` bytes. It appends some, and no more than it has been
given. -/
def wrote (s : SharedSink) (p : Pid) (x : Writer) (n : Nat) : Option SharedSink :=
  if 0 < n ∧ x.done + n ≤ recordSize then
    let s := { s with content := s.content ++ (x.record.bytes.drop x.done).take n }
    if h : x.done + n < recordSize then
      some { s with writers := Function.update s.writers p (some ⟨x.record, x.done + n, h⟩) }
    else some (s.leave p (.complete x.record))
  else none

/-- One step: a handler starts on its record, a call of `write` returns, or a handler is killed. -/
def step (s : SharedSink) : WriteAction → Option SharedSink
  | .enter p r =>
    if (s.writers p).isSome then none
    else some { s with writers := Function.update s.writers p (some ⟨r, 0, Nat.zero_lt_succ _⟩) }
  | .returns p ret =>
    match s.writers p, ret with
    | some x, .wrote n => s.wrote p x n
    | some _, .interrupted => some s
    | some x, .failed => some (s.leave p (.torn x.record x.done x.done_lt))
    | none, _ => none
  | .killed p =>
    match s.writers p with
    | some x => some (s.leave p (.torn x.record x.done x.done_lt))
    | none => none

end SharedSink

/-- The step relation. -/
def SharedSteps (s : SharedSink) (a : WriteAction) (s' : SharedSink) : Prop := s.step a = some s'

/-- Nothing is written while another handler is in the middle of its record. -/
def Alone (s : SharedSink) : WriteAction → Prop
  | .returns p (.wrote _) => ∀ q x, q ≠ p → s.writers q = some x → x.done = 0
  | _ => True

/-- A call that writes anything writes all that it has been given. -/
def Whole (s : SharedSink) : WriteAction → Prop
  | .returns p (.wrote n) => ∀ x, s.writers p = some x → x.done + n = recordSize
  | _ => True

/-- What a step can do. -/
theorem SharedSink.step_cases {s s' : SharedSink} {a : WriteAction} (hstep : SharedSteps s a s') :
    (∃ p r, s.writers p = none ∧
      s' = { s with writers := Function.update s.writers p (some ⟨r, 0, Nat.zero_lt_succ _⟩) }) ∨
    (∃ p x n, a = .returns p (.wrote n) ∧ s.writers p = some x ∧ s.wrote p x n = some s') ∨
    (∃ p x, s.writers p = some x ∧ s' = s.leave p (.torn x.record x.done x.done_lt)) ∨ s' = s := by
  cases a with
  | enter p r =>
    simp only [SharedSteps, SharedSink.step] at hstep
    split at hstep
    · cases hstep
    · next hnone =>
      cases hstep
      exact .inl ⟨p, r, Option.not_isSome_iff_eq_none.mp hnone, rfl⟩
  | returns p ret =>
    simp only [SharedSteps, SharedSink.step] at hstep
    split at hstep
    · next x n hx => exact .inr (.inl ⟨p, x, n, rfl, hx, hstep⟩)
    -- Interrupted before it wrote anything: the handler tries again.
    · cases hstep
      exact .inr (.inr (.inr rfl))
    · next x hx =>
      cases hstep
      exact .inr (.inr (.inl ⟨p, x, hx, rfl⟩))
    · cases hstep
  -- A handler that is killed leaves what it has written.
  | killed p =>
    simp only [SharedSteps, SharedSink.step] at hstep
    split at hstep
    · next x hx =>
      cases hstep
      exact .inr (.inr (.inl ⟨p, x, hx, rfl⟩))
    · cases hstep

/-- Who has just started has written nothing. -/
theorem SharedSink.done_of_entered {s : SharedSink} {p q : Pid} {r : OwnRecord} {y : Writer}
    (hy : Function.update s.writers p (some ⟨r, 0, Nat.zero_lt_succ _⟩) q = some y) :
    y.done = 0 ∨ s.writers q = some y := by
  by_cases heq : q = p
  · subst heq
    rw [Function.update_self] at hy
    cases hy
    exact .inl rfl
  · rw [Function.update_of_ne heq] at hy
    exact .inr hy

/-! ## One record at a time -/

/-- The sink is what those that are done have left, and what the one handler that is in the middle of its record, if
there is one, has written of it. -/
inductive Laid (s : SharedSink) : Prop
  | between : (∀ q x, s.writers q = some x → x.done = 0) → s.content = concat s.ended → Laid s
  | within (p : Pid) (x : Writer) : s.writers p = some x → (∀ q y, q ≠ p → s.writers q = some y → y.done = 0) →
      s.content = concat s.ended ++ x.written → Laid s

section laid
variable {s s' : SharedSink} {p : Pid} {x : Writer} {a : WriteAction}

theorem concat_append (pieces more : List Piece) : concat (pieces ++ more) = concat pieces ++ concat more :=
  List.flatMap_append

/-- The bytes of a piece come behind those of the pieces before. -/
theorem concat_concat (pieces : List Piece) (piece : Piece) :
    concat (pieces ++ [piece]) = concat pieces ++ piece.bytes := by
  rw [concat_append, concat_cons]
  show _ ++ (piece.bytes ++ []) = _
  rw [List.append_nil]

theorem Writer.written_nil (h : x.done = 0) : x.written = [] := by rw [Writer.written, h, List.take_zero]

/-- Where nobody else is in the middle of a record, what `p` has written is the end of the sink. -/
theorem Laid.content_eq (h : Laid s) (hx : s.writers p = some x)
    (hothers : ∀ q y, q ≠ p → s.writers q = some y → y.done = 0) : s.content = concat s.ended ++ x.written := by
  cases h with
  | between hall hcontent => rw [hcontent, Writer.written_nil (hall p x hx), List.append_nil]
  | within p' x' hx' hall hcontent =>
    by_cases heq : p' = p
    · subst heq
      cases hx.symm.trans hx'
      exact hcontent
    · rw [hcontent, Writer.written_nil (hothers p' x' heq hx'), List.append_nil,
        Writer.written_nil (hall p x (fun h => heq h.symm) hx), List.append_nil]

@[simp] theorem leave_writers_self (s : SharedSink) (p : Pid) (piece : Piece) :
    (s.leave p piece).writers p = none := Function.update_self _ _ _

@[simp] theorem leave_writers_of_ne {q : Pid} (h : q ≠ p) (piece : Piece) :
    (s.leave p piece).writers q = s.writers q := Function.update_of_ne h _ _

/-- The other handlers, when `p` is not one of them any more. -/
theorem others_leave (hothers : ∀ q y, q ≠ p → s.writers q = some y → y.done = 0) (piece : Piece) :
    ∀ q y, (s.leave p piece).writers q = some y → y.done = 0 := by
  intro q y hy
  by_cases heq : q = p
  · subst heq
    rw [leave_writers_self] at hy
    cases hy
  · rw [leave_writers_of_ne heq] at hy
    exact hothers q y heq hy

/-- A handler that gives up leaves what it has written. -/
theorem Laid.giveUp (h : Laid s) (hx : s.writers p = some x) :
    Laid (s.leave p (.torn x.record x.done x.done_lt)) := by
  have hpiece : (Piece.torn x.record x.done x.done_lt).bytes = x.written := rfl
  -- All the others are at the start of their records, or one of them is not.
  by_cases hothers : ∀ q y, q ≠ p → s.writers q = some y → y.done = 0
  · apply Laid.between (others_leave hothers _)
    show s.content = concat (s.ended ++ [_])
    rw [concat_concat, hpiece]
    exact h.content_eq hx hothers
  · -- Somebody else is in the middle of a record, so this one has not written anything.
    cases h with
    | between hall _ => exact absurd (fun q y _ hy => hall q y hy) hothers
    | within p' x' hx' hall hcontent =>
      have hne : p ≠ p' := by
        rintro rfl
        exact hothers hall
      apply Laid.within p' x'
      · rw [leave_writers_of_ne (fun h => hne h.symm)]
        exact hx'
      · intro q y hq hy
        by_cases heq : q = p
        · subst heq
          rw [leave_writers_self] at hy
          cases hy
        · rw [leave_writers_of_ne heq] at hy
          exact hall q y hq hy
      · show s.content = concat (s.ended ++ [_]) ++ x'.written
        rw [concat_concat, hpiece, Writer.written_nil (hall p x hne hx), List.append_nil]
        exact hcontent

/-- A call of `write` that writes, by a handler that is alone. -/
theorem Laid.wrote (h : Laid s) (hx : s.writers p = some x)
    (hothers : ∀ q y, q ≠ p → s.writers q = some y → y.done = 0) {n : Nat} (hwrote : s.wrote p x n = some s') :
    Laid s' := by
  have hcontent := h.content_eq hx hothers
  have hnext : s.content ++ (x.record.bytes.drop x.done).take n =
      -- The write continues the record where the last one stopped.
      concat s.ended ++ x.record.bytes.take (x.done + n) := by
    rw [hcontent, List.append_assoc, Writer.written, ← List.take_add]
  unfold SharedSink.wrote at hwrote
  split at hwrote
  case isFalse => cases hwrote
  case isTrue hroom =>
    simp only at hwrote
    split at hwrote
    · cases hwrote
      apply Laid.within p _ (Function.update_self _ _ _)
      · intro q y hq hy
        have hthere : Function.update s.writers p _ q = some y := hy
        rw [Function.update_of_ne hq] at hthere
        exact hothers q y hq hthere
      · exact hnext
    -- With the last byte the record is a complete piece.
    · next hend =>
      cases hwrote
      apply Laid.between
      · intro q y hy
        exact others_leave hothers (.complete x.record) q y hy
      show s.content ++ _ = concat (s.ended ++ [_])
      rw [hnext, concat_concat, List.take_of_length_le (by rw [x.record.length_eq]; omega)]
      rfl

/-- A handler that starts has written nothing. -/
theorem Laid.enter (h : Laid s) (hnone : s.writers p = none) (r : OwnRecord) :
    Laid { s with writers := Function.update s.writers p (some ⟨r, 0, Nat.zero_lt_succ _⟩) } := by
  cases h with
  | between hall hcontent =>
    apply Laid.between
    · intro q y hy
      exact (SharedSink.done_of_entered hy).elim id (hall q y)
    · exact hcontent
  | within p' x' hx' hall hcontent =>
    apply Laid.within p' x'
    -- The writer in the middle is another one, for this one was not there.
    · have hne : p' ≠ p := by
        rintro rfl
        rw [hnone] at hx'
        cases hx'
      show Function.update s.writers p _ p' = some x'
      rw [Function.update_of_ne hne]
      exact hx'
    · intro q y hq hy
      exact (SharedSink.done_of_entered hy).elim id (hall q y hq)
    · exact hcontent

/-- **Every step** of handlers that write one after the other. -/
theorem Laid.step (h : Laid s) (halone : Alone s a) (hstep : SharedSteps s a s') : Laid s' := by
  rcases SharedSink.step_cases hstep with
    ⟨p, r, hnone, rfl⟩ | ⟨p, x, n, rfl, hx, hwrote⟩ | ⟨p, x, hx, rfl⟩ | rfl
  · exact h.enter hnone r
  · exact h.wrote hx halone hwrote
  · exact h.giveUp hx
  · exact h

/-- An empty sink is laid out as nothing. -/
theorem laid_fresh : Laid .fresh := by
  apply Laid.between
  · intro q x hx
    cases (hx : none = some x)
  · rfl

end laid

/-- **A sink that is written one record after the other**, at each point of each run, is what the handlers that are
done have left, in the order in which they ended, and the beginning of the record of at most one other. -/
theorem sink_of_run {s : SharedSink} {as : List WriteAction} (hrun : Run (Guarded Alone SharedSteps) .fresh as s) :
    Laid s :=
  Run.invariant (fun _ _ _ h hs => h.step hs.1 hs.2) laid_fresh hrun

/-- A child that `gone` has forked. -/
def forkedChild : Pid := ⟨12, by decide, by decide⟩

/-- A parent and its child crash into one sink, one after the other. The parent's record takes two calls, and the
child finds the disk full behind the header. -/
def fullDisk : List WriteAction :=
  [.enter gone blankRecord, .returns gone (.wrote 1000), .returns gone .interrupted, .returns gone (.wrote 1160),
    .enter forkedChild blankRecord, .returns forkedChild (.wrote 24), .returns forkedChild .failed]

/-- A sink on a disk that fills up: the second record is torn behind its header. -/
theorem sink_of_run_fullDisk : ∃ s, Run (Guarded Alone SharedSteps) .fresh fullDisk s ∧
    s.ended = [.complete blankRecord, .torn blankRecord 24 (by decide)] ∧ Laid s := by
  have hrun : ∃ s, Run (Guarded Alone SharedSteps) .fresh fullDisk s ∧
      s.ended = [.complete blankRecord, .torn blankRecord 24 (by decide)] := by
    refine ⟨_, .cons ⟨trivial, rfl⟩ (.cons ⟨?_, rfl⟩ (.cons ⟨trivial, rfl⟩ (.cons ⟨?_, rfl⟩
      (.cons ⟨trivial, rfl⟩ (.cons ⟨?_, rfl⟩ (.cons ⟨trivial, rfl⟩ (.nil _))))))), rfl⟩
    all_goals
      intro q z hq hz
      simp [SharedSink.fresh, SharedSink.leave, hq] at hz
  obtain ⟨s, hrun, hended⟩ := hrun
  exact ⟨s, hrun, hended, sink_of_run hrun⟩

/-! ## Whole writes -/

/-- The records that were written to their end, in the order in which they were. -/
def completeRecords (pieces : List Piece) : List OwnRecord :=
  pieces.filterMap fun | .complete r => some r | .torn _ _ _ => none

/-- Nobody is in the middle of a record, and nobody has been. -/
structure Clean (s : SharedSink) : Prop where
  untouched : ∀ q x, s.writers q = some x → x.done = 0
  content_eq : s.content = encode ((completeRecords s.ended).map .own)

section clean
variable {s s' : SharedSink} {p : Pid} {x : Writer} {a : WriteAction}

theorem completeRecords_concat (pieces : List Piece) (piece : Piece) :
    completeRecords (pieces ++ [piece]) = completeRecords pieces ++ completeRecords [piece] :=
  List.filterMap_append

/-- A handler that gives up has written nothing, so it leaves nothing. -/
theorem Clean.giveUp (h : Clean s) (p : Pid) (x : Writer) :
    Clean (s.leave p (.torn x.record x.done x.done_lt)) := by
  constructor
  · exact others_leave (fun q y _ hy => h.untouched q y hy) _
  · show s.content = encode ((completeRecords (s.ended ++ [_])).map .own)
    rw [completeRecords_concat, h.content_eq]
    exact congrArg (fun rs => encode (List.map Item.own rs)) (List.append_nil _).symm

/-- A write of a whole record adds the record. -/
theorem Clean.wrote (h : Clean s) (hx : s.writers p = some x) {n : Nat} (hwhole : x.done + n = recordSize)
    (hwrote : s.wrote p x n = some s') : Clean s' := by
  have hzero := h.untouched p x hx
  unfold SharedSink.wrote at hwrote
  split at hwrote
  case isFalse => cases hwrote
  case isTrue hroom =>
    simp only at hwrote
    -- The record is whole, so the branch of the short write is not taken.
    rw [dif_neg (by omega)] at hwrote
    cases hwrote
    constructor
    · intro q y hy
      exact others_leave (fun q y _ hy => h.untouched q y hy) (.complete x.record) q y hy
    · show s.content ++ (x.record.bytes.drop x.done).take n = encode ((completeRecords (s.ended ++ [_])).map .own)
      rw [completeRecords_concat, List.map_append, encode_append, h.content_eq, hzero, List.drop_zero,
        List.take_of_length_le (by rw [x.record.length_eq]; omega)]
      show _ = _ ++ (x.record.bytes ++ [])
      rw [List.append_nil]

/-- Steps whose writes are whole keep the sink clean. -/
theorem Clean.step (h : Clean s) (hwhole : Whole s a) (hstep : SharedSteps s a s') : Clean s' := by
  rcases SharedSink.step_cases hstep with
    ⟨p, r, -, rfl⟩ | ⟨p, x, n, rfl, hx, hwrote⟩ | ⟨p, x, -, rfl⟩ | rfl
  · refine ⟨?_, h.content_eq⟩
    intro q y hy
    exact (SharedSink.done_of_entered hy).elim id (h.untouched q y)
  · exact h.wrote hx (hwhole x hx) hwrote
  · exact h.giveUp p x
  · exact h

/-- An empty sink is clean. -/
theorem clean_fresh : Clean .fresh := by
  constructor
  · intro q x hx
    cases (hx : none = some x)
  · rfl

end clean

theorem clean_of_run {s : SharedSink} {as : List WriteAction} (hrun : Run (Guarded Whole SharedSteps) .fresh as s) :
    Clean s :=
  Run.invariant (fun _ _ _ h hs => h.step hs.1 hs.2) clean_fresh hrun

/-- **Whole writes lose nothing and mix nothing.** However many handlers write to a sink, and in whatever order their
steps come: when each call of `write` writes all or nothing, a drain hands over the records that were written, byte
for byte, in the order in which they were. It stops when its budget is spent, or at the end of its one read. -/
theorem whole_drained {s : SharedSink} {as : List WriteAction} (hrun : Run (Guarded Whole SharedSteps) .fresh as s)
    {euid : Nat} {call : DrainCall} (hcall : call.Reliable euid) {p : Pid} {others : List Name}
    (htargets : call.targets = sinkName p.toInt :: others) (honce : sinkName p.toInt ∉ others) {c : Sinks}
    (hfile : c (sinkName p.toInt) = some s.content) (hmax : 1 ≤ call.max) :
    (call.run (c.toDir euid)).handedFrom (sinkName p.toInt) =
      ((completeRecords s.ended).take (min call.max readRecords)).map OwnRecord.bytes := by
  rw [(clean_of_run hrun).content_eq] at hfile
  obtain ⟨hvisits, -⟩ := DrainCall.run_first hcall htargets honce hfile hmax
  rw [DrainResult.handedFrom, hvisits, sinkStep_own_visits]

/-- A parent and two of its children crash into one sink at the same time. The `write` of one child is interrupted,
and the other child is killed before it has written anything. -/
def twoCrashes : List WriteAction :=
  [.enter gone blankRecord, .enter forkedChild blankRecord, .enter drainer blankRecord,
    .returns forkedChild .interrupted, .returns forkedChild (.wrote 2160), .killed drainer,
    .returns gone (.wrote 2160)]

/-- Two records were written, and a drain with a budget of one hands over the first. -/
theorem whole_drained_two : ∃ s, Run (Guarded Whole SharedSteps) .fresh twoCrashes s ∧
    completeRecords s.ended = [blankRecord, blankRecord] ∧
    ((callOver tmpDir drainer 1 [gone]).run (Sinks.toDir tmpDir.uid fun _ => some s.content)).handedFrom
      (sinkName gone.toInt) = [blankRecord.bytes] := by
  have hrun : ∃ s, Run (Guarded Whole SharedSteps) .fresh twoCrashes s ∧
      completeRecords s.ended = [blankRecord, blankRecord] := by
    refine ⟨_, .cons ⟨trivial, rfl⟩ (.cons ⟨trivial, rfl⟩ (.cons ⟨trivial, rfl⟩ (.cons ⟨trivial, rfl⟩
      (.cons ⟨?_, rfl⟩ (.cons ⟨trivial, rfl⟩ (.cons ⟨?_, rfl⟩ (.nil _))))))), rfl⟩
    all_goals
      intro x hx
      cases hx
      rfl
  obtain ⟨s, hrun, hended⟩ := hrun
  have hnew : drainer ∉ [gone] := by decide
  -- The budget one hands over the first of the two records.
  have hdrained := whole_drained hrun (callOver_reliable tmpDir drainer 1 [gone]) (callOver_targets tmpDir 1 hnew)
    List.not_mem_nil (c := fun _ => some s.content) rfl (by decide)
  rw [hended] at hdrained
  exact ⟨s, hrun, hended, hdrained⟩

end CboxTelemetry.Crash
