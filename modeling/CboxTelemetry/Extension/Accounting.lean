import CboxTelemetry.Extension.History

/-!
# Accounting of operations

Tokens are matched with the unit they belong to by a 32-bit generation, slots are let go of out of order,
and calls outlive their unit. None of it shows: the aggregates of the open unit are those of the calls that
both began and ended in it (`accounted_of_run`).
-/

namespace CboxTelemetry.Extension

/-! ## Times and sums -/

/-- The times of the calls of a type that both began and ended in the unit opened last. -/
def History.measured (h : History) (type : OpType) : List Nat :=
  (h.ended.filter fun e => e.op.type = type ∧ e.op.unit = some h.units ∧ e.unit = some h.units).map
    Ended.duration

/-- An aggregate of these times. -/
structure OpAgg.Sums (a : OpAgg) (times : List Nat) : Prop where
  count_eq : a.count.toNat = times.length % 2 ^ 32
  totalNs_eq : a.totalNs.toNat = times.sum % 2 ^ 64
  maxNs_eq : a.maxNs.toNat = times.foldr max 0

theorem OpAgg.sums_zero : OpAgg.zero.Sums [] := ⟨rfl, rfl, rfl⟩

/-- One more call adds its time. -/
theorem OpAgg.Sums.book {a : OpAgg} {times : List Nat} (h : a.Sums times) (elapsed : UInt64) :
    (a.book elapsed).Sums (elapsed.toNat :: times) where
  count_eq := by
    rw [OpAgg.book, UInt32.toNat_add, h.count_eq, List.length_cons, Nat.add_mod]
    simp
  totalNs_eq := by
    rw [OpAgg.book, UInt64.toNat_add, h.totalNs_eq, List.sum_cons]
    omega
  maxNs_eq := by
    rw [List.foldr_cons, ← h.maxNs_eq, OpAgg.book]
    split
    · next hlt => rw [max_eq_left (Nat.le_of_lt (UInt64.lt_iff_toNat_lt.mp hlt))]
    · next hge => rw [max_eq_right (Nat.le_of_not_lt fun hlt => hge (UInt64.lt_iff_toNat_lt.mpr hlt))]

/-! ## The invariant -/

/-- Of a call that has begun: the generation tells whether its unit is the open one. -/
structure Begun.Timely (op : Begun) (g : Globals) (h : History) : Prop where
  resets_le : op.resets ≤ h.resets
  unit_le : ∀ unit, op.unit = some unit → unit ≤ h.units
  current_iff : g.unit.handle ≠ 0 → (op.unit = some h.units ↔ op.resets = h.resets)

/-- A token says of its call what there is to say. -/
structure OpToken.Of (t : OpToken) (op : Begun) : Prop where
  type_eq : t.type = op.type
  startNs_eq : t.startNs = op.startNs
  generation_eq : t.generation = .ofNat op.resets

/-- The state of the operations and the history agree. -/
structure Accounted (w : Worker) (h : History) : Prop where
  generation_eq : w.globals.ops.generation = .ofNat h.resets
  length_eq : w.calls.length = h.begun.length
  token : ∀ (call : Nat) (t : OpToken), w.calls[call]? = some (some t) → ∃ op, h.begun[call]? = some op ∧ t.Of op
  begun : ∀ op ∈ h.begun, op.Timely w.globals h
  ended : ∀ e ∈ h.ended, ∀ unit, e.unit = some unit → unit ≤ h.units
  agg : w.globals.unit.handle ≠ 0 → ∀ type, type ≠ .none → (w.globals.ops.agg type).Sums (h.measured type)

variable {w w' : Worker} {h : History} {a : Action}

/-- The begin of an operation books nothing. -/
theorem noteOpBegin_keeps (g : Globals) (type : OpType) (now : UInt64) :
    (g.noteOpBegin type now).2.unit = g.unit ∧ (g.noteOpBegin type now).2.ops.agg = g.ops.agg ∧
      (g.noteOpBegin type now).2.ops.generation = g.ops.generation ∧
      (g.noteOpBegin type now).2.nextHandle = g.nextHandle := by
  unfold Globals.noteOpBegin
  simp only
  split
  · exact ⟨rfl, OpState.opsBegin_agg _ _ _, OpState.opsBegin_generation _ _ _, rfl⟩
  · exact ⟨rfl, rfl, rfl, rfl⟩

/-- The token of a call that begins, with or without a unit. -/
theorem noteOpBegin_token (g : Globals) (type : OpType) (now : UInt64) :
    (g.noteOpBegin type now).1.type = type ∧ (g.noteOpBegin type now).1.startNs = now ∧
      (g.noteOpBegin type now).1.generation = g.ops.generation := by
  unfold Globals.noteOpBegin
  simp only
  split
  · exact OpState.opsBegin_token _ _ _
  · exact ⟨rfl, rfl, rfl⟩

/-- The end of a call, as far as the unit and the aggregates go. -/
theorem noteOpEnd_eq (g : Globals) (t : OpToken) (now : UInt64) :
    (g.noteOpEnd t now).unit = g.unit ∧ (g.noteOpEnd t now).nextHandle = g.nextHandle ∧
      (g.noteOpEnd t now).ops = if g.unit.handle ≠ 0 then g.ops.opsEnd t now else g.ops := by
  rw [Globals.noteOpEnd_frame]
  exact ⟨rfl, rfl, rfl⟩

/-- The begin of an operation, with its token in the books. -/
theorem Accounted.opBegin (hacc : Accounted w h) {type : OpType} {now : UInt64}
    (hstep : WorkerSteps w (.opBegin type now) w') : Accounted w' (h.noteCalls w (.opBegin type now) w') := by
  cases hstep
  obtain ⟨hunit, hagg, hgeneration, -⟩ := noteOpBegin_keeps w.globals type now
  obtain ⟨htype, hstart, htoken⟩ := noteOpBegin_token w.globals type now
  refine ⟨hgeneration.trans hacc.generation_eq, ?_, ?_, ?_, hacc.ended, ?_⟩
  · show (w.calls ++ [_]).length = (h.begun ++ [_]).length
    rw [List.length_append, List.length_append, hacc.length_eq, List.length_singleton, List.length_singleton]
  · intro call t hcall
    rw [List.getElem?_append] at hcall
    show ∃ op, (h.begun ++ [_])[call]? = some op ∧ t.Of op
    rw [List.getElem?_append, ← hacc.length_eq]
    split at hcall
    · next hold =>
      rw [if_pos hold]
      exact hacc.token call t hcall
    · next hnew =>
      rw [if_neg hnew]
      have hzero : call - w.calls.length = 0 := by
        have hlt := (List.getElem?_eq_some_iff.mp hcall).1
        rw [List.length_singleton] at hlt
        omega
      rw [hzero] at hcall ⊢
      cases hcall
      exact ⟨_, rfl, htype, hstart, htoken.trans hacc.generation_eq⟩
  · intro op hop
    -- The call before the begin has the token it had, and the new one has a token of this generation.
    show op.Timely (w.globals.noteOpBegin type now).2 _
    rcases List.mem_append.mp hop with hold | hnew
    · obtain ⟨hresets, hle, hcurrent⟩ := hacc.begun op hold
      exact ⟨hresets, hle, by rwa [hunit]⟩
    · cases List.mem_singleton.mp hnew
      refine ⟨Nat.le_refl _, fun unit heq => ?_, fun hopen => ?_⟩
      · have heq : h.current w.globals = some unit := heq
        unfold History.current at heq
        split at heq
        · cases heq
        · cases heq
          exact Nat.le_refl _
      · rw [hunit] at hopen
        exact iff_of_true (if_neg hopen) rfl
  · intro hopen type' htype'
    have hopen : (w.globals.noteOpBegin type now).2.unit.handle ≠ 0 := hopen
    rw [hunit] at hopen
    show ((w.globals.noteOpBegin type now).2.ops.agg type').Sums (h.measured type')
    rw [hagg]
    exact hacc.agg hopen type' htype'

/-- A call that is not of this unit, or of another type, is not measured. -/
theorem History.measured_cons (h : History) (e : Ended) (type : OpType) :
    { h with ended := e :: h.ended }.measured type =
      if e.op.type = type ∧ e.op.unit = some h.units ∧ e.unit = some h.units then
        e.duration :: h.measured type else h.measured type := by
  unfold History.measured
  simp only [List.filter_cons, decide_eq_true_eq]
  split
  · rfl
  · rfl

/-- A token of this generation is of a call that began after the last reset: fewer than `2 ^ 32` resets ago, so
the generation is not one that has come around again. -/
theorem Accounted.resets_eq (hacc : Accounted w h) {call : Nat} {now : UInt64}
    (hrecent : EndsRecent (w, h) (.opEnd call now)) {op : Begun} (hop : h.begun[call]? = some op) {t : OpToken}
    (ht : t.Of op) (hnow : t.generation = w.globals.ops.generation) : op.resets = h.resets := by
  rw [ht.generation_eq, hacc.generation_eq] at hnow
  have hmod := congrArg UInt32.toNat hnow
  rw [UInt32.toNat_ofNat', UInt32.toNat_ofNat'] at hmod
  have hlt : h.resets < op.resets + 2 ^ 32 := hrecent op hop
  have hle := (hacc.begun op (List.mem_of_getElem? hop)).resets_le
  omega

/-- The end of an operation, booked where its unit is still open. -/
theorem Accounted.opEnd (hacc : Accounted w h) {call : Nat} {now : UInt64}
    (hrecent : EndsRecent (w, h) (.opEnd call now)) (hstep : WorkerSteps w (.opEnd call now) w') :
    Accounted w' (h.noteCalls w (.opEnd call now) w') := by
  simp only [WorkerSteps, Worker.step] at hstep
  split at hstep
  · next t hcall =>
    cases hstep
    obtain ⟨op, hop, htype, hstart, hgeneration⟩ := hacc.token call t hcall
    obtain ⟨hunit, hnext, hops⟩ := noteOpEnd_eq w.globals t now
    have htimely := hacc.begun op (List.mem_of_getElem? hop)
    have hnote : ∀ w' : Worker, h.noteCalls w (.opEnd call now) w' =
        { h with ended := ⟨op, now, h.current w.globals⟩ :: h.ended } := by
      intro w'
      simp only [History.noteCalls, hop]
    rw [hnote]
    refine ⟨?_, ?_, ?_, ?_, ?_, ?_⟩
    · show (w.globals.noteOpEnd t now).ops.generation = _
      rw [hops, ← hacc.generation_eq]
      split
      · exact OpState.opsEnd_generation _ _ _
      · rfl
    · show (w.calls.set call none).length = _
      rw [List.length_set]
      exact hacc.length_eq
    · intro other t' hother
      have hother : (w.calls.set call none)[other]? = some (some t') := hother
      rw [List.getElem?_set] at hother
      split at hother
      · split at hother <;> cases hother
      · exact hacc.token other t' hother
    · intro op' hop'
      obtain ⟨hresets, hle, hcurrent⟩ := hacc.begun op' hop'
      refine ⟨hresets, hle, ?_⟩
      show (w.globals.noteOpEnd t now).unit.handle ≠ 0 → _
      rwa [hunit]
    · intro e he unit heq
      rcases List.mem_cons.mp he with rfl | hold
      · have heq : h.current w.globals = some unit := heq
        unfold History.current at heq
        split at heq
        · cases heq
        · cases heq
          exact Nat.le_refl _
      · exact hacc.ended e hold unit heq
    · intro hopen type' htype'
      have hopen : (w.globals.noteOpEnd t now).unit.handle ≠ 0 := hopen
      rw [hunit] at hopen
      have hcurrent : h.current w.globals = some h.units := if_neg hopen
      show ((w.globals.noteOpEnd t now).ops.agg type').Sums _
      rw [hops, if_pos hopen, History.measured_cons, hcurrent]
      have hold := hacc.agg hopen type' htype'
      by_cases hsame : op.type = type' ∧ op.unit = some h.units
      · -- A call of this type and of this unit: its token is of this generation.
        obtain ⟨rfl, hthis⟩ := hsame
        have hnow : t.generation = w.globals.ops.generation := by
          rw [hgeneration, hacc.generation_eq, (htimely.current_iff hopen).mp hthis]
        rw [if_pos ⟨rfl, hthis, rfl⟩, OpState.opsEnd_agg (htype ▸ htype') hnow, htype, hstart]
        rw [Function.update_self]
        have hbooked := hold.book (elapsed op.startNs now)
        rwa [elapsed_toNat] at hbooked
      · rw [if_neg fun hall => hsame ⟨hall.1, hall.2.1⟩]
        by_cases hnow : t.generation = w.globals.ops.generation
        · have hresets := hacc.resets_eq hrecent hop ⟨htype, hstart, hgeneration⟩ hnow
          have hother : op.type ≠ type' := fun heq =>
            hsame ⟨heq, (htimely.current_iff hopen).mpr hresets⟩
          by_cases hnone : t.type = .none
          · rwa [OpState.opsEnd_none hnone]
          · rw [OpState.opsEnd_agg hnone hnow, htype, Function.update_of_ne (Ne.symm hother)]
            exact hold
        · rwa [OpState.opsEnd_stale hnow]
  · cases hstep

/-- The resets of a step, read off the generation. -/
theorem resets_clearedAfter (s : OpState) {k : Nat} (hk : k ≤ 2) :
    ((s.clearedAfter k).generation - s.generation).toNat = k := by
  show (s.generation + .ofNat k - s.generation).toNat = k
  rw [UInt32.add_comm, UInt32.add_sub_cancel, UInt32.toNat_ofNat']
  omega

/-- What is noted of a step that is no hook. -/
theorem note_other {a : Action} (hhook : a.isHook = false) (h : History) (w w' : Worker) :
    h.noteCalls w a w' = { h with
      units := if w'.globals.nextHandle = w.globals.nextHandle then h.units else h.units + 1
      resets := h.resets + (w'.globals.ops.generation - w.globals.ops.generation).toNat } := by
  cases a <;> first | rfl | cases hhook

/-- No call is of the unit that has just been opened, or of none. -/
theorem History.measured_new (h : History) (hended : ∀ e ∈ h.ended, ∀ unit, e.unit = some unit → unit ≤ h.units)
    (resets : Nat) (type : OpType) : { h with units := h.units + 1, resets := resets }.measured type = [] := by
  have hnone : (h.ended.filter fun e =>
      e.op.type = type ∧ e.op.unit = some (h.units + 1) ∧ e.unit = some (h.units + 1)) = [] := by
    rw [List.filter_eq_nil_iff]
    intro e he hall
    have hle := hended e he (h.units + 1) (of_decide_eq_true hall).2.2
    omega
  unfold History.measured
  rw [hnone]
  rfl

/-- After a reset, no call that has begun is of this generation. -/
theorem Accounted.reset (hacc : Accounted w h) {k : Nat} (hk : k ≤ 2) (hpos : 0 < k)
    (hops : w'.globals.ops = w.globals.ops.clearedAfter k) (hcalls : w'.calls = w.calls) (units : Nat)
    (hunits : h.units ≤ units) (hopened : w'.globals.unit.handle ≠ 0 → h.units < units)
    (hmeasured : ∀ type, w'.globals.unit.handle ≠ 0 →
      { h with units := units, resets := h.resets + k }.measured type = []) :
    Accounted w' { h with units := units, resets := h.resets + k } where
  generation_eq := by
    rw [hops]
    show w.globals.ops.generation + .ofNat k = .ofNat (h.resets + k)
    rw [hacc.generation_eq, UInt32.ofNat_add]
  length_eq := by
    rw [hcalls]
    exact hacc.length_eq
  token call t hcall := by
    rw [hcalls] at hcall
    exact hacc.token call t hcall
  begun op hop := by
    obtain ⟨hresets, hle, -⟩ := hacc.begun op hop
    refine ⟨Nat.le_add_right_of_le hresets, fun unit heq => (hle unit heq).trans hunits, fun hopen => ?_⟩
    have hlt := hopened hopen
    refine iff_of_false (fun heq => ?_) fun heq => ?_
    · have hle := hle units heq
      omega
    · have heq : op.resets = h.resets + k := heq
      omega
  ended e he unit heq := (hacc.ended e he unit heq).trans hunits
  agg hopen type _ := by
    rw [hmeasured type hopen, hops]
    exact OpAgg.sums_zero

/-- Everything else keeps the unit, or closes or opens one. -/
theorem Accounted.other (hacc : Accounted w h) (hhook : a.isHook = false) (hstep : WorkerSteps w a w') :
    Accounted w' (h.noteCalls w a w') := by
  obtain ⟨hcalls, k, hk, heffect⟩ := unitEffect_step hstep hhook
  rw [note_other hhook]
  generalize hw' : w'.globals = g' at heffect
  cases heffect with
  | kept _ hops hhandle _ _ hnext =>
    subst hw'
    rw [hops, hnext, if_pos rfl, UInt32.sub_self]
    refine ⟨?_, ?_, ?_, fun op hop => ?_, hacc.ended, fun hopen => ?_⟩
    · rw [hops]
      exact hacc.generation_eq
    · rw [hcalls]
      exact hacc.length_eq
    · rw [hcalls]
      exact hacc.token
    · obtain ⟨hresets, hle, hcurrent⟩ := hacc.begun op hop
      exact ⟨hresets, hle, by rwa [hhandle]⟩
    · rw [hops]
      rw [hhandle] at hopen
      exact hacc.agg hopen
  | closed _ _ hpos hops hunit hnext =>
    -- Every reset starts the counts from nothing, and no call before it is of the unit after it.
    subst hw'
    rw [hnext, if_pos rfl, hops, resets_clearedAfter _ hk]
    have hclosed : w'.globals.unit.handle = 0 := by
      rw [hunit]
      rfl
    exact hacc.reset hk hpos hops hcalls h.units (Nat.le_refl _) (absurd hclosed) fun _ => absurd hclosed
  | opened _ _ hpos hops _ _ hnext =>
    subst hw'
    rw [if_neg hnext, hops, resets_clearedAfter _ hk]
    exact hacc.reset hk hpos hops hcalls (h.units + 1) (Nat.le_succ _) (fun _ => Nat.lt_succ_self _)
      fun type _ => h.measured_new hacc.ended _ type

/-- **Every step keeps the books.** -/
theorem Accounted.step {s s' : Worker × History} (hacc : Accounted s.1 s.2)
    (hstep : Guarded EndsRecent HistorySteps s a s') : Accounted s'.1 s'.2 := by
  obtain ⟨w, h⟩ := s
  obtain ⟨w', h'⟩ := s'
  obtain ⟨hrecent, hw, hnote⟩ := hstep
  have hnote : h' = h.note w a w' := hnote
  subst hnote
  have hcalls : Accounted w' (h.noteCalls w a w') := by
    cases hhook : a.isHook with
    | false => exact hacc.other hhook hw
    | true =>
      cases a with
      | opBegin type now => exact hacc.opBegin hw
      | opEnd call now => exact hacc.opEnd hrecent hw
      | _ => cases hhook
  obtain ⟨hgeneration, hlength, htoken, hbegun, hended, hagg⟩ := hcalls
  exact ⟨hgeneration, hlength, htoken, fun op hop => ⟨(hbegun op hop).resets_le, (hbegun op hop).unit_le,
    (hbegun op hop).current_iff⟩, hended, hagg⟩

/-- A worker that has just been started has no history. -/
theorem accounted_started (ini : Ini) (io : StartupIo) (pid : Int) :
    Accounted (startedWorker ini io pid) .empty := by
  have hbooted := booted_minit ini io pid
  refine ⟨?_, rfl, nofun, nofun, nofun, fun hopen => ?_⟩
  · show (Globals.minit ini io pid).ops.generation = _
    rw [hbooted.ops_eq]
    rfl
  · refine absurd ?_ hopen
    show (Globals.minit ini io pid).unit.handle = 0
    rw [hbooted.unit_eq]
    rfl

/-- The books are right after every run. -/
theorem accounted_of_guarded {ini : Ini} {io : StartupIo} {pid : Int} {as : List Action} {s : Worker × History}
    (hrun : Run (Guarded EndsRecent HistorySteps) (startedWorker ini io pid, .empty) as s) :
    Accounted s.1 s.2 :=
  @Run.invariant _ _ _ _ _ _ (fun s => Accounted s.1 s.2) (fun _ _ _ h hs => h.step hs)
    (accounted_started ini io pid) hrun

/-- **The aggregates of the open unit are those of the calls that began and ended in it**, the count and the
total in their widths. -/
theorem accounted_of_run {ini : Ini} {io : StartupIo} {pid : Int} {as : List Action} {w : Worker}
    {h : History} (hrun : Run (Guarded EndsRecent HistorySteps) (startedWorker ini io pid, .empty) as (w, h))
    (hopen : w.globals.unit.handle ≠ 0) {type : OpType} (htype : type ≠ .none) :
    (w.globals.ops.agg type).Sums (h.measured type) :=
  (accounted_of_guarded hrun).agg hopen type htype

/-! ## Two calls at once -/

/-- Two calls in one unit, both of the same length, one within the other. -/
def nestedCalls (length : UInt64) : List Action :=
  [.begin none (callAt 1), .opBegin .curlExec 0, .opBegin .curlExec 0, .opEnd 1 length,
    .opEnd 0 length]

/-- What the run has measured, and what the extension says. -/
def reported (s : Worker × History) : UInt32 × OpAgg × List Nat :=
  (s.1.globals.unit.handle, s.1.globals.ops.agg .curlExec, s.2.measured .curlExec)

/-- Two calls, one inside the other. -/
theorem accounted_of_run_nested : ∃ w h, Run (Guarded EndsRecent HistorySteps)
      (startedWorker autoIni plainStartup 100, .empty) (nestedCalls 7) (w, h) ∧
    h.measured .curlExec = [7, 7] ∧ (w.globals.ops.agg .curlExec).Sums [7, 7] := by
  have hreplay : (replay (startedWorker autoIni plainStartup 100, .empty) (nestedCalls 7)).map reported =
      some (1, ⟨2, 14, 7⟩, [7, 7]) := by decide +kernel
  obtain ⟨⟨w, h⟩, hrun, heq⟩ := Option.map_eq_some_iff.mp hreplay
  simp only [reported, Prod.mk.injEq] at heq
  obtain ⟨hhandle, -, hmeasured⟩ := heq
  have hopen : w.globals.unit.handle ≠ 0 := by
    rw [hhandle]
    decide
  have hsums := accounted_of_run (run_replay hrun) hopen (show OpType.curlExec ≠ .none from nofun)
  exact ⟨w, h, run_replay hrun, hmeasured, hmeasured ▸ hsums⟩

/-- The total is a machine word, so the sum is not always what it says. -/
theorem not_exact_nested : ∃ w h, Run (Guarded EndsRecent HistorySteps)
      (startedWorker autoIni plainStartup 100, .empty) (nestedCalls 18446744073709551615) (w, h) ∧
    w.globals.unit.handle ≠ 0 ∧ (w.globals.ops.agg .curlExec).totalNs.toNat ≠ (h.measured .curlExec).sum := by
  have hreplay : (replay (startedWorker autoIni plainStartup 100, .empty)
      (nestedCalls 18446744073709551615)).map reported = some (1, ⟨2, 18446744073709551614, 18446744073709551615⟩,
        [18446744073709551615, 18446744073709551615]) := by decide +kernel
  obtain ⟨⟨w, h⟩, hrun, heq⟩ := Option.map_eq_some_iff.mp hreplay
  simp only [reported, Prod.mk.injEq] at heq
  obtain ⟨hhandle, hagg, hmeasured⟩ := heq
  refine ⟨w, h, run_replay hrun, ?_, ?_⟩
  · rw [hhandle]
    decide
  · rw [hagg, hmeasured]
    decide

end CboxTelemetry.Extension
