import CboxTelemetry.Crash.Items
import CboxTelemetry.Crash.Calls

/-!
# Draining a sink of complete records

One drain of a sink that fits one read and holds complete records, of this version and of others in
any order: it hands over the first records of this version up to its budget, byte by byte as they
were written, and keeps everything else. The file goes only when there is nothing else.

`itemsLeft` says what stays behind; `sinkStep_encode` is the connection to the drain of the bytes.
-/

namespace CboxTelemetry.Crash

/-- What one drain with budget `b` leaves of a sink of records: everything when it stepped over a
record of another version, the records it has not looked at otherwise, and no file at all when
there are none. -/
def itemsLeft (items : List Item) (b : Nat) : Option (List Item) :=
  let s := scanItems items b
  if s.skipped then some items
  else if s.rest = [] then none
  else some s.rest

/-- A record that was not looked at is long enough to be. -/
theorem headerProbeSize_le_encode {items : List Item} (h : items ≠ []) :
    headerProbeSize ≤ (encode items).length := by
  obtain ⟨item, items, rfl⟩ := List.exists_cons_of_ne_nil h
  have := item.headerProbeSize_le
  rw [encode_cons, List.length_append]; omega

/-- Scanning a whole sink of records is `scanItems`. -/
theorem scan_encode (items : List Item) (b : Nat) :
    ∃ (o' : Nat) (offs : List Nat),
      (encode items).drop o' = encode (scanItems items b).rest ∧ o' ≤ (encode items).length ∧
      records (offs.map (visitAt (encode items))) =
        (scanItems items b).handed.map OwnRecord.bytes ∧
      ((scanItems items b).skipped = false → consumedAfter 0 offs = o') ∧
      Scan.scan (sinkInput (encode items)) b 0 = ⟨o', offs, (scanItems items b).skipped⟩ := by
  have hstart : (encode items).drop 0 = encode items ++ [] := by rw [List.drop_zero, List.append_nil]
  obtain ⟨o', offs, hdrop, -, hend, hrecs, hcons, hscan⟩ := scan_items items b hstart (Nat.zero_le _)
  rw [List.append_nil] at hdrop
  -- Nothing else is scanned: the file is at its end, or the budget is spent.
  have hstop : Scan.scan (sinkInput (encode items)) (b - (scanItems items b).handed.length) o'
      = ⟨o', [], false⟩ := by
    refine Scan.scan_stop ?_
    rintro ⟨hroom, hbudget⟩
    rcases scanItems_budget items b with hrest | hspent
    · have hlen := congrArg List.length hdrop
      rw [hrest, encode_nil, List.length_nil, List.length_drop] at hlen
      simp only [sinkInput_header, sinkInput_size, headerProbeSize] at hroom
      omega
    · omega
  refine ⟨o', offs, hdrop, hend, ?_, hcons, ?_⟩
  · rw [records, List.map_map]; exact hrecs
  · rw [hscan, hstop]; simp

/-- **One drain of a sink of records.** -/
theorem sinkStep_encode {items : List Item} (hcap : (encode items).length ≤ crashDrainMaxBytes)
    (b : Nat) :
    records (sinkStep b (encode items)).visits = ((owns items).take b).map OwnRecord.bytes ∧
      (sinkStep b (encode items)).rest = (itemsLeft items b).map encode := by
  obtain ⟨o', offs, hdrop, hend, hrecs, hcons, hscan⟩ := scan_encode items b
  rw [sinkStep, readBuffer_of_le hcap, hscan, ← scanItems_handed]
  refine ⟨hrecs, ?_⟩
  have hlen := congrArg List.length hdrop
  rw [List.length_drop] at hlen
  -- The cursor is within a header of the end only when it is at the end, for each item has a header.
  have hread : (encode items).length < o' + headerProbeSize ↔ (scanItems items b).rest = [] := by
    constructor
    · intro h
      by_contra hne
      have := headerProbeSize_le_encode hne
      omega
    · intro h
      rw [h, encode_nil, List.length_nil] at hlen
      simp only [headerProbeSize]; omega
  simp only [itemsLeft, hcap, decide_true, Bool.and_true, hread]
  -- A foreign record stepped over keeps the file. Otherwise it is deleted or loses what was handed over.
  by_cases hskip : (scanItems items b).skipped = true
  · simp [hskip]
  · rw [Bool.not_eq_true] at hskip
    by_cases hrest : (scanItems items b).rest = []
    · simp [hskip, hrest]
    · simp [hskip, hrest, hcons hskip, hdrop]

/-! ## What stays -/

@[simp] theorem owns_append (a b : List Item) : owns (a ++ b) = owns a ++ owns b :=
  List.filterMap_append

@[simp] theorem foreigns_append (a b : List Item) : foreigns (a ++ b) = foreigns a ++ foreigns b :=
  List.filterMap_append

/-- The own records of a list of own records are that list. -/
@[simp] theorem owns_map_own (rs : List OwnRecord) : owns (rs.map .own) = rs := by
  induction rs with
  | nil => rfl
  | cons r rs ih => rw [List.map_cons, owns_own, ih]

/-- A list of own records has none of another version. -/
@[simp] theorem foreigns_map_own (rs : List OwnRecord) : foreigns (rs.map .own) = [] := by
  induction rs with
  | nil => rfl
  | cons r rs ih => rw [List.map_cons, foreigns_own, ih]

/-- The file goes only when it held no record of another version and everything was handed over. -/
theorem of_itemsLeft_none {items : List Item} {b : Nat} (h : itemsLeft items b = none) :
    foreigns items = [] ∧ (owns items).length ≤ b := by
  rw [itemsLeft] at h
  split at h
  · cases h
  next hskip =>
    split at h
    -- No foreign record was stepped over and the scan came to the end, so everything was handed over.
    next hrest =>
      have hitems := scanItems_rest (Bool.eq_false_of_not_eq_true hskip)
      have hhanded := scanItems_handed items b
      rw [hrest, List.append_nil] at hitems
      have howns : owns items = (scanItems items b).handed := by
        conv_lhs => rw [hitems]
        exact owns_map_own _
      refine ⟨by rw [hitems]; exact foreigns_map_own _, ?_⟩
      rw [← howns] at hhanded
      exact List.take_eq_self_iff _ |>.mp hhanded.symm
    · cases h

/-- What stays is the end of the sink, with every record of another version and every record of this
version that was not handed over. -/
theorem of_itemsLeft_some {items left : List Item} {b : Nat} (h : itemsLeft items b = some left) :
    left <:+ items ∧ foreigns left = foreigns items ∧ (owns items).drop b <:+ owns left := by
  rw [itemsLeft] at h
  split at h
  · cases h
    exact ⟨List.suffix_rfl, rfl, List.drop_suffix _ _⟩
  next hskip =>
    split at h
    · cases h
    · cases h
      -- Nothing foreign was stepped over: what the scan handed over is taken from the front.
      have hitems := scanItems_rest (Bool.eq_false_of_not_eq_true hskip)
      generalize hs : scanItems items b = s at hitems ⊢
      have hhanded := scanItems_handed items b
      rw [hs] at hhanded
      have hsplit : (owns items).take b ++ owns s.rest = owns items := by
        conv_rhs => rw [hitems]
        rw [owns_append, owns_map_own, hhanded]
      refine ⟨⟨_, hitems.symm⟩, ?_, ?_⟩
      · conv_rhs => rw [hitems]
        rw [foreigns_append, foreigns_map_own, List.nil_append]
      · have := List.append_cancel_left (hsplit.trans (List.take_append_drop b (owns items)).symm)
        rw [this]

/-! ## The call -/

/-- The visitor calls of one drain for records of the sink `name`. -/
def DrainResult.visitsFrom (r : DrainResult) (name : Name) : List Visit :=
  (r.visits.filter fun v => v.1 = name).map Prod.snd

/-- The records a call handed over from the sink `name`. -/
def DrainResult.handedFrom (r : DrainResult) (name : Name) : List Bytes :=
  records (r.visitsFrom name)

/-- They are what the call adds to a history. -/
theorem DrainResult.handedFrom_eq (r : DrainResult) (name : Name) :
    Crash.handedFrom name (r.visits.map fun v => (v.1, v.2.record)) = r.handedFrom name := by
  rw [Crash.handedFrom, DrainResult.handedFrom, DrainResult.visitsFrom, records, List.filter_map,
    List.map_map, List.map_map]
  rfl

/-- The sink listed first is drained with the whole budget, and then left alone. -/
theorem DrainCall.run_first {euid : Nat} {call : DrainCall} (hcall : call.Reliable euid)
    {name : Name} {others : List Name} (htargets : call.targets = name :: others)
    (hname : name ∉ others) {c : Sinks} {content : Bytes} (hfile : c name = some content)
    (hmax : 1 ≤ call.max) :
    (call.run (c.toDir euid)).visitsFrom name = (sinkStep call.max content).visits ∧
      contents (call.run (c.toDir euid)).dir name = (sinkStep call.max content).rest := by
  obtain ⟨hvisits, hdir⟩ := DrainCall.run_eq hcall (ours_toDir euid c)
  rw [contents_toDir, htargets, drainAll, if_neg (by omega), hfile] at hvisits hdir
  dsimp only at hvisits hdir
  -- The other sinks of the call neither hand over records of this name nor touch its file.
  obtain ⟨hkept, hquiet⟩ := drainAll_of_not_mem hname
    (call.max - (sinkStep call.max content).visits.length)
    (Function.update c name (sinkStep call.max content).rest)
  generalize drainAll _ others _ = d at hvisits hdir hkept hquiet
  have hnone : d.visits.filter (fun v => v.1 = name) = [] := by
    rw [List.filter_eq_nil_iff]
    intro v hv
    rw [decide_eq_true_eq]
    exact hquiet v hv
  constructor
  · rw [DrainResult.visitsFrom, hvisits, List.filter_append, hnone, List.append_nil, List.filter_map,
      List.map_map]
    simp [Function.comp_def]
  · rw [hdir, contents_toDir, hkept, Function.update_self]

/-- The sink that the first of several calls lists first. -/
theorem after_first {euid : Nat} (calls : Nat → DrainCall) (hcall : (calls 0).Reliable euid)
    {name : Name} {others : List Name} (htargets : (calls 0).targets = name :: others)
    (hname : name ∉ others) {c : Sinks} {content : Bytes} (hfile : c name = some content)
    (hmax : 1 ≤ (calls 0).max) :
    handedFrom name (after calls (c.toDir euid) 1).handed = records (sinkStep (calls 0).max content).visits ∧
      contents (after calls (c.toDir euid) 1).dir name = (sinkStep (calls 0).max content).rest := by
  obtain ⟨hvisits, hrest⟩ := DrainCall.run_first hcall htargets hname hfile hmax
  refine ⟨?_, hrest⟩
  rw [after, after, History.next, List.nil_append, DrainResult.handedFrom_eq, DrainResult.handedFrom, hvisits]

/-- A drain with budget `max` may leave this of a sink: no file, when it held no record of another
version and all of this version were handed over, or a file with every record of another version,
and every record of this version that was not handed over, in their order. -/
def Keeps (items : List Item) (max : Nat) : Option Bytes → Prop
  | none => foreigns items = [] ∧ (owns items).length ≤ max
  | some content => ∃ left, content = encode left ∧ left <:+ items ∧
      foreigns left = foreigns items ∧ (owns items).drop max <:+ owns left

/-- What a drain leaves of a sink keeps what it must. -/
theorem keeps_itemsLeft (items : List Item) (max : Nat) :
    Keeps items max ((itemsLeft items max).map encode) := by
  cases hleft : itemsLeft items max with
  | none => exact of_itemsLeft_none hleft
  | some left => exact ⟨left, rfl, of_itemsLeft_some hleft⟩

/-- **Draining a sink of complete records.** One call hands over the first records of this version,
as many as its budget allows, as they were written and in their order, and keeps the others. -/
theorem drain_decodes {euid : Nat} {call : DrainCall} (hcall : call.Reliable euid) {p : Pid}
    {others : List Name} (htargets : call.targets = sinkName p.toInt :: others)
    (honce : sinkName p.toInt ∉ others) {c : Sinks} {items : List Item}
    (hfile : c (sinkName p.toInt) = some (encode items))
    (hcap : (encode items).length ≤ crashDrainMaxBytes) :
    (call.run (c.toDir euid)).handedFrom (sinkName p.toInt) =
        ((owns items).take (min call.max (owns items).length)).map OwnRecord.bytes ∧
      Keeps items call.max (contents (call.run (c.toDir euid)).dir (sinkName p.toInt)) := by
  rw [← List.take_take, List.take_length]
  -- With no budget the call is refused and touches nothing.
  rcases Nat.eq_zero_or_pos call.max with hzero | hmax
  · have hrun : call.run (c.toDir euid) = ⟨-1, [], c.toDir euid⟩ := by
      rw [DrainCall.run, crashDrain, if_pos hzero]
    rw [hrun, contents_toDir, hfile, hzero]
    exact ⟨rfl, items, rfl, List.suffix_rfl, rfl, List.suffix_rfl⟩
  · obtain ⟨hhanded, hkept⟩ := DrainCall.run_first hcall htargets honce hfile hmax
    obtain ⟨hrecords, hrest⟩ := sinkStep_encode hcap call.max
    rw [hkept, hrest, DrainResult.handedFrom, hhanded, hrecords]
    exact ⟨rfl, keeps_itemsLeft items call.max⟩

/-- A drain with the budget one over a sink with an old record and two of this version hands over
the first of these. -/
theorem drain_decodes_mixed :
    ((callOver tmpDir drainer 1 [gone]).run (Sinks.toDir tmpDir.uid fun _ =>
      some (encode [.foreign oldRecord, .own blankRecord, .own blankRecord]))).handedFrom
        (sinkName gone.toInt) = [blankRecord.bytes] := by
  have hcap : (encode [.foreign oldRecord, .own blankRecord, .own blankRecord]).length
      ≤ crashDrainMaxBytes := by
    simp only [encode_cons, encode_nil, Item.bytes, List.length_append, blankRecord.length_eq]
    decide
  have hnew : drainer ∉ [gone] := by decide
  exact (drain_decodes (callOver_reliable tmpDir drainer 1 [gone])
    (callOver_targets tmpDir 1 hnew) List.not_mem_nil
    (c := fun _ => some (encode [.foreign oldRecord, .own blankRecord, .own blankRecord]))
    rfl hcap).1

end CboxTelemetry.Crash
