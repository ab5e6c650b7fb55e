import CboxTelemetry.Crash.Decode
import CboxTelemetry.Crash.Incremental

/-!
# Sinks of one kind of record

A sink that holds records of one kind only, of any length. One read may end inside a record, and the
scanner then walks over the cut record byte by byte, through whatever its payload looks like. When
that walk meets nothing (`Deliverable`), a step on the sink is simple: records of this version are
handed over from the front, `readRecords` at most (`sinkStep_own`), and a sink of other versions is
left alone (`sinkStep_foreign`).

`sinkStep_stuck` is the other side: a step that meets a record of another version leaves the whole
sink behind, the records it handed over included.
-/

namespace CboxTelemetry.Crash

open Scan (scan frames)

/-- The complete records of this version in one full read, and the bytes it sees of the next. -/
def readRecords : Nat := crashDrainMaxBytes / recordSize
def cutBytes : Nat := crashDrainMaxBytes % recordSize

/-- What the first `room` bytes hold of the first record that does not fit in them. -/
def cutTail : List Item → Nat → Bytes
  | [], _ => []
  | item :: items, room =>
    if item.bytes.length ≤ room then cutTail items (room - item.bytes.length)
    else item.bytes.take room

/-- A sink of one kind of record in which the walk over a cut record meets nothing: nothing that
passes for a record of another version when the records are of this one, and no record of this
version when they are of others. -/
def Deliverable (items : List Item) : Prop :=
  (foreigns items = [] ∧ ∀ r ∈ (owns items).drop readRecords, NoForeign (r.bytes.take cutBytes)) ∨
    (owns items = [] ∧
      Scan.QuietBetween (sinkInput (cutTail items crashDrainMaxBytes)) 0 [])

/-! ## The bytes of one read -/

/-- A read takes some items whole and cuts the next one. -/
theorem take_encode (items : List Item) (room : Nat) :
    ∃ whole, whole <+: items ∧ (encode items).take room = encode whole ++ cutTail items room ∧
      ((encode items).length ≤ room → whole = items) ∧
      ((∀ item ∈ items, item.bytes.length ≤ room) → items ≠ [] → whole ≠ []) := by
  induction items generalizing room with
  | nil => exact ⟨[], List.prefix_rfl, by simp [cutTail], fun _ => rfl, fun _ h => absurd rfl h⟩
  | cons item items ih =>
    rw [cutTail, encode_cons]
    -- The item fits and the rest of the room is for the others, or it is the one that is cut.
    by_cases hfit : item.bytes.length ≤ room
    · obtain ⟨whole, hfirst, htake, hall, -⟩ := ih (room - item.bytes.length)
      refine ⟨item :: whole, List.cons_prefix_cons.mpr ⟨rfl, hfirst⟩, ?_, ?_, fun _ _ => by simp⟩
      · rw [if_pos hfit, List.take_append, List.take_of_length_le hfit, htake, encode_cons,
          List.append_assoc]
      · intro hlen
        rw [List.length_append] at hlen
        rw [hall (by omega)]
    · refine ⟨[], List.nil_prefix, ?_, ?_, ?_⟩
      · rw [if_neg hfit, List.take_append_of_le_length (by omega)]
        rfl
      · intro hlen
        rw [List.length_append] at hlen
        omega
      · intro hroom
        exact absurd (hroom item List.mem_cons_self) hfit

/-- Records of this version are all of one length. -/
@[simp] theorem length_encode_own (rs : List OwnRecord) :
    (encode (rs.map .own)).length = rs.length * recordSize := by
  induction rs with
  | nil => simp
  | cons r rs ih =>
    rw [List.map_cons, encode_cons, List.length_append, Item.bytes, r.length_eq, ih,
      List.length_cons, Nat.succ_mul, Nat.add_comm]

/-- A read that ends inside the record behind the first `n`. -/
theorem take_encode_own {rs : List OwnRecord} {n m : Nat} (hn : n ≤ rs.length) (hm : m ≤ recordSize) :
    (encode (rs.map .own)).take (n * recordSize + m) =
      encode ((rs.take n).map .own) ++ ((rs.drop n).head?.elim [] fun r => r.bytes.take m) := by
  have hsplit : encode (rs.map .own) =
      encode ((rs.take n).map .own) ++ encode ((rs.drop n).map .own) := by
    rw [← encode_append, ← List.map_append, List.take_append_drop]
  have hlen : n * recordSize = (encode ((rs.take n).map .own)).length := by
    rw [length_encode_own, List.length_take, Nat.min_eq_left hn]
  rw [hsplit, hlen, List.take_length_add_append]
  congr 1
  cases hdrop : rs.drop n with
  | nil => simp
  | cons r more =>
    rw [List.head?_cons, Option.elim_some, List.map_cons, encode_cons, Item.bytes,
      List.take_append_of_le_length (by rw [r.length_eq]; exact hm)]

/-- A scan of records of this version hands over as many as the budget allows. -/
theorem scanItems_own (rs : List OwnRecord) (b : Nat) :
    scanItems (rs.map .own) b = ⟨rs.take b, (rs.drop b).map .own, false⟩ := by
  induction rs generalizing b with
  | nil => simp [scanItems]
  | cons r rs ih =>
    cases b with
    | zero => rfl
    | succ b => rw [List.map_cons, scanItems, ih]; rfl

/-- What a drain leaves of them: the others, or no file. -/
theorem itemsLeft_own (rs : List OwnRecord) (b : Nat) :
    itemsLeft (rs.map .own) b =
      if rs.length ≤ b then none else some ((rs.drop b).map .own) := by
  rw [itemsLeft, scanItems_own]
  by_cases hall : rs.length ≤ b
  · simp [hall, List.drop_eq_nil_of_le hall]
  · simp [hall]

/-- Dropping whole records leaves the others. -/
theorem drop_encode_own {rs : List OwnRecord} {k : Nat} (hk : k ≤ rs.length) :
    (encode (rs.map .own)).drop (k * recordSize) = encode ((rs.drop k).map .own) := by
  have hsplit : encode (rs.map .own) =
      encode ((rs.take k).map .own) ++ encode ((rs.drop k).map .own) := by
    rw [← encode_append, ← List.map_append, List.take_append_drop]
  rw [hsplit]
  apply List.drop_left'
  rw [length_encode_own, List.length_take, Nat.min_eq_left hk]

/-- A record's length is a 16-bit field. -/
theorem Item.length_lt (item : Item) : item.bytes.length < 65536 := by
  cases item with
  | own r => rw [Item.bytes, r.length_eq]; decide
  | foreign f =>
    rw [Item.bytes, ← f.complete]
    exact recordLen_lt f.bytes

/-- Every record fits one read. -/
theorem Item.length_le (item : Item) : item.bytes.length ≤ crashDrainMaxBytes := by
  have := item.length_lt
  simp only [crashDrainMaxBytes]; omega

/-- One read of a sink holds its first records whole. -/
theorem readBuffer_append {items : List Item} (others : List Item)
    (h : (encode items).length ≤ crashDrainMaxBytes) :
    ∃ tail, readBuffer (encode (items ++ others)) = encode items ++ tail := by
  rw [readBuffer, encode_append, List.take_append, List.take_of_length_le h]
  exact ⟨_, rfl⟩

/-! ## Records of this version -/

variable {rs : List OwnRecord} {b : Nat}

/-- The walk over the end of a read, in which no record fits. -/
theorem scan_cut {buffer tail : Bytes} {o : Nat} (hdrop : buffer.drop o = tail)
    (htail : tail.length < recordSize) (b : Nat) :
    (scan (sinkInput buffer) b o).frames = [] ∧
      (NoForeign tail → (scan (sinkInput buffer) b o).skipped = false) ∧
      (¬NoForeign tail → 0 < b → (scan (sinkInput buffer) b o).skipped = true) := by
  have hlen := congrArg List.length hdrop
  rw [List.length_drop] at hlen
  have hshort : buffer.length < o + recordSize := by omega
  have hfound : ∀ p, o ≤ p → sinkFound buffer p = sinkFound tail (p - o) := by
    intro p hp
    rw [← hdrop, sinkFound_drop, Nat.sub_add_cancel hp]
  have hframe : ∀ q m, o ≤ q → (sinkInput buffer).found q ≠ .frame m := by
    intro q m hq hf
    have hnone : frames (sinkInput buffer) q = [] := frames_of_short (by omega)
    by_cases hroom : q + headerProbeSize ≤ buffer.length
    · rw [Scan.frames_frame (i := sinkInput buffer) hroom hf] at hnone
      cases hnone
    -- A foreign record is no frame, and for one of this version there is no room.
    · rw [sinkInput_found, sinkFound] at hf
      split at hf
      · cases hf
      · rw [if_pos (.inl (by simp only [headerProbeSize, recordSize] at *; omega))] at hf
        cases hf
  refine ⟨?_, ?_, ?_⟩
  · rw [Scan.scan_frames, frames_of_short hshort, List.take_nil]
  · intro hquiet
    apply Scan.scan_skipped_eq_false
    intro p n hp
    rw [sinkInput_found, hfound p hp]
    exact sinkFound_ne_skip hquiet _ n
  -- A foreign header in the cut part is stepped over, and the step may not reach beyond the buffer.
  · intro hloud hb
    obtain ⟨p, hp⟩ := not_forall.mp hloud
    rw [Bool.not_eq_false, ← hdrop, List.length_drop, List.drop_drop] at hp
    have hroom := crashRecordForeignVersion_len hp
    have hskip : (sinkInput buffer).found (o + p) = .skip (recordLen (buffer.drop (o + p))) := by
      rw [sinkInput_found, sinkFound, if_pos (by rw [← hp]; congr 1; omega)]
    refine Scan.scan_skipped_of_found (Nat.le_add_right o p) ?_ hskip hframe hb
    simp only [sinkInput_header, sinkInput_size, headerProbeSize] at *
    omega

/-- The scan of records of this version with too few bytes for another behind them: the records,
within the budget, and a walk over the bytes behind them if there is budget for it. -/
theorem scan_own {buffer tail : Bytes} (hbuffer : buffer = encode (rs.map .own) ++ tail)
    (htail : tail.length < recordSize) (b : Nat) :
    let s := scan (sinkInput buffer) b 0
    records (s.frames.map (visitAt buffer)) = (rs.take b).map OwnRecord.bytes ∧
      consumedAfter 0 s.frames = min b rs.length * recordSize ∧
      (b ≤ rs.length → s.offset = b * recordSize) ∧
      (NoForeign tail → s.skipped = false) ∧
      (¬NoForeign tail → rs.length < b → s.skipped = true) := by
  intro s
  have hstart : buffer.drop 0 = encode (rs.map .own) ++ tail := by
    rw [List.drop_zero]
    exact hbuffer
  obtain ⟨o', offs, hrest, -, hend, hrecs, hcons, hscan⟩ :=
    scan_items (rs.map .own) b hstart (Nat.zero_le _)
  have hhanded : (scanItems (rs.map .own) b).handed = rs.take b := by rw [scanItems_own]
  have hleft : (scanItems (rs.map .own) b).rest = (rs.drop b).map .own := by rw [scanItems_own]
  have hskip : (scanItems (rs.map .own) b).skipped = false := by rw [scanItems_own]
  rw [hhanded] at hrecs hscan
  rw [hskip] at hcons hscan
  rw [hleft] at hrest
  rw [List.length_take] at hscan
  -- The scan stands behind the records it handed over.
  have hoffset : o' = min b rs.length * recordSize := by
    have hall := congrArg List.length hbuffer
    have hrem := congrArg List.length hrest
    simp only [List.length_append, length_encode_own, List.length_drop] at hall hrem
    have hmul : min b rs.length * recordSize + (rs.length - b) * recordSize =
        rs.length * recordSize := by
      rw [← Nat.add_mul]; congr 1; omega
    omega
  have hrecords : records (offs.map (visitAt buffer)) = (rs.take b).map OwnRecord.bytes := by
    rw [records, List.map_map]
    exact hrecs
  rw [show s = _ from hscan]
  dsimp only
  by_cases hspent : b ≤ rs.length
  · -- The budget is spent before the walk gets behind the records.
    rw [show b - min b rs.length = 0 by omega, Scan.scan_zero, List.append_nil]
    refine ⟨hrecords, (hcons rfl).trans hoffset, fun _ => ?_, fun _ => rfl, fun _ h => by omega⟩
    rw [hoffset, Nat.min_eq_left hspent]
  -- All records are handed over with budget left, so the scan goes on into the cut part.
  · have hnone : rs.drop b = [] := List.drop_eq_nil_of_le (by omega)
    rw [hnone, List.map_nil, encode_nil, List.nil_append] at hrest
    obtain ⟨hframes, hquiet, hloud⟩ := scan_cut hrest htail (b - min b rs.length)
    rw [hframes, List.append_nil, Bool.false_or]
    exact ⟨hrecords, (hcons rfl).trans hoffset, fun h => absurd h hspent, hquiet,
      fun h _ => hloud h (by omega)⟩

/-- What one read holds of a long sink of this version. -/
theorem readBuffer_own {r : OwnRecord} {more : List OwnRecord}
    (hdrop : rs.drop readRecords = r :: more) :
    readBuffer (encode (rs.map .own)) =
      encode ((rs.take readRecords).map .own) ++ r.bytes.take cutBytes := by
  have hlong : readRecords ≤ rs.length := by
    by_contra hshort
    rw [List.drop_eq_nil_of_le (by omega)] at hdrop
    cases hdrop
  have hcap : crashDrainMaxBytes = readRecords * recordSize + cutBytes := by decide
  rw [readBuffer, hcap, take_encode_own hlong (by decide), hdrop]
  rfl

/-- The scan of one full read of a long sink of this version. -/
theorem scan_readBuffer_own {r : OwnRecord} {more : List OwnRecord}
    (hdrop : rs.drop readRecords = r :: more) (b : Nat) :
    let s := scan (sinkInput (readBuffer (encode (rs.map .own)))) b 0
    records (s.frames.map (visitAt (readBuffer (encode (rs.map .own))))) =
        (rs.take (min b readRecords)).map OwnRecord.bytes ∧
      consumedAfter 0 s.frames = min b readRecords * recordSize ∧
      (NoForeign (r.bytes.take cutBytes) → s.skipped = false) ∧
      (¬NoForeign (r.bytes.take cutBytes) → readRecords < b → s.skipped = true) := by
  have hwhole : (rs.take readRecords).length = readRecords := by
    rw [List.length_take]
    have hlong := congrArg List.length hdrop
    rw [List.length_drop, List.length_cons] at hlong
    omega
  have htail : (r.bytes.take cutBytes).length < recordSize := by
    rw [List.length_take]
    exact (Nat.min_le_left _ _).trans_lt (by decide)
  -- What a read holds is whole records and the front of the next one.
  have hscan := scan_own (readBuffer_own hdrop) htail b
  rw [hwhole, List.take_take] at hscan
  obtain ⟨hvisits, hcons, -, hquiet, hloud⟩ := hscan
  exact ⟨hvisits, hcons, hquiet, hloud⟩

/-- What a step on a sink of this version hands over: records from the front, at most those of one read. What is
left of a record at the end of the read has no part in it. -/
theorem sinkStep_own_visits (rs : List OwnRecord) (b : Nat) :
    records (sinkStep b (encode (rs.map .own))).visits =
      (rs.take (min b readRecords)).map OwnRecord.bytes := by
  cases hdrop : rs.drop readRecords with
  | nil =>
    have hshort := List.drop_eq_nil_iff.mp hdrop
    have hcap : (encode (rs.map .own)).length ≤ crashDrainMaxBytes := by
      rw [length_encode_own]
      exact (Nat.mul_le_mul_right recordSize hshort).trans (by decide)
    rw [(sinkStep_encode hcap b).1, owns_map_own, ← List.take_take, List.take_of_length_le hshort]
  | cons r more => exact (scan_readBuffer_own hdrop b).1

/-- **A step on a sink of this version** hands over records from the front, at most those of one read,
and leaves the others. -/
theorem sinkStep_own
    (hquiet : ∀ r ∈ rs.drop readRecords, NoForeign (r.bytes.take cutBytes)) (b : Nat) :
    records (sinkStep b (encode (rs.map .own))).visits =
        (rs.take (min b readRecords)).map OwnRecord.bytes ∧
      (sinkStep b (encode (rs.map .own))).rest =
        if rs.length ≤ min b readRecords then none
        else some (encode ((rs.drop (min b readRecords)).map .own)) := by
  refine ⟨sinkStep_own_visits rs b, ?_⟩
  cases hdrop : rs.drop readRecords with
  | nil =>
    -- The whole sink fits one read.
    have hshort := List.drop_eq_nil_iff.mp hdrop
    have hcap : (encode (rs.map .own)).length ≤ crashDrainMaxBytes := by
      rw [length_encode_own]
      exact (Nat.mul_le_mul_right recordSize hshort).trans (by decide)
    have hdrop' : rs.drop (min b readRecords) = rs.drop b := by
      by_cases hb : b ≤ readRecords
      · rw [Nat.min_eq_left hb]
      · rw [Nat.min_eq_right (by omega), hdrop, List.drop_eq_nil_of_le (by omega)]
    rw [(sinkStep_encode hcap b).2, hdrop', itemsLeft_own]
    by_cases hall : rs.length ≤ b
    · rw [if_pos hall, if_pos (Nat.le_min.mpr ⟨hall, hshort⟩), Option.map_none]
    · rw [if_neg hall, if_neg (fun h => hall (Nat.le_min.mp h).1), Option.map_some]
  | cons r more =>
    -- The read ends inside `r`, and the walk over what is left of it meets nothing.
    obtain ⟨-, hcons, hnone, -⟩ := scan_readBuffer_own hdrop b
    have hlong : readRecords < rs.length := by
      by_contra hshort
      rw [List.drop_eq_nil_of_le (by omega)] at hdrop
      cases hdrop
    have hcap : ¬(encode (rs.map .own)).length ≤ crashDrainMaxBytes := by
      have hmul : (readRecords + 1) * recordSize ≤ rs.length * recordSize :=
        Nat.mul_le_mul_right recordSize hlong
      have hnext : crashDrainMaxBytes < (readRecords + 1) * recordSize := by decide
      rw [length_encode_own]
      omega
    rw [sinkStep]
    dsimp only
    rw [hcons, hnone (hquiet r (by rw [hdrop]; exact List.mem_cons_self)),
      drop_encode_own (by omega), if_neg (show ¬rs.length ≤ min b readRecords by omega),
      decide_eq_false hcap]
    rfl

/-! ## Records of other versions -/

/-- The scan of one read of a sink of other versions: it steps over the records that were read whole,
and finds what the walk over the one that was cut off finds. -/
theorem scan_readBuffer_foreign {items : List Item} (howns : owns items = []) (hb : 0 < b) :
    let s := scan (sinkInput (readBuffer (encode items))) b 0
    (∃ c, s.frames =
        ((frames (sinkInput (cutTail items crashDrainMaxBytes)) 0).map (· + c)).take b) ∧
      (items ≠ [] → s.skipped = true) := by
  intro s
  obtain ⟨whole, hfirst, hread, -, hne⟩ := take_encode items crashDrainMaxBytes
  have hstart : (readBuffer (encode items)).drop 0 =
      encode whole ++ cutTail items crashDrainMaxBytes := by
    rw [List.drop_zero]
    exact hread
  obtain ⟨o', offs, hrest, -, hend, hrecs, -, hscan⟩ :=
    scan_items whole b hstart (Nat.zero_le _)
  have hhanded : (scanItems whole b).handed = [] := by
    obtain ⟨others, rfl⟩ := hfirst
    rw [owns_append, List.append_eq_nil_iff] at howns
    rw [scanItems_handed, howns.1, List.take_nil]
  have hwhole : (scanItems whole b).rest = [] := by
    refine (scanItems_budget whole b).resolve_right ?_
    rw [hhanded, List.length_nil]
    omega
  rw [hhanded, List.map_nil, List.map_eq_nil_iff] at hrecs
  rw [hhanded, hrecs] at hscan
  rw [hwhole, encode_nil, List.nil_append] at hrest
  rw [show s = _ from hscan]
  constructor
  -- The frames are those of the cut part, where they stand behind the whole items.
  · refine ⟨o', ?_⟩
    dsimp only
    rw [Scan.scan_frames, ← frames_drop hend, hrest]
    rfl
  · intro hitems
    -- A foreign item was read whole, so something was stepped over.
    have hskip : (scanItems whole b).skipped = true := by
      by_contra hno
      have hnil := scanItems_rest (Bool.eq_false_of_not_eq_true hno)
      rw [hhanded, hwhole, List.map_nil, List.append_nil] at hnil
      exact hne (fun item _ => item.length_le) hitems hnil
    dsimp only
    rw [hskip, Bool.true_or]

/-- **A step on a sink of other versions** hands nothing over and leaves all of it. -/
theorem sinkStep_foreign {items : List Item} (howns : owns items = []) (hne : items ≠ [])
    (hquiet : Scan.QuietBetween (sinkInput (cutTail items crashDrainMaxBytes)) 0 []) (hb : 0 < b) :
    (sinkStep b (encode items)).visits = [] ∧
      (sinkStep b (encode items)).rest = some (encode items) := by
  obtain ⟨⟨c, hframes⟩, hskip⟩ := scan_readBuffer_foreign howns hb
  rw [(Scan.frames_eq_iff []).mpr hquiet, List.map_nil, List.take_nil] at hframes
  rw [sinkStep]
  dsimp only
  rw [hframes, hskip hne]
  exact ⟨rfl, rfl⟩

/-- A step on a sink of other versions hands something over when the walk over the record that was cut
off finds something. -/
theorem sinkStep_foreign_loud {items : List Item} (howns : owns items = [])
    (hloud : ¬Scan.QuietBetween (sinkInput (cutTail items crashDrainMaxBytes)) 0 []) (hb : 0 < b) :
    (sinkStep b (encode items)).visits ≠ [] := by
  obtain ⟨⟨c, hframes⟩, -⟩ := scan_readBuffer_foreign howns hb
  rw [sinkStep]
  dsimp only
  rw [hframes, ne_eq, List.map_eq_nil_iff, List.take_eq_nil_iff, List.map_eq_nil_iff]
  rintro (hzero | hnone)
  · omega
  · exact hloud ((Scan.frames_eq_iff []).mp hnone)

/-! ## Stuck sinks -/

/-- **A step that meets a record of another version** leaves the whole sink behind. -/
theorem sinkStep_stuck {content : Bytes}
    (hskip : (scan (sinkInput (readBuffer content)) b 0).skipped = true) :
    (sinkStep b content).rest = some content := by
  rw [sinkStep]
  dsimp only
  rw [hskip]
  rfl

/-- The first records of a sink are scanned as they are. -/
theorem skipped_of_scanItems {items others : List Item}
    (hcap : (encode items).length ≤ crashDrainMaxBytes) (hskip : (scanItems items b).skipped = true) :
    (scan (sinkInput (readBuffer (encode (items ++ others)))) b 0).skipped = true := by
  obtain ⟨tail, htail⟩ := readBuffer_append others hcap
  rw [← List.drop_zero (l := readBuffer _)] at htail
  obtain ⟨o', offs, -, -, -, -, -, hscan⟩ := scan_items items b htail (Nat.zero_le _)
  rw [hscan, hskip]
  rfl

/-- A step with budget for one record hands over the first and leaves the others. -/
theorem sinkStep_one (r : OwnRecord) {items : List Item} (hne : items ≠ []) :
    records (sinkStep 1 (encode (.own r :: items))).visits = [r.bytes] ∧
      (sinkStep 1 (encode (.own r :: items))).rest = some (encode items) := by
  have hcontent : encode (.own r :: items) = r.bytes ++ encode items := rfl
  have hread : readBuffer (encode (.own r :: items)) =
      r.bytes ++ (encode items).take (crashDrainMaxBytes - recordSize) := by
    have hlen : r.bytes.length ≤ crashDrainMaxBytes := Item.length_le (.own r)
    rw [readBuffer, hcontent, List.take_append, List.take_of_length_le hlen, r.length_eq]
  have hmore := headerProbeSize_le_encode hne
  generalize (encode items).take (crashDrainMaxBytes - recordSize) = tail at hread
  -- The budget is spent with the first record, and the scan stops behind it.
  have hroom : 0 + headerProbeSize ≤ (readBuffer (encode (.own r :: items))).length := by
    rw [hread, List.length_append, r.length_eq]
    simp only [headerProbeSize, recordSize]; omega
  have hstart : (readBuffer (encode (.own r :: items))).drop 0 = r.bytes ++ tail := by
    rw [List.drop_zero, hread]
  have hfound := sinkFound_own hstart (Nat.zero_le _)
  have hscan : scan (sinkInput (readBuffer (encode (.own r :: items)))) (0 + 1) 0 =
      ⟨recordSize, [0], false⟩ := by
    rw [Scan.scan_frame hroom hfound, Scan.scan_zero, Nat.zero_add]
  rw [sinkStep, hscan]
  constructor
  · show [(visitAt (readBuffer (encode (.own r :: items))) 0).record] = [r.bytes]
    rw [visitAt, hstart, List.take_left' r.length_eq]
  -- More than a header is left, so the file is not consumed.
  · have hmissed : ¬((encode (.own r :: items)).length ≤ crashDrainMaxBytes ∧
        (readBuffer (encode (.own r :: items))).length < recordSize + headerProbeSize) := by
      rintro ⟨hcap, hshort⟩
      rw [readBuffer_of_le hcap, hcontent, List.length_append, r.length_eq] at hshort
      omega
    have hconsumed : consumedAfter 0 [0] = recordSize := by decide
    rw [hcontent] at hmissed ⊢
    simp only [hconsumed, List.drop_left' r.length_eq]
    simpa using hmissed

end CboxTelemetry.Crash
