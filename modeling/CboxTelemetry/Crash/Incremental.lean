import CboxTelemetry.Crash.Decode

/-!
# Draining bit by bit

A sink of arbitrary bytes in which no record of another version can be recognised. `findRecords` is
the naive reading of such a file: one pass over all of it, a byte forward where no record starts.
The drain reads at most `crashDrainMaxBytes`, stops when its budget is spent and cuts off what it has
handed over, and yet any number of drains together hand over what the naive reading finds:
`sinkStep_incremental` says that one step splits `findRecords` in two.
-/

namespace CboxTelemetry.Crash

open Scan (frames)

/-- No offset of the file passes for the start of a record of another version. -/
def NoForeign (content : Bytes) : Prop :=
  ∀ o, crashRecordForeignVersion (content.drop o) (content.length - o) = false

/-- The records of a file, in one pass over all of it. -/
def findRecords (content : Bytes) : List Bytes :=
  if content.length < recordSize then []
  else if crashRecordValid content then
    content.take recordSize :: findRecords (content.drop recordSize)
  else findRecords (content.drop 1)
termination_by content.length
decreasing_by all_goals simp only [List.length_drop, recordSize] at *; omega

/-! ## The scanner without records of other versions -/

variable {content : Bytes}

/-- Without the first bytes no offset becomes foreign. -/
theorem NoForeign.drop (h : NoForeign content) (c : Nat) : NoForeign (content.drop c) := by
  intro o
  rw [List.drop_drop, List.length_drop, Nat.sub_sub]
  exact h (c + o)

/-- Where nothing looks foreign, the scan finds noise or a record of this version. -/
theorem sinkFound_of_noForeign (h : NoForeign content) (o : Nat) :
    sinkFound content o =
      if content.length < o + recordSize ∨ crashRecordValid (content.drop o) = false then .noise
      else .frame recordSize := by
  rw [sinkFound, h o, if_neg Bool.false_ne_true]

theorem sinkFound_ne_skip (h : NoForeign content) (o n : Nat) : sinkFound content o ≠ .skip n := by
  rw [sinkFound_of_noForeign h]
  split <;> simp

/-- A frame of a sink is always one record long. -/
theorem eq_of_sinkFound_frame {o n : Nat} (h : sinkFound content o = .frame n) : n = recordSize := by
  rw [sinkFound] at h
  split at h
  · cases h
  · split at h
    · cases h
    · cases h; rfl

/-- Only whole records are found, so none starts in the last bytes of a file. -/
theorem frames_of_short {o : Nat} (h : content.length < o + recordSize) :
    frames (sinkInput content) o = [] :=
  Scan.frames_eq_nil_of_short (fun _ _ _ => eq_of_sinkFound_frame) h

/-- What is found in the rest of a file does not depend on what came before. -/
theorem sinkFound_drop (content : Bytes) (c o : Nat) :
    sinkFound (content.drop c) o = sinkFound content (o + c) := by
  have hlen : content.length - c - o = content.length - (o + c) := by omega
  have hfit : content.length - c < o + recordSize ↔ content.length < o + c + recordSize := by
    simp only [recordSize]; omega
  simp only [sinkFound, List.length_drop, List.drop_drop, Nat.add_comm c o, hlen, hfit]

/-- The frames of a file from `c` on are those of the rest of the file. -/
theorem frames_drop {c : Nat} (hc : c ≤ content.length) :
    (frames (sinkInput (content.drop c)) 0).map (· + c) = frames (sinkInput content) c := by
  have hshift := Scan.frames_shift (i := sinkInput content) (j := sinkInput (content.drop c)) hc
    List.length_drop rfl (fun o _ => sinkFound_drop content c o) 0
  rwa [Nat.zero_add] at hshift

/-- The records that start at the given offsets. -/
def recordsAt (content : Bytes) (offsets : List Nat) : List Bytes :=
  offsets.map fun o => (visitAt content o).record

theorem recordsAt_append (a b : List Nat) :
    recordsAt content (a ++ b) = recordsAt content a ++ recordsAt content b :=
  List.map_append

/-- Offsets in a dropped content are offsets behind the dropped bytes. -/
theorem recordsAt_drop (c : Nat) (offsets : List Nat) :
    recordsAt (content.drop c) offsets = recordsAt content (offsets.map (· + c)) := by
  rw [recordsAt, recordsAt, List.map_map]
  refine List.map_congr_left fun o _ => ?_
  simp only [visitAt, List.drop_drop, Function.comp_apply, Nat.add_comm c o]

/-- **The naive reading.** What the scanner finds in a whole file is what one pass over it finds. -/
theorem findRecords_eq (h : NoForeign content) :
    findRecords content = recordsAt content (frames (sinkInput content) 0) := by
  fun_induction findRecords content with
  | case1 content hshort => rw [frames_of_short (by omega)]; rfl
  | case2 content hlen hvalid ih =>
    -- A record at the front: the scan hands it over and goes on behind it.
    have hfound : sinkFound content 0 = .frame recordSize := by
      rw [sinkFound_of_noForeign h, List.drop_zero, hvalid, if_neg (by simpa using hlen)]
    have hhead : 0 + headerProbeSize ≤ content.length := by
      simp only [headerProbeSize, recordSize] at *; omega
    rw [Scan.frames_frame (i := sinkInput content) hhead hfound, Nat.zero_add,
      ← frames_drop (by omega), recordsAt, List.map_cons, ih (h.drop _), recordsAt_drop]
    rfl
  | case3 content hlen hvalid ih =>
    have hfound : sinkFound content 0 = .noise := by
      rw [sinkFound_of_noForeign h, List.drop_zero, if_pos (.inr (by simpa using hvalid))]
    have hhead : 0 + headerProbeSize ≤ content.length := by
      simp only [headerProbeSize, recordSize] at *; omega
    rw [Scan.frames_noise (i := sinkInput content) hhead hfound, Nat.zero_add,
      ← frames_drop (by simp only [recordSize] at hlen; omega), ih (h.drop _), recordsAt_drop]

/-! ## One read -/

/-- One read of a file that never looks foreign never looks foreign. -/
theorem noForeign_readBuffer (h : NoForeign content) : NoForeign (readBuffer content) := by
  intro o
  by_contra hforeign
  rw [Bool.not_eq_false] at hforeign
  have hlen := length_readBuffer content
  have hroom := crashRecordForeignVersion_len hforeign
  have hsplit : content.drop o = (readBuffer content).drop o ++ content.drop (crashDrainMaxBytes) := by
    have hle : o ≤ (readBuffer content).length := by
      simp only [headerProbeSize] at hroom; omega
    rw [← List.drop_append_of_le_length hle, readBuffer, List.take_append_drop]
  have hwhole : crashRecordForeignVersion (content.drop o) (content.length - o) = true := by
    rw [hsplit, crashRecordForeignVersion_append _ _ (by
      rw [List.length_drop]; simp only [headerProbeSize] at hroom; omega)]
    exact crashRecordForeignVersion_mono (by omega) hforeign
  rw [h o] at hwhole
  cases hwhole

/-- The validity of a record that was read whole does not depend on where the read ended. -/
theorem valid_readBuffer {o : Nat} (h : o + recordSize ≤ (readBuffer content).length) :
    crashRecordValid ((readBuffer content).drop o) = crashRecordValid (content.drop o) := by
  have hsplit : content.drop o = (readBuffer content).drop o ++ content.drop (crashDrainMaxBytes) := by
    rw [← List.drop_append_of_le_length (by omega), readBuffer, List.take_append_drop]
  rw [hsplit, crashRecordValid_append]
  rw [List.length_drop]; simp only [recordSize] at h; omega

/-- One read finds the first records of the file. -/
theorem frames_readBuffer (h : NoForeign content) :
    frames (sinkInput (readBuffer content)) 0 <+: frames (sinkInput content) 0 := by
  have hlen := length_readBuffer content
  have hsame : ∀ o n, o + (sinkInput content).header ≤ (sinkInput content).size →
      (sinkInput content).found o = .frame n → n = recordSize :=
    fun _ _ _ => eq_of_sinkFound_frame
  have hskip : ∀ o n, o + (sinkInput content).header ≤ (sinkInput content).size →
      (sinkInput content).found o ≠ .skip n :=
    fun o n _ => sinkFound_ne_skip h o n
  -- The two scans find the same from the front on, until the read is too short for a record.
  refine Scan.frames_prefix (i := sinkInput content) (j := sinkInput (readBuffer content)) ?_ rfl
    hsame hskip ?_ ?_ 0
  · simp only [sinkInput_size]; omega
  · intro o _ hnoise
    simp only [sinkInput_found, sinkFound_of_noForeign h,
      sinkFound_of_noForeign (noForeign_readBuffer h)] at hnoise ⊢
    split at hnoise
    next hbad =>
      refine if_pos ?_
      by_cases hfit : (readBuffer content).length < o + recordSize
      · exact .inl hfit
      · rw [valid_readBuffer (by omega)]
        exact hbad.imp (by omega) id
    · cases hnoise
  -- A record of the file is a record of the read, or does not fit into it.
  · intro o n _ hframe
    obtain rfl := eq_of_sinkFound_frame hframe
    simp only [sinkInput_found, sinkInput_size, sinkFound_of_noForeign h,
      sinkFound_of_noForeign (noForeign_readBuffer h)] at hframe ⊢
    split at hframe
    · cases hframe
    next hgood =>
      rw [not_or] at hgood
      by_cases hfit : (readBuffer content).length < o + recordSize
      · exact .inr ⟨hfit, if_pos (.inl hfit)⟩
      · refine .inl (if_neg ?_)
        rw [valid_readBuffer (by omega)]
        exact not_or.mpr ⟨hfit, hgood.2⟩

/-! ## One drain -/

theorem scan_not_skipped (h : NoForeign content) (budget o : Nat) :
    (Scan.scan (sinkInput content) budget o).skipped = false :=
  Scan.scan_skipped_eq_false fun p n _ => sinkFound_ne_skip h p n

/-- What is consumed is everything up to the end of the last record handed over. -/
theorem consumedAfter_eq_endOf (o : Nat) {offsets : List Nat}
    (h : ∀ f ∈ offsets, (sinkInput content).found f = .frame recordSize) :
    consumedAfter o offsets = Scan.endOf (sinkInput content) o offsets := by
  induction offsets generalizing o with
  | nil => rfl
  | cons f fs ih =>
    rw [consumedAfter_cons, Scan.endOf, h f List.mem_cons_self]
    exact ih _ fun g hg => h g (List.mem_cons_of_mem _ hg)

/-- Records that fit into the read are the file's. -/
theorem recordsAt_readBuffer {offsets : List Nat}
    (h : ∀ f ∈ offsets, f + recordSize ≤ (readBuffer content).length) :
    recordsAt (readBuffer content) offsets = recordsAt content offsets := by
  refine List.map_congr_left fun f hf => ?_
  have hfit := h f hf
  have hlen := length_readBuffer content
  simp only [visitAt, readBuffer, List.drop_take, List.take_take]
  rw [Nat.min_eq_left (by omega)]

/-- The offsets one drain hands over are the first of the whole file, and each is that of a record
that was read whole. -/
theorem scan_frames_prefix (h : NoForeign content) (budget : Nat) :
    let fs := (Scan.scan (sinkInput (readBuffer content)) budget 0).frames
    fs <+: frames (sinkInput content) 0 ∧ ∀ f ∈ fs, f + recordSize ≤ (readBuffer content).length := by
  intro fs
  have hfs : fs = (frames (sinkInput (readBuffer content)) 0).take budget := Scan.scan_frames
  rw [hfs]
  refine ⟨(List.take_prefix _ _).trans (frames_readBuffer h), fun f hf => ?_⟩
  obtain ⟨-, hhead, n, hfound⟩ := Scan.mem_frames (List.mem_of_mem_take hf)
  have hle := (sinkInput (readBuffer content)).len_le f hhead
  rw [hfound, eq_of_sinkFound_frame hfound] at hle
  exact hle

/-- Behind the first `k` records, a naive reading finds the others. -/
theorem findRecords_drop (h : NoForeign content) {offsets : List Nat}
    (hfirst : offsets <+: frames (sinkInput content) 0) :
    findRecords (content.drop (consumedAfter 0 offsets)) =
      recordsAt content ((frames (sinkInput content) 0).drop offsets.length) := by
  have htake := List.prefix_iff_eq_take.mp hfirst
  have hframe : ∀ f ∈ offsets, (sinkInput content).found f = .frame recordSize := by
    intro f hf
    obtain ⟨-, -, n, hfound⟩ := Scan.mem_frames (hfirst.subset hf)
    rw [hfound, eq_of_sinkFound_frame hfound]
  have hcons : consumedAfter 0 offsets =
      Scan.endOf (sinkInput content) 0 ((frames (sinkInput content) 0).take offsets.length) := by
    rw [← htake]; exact consumedAfter_eq_endOf 0 hframe
  have hle : consumedAfter 0 offsets ≤ content.length := by
    rw [hcons]; exact Scan.endOf_le (Nat.zero_le _)
  rw [findRecords_eq (h.drop _), recordsAt_drop, frames_drop hle, hcons, Scan.frames_endOf]

/-- **One drain splits the records of a sink in two**: those it hands over, and those a naive reading
finds in what it leaves. -/
theorem sinkStep_incremental (h : NoForeign content) (budget : Nat) :
    records (sinkStep budget content).visits ++
        (sinkStep budget content).rest.elim [] findRecords = findRecords content ∧
      ∀ left ∈ (sinkStep budget content).rest, NoForeign left ∧ left.length ≤ content.length := by
  obtain ⟨hfirst, hfit⟩ := scan_frames_prefix h budget
  have hskip := scan_not_skipped (noForeign_readBuffer h) budget 0
  have hstop : frames (sinkInput (readBuffer content))
      (Scan.scan (sinkInput (readBuffer content)) budget 0).offset = _ := Scan.frames_scan_offset
  have hframes : (Scan.scan (sinkInput (readBuffer content)) budget 0).frames = _ := Scan.scan_frames
  rw [sinkStep]
  dsimp only
  generalize Scan.scan (sinkInput (readBuffer content)) budget 0 = r at *
  have hvisits : records (r.frames.map (visitAt (readBuffer content))) = recordsAt content r.frames := by
    rw [← recordsAt_readBuffer hfit, records, List.map_map]; rfl
  rw [hvisits, hskip]
  split
  next hdone =>
    -- The whole file was read to its end: nothing is left behind the records handed over.
    simp only [Bool.not_false, Bool.true_and, Bool.and_eq_true, decide_eq_true_eq] at hdone
    rw [readBuffer_of_le hdone.1] at hstop hframes hdone
    rw [Scan.frames_stop hdone.2] at hstop
    have hall : r.frames = frames (sinkInput content) 0 := by
      rw [hframes, ← List.append_nil (List.take _ _), hstop, List.take_append_drop]
    refine ⟨?_, fun left hleft => absurd hleft (Option.not_mem_none left)⟩
    rw [Option.elim_none, List.append_nil, hall, findRecords_eq h]
  -- Otherwise the records handed over are taken from the front, and the search finds the others.
  · rw [if_neg Bool.false_ne_true]
    refine ⟨?_, fun left hleft => ?_⟩
    · rw [Option.elim_some, findRecords_drop h hfirst, findRecords_eq h, ← recordsAt_append]
      obtain ⟨others, hothers⟩ := hfirst
      rw [← hothers, List.drop_left]
    · obtain rfl := Option.mem_some.mp hleft
      exact ⟨h.drop _, by rw [List.length_drop]; omega⟩

/-- A drain that has budget and finds nothing in a file it can read whole removes it. -/
theorem sinkStep_removes (h : NoForeign content) (hcap : content.length ≤ crashDrainMaxBytes)
    {budget : Nat} (hbudget : 0 < budget) (hnone : (sinkStep budget content).visits = []) :
    (sinkStep budget content).rest = none := by
  have hframes : frames (sinkInput content) 0 = [] := by
    have hvisits : ((Scan.scan (sinkInput (readBuffer content)) budget 0).frames).map
        (visitAt (readBuffer content)) = [] := hnone
    rw [readBuffer_of_le hcap, List.map_eq_nil_iff, Scan.scan_frames, List.take_eq_nil_iff] at hvisits
    exact hvisits.resolve_left (by omega)
  have hend : content.length
      < (Scan.scan (sinkInput content) budget 0).offset + headerProbeSize :=
    Scan.scan_offset_of_slack (i := sinkInput content) (by rw [hframes]; exact hbudget)
  rw [sinkStep, readBuffer_of_le hcap]
  refine if_pos ?_
  rw [scan_not_skipped h]
  simp [hcap, hend]

/-! ## Any number of drains -/

section
variable {euid : Nat} {calls : Nat → DrainCall} {c : Sinks}
  (hcalls : ∀ i, (calls i).Reliable euid)
  (hforeign : ∀ name, ∀ content ∈ c name, NoForeign content)
include hcalls hforeign

/-- What has been handed over of a sink and what is still to be found in it are its records. -/
theorem after_incremental {name : Name} {content : Bytes} (hfile : c name = some content) (n : Nat) :
    handedFrom name (after calls (c.toDir euid) n).handed ++
        (contents (after calls (c.toDir euid) n).dir name).elim [] findRecords =
      findRecords content ∧
    ∀ left ∈ contents (after calls (c.toDir euid) n).dir name,
      NoForeign left ∧ left.length ≤ content.length := by
  -- The invariant of one sink: handed over so far, with what the file still holds, is the original scan.
  refine after_sink hcalls (ours_toDir euid c)
    (fun now handed => handed ++ now.elim [] findRecords = findRecords content ∧
      ∀ left ∈ now, NoForeign left ∧ left.length ≤ content.length) ?_ name ?_ n
  · rintro budget now handed - ⟨hsplit, hnow⟩
    obtain ⟨hclean, hlen⟩ := hnow now rfl
    obtain ⟨hstep, hrest⟩ := sinkStep_incremental hclean budget
    constructor
    · rw [List.append_assoc, hstep]; exact hsplit
    · intro left hleft
      exact ⟨(hrest left hleft).1, (hrest left hleft).2.trans hlen⟩
  · rw [contents_toDir, hfile]
    refine ⟨rfl, fun left hleft => ?_⟩
    obtain rfl := Option.mem_some.mp hleft
    exact ⟨hforeign name content hfile, le_rfl⟩

/-- No more is handed over of a sink than a naive reading finds in it. -/
theorem length_handedFrom_le (n : Nat) (name : Name) :
    (handedFrom name (after calls (c.toDir euid) n).handed).length ≤
      ((c name).elim [] findRecords).length := by
  cases hfile : c name with
  | none =>
    rw [← contents_toDir euid c] at hfile
    rw [(after_none hcalls (ours_toDir euid c) hfile n).2]
    exact Nat.zero_le _
  | some content =>
    have hsplit := congrArg List.length (after_incremental hcalls hforeign hfile n).1
    rw [List.length_append] at hsplit
    rw [Option.elim_some]; omega

/-- When every sink fits one read, some call is the last that finds any of them. -/
theorem after_removed {names : Finset Name} (hnames : ∀ name, c name ≠ none → name ∈ names)
    (hcap : ∀ name, ∀ content ∈ c name, content.length ≤ crashDrainMaxBytes)
    (hlists : ∀ i, (calls i).Lists (after calls (c.toDir euid) i).dir)
    (hmax : ∀ i, 1 ≤ (calls i).max) :
    ∃ last, ∀ n, last ≤ n → ∀ name, contents (after calls (c.toDir euid) n).dir name = none := by
  -- In some call nothing is handed over, for the records are finitely many.
  obtain ⟨idle, -, hidle⟩ := exists_idle_call calls (c.toDir euid) fun n =>
    after_length_le hcalls (ours_toDir euid c) (by rwa [contents_toDir])
      (fun name => ((c name).elim [] findRecords).length) n (length_handedFrom_le hcalls hforeign n)
  refine ⟨idle + 1, fun n hn name => ?_⟩
  induction n, hn using Nat.le_induction with
  | base =>
    have hours := after_ours hcalls (ours_toDir euid c) idle
    obtain ⟨hvisits, hdir⟩ := DrainCall.run_eq (hcalls idle) hours
    rw [hidle] at hvisits
    rw [after, History.next, hdir, contents_toDir]
    by_cases hthere : contents (after calls (c.toDir euid) idle).dir name = none
    · exact drainAll_none _ _ hthere
    · refine drainAll_removes (hmax idle) hvisits.symm (hlists idle name hthere) ?_
      intro content hcontent hnone
      -- What is there now is what is left of a sink that was there from the start.
      obtain ⟨original, horiginal⟩ : ∃ original, c name = some original := by
        by_contra hno
        refine hthere (after_none hcalls (ours_toDir euid c) ?_ idle).1
        rw [contents_toDir]
        exact Option.eq_none_iff_forall_not_mem.mpr fun o ho => hno ⟨o, ho⟩
      obtain ⟨-, hleft⟩ := after_incremental hcalls hforeign horiginal idle
      obtain ⟨hclean, hlen⟩ := hleft content hcontent
      exact sinkStep_removes hclean (hlen.trans (hcap name original horiginal)) (hmax idle) hnone
  | succ n _ ih =>
    have hours := after_ours hcalls (ours_toDir euid c) n
    rw [after, History.next, (DrainCall.run_eq (hcalls n) hours).2, contents_toDir]
    exact drainAll_none _ _ ih

end

/-- **Incremental draining.** Take sinks of arbitrary bytes in which no record of another version can
be recognised, and drain them any number of times with any budgets. The records handed over of a
sink, followed by those a naive reading finds in what is left of it, are those it finds in the whole
sink; and when every sink fits one read and every call has budget, from some call on all records
have been handed over and all sinks are gone. -/
theorem drains_incremental {euid : Nat} {calls : Nat → DrainCall}
    (hcalls : ∀ i, (calls i).Reliable euid) {c : Sinks} {names : Finset Name}
    (hnames : ∀ name, c name ≠ none → name ∈ names)
    (hforeign : ∀ name, ∀ content ∈ c name, NoForeign content) :
    (∀ n name, ∀ content ∈ c name,
      handedFrom name (after calls (c.toDir euid) n).handed ++
        (contents (after calls (c.toDir euid) n).dir name).elim [] findRecords =
          findRecords content) ∧
    ((∀ name, ∀ content ∈ c name, content.length ≤ crashDrainMaxBytes) →
      (∀ i, (calls i).Lists (after calls (c.toDir euid) i).dir) → (∀ i, 1 ≤ (calls i).max) →
        ∃ last, ∀ n, last ≤ n → ∀ name, ∀ content ∈ c name,
          handedFrom name (after calls (c.toDir euid) n).handed = findRecords content ∧
            contents (after calls (c.toDir euid) n).dir name = none) := by
  have hsplit : ∀ n name, ∀ content ∈ c name,
      handedFrom name (after calls (c.toDir euid) n).handed ++
        (contents (after calls (c.toDir euid) n).dir name).elim [] findRecords =
          findRecords content :=
    fun n name content hfile => (after_incremental hcalls hforeign hfile n).1
  refine ⟨hsplit, fun hcap hlists hmax => ?_⟩
  obtain ⟨last, hgone⟩ := after_removed hcalls hforeign hnames hcap hlists hmax
  refine ⟨last, fun n hn name content hfile => ?_⟩
  -- A sink that is gone holds nothing more, so its whole scan has been handed over.
  have hall := hsplit n name content hfile
  rw [hgone n hn name, Option.elim_none, List.append_nil] at hall
  exact ⟨hall, hgone n hn name⟩

/-- Zeros are no magic. -/
theorem recordMagic_zeros (k : Nat) : recordMagic (List.replicate k 0) = 0 := by
  have hzero : ∀ o, u8At (List.replicate k 0) o = 0 := by
    intro o
    rw [u8At, List.getD_eq_getElem?_getD, List.getElem?_replicate]
    split <;> rfl
  simp [recordMagic, u32At, u16At, hzero]

/-- Behind its beginning a blank record has no magic. -/
theorem recordMagic_drop_blankRecord {o : Nat} (hpos : 0 < o) :
    recordMagic (blankRecord.bytes.drop o) ≠ crashMagic := by
  have hmagic : ∀ o < 24, 0 < o → recordMagic ((le 4 crashMagic ++ le 2 crashFormatVersion ++
      le 2 recordSize ++ List.replicate 16 0).drop o ++ List.replicate 8 0) ≠ crashMagic := by
    decide
  by_cases ho : o < 24
  · have hzeros : List.replicate 2136 (0 : UInt8) = List.replicate 8 0 ++ List.replicate 2128 0 := by
      rw [List.replicate_append_replicate]
    rw [blankRecord, List.drop_append_of_le_length (Nat.le_of_lt ho), hzeros, ← List.append_assoc,
      recordMagic_append]
    · exact hmagic o ho hpos
    · rw [List.length_append, List.length_replicate]; omega
  · rw [blankRecord, List.drop_append, List.drop_eq_nil_of_le (by simpa using ho),
      List.nil_append, List.drop_replicate, recordMagic_zeros]
    decide

/-- Nothing in a blank record looks foreign. -/
theorem noForeign_blankRecord : NoForeign blankRecord.bytes := by
  intro o
  rcases Nat.eq_zero_or_pos o with rfl | hpos
  · exact not_foreign_of_valid blankRecord.valid
  · simp [crashRecordForeignVersion, recordMagic_drop_blankRecord hpos]

/-- Neither is there a record of another version where two blank records meet. -/
theorem noForeign_blankRecords : NoForeign (blankRecord.bytes ++ blankRecord.bytes) := by
  have hlength := blankRecord.length_eq
  -- Across the seam: some zeros of the first record, then the header of the second.
  have hseam : ∀ k < 8, 0 < k → recordMagic (List.replicate k 0 ++ blankRecord.bytes) ≠ crashMagic := by
    decide +kernel
  intro o
  by_cases hsecond : recordSize ≤ o
  · obtain ⟨k, rfl⟩ := Nat.exists_eq_add_of_le hsecond
    have hdrop : (blankRecord.bytes ++ blankRecord.bytes).drop (recordSize + k) = blankRecord.bytes.drop k := by
      rw [← List.drop_drop, List.drop_left' hlength]
    have hleft : recordSize + recordSize - (recordSize + k) = blankRecord.bytes.length - k := by omega
    rw [hdrop, List.length_append, hlength, hleft]
    exact noForeign_blankRecord k
  · have hdrop : (blankRecord.bytes ++ blankRecord.bytes).drop o =
        blankRecord.bytes.drop o ++ blankRecord.bytes := List.drop_append_of_le_length (by omega)
    rw [hdrop]
    rcases Nat.eq_zero_or_pos o with rfl | hpos
    · exact not_foreign_of_valid (by
        rw [List.drop_zero, crashRecordValid_append _ (by rw [hlength]; decide)]
        exact blankRecord.valid)
    · suffices h : recordMagic (blankRecord.bytes.drop o ++ blankRecord.bytes) ≠ crashMagic by
        simp [crashRecordForeignVersion, h]
      by_cases hwhole : o + 8 ≤ recordSize
      · rw [recordMagic_append _ (by rw [List.length_drop]; omega)]
        exact recordMagic_drop_blankRecord hpos
      · -- The first record ends in zeros, and fewer than eight of them are left.
        have hzeros : blankRecord.bytes.drop o = List.replicate (recordSize - o) 0 := by
          have hsize : recordSize = 2160 := rfl
          rw [blankRecord, List.drop_append, List.drop_eq_nil_of_le (by simp; omega), List.nil_append,
            List.drop_replicate]
          congr 1
          simp
          omega
        rw [hzeros]
        exact hseam _ (by omega) (by omega)

/-- A record at the front is found, and the search goes on behind it. -/
theorem findRecords_own (r : OwnRecord) (rest : Bytes) :
    findRecords (r.bytes ++ rest) = r.bytes :: findRecords rest := by
  have hlength := r.length_eq
  have hvalid : crashRecordValid (r.bytes ++ rest) = true := by
    rw [crashRecordValid_append _ (by simp only [recordSize] at hlength; omega)]
    exact r.valid
  rw [findRecords, if_neg (by rw [List.length_append]; omega), if_pos hvalid, List.take_left' hlength,
    List.drop_left' hlength]

theorem findRecords_nil : findRecords [] = [] := by
  rw [findRecords, if_pos (by decide)]

/-- A directory with one sink, of two records. -/
def twoRecords : Sinks := fun name =>
  if name = sinkName gone.toInt then some (blankRecord.bytes ++ blankRecord.bytes) else none

/-- With a budget of one, the first call hands over the first record and cuts it off. A later one finds that
everything has been handed over. -/
theorem drains_incremental_two :
    let h := after (fun _ => callOver tmpDir drainer 1 [gone]) (twoRecords.toDir tmpDir.uid)
    (handedFrom (sinkName gone.toInt) (h 1).handed = [blankRecord.bytes] ∧
      contents (h 1).dir (sinkName gone.toInt) = some blankRecord.bytes) ∧
    ∃ last, handedFrom (sinkName gone.toInt) (h last).handed = [blankRecord.bytes, blankRecord.bytes] := by
  intro h
  have hlength := blankRecord.length_eq
  -- There is one sink, it holds two records, and nothing in it looks foreign.
  have hnames : ∀ name, twoRecords name ≠ none → name ∈ ({sinkName gone.toInt} : Finset Name) := by
    intro name hname
    rw [Finset.mem_singleton]
    by_contra hne
    exact hname (if_neg hne)
  have hforeign : ∀ name, ∀ content ∈ twoRecords name, NoForeign content := by
    intro name content hfile
    obtain rfl := Option.some.inj (Option.ite_none_right_eq_some.mp hfile).2
    exact noForeign_blankRecords
  have hcap : ∀ name, ∀ content ∈ twoRecords name, content.length ≤ crashDrainMaxBytes := by
    intro name content hfile
    obtain rfl := Option.some.inj (Option.ite_none_right_eq_some.mp hfile).2
    rw [List.length_append, hlength]
    decide
  have hcalls : ∀ _ : Nat, (callOver tmpDir drainer 1 [gone]).Reliable tmpDir.uid :=
    fun _ => callOver_reliable tmpDir drainer 1 [gone]
  have htargets : (callOver tmpDir drainer 1 [gone]).targets = [sinkName gone.toInt] :=
    callOver_targets tmpDir 1 (by decide)
  have hlists : ∀ i, (callOver tmpDir drainer 1 [gone]).Lists (h i).dir := by
    intro i name hname
    rw [htargets]
    by_contra hother
    refine hname (after_none hcalls (ours_toDir tmpDir.uid twoRecords) ?_ i).1
    rw [contents_toDir]
    exact if_neg fun heq => hother (by rw [heq]; exact List.mem_singleton_self _)
  constructor
  -- With the budget one the first call takes the first record and leaves the second.
  · obtain ⟨hhanded, hleft⟩ := after_first (fun _ => callOver tmpDir drainer 1 [gone]) (hcalls 0) htargets
      List.not_mem_nil (c := twoRecords) (if_pos rfl) le_rfl
    have hitems : blankRecord.bytes ++ blankRecord.bytes = encode [.own blankRecord, .own blankRecord] :=
      congrArg (blankRecord.bytes ++ ·) (List.append_nil _).symm
    obtain ⟨hrecords, hrest⟩ := @sinkStep_encode [.own blankRecord, .own blankRecord]
      (by rw [← hitems]; exact hcap _ _ (if_pos rfl)) 1
    rw [hitems] at hhanded hleft
    exact ⟨hhanded.trans hrecords, (hleft.trans hrest).trans (congrArg some (List.append_nil _))⟩
  -- Some later call has handed over both.
  · obtain ⟨-, hlive⟩ := drains_incremental hcalls hnames hforeign
    obtain ⟨last, hlast⟩ := hlive hcap hlists fun _ => le_rfl
    refine ⟨last, (hlast last le_rfl _ _ (if_pos rfl)).1.trans ?_⟩
    have hone := findRecords_own blankRecord []
    rw [List.append_nil, findRecords_nil] at hone
    rw [findRecords_own, hone]

end CboxTelemetry.Crash
