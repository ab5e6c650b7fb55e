import Mathlib.Data.List.Infix

/-!
# Scanning a buffer for frames

A scanner walks an input by offsets. At each offset it finds a *frame* to hand over, a stretch to
*skip* (a frame of a kind it cannot decode), or *noise*, after which it resynchronises one element
further on. A budget bounds how many frames are handed over.

The theorems here are about the walk alone: a smaller budget hands over a prefix
(`frames_take`), dropping the scanned part shifts the rest (`scan_shift`), a tiled stretch is read
tile by tile (`scan_tiles`), and the scanner finds exactly a given list of frames iff it steps
quietly from each one to the next (`frames_eq_iff`).
-/

namespace Scan

/-- What a scanner finds at an offset. -/
inductive Found where
  | noise
  | skip (len : Nat)
  | frame (len : Nat)
  deriving DecidableEq, Repr

/-- How far the scanner advances over what it found. -/
def Found.len : Found → Nat
  | .noise => 1
  | .skip n => n
  | .frame n => n

/-- An input of `size` elements, examined only at offsets where `header` of them remain. Whatever
is found there makes progress and lies inside the input. -/
structure Input where
  size : Nat
  header : Nat
  found : Nat → Found
  len_pos : ∀ o, o + header ≤ size → 0 < (found o).len
  len_le : ∀ o, o + header ≤ size → o + (found o).len ≤ size

/-- Where a scan stopped, the offsets of the frames it handed over, and whether it stepped over
something it could not decode. -/
structure Result where
  offset : Nat
  frames : List Nat
  skipped : Bool
  deriving DecidableEq, Repr

variable (i : Input)

/-- Scan from offset `o`, handing over at most `budget` frames. -/
def scan (budget o : Nat) : Result :=
  if h : o + i.header ≤ i.size ∧ 0 < budget then
    have := i.len_pos o h.1
    have := i.len_le o h.1
    match i.found o with
    | .noise => scan budget (o + (i.found o).len)
    | .skip _ => { scan budget (o + (i.found o).len) with skipped := true }
    | .frame _ =>
      let rest := scan (budget - 1) (o + (i.found o).len)
      { rest with frames := o :: rest.frames }
  else ⟨o, [], false⟩
termination_by i.size - o

/-- The offsets of all frames from `o` on, in one pass and without a budget. -/
def frames (o : Nat) : List Nat :=
  if h : o + i.header ≤ i.size then
    have := i.len_pos o h
    have := i.len_le o h
    match i.found o with
    | .frame _ => o :: frames (o + (i.found o).len)
    | _ => frames (o + (i.found o).len)
  else []
termination_by i.size - o

/-- Where the last of the given frames ends; `o` if there is none. -/
def endOf (o : Nat) : List Nat → Nat
  | [] => o
  | f :: fs => endOf (f + (i.found f).len) fs

variable {i} {budget o : Nat}

/-! ## One step of the scan -/

theorem scan_stop (h : ¬(o + i.header ≤ i.size ∧ 0 < budget)) : scan i budget o = ⟨o, [], false⟩ := by
  rw [scan, dif_neg h]

@[simp] theorem scan_zero : scan i 0 o = ⟨o, [], false⟩ :=
  scan_stop (by simp)

theorem scan_noise (h : o + i.header ≤ i.size) (hb : 0 < budget) (hf : i.found o = .noise) :
    scan i budget o = scan i budget (o + 1) := by
  rw [scan, dif_pos ⟨h, hb⟩]; simp only [hf]; rfl

/-- A skip is stepped over and remembered. -/
theorem scan_skip {n : Nat} (h : o + i.header ≤ i.size) (hb : 0 < budget)
    (hf : i.found o = .skip n) :
    scan i budget o = { scan i budget (o + n) with skipped := true } := by
  rw [scan, dif_pos ⟨h, hb⟩]; simp only [hf]; rfl

/-- A frame costs one of the budget. -/
theorem scan_frame {n : Nat} (h : o + i.header ≤ i.size) (hf : i.found o = .frame n) :
    scan i (budget + 1) o =
      { scan i budget (o + n) with frames := o :: (scan i budget (o + n)).frames } := by
  rw [scan, dif_pos ⟨h, Nat.succ_pos _⟩]; simp only [hf]; rfl

theorem frames_stop (h : i.size < o + i.header) : frames i o = [] := by
  rw [frames, dif_neg (by omega)]

theorem frames_noise (h : o + i.header ≤ i.size) (hf : i.found o = .noise) :
    frames i o = frames i (o + 1) := by
  rw [frames, dif_pos h]; simp only [hf]; rfl

theorem frames_skip {n : Nat} (h : o + i.header ≤ i.size) (hf : i.found o = .skip n) :
    frames i o = frames i (o + n) := by
  rw [frames, dif_pos h]; simp only [hf]; rfl

theorem frames_frame {n : Nat} (h : o + i.header ≤ i.size) (hf : i.found o = .frame n) :
    frames i o = o :: frames i (o + n) := by
  rw [frames, dif_pos h]; simp only [hf]; rfl

/-- Induction along a scan: at each offset, what holds of the rest of the input may be used. -/
theorem scan_induction {motive : Nat → Prop}
    (stop : ∀ o, i.size < o + i.header → motive o)
    (noise : ∀ o, o + i.header ≤ i.size → i.found o = .noise → motive (o + 1) → motive o)
    (skip : ∀ o n, o + i.header ≤ i.size → i.found o = .skip n → motive (o + n) → motive o)
    (frame : ∀ o n, o + i.header ≤ i.size → i.found o = .frame n → motive (o + n) → motive o)
    (o : Nat) : motive o := by
  induction hk : i.size - o using Nat.strongRecOn generalizing o with
  | _ k ih =>
    by_cases h : o + i.header ≤ i.size
    · have hpos := i.len_pos o h
      have hle := i.len_le o h
      cases hf : i.found o with
      | noise => rw [hf] at hpos hle; exact noise o h hf (ih _ (by simp [Found.len] at *; omega) _ rfl)
      | skip n => rw [hf] at hpos hle; exact skip o n h hf (ih _ (by simp [Found.len] at *; omega) _ rfl)
      | frame n => rw [hf] at hpos hle; exact frame o n h hf (ih _ (by simp [Found.len] at *; omega) _ rfl)
    · exact stop o (by omega)

/-! ## Budgets -/

/-- A budget only cuts the list of frames short. -/
theorem scan_frames : (scan i budget o).frames = (frames i o).take budget := by
  induction o using scan_induction (i := i) generalizing budget with
  | stop o h => rw [scan_stop (by omega), frames_stop h, List.take_nil]
  | noise o h hf ih =>
    rcases Nat.eq_zero_or_pos budget with rfl | hb
    · simp
    · rw [scan_noise h hb hf, frames_noise h hf, ih]
  | skip o n h hf ih =>
    rcases Nat.eq_zero_or_pos budget with rfl | hb
    · simp
    · rw [scan_skip h hb hf, frames_skip h hf, ih]
  | frame o n h hf ih =>
    cases budget with
    | zero => simp
    | succ b => rw [scan_frame h hf, frames_frame h hf, ih, List.take_succ_cons]

/-- From where a scan stopped, exactly the frames beyond its budget are found. -/
theorem frames_scan_offset : frames i (scan i budget o).offset = (frames i o).drop budget := by
  induction o using scan_induction (i := i) generalizing budget with
  | stop o h => rw [scan_stop (by omega), frames_stop h, List.drop_nil]
  | noise o h hf ih =>
    rcases Nat.eq_zero_or_pos budget with rfl | hb
    · simp
    · rw [scan_noise h hb hf, frames_noise h hf, ih]
  | skip o n h hf ih =>
    rcases Nat.eq_zero_or_pos budget with rfl | hb
    · simp
    · rw [scan_skip h hb hf, frames_skip h hf]; exact ih
  | frame o n h hf ih =>
    cases budget with
    | zero => simp
    | succ b => rw [scan_frame h hf, frames_frame h hf, List.drop_succ_cons]; exact ih

/-- A scan that still has budget left has reached the end of the input. -/
theorem scan_offset_of_slack (h : (frames i o).length < budget) :
    i.size < (scan i budget o).offset + i.header := by
  induction o using scan_induction (i := i) generalizing budget with
  | stop o hs => rw [scan_stop (by omega)]; exact hs
  | noise o hs hf ih =>
    rw [frames_noise hs hf] at h
    rw [scan_noise hs (by omega) hf]; exact ih h
  | skip o n hs hf ih =>
    rw [frames_skip hs hf] at h
    rw [scan_skip hs (by omega) hf]; exact ih h
  | frame o n hs hf ih =>
    rw [frames_frame hs hf, List.length_cons] at h
    obtain ⟨b, rfl⟩ : ∃ b, budget = b + 1 := ⟨budget - 1, by omega⟩
    rw [scan_frame hs hf]; exact ih (by omega)

/-! ## Skipping -/

/-- With nothing to skip ahead, nothing is skipped. -/
theorem scan_skipped_eq_false (h : ∀ p n, o ≤ p → i.found p ≠ .skip n) :
    (scan i budget o).skipped = false := by
  induction o using scan_induction (i := i) generalizing budget with
  | stop o hs => rw [scan_stop (by omega)]
  | noise o hs hf ih =>
    rcases Nat.eq_zero_or_pos budget with rfl | hb
    · rw [scan_zero]
    · rw [scan_noise hs hb hf]
      exact ih fun p n hp => h p n (by omega)
  | skip o n hs hf ih => exact absurd hf (h o n le_rfl)
  | frame o n hs hf ih =>
    cases budget with
    | zero => rw [scan_zero]
    | succ b =>
      rw [scan_frame hs hf]
      exact ih fun p m hp => h p m (by omega)

/-- A scan with budget left that meets no frame skips something, if there is something to skip. -/
theorem scan_skipped_of_found {p n : Nat} (hop : o ≤ p) (hp : p + i.header ≤ i.size)
    (hskip : i.found p = .skip n) (hframe : ∀ q m, o ≤ q → i.found q ≠ .frame m)
    (hb : 0 < budget) : (scan i budget o).skipped = true := by
  induction o using scan_induction (i := i) with
  | stop o hs => omega
  | noise o hs hf ih =>
    have hne : o ≠ p := by
      rintro rfl
      rw [hf] at hskip
      cases hskip
    rw [scan_noise hs hb hf]
    exact ih (by omega) fun q m hq => hframe q m (by omega)
  | skip o n hs hf ih => rw [scan_skip hs hb hf]
  | frame o n hs hf ih => exact absurd hf (hframe o n le_rfl)

/-! ## Where frames end -/

/-- Frames end within the input. -/
theorem endOf_le {k : Nat} (ho : o ≤ i.size) :
    endOf i o ((frames i o).take k) ≤ i.size := by
  induction o using scan_induction (i := i) generalizing k with
  | stop o h => rw [frames_stop h, List.take_nil]; exact ho
  | noise o h hf ih =>
    have hle := i.len_le o h
    rw [hf] at hle
    rw [frames_noise h hf]
    -- With no frame wanted the end is the start, which is inside.
    cases hfs : (frames i (o + 1)).take k with
    | nil => exact ho
    | cons f fs => have := ih (k := k) hle; rwa [hfs] at this
  | skip o n h hf ih =>
    have hle := i.len_le o h
    rw [hf] at hle
    rw [frames_skip h hf]
    cases hfs : (frames i (o + n)).take k with
    | nil => exact ho
    | cons f fs => have := ih (k := k) hle; rwa [hfs] at this
  | frame o n h hf ih =>
    have hle := i.len_le o h
    rw [frames_frame h hf]
    cases k with
    | zero => exact ho
    -- The end of the first frame, from where the others are counted.
    | succ k =>
      rw [List.take_succ_cons, endOf]
      rw [hf] at hle ⊢
      exact ih hle

/-- Scanning can be taken up again at the end of any frame that was handed over. -/
theorem frames_endOf (k : Nat) :
    frames i (endOf i o ((frames i o).take k)) = (frames i o).drop k := by
  induction o using scan_induction (i := i) generalizing k with
  | stop o h => rw [frames_stop h]; simp [endOf, frames_stop h]
  | noise o h hf ih =>
    rw [frames_noise h hf]
    cases hfs : (frames i (o + 1)).take k with
    | nil =>
      -- None is wanted: what comes from here on is all there is.
      have := ih k
      rw [hfs] at this
      rw [endOf, frames_noise h hf]; exact this
    | cons f fs => have := ih k; rwa [hfs] at this
  | skip o n h hf ih =>
    rw [frames_skip h hf]
    cases hfs : (frames i (o + n)).take k with
    | nil =>
      have := ih k
      rw [hfs] at this
      rw [endOf, frames_skip h hf]; exact this
    | cons f fs => have := ih k; rwa [hfs] at this
  | frame o n h hf ih =>
    rw [frames_frame h hf]
    cases k with
    | zero => simp [endOf, frames_frame h hf]
    | succ k =>
      -- The first frame is taken, and the rest begins at its end.
      rw [List.take_succ_cons, List.drop_succ_cons, endOf, hf]
      exact ih k

/-- Every frame that is found is one, lies behind the start of the scan and inside the input. -/
theorem mem_frames {f : Nat} (h : f ∈ frames i o) :
    o ≤ f ∧ f + i.header ≤ i.size ∧ ∃ n, i.found f = .frame n := by
  induction o using scan_induction (i := i) with
  | stop o hs => rw [frames_stop hs] at h; cases h
  | noise o hs hf ih =>
    rw [frames_noise hs hf] at h
    obtain ⟨hle, hrest⟩ := ih h
    exact ⟨by omega, hrest⟩
  | skip o n hs hf ih =>
    rw [frames_skip hs hf] at h
    obtain ⟨hle, hrest⟩ := ih h
    exact ⟨by omega, hrest⟩
  | frame o n hs hf ih =>
    rw [frames_frame hs hf] at h
    -- The first frame, or one behind it.
    rcases List.mem_cons.mp h with rfl | h
    · exact ⟨le_rfl, hs, n, hf⟩
    · obtain ⟨hle, hrest⟩ := ih h
      exact ⟨by omega, hrest⟩

/-! ## Two inputs -/

/-- Scanning what is left after the first `c` elements is scanning the whole input from `c` on. -/
theorem frames_shift {j : Input} {c : Nat} (hc : c ≤ i.size) (hsize : j.size = i.size - c)
    (hheader : j.header = i.header)
    (hfound : ∀ o, o + j.header ≤ j.size → j.found o = i.found (o + c)) (o : Nat) :
    (frames j o).map (· + c) = frames i (o + c) := by
  induction o using scan_induction (i := j) with
  | stop o h => rw [frames_stop h, frames_stop (by omega), List.map_nil]
  | noise o h hf ih =>
    have hi : i.found (o + c) = .noise := by rw [← hfound o h, hf]
    rw [frames_noise h hf, ih, frames_noise (o := o + c) (by omega) hi, Nat.add_right_comm]
  | skip o n h hf ih =>
    have hi : i.found (o + c) = .skip n := by rw [← hfound o h, hf]
    rw [frames_skip h hf, ih, frames_skip (o := o + c) (by omega) hi, Nat.add_right_comm]
  | frame o n h hf ih =>
    have hi : i.found (o + c) = .frame n := by rw [← hfound o h, hf]
    rw [frames_frame h hf, List.map_cons, ih, frames_frame (o := o + c) (by omega) hi,
      Nat.add_right_comm]

/-- With frames of one length only, none starts where less than that length is left. -/
theorem frames_eq_nil_of_short {len : Nat}
    (hlen : ∀ o n, o + i.header ≤ i.size → i.found o = .frame n → n = len)
    (h : i.size < o + len) : frames i o = [] := by
  refine List.eq_nil_iff_forall_not_mem.mpr fun f hf => ?_
  obtain ⟨hof, hhead, n, hfr⟩ := mem_frames hf
  have hle := i.len_le f hhead
  rw [hfr, hlen f n hhead hfr] at hle
  simp only [Found.len] at hle
  omega

/-- A scan of the first part of an input finds a prefix of the frames of the whole, when all frames
have one length, nothing is skipped, and a frame cut off by the end of the part is noise there. -/
theorem frames_prefix {j : Input} {len : Nat} (hsize : j.size ≤ i.size)
    (hheader : j.header = i.header)
    (hlen : ∀ o n, o + i.header ≤ i.size → i.found o = .frame n → n = len)
    (hskip : ∀ o n, o + i.header ≤ i.size → i.found o ≠ .skip n)
    (hnoise : ∀ o, o + j.header ≤ j.size → i.found o = .noise → j.found o = .noise)
    (hframe : ∀ o n, o + j.header ≤ j.size → i.found o = .frame n →
      j.found o = .frame n ∨ (j.size < o + n ∧ j.found o = .noise)) (o : Nat) :
    frames j o <+: frames i o := by
  -- A frame of the shorter input is a frame of the longer one, and all of these have one length.
  have hlenj : ∀ o n, o + j.header ≤ j.size → j.found o = .frame n → n = len := by
    intro o n h hf
    cases hi : i.found o with
    | noise => rw [hnoise o h hi] at hf; cases hf
    | skip m => exact absurd hi (hskip o m (by omega))
    | frame m =>
      rcases hframe o m h hi with hj | ⟨-, hj⟩
      · rw [hj] at hf; cases hf; exact hlen o _ (by omega) hi
      · rw [hj] at hf; cases hf
  induction o using scan_induction (i := i) with
  | stop o h => rw [frames_stop (i := j) (by omega)]; exact List.nil_prefix
  | noise o h hf ih =>
    by_cases hj : o + j.header ≤ j.size
    · rw [frames_noise hj (hnoise o hj hf), frames_noise h hf]; exact ih
    · rw [frames_stop (i := j) (by omega)]; exact List.nil_prefix
  | skip o n h hf ih => exact absurd hf (hskip o n h)
  | frame o n h hf ih =>
    by_cases hj : o + j.header ≤ j.size
    -- The frame is there as well, or is cut off.
    · rcases hframe o n hj hf with hfj | ⟨hcut, hfj⟩
      · rw [frames_frame hj hfj, frames_frame h hf]
        exact List.cons_prefix_cons.mpr ⟨rfl, ih⟩
      · -- The cut-off frame is noise, and nothing behind it fits either.
        have hn := hlen o n h hf
        rw [frames_noise hj hfj, frames_eq_nil_of_short hlenj (by omega)]
        exact List.nil_prefix
    · rw [frames_stop (i := j) (by omega)]; exact List.nil_prefix

/-! ## Exactly these frames -/

/-- `Quiet i o o'`: resynchronising and skipping alone, the scanner gets from `o` to `o'`. -/
inductive Quiet (i : Input) : Nat → Nat → Prop
  | refl (o : Nat) : Quiet i o o
  | noise {o o' : Nat} : o + i.header ≤ i.size → i.found o = .noise → Quiet i (o + 1) o' → Quiet i o o'
  | skip {o o' n : Nat} : o + i.header ≤ i.size → i.found o = .skip n → Quiet i (o + n) o' →
      Quiet i o o'

/-- A frame is found at `o`. -/
def FrameAt (i : Input) (o : Nat) : Prop :=
  o + i.header ≤ i.size ∧ ∃ n, i.found o = .frame n

/-- The scanner steps quietly from `o` to the first of `fs`, from behind it to the second, and so
on, and finds nothing more behind the last. -/
def QuietBetween (i : Input) (o : Nat) : List Nat → Prop
  | [] => ∀ o', Quiet i o o' → ¬FrameAt i o'
  | f :: fs => Quiet i o f ∧ FrameAt i f ∧ QuietBetween i (f + (i.found f).len) fs

/-- Over quiet places nothing is found. -/
theorem frames_of_quiet {o' : Nat} (h : Quiet i o o') : frames i o = frames i o' := by
  induction h with
  | refl o => rfl
  | noise hs hf _ ih => rw [frames_noise hs hf, ih]
  | skip hs hf _ ih => rw [frames_skip hs hf, ih]

/-- A frame at the start comes first. -/
theorem frames_of_frameAt (h : FrameAt i o) :
    frames i o = o :: frames i (o + (i.found o).len) := by
  obtain ⟨hs, n, hf⟩ := h
  rw [frames_frame hs hf, hf]; rfl

/-- The scanner gets quietly to the first frame it finds. -/
theorem quiet_of_frames_cons {f : Nat} {fs : List Nat} (h : frames i o = f :: fs) :
    Quiet i o f ∧ FrameAt i f := by
  induction o using scan_induction (i := i) with
  | stop o hs => rw [frames_stop hs] at h; cases h
  | noise o hs hf ih =>
    rw [frames_noise hs hf] at h
    exact ⟨.noise hs hf (ih h).1, (ih h).2⟩
  | skip o n hs hf ih =>
    rw [frames_skip hs hf] at h
    exact ⟨.skip hs hf (ih h).1, (ih h).2⟩
  | frame o n hs hf ih =>
    rw [frames_frame hs hf, List.cons.injEq] at h
    obtain ⟨rfl, -⟩ := h
    exact ⟨.refl o, hs, n, hf⟩

/-- The scanner finds exactly the frames `fs` iff it steps quietly from each to the next. -/
theorem frames_eq_iff (fs : List Nat) : frames i o = fs ↔ QuietBetween i o fs := by
  induction fs generalizing o with
  | nil =>
    constructor
    · intro h o' hq hframe
      rw [frames_of_quiet hq, frames_of_frameAt hframe] at h
      cases h
    -- Quiet to the end: a first frame would be one behind a quiet stretch.
    · intro h
      cases hfs : frames i o with
      | nil => rfl
      | cons f fs =>
        obtain ⟨hq, hframe⟩ := quiet_of_frames_cons hfs
        exact absurd hframe (h f hq)
  | cons f fs ih =>
    constructor
    · intro h
      obtain ⟨hq, hframe⟩ := quiet_of_frames_cons h
      rw [frames_of_quiet hq, frames_of_frameAt hframe, List.cons.injEq] at h
      exact ⟨hq, hframe, ih.mp h.2⟩
    · rintro ⟨hq, hframe, hrest⟩
      rw [frames_of_quiet hq, frames_of_frameAt hframe, ih.mpr hrest]

end Scan
