import CboxTelemetry.Profiler.Interning

/-!
# What a refused frame leaves behind

Interning a new frame takes two allocations, its name and its file, and publishes the frame when it has both.
When the name fits and the file does not, the name stays in the arena with nothing that points to it, and when the
frame comes back it does so again as long as the name fits. In every other case a frame that is refused leaves the
table and the cursor of the arena alone (`refusesClean_iff`), however often it comes back.
-/

namespace CboxTelemetry.Profiler

/-! ## The two allocations -/

/-- The arena after `bytes` bytes have been handed out. -/
def Arena.advance (a : Arena) (bytes : Nat) : Arena := { a with used := a.cursor + bytes }

/-- There is room for a string. -/
def Arena.Fits (a : Arena) (len : Nat) : Prop := a.cursor + (len + 1) ≤ a.size

instance (a : Arena) (len : Nat) : Decidable (a.Fits len) := inferInstanceAs (Decidable (_ ≤ _))

namespace FrameTable

/-- The arena has room for the name of a new frame, but not for its file behind it. -/
structure Splits (t : FrameTable) (arena : Arena) (key : FrameKey) : Prop where
  new : key ∉ t.keys arena
  room : t.frames.length < t.capacity
  named : key.name ≠ []
  filed : key.file ≠ []
  name_fits : arena.Fits key.name.length
  file_refused : ¬(arena.advance (key.name.length + 1)).Fits key.file.length

/-- A call that gets no number changes no more than the counters of what was refused. -/
def RefusesClean (t : FrameTable) (arena : Arena) (name file : Bytes) (line : UInt32) : Prop :=
  ∀ t' arena', t.intern arena name file line = some (none, t', arena') →
    t'.frames = t.frames ∧ t'.buckets = t.buckets ∧ arena'.used = arena.used

variable {t : FrameTable} {arena : Arena} {key : FrameKey} {slot : Nat}

/-- The three ways in which the allocations for a new frame end. -/
theorem add_cases (h : arena.Valid) (hname : key.name.length ≤ frameNameMax)
    (hfile : key.file.length ≤ frameNameMax) (hroom : t.frames.length < t.capacity) :
    (¬arena.Fits key.name.length ∧ ∃ n, t.add arena key slot = (none, t.refuse, { arena with exhausted := n })) ∨
    (arena.Fits key.name.length ∧ key.file ≠ [] ∧ ¬(arena.advance (key.name.length + 1)).Fits key.file.length ∧
      ∃ a, t.add arena key slot = (none, t.refuse, a) ∧ a.used = arena.cursor + (key.name.length + 1)) ∨
    (arena.Fits key.name.length ∧
      (key.file ≠ [] → (arena.advance (key.name.length + 1)).Fits key.file.length) ∧
      ∃ t' a, t.add arena key slot = (some t.frames.length, t', a) ∧
        a.used = if key.file = [] then arena.cursor + (key.name.length + 1)
          else (arena.advance (key.name.length + 1)).cursor + (key.file.length + 1)) := by
  have hsmall : ∀ bytes : Bytes, bytes.length ≤ frameNameMax → bytes.length + 1 < 2 ^ 32 := by
    intro bytes hle
    unfold frameNameMax at hle
    omega
  -- The arena is asked for the name and then for the file. Either can be refused.
  unfold FrameTable.add
  rw [if_neg (by omega)]
  obtain ⟨hnone, n, hput⟩ | ⟨a₁, hput, hgrows₁, -, hused₁⟩ := Arena.put_spec h (hsmall _ hname)
  · left
    rw [hput]
    exact ⟨by unfold Arena.Fits; omega, n, rfl⟩
  right
  have hsize₁ := hgrows₁.size_eq
  have hfits : arena.Fits key.name.length := by
    have hinside := hgrows₁.valid.used_le
    unfold Arena.Fits
    omega
  have hcursor : a₁.cursor = (arena.advance (key.name.length + 1)).cursor := by
    simp only [Arena.cursor, Arena.advance, hused₁]
  have hsize : a₁.size = (arena.advance (key.name.length + 1)).size := hsize₁
  simp only [hput]
  by_cases hempty : key.file = []
  · right
    refine ⟨hfits, fun hne => absurd hempty hne, ?_⟩
    simp only [hempty, List.length_nil, Nat.lt_irrefl, if_false, false_and, if_true]
    exact ⟨_, _, rfl, hused₁⟩
  · have hpos : 0 < key.file.length := List.length_pos_iff.mpr hempty
    simp only [hpos, if_true, true_and, hempty, if_false]
    obtain ⟨hnone, n, hput₂⟩ | ⟨a₂, hput₂, hgrows₂, -, hused₂⟩ := Arena.put_spec hgrows₁.valid (hsmall _ hfile)
    · left
      simp only [hput₂, if_true]
      refine ⟨hfits, hempty, ?_, _, rfl, hused₁⟩
      unfold Arena.Fits
      omega
    · right
      simp only [hput₂, reduceCtorEq, if_false]
      refine ⟨hfits, fun _ => ?_, _, _, rfl, by rw [hused₂, hcursor]⟩
      have hinside := hgrows₂.valid.used_le
      have hsize₂ := hgrows₂.size_eq
      unfold Arena.Fits
      omega

/-- A call that comes to nothing is clean. -/
theorem refusesClean_of_eq {name file : Bytes} {line : UInt32} {hits exhausted : Nat}
    (h : t.intern arena name file line =
      some (none, { t with capacityHits := hits }, { arena with exhausted := exhausted })) :
    t.RefusesClean arena name file line := by
  intro t' arena' hintern
  cases h.symm.trans hintern
  exact ⟨rfl, rfl, rfl⟩

/-- So is one that gets a number. -/
theorem refusesClean_of_some {name file : Bytes} {line : UInt32} {id : Nat} {t₁ : FrameTable} {arena₁ : Arena}
    (h : t.intern arena name file line = some (some id, t₁, arena₁)) : t.RefusesClean arena name file line := by
  intro t' arena' hintern
  cases h.symm.trans hintern

/-- **A refusal is clean unless it comes between the name and the file.** -/
theorem Valid.clean_iff (h : t.Valid arena) (name file : Bytes) (line : UInt32) :
    t.RefusesClean arena name file line ↔ ¬t.Splits arena (keyOf name file line) := by
  by_cases hname : name = []
  · have hnothing : t.intern arena name file line = some (none, t, arena) :=
      if_pos (.inr (List.length_eq_zero_iff.mpr hname))
    refine iff_of_true (refusesClean_of_eq hnothing) fun hsplits => hsplits.named ?_
    rw [hname]
    exact List.take_nil
  -- A function that is known needs nothing, and one without room in the table is refused before the
  -- arena is asked.
  by_cases hmem : keyOf name file line ∈ t.keys arena
  · obtain ⟨id, hid⟩ := List.mem_iff_getElem?.mp hmem
    exact iff_of_true (refusesClean_of_some (h.intern_known hname hid)) fun hsplits => hsplits.new hmem
  by_cases hroom : t.frames.length < t.capacity
  · obtain ⟨d, -, hintern, -, -⟩ := h.intern_new (by omega) hname hmem
    have hshort : ∀ bytes : Bytes, (bytes.take frameNameMax).length ≤ frameNameMax :=
      fun bytes => List.length_take_le _ _
    obtain ⟨hfull, n, hadd⟩ | ⟨hfits, hfiled, hrefused, a, hadd, hused⟩ | ⟨hfits, hfile, t', a, hadd, -⟩ :=
      @add_cases t arena (keyOf name file line) (((keyOf name file line).hash.toNat + d) % (t.bucketMask + 1))
        h.arena_valid (hshort name) (hshort file) hroom
    · rw [hadd] at hintern
      exact iff_of_true (refusesClean_of_eq hintern) fun hsplits => hfull hsplits.name_fits
    · rw [hadd] at hintern
      refine iff_of_false (fun hclean => ?_) fun hnot => hnot ⟨hmem, hroom, ?_, hfiled, hfits, hrefused⟩
      · -- The name has moved the cursor.
        have hkept := (hclean _ _ hintern).2.2
        have hcursor := arena.used_le_cursor
        omega
      · intro hnil
        rcases List.take_eq_nil_iff.mp hnil with hzero | hnil
        · cases hzero
        · exact hname hnil
    · rw [hadd] at hintern
      exact iff_of_true (refusesClean_of_some hintern) fun hsplits => hsplits.file_refused (hfile hsplits.filed)
  · refine iff_of_true ?_ fun hsplits => hroom hsplits.room
    by_cases hcap : t.capacity = 0
    · exact refusesClean_of_eq (if_pos (.inl hcap))
    · obtain ⟨d, -, hintern, -, -⟩ := h.intern_new hcap hname hmem
      rw [FrameTable.add, if_pos (by omega)] at hintern
      exact refusesClean_of_eq hintern

end FrameTable

/-! ## Over a run -/

/-- The calls that are made, without their results. -/
def internAll (calls : List (Bytes × Bytes × UInt32)) : List Use := calls.map fun c => .intern c.1 c.2.1 c.2.2

namespace Interner
variable {s s' : Interner}

/-- What is left of the room for later frames. -/
structure SameRoom (s s' : Interner) : Prop where
  frames : s'.table.frames = s.table.frames
  buckets : s'.table.buckets = s.table.buckets
  used : s'.arena.used = s.arena.used
  capacity : s'.table.capacity = s.table.capacity
  size : s'.arena.size = s.arena.size
  keys : s'.table.keys s'.arena = s.table.keys s.arena

/-- Whether a call splits depends on the room that is left and on nothing else. -/
theorem SameRoom.splits_iff (h : SameRoom s s') (key : FrameKey) :
    s'.table.Splits s'.arena key ↔ s.table.Splits s.arena key := by
  have hcursor : s'.arena.cursor = s.arena.cursor := by rw [Arena.cursor, Arena.cursor, h.used]
  have hfits : ∀ len, s'.arena.Fits len ↔ s.arena.Fits len := by
    intro len
    rw [Arena.Fits, Arena.Fits, hcursor, h.size]
  have hnext : ∀ bytes len, (s'.arena.advance bytes).Fits len ↔ (s.arena.advance bytes).Fits len := by
    intro bytes len
    have hsize : (s'.arena.advance bytes).size = (s.arena.advance bytes).size := h.size
    rw [Arena.Fits, Arena.Fits, hsize]
    simp only [Arena.cursor, Arena.advance, h.used]
  constructor
  · rintro ⟨hnew, hroom, hnamed, hfiled, hname, hfile⟩
    exact ⟨h.keys ▸ hnew, by rw [← h.frames, ← h.capacity]; exact hroom, hnamed, hfiled, (hfits _).mp hname,
      mt (hnext _ _).mpr hfile⟩
  · rintro ⟨hnew, hroom, hnamed, hfiled, hname, hfile⟩
    exact ⟨h.keys ▸ hnew, by rw [h.frames, h.capacity]; exact hroom, hnamed, hfiled, (hfits _).mpr hname,
      mt (hnext _ _).mp hfile⟩

/-- One refusal. -/
theorem Ok.sameRoom (h : s.Ok) {name file : Bytes} {line : UInt32} {table : FrameTable} {arena : Arena}
    (hintern : s.table.intern s.arena name file line = some (none, table, arena))
    (hsplits : ¬s.table.Splits s.arena (FrameTable.keyOf name file line)) (calls : List Interning) :
    SameRoom s ⟨table, arena, calls⟩ := by
  obtain ⟨hframes, hbuckets, hused⟩ := (h.valid.clean_iff name file line).mpr hsplits table arena hintern
  obtain ⟨r, hr, hinterned⟩ := h.valid.intern name file line
  obtain rfl : r = (none, table, arena) := Option.some.inj (hr.symm.trans hintern)
  cases hinterned with
  | refused hits _ hgrows _ => exact ⟨hframes, hbuckets, hused, rfl, hgrows.size_eq, h.valid.keys_grows hgrows⟩

/-- Calls are added to the history. -/
theorem calls_internAll {calls : List (Bytes × Bytes × UInt32)} (hrun : s.useAll (internAll calls) = some s') :
    ∃ more, s'.calls = s.calls ++ more := by
  induction calls generalizing s with
  | nil =>
    cases hrun
    exact ⟨[], (List.append_nil _).symm⟩
  | cons c calls ih =>
    obtain ⟨s₁, hstep, hrest⟩ := Option.bind_eq_some_iff.mp hrun
    simp only [Interner.use] at hstep
    split at hstep
    · cases hstep
    · cases hstep
      obtain ⟨more, hmore⟩ := ih hrest
      exact ⟨_ :: more, by rw [hmore, List.append_assoc, List.singleton_append]⟩

/-- Refusals one after another, none of which splits a frame. -/
theorem Ok.sameRoom_run (h : s.Ok) {calls : List (Bytes × Bytes × UInt32)}
    (hsplits : ∀ c ∈ calls, ¬s.table.Splits s.arena (FrameTable.keyOf c.1 c.2.1 c.2.2))
    (hrun : s.useAll (internAll calls) = some s')
    (hrefused : ∀ a ∈ s'.calls.drop s.calls.length, a.id = none) : SameRoom s s' := by
  induction calls generalizing s with
  | nil =>
    cases hrun
    exact ⟨rfl, rfl, rfl, rfl, rfl, rfl⟩
  | cons c calls ih =>
    obtain ⟨s₁, hstep, hrest⟩ := Option.bind_eq_some_iff.mp hrun
    obtain ⟨s₁', hstep', hok⟩ := h.intern c.1 c.2.1 c.2.2
    obtain rfl : s₁ = s₁' := Option.some.inj (hstep.symm.trans hstep')
    obtain ⟨more, hmore⟩ := calls_internAll hrest
    simp only [Interner.use] at hstep
    split at hstep
    · cases hstep
    next id table arena hintern =>
      cases hstep
      have hdrop : s'.calls.drop s.calls.length = ⟨c.1, c.2.1, c.2.2, id⟩ :: more := by
        rw [hmore, List.append_assoc, List.drop_left]
        rfl
      have hnone : id = none := hrefused _ (hdrop ▸ List.mem_cons_self)
      subst hnone
      have hfirst := h.sameRoom hintern (hsplits c List.mem_cons_self) (s.calls ++ [⟨c.1, c.2.1, c.2.2, none⟩])
      have hlater : SameRoom ⟨table, arena, s.calls ++ [⟨c.1, c.2.1, c.2.2, none⟩]⟩ s' := by
        refine ih hok ?_ hrest ?_
        · intro c' hc'
          exact mt (hfirst.splits_iff _).mp (hsplits c' (List.mem_cons_of_mem _ hc'))
        · intro a ha
          rw [hmore, List.drop_left] at ha
          exact hrefused a (hdrop ▸ List.mem_cons_of_mem _ ha)
      exact ⟨hlater.frames.trans hfirst.frames, hlater.buckets.trans hfirst.buckets,
        hlater.used.trans hfirst.used, hlater.capacity.trans hfirst.capacity, hlater.size.trans hfirst.size,
        hlater.keys.trans hfirst.keys⟩

end Interner

/-- **A failed intern changes nothing, unless it splits a frame.** In every state that a table and its arena
can be used into: whether a call that gets no number leaves them as they were, and what is left of them after
any number of such calls. -/
theorem refusesClean_iff {capacity : Nat} {slab : Bytes} {table : FrameTable} {arena : Arena}
    (htable : FrameTable.init capacity = some table) (harena : Arena.init slab = some arena)
    (hcap : capacity ≤ framesMax) (hslab : slab.length ≤ framesMax * arenaBytesPerFrame) {uses : List Use}
    {s : Interner} (hs : Interner.useAll ⟨table, arena, []⟩ uses = some s) :
    (∀ name file line, s.table.RefusesClean s.arena name file line ↔
      ¬s.table.Splits s.arena (FrameTable.keyOf name file line)) ∧
    ∀ (calls : List (Bytes × Bytes × UInt32)) (s' : Interner),
      (∀ c ∈ calls, ¬s.table.Splits s.arena (FrameTable.keyOf c.1 c.2.1 c.2.2)) →
      s.useAll (internAll calls) = some s' → (∀ a ∈ s'.calls.drop s.calls.length, a.id = none) →
      s'.table.frames = s.table.frames ∧ s'.table.buckets = s.table.buckets ∧ s'.arena.used = s.arena.used := by
  obtain ⟨s₁, hs₁, hok⟩ := (Interner.ok_init htable harena hcap hslab).useAll uses
  obtain rfl : s = s₁ := Option.some.inj (hs.symm.trans hs₁)
  refine ⟨hok.valid.clean_iff, ?_⟩
  intro calls s' hsplits hrun hrefused
  have hsame := hok.sameRoom_run hsplits hrun hrefused
  exact ⟨hsame.frames, hsame.buckets, hsame.used⟩

/-! ## An arena that fills up

A name and a file of `frameNameMax` bytes take 656 bytes together. After 24 functions the smallest arena has 640
bytes left, which is enough for one more name and not for its file. -/

/-- The longest name that is stored. -/
def longName : Bytes := List.replicate frameNameMax 97

theorem length_longName : longName.length = frameNameMax := List.length_replicate

/-- Functions of one name in one file. -/
def longKey (line : Nat) : FrameKey := FrameTable.keyOf longName longName (.ofNat line)

def internLong (line : Nat) : Use := .intern longName longName (.ofNat line)

theorem longKey_name (line : Nat) : (longKey line).name.length = 320 := by
  rw [longKey, FrameTable.keyOf, List.length_take, length_longName]
  rfl

theorem longKey_file (line : Nat) : (longKey line).file.length = 320 := longKey_name line

/-- The arena after `k` of them. -/
structure Interner.Filled (s : Interner) (k : Nat) : Prop where
  ok : s.Ok
  capacity : s.table.capacity = framesMin
  count : s.table.frames.length = k
  keys : s.table.keys s.arena = (List.range k).map longKey
  cursor : s.arena.cursor = 656 * k
  size : s.arena.size = 16384

namespace Interner.Filled
variable {s : Interner} {k : Nat}

/-- The next function is not in the table yet. -/
theorem new (h : s.Filled k) (hk : k < 2 ^ 32) : longKey k ∉ s.table.keys s.arena := by
  rw [h.keys]
  intro hmem
  obtain ⟨line, hline, heq⟩ := List.mem_map.mp hmem
  have hlines : UInt32.ofNat line = UInt32.ofNat k := congrArg FrameKey.line heq
  have hlt := List.mem_range.mp hline
  have hnat := congrArg UInt32.toNat hlines
  rw [UInt32.toNat_ofNat', UInt32.toNat_ofNat', Nat.mod_eq_of_lt (by omega), Nat.mod_eq_of_lt hk] at hnat
  omega

/-- Behind the name. -/
theorem cursor_name (h : s.Filled k) : (s.arena.advance (320 + 1)).cursor = 656 * k + 328 := by
  show (s.arena.cursor + 321 + (8 - 1)) / 8 * 8 = _
  rw [h.cursor]
  omega

/-- Its name still fits. -/
theorem name_fits (h : s.Filled k) (hk : k ≤ 24) : s.arena.Fits (longKey k).name.length := by
  rw [longKey_name]
  show s.arena.cursor + (320 + 1) ≤ s.arena.size
  rw [h.cursor, h.size]
  omega

/-- Its file fits up to the twenty-fourth. -/
theorem file_fits_iff (h : s.Filled k) :
    (s.arena.advance ((longKey k).name.length + 1)).Fits (longKey k).file.length ↔ k < 24 := by
  rw [longKey_name, longKey_file]
  show (s.arena.advance (320 + 1)).cursor + (320 + 1) ≤ s.arena.size ↔ _
  rw [h.cursor_name, h.size]
  omega

theorem file_ne (k : Nat) : (longKey k).file ≠ [] := List.ne_nil_of_length_eq_add_one (longKey_file k)

/-- There is room for 24 of them. -/
theorem next (h : s.Filled k) (hk : k < 24) : ∃ s', s.use (internLong k) = some s' ∧ s'.Filled (k + 1) := by
  have hnew := h.new (by omega)
  have hroom : s.table.frames.length < s.table.capacity := by
    rw [h.count, h.capacity]
    unfold framesMin
    omega
  have hname : longName ≠ [] := List.ne_nil_of_length_eq_add_one length_longName
  obtain ⟨d, -, hintern, -, -⟩ := h.ok.valid.intern_new (by omega) hname hnew
  obtain ⟨hfull, -⟩ | ⟨-, -, hrefused, -⟩ | ⟨-, -, table, arena, hadd, hused⟩ :=
    @FrameTable.add_cases s.table s.arena (longKey k) (((longKey k).hash.toNat + d) % (s.table.bucketMask + 1))
      h.ok.valid.arena_valid (longKey_name k).le (longKey_file k).le hroom
  · exact absurd (h.name_fits (by omega)) hfull
  · exact absurd (h.file_fits_iff.mpr hk) hrefused
  · have hresult : s.table.intern s.arena longName longName (.ofNat k) =
        some (some s.table.frames.length, table, arena) := by
      rw [← hadd]
      exact hintern
    obtain ⟨r, hr, hinterned⟩ := h.ok.valid.intern longName longName (.ofNat k)
    obtain rfl := Option.some.inj (hr.symm.trans hresult)
    obtain ⟨s', hs', hok⟩ := h.ok.intern longName longName (.ofNat k)
    have hstep : s.use (internLong k) = some ⟨table, arena,
        s.calls ++ [⟨longName, longName, .ofNat k, some s.table.frames.length⟩]⟩ := by
      simp only [internLong, Interner.use, hresult]
    obtain rfl := Option.some.inj (hs'.symm.trans hstep)
    -- The call adds the function, whose two strings fill the arena to the next multiple of eight.
    refine ⟨_, hstep, ?_⟩
    cases hinterned with
    | found id hid =>
      exact absurd (List.mem_of_getElem? hid) hnew
    | added _ _ _ hvalid hgrows hcap hkeys _ =>
      have hcount := congrArg List.length hkeys
      rw [FrameTable.keys, List.length_map, h.keys, List.length_append, List.length_map, List.length_range] at hcount
      refine ⟨hok, hcap.trans h.capacity, hcount, ?_, ?_, hgrows.size_eq.trans h.size⟩
      · rw [hkeys, h.keys, List.range_succ, List.map_append]
        rfl
      · rw [if_neg (file_ne k), longKey_name, longKey_file, h.cursor_name] at hused
        show (arena.used + (8 - 1)) / 8 * 8 = _
        rw [hused]
        omega

/-- The 25th gets no number, and its name stays in the arena. -/
theorem split (h : s.Filled 24) : ∃ s', s.use (internLong 24) = some s' ∧ s'.Ok ∧
    longKey 24 ∉ s'.table.keys s'.arena ∧ s'.arena.used = 16065 ∧ s'.arena.size = 16384 := by
  have hnew := h.new (k := 24) (by decide)
  have hroom : s.table.frames.length < s.table.capacity := by
    rw [h.count, h.capacity]
    decide
  have hname : longName ≠ [] := List.ne_nil_of_length_eq_add_one length_longName
  obtain ⟨d, -, hintern, -, -⟩ := h.ok.valid.intern_new (by omega) hname hnew
  obtain ⟨hfull, -⟩ | ⟨-, -, -, arena, hadd, hused⟩ | ⟨-, hfile, -⟩ :=
    @FrameTable.add_cases s.table s.arena (longKey 24) (((longKey 24).hash.toNat + d) % (s.table.bucketMask + 1))
      h.ok.valid.arena_valid (longKey_name 24).le (longKey_file 24).le hroom
  · exact absurd (h.name_fits (Nat.le_refl _)) hfull
  -- The name is stored and the file is refused, so the name's bytes are lost.
  · have hresult : s.table.intern s.arena longName longName 24 = some (none, s.table.refuse, arena) := by
      rw [← hadd]
      exact hintern
    obtain ⟨s', hs', hok⟩ := h.ok.intern longName longName 24
    have hstep : s.use (internLong 24) = some ⟨s.table.refuse, arena, s.calls ++ [⟨longName, longName, 24, none⟩]⟩ := by
      show s.use (.intern longName longName 24) = _
      simp only [Interner.use, hresult]
    obtain rfl := Option.some.inj (hs'.symm.trans hstep)
    obtain ⟨r, hr, hinterned⟩ := h.ok.valid.intern longName longName 24
    obtain rfl := Option.some.inj (hr.symm.trans hresult)
    cases hinterned with
    | refused hits _ hgrows _ =>
      refine ⟨_, hstep, hok, ?_, ?_, hgrows.size_eq.trans h.size⟩
      · exact (h.ok.valid.keys_grows hgrows).symm ▸ hnew
      · rw [hused, h.cursor, longKey_name]
  · exact absurd (h.file_fits_iff.mp (hfile (file_ne 24))) (Nat.lt_irrefl _)

end Interner.Filled

/-- The smallest arena can be filled with up to twenty-four of these functions. -/
theorem exists_filled (k : Nat) (hk : k ≤ 24) :
    ∃ s, Interner.smallest.useAll ((List.range k).map internLong) = some s ∧ s.Filled k := by
  induction k with
  | zero =>
    refine ⟨Interner.smallest, rfl, ?_, rfl, rfl, rfl, rfl, Interner.slab_smallest⟩
    exact Interner.ok_init Interner.table_smallest Interner.arena_smallest (by decide) Interner.slab_smallest_le
  | succ k ih =>
    obtain ⟨s, hs, hfilled⟩ := ih (by omega)
    obtain ⟨s', hstep, hnext⟩ := hfilled.next hk
    refine ⟨s', ?_, hnext⟩
    rw [List.range_succ, List.map_append, List.map_singleton, Interner.useAll_append, hs]
    show (s.use (internLong k)).bind (Interner.useAll · []) = some s'
    rw [hstep]
    rfl

/-- The 25th comes back: it is refused again, now without a trace, as its name does not fit any more. -/
theorem refusesClean_iff_again : ∃ s,
    Interner.useAll ⟨Interner.smallest.table, Interner.smallest.arena, []⟩ ((List.range 25).map internLong) = some s ∧
      s.arena.used = 16065 ∧ (∃ t a, s.table.intern s.arena longName longName 24 = some (none, t, a)) ∧
      s.table.RefusesClean s.arena longName longName 24 := by
  obtain ⟨s, hs, hfilled⟩ := exists_filled 24 (Nat.le_refl _)
  obtain ⟨s', hstep, hok, hnew, hused, hsize⟩ := hfilled.split
  have hrun : Interner.useAll ⟨Interner.smallest.table, Interner.smallest.arena, []⟩
      ((List.range 25).map internLong) = some s' := by
    rw [List.range_succ, List.map_append, List.map_singleton, Interner.useAll_append]
    show (Interner.smallest.useAll _).bind _ = _
    rw [hs]
    show (s.use (internLong 24)).bind (Interner.useAll · []) = some s'
    rw [hstep]
    rfl
  have hname : ¬s'.arena.Fits (longKey 24).name.length := by
    rw [longKey_name, Arena.Fits, Arena.cursor, hused, hsize]
    decide
  -- The name does not fit any more, so the second call changes nothing.
  refine ⟨s', hrun, hused, ?_, ?_⟩
  · obtain ⟨⟨id, t, a⟩, hr, hinterned⟩ := hok.valid.intern longName longName 24
    cases hinterned with
    | refused hits _ _ _ => exact ⟨_, _, hr⟩
    | found _ hid => exact absurd (List.mem_of_getElem? hid) hnew
    | added _ _ _ _ hgrows _ _ hfilled =>
      have hover : 16384 < Arena.filled 16065 (longKey 24).strings := by decide +kernel
      have hinside := hgrows.valid.used_le
      rw [hfilled, hgrows.size_eq, hused, hsize] at hinside
      exact absurd hover (Nat.not_lt.mpr hinside)
  · exact ((refusesClean_iff Interner.table_smallest Interner.arena_smallest (by decide)
      Interner.slab_smallest_le hrun).1 longName longName 24).mpr fun hsplits => hname hsplits.name_fits

/-- **A name without its file**: the call gets no number, and the arena has less room than before. -/
theorem not_refusesClean_long :
    ∃ s, Interner.smallest.useAll ((List.range 24).map internLong) = some s ∧
      ¬s.table.RefusesClean s.arena longName longName 24 := by
  obtain ⟨s, hs, hfilled⟩ := exists_filled 24 (Nat.le_refl _)
  refine ⟨s, hs, fun hclean => (hfilled.ok.valid.clean_iff longName longName 24).mp hclean ?_⟩
  refine ⟨hfilled.new (by omega), ?_, ?_, Interner.Filled.file_ne 24, hfilled.name_fits (Nat.le_refl _), ?_⟩
  · rw [hfilled.count, hfilled.capacity]
    decide
  · exact List.ne_nil_of_length_eq_add_one (longKey_name 24)
  · exact fun hfits => absurd (hfilled.file_fits_iff.mp hfits) (Nat.lt_irrefl _)

end CboxTelemetry.Profiler
