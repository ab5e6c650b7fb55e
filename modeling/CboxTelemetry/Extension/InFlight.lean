import CboxTelemetry.Extension.Accounting
import CboxTelemetry.Extension.Slots

/-!
# Operations in flight

The slots of the operations are for the crash record. An operation that gets one keeps it until it ends, and
operations can end in any order, so there are holes. The slots in use are those of the calls in flight
(`Slotted`), the later call in the higher slot, and so the record reports the last one (`Slotted.current`).
-/

namespace CboxTelemetry.Extension

/-! ## The invariant -/

/-- A call that has a slot in the operations as they are now, and has not ended. -/
structure InFlight (w : Worker) (h : History) (call slot : Nat) (op : Begun) : Prop where
  token : ∃ t, w.calls[call]? = some (some t) ∧ t.slot = some slot
  begun : h.begun[call]? = some op
  recent : op.resets = h.resets

/-- The slots in use are those of the calls in flight, in the order in which they began. -/
structure Slotted (w : Worker) (h : History) : Prop where
  depth_le : w.globals.ops.depth ≤ opStackMax
  free : ∀ slot f, w.globals.ops.depth ≤ slot → w.globals.ops.frames[slot]? = some f → f.type = .none
  held : ∀ call slot op, InFlight w h call slot op →
    w.globals.ops.frames[slot]? = some ⟨op.type, op.startNs⟩ ∧ op.type ≠ .none
  owned : ∀ slot f, w.globals.ops.frames[slot]? = some f → f.type ≠ .none → ∃ call op, InFlight w h call slot op
  ordered : ∀ call slot op call' slot' op', InFlight w h call slot op → InFlight w h call' slot' op' →
    call < call' → slot < slot'

variable {w w' : Worker} {h : History} {a : Action}

/-- The calls in flight are those that hold the slots. -/
def Holds (w : Worker) (h : History) (call slot : Nat) (f : OpFrame) : Prop :=
  ∃ op, InFlight w h call slot op ∧ f = ⟨op.type, op.startNs⟩

/-- A call has one slot. -/
theorem InFlight.slot_unique {call slot slot' : Nat} {op op' : Begun} (hcall : InFlight w h call slot op)
    (hcall' : InFlight w h call slot' op') : slot = slot' := by
  obtain ⟨t, ht, hslot⟩ := hcall.token
  obtain ⟨t', ht', hslot'⟩ := hcall'.token
  rw [ht] at ht'
  cases ht'
  exact Option.some.inj (hslot.symm.trans hslot')

/-- The slots of the worker. -/
theorem Slotted.slots (hs : Slotted w h) : Slots w.globals.ops (Holds w h) where
  depth_le := hs.depth_le
  free := hs.free
  held := by
    rintro call slot _ ⟨op, hcall, rfl⟩
    exact hs.held call slot op hcall
  owned := by
    intro slot f hf hused
    obtain ⟨call, op, hcall⟩ := hs.owned slot f hf hused
    exact ⟨call, op, hcall, Option.some.inj (hf.symm.trans (hs.held call slot op hcall).1)⟩
  ordered := by
    rintro _ _ _ _ _ _ ⟨_, hcall, -⟩ ⟨_, hcall', -⟩ hlt
    exact hs.ordered _ _ _ _ _ _ hcall hcall' hlt
  single := by
    rintro _ _ _ _ _ ⟨_, hcall, -⟩ ⟨_, hcall', -⟩
    exact hcall.slot_unique hcall'

/-- And back. -/
theorem Slots.slotted (hs : Slots w.globals.ops (Holds w h)) : Slotted w h where
  depth_le := hs.depth_le
  free := hs.free
  held call slot op hcall := hs.held call slot _ ⟨op, hcall, rfl⟩
  owned := by
    intro slot f hf hused
    obtain ⟨call, op, hcall, -⟩ := hs.owned slot f hf hused
    exact ⟨call, op, hcall⟩
  ordered call slot op call' slot' op' hcall hcall' :=
    hs.ordered call slot _ call' slot' _ ⟨op, hcall, rfl⟩ ⟨op', hcall', rfl⟩

/-- **What the record reports**: the last call in flight, or nothing. -/
theorem Slotted.current (hs : Slotted w h) {call slot : Nat} {op : Begun} (hcall : InFlight w h call slot op)
    (hlast : ∀ call' slot' op', InFlight w h call' slot' op' → call' ≤ call) :
    w.globals.ops.opsCurrent = op.type ∧ w.globals.ops.opsCurrentStart = op.startNs := by
  refine hs.slots.current ⟨op, hcall, rfl⟩ ?_
  rintro call' slot' _ ⟨op', hcall', -⟩
  exact hlast call' slot' op' hcall'

/-- With nothing in flight there is no operation. -/
theorem Slotted.current_none (hs : Slotted w h) (hnone : ∀ call slot op, ¬InFlight w h call slot op) :
    w.globals.ops.opsCurrent = .none := by
  refine (hs.slots.current_none ?_).1
  rintro call slot _ ⟨op, hcall, -⟩
  exact hnone call slot op hcall

/-! ## A call begins -/

/-- The begin of an operation takes a slot, or none. -/
theorem slotTaken_noteOpBegin (g : Globals) (type : OpType) (now : UInt64) :
    SlotTaken g.ops type now (g.noteOpBegin type now).1.slot (g.noteOpBegin type now).2.ops := by
  unfold Globals.noteOpBegin
  simp only
  split
  · exact slotTaken_opsBegin g.ops type now
  · exact .nowhere _ rfl rfl

/-- The calls in flight after one has begun. -/
theorem inFlight_opBegin (hlength : w.calls.length = h.begun.length) {type : OpType} {now : UInt64}
    (hstep : WorkerSteps w (.opBegin type now) w') {call slot : Nat} {op : Begun} :
    InFlight w' (h.noteCalls w (.opBegin type now) w') call slot op ↔ InFlight w h call slot op ∨
      call = w.calls.length ∧ (w.globals.noteOpBegin type now).1.slot = some slot ∧
        op = ⟨type, now, h.current w.globals, h.resets⟩ := by
  cases hstep
  have hcalls : ∀ t, (w.calls ++ [some (w.globals.noteOpBegin type now).1])[call]? = some (some t) ↔
      w.calls[call]? = some (some t) ∨ call = w.calls.length ∧ (w.globals.noteOpBegin type now).1 = t := by
    intro t
    rw [getElem?_snoc, Option.some.injEq]
  have hbegun : (h.begun ++ [⟨type, now, h.current w.globals, h.resets⟩])[call]? = some op ↔
      h.begun[call]? = some op ∨ call = w.calls.length ∧ op = ⟨type, now, h.current w.globals, h.resets⟩ := by
    rw [getElem?_snoc, hlength, eq_comm (a := op)]
  constructor
  -- The token and the entry in the books stand at the same place.
  · rintro ⟨⟨t, ht, hslot⟩, hop, hrecent⟩
    rcases (hcalls t).mp ht with hold | ⟨hlast, rfl⟩
    · rcases hbegun.mp hop with holdOp | ⟨hlast, -⟩
      · exact .inl ⟨⟨t, hold, hslot⟩, holdOp, hrecent⟩
      · rw [hlast, List.getElem?_eq_none (Nat.le_refl _)] at hold
        cases hold
    · rcases hbegun.mp hop with holdOp | ⟨-, rfl⟩
      · rw [hlast, hlength, List.getElem?_eq_none (Nat.le_refl _)] at holdOp
        cases holdOp
      · exact .inr ⟨hlast, hslot, rfl⟩
  · rintro (⟨⟨t, ht, hslot⟩, hop, hrecent⟩ | ⟨hlast, hslot, rfl⟩)
    · exact ⟨⟨t, (hcalls t).mpr (.inl ht), hslot⟩, hbegun.mpr (.inl hop), hrecent⟩
    · exact ⟨⟨_, (hcalls _).mpr (.inr ⟨hlast, rfl⟩), hslot⟩, hbegun.mpr (.inr ⟨hlast, rfl⟩), rfl⟩

/-- A call in flight has been begun. -/
theorem InFlight.lt_length {call slot : Nat} {op : Begun} (hcall : InFlight w h call slot op) :
    call < w.calls.length := by
  obtain ⟨t, ht, -⟩ := hcall.token
  exact (List.getElem?_eq_some_iff.mp ht).1

/-- The begin of an operation keeps the slots. -/
theorem Slotted.opBegin (hs : Slotted w h) (hlength : w.calls.length = h.begun.length) {type : OpType}
    {now : UInt64} (hstep : WorkerSteps w (.opBegin type now) w') :
    Slotted w' (h.noteCalls w (.opBegin type now) w') := by
  have hin : ∀ {call slot op}, InFlight w' (h.noteCalls w (.opBegin type now) w') call slot op ↔ _ :=
    inFlight_opBegin hlength hstep
  have htaken := slotTaken_noteOpBegin w.globals type now
  have hops : w'.globals.ops = (w.globals.noteOpBegin type now).2.ops := by
    cases hstep
    rfl
  rw [← hops] at htaken
  have hnext : ∀ call slot f, Holds w h call slot f → call < w.calls.length := by
    rintro call slot _ ⟨op, hcall, -⟩
    exact hcall.lt_length
  apply Slots.slotted
  refine (hs.slots.taken htaken hnext).congr fun call slot f => ?_
  constructor
  · rintro ⟨op, hcall, rfl⟩
    rcases hin.mp hcall with hold | ⟨hlast, hslot, rfl⟩
    · exact .inl ⟨op, hold, rfl⟩
    · exact .inr ⟨hlast, hslot, rfl⟩
  · rintro (⟨op, hold, rfl⟩ | ⟨hlast, hslot, rfl⟩)
    · exact ⟨op, hin.mpr (.inl hold), rfl⟩
    · exact ⟨_, hin.mpr (.inr ⟨hlast, hslot, rfl⟩), rfl⟩

/-! ## A call ends -/

/-- The end of an operation is noted. -/
theorem noteCalls_opEnd (h : History) (w w' : Worker) (call : Nat) (now : UInt64) :
    (h.noteCalls w (.opEnd call now) w').begun = h.begun ∧
      (h.noteCalls w (.opEnd call now) w').resets = h.resets := by
  unfold History.noteCalls
  simp only
  split <;> exact ⟨rfl, rfl⟩

/-- The calls in flight after one has ended. -/
theorem inFlight_opEnd {call : Nat} {now : UInt64} (hstep : WorkerSteps w (.opEnd call now) w')
    {call' slot : Nat} {op : Begun} : InFlight w' (h.noteCalls w (.opEnd call now) w') call' slot op ↔
      InFlight w h call' slot op ∧ call' ≠ call := by
  obtain ⟨hbegun, hresets⟩ := noteCalls_opEnd h w w' call now
  have hcalls : w'.calls = w.calls.set call none := by
    simp only [WorkerSteps, Worker.step] at hstep
    split at hstep
    · cases hstep
      rfl
    · cases hstep
  constructor
  -- The token of the call is gone, and nothing else changes.
  · rintro ⟨⟨t, ht, hslot⟩, hop, hrecent⟩
    rw [hcalls, List.getElem?_set] at ht
    split at ht
    · split at ht <;> cases ht
    · next hne =>
      rw [hbegun] at hop
      rw [hresets] at hrecent
      exact ⟨⟨⟨t, ht, hslot⟩, hop, hrecent⟩, Ne.symm hne⟩
  · rintro ⟨⟨⟨t, ht, hslot⟩, hop, hrecent⟩, hne⟩
    refine ⟨⟨t, ?_, hslot⟩, ?_, ?_⟩
    · rw [hcalls, List.getElem?_set_ne (Ne.symm hne)]
      exact ht
    · rwa [hbegun]
    · rwa [hresets]

/-- As long as there is no unit, no call is in flight. -/
theorem Slotted.none_of_closed (hs : Slotted w h) (hsteady : Steady w.globals) (hclosed : w.globals.unit.handle = 0)
    (call slot : Nat) (op : Begun) : ¬InFlight w h call slot op := by
  intro hcall
  obtain ⟨hframe, hused⟩ := hs.held call slot op hcall
  exact hused ((hsteady.closed hclosed).idle.free hframe)

/-- The end of an operation keeps the slots. -/
theorem Slotted.opEnd (hs : Slotted w h) (hacc : Accounted w h) (hsteady : Steady w.globals) {call : Nat}
    {now : UInt64} (hrecent : EndsRecent (w, h) (.opEnd call now)) (hstep : WorkerSteps w (.opEnd call now) w') :
    Slotted w' (h.noteCalls w (.opEnd call now) w') := by
  have hin : ∀ call' slot f, Holds w' (h.noteCalls w (.opEnd call now) w') call' slot f ↔
      Holds w h call' slot f ∧ call' ≠ call := by
    intro call' slot f
    constructor
    · rintro ⟨op, hcall, rfl⟩
      obtain ⟨hold, hne⟩ := (inFlight_opEnd hstep).mp hcall
      exact ⟨⟨op, hold, rfl⟩, hne⟩
    · rintro ⟨⟨op, hold, rfl⟩, hne⟩
      exact ⟨op, (inFlight_opEnd hstep).mpr ⟨hold, hne⟩, rfl⟩
  apply Slots.slotted
  simp only [WorkerSteps, Worker.step] at hstep
  split at hstep
  · next t hcall =>
    have hw' := Option.some.inj hstep
    obtain ⟨op, hop, htoken⟩ := hacc.token call t hcall
    obtain ⟨-, -, hops⟩ := noteOpEnd_eq w.globals t now
    replace hops : w'.globals.ops = if w.globals.unit.handle ≠ 0 then w.globals.ops.opsEnd t now
        else w.globals.ops := by
      rw [← hw', ← hops]
    -- The call is in flight and lets go of its slot.
    by_cases hheld : ∃ slot, InFlight w h call slot op
    · obtain ⟨slot, hthis⟩ := hheld
      have hused := (hs.held call slot op hthis).2
      have hopen : w.globals.unit.handle ≠ 0 := fun hclosed =>
        hs.none_of_closed hsteady hclosed call slot op hthis
      have hnow : t.generation = w.globals.ops.generation := by
        rw [htoken.generation_eq, hthis.recent, hacc.generation_eq]
      have hslot : t.slot = some slot := by
        obtain ⟨t', ht', hslot⟩ := hthis.token
        rw [hcall] at ht'
        cases ht'
        exact hslot
      obtain ⟨hframes, hdepth⟩ : w'.globals.ops.frames = (w.globals.ops.release (some slot)).frames ∧
          w'.globals.ops.depth = (w.globals.ops.release (some slot)).depth := by
        rw [hops, if_pos hopen, OpState.opsEnd, if_neg (by rwa [htoken.type_eq]), if_neg (not_not.mpr hnow), hslot]
        exact ⟨rfl, rfl⟩
      exact (hs.slots.released ⟨op, hthis, rfl⟩ hframes hdepth).congr hin
    · -- A call without a slot, or of an earlier unit: the slots stay as they are.
      obtain ⟨hframes, hdepth⟩ : w'.globals.ops.frames = w.globals.ops.frames ∧
          w'.globals.ops.depth = w.globals.ops.depth := by
        rw [hops]
        split
        · unfold OpState.opsEnd
          split
          · exact ⟨rfl, rfl⟩
          · split
            · exact ⟨rfl, rfl⟩
            · next hnow =>
              have hresets := hacc.resets_eq hrecent hop htoken (not_not.mp hnow)
              have hnowhere : t.slot = none := by
                cases hslot : t.slot with
                | none => rfl
                | some slot => exact absurd ⟨slot, ⟨t, hcall, hslot⟩, hop, hresets⟩ hheld
              rw [hnowhere]
              exact ⟨rfl, rfl⟩
        · exact ⟨rfl, rfl⟩
      have hnowhere : ∀ slot f, ¬Holds w h call slot f := by
        rintro slot _ ⟨op', hcall', -⟩
        have hsame : op' = op := Option.some.inj (hcall'.begun.symm.trans hop)
        exact hheld ⟨slot, hsame ▸ hcall'⟩
      exact ((hs.slots.dropped hnowhere).kept hframes hdepth).congr hin
  · cases hstep

/-! ## Other steps -/

/-- After a reset no call is in flight. -/
theorem Slotted.cleared {h' : History} (hacc : Accounted w h) {k : Nat} (hpos : 0 < k)
    (hops : w'.globals.ops = w.globals.ops.clearedAfter k) (hbegun : h'.begun = h.begun)
    (hresets : h'.resets = h.resets + k) : Slotted w' h' := by
  have hnone : ∀ {call slot op}, ¬InFlight w' h' call slot op := by
    intro call slot op hcall
    have hold := hcall.begun
    rw [hbegun] at hold
    have hle := (hacc.begun op (List.mem_of_getElem? hold)).resets_le
    have heq := hcall.recent
    omega
  apply Slots.slotted
  rw [hops]
  refine .empty rfl (fun _ _ hf => Slots.type_of_cleared rfl hf) ?_
  rintro call slot f ⟨op, hcall, -⟩
  exact hnone hcall

/-- So does everything else. -/
theorem Slotted.other (hs : Slotted w h) (hacc : Accounted w h) (hhook : a.isHook = false)
    (hstep : WorkerSteps w a w') : Slotted w' (h.noteCalls w a w') := by
  obtain ⟨hcalls, k, hk, heffect⟩ := unitEffect_step hstep hhook
  rw [note_other hhook]
  generalize hw' : w'.globals = g' at heffect
  cases heffect with
  | kept _ hops _ _ _ _ =>
    subst hw'
    have hsame : ∀ {call slot op}, InFlight w' { h with
        units := if w'.globals.nextHandle = w.globals.nextHandle then h.units else h.units + 1
        resets := h.resets + (w'.globals.ops.generation - w.globals.ops.generation).toNat } call slot op ↔
          InFlight w h call slot op := by
      intro call slot op
      rw [hops, UInt32.sub_self]
      constructor
      · rintro ⟨⟨t, ht, hslot⟩, hop, hrecent⟩
        rw [hcalls] at ht
        exact ⟨⟨t, ht, hslot⟩, hop, hrecent⟩
      · rintro ⟨⟨t, ht, hslot⟩, hop, hrecent⟩
        rw [← hcalls] at ht
        exact ⟨⟨t, ht, hslot⟩, hop, hrecent⟩
    refine ⟨?_, ?_, fun call slot op hcall => ?_, fun slot f hf hused => ?_, fun _ _ _ _ _ _ hcall hcall' =>
      hs.ordered _ _ _ _ _ _ (hsame.mp hcall) (hsame.mp hcall')⟩
    · rw [hops]
      exact hs.depth_le
    · rw [hops]
      exact hs.free
    · rw [hops]
      exact hs.held _ _ _ (hsame.mp hcall)
    · rw [hops] at hf
      obtain ⟨call, op, hcall⟩ := hs.owned slot f hf hused
      exact ⟨call, op, hsame.mpr hcall⟩
  | closed _ _ hpos hops _ _ =>
    subst hw'
    exact .cleared hacc hpos hops rfl (by rw [hops, resets_clearedAfter _ hk])
  | opened _ _ hpos hops _ _ _ =>
    subst hw'
    exact .cleared hacc hpos hops rfl (by rw [hops, resets_clearedAfter _ hk])

/-- The parts of a history that no breadcrumb changes. -/
theorem Slotted.of_noteCalls (hs : Slotted w' (h.noteCalls w a w')) : Slotted w' (h.note w a w') := by
  have hsame : ∀ {call slot op}, InFlight w' (h.note w a w') call slot op ↔
      InFlight w' (h.noteCalls w a w') call slot op :=
    ⟨fun ⟨ht, hop, hrecent⟩ => ⟨ht, hop, hrecent⟩, fun ⟨ht, hop, hrecent⟩ => ⟨ht, hop, hrecent⟩⟩
  refine ⟨hs.depth_le, hs.free, fun _ _ _ hcall => hs.held _ _ _ (hsame.mp hcall), fun slot f hf hused => ?_,
    fun _ _ _ _ _ _ hcall hcall' => hs.ordered _ _ _ _ _ _ (hsame.mp hcall) (hsame.mp hcall')⟩
  obtain ⟨call, op, hcall⟩ := hs.owned slot f hf hused
  exact ⟨call, op, hsame.mpr hcall⟩

/-- **Every step keeps the slots with their calls.** -/
theorem Slotted.step {s s' : Worker × History} (hs : Slotted s.1 s.2) (hacc : Accounted s.1 s.2)
    (hsteady : Steady s.1.globals) (hstep : Guarded EndsRecent HistorySteps s a s') : Slotted s'.1 s'.2 := by
  obtain ⟨w, h⟩ := s
  obtain ⟨w', h'⟩ := s'
  obtain ⟨hrecent, hw, hnote⟩ := hstep
  have hnote : h' = h.note w a w' := hnote
  subst hnote
  apply Slotted.of_noteCalls
  cases hhook : a.isHook with
  | false => exact hs.other hacc hhook hw
  | true =>
    cases a with
    | opBegin type now => exact hs.opBegin hacc.length_eq hw
    | opEnd call now => exact hs.opEnd hacc hsteady hrecent hw
    | _ => cases hhook

end CboxTelemetry.Extension
