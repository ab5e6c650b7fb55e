import CboxTelemetry.Extension.Forks
import CboxTelemetry.Extension.HookPromises
import CboxTelemetry.Extension.InFlight

/-!
# Calls through the hooks

A script calls internal functions one after the other, and a function can call PHP again before it returns.
`cbox_hook_handler` notes the beginning and the end of each call that is hooked around what the function does
itself; a bailout jumps past every end on its way out.

Between two calls the innermost slot is the one below the depth (`Tight`): every step of a worker keeps that, whatever
calls end in whatever order (`tight_of_run`). Inside a unit, a script that comes to its end leaves the slots of the operations as it has found them,
however deeply the calls were nested, and books each hooked call once. One that bails out leaves the slots of
the calls that it was in (`exec_nests`).
-/

namespace CboxTelemetry.Extension

variable {F A : Type*}

/-- What PHP does: nothing more, a bailout, or a call of a function, which itself runs `body`, and then the
`rest`. -/
inductive Script (F : Type*)
  | done
  | bail
  | call (f : F) (body rest : Script F)

/-- The module's globals, and how many times the clock has been read. -/
structure Scene where
  globals : Globals
  reads : Nat

section
variable (v : Hooked F A) (clock : Nat → UInt64)

/-- The type of operation that a handler measures. -/
def Hooked.opOf (index : Nat) : OpType := ((v.hooks index).map Hook.op).getD .none

/-- The handlers of a call around what the function does itself. The second value is whether control comes
back. -/
def throughHooks : List (ZifHandler F A) → (Scene → Scene × Bool) → Scene → Scene × Bool
  | [], body, s => body s
  | .cbox index :: called, body, s =>
    let begun := s.globals.noteOpBegin (v.opOf index) (clock s.reads)
    match throughHooks called body ⟨begun.2, s.reads + 1⟩ with
    | (s, true) => (⟨s.globals.noteOpEnd begun.1 (clock s.reads), s.reads + 1⟩, true)
    | (s, false) => (s, false)
  | .own _ :: called, body, s => throughHooks called body s
  | .other _ :: called, body, s => throughHooks called body s

/-- A script, with the handlers as they are in `v`. -/
def Script.exec (fuel : Nat) : Script F → Scene → Scene × Bool
  | .done, s => (s, true)
  | .bail, s => (s, false)
  | .call f body rest, s =>
    match throughHooks v clock ((v.call f fuel).getD []) (body.exec fuel) s with
    | (s, true) => rest.exec fuel s
    | (s, false) => (s, false)

/-- It comes to its end. -/
def Script.finishes : Script F → Bool
  | .done => true
  | .bail => false
  | .call _ body rest => body.finishes && rest.finishes

/-- The hooks of one type among some handlers. -/
def Hooked.layers (type : OpType) (called : List (ZifHandler F A)) : Nat :=
  called.countP fun h => h.index.map v.opOf = some type

/-- The hooked calls of one type that come back, when the functions have these wrappers. -/
def Script.booked (wrappers : F → List (ZifHandler F A)) (type : OpType) : Script F → Nat
  | .done | .bail => 0
  | .call f body rest =>
    if body.finishes then
      body.booked wrappers type + v.layers type (wrappers f) + rest.booked wrappers type
    else body.booked wrappers type

end

/-! ## Begin and end -/

/-- The slots above the depth are free, and the one below it is in use. -/
structure Tight (o : OpState) : Prop where
  depth_le : o.depth ≤ opStackMax
  free : ∀ slot f, o.depth ≤ slot → o.frames[slot]? = some f → f.type = .none
  used : 0 < o.depth → ∃ f, o.frames[o.depth - 1]? = some f ∧ f.type ≠ .none

/-- Between `o` and `o'` operations have begun, and those of before are still in their slots. -/
structure Above (o o' : OpState) : Prop where
  depth : o.depth ≤ o'.depth
  frames : ∀ slot, slot < o.depth → o'.frames[slot]? = o.frames[slot]?
  generation : o'.generation = o.generation

theorem Above.refl (o : OpState) : Above o o := ⟨le_rfl, fun _ _ => rfl, rfl⟩

/-- Being above is transitive. -/
theorem Above.trans {o o' o'' : OpState} (h : Above o o') (h' : Above o' o'') : Above o o'' where
  depth := h.depth.trans h'.depth
  frames slot hlt := (h'.frames slot (hlt.trans_le h.depth)).trans (h.frames slot hlt)
  generation := h'.generation.trans h.generation

/-- The innermost slot in use does not depend on what is above it. -/
theorem topFrom_of_used {frames : Vector OpFrame opStackMax} {n : Nat}
    (hused : 0 < n → ∃ f, frames[n - 1]? = some f ∧ f.type ≠ .none) : OpState.topFrom frames n = n := by
  cases n with
  | zero => rfl
  | succ n =>
    obtain ⟨f, hf, htype⟩ := hused (Nat.succ_pos n)
    rw [Nat.add_sub_cancel] at hf
    rw [OpState.topFrom, hf]
    exact if_neg htype

section
variable {o o' : OpState} {type : OpType} {now : UInt64}

/-- The begin of an operation keeps the slots tight, and goes above. -/
theorem Tight.opsBegin (h : Tight o) (type : OpType) (now : UInt64) :
    Tight (o.opsBegin type now).2 ∧ Above o (o.opsBegin type now).2 := by
  have htaken := slotTaken_opsBegin o type now
  have hgeneration := OpState.opsBegin_generation o type now
  generalize (o.opsBegin type now).2 = o' at htaken hgeneration
  generalize (o.opsBegin type now).1.slot = slot at htaken
  cases htaken with
  | nowhere _ hframes hdepth =>
    refine ⟨⟨?_, ?_, ?_⟩, ⟨hdepth.ge, ?_, hgeneration⟩⟩
    · rw [hdepth]
      exact h.depth_le
    · rw [hdepth, hframes]
      exact h.free
    · rw [hdepth, hframes]
      exact h.used
    · intro slot _
      rw [hframes]
  | top _ htype hroom hdepth hframes =>
    refine ⟨⟨?_, ?_, ?_⟩, ⟨?_, ?_, hgeneration⟩⟩
    · rw [hdepth]
      exact hroom
    · intro slot f hle hf
      rw [hdepth] at hle
      rw [hframes, if_neg (by omega)] at hf
      exact h.free slot f (by omega) hf
    · intro _
      refine ⟨⟨type, now⟩, ?_, htype⟩
      rw [hdepth, Nat.add_sub_cancel, hframes, if_pos rfl]
    · rw [hdepth]
      exact Nat.le_succ _
    · intro slot hlt
      rw [hframes, if_neg (Nat.ne_of_lt hlt)]

/-- Slots and generation are all that matters. -/
theorem Tight.congr (h : Tight o) (hframes : o'.frames = o.frames) (hdepth : o'.depth = o.depth) : Tight o' := by
  refine ⟨?_, ?_, ?_⟩
  · rw [hdepth]
    exact h.depth_le
  · rw [hdepth, hframes]
    exact h.free
  · rw [hdepth, hframes]
    exact h.used

/-- What the end of an operation releases. -/
theorem opsEnd_slots {token : OpToken} (later : UInt64) (htype : token.type ≠ .none)
    (hgeneration : token.generation = o.generation) :
    (o.opsEnd token later).frames = (o.release token.slot).frames ∧
      (o.opsEnd token later).depth = (o.release token.slot).depth := by
  unfold OpState.opsEnd
  rw [if_neg htype, if_neg (not_not.mpr hgeneration)]
  exact ⟨rfl, rfl⟩

/-- The slot that a begin has taken is let go of by its end, when everything above it has been. -/
theorem Tight.opsEnd (h : Tight o) {after : OpState} (hafter : Tight after)
    (habove : Above (o.opsBegin type now).2 after) (hdepth : after.depth = (o.opsBegin type now).2.depth)
    (later : UInt64) :
    Tight (after.opsEnd (o.opsBegin type now).1 later) ∧
      Above o (after.opsEnd (o.opsBegin type now).1 later) ∧
      (after.opsEnd (o.opsBegin type now).1 later).depth = o.depth := by
  have htaken := slotTaken_opsBegin o type now
  have hbegun := (h.opsBegin type now).2
  obtain ⟨htokenType, -, htokenGeneration⟩ := OpState.opsBegin_token o type now
  have hgeneration : (o.opsBegin type now).1.generation = after.generation :=
    htokenGeneration.trans (hbegun.generation.symm.trans habove.generation.symm)
  generalize (o.opsBegin type now).1 = token at htaken htokenType hgeneration ⊢
  generalize (o.opsBegin type now).2 = begun at htaken hbegun habove hdepth
  have hwhole := hbegun.trans habove
  by_cases htype : token.type = .none
  · -- nothing is measured
    rw [OpState.opsEnd_none htype]
    refine ⟨hafter, hwhole, ?_⟩
    generalize token.slot = slot at htaken
    cases htaken with
    | nowhere _ _ hsame => exact hdepth.trans hsame
    | top _ hne => exact absurd (htokenType.symm.trans htype) hne
  · obtain ⟨hframes, hend⟩ := opsEnd_slots later htype hgeneration
    have hkept : (after.opsEnd token later).generation = o.generation :=
      (OpState.opsEnd_generation after token later).trans hwhole.generation
    generalize after.opsEnd token later = ended at hframes hend hkept
    generalize hslot : token.slot = slot at htaken hframes hend
    cases htaken with
    | nowhere _ _ hsame =>
      refine ⟨hafter.congr hframes hend, ⟨?_, ?_, hkept⟩, hend.trans (hdepth.trans hsame)⟩
      · exact hwhole.depth.trans hend.ge
      · intro i hlt
        rw [hframes]
        exact hwhole.frames i hlt
    | top _ _ hroom hsame _ =>
      obtain ⟨hreleased, htop⟩ := release_slot after hroom
      -- the slot is free now, and the one below it is as it was
      have hbelow : ∀ i, i < o.depth → ended.frames[i]? = o.frames[i]? := by
        intro i hlt
        rw [hframes, hreleased, if_neg (Nat.ne_of_lt hlt)]
        exact hwhole.frames i hlt
      have hfree : (ended.frames[o.depth]?.map OpFrame.type).getD .none = .none := by
        rw [hframes, hreleased, if_pos rfl]
        cases after.frames[o.depth]? <;> rfl
      have hused : 0 < o.depth → ∃ f, ended.frames[o.depth - 1]? = some f ∧ f.type ≠ .none := by
        intro hpos
        rw [hbelow _ (by omega)]
        exact h.used hpos
      have hdepthEnd : ended.depth = o.depth := by
        rw [hend, htop, ← hframes, hdepth, hsame, OpState.topFrom, if_pos hfree]
        exact topFrom_of_used hused
      refine ⟨⟨?_, ?_, ?_⟩, ⟨hdepthEnd.ge, hbelow, hkept⟩, hdepthEnd⟩
      · rw [hdepthEnd]
        exact h.depth_le
      · intro i f hle hf
        rw [hdepthEnd] at hle
        rw [hframes, hreleased] at hf
        split at hf
        · obtain ⟨f', -, rfl⟩ := Option.map_eq_some_iff.mp hf
          rfl
        · exact hafter.free i f (by omega) hf
      · rw [hdepthEnd]
        exact hused

/-- Any end leaves the depth at the innermost slot that is in use. -/
theorem Tight.opsEnd_any (h : Tight o) (token : OpToken) (later : UInt64) : Tight (o.opsEnd token later) := by
  -- A token of another generation ends nothing.
  unfold OpState.opsEnd
  split
  · exact h
  · split
    · exact h
    · suffices hreleased : Tight (o.release token.slot) from hreleased.congr rfl rfl
      cases token.slot with
      | none => exact h
      | some slot =>
        by_cases hslot : slot < opStackMax
        · -- `cbox_ops_end` walks down from the depth, past the slots that are free.
          obtain ⟨hframes, htop⟩ := release_slot o hslot
          refine ⟨?_, ?_, ?_⟩
          · rw [htop]
            exact (topFrom_le _ _).trans h.depth_le
          · intro i f hle hf
            rw [htop] at hle
            by_cases hlt : i < o.depth
            · exact topFrom_free hle hlt hf
            · rw [hframes] at hf
              split at hf
              · obtain ⟨f', -, rfl⟩ := Option.map_eq_some_iff.mp hf
                rfl
              · exact h.free i f (Nat.not_lt.mp hlt) hf
          · rw [htop]
            exact topFrom_used
        · rw [OpState.release, dif_neg hslot]
          exact h

/-- Where a unit opens. -/
theorem tight_cleared : Tight .cleared where
  depth_le := Nat.zero_le _
  free _ _ _ hf := Slots.type_of_cleared rfl hf
  used hpos := absurd hpos (Nat.lt_irrefl 0)

/-- The slots stay tight. -/
theorem Tight.step {w w' : Worker} {a : Action} (h : Tight w.globals.ops) (hstep : WorkerSteps w a w') :
    Tight w'.globals.ops := by
  cases hhook : a.isHook with
  | true =>
    cases a with
    | opBegin type now =>
      cases hstep
      show Tight (w.globals.noteOpBegin type now).2.ops
      unfold Globals.noteOpBegin
      simp only
      split
      · exact (h.opsBegin type now).1
      · exact h
    | opEnd call now =>
      simp only [WorkerSteps, Worker.step] at hstep
      split at hstep
      · next token _ =>
        cases hstep
        show Tight (w.globals.noteOpEnd token now).ops
        rw [(noteOpEnd_eq w.globals token now).2.2]
        split
        · exact h.opsEnd_any token now
        · exact h
      · cases hstep
    | _ => cases hhook
  | false =>
    -- Everything else clears the operations or leaves them alone.
    obtain ⟨-, k, -, heffect⟩ := unitEffect_step hstep hhook
    cases heffect with
    | kept _ hops _ _ _ _ =>
      rw [hops]
      exact h
    | closed _ _ _ hops _ _ =>
      rw [hops]
      exact tight_cleared.congr rfl rfl
    | opened _ _ _ hops _ _ _ =>
      rw [hops]
      exact tight_cleared.congr rfl rfl

/-- **Every worker keeps its slots tight**, whatever it does and in whatever order its calls end. -/
theorem tight_of_run {ini : Ini} {io : StartupIo} {pid : Int} {as : List Action} {w : Worker}
    (hrun : Run WorkerSteps (startedWorker ini io pid) as w) : Tight w.globals.ops := by
  have hstart : Tight (startedWorker ini io pid).globals.ops := by
    rw [show (startedWorker ini io pid).globals.ops = .cleared from (booted_minit ini io pid).ops_eq]
    exact tight_cleared
  exact @Run.invariant _ _ _ _ _ _ (fun w : Worker => Tight w.globals.ops) (fun _ _ _ h hs => h.step hs) hstart hrun

end

/-! ## Scripts -/

section
variable {v : Hooked F A} {clock : Nat → UInt64} {fuel : Nat}

/-- What a script has done to the operations of a unit: those of before are in their slots, `booked` calls of
each type have been booked, and if control has come back no other slot is in use. -/
structure Nested (booked : OpType → Nat) (s s' : Scene) (back : Bool) : Prop where
  unit : s'.globals.unit = s.globals.unit
  above : Above s.globals.ops s'.globals.ops
  count : ∀ type, type ≠ .none →
    (s'.globals.ops.agg type).count = (s.globals.ops.agg type).count + UInt32.ofNat (booked type)
  restored : back = true → Tight s'.globals.ops ∧ s'.globals.ops.depth = s.globals.ops.depth

/-- Nothing nests in itself. -/
theorem Nested.refl (s : Scene) {back : Bool} (h : back = true → Tight s.globals.ops) :
    Nested (fun _ => 0) s s back where
  unit := rfl
  above := .refl _
  count type _ := by simp
  restored hb := ⟨h hb, rfl⟩

/-- What nests in sequence nests. -/
theorem Nested.trans {booked booked' : OpType → Nat} {s s' s'' : Scene} {back : Bool}
    (h : Nested booked s s' true) (h' : Nested booked' s' s'' back) :
    Nested (fun type => booked type + booked' type) s s'' back where
  unit := h'.unit.trans h.unit
  above := h.above.trans h'.above
  count type htype := by
    rw [h'.count type htype, h.count type htype, UInt32.ofNat_add, UInt32.add_assoc]
  restored hb := ⟨(h'.restored hb).1, (h'.restored hb).2.trans (h.restored rfl).2⟩

/-- A hooked call around something that nests. -/
theorem Nested.layer {booked : OpType → Nat} {s after : Scene} {back : Bool} {type : OpType} {reads : Nat}
    (hopen : s.globals.unit.handle ≠ 0) (htight : Tight s.globals.ops) (now later : UInt64)
    (h : Nested booked ⟨(s.globals.noteOpBegin type now).2, reads⟩ after back) :
    Nested booked s after false ∧
      (back = true → Nested (fun t => booked t + if type = t then 1 else 0) s
        ⟨after.globals.noteOpEnd (s.globals.noteOpBegin type now).1 later, after.reads + 1⟩ true) := by
  have htoken : (s.globals.noteOpBegin type now).1 = (s.globals.ops.opsBegin type now).1 := by
    simp [Globals.noteOpBegin, Globals.pushCrumb, hopen]
  have hbegun : (s.globals.noteOpBegin type now).2.ops = (s.globals.ops.opsBegin type now).2 := by
    simp [Globals.noteOpBegin_frame, hopen]
  have hunit : (s.globals.noteOpBegin type now).2.unit = s.globals.unit := by
    simp [Globals.noteOpBegin_frame]
  obtain ⟨-, hbeginAbove⟩ := htight.opsBegin type now
  -- Nothing comes between the begin and the end but what goes above the begin.
  have habove := h.above
  have hcount := h.count
  simp only [hbegun] at habove hcount
  simp only [OpState.opsBegin_agg] at hcount
  refine ⟨⟨h.unit.trans hunit, hbeginAbove.trans habove, hcount, fun hb => by cases hb⟩, ?_⟩
  intro hback
  obtain ⟨hafter, hdepth⟩ := h.restored hback
  simp only [hbegun] at hdepth
  have hopen' : after.globals.unit.handle ≠ 0 := by
    rw [h.unit.trans hunit]
    exact hopen
  have hended : (after.globals.noteOpEnd (s.globals.noteOpBegin type now).1 later).ops =
      after.globals.ops.opsEnd (s.globals.ops.opsBegin type now).1 later := by
    simp [Globals.noteOpEnd_frame, hopen', htoken]
  have hunitEnd : (after.globals.noteOpEnd (s.globals.noteOpBegin type now).1 later).unit =
      after.globals.unit := by
    simp [Globals.noteOpEnd_frame]
  obtain ⟨htightEnd, haboveEnd, hdepthEnd⟩ := htight.opsEnd hafter habove hdepth later
  refine ⟨hunitEnd.trans (h.unit.trans hunit), ?_, ?_, fun _ => ?_⟩
  · simp only [hended]
    exact haboveEnd
  · intro t ht
    simp only [hended]
    obtain ⟨htokenType, -, htokenGeneration⟩ := OpState.opsBegin_token s.globals.ops type now
    -- The call's own time is booked on its type, and the others have what the body booked.
    by_cases hnone : type = .none
    · rw [OpState.opsEnd_none (htokenType.trans hnone), hcount t ht, if_neg (hnone ▸ Ne.symm ht)]
      rfl
    · have hgeneration : (s.globals.ops.opsBegin type now).1.generation = after.globals.ops.generation :=
        htokenGeneration.trans ((hbeginAbove.trans habove).generation.symm)
      rw [OpState.opsEnd_agg (fun hsame => hnone (htokenType.symm.trans hsame)) hgeneration, htokenType]
      by_cases heq : type = t
      · subst heq
        rw [Function.update_self, if_pos rfl, UInt32.ofNat_add]
        simp only [OpAgg.book, hcount type ht, UInt32.add_assoc]
        rfl
      · rw [Function.update_of_ne (Ne.symm heq), if_neg heq, hcount t ht]
        rfl
  · simp only [hended]
    exact ⟨htightEnd, hdepthEnd⟩

variable (v clock) in
/-- A call of a function, hooked or not, around something that nests. -/
theorem throughHooks_nests {body : Scene → Scene × Bool} {booked : OpType → Nat} {back : Bool}
    (hbody : ∀ s : Scene, s.globals.unit.handle ≠ 0 → Tight s.globals.ops →
      (body s).2 = back ∧ Nested booked s (body s).1 back)
    (called : List (ZifHandler F A)) {s : Scene} (hopen : s.globals.unit.handle ≠ 0)
    (htight : Tight s.globals.ops) :
    (throughHooks v clock called body s).2 = back ∧
      Nested (fun t => if back then booked t + v.layers t called else booked t) s
        (throughHooks v clock called body s).1 back := by
  induction called generalizing s with
  | nil =>
    obtain ⟨hback, hnested⟩ := hbody s hopen htight
    refine ⟨hback, ?_⟩
    simpa [throughHooks, Hooked.layers] using hnested
  | cons h called ih =>
    cases h with
    | own f | other a => simpa [throughHooks, Hooked.layers, ZifHandler.index] using ih hopen htight
    | cbox index =>
      -- The hook begins an operation, and the rest of the chain runs inside it.
      have hbegun : (s.globals.noteOpBegin (v.opOf index) (clock s.reads)).2.ops =
          (s.globals.ops.opsBegin (v.opOf index) (clock s.reads)).2 := by
        simp [Globals.noteOpBegin_frame, hopen]
      have hunit : (s.globals.noteOpBegin (v.opOf index) (clock s.reads)).2.unit = s.globals.unit := by
        simp [Globals.noteOpBegin_frame]
      have hinner := ih (s := ⟨(s.globals.noteOpBegin (v.opOf index) (clock s.reads)).2, s.reads + 1⟩)
        (by rw [hunit]; exact hopen) (by rw [hbegun]; exact (htight.opsBegin _ _).1)
      simp only [throughHooks]
      generalize throughHooks v clock called body
        ⟨(s.globals.noteOpBegin (v.opOf index) (clock s.reads)).2, s.reads + 1⟩ = result at hinner
      obtain ⟨after, ended⟩ := result
      obtain ⟨hended, hnested⟩ := hinner
      simp only at hended hnested
      subst hended
      obtain ⟨hbailed, hback⟩ := Nested.layer hopen htight (clock s.reads) (clock after.reads) hnested
      cases ended with
      | false => exact ⟨rfl, hbailed⟩
      | true =>
        refine ⟨rfl, ?_⟩
        have hlayers : ∀ t, v.layers t (.cbox index :: called) =
            v.layers t called + if v.opOf index = t then 1 else 0 := by
          intro t
          simp [Hooked.layers, List.countP_cons, ZifHandler.index]
        simpa only [hlayers, if_true, Nat.add_assoc] using hback rfl

variable [DecidableEq F] [DecidableEq A] {e : Engine F} {as : List (HookAction F A)}

/-- **Hooked calls nest.** Whatever hooks and other wrappers there are, a script that runs inside a unit
leaves the unit open and the slots of the operations before it in place; it books each hooked call that comes
back once, for its own type; and if it comes to its end, all the slots that its calls have used are free
again, however deeply they were nested. -/
theorem exec_nests (hv : HookRun e (.blank e) as v)
    (hfuel : ∀ f, ((Wrapped.after e as).wrappers f).length < fuel) (script : Script F) {s : Scene}
    (hopen : s.globals.unit.handle ≠ 0) (htight : Tight s.globals.ops) :
    (script.exec v clock fuel s).2 = script.finishes ∧
      Nested (fun type => script.booked v (Wrapped.after e as).wrappers type) s
        (script.exec v clock fuel s).1 script.finishes := by
  -- The layers are those of the function's stack.
  have hcalled : ∀ (type : OpType) f, v.layers type ((v.call f fuel).getD []) =
      v.layers type ((Wrapped.after e as).wrappers f) := by
    intro type f
    have hrep := Hooked.represents_after hv
    cases hf : e.native f with
    | true =>
      rw [hrep.call hf (hfuel f), Option.getD_some]
      simp [Hooked.layers, List.countP_append, ZifHandler.index]
    | false =>
      rw [(hrep.bare f hf).2]
      cases hcall : v.call f fuel with
      | none => rfl
      | some called =>
        have hempty := hrep.call_unique hcall
        simp only [hf, Bool.false_eq_true, if_false] at hempty
        subst hempty
        rfl
  induction script generalizing s with
  | done => exact ⟨rfl, .refl s fun _ => htight⟩
  | bail => exact ⟨rfl, .refl s fun hb => by cases hb⟩
  | call f body rest ihBody ihRest =>
    have hcall := throughHooks_nests v clock (fun s hs ht => ihBody hs ht) ((v.call f fuel).getD []) hopen
      htight
    simp only [Script.exec, Script.finishes, Script.booked]
    generalize throughHooks v clock ((v.call f fuel).getD []) (body.exec v clock fuel) s = result at hcall
    obtain ⟨after, back⟩ := result
    obtain ⟨hback, hnested⟩ := hcall
    simp only at hback hnested
    subst hback
    cases hb : body.finishes with
    | false =>
      rw [hb] at hnested
      simpa using hnested
    | true =>
      rw [hb] at hnested
      obtain ⟨hafter, hdepth⟩ := hnested.restored rfl
      have hopen' : after.globals.unit.handle ≠ 0 := by
        -- A body that comes back leaves the unit open for the rest of the script.
        rw [hnested.unit]
        exact hopen
      obtain ⟨hend, hrest⟩ := ihRest hopen' hafter
      have hwhole := hnested.trans hrest
      simp only [if_true, hcalled] at hwhole
      exact ⟨by simpa using hend, by simpa using hwhole⟩

end

/-! ## Nested calls -/

/-- `curl_exec` calls PHP back, which connects to a database. -/
def nestedScript : Script Nat := .call 0 (.call 1 .done .done) .done

/-- A worker whose unit is in a call runs the script, and is in that call again. -/
theorem exec_nests_nested : ∃ (v : Hooked Nat Nat) (w : Worker),
    HookRun smallEngine (.blank smallEngine) wrappedTwice v ∧
      Run WorkerSteps (startedWorker autoIni plainStartup 100)
        [.rinit none (callAt ⟨5, by decide⟩), .opBegin .streamConnect 6] w ∧
      w.globals.ops.depth = 1 ∧
      (nestedScript.exec v (fun n => UInt64.ofNat n) 9 ⟨w.globals, 0⟩).2 = true ∧
      (nestedScript.exec v (fun n => UInt64.ofNat n) 9 ⟨w.globals, 0⟩).1.globals.ops.depth = 1 := by
  obtain ⟨v, hrun⟩ := run_wrappedTwice
  obtain ⟨-, hcurl, hpdo⟩ := wrappers_wrappedTwice
  have hfuel : ∀ f, ((Wrapped.after smallEngine wrappedTwice).wrappers f).length < 9 := by
    -- No stack is higher than the fuel.
    intro f
    rcases f with _ | _ | f
    · rw [hcurl]
      decide
    · rw [hpdo]
      decide
    · rw [((Hooked.represents_after hrun).bare (f + 2) (by simp [smallEngine])).2]
      decide
  have hworker : ∃ w, Run WorkerSteps (startedWorker autoIni plainStartup 100)
      [.rinit none (callAt ⟨5, by decide⟩), .opBegin .streamConnect 6] w ∧ w.globals.unit.handle ≠ 0 ∧
        w.globals.ops.depth = 1 :=
    ⟨_, .cons rfl (.single rfl), by decide +kernel⟩
  obtain ⟨w, hw, hopen, hdepth⟩ := hworker
  obtain ⟨hback, hnested⟩ := exec_nests hrun hfuel nestedScript (s := ⟨w.globals, 0⟩) hopen (tight_of_run hw)
  exact ⟨v, w, hrun, hw, hdepth, hback, (hnested.restored rfl).2.trans hdepth⟩

end CboxTelemetry.Extension
