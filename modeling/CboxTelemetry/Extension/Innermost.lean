import CboxTelemetry.Extension.Slots
import CboxTelemetry.Lib.Run

/-!
# The innermost operation

Operations begin and end in any order after a reset: some never end, some find no slot, and calls that were
running at the reset end late. Whatever comes, the operations of this generation that have a slot have it to
themselves, and the one that began last is what the crash record reports (`innermost_of_run`).
-/

namespace CboxTelemetry.Extension

/-! ## Runs of the operations -/

/-- An operation that has begun since the reset. The token is gone once the operation has ended. -/
structure OpCall where
  type : OpType
  startNs : UInt64
  token : Option OpToken
  deriving DecidableEq

/-- The operations since a reset, in the order in which they began. -/
structure OpsRun where
  ops : OpState
  calls : List OpCall

/-- `endLate` is for a token that an operation of an earlier generation has kept. -/
inductive OpEvent
  | begin (type : OpType) (now : UInt64)
  | endOf (call : Nat) (now : UInt64)
  | endLate (token : OpToken) (now : UInt64)

/-- Every token is ended at most once. -/
inductive OpsSteps : OpsRun → OpEvent → OpsRun → Prop
  | begin (r : OpsRun) (type : OpType) (now : UInt64) :
      OpsSteps r (.begin type now)
        ⟨(r.ops.opsBegin type now).2, r.calls ++ [⟨type, now, some (r.ops.opsBegin type now).1⟩]⟩
  | endOf (r : OpsRun) (call : Nat) (now : UInt64) (c : OpCall) (token : OpToken) :
      r.calls[call]? = some c → c.token = some token →
      OpsSteps r (.endOf call now) ⟨r.ops.opsEnd token now, r.calls.set call { c with token := none }⟩
  | endLate (r : OpsRun) (token : OpToken) (now : UInt64) : token.generation ≠ r.ops.generation →
      OpsSteps r (.endLate token now) ⟨r.ops.opsEnd token now, r.calls⟩

/-- The operation `call` has not ended, and has `slot`. -/
structure OpsRun.Outstanding (r : OpsRun) (call slot : Nat) (c : OpCall) : Prop where
  call : r.calls[call]? = some c
  token : ∃ t, c.token = some t ∧ t.slot = some slot

/-- What the slots are for. -/
structure OpsRun.Innermost (r : OpsRun) : Prop where
  depth_le : r.ops.depth ≤ opStackMax
  below : ∀ call slot c, r.Outstanding call slot c → slot < r.ops.depth
  distinct : ∀ call slot c call' slot' c', r.Outstanding call slot c → r.Outstanding call' slot' c' →
    call ≠ call' → slot ≠ slot'
  current : ∀ call slot c, r.Outstanding call slot c →
    (∀ call' slot' c', r.Outstanding call' slot' c' → call' ≤ call) →
    r.ops.opsCurrent = c.type ∧ r.ops.opsCurrentStart = c.startNs
  idle : (r.ops.opsCurrent = .none ∧ r.ops.opsCurrentStart = 0) ↔ ∀ call slot c, ¬r.Outstanding call slot c

/-! ## The invariant -/

/-- The outstanding operations hold the slots. -/
def OpsRun.Holds (r : OpsRun) (call slot : Nat) (f : OpFrame) : Prop :=
  ∃ c, r.Outstanding call slot c ∧ f = ⟨c.type, c.startNs⟩

structure OpsRun.Ok (r : OpsRun) : Prop where
  slots : Slots r.ops r.Holds
  tokens : ∀ (call : Nat) (c : OpCall) (t : OpToken), r.calls[call]? = some c → c.token = some t →
    t.type = c.type ∧ t.generation = r.ops.generation

namespace OpsRun.Ok
variable {r r' : OpsRun}

/-- **The invariant is what the slots are for.** -/
theorem innermost (h : r.Ok) : r.Innermost where
  depth_le := h.slots.depth_le
  below call slot c hcall := h.slots.below ⟨c, hcall, rfl⟩
  distinct := by
    rintro call slot c call' slot' c' hcall hcall' hne rfl
    exact hne (h.slots.unique ⟨c, hcall, rfl⟩ ⟨c', hcall', rfl⟩)
  current := by
    intro call slot c hcall hlast
    refine h.slots.current ⟨c, hcall, rfl⟩ ?_
    rintro call' slot' _ ⟨c', hcall', -⟩
    exact hlast call' slot' c' hcall'
  idle := by
    constructor
    · rintro ⟨hnone, -⟩ call slot c hcall
      exact h.slots.current_ne_none ⟨c, hcall, rfl⟩ hnone
    · intro hnone
      refine h.slots.current_none ?_
      rintro call slot _ ⟨c, hcall, -⟩
      exact hnone call slot c hcall

/-- The begin of an operation keeps the run right. -/
theorem begin (h : r.Ok) (type : OpType) (now : UInt64) :
    OpsRun.Ok ⟨(r.ops.opsBegin type now).2, r.calls ++ [⟨type, now, some (r.ops.opsBegin type now).1⟩]⟩ where
  slots := by
    have hnext : ∀ call slot f, r.Holds call slot f → call < r.calls.length := by
      rintro call slot _ ⟨c, hcall, -⟩
      exact (List.getElem?_eq_some_iff.mp hcall.call).1
    refine (h.slots.taken (slotTaken_opsBegin r.ops type now) hnext).congr fun call slot f => ?_
    constructor
    · rintro ⟨c, ⟨hcall, t, ht, hslot⟩, rfl⟩
      rcases getElem?_snoc.mp hcall with hold | ⟨hlast, rfl⟩
      · exact .inl ⟨c, ⟨hold, t, ht, hslot⟩, rfl⟩
      · cases ht
        exact .inr ⟨hlast, hslot, rfl⟩
    · rintro (⟨c, hcall, rfl⟩ | ⟨rfl, hslot, rfl⟩)
      · exact ⟨c, ⟨getElem?_snoc.mpr (.inl hcall.call), hcall.token⟩, rfl⟩
      · exact ⟨_, ⟨getElem?_snoc.mpr (.inr ⟨rfl, rfl⟩), _, rfl, hslot⟩, rfl⟩
  tokens := by
    intro call c t hcall ht
    show _ ∧ t.generation = (r.ops.opsBegin type now).2.generation
    rw [OpState.opsBegin_generation]
    rcases getElem?_snoc.mp hcall with hold | ⟨-, rfl⟩
    · exact h.tokens call c t hold ht
    · cases ht
      obtain ⟨htype, -, hgeneration⟩ := OpState.opsBegin_token r.ops type now
      exact ⟨htype, hgeneration⟩

/-- The others are still outstanding. -/
theorem holds_ended (r : OpsRun) (call : Nat) (c : OpCall) (ops : OpState) (call' slot : Nat) (f : OpFrame) :
    OpsRun.Holds ⟨ops, r.calls.set call { c with token := none }⟩ call' slot f ↔
      r.Holds call' slot f ∧ call' ≠ call := by
  constructor
  · rintro ⟨c', ⟨hcall', t, ht, hslot⟩, rfl⟩
    rw [List.getElem?_set] at hcall'
    split at hcall'
    · split at hcall' <;> cases hcall'
      cases ht
    · next hne => exact ⟨⟨c', ⟨hcall', t, ht, hslot⟩, rfl⟩, Ne.symm hne⟩
  · rintro ⟨⟨c', hold, rfl⟩, hne⟩
    refine ⟨c', ⟨?_, hold.token⟩, rfl⟩
    show (r.calls.set call { c with token := none })[call']? = some c'
    rw [List.getElem?_set_ne (Ne.symm hne)]
    exact hold.call

/-- So does its end. -/
theorem endOf (h : r.Ok) {call : Nat} {c : OpCall} {token : OpToken} (hcall : r.calls[call]? = some c)
    (htoken : c.token = some token) (now : UInt64) :
    OpsRun.Ok ⟨r.ops.opsEnd token now, r.calls.set call { c with token := none }⟩ where
  slots := by
    obtain ⟨htype, hgeneration⟩ := h.tokens call c token hcall htoken
    have hheld : ∀ slot f, r.Holds call slot f → token.slot = some slot := by
      rintro slot _ ⟨c', ⟨hcall', t, ht, hslot⟩, -⟩
      obtain rfl := Option.some.inj (hcall.symm.trans hcall')
      obtain rfl := Option.some.inj (htoken.symm.trans ht)
      exact hslot
    -- An operation of no type was never in a slot.
    by_cases hnone : token.type = .none
    · rw [OpState.opsEnd_none hnone]
      refine (h.slots.dropped fun slot f hthis => ?_).congr (holds_ended r call c _)
      obtain ⟨c', hcall', rfl⟩ := hthis
      obtain rfl := Option.some.inj (hcall.symm.trans hcall'.call)
      exact (h.slots.held call slot _ ⟨c, hcall', rfl⟩).2 (htype.symm.trans hnone)
    · have hended : (r.ops.opsEnd token now).frames = (r.ops.release token.slot).frames ∧
          (r.ops.opsEnd token now).depth = (r.ops.release token.slot).depth := by
        rw [OpState.opsEnd, if_neg hnone, if_neg (not_not.mpr hgeneration)]
        exact ⟨rfl, rfl⟩
      refine Slots.congr ?_ (holds_ended r call c _)
      cases hslot : token.slot with
      | none =>
        rw [hslot] at hended
        refine (h.slots.dropped fun slot f hthis => ?_).kept hended.1 hended.2
        rw [hheld slot f hthis] at hslot
        cases hslot
      | some slot =>
        rw [hslot] at hended
        exact h.slots.released ⟨c, ⟨hcall, token, htoken, hslot⟩, rfl⟩ hended.1 hended.2
  tokens := by
    intro call' c' t hcall' ht
    show _ ∧ t.generation = (r.ops.opsEnd token now).generation
    rw [OpState.opsEnd_generation]
    have hcall' : (r.calls.set call { c with token := none })[call']? = some c' := hcall'
    rw [List.getElem?_set] at hcall'
    split at hcall'
    · split at hcall' <;> cases hcall'
      cases ht
    · exact h.tokens call' c' t hcall' ht

/-- Each event keeps the run right. -/
theorem step {e : OpEvent} (h : r.Ok) (hstep : OpsSteps r e r') : r'.Ok := by
  cases hstep with
  | begin type now => exact h.begin type now
  | endOf call now c token hcall htoken => exact h.endOf hcall htoken now
  | endLate token now hlate =>
    rw [OpState.opsEnd_stale hlate]
    exact h

end OpsRun.Ok

/-- **The innermost operation.** After any begins and ends since a reset, the operations that have not ended and
have a slot have slots of their own below the depth, and what the crash record reports is the last one of them
that began. -/
theorem innermost_of_run (s : OpState) {events : List OpEvent} {r : OpsRun}
    (hrun : Run OpsSteps ⟨s.opsReset, []⟩ events r) : r.Innermost := by
  have hfree : ∀ (slot : Nat) (f : OpFrame), s.opsReset.frames[slot]? = some f → f.type = .none :=
    fun _ _ hf => Slots.type_of_cleared rfl hf
  have hnone : ∀ call slot f, ¬OpsRun.Holds ⟨s.opsReset, []⟩ call slot f := by
    rintro call slot f ⟨c, hcall, -⟩
    cases hcall.call
  have hstart : OpsRun.Ok ⟨s.opsReset, []⟩ := ⟨.empty rfl hfree hnone, fun _ _ _ hcall => by cases hcall⟩
  exact OpsRun.Ok.innermost (hrun.invariant (fun _ _ _ => OpsRun.Ok.step) hstart)

/-- Two operations, of which the first ends first, and the late end of one from before the reset. -/
def interleaved : List OpEvent :=
  [.begin .curlExec 5, .begin .pdoConnect 7, .endOf 0 9, .endLate ⟨.redisConnect, 1, some 1, 0⟩ 11]

theorem innermost_of_run_interleaved :
    ∃ r, Run OpsSteps ⟨OpState.cleared.opsReset, []⟩ interleaved r ∧ r.Innermost := by
  have hbegun : ∃ r, Run OpsSteps ⟨OpState.cleared.opsReset, []⟩ [.begin .curlExec 5, .begin .pdoConnect 7] r ∧
      (∃ c token, r.calls[0]? = some c ∧ c.token = some token) ∧ r.ops.generation = 1 := by
    refine ⟨_, .cons (.begin _ _ _) (.single (.begin _ _ _)), ⟨_, _, rfl, rfl⟩, ?_⟩
    simp only [OpState.opsBegin_generation]
    rfl
  obtain ⟨r₂, hbegins, ⟨c, token, hcall, htoken⟩, hgeneration⟩ := hbegun
  -- The end of an operation does not start a new generation, so the token of generation 0 is late.
  have hlate : (0 : UInt32) ≠ (r₂.ops.opsEnd token 9).generation := by
    rw [OpState.opsEnd_generation, hgeneration]
    decide
  have hends := Run.cons (OpsSteps.endOf r₂ 0 9 c token hcall htoken)
    (.single (.endLate _ ⟨.redisConnect, 1, some 1, 0⟩ 11 hlate))
  have hrun : ∃ r, Run OpsSteps ⟨OpState.cleared.opsReset, []⟩ interleaved r := ⟨_, hbegins.append hends⟩
  obtain ⟨r, hrun⟩ := hrun
  exact ⟨r, hrun, innermost_of_run OpState.cleared hrun⟩

end CboxTelemetry.Extension
