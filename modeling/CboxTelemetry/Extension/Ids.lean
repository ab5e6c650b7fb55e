import CboxTelemetry.Extension.Unit
import CboxTelemetry.Extension.CrashEntry

/-!
# Trace and span ids

What a string says is an id does not depend on how it is decoded: it has as many digits as the id needs, of
either case, and they are not all zero (`IsId`). A decoder that gives up half way leaves bytes behind, but no
flag, and the encoder writes the digits that were read in lower case.
-/

namespace CboxTelemetry.Extension

/-! ## Digits -/

/-- A hexadecimal digit, of either case. -/
def IsHexDigit (c : UInt8) : Prop := 48 ≤ c ∧ c ≤ 57 ∨ 65 ≤ c ∧ c ≤ 70 ∨ 97 ≤ c ∧ c ≤ 102

instance (c : UInt8) : Decidable (IsHexDigit c) := inferInstanceAs (Decidable (_ ∨ _))

/-- A letter in lower case. -/
def lowerChar (c : UInt8) : UInt8 := if 65 ≤ c ∧ c ≤ 90 then c + 32 else c

/-- A string that is an id of `n` bytes. -/
structure IsId (n : Nat) (hex : Bytes) : Prop where
  length_eq : hex.length = n * 2
  digits : ∀ c ∈ hex, IsHexDigit c
  nonzero : ∃ c ∈ hex, c ≠ 48

/-- What may be reported when a string, or none, has been given for an id. -/
structure Reports (n : Nat) (given reported : Option Bytes) : Prop where
  id : ∀ hex, given = some hex → IsId n hex → reported = some (hex.map lowerChar)
  no_id : (∀ hex, given = some hex → ¬IsId n hex) → reported = none

/-- What is read of a digit. -/
structure DigitRead (c v : UInt8) : Prop where
  digit : IsHexDigit c
  small : v.toNat < 16
  encoded : hexDigit v = lowerChar c
  zero_iff : v = 0 ↔ c = 48

instance (c v : UInt8) : Decidable (DigitRead c v) :=
  decidable_of_iff (IsHexDigit c ∧ v.toNat < 16 ∧ hexDigit v = lowerChar c ∧ (v = 0 ↔ c = 48))
    ⟨fun ⟨h₁, h₂, h₃, h₄⟩ => ⟨h₁, h₂, h₃, h₄⟩, fun h => ⟨h.digit, h.small, h.encoded, h.zero_iff⟩⟩

/-- A digit has a value, and nothing else has. -/
theorem hexValue_spec (c : UInt8) : (∀ v ∈ hexValue c, DigitRead c v) ∧ (hexValue c = none → ¬IsHexDigit c) := by
  have hall : ∀ i < 256, (∀ v ∈ hexValue (.ofNat i), DigitRead (.ofNat i) v) ∧
      (hexValue (.ofNat i) = none → ¬IsHexDigit (.ofNat i)) := by decide +kernel
  have hc := hall c.toNat c.toNat_lt
  rwa [UInt8.ofNat_toNat] at hc

/-- A digit has a value. -/
theorem hexValue_of_digit {c : UInt8} (h : IsHexDigit c) : ∃ v, hexValue c = some v := by
  cases hvalue : hexValue c with
  | some v => exact ⟨v, rfl⟩
  | none => exact absurd h ((hexValue_spec c).2 hvalue)

/-- The two halves of a byte. -/
theorem halves_of_small {hi lo : UInt8} (hhi : hi.toNat < 16) (hlo : lo.toNat < 16) :
    (hi <<< 4 ||| lo) >>> 4 = hi ∧ (hi <<< 4 ||| lo) &&& 0x0f = lo ∧ (hi <<< 4 ||| lo = 0 ↔ hi = 0 ∧ lo = 0) := by
  have hall : ∀ i < 16, ∀ j < 16, let hi : UInt8 := .ofNat i; let lo : UInt8 := .ofNat j
      (hi <<< 4 ||| lo) >>> 4 = hi ∧ (hi <<< 4 ||| lo) &&& 0x0f = lo ∧
        (hi <<< 4 ||| lo = 0 ↔ hi = 0 ∧ lo = 0) := by decide +kernel
  have hhalves := hall hi.toNat hhi lo.toNat hlo
  simp only [UInt8.ofNat_toNat] at hhalves
  exact hhalves

/-! ## Decoding -/

/-- Byte `j` of an id is the one that its two digits say. -/
structure ByteRead (hex : Bytes) (j : Nat) (byte : UInt8) : Prop where
  digits : IsHexDigit (hex.getD (j * 2) 0) ∧ IsHexDigit (hex.getD (j * 2 + 1) 0)
  encoded : [hexDigit (byte >>> 4), hexDigit (byte &&& 0x0f)] =
    [hex.getD (j * 2) 0, hex.getD (j * 2 + 1) 0].map lowerChar
  zero_iff : byte = 0 ↔ ∀ c ∈ [hex.getD (j * 2) 0, hex.getD (j * 2 + 1) 0], c = 48

theorem byteRead_of_hexValue {hex : Bytes} {j : Nat} {hi lo : UInt8}
    (hhi : hexValue (hex.getD (j * 2) 0) = some hi) (hlo : hexValue (hex.getD (j * 2 + 1) 0) = some lo) :
    ByteRead hex j (hi <<< 4 ||| lo) := by
  have hhi := (hexValue_spec _).1 hi hhi
  have hlo := (hexValue_spec _).1 lo hlo
  obtain ⟨hupper, hlower, hzero⟩ := halves_of_small hhi.small hlo.small
  refine ⟨⟨hhi.digit, hlo.digit⟩, ?_, ?_⟩
  · rw [hupper, hlower, hhi.encoded, hlo.encoded]
    rfl
  · rw [hzero, hhi.zero_iff, hlo.zero_iff, List.forall_mem_cons, List.forall_mem_singleton]

variable {n : Nat} {hex : Bytes}

/-- **The loop** goes to the end if and only if there are only digits, and then has read every byte. -/
theorem hexDecodeFrom_spec (hex : Bytes) (out : Vector UInt8 n) (i : Nat) :
    ((hexDecodeFrom hex out i).1 = true ↔
      ∀ j, i ≤ j → j < n → IsHexDigit (hex.getD (j * 2) 0) ∧ IsHexDigit (hex.getD (j * 2 + 1) 0)) ∧
    ((hexDecodeFrom hex out i).1 = true → ∀ j byte, (hexDecodeFrom hex out i).2[j]? = some byte →
      (j < i → out[j]? = some byte) ∧ (i ≤ j → ByteRead hex j byte)) := by
  fun_induction hexDecodeFrom hex out i with
  | case1 out i hlt hi lo hlo hhi ih =>
    obtain ⟨hiff, hread⟩ := ih
    have hbyte := byteRead_of_hexValue hhi hlo
    refine ⟨hiff.trans ⟨fun h j hle hj => ?_, fun h j hle hj => h j (Nat.le_of_succ_le hle) hj⟩,
      fun hdone j byte hget => ?_⟩
    · obtain rfl | hlater := Nat.eq_or_lt_of_le hle
      · exact hbyte.digits
      · exact h j hlater hj
    · obtain ⟨hbefore, hafter⟩ := hread hdone j byte hget
      -- Later bytes of the loop leave the one that has been set.
      refine ⟨fun hj => ?_, fun hle => ?_⟩
      · have hkept := hbefore (Nat.lt_succ_of_lt hj)
        rwa [Vector.getElem?_set_ne hlt (Nat.ne_of_gt hj)] at hkept
      · obtain rfl | hlater := Nat.eq_or_lt_of_le hle
        · have hset := hbefore (Nat.lt_succ_self i)
          rw [Vector.getElem?_set_self] at hset
          cases hset
          exact hbyte
        · exact hafter hlater
  | case2 out i hlt hno =>
    refine ⟨iff_of_false nofun fun h => ?_, nofun⟩
    obtain ⟨hhi, hlo⟩ := h i (Nat.le_refl i) hlt
    obtain ⟨hi, hhi⟩ := hexValue_of_digit hhi
    obtain ⟨lo, hlo⟩ := hexValue_of_digit hlo
    exact hno hi lo hhi hlo
  | case3 out i hge =>
    refine ⟨iff_of_true rfl fun j hle hj => absurd hj (by omega), fun _ j byte hget => ⟨fun _ => hget, fun hle => ?_⟩⟩
    obtain ⟨hj, -⟩ := Vector.getElem?_eq_some_iff.mp hget
    omega

/-- The digits of a string, two at a time. -/
theorem flatMap_pairs (h : hex.length = n * 2) :
    (List.range n).flatMap (fun j => [hex.getD (j * 2) 0, hex.getD (j * 2 + 1) 0]) = hex := by
  induction n generalizing hex with
  | zero =>
    rw [Nat.zero_mul, List.length_eq_zero_iff] at h
    rw [h]
    rfl
  | succ n ih =>
    match hex, h with
    | hi :: lo :: rest, h =>
      have hrest : rest.length = n * 2 := by
        simp only [List.length_cons] at h
        omega
      rw [List.range_succ_eq_map, List.flatMap_cons, List.flatMap_map]
      -- The pairs after the first are those of the rest.
      have hnext : (fun j => [(hi :: lo :: rest).getD (j.succ * 2) 0, (hi :: lo :: rest).getD (j.succ * 2 + 1) 0]) =
          fun j => [rest.getD (j * 2) 0, rest.getD (j * 2 + 1) 0] := by
        funext j
        rw [Nat.succ_mul]
        rfl
      rw [hnext, ih hrest]
      rfl
    | [], h => simp only [List.length_nil] at h; omega
    | [_], h => simp only [List.length_cons, List.length_nil] at h; omega

/-- The digits of a string, by index. -/
theorem forall_mem_pairs (h : hex.length = n * 2) (P : UInt8 → Prop) :
    (∀ c ∈ hex, P c) ↔ ∀ j < n, ∀ c ∈ [hex.getD (j * 2) 0, hex.getD (j * 2 + 1) 0], P c := by
  conv_lhs => rw [← flatMap_pairs h]
  simp only [List.mem_flatMap, List.mem_range]
  exact ⟨fun hall j hj c hc => hall c ⟨j, hj, hc⟩, fun hall c ⟨j, hj, hc⟩ => hall j hj c hc⟩

/-- What a decoded id is. -/
structure Decoded (hex : Bytes) (out : Vector UInt8 n) : Prop where
  length_eq : hex.length = n * 2
  bytes : ∀ j byte, out[j]? = some byte → ByteRead hex j byte

/-- The decoder takes a string of digits that has the right length, and no other. -/
theorem hexDecode_spec (hex : Bytes) (out : Vector UInt8 n) :
    ((hexDecode hex out).1 = true ↔ hex.length = n * 2 ∧ ∀ c ∈ hex, IsHexDigit c) ∧
    ((hexDecode hex out).1 = true → Decoded hex (hexDecode hex out).2) := by
  unfold hexDecode
  split
  · next hlength => exact ⟨iff_of_false nofun fun h => hlength h.1, nofun⟩
  · next hlength =>
    have hlength : hex.length = n * 2 := not_not.mp hlength
    obtain ⟨hiff, hread⟩ := hexDecodeFrom_spec hex out 0
    refine ⟨?_, fun hdone => ⟨hlength, fun j byte hget => (hread hdone j byte hget).2 (Nat.zero_le j)⟩⟩
    rw [hiff, forall_mem_pairs hlength, and_iff_right hlength]
    simp only [Nat.zero_le, true_implies, List.forall_mem_cons, List.not_mem_nil, false_implies, implies_true,
      and_true]

theorem Decoded.encode {out : Vector UInt8 n} (h : Decoded hex out) : hexEncode out = hex.map lowerChar := by
  have hbytes : out.toList = (List.range n).map fun j => out.toList.getD j 0 := by
    refine List.ext_getElem (by simp) fun j hj _ => ?_
    rw [List.getElem_map, List.getElem_range, List.getD_eq_getElem?_getD, List.getElem?_eq_getElem hj]
    rfl
  unfold hexEncode
  conv_rhs => rw [← flatMap_pairs h.length_eq]
  rw [hbytes, List.flatMap_map, List.map_flatMap]
  refine List.flatMap_congr fun j hj => ?_
  have hj : j < n := List.mem_range.mp hj
  have hget : out[j]? = some (out.toList.getD j 0) := by
    rw [← Vector.getElem?_toList, List.getD_eq_getElem?_getD, List.getElem?_eq_getElem (by rwa [Vector.length_toList])]
    rfl
  exact (h.bytes j _ hget).encoded

theorem Decoded.zero_iff {out : Vector UInt8 n} (h : Decoded hex out) :
    bytesAreZero out = true ↔ ∀ c ∈ hex, c = 48 := by
  rw [bytesAreZero, List.all_eq_true, forall_mem_pairs h.length_eq]
  constructor
  · intro hzero j hj c hc
    have hget : out[j]? = some out[j] := Vector.getElem?_eq_getElem hj
    have hbyte : out[j] = 0 := beq_iff_eq.mp (hzero _ (Vector.mem_toList_iff.mpr (Vector.getElem_mem hj)))
    exact (h.bytes j _ hget).zero_iff.mp hbyte c hc
  · intro hdigits byte hmem
    obtain ⟨j, hj, rfl⟩ := Vector.mem_iff_getElem.mp (Vector.mem_toList_iff.mp hmem)
    rw [beq_iff_eq, (h.bytes j _ (Vector.getElem?_eq_getElem hj)).zero_iff]
    exact hdigits j hj

/-- **The flag of an id**: the check of `cbox_unit_apply_trace` is passed by the ids. -/
theorem accepted_iff (hex : Bytes) (out : Vector UInt8 n) :
    ((hexDecode hex out).1 && !bytesAreZero (hexDecode hex out).2) = true ↔ IsId n hex := by
  obtain ⟨hiff, hdecoded⟩ := hexDecode_spec hex out
  rw [Bool.and_eq_true, Bool.not_eq_true']
  constructor
  · rintro ⟨hdone, hzero⟩
    obtain ⟨hlength, hdigits⟩ := hiff.mp hdone
    refine ⟨hlength, hdigits, ?_⟩
    by_contra hnone
    push Not at hnone
    rw [(hdecoded hdone).zero_iff.mpr hnone] at hzero
    cases hzero
  · rintro ⟨hlength, hdigits, c, hc, hne⟩
    have hdone := hiff.mpr ⟨hlength, hdigits⟩
    refine ⟨hdone, eq_false_of_ne_true fun hzero => ?_⟩
    exact hne ((hdecoded hdone).zero_iff.mp hzero c hc)

/-- An id that is accepted is reported in lower case. -/
theorem encode_of_isId (h : IsId n hex) (out : Vector UInt8 n) :
    hexEncode (hexDecode hex out).2 = hex.map lowerChar := by
  obtain ⟨hiff, hdecoded⟩ := hexDecode_spec hex out
  exact (hdecoded (hiff.mpr ⟨h.length_eq, h.digits⟩)).encode

namespace Reports

theorem accepted (h : IsId n hex) : Reports n (some hex) (some (hex.map lowerChar)) where
  id _ hgiven _ := by
    cases hgiven
    rfl
  no_id hno := absurd h (hno hex rfl)

theorem refused (h : ¬IsId n hex) : Reports n (some hex) none where
  id _ hgiven hid := by
    cases hgiven
    exact absurd hid h
  no_id _ := rfl

/-- Without a string, an id that was not there before is not there after. -/
theorem unset {flag : Bool} (hunset : flag = false) (encoded : Bytes) :
    Reports n none (if flag then some encoded else none) where
  id _ hgiven := by cases hgiven
  no_id _ := by rw [hunset, if_neg Bool.false_ne_true]

end Reports

/-! ## The ids of a unit -/

/-- What a record of the unit reports. -/
def UnitState.traceReported (unit : UnitState) : Option Bytes :=
  if unit.hasTrace then some (hexEncode unit.traceId) else none

def UnitState.spanReported (unit : UnitState) : Option Bytes :=
  if unit.hasSpan then some (hexEncode unit.spanId) else none

/-- The string that a context has for a key. -/
def givenString (context : Option Context) (key : String) : Option Bytes :=
  match contextFind (context.getD []) key with
  | some (.string bytes) => some bytes
  | _ => none

/-- The ids of a unit are those of a context. -/
structure UnitState.Traced (unit : UnitState) (context : Option Context) : Prop where
  trace : Reports traceIdBytes (givenString context "trace_id") unit.traceReported
  span : Reports spanIdBytes (givenString context "span_id") unit.spanReported

namespace UnitState
variable {unit : UnitState}

/-- The trace id of a unit that has none. -/
theorem trace_applyTraceId (hnone : unit.hasTrace = false) (context : Context) :
    Reports traceIdBytes (givenString (some context) "trace_id")
      (unit.applyTraceId (contextFind context "trace_id")).traceReported := by
  unfold givenString applyTraceId traceReported
  simp only [Option.getD_some]
  cases contextFind context "trace_id" with
  | none => exact .unset hnone _
  | some value =>
    cases value with
    | string hex =>
      have haccepted := accepted_iff hex unit.traceId
      by_cases hid : IsId traceIdBytes hex
      · simp only [haccepted.mpr hid, if_true]
        rw [encode_of_isId hid]
        exact .accepted hid
      · -- What was decoded of it stays, without the flag.
        simp only [if_neg (mt haccepted.mp hid), hnone, Bool.false_eq_true, if_false]
        exact .refused hid
    | _ => exact .unset hnone _

/-- The span id of a unit that has none. -/
theorem span_applySpanId (hnone : unit.hasSpan = false) (context : Context) :
    Reports spanIdBytes (givenString (some context) "span_id")
      (unit.applySpanId (contextFind context "span_id")).spanReported := by
  unfold givenString applySpanId spanReported
  simp only [Option.getD_some]
  cases contextFind context "span_id" with
  | none => exact .unset hnone _
  | some value =>
    cases value with
    | string hex =>
      have haccepted := accepted_iff hex unit.spanId
      by_cases hid : IsId spanIdBytes hex
      · simp only [haccepted.mpr hid, if_true]
        rw [encode_of_isId hid]
        exact .accepted hid
      · simp only [if_neg (mt haccepted.mp hid), Bool.false_eq_true, if_false]
        exact .refused hid
    | _ => exact .unset hnone _

/-- Each of the two leaves the other alone. -/
theorem applyTraceId_span (unit : UnitState) (value : Option Zval) :
    (unit.applyTraceId value).hasSpan = unit.hasSpan := by
  unfold applyTraceId
  split
  · simp only
    split <;> rfl
  · rfl

theorem applySpanId_trace (unit : UnitState) (value : Option Zval) :
    (unit.applySpanId value).traceReported = unit.traceReported := by
  unfold applySpanId
  split
  · simp only
    split <;> rfl
  · rfl

/-- A unit that has no ids reports none. -/
theorem traced_none (htrace : unit.hasTrace = false) (hspan : unit.hasSpan = false) : unit.Traced none :=
  ⟨.unset htrace _, .unset hspan _⟩

/-- **The ids of a unit that had none** are those of the context. -/
theorem traced_applyTrace (htrace : unit.hasTrace = false) (hspan : unit.hasSpan = false)
    (context : Option Context) : (unit.applyTrace context).Traced context := by
  cases context with
  | none => exact traced_none htrace hspan
  | some context =>
    refine ⟨?_, ?_⟩
    · show Reports _ _ ((unit.applyTraceId _).applySpanId _).traceReported
      rw [applySpanId_trace]
      exact trace_applyTraceId htrace context
    · exact span_applySpanId ((applyTraceId_span unit _).trans hspan) context

end UnitState

end CboxTelemetry.Extension
