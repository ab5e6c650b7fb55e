import Mathlib.Algebra.Group.Int.Defs
import Mathlib.Algebra.Group.Nat.Defs
import Mathlib.Data.Int.Basic

/-!
# Sink names

A sink is called `crash-<pid>.bin`. The drain takes the pid out of a directory entry with `strtol`,
narrows it to `pid_t`, and prints it again to build the path it opens, so the name that was listed
and the name that is opened need not be the same one. `sinkOwner_sinkName` says that for the names
the extension itself writes they are.
-/

namespace CboxTelemetry.Crash

/-- A directory entry's name. -/
abbrev Name := List Char

/-! ## The C library -/

/-- `isspace` in the C locale. -/
def isSpace (c : Char) : Bool := c.toNat == 32 || (9 ≤ c.toNat && c.toNat ≤ 13)

def longMax : Int := 2 ^ 63 - 1
def longMin : Int := -2 ^ 63

/-- The value `strtol` returns for a number out of range is the nearest `long`. -/
def clampLong (v : Int) : Int := max longMin (min longMax v)

/-- The sign `strtol` accepts, and what follows it. -/
def strtolSign : List Char → Bool × List Char
  | '-' :: rest => (true, rest)
  | '+' :: rest => (false, rest)
  | rest => (false, rest)

/-- `strtol(s, &end, 10)`: the value and what `end` points at. -/
def strtol (s : List Char) : Int × List Char :=
  let (negative, t) := strtolSign (s.dropWhile isSpace)
  let digits := t.takeWhile Char.isDigit
  if digits = [] then (0, s)
  else
    let magnitude : Int := Nat.ofDigitChars 10 digits 0
    (clampLong (if negative then -magnitude else magnitude), t.dropWhile Char.isDigit)

/-- `%ld`. -/
def showLong (v : Int) : List Char :=
  if v < 0 then '-' :: Nat.toDigits 10 v.natAbs else Nat.toDigits 10 v.natAbs

/-- The conversion of a `long` to a 32-bit `pid_t`. -/
def toPid (v : Int) : Int := Int.bmod v (2 ^ 32)

/-! ## Names and owners -/

def crashFilePrefix : Name := "crash-".toList
def crashFileSuffix : Name := ".bin".toList
def crashPathMax : Nat := 512

/-- The name of a process's sink. -/
def sinkName (pid : Int) : Name := crashFilePrefix ++ showLong pid ++ crashFileSuffix

/-- The sink's name in `dir`, unless the path does not fit its buffer. -/
def crashSinkName (dir : List Char) (pid : Int) : Option Name :=
  if dir.length + 1 + (sinkName pid).length < crashPathMax then some (sinkName pid) else none

/-- The number in a directory entry's name, when it has the form of a sink's and is positive. -/
def sinkOwner (name : Name) : Option Int :=
  if crashFilePrefix.isPrefixOf name then
    let (owner, rest) := strtol (name.drop crashFilePrefix.length)
    if rest = crashFileSuffix ∧ 0 < owner then some owner else none
  else none

/-- What `kill(pid, 0)` answers. -/
inductive KillAnswer
  | ok
  | eperm
  | esrch
  deriving DecidableEq, Repr

/-- A process that is gone will never append again; one that is alive might. -/
def crashProcessAlive (kill : Int → KillAnswer) (pid : Int) : Bool :=
  if pid ≤ 0 then false
  else match kill pid with
    | .ok => true
    | .eperm => true
    | .esrch => false

/-- A pid the kernel hands out. -/
structure Pid where
  toInt : Int
  pos : 0 < toInt
  lt : toInt < 2 ^ 31
  deriving DecidableEq

/-- The base directory of an installed recorder, whose length `cbox_crash_install` has checked, with
the uid of its per-user subdirectory. -/
structure CrashDir where
  base : List Char
  uid : Nat
  base_lt : base.length < crashPathMax - 32
  uid_lt : uid < 2 ^ 32

/-- The private subdirectory the sinks live in. -/
def CrashDir.owned (d : CrashDir) : List Char := d.base ++ '/' :: Nat.toDigits 10 d.uid

/-! ## Reading back what was printed -/

theorem showLong_of_pos {v : Int} (h : 0 < v) : showLong v = Nat.toDigits 10 v.natAbs := by
  rw [showLong, if_neg (by omega)]

/-- A pid survives the conversion to the type of pids. -/
theorem toPid_of_pid (p : Pid) : toPid p.toInt = p.toInt := by
  have := p.pos
  have := p.lt
  rw [toPid, Int.bmod_eq_of_le] <;> omega

theorem isDigit_iff (c : Char) : c.isDigit = true ↔ 48 ≤ c.toNat ∧ c.toNat ≤ 57 := by
  simp [Char.isDigit, UInt32.le_iff_toNat_le]

/-- The first character of a decimal number is neither a blank nor a sign. -/
theorem strtolSign_digits {ds : List Char} (rest : List Char) (hne : ds ≠ [])
    (hdig : ∀ c ∈ ds, c.isDigit) :
    strtolSign ((ds ++ rest).dropWhile isSpace) = (false, ds ++ rest) := by
  obtain ⟨d, ds, rfl⟩ := List.exists_cons_of_ne_nil hne
  have hd := (isDigit_iff d).mp (hdig d (by simp))
  have hspace : isSpace d = false := by
    simp only [isSpace, Bool.or_eq_false_iff, beq_eq_false_iff_ne, Bool.and_eq_false_iff,
      decide_eq_false_iff_not]
    omega
  rw [List.cons_append, List.dropWhile_cons, hspace, if_neg Bool.false_ne_true, strtolSign]
  · rintro r h
    obtain rfl := (List.cons.inj h).1
    exact absurd hd.1 (by decide)
  · rintro r h
    obtain rfl := (List.cons.inj h).1
    exact absurd hd.1 (by decide)

/-- `strtol` reads back what `%ld` printed, up to the first character that is no digit. -/
theorem strtol_showLong {v : Int} (hpos : 0 < v) (hmax : v ≤ longMax) {rest : List Char}
    (hrest : rest.takeWhile Char.isDigit = []) : strtol (showLong v ++ rest) = (v, rest) := by
  rw [showLong_of_pos hpos]
  have hdig : ∀ c ∈ Nat.toDigits 10 v.natAbs, c.isDigit := fun c hc =>
    Nat.isDigit_of_mem_toDigits (by decide) (by decide) hc
  have hdrop : rest.dropWhile Char.isDigit = rest := by
    have := List.takeWhile_append_dropWhile (p := Char.isDigit) (l := rest)
    rwa [hrest, List.nil_append] at this
  have hvalue : ((Nat.ofDigitChars 10 (Nat.toDigits 10 v.natAbs) 0 : Nat) : Int) = v := by
    rw [Nat.ofDigitChars_ten_toDigits]; omega
  have hclamp : clampLong v = v := by
    simp only [clampLong, longMin, longMax] at *; omega
  simp only [strtol, strtolSign_digits rest Nat.toDigits_ne_nil hdig,
    List.takeWhile_append_of_pos hdig, List.dropWhile_append_of_pos hdig, hrest, hdrop,
    List.append_nil, if_neg Nat.toDigits_ne_nil, Bool.false_eq_true, if_false, hvalue, hclamp]

/-- From the name the extension writes, the drain reads back the pid it was written for. -/
theorem sinkOwner_sinkName (p : Pid) : sinkOwner (sinkName p.toInt) = some p.toInt := by
  have hpos := p.pos
  have hlt := p.lt
  have hprefix : crashFilePrefix.isPrefixOf (sinkName p.toInt) = true := by
    rw [List.isPrefixOf_iff_prefix, sinkName, List.append_assoc]
    exact List.prefix_append _ _
  have hdrop : (sinkName p.toInt).drop crashFilePrefix.length
      = showLong p.toInt ++ crashFileSuffix := by
    rw [sinkName, List.append_assoc, List.drop_left]
  have hread : strtol (showLong p.toInt ++ crashFileSuffix) = (p.toInt, crashFileSuffix) :=
    strtol_showLong hpos (by simp only [longMax]; omega) (by decide)
  rw [sinkOwner, if_pos hprefix, hdrop, hread]
  exact if_pos ⟨rfl, hpos⟩

/-- A pid has at most ten digits. -/
theorem length_showLong_pid (p : Pid) : (showLong p.toInt).length ≤ 10 := by
  have hpos := p.pos
  have hlt := p.lt
  rw [showLong_of_pos hpos, Nat.length_toDigits_le_iff (by decide) (by decide)]
  omega

/-- The path of every sink fits its buffer. -/
theorem crashSinkName_pid (d : CrashDir) (p : Pid) :
    crashSinkName d.owned p.toInt = some (sinkName p.toInt) := by
  have hbase := d.base_lt
  have huid : (Nat.toDigits 10 d.uid).length ≤ 10 := by
    have := d.uid_lt
    rw [Nat.length_toDigits_le_iff (by decide) (by decide)]; omega
  have hpid := length_showLong_pid p
  have hprefix : crashFilePrefix.length = 6 := by decide
  have hsuffix : crashFileSuffix.length = 4 := by decide
  refine if_pos ?_
  simp only [CrashDir.owned, sinkName, List.length_append, List.length_cons, crashPathMax] at *
  omega

/-- Different numbers are written differently. -/
theorem showLong_inj {v v' : Int} (h : showLong v = showLong v') : v = v' := by
  have hdigit : ∀ {n : Nat} {ds : List Char}, '-' :: ds ≠ Nat.toDigits 10 n := by
    intro n ds heq
    have hmem : '-' ∈ Nat.toDigits 10 n := heq ▸ List.mem_cons_self
    exact absurd (Nat.isDigit_of_mem_toDigits (by decide) (by decide) hmem) (by decide)
  have habs : ∀ {m n : Nat}, Nat.toDigits 10 m = Nat.toDigits 10 n → m = n := by
    intro m n heq
    rw [← Nat.ofDigitChars_ten_toDigits (n := m), heq, Nat.ofDigitChars_ten_toDigits]
  -- A sign on one side only is no digit of the other side.
  rw [showLong, showLong] at h
  split at h
  · split at h
    · have heq := habs (List.cons.inj h).2
      omega
    · exact absurd h hdigit
  · split at h
    · exact absurd h.symm hdigit
    · have heq := habs h
      omega

/-- Two pids have two sinks. -/
theorem sinkName_inj {v v' : Int} (h : sinkName v = sinkName v') : v = v' := by
  rw [sinkName, sinkName, List.append_left_inj, List.append_right_inj] at h
  exact showLong_inj h

/-- Two processes have two sinks. -/
theorem sinkName_injective {p q : Pid} (h : sinkName p.toInt = sinkName q.toInt) : p = q := by
  have hpid := sinkName_inj h
  cases p
  cases q
  cases hpid
  rfl

end CboxTelemetry.Crash
