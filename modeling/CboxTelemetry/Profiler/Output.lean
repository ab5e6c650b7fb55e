import CboxTelemetry.Profiler.Conservation
import CboxTelemetry.Lib.Tally
import Mathlib.Data.List.Sort

/-!
# The profile that is handed out

`profileInto` turns the storage of the profiler into the array that `finish` returns: the frames once
each, the functions with the samples taken in them, and the call tree as flat triples. The numbers are
cast to the integers of PHP, which they all fit.
-/

namespace CboxTelemetry.Profiler

def topFunctionsMax : Nat := 256

/-- `cbox_function_total`. -/
structure FunctionTotal where
  frameId : Nat
  samples : Nat
  deriving DecidableEq

/-- An entry of `frames`. -/
structure FrameEntry where
  function : Bytes
  file : Option Bytes
  line : Nat
  deriving DecidableEq

/-- An entry of `stacks`. -/
structure StackEntry where
  parent : Nat
  frameId : Nat
  samples : Nat
  deriving DecidableEq

/-- The array that `cbox_profile_into` fills. -/
structure Profile where
  sampleCount : Nat
  periodNs : Nat
  clock : String
  dropped : Nat
  deferredSamples : Nat
  deferredEvents : Nat
  maxDeferred : Nat
  timerOverruns : Nat
  frames : List FrameEntry
  topFunctions : List FunctionTotal
  stackList : Option (List StackEntry)
  deriving DecidableEq

/-- `cbox_function_total_cmp(left, right) <= 0`. -/
def FunctionTotal.Before (a b : FunctionTotal) : Prop :=
  b.samples < a.samples ∨ a.samples = b.samples ∧ a.frameId ≤ b.frameId

instance : DecidableRel FunctionTotal.Before := fun a b =>
  inferInstanceAs (Decidable (b.samples < a.samples ∨ a.samples = b.samples ∧ a.frameId ≤ b.frameId))

namespace State

def frameEntry (arena : Arena) (f : Frame) : FrameEntry where
  function := arena.read f.nameOff f.nameLen
  file := f.fileOff.map fun off => arena.read off f.fileLen
  line := f.line.toNat

/-- One turn of the loop that folds the tree back into functions. -/
def addNode (count : Nat) (totals : List FunctionTotal) (node : Node) : List FunctionTotal :=
  if node.frameId < count then
    totals.modify node.frameId fun t => { t with samples := u64 (t.samples + node.samples) }
  else totals

/-- The samples of each function, in the order of the frames. Node 0 is left out. -/
def functionTotals (s : State) : List FunctionTotal :=
  (s.tree.nodes.drop 1).foldl (addNode s.frames.frames.length)
    ((List.range s.frames.frames.length).map fun index => ⟨index, 0⟩)

/-- The totals after the sort, up to the first without samples or as many as are emitted. -/
def topFunctions (s : State) : List FunctionTotal :=
  ((s.functionTotals.insertionSort FunctionTotal.Before).takeWhile fun t => 0 < t.samples).take
    topFunctionsMax

/-- The nodes without the root, so that a node's number is its position plus 1. -/
def stackList (s : State) : List StackEntry :=
  (s.tree.nodes.drop 1).map fun node => ⟨node.parent, node.frameId, node.samples⟩

/-- `cbox_profile_into`. -/
def profileInto (s : State) (includeStacks : Bool) : Profile where
  sampleCount := s.samples
  periodNs := s.periodNs
  clock := "cpu"
  dropped := s.dropped
  deferredSamples := s.deferred
  deferredEvents := s.deferredEvents
  maxDeferred := s.maxDeferred
  timerOverruns := s.timerOverruns
  frames := s.frames.frames.map (frameEntry s.arena)
  topFunctions := s.topFunctions
  stackList := if includeStacks then some s.stackList else none

end State

/-! ## Samples by function -/

section totals

/-- The nodes as a tally of samples by frame. -/
def byFrame (nodes : List Node) : List (Nat × Nat) := nodes.map fun n => (n.frameId, n.samples)

/-- The weights by function sum up to all samples. -/
theorem total_byFrame (nodes : List Node) :
    Tally.total (byFrame nodes) = (nodes.map Node.samples).sum := by
  rw [Tally.total, byFrame, List.map_map]
  rfl

/-- Changing one place of a range of values. -/
theorem modify_map_range {α : Type*} (g : Nat → α) (f : α → α) (n i : Nat) :
    ((List.range n).map g).modify i f =
      (List.range n).map fun k => if i = k then f (g k) else g k := by
  refine List.ext_getElem? fun k => ?_
  rw [List.getElem?_modify, List.getElem?_map, List.getElem?_map]
  rcases Nat.lt_or_ge k n with hlt | hge
  · rw [List.getElem?_range hlt]
    by_cases hk : i = k
    · simp [hk]
    · simp [hk]
  · rw [List.getElem?_eq_none (by rw [List.length_range]; exact hge)]
    split <;> rfl

/-- The loop adds up the samples of each function, as long as no total wraps. -/
theorem foldl_addNode {count : Nat} {nodes : List Node} (hframes : ∀ n ∈ nodes, n.frameId < count)
    (g : Nat → Nat) (hsmall : ∀ k, g k + Tally.total (byFrame nodes) < 2 ^ 64) :
    nodes.foldl (State.addNode count) ((List.range count).map fun k => ⟨k, g k⟩) =
      (List.range count).map fun k => ⟨k, g k + Tally.weightAt (byFrame nodes) k⟩ := by
  induction nodes generalizing g with
  | nil => rfl
  | cons node nodes ih =>
    have hcons : byFrame (node :: nodes) = (node.frameId, node.samples) :: byFrame nodes := rfl
    rw [hcons, Tally.total_cons] at hsmall
    -- One node adds its samples to the place of its function, and nothing overflows.
    have hstep : State.addNode count ((List.range count).map fun k => ⟨k, g k⟩) node =
        (List.range count).map fun k =>
          ⟨k, g k + if node.frameId = k then node.samples else 0⟩ := by
      unfold State.addNode
      rw [if_pos (hframes node List.mem_cons_self), modify_map_range]
      refine List.map_congr_left fun k _ => ?_
      split
      · have hroom : g k + node.samples < 2 ^ 64 := by
          have := hsmall k
          simp only at this
          omega
        rw [u64_of_lt hroom]
      · rw [Nat.add_zero]
    rw [List.foldl_cons, hstep, ih (fun n hn => hframes n (List.mem_cons_of_mem _ hn)), hcons]
    · refine List.map_congr_left fun k _ => ?_
      rw [Tally.weightAt_cons, Nat.add_assoc]
    · intro k
      have := hsmall k
      simp only at this
      split <;> omega

end totals

end CboxTelemetry.Profiler
