import CboxTelemetry.Profiler.Functions
import CboxTelemetry.Lib.Run

/-!
# The deadline

The deadline of an automatic unit, and the notes of when it was looked at last, decide when the profiler stops,
and nothing else. So a profiler whose deadline has been cleared measures what it would have measured
(`run_withDeadline`), until the deadline would have stopped it.

What a profiler is fed between two calls are ticks and interrupts.
-/

namespace CboxTelemetry.Profiler

/-- The deadline, and how many interrupts and ticks there had been when it was last looked at. -/
structure Deadline where
  ns : Nat
  checkedAt : Nat
  ticksAt : Nat

/-- What the timer and the engine bring. -/
inductive Feed
  | tick (ticks : Nat)
  | interrupt (stack : Stack) (between : List Nat) (now : Instant)

namespace State

def withDeadline (s : State) (d : Deadline) : State := { s with
  deadlineNs := d.ns
  deadlineCheckedAt := d.checkedAt
  deadlineTicksAt := d.ticksAt }

def feed (s : State) : Feed → Option State
  | .tick ticks => some (s.tick ticks)
  | .interrupt stack between now => s.interrupt stack between now

def FeedSteps (s : State) (f : Feed) (s' : State) : Prop := s.feed f = some s'

variable {s s' : State} {d : Deadline}

/-! ## A sample -/

/-- What a function returns when it does not look at the deadline. -/
def Overlooks {α : Type} (d : Deadline) (r r' : Option (α × State)) : Prop :=
  r' = r.map fun r => (r.1, r.2.withDeadline d)

/-- Interning overlooks the deadline. -/
theorem overlooks_intern (s : State) (d : Deadline) (name file : Bytes) (line : UInt32) :
    Overlooks d (s.intern name file line) ((s.withDeadline d).intern name file line) := by
  have hframes : (s.withDeadline d).frames = s.frames := rfl
  have harena : (s.withDeadline d).arena = s.arena := rfl
  unfold Overlooks State.intern
  rw [hframes, harena]
  cases s.frames.intern s.arena name file line with
  | none => rfl
  | some r => rfl

/-- So does finding the marker of an empty stack. -/
theorem overlooks_engineFrameId (s : State) (d : Deadline) :
    Overlooks d s.engineFrameId (s.withDeadline d).engineFrameId := by
  have hintern := overlooks_intern s d (ascii "<engine>") [] 0
  have hsame : (s.withDeadline d).engineFrame = s.engineFrame := rfl
  unfold Overlooks State.engineFrameId at *
  rw [hsame]
  cases s.engineFrame with
  | some id => rfl
  | none =>
    simp only [hintern]
    cases s.intern (ascii "<engine>") [] 0 with
    | none => rfl
    | some r => rfl

/-- And that of a truncated one. -/
theorem overlooks_truncationFrameId (s : State) (d : Deadline) :
    Overlooks d s.truncationFrameId (s.withDeadline d).truncationFrameId := by
  have hintern := overlooks_intern s d (ascii "<truncated>") [] 0
  have hsame : (s.withDeadline d).truncatedFrame = s.truncatedFrame := rfl
  unfold Overlooks State.truncationFrameId at *
  rw [hsame]
  cases s.truncatedFrame with
  | some id => rfl
  | none =>
    simp only [hintern]
    cases s.intern (ascii "<truncated>") [] 0 with
    | none => rfl
    | some r => rfl

/-- The walk up the stack overlooks the deadline. -/
theorem overlooks_walk (maxDepth : Nat) (stack : Stack) (s : State) (d : Deadline) (ids : List Nat) :
    Overlooks d (walk maxDepth stack s ids) (walk maxDepth stack (s.withDeadline d) ids) := by
  induction stack generalizing s ids with
  | nil => rfl
  | cons frame stack ih =>
    cases frame with
    | none => exact ih s ids
    | some f =>
      have hframe : Overlooks d (s.frameFor f) ((s.withDeadline d).frameFor f) := overlooks_intern s d _ _ _
      unfold Overlooks at hframe
      unfold State.walk
      split
      · rfl
      · simp only [hframe]
        cases s.frameFor f with
        | none => rfl
        | some r =>
          obtain ⟨id, t⟩ := r
          cases id with
          | none => rfl
          | some id => exact ih t (ids ++ [id])

/-- Sampling a path overlooks it as well. -/
theorem overlooks_samplePath (s : State) (d : Deadline) (stack : Stack) :
    Overlooks d (s.samplePath stack) ((s.withDeadline d).samplePath stack) := by
  have hwalk := overlooks_walk s.depthLimit stack s d []
  have hlimit : (s.withDeadline d).depthLimit = s.depthLimit := rfl
  unfold Overlooks at hwalk
  unfold State.samplePath
  rw [hlimit]
  simp only [hwalk]
  cases State.walk s.depthLimit stack s [] with
  | none => rfl
  | some r =>
    obtain ⟨w, t⟩ := r
    cases w with
    | dropped => rfl
    | walked ids truncated =>
      cases truncated with
      | true =>
        have hmarker := overlooks_truncationFrameId t d
        unfold Overlooks at hmarker
        simp only [Option.map_some, hmarker]
        cases State.truncationFrameId t with
        | none => rfl
        | some r =>
          obtain ⟨id, u⟩ := r
          cases id <;> rfl
      | false =>
        simp only [Option.map_some]
        split
        · have hengine := overlooks_engineFrameId t d
          unfold Overlooks at hengine
          simp only [hengine]
          cases State.engineFrameId t with
          | none => rfl
          | some r =>
            obtain ⟨id, u⟩ := r
            cases id <;> rfl
        · rfl

/-- A sample is booked without a look at the deadline. -/
theorem book_withDeadline (s : State) (d : Deadline) (stack : Stack) (pending deliveries : Nat) :
    (s.withDeadline d).book stack pending deliveries
      = (s.book stack pending deliveries).map fun s => s.withDeadline d := by
  have hpath := overlooks_samplePath (s.account pending deliveries) d stack
  have hsame : (s.withDeadline d).account pending deliveries
      = (s.account pending deliveries).withDeadline d := rfl
  unfold Overlooks at hpath
  unfold State.book State.collect
  rw [hsame]
  simp only [hpath]
  cases (s.account pending deliveries).samplePath stack with
  | none => rfl
  | some r =>
    obtain ⟨path, t⟩ := r
    cases path with
    | none => rfl
    | some path =>
      have htree : (t.withDeadline d).tree = t.tree := rfl
      simp only [Option.map_some, htree]
      cases t.tree.descend nodeRoot path with
      | none => rfl
      | some r =>
        obtain ⟨node, tree⟩ := r
        cases node <;> rfl

/-! ## Interrupts -/

/-- Collecting a sample does not mark the profile as capped, nor take the mark away. -/
theorem Collected.capped_eq {stack : Stack} {weight : Nat} (h : Collected s stack weight s') :
    s'.capped = s.capped := by
  cases h with
  | dropped s₁ tree hframed _ _ _ => rw [State.drop, hframed.eq]
  | booked s₁ tree path node hframed _ _ _ _ _ => rw [hframed.eq]

/-- Without a deadline the interrupt handler does what it does with one, or the deadline stops the
profiler. -/
theorem serve_withDeadline (hs : s.Sound) (hd : d.ns = 0) {stack : Stack} {pending deliveries : Nat}
    {now : Instant} (h : s.serve stack pending deliveries now = some s') :
    (s.withDeadline d).serve stack pending deliveries now = some (s'.withDeadline d) ∧
        (s.capped = true → s'.capped = true) ∨
      s.running = true ∧ s'.capped = true := by
  have hsame : (s.withDeadline d).books pending = s.books pending := rfl
  unfold State.serve at h ⊢
  rw [hsame, book_withDeadline]
  cases hbooks : s.books pending with
  | false =>
    simp only [hbooks, Bool.false_eq_true, if_false] at h ⊢
    cases h
    exact .inl ⟨rfl, id⟩
  | true =>
    obtain ⟨s₁, hbook, hcollected, -⟩ := hs.book hbooks stack deliveries
    have hdue : (s₁.withDeadline d).deadlineDue = false := by
      show (d.ns != 0 && _) = false
      rw [hd]
      rfl
    -- Without a deadline the check looks at nothing.
    have hchecked : (s₁.withDeadline d).checkDeadline now = (false, s₁.withDeadline d) := by
      unfold State.checkDeadline
      rw [hdue]
      rfl
    simp only [hbooks, if_true, hbook] at h
    simp only [if_true, hbook, Option.map_some, hchecked, Bool.false_eq_true, if_false]
    split at h
    · cases h
      simp only [State.books, Bool.and_eq_true] at hbooks
      exact .inr ⟨hbooks.1.2, rfl⟩
    · cases h
      refine .inl ⟨rfl, fun hcapped => ?_⟩
      exact hcollected.capped_eq.trans hcapped

/-- An interrupt runs alike with and without the deadline, unless the deadline stops it. -/
theorem interrupt_withDeadline (hs : s.Sound) (hd : d.ns = 0) {stack : Stack} {between : List Nat}
    {now : Instant} (h : s.interrupt stack between now = some s') :
    (s.withDeadline d).interrupt stack between now = some (s'.withDeadline d) ∧
        (s.capped = true → s'.capped = true) ∨
      s.running = true ∧ s'.capped = true := by
  have hticks : ∀ (ticks : List Nat) (s : State),
      ticks.foldl tick (s.withDeadline d) = (ticks.foldl tick s).withDeadline d := by
    intro ticks
    induction ticks with
    | nil => exact fun _ => rfl
    | cons n ticks ih => exact fun s => ih (s.tick n)
  have htaken : (s.withDeadline d).takeTicks.2 = s.takeTicks.2.withDeadline d := rfl
  have hpending : (s.withDeadline d).takeTicks.1 = s.takeTicks.1 := rfl
  unfold State.interrupt at h ⊢
  simp only [htaken, hticks, hpending] at h ⊢
  have htook : ∀ s : State, (s.withDeadline d).takeDeliveries.2 = s.takeDeliveries.2.withDeadline d :=
    fun _ => rfl
  have hdeliveries : ∀ s : State, (s.withDeadline d).takeDeliveries.1 = s.takeDeliveries.1 := fun _ => rfl
  rw [htook, hdeliveries]
  have hfront : ((between.foldl tick s.takeTicks.2).takeDeliveries.2).Sound := by
    rw [takeBoth_eq]
    exact hs.same (s.same_pending _ 0)
  have hrunning : ((between.foldl tick s.takeTicks.2).takeDeliveries.2).running = s.running := by
    rw [takeBoth_eq]
  have hcapped : ((between.foldl tick s.takeTicks.2).takeDeliveries.2).capped = s.capped := by
    rw [takeBoth_eq]
  rw [← hrunning, ← hcapped]
  exact serve_withDeadline hfront hd h

/-! ## Runs -/

/-- Feeding the profiler keeps it sound. -/
theorem Sound.feed (hs : s.Sound) {f : Feed} (h : FeedSteps s f s') : s'.Sound := by
  cases f with
  | tick ticks =>
    cases h
    exact hs.same (s.same_tick ticks)
  | interrupt stack between now => exact (hs.interrupt h).sound

/-- Whatever it is fed, a profiler goes on. -/
theorem Sound.exists_run (hs : s.Sound) (fs : List Feed) : ∃ s', Run FeedSteps s fs s' := by
  induction fs generalizing s with
  | nil => exact ⟨s, .nil s⟩
  | cons f fs ih =>
    have hstep : ∃ s₁, FeedSteps s f s₁ := by
      cases f with
      | tick ticks => exact ⟨_, rfl⟩
      | interrupt stack between now => exact hs.exists_interrupt stack between now
    obtain ⟨s₁, hstep⟩ := hstep
    obtain ⟨s', hrun⟩ := ih (hs.feed hstep)
    exact ⟨s', .cons hstep hrun⟩

/-- What is running was running. -/
theorem running_of_feed (hs : s.Sound) {f : Feed} (h : FeedSteps s f s') (hrunning : s'.running = true) :
    s.running = true := by
  cases f with
  | tick ticks =>
    cases h
    exact hrunning
  | interrupt stack between now =>
    cases hstopped : s.running with
    | true => rfl
    | false =>
      rw [((hs.interrupt h).stopped hstopped).2.1] at hrunning
      cases hrunning

/-- One thing that is fed, with the deadline and without. -/
theorem feed_withDeadline (hs : s.Sound) (hd : d.ns = 0) {f : Feed} (h : FeedSteps s f s') :
    FeedSteps (s.withDeadline d) f (s'.withDeadline d) ∧ (s.capped = true → s'.capped = true) ∨
      s.running = true ∧ s'.capped = true := by
  cases f with
  | tick ticks =>
    cases h
    exact .inl ⟨rfl, id⟩
  | interrupt stack between now => exact interrupt_withDeadline hs hd h

/-- A profile that is capped stays capped. -/
theorem capped_of_run (hs : s.Sound) {fs : List Feed} (h : Run FeedSteps s fs s') (hcapped : s.capped = true) :
    s'.capped = true := by
  induction h with
  | nil s => exact hcapped
  | @cons s s₁ _ f _ hstep _ ih =>
    refine ih (hs.feed hstep) ?_
    obtain ⟨-, hkept⟩ | ⟨-, hmarked⟩ := feed_withDeadline (d := ⟨0, 0, 0⟩) hs rfl hstep
    · exact hkept hcapped
    · exact hmarked

/-- **Without the deadline** the same is measured, unless the deadline stops the profiler. -/
theorem run_withDeadline (hs : s.Sound) (hd : d.ns = 0) {fs : List Feed} (h : Run FeedSteps s fs s')
    (hcap : s.running = true → s'.capped = false) :
    Run FeedSteps (s.withDeadline d) fs (s'.withDeadline d) := by
  induction h with
  | nil s => exact .nil _
  | @cons s s₁ s' f _ hstep hrest ih =>
    obtain ⟨hsame, -⟩ | ⟨hrunning, hmarked⟩ := feed_withDeadline hs hd hstep
    · exact .cons hsame (ih (hs.feed hstep) fun hrunning => hcap (running_of_feed hs hstep hrunning))
    · have hcapped := capped_of_run (hs.feed hstep) hrest hmarked
      rw [hcap hrunning] at hcapped
      cases hcapped

end State
end CboxTelemetry.Profiler
