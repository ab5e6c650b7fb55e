import CboxTelemetry.Extension.Hooks
import Mathlib.Data.List.Nodup
import Mathlib.Data.List.Range

/-!
# Hooks as stacks

What the hooks are for: over the handler of a function there is a stack of wrappers, and a call goes through
all of them, from the top, and then to the function. `Wrapped` has these stacks and nothing else; the
handlers and what each of them has kept represent them (`Hooked.Represents`), whatever other extensions do
before and after. At the end of the module a hook is taken away where it is on top of the stack, and stays
where somebody has wrapped it.
-/

namespace CboxTelemetry.Extension

variable {F A : Type*}

/-! ## The stacks -/

/-- The wrappers of each function, the last one first. -/
structure Wrapped (F A : Type*) where
  wrappers : F → List (ZifHandler F A)
  done : Bool

def ZifHandler.index : ZifHandler F A → Option Nat
  | .cbox index => some index
  | .own _ | .other _ => none

/-- The function that a request is about, if it can be hooked. -/
def Engine.hookable (e : Engine F) (r : HookRequest) : Option F :=
  (e.findFunction r.className r.functionName).filter fun f => e.internal f && e.native f

/-- What is left of a stack that loses its top if that is a hook. -/
def dropHook : List (ZifHandler F A) → List (ZifHandler F A)
  | .cbox _ :: rest => rest
  | hs => hs

namespace Wrapped
variable [DecidableEq F]

/-- The functions `fs` are hooked in this order, with the handlers from `index` on. -/
def pushAll : List F → Nat → (F → List (ZifHandler F A)) → F → List (ZifHandler F A)
  | [], _, ws => ws
  | f :: fs, index, ws => pushAll fs (index + 1) (Function.update ws f (.cbox index :: ws f))

variable [DecidableEq A]

def step (e : Engine F) (w : Wrapped F A) : HookAction F A → Wrapped F A
  | .install flags =>
    if w.done then w
    else ⟨pushAll (flags.requests.filterMap e.hookable) 0 w.wrappers, true⟩
  | .uninstall => if w.done then ⟨fun f => dropHook (w.wrappers f), false⟩ else w
  | .wrap f a => { w with wrappers := Function.update w.wrappers f (.other a :: w.wrappers f) }
  | .unwrap f _ => { w with wrappers := Function.update w.wrappers f (w.wrappers f).tail }

/-- The stacks after some steps. -/
def after (e : Engine F) (as : List (HookAction F A)) : Wrapped F A :=
  as.foldl (step e) ⟨fun _ => [], false⟩

end Wrapped

/-! ## A hook that is taken away -/

section
variable {hs rest : List (ZifHandler F A)} {k n : Nat}

/-- The turn of the loop for the handler `k`. -/
def dropIndex (k : Nat) : List (ZifHandler F A) → List (ZifHandler F A)
  | .cbox index :: rest => if index = k then rest else .cbox index :: rest
  | hs => hs

/-- The later hook is above the earlier one. -/
def Ordered (hs : List (ZifHandler F A)) : Prop := (hs.filterMap ZifHandler.index).Pairwise (· > ·)

/-- The numbers of a stack are those of the module's wrappers in it. -/
theorem mem_indices {index : Nat} : index ∈ hs.filterMap ZifHandler.index ↔ .cbox index ∈ hs := by
  rw [List.mem_filterMap]
  constructor
  · rintro ⟨h, hmem, hindex⟩
    cases h with
    | cbox i =>
      simp only [ZifHandler.index, Option.some.injEq] at hindex
      rwa [hindex] at hmem
    | own | other => cases hindex
  · intro hmem
    exact ⟨_, hmem, rfl⟩

/-- A stack without its top is ordered. -/
theorem Ordered.tail {h : ZifHandler F A} (ho : Ordered (h :: rest)) : Ordered rest := by
  cases h with
  | own | other => exact ho
  | cbox index => exact (List.pairwise_cons.mp ho).2

theorem Ordered.below {index i : Nat} (ho : Ordered (.cbox index :: rest)) (hmem : .cbox i ∈ rest) :
    i < index :=
  (List.pairwise_cons.mp ho).1 i (mem_indices.mpr hmem)

/-- Where the hook is not on top, the turn changes nothing. -/
theorem dropIndex_of_not_top (htop : ∀ rest, hs ≠ .cbox k :: rest) : dropIndex k hs = hs := by
  cases hs with
  | nil => rfl
  | cons h rest =>
    cases h with
    | own | other => rfl
    | cbox index =>
      have hne : index ≠ k := by
        rintro rfl
        exact htop rest rfl
      exact if_neg hne

/-- Taking out a number that is not there changes nothing. -/
theorem dropIndex_of_not_mem (hmem : .cbox k ∉ hs) : dropIndex k hs = hs := by
  apply dropIndex_of_not_top
  rintro rest rfl
  exact hmem List.mem_cons_self

/-- The loop takes away the top of the stack, if that is a hook, and never a hook below it. -/
theorem foldl_dropIndex (ho : Ordered hs) (hlt : ∀ i, .cbox i ∈ hs → i < n) :
    (List.range n).foldl (fun hs k => dropIndex k hs) hs = dropHook hs := by
  cases hs with
  | nil =>
    induction n with
    | zero => rfl
    | succ n ih =>
      rw [List.range_succ, List.foldl_append, ih (by simp)]
      rfl
  | cons h rest =>
    cases h with
    | own f | other a =>
      clear hlt
      induction n with
      | zero => rfl
      | succ n ih =>
        rw [List.range_succ, List.foldl_append, ih]
        rfl
    | cbox index =>
      have hindex := hlt index List.mem_cons_self
      -- up to `index` nothing happens, and after it the top is a lower one
      have hloop : ∀ m, (List.range m).foldl (fun hs k => dropIndex k hs) (.cbox index :: rest) =
          if index < m then rest else .cbox index :: rest := by
        intro m
        induction m with
        | zero => rfl
        | succ m ih =>
          rw [List.range_succ, List.foldl_append, ih]
          by_cases hlt : index < m
          · rw [if_pos hlt, if_pos (Nat.lt_succ_of_lt hlt)]
            apply dropIndex_of_not_mem
            intro hmem
            have := ho.below hmem
            omega
          · rw [if_neg hlt]
            simp only [List.foldl_cons, List.foldl_nil, dropIndex]
            by_cases heq : index = m
            · rw [if_pos heq, if_pos (by omega)]
            · rw [if_neg heq, if_neg (by omega)]
      rw [hloop n, if_pos hindex]
      rfl

end

/-! ## The handlers represent the stacks -/

/-- Calling what is in the handler of a function goes through its wrappers and ends at the function; `k` is the
next turn of the loop that takes the hooks away. -/
structure Hooked.Represents (e : Engine F) (k : Nat) (s : Hooked F A) (w : Wrapped F A) : Prop where
  done : s.hooksDone = w.done
  count : w.done = false → s.hookCount = 0
  chain : ∀ f, e.native f = true → Chain.Links s.calls (s.handler f) (w.wrappers f ++ [.own f]) none
  bare : ∀ f, e.native f = false → s.handler f = none ∧ w.wrappers f = []
  hooked : ∀ f i, .cbox i ∈ w.wrappers f → ∃ hook, s.hooks i = some hook ∧ hook.target = f ∧
    (w.done = true → i < s.hookCount ∧ (k ≤ i → hook.installed = true))
  ordered : ∀ f, Ordered (w.wrappers f)
  others : ∀ f a, .other a ∈ w.wrappers f → s.replaced a ≠ none
  nodup : ∀ f, (w.wrappers f).Nodup
  own : ∀ f g, .own g ∉ w.wrappers f

namespace Hooked.Represents
variable {e : Engine F} {k : Nat} {s s' : Hooked F A} {w : Wrapped F A} {f : F} {r : HookRequest}

/-- A function has a handler exactly if it had one of its own. -/
theorem handler_ne_none (h : s.Represents e k w) : s.handler f ≠ none ↔ e.native f = true := by
  constructor
  · intro hhandler
    by_contra hn
    rw [Bool.not_eq_true] at hn
    exact hhandler (h.bare f hn).1
  · intro hn hnone
    have hchain := h.chain f hn
    rw [hnone] at hchain
    cases hw : w.wrappers f with
    | nil =>
      rw [hw] at hchain
      cases hchain
    | cons g rest =>
      rw [hw] at hchain
      cases hchain

/-- What is on top of a stack is what the handler points to. -/
theorem handler_eq (h : s.Represents e k w) {g : ZifHandler F A} {rest : List (ZifHandler F A)}
    (hw : w.wrappers f = g :: rest) :
    s.handler f = some g ∧ Chain.Links s.calls (s.calls g) (rest ++ [.own f]) none := by
  have hn : e.native f = true := by
    by_contra hn
    rw [Bool.not_eq_true] at hn
    rw [(h.bare f hn).2] at hw
    cases hw
  have hchain := h.chain f hn
  rw [hw] at hchain
  generalize hhandler : s.handler f = a at hchain
  cases hchain with
  | cons _ hrest => exact ⟨rfl, hrest⟩

/-- A hook that the handler points to is on top of the stack. -/
theorem wrappers_eq (h : s.Represents e k w) {g : ZifHandler F A} (hg : ∀ f, g ≠ .own f)
    (hhandler : s.handler f = some g) : ∃ rest, w.wrappers f = g :: rest := by
  have hn : e.native f = true := by
    rw [← h.handler_ne_none, hhandler]
    simp
  have hchain := h.chain f hn
  rw [hhandler] at hchain
  cases hw : w.wrappers f with
  | nil =>
    rw [hw] at hchain
    cases hchain
    exact absurd rfl (hg f)
  | cons g' rest =>
    rw [hw] at hchain
    cases hchain
    exact ⟨rest, rfl⟩

/-- A function is available where it is hookable and has a handler, which then is its original. -/
theorem available_eq (h : s.Represents e k w) :
    s.available e r = (e.hookable r).bind fun f => (s.handler f).map fun original => (f, original) := by
  unfold Hooked.available Engine.hookable
  cases e.findFunction r.className r.functionName with
  | none => rfl
  | some f =>
    cases hi : e.internal f with
    | false => simp [Option.filter, hi]
    | true =>
      cases hn : e.native f with
      | false => simp [Option.filter, hi, hn, (h.bare f hn).1]
      | true => simp [Option.filter, hi, hn]

end Hooked.Represents

/-! ## The steps -/

section
variable {e : Engine F} {k : Nat} {s s' : Hooked F A} {w : Wrapped F A} {f : F} {r : HookRequest}

/-- A new wrapper has the highest number. -/
theorem Ordered.push {hs : List (ZifHandler F A)} {index : Nat} (ho : Ordered hs)
    (hlt : ∀ i, .cbox i ∈ hs → i < index) : Ordered (.cbox index :: hs) := by
  apply List.pairwise_cons.mpr
  refine ⟨?_, ho⟩
  intro i hi
  exact hlt i (mem_indices.mp hi)

/-- What a handler calls is read from two fields. -/
theorem Hooked.calls_congr (hhooks : s'.hooks = s.hooks) (hreplaced : s'.replaced = s.replaced) :
    s'.calls = s.calls := by
  funext g
  cases g <;> simp [Hooked.calls, hhooks, hreplaced]

/-- The handlers and the stacks do not depend on the report. -/
theorem Hooked.Represents.of_report (h : s.Represents e k w) (hhandler : s'.handler = s.handler)
    (hreplaced : s'.replaced = s.replaced) (hhooks : s'.hooks = s.hooks)
    (hcount : s'.hookCount = s.hookCount) (hdone : s'.hooksDone = s.hooksDone) : s'.Represents e k w := by
  have hcalls := Hooked.calls_congr hhooks hreplaced
  exact {
    done := hdone.trans h.done
    count := by rw [hcount]; exact h.count
    chain := by rw [hcalls, hhandler]; exact h.chain
    bare := by rw [hhandler]; exact h.bare
    hooked := by rw [hhooks, hcount]; exact h.hooked
    ordered := h.ordered
    others := by rw [hreplaced]; exact h.others
    nodup := h.nodup
    own := h.own }

variable [DecidableEq F]

/-- What is on the stacks after a push was there, or is the new wrapper. -/
theorem mem_push {ws : F → List (ZifHandler F A)} {target : F} {g g' : ZifHandler F A} :
    g' ∈ Function.update ws target (g :: ws target) f ↔ (f = target ∧ g' = g) ∨ g' ∈ ws f := by
  by_cases heq : f = target
  · subst heq
    simp
  · simp [heq]

/-- A new handler on top of a function's, that calls the one it has found there. -/
theorem Hooked.Represents.push (h : s.Represents e k w) {target : F} {g : ZifHandler F A}
    (hn : e.native target = true) (hown : ∀ f, g ≠ .own f) (hnew : ∀ f, g ∉ w.wrappers f)
    (hhandler : s'.handler = Function.update s.handler target (some g))
    (hnext : s'.calls g = s.handler target) (hcalls : ∀ g', g' ≠ g → s'.calls g' = s.calls g')
    (hdone : s'.hooksDone = s.hooksDone) (hcount : w.done = false → s'.hookCount = s.hookCount)
    (hordered : Ordered (g :: w.wrappers target))
    (hhooked : ∀ f i, (f = target ∧ .cbox i = g) ∨ .cbox i ∈ w.wrappers f →
      ∃ hook, s'.hooks i = some hook ∧ hook.target = f ∧
        (w.done = true → i < s'.hookCount ∧ (k ≤ i → hook.installed = true)))
    (hothers : ∀ f a, (f = target ∧ .other a = g) ∨ .other a ∈ w.wrappers f → s'.replaced a ≠ none) :
    s'.Represents e k { w with wrappers := Function.update w.wrappers target (g :: w.wrappers target) } := by
  have hsame : ∀ f, ∀ g' ∈ w.wrappers f ++ [.own f], s'.calls g' = s.calls g' := by
    intro f g' hmem
    apply hcalls
    rintro rfl
    rcases List.mem_append.mp hmem with hin | hin
    · exact hnew f hin
    · exact hown f (List.mem_singleton.mp hin)
  refine ⟨hdone.trans h.done, fun hw => (hcount hw).trans (h.count hw), ?_, ?_, ?_, ?_, ?_, ?_, ?_⟩
  -- Nothing below the new wrapper calls anything else than before.
  · intro f hf
    have hchain := (h.chain f hf).congr (hsame f)
    by_cases heq : f = target
    · subst heq
      rw [hhandler]
      simp only [Function.update_self, List.cons_append]
      apply Chain.Links.cons
      rwa [hnext]
    · simp only [hhandler, Function.update_of_ne heq]
      exact hchain
  · intro f hf
    have heq : f ≠ target := by
      rintro rfl
      rw [hn] at hf
      cases hf
    simp only [hhandler, Function.update_of_ne heq]
    exact h.bare f hf
  · intro f i hmem
    exact hhooked f i (mem_push.mp hmem)
  · intro f
    by_cases heq : f = target
    · subst heq
      simpa using hordered
    · simpa [heq] using h.ordered f
  · intro f a hmem
    exact hothers f a (mem_push.mp hmem)
  · intro f
    by_cases heq : f = target
    · subst heq
      simpa using ⟨hnew f, h.nodup f⟩
    · simpa [heq] using h.nodup f
  · intro f g' hmem
    rcases mem_push.mp hmem with ⟨-, hg⟩ | hin
    · exact hown g' hg.symm
    · exact h.own f g' hin

/-- The handler on top of a function's is taken away: the one it calls is next. -/
theorem Hooked.Represents.pop (h : s.Represents e k w) {target : F} {g : ZifHandler F A}
    (hown : ∀ f, g ≠ .own f) (htop : s.handler target = some g) :
    Hooked.Represents e k { s with handler := Function.update s.handler target (s.calls g) }
      { w with wrappers := Function.update w.wrappers target (w.wrappers target).tail } := by
  obtain ⟨rest, hrest⟩ := h.wrappers_eq hown htop
  obtain ⟨-, hchain⟩ := h.handler_eq hrest
  have hcalls : Hooked.calls { s with handler := Function.update s.handler target (s.calls g) } = s.calls :=
    Hooked.calls_congr rfl rfl
  have hsub : ∀ f g', g' ∈ Function.update w.wrappers target (w.wrappers target).tail f →
      g' ∈ w.wrappers f := by
    intro f g' hmem
    by_cases heq : f = target
    · subst heq
      rw [Function.update_self] at hmem
      exact List.mem_of_mem_tail hmem
    · rwa [Function.update_of_ne heq] at hmem
  refine ⟨h.done, h.count, ?_, ?_, ?_, ?_, ?_, ?_, ?_⟩
  -- One goal for each field: the function's own stack has lost its top, and the others are what they were.
  · intro f hf
    rw [hcalls]
    by_cases heq : f = target
    · subst heq
      simpa [hrest] using hchain
    · simpa [heq] using h.chain f hf
  · intro f hf
    have heq : f ≠ target := by
      rintro rfl
      have hne := h.handler_ne_none (f := f)
      rw [htop, hf] at hne
      simp at hne
    simpa [heq] using h.bare f hf
  · intro f i hmem
    exact h.hooked f i (hsub f _ hmem)
  · intro f
    by_cases heq : f = target
    · subst heq
      have hordered := h.ordered f
      rw [hrest] at hordered
      simpa [hrest] using hordered.tail
    · simpa [heq] using h.ordered f
  · intro f a hmem
    exact h.others f a (hsub f _ hmem)
  · intro f
    by_cases heq : f = target
    · subst heq
      simpa using (h.nodup f).tail
    · simpa [heq] using h.nodup f
  · intro f g' hmem
    exact h.own f g' (hsub f _ hmem)

omit [DecidableEq F] in
/-- The loop that takes the hooks away is through with one that there is not. -/
theorem Hooked.Represents.next (h : s.Represents e k w) : s.Represents e (k + 1) w := by
  refine { h with hooked := ?_ }
  intro f i hmem
  obtain ⟨hook, hsome, htarget, hin⟩ := h.hooked f i hmem
  exact ⟨hook, hsome, htarget, fun hdone => ⟨(hin hdone).1, fun hle => (hin hdone).2 (by omega)⟩⟩

omit [DecidableEq F] in
/-- It notes that it is through with a hook. -/
theorem Hooked.Represents.noted (h : s.Represents e k w) {hook : Hook F A} (hhook : s.hooks k = some hook) :
    Hooked.Represents e (k + 1)
      { s with hooks := Function.update s.hooks k (some { hook with installed := false }) } w := by
  have hcalls : Hooked.calls
      { s with hooks := Function.update s.hooks k (some { hook with installed := false }) } = s.calls := by
    funext g
    cases g with
    | own | other => rfl
    | cbox i =>
      by_cases hi : i = k
      · subst hi
        simp [Hooked.calls, hhook]
      · simp [Hooked.calls, hi]
  refine { h with chain := by rw [hcalls]; exact h.chain, hooked := ?_ }
  intro f i hmem
  -- The slot put back is marked, and it is below those still to come.
  obtain ⟨hook', hsome, htarget, hin⟩ := h.hooked f i hmem
  by_cases hi : i = k
  · subst hi
    rw [hhook] at hsome
    cases hsome
    refine ⟨{ hook with installed := false }, by simp, htarget, ?_⟩
    intro hdone
    exact ⟨(hin hdone).1, fun hle => by omega⟩
  · refine ⟨hook', by simpa [hi] using hsome, htarget, ?_⟩
    intro hdone
    exact ⟨(hin hdone).1, fun hle => (hin hdone).2 (by omega)⟩

/-- A hook taken on the top of a function's stack. -/
theorem Hooked.Represents.hook (h : s.Represents e 0 w) (hw : w.done = true) {target : F}
    {original : ZifHandler F A} (horiginal : s.handler target = some original) :
    (s.hook r target original).Represents e 0 { w with
      wrappers := Function.update w.wrappers target (.cbox s.hookCount :: w.wrappers target) } := by
  have hlt : ∀ f i, .cbox i ∈ w.wrappers f → i < s.hookCount := by
    intro f i hmem
    obtain ⟨_, -, -, hin⟩ := h.hooked f i hmem
    exact (hin hw).1
  -- The number is new, since the numbers on the stacks are below the count.
  refine h.push ?_ (by simp) ?_ rfl ?_ ?_ rfl ?_ ((h.ordered target).push (hlt target)) ?_ ?_
  · rw [← h.handler_ne_none, horiginal]
    simp
  · intro f hmem
    exact absurd (hlt f _ hmem) (lt_irrefl _)
  · rw [horiginal]
    simp [Hooked.hook, Hooked.calls]
  · intro g' hg
    cases g' with
    | own | other => rfl
    | cbox i =>
      have hi : i ≠ s.hookCount := fun heq => hg (by rw [heq])
      simp [Hooked.hook, Hooked.calls, hi]
  · intro hdone
    rw [hw] at hdone
    cases hdone
  · intro f i hmem
    rcases hmem with ⟨hf, hi⟩ | hmem
    · simp only [ZifHandler.cbox.injEq] at hi
      subst hi
      refine ⟨_, Function.update_self .., hf.symm, ?_⟩
      intro _
      exact ⟨Nat.lt_succ_self _, fun _ => rfl⟩
    · obtain ⟨hook, hhook, htarget, hin⟩ := h.hooked f i hmem
      have hi : i ≠ s.hookCount := Nat.ne_of_lt (hlt f i hmem)
      refine ⟨hook, by simpa [Hooked.hook, hi] using hhook, htarget, ?_⟩
      intro hdone
      exact ⟨Nat.lt_succ_of_lt (hin hdone).1, (hin hdone).2⟩
  · intro f a hmem
    rcases hmem with ⟨-, ha⟩ | hmem
    · cases ha
    · exact h.others f a hmem

/-- One call of `cbox_hook_add`, when there is room. -/
theorem Hooked.Represents.hookAdd (h : s.Represents e 0 w) (hw : w.done = true)
    (hroom : s.hookCount < hookMax) :
    (∀ f, e.hookable r = some f → (Hooked.hookAdd e s r).Represents e 0 { w with
        wrappers := Function.update w.wrappers f (.cbox s.hookCount :: w.wrappers f) } ∧
      (Hooked.hookAdd e s r).hookCount = s.hookCount + 1) ∧
    (e.hookable r = none → (Hooked.hookAdd e s r).Represents e 0 w ∧
      (Hooked.hookAdd e s r).hookCount = s.hookCount) := by
  have havailable := h.available_eq (r := r)
  refine ⟨?_, ?_⟩
  · intro f hf
    have hn : e.native f = true := by
      have hfilter := Option.filter_eq_some_iff.mp hf
      exact (Bool.and_eq_true_iff.mp hfilter.2).2
    obtain ⟨original, horiginal⟩ := Option.ne_none_iff_exists'.mp (h.handler_ne_none.mpr hn)
    rw [hf, Option.bind_some, horiginal, Option.map_some] at havailable
    unfold Hooked.hookAdd
    rw [if_neg (Nat.not_le.mpr hroom), havailable]
    exact ⟨(h.hook hw horiginal).of_report rfl rfl rfl rfl rfl, rfl⟩
  · intro hnone
    rw [hnone, Option.bind_none] at havailable
    unfold Hooked.hookAdd
    rw [if_neg (Nat.not_le.mpr hroom), havailable]
    exact ⟨h.of_report rfl rfl rfl rfl rfl, rfl⟩

/-- A list of requests, each pushed or passed over. -/
theorem Hooked.Represents.hookAll {rs : List HookRequest} {n : Nat} (h : s.Represents e 0 w)
    (hw : w.done = true) (hn : s.hookCount = n) (hroom : n + rs.length ≤ hookMax) :
    (rs.foldl (Hooked.hookAdd e) s).Represents e 0 { w with
      wrappers := Wrapped.pushAll (rs.filterMap e.hookable) n w.wrappers } := by
  induction rs generalizing s w n with
  | nil => exact h
  | cons r rs ih =>
    rw [List.length_cons] at hroom
    subst hn
    obtain ⟨hsome, hnone⟩ := h.hookAdd (r := r) hw (by omega)
    rw [List.foldl_cons, List.filterMap_cons]
    cases hr : e.hookable r with
    | none =>
      obtain ⟨hadd, hcount⟩ := hnone hr
      exact ih hadd hw hcount (by omega)
    | some f =>
      obtain ⟨hadd, hcount⟩ := hsome f hr
      exact ih hadd hw hcount (by omega)

/-- Nothing asks for more than thirteen hooks. -/
theorem length_requests (flags : HookFlags) : flags.requests.length ≤ 13 := by
  obtain ⟨pdo, redis, curl, streams⟩ := flags
  cases pdo <;> cases redis <;> cases curl <;> cases streams <;> decide

omit [DecidableEq F] in
/-- Nothing is hooked yet when the hooks are announced. -/
theorem Hooked.Represents.announce (h : s.Represents e 0 w) (flags : HookFlags)
    (hempty : ∀ index, s.hooks index = none) : (s.announce flags).Represents e 0 { w with done := true } := by
  have hcount : true = false → s.hookCount = 0 := by
    intro hdone
    cases hdone
  refine { h with done := rfl, count := hcount, hooked := ?_ }
  intro f i hmem
  obtain ⟨hook, hhook, -⟩ := h.hooked f i hmem
  rw [hempty i] at hhook
  cases hhook

/-- `cbox_hooks_install`, when none of the hooks is in use. -/
theorem Hooked.Represents.install (h : s.Represents e 0 w) (flags : HookFlags)
    (hunused : s.hooksDone = false → ∀ index, s.hooks index = none) :
    (s.hooksInstall e flags).Represents e 0
      (if w.done then w else ⟨Wrapped.pushAll (flags.requests.filterMap e.hookable) 0 w.wrappers, true⟩) := by
  unfold Hooked.hooksInstall
  rw [h.done] at hunused ⊢
  cases hw : w.done with
  | true => exact h
  | false =>
    have hroom : 0 + flags.requests.length ≤ hookMax := by
      rw [Nat.zero_add]
      exact (length_requests flags).trans (by decide)
    exact (h.announce flags (hunused hw)).hookAll rfl (h.count hw) hroom

variable [DecidableEq A]

/-- One turn of the loop that takes the hooks away. -/
theorem Hooked.Represents.unhook (h : s.Represents e k w) (hw : w.done = true) :
    (s.unhook k).Represents e (k + 1) { w with wrappers := fun f => dropIndex k (w.wrappers f) } := by
  cases hhook : s.hooks k with
  | none =>
    have heq : s.unhook k = s := by simp [Hooked.unhook, hhook]
    have hdrop : ∀ f, dropIndex k (w.wrappers f) = w.wrappers f := by
      intro f
      apply dropIndex_of_not_mem
      intro hmem
      obtain ⟨hook, hsome, -⟩ := h.hooked f k hmem
      rw [hhook] at hsome
      cases hsome
    rw [heq]
    simp only [hdrop]
    exact h.next
  | some hook =>
    have hfound : ∀ f, .cbox k ∈ w.wrappers f → f = hook.target ∧ hook.installed = true := by
      intro f hmem
      obtain ⟨hook', hsome, htarget, hin⟩ := h.hooked f k hmem
      rw [hhook] at hsome
      cases hsome
      exact ⟨htarget.symm, (hin hw).2 le_rfl⟩
    by_cases htop : hook.installed = true ∧ s.handler hook.target = some (.cbox k)
    · -- our handler is on top of the function's: what it has found there comes back
      obtain ⟨rest, hrest⟩ := h.wrappers_eq (by simp) htop.2
      have hdrop : (fun f => dropIndex k (w.wrappers f)) =
          Function.update w.wrappers hook.target (w.wrappers hook.target).tail := by
        funext f
        by_cases heq : f = hook.target
        · subst heq
          rw [Function.update_self, hrest]
          exact if_pos rfl
        · rw [Function.update_of_ne heq]
          exact dropIndex_of_not_mem fun hmem => heq (hfound f hmem).1
      have hnext : s.calls (.cbox k) = some hook.original := by simp [Hooked.calls, hhook]
      have hpopped := (h.pop (by simp) htop.2).noted hhook
      rw [hnext] at hpopped
      rw [hdrop]
      simpa [Hooked.unhook, hhook, htop] using hpopped
    · -- somebody else is on top
      have hdrop : ∀ f, dropIndex k (w.wrappers f) = w.wrappers f := by
        intro f
        apply dropIndex_of_not_top
        intro rest hf
        obtain ⟨htarget, hinstalled⟩ := hfound f (by rw [hf]; exact List.mem_cons_self)
        subst htarget
        exact htop ⟨hinstalled, (h.handler_eq hf).1⟩
      simp only [hdrop]
      simpa [Hooked.unhook, hhook, htop] using h.noted hhook

/-- Each number is taken out of every stack where it is on the top. -/
theorem Hooked.Represents.unhookAll {n : Nat} (h : s.Represents e 0 w) (hw : w.done = true) :
    ((List.range n).foldl Hooked.unhook s).Represents e n { w with
      wrappers := fun f => (List.range n).foldl (fun hs k => dropIndex k hs) (w.wrappers f) } := by
  induction n with
  | zero => exact h
  | succ n ih =>
    have hnext := ih.unhook hw
    rw [List.range_succ, List.foldl_append]
    simpa only [List.foldl_append, List.foldl_cons, List.foldl_nil] using hnext

/-- `cbox_hooks_uninstall`. -/
theorem Hooked.Represents.uninstall (h : s.Represents e 0 w) :
    s.hooksUninstall.Represents e 0
      (if w.done then ⟨fun f => dropHook (w.wrappers f), false⟩ else w) := by
  cases hw : w.done with
  | false =>
    have hsame : s.hooksUninstall = s := by
      have hcount := h.count hw
      have hdone := h.done
      rw [hw] at hdone
      unfold Hooked.hooksUninstall
      rw [hcount, List.range_zero, List.foldl_nil]
      cases s
      cases hcount
      cases hdone
      rfl
    rw [hsame]
    exact h
  | true =>
    have hall := h.unhookAll (n := s.hookCount) hw
    have hdrop : ∀ f, (List.range s.hookCount).foldl (fun hs k => dropIndex k hs) (w.wrappers f) =
        dropHook (w.wrappers f) := by
      intro f
      -- Every number on a stack is below the count, so the restore comes to all of them.
      apply foldl_dropIndex (h.ordered f)
      intro i hmem
      obtain ⟨_, -, -, hin⟩ := h.hooked f i hmem
      exact (hin hw).1
    simp only [hdrop] at hall
    refine { hall with done := rfl, count := fun _ => rfl, hooked := ?_ }
    intro f i hmem
    obtain ⟨hook, hhook, htarget, -⟩ := hall.hooked f i hmem
    exact ⟨hook, hhook, htarget, fun hdone => by cases hdone⟩

/-- Another extension puts a handler on top. -/
theorem Hooked.Represents.wrap (h : s.Represents e 0 w) {a : A} (hnew : s.replaced a = none)
    (hhandler : s.handler f ≠ none) :
    Hooked.Represents e 0 { s with
      handler := Function.update s.handler f (some (.other a))
      replaced := Function.update s.replaced a (s.handler f) }
      { w with wrappers := Function.update w.wrappers f (.other a :: w.wrappers f) } := by
  have hnot : ∀ f, .other a ∉ w.wrappers f := fun f hmem => h.others f a hmem hnew
  refine h.push (h.handler_ne_none.mp hhandler) (by simp) hnot rfl ?_ ?_ rfl (fun _ => rfl)
    -- A handler that was never used before is on no stack.
    (h.ordered f) ?_ ?_
  · simp [Hooked.calls]
  · intro g hg
    cases g with
    | own | cbox => rfl
    | other a' =>
      have ha : a' ≠ a := fun heq => hg (by rw [heq])
      simp [Hooked.calls, ha]
  · intro f' i hmem
    rcases hmem with ⟨-, hi⟩ | hmem
    · cases hi
    · exact h.hooked f' i hmem
  · intro f' a' hmem
    by_cases ha : a' = a
    · subst ha
      simpa using hhandler
    · rcases hmem with ⟨-, heq⟩ | hmem
      · simp only [ZifHandler.other.injEq] at heq
        exact absurd heq ha
      · simpa [ha] using h.others f' a' hmem

omit [DecidableEq A] in
/-- It takes it away again. -/
theorem Hooked.Represents.unwrap (h : s.Represents e 0 w) {a : A} (htop : s.handler f = some (.other a)) :
    Hooked.Represents e 0 { s with handler := Function.update s.handler f (s.replaced a) }
      { w with wrappers := Function.update w.wrappers f (w.wrappers f).tail } :=
  h.pop (by simp) htop

/-- One step. -/
theorem Hooked.Represents.step (h : s.Represents e 0 w) {a : HookAction F A}
    (hstep : Guarded NotReused (HookSteps e) s a s') : s'.Represents e 0 (w.step e a) := by
  -- An uninstall keeps what lies under another's wrapper. The other three push or pop.
  obtain ⟨hfresh, hstep⟩ := hstep
  cases a with
  | install flags =>
    cases hstep
    exact h.install flags hfresh
  | uninstall =>
    cases hstep
    exact h.uninstall
  | wrap f a =>
    simp only [HookSteps, Hooked.step] at hstep
    split at hstep
    case isFalse => cases hstep
    case isTrue hguard =>
      cases hstep
      exact h.wrap hguard.1 hguard.2
  | unwrap f a =>
    simp only [HookSteps, Hooked.step] at hstep
    split at hstep
    case isFalse => cases hstep
    case isTrue htop =>
      cases hstep
      exact h.unwrap htop

end

/-- The runs from the first request on. -/
abbrev HookRun [DecidableEq F] [DecidableEq A] (e : Engine F) :
    Hooked F A → List (HookAction F A) → Hooked F A → Prop :=
  Run (Guarded NotReused (HookSteps e))

/-- Nothing is on the stacks at first. -/
theorem Hooked.represents_blank (e : Engine F) :
    (Hooked.blank e : Hooked F A).Represents e 0 ⟨fun _ => [], false⟩ where
  done := rfl
  count _ := rfl
  chain f hf := by
    simp only [Hooked.blank, hf, if_true, List.nil_append]
    exact .cons _ (.nil none)
  bare f hf := by simp [Hooked.blank, hf]
  hooked f i hmem := by cases hmem
  ordered f := List.Pairwise.nil
  others f a hmem := by cases hmem
  nodup f := List.nodup_nil
  own f g hmem := by cases hmem

/-- The stacks are represented after every run. -/
theorem Hooked.represents_of_run [DecidableEq F] [DecidableEq A] {e : Engine F}
    {as : List (HookAction F A)} {s s' : Hooked F A} {w : Wrapped F A} (h : s.Represents e 0 w)
    (hrun : HookRun e s as s') : s'.Represents e 0 (as.foldl (Wrapped.step e) w) := by
  induction hrun generalizing w with
  | nil s => exact h
  | cons hstep _ ih => exact ih (h.step hstep)

end CboxTelemetry.Extension
