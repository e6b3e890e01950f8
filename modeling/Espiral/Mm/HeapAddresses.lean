import Espiral.Allocator.BumpRuns
import Espiral.Mm.HeapTermination

/-!
# Addresses of heap allocations

The 64-bit sum in the bump allocator is the only thing between a request and the
addresses of all later ones. As long as no sum wraps around, the cursor stays in
its range, and the ranges a heap returns lie above its base and apart.
-/

namespace Espiral.HeapManager

set_option autoImplicit false

open AddressSpaceManager Contracts MachineWords Traces

structure HeapRecord where
  context : HeapContext
  ranges : List (Nat × Nat)

/-- An allocation of any 64-bit size that returns or throws, or a step of somebody else. -/
inductive RequestStep (platform : Platform) : HeapRecord → HeapCall → HeapRecord → Prop
  | returned {state : HeapRecord} {size : Nat} {result : Option Nat} {next : HeapContext}
      (narrow : size < 2 ^ 64)
      (ran : HeapManager.allocate size state.context = .ok result next) :
      RequestStep platform state (.allocate size)
        { context := next
          ranges := (result.toList.map fun va => (va, size)) ++ state.ranges }
  | thrown {state : HeapRecord} {size : Nat} {fault : Fault} {next : HeapContext}
      (narrow : size < 2 ^ 64) (ended : fault ≠ .nonTermination)
      (failed : HeapManager.allocate size state.context = .error fault next) :
      RequestStep platform state (.allocate size) { state with context := next }
  | other {state : HeapRecord} {operation : Operation} {aspace : AddressSpaceManager}
      (step : Step platform state.context.aspace_ operation aspace)
      (kept : operation ≠ .freePageTable state.context.heap.top_pgtbl_pa_) :
      RequestStep platform state (.other operation)
        { state with context := { state.context with aspace_ := aspace } }

/-- The steps of a run in which the range of the heap ends below the last 32-bit address and
no sum with its cursor wraps around. -/
structure ExactRequest (platform : Platform) (state : HeapRecord) (call : HeapCall)
    (next : HeapRecord) : Prop where
  step : RequestStep platform state call next
  exact : ∀ size, call = .allocate size →
    BumpAllocator.Exact state.context.heap.vm_allocator_ (.allocate size)
  below : next.context.heap.vm_allocator_.baseAddress_ +
    next.context.heap.vm_allocator_.capacity_ < 2 ^ 32

structure RangesApart (base : Nat) (ranges : List (Nat × Nat)) : Prop where
  low : ∀ range ∈ ranges, base ≤ range.1
  apart : ranges.Pairwise fun later earlier => earlier.1 + earlier.2 ≤ later.1

structure RangesServed (platform : Platform) (holes : HoleList) (root base : Nat)
    (state : HeapRecord) : Prop extends RangesApart base state.ranges where
  books : HeapBooks platform holes root state.context
  baseIs : state.context.heap.vm_allocator_.baseAddress_ = base
  range : BumpAllocator.InRange state.context.heap.vm_allocator_
  before : ∀ range ∈ state.ranges,
    range.1 + range.2 ≤ state.context.heap.vm_allocator_.nextAddress_

section Steps

variable {platform : Platform} {holes : HoleList} {root base size : Nat}
  {state next : HeapRecord} {call : HeapCall}

theorem RequestStep.attempt (step : RequestStep platform state call next) :
    HeapAttempt platform state.context call next.context := by
  cases step with
  | returned narrow ran => exact HeapAttempt.returned narrow ran
  | thrown narrow ended failed => exact HeapAttempt.thrown narrow ended failed
  | other step kept => exact HeapAttempt.other step kept

/-- The accepted bytes of a sum that does not wrap around follow the cursor. -/
theorem Bumped.exact {allocator after : BumpAllocator} {result : Option Nat}
    (bumped : Bumped size allocator result after) (range : BumpAllocator.InRange allocator)
    (exact : allocator.nextAddress_ + size < 2 ^ 64)
    (below : after.baseAddress_ + after.capacity_ < 2 ^ 32) :
    result = some allocator.nextAddress_ ∧ after.baseAddress_ = allocator.baseAddress_ ∧
      after.nextAddress_ = allocator.nextAddress_ + size ∧ BumpAllocator.InRange after := by
  obtain ⟨capacity, larger, accepts, same⟩ := bumped.grown
  have low := range.low
  have high := range.high
  have fits : allocator.nextAddress_ + size ≤ allocator.baseAddress_ + capacity := by
    cases accepts.2 with
    | inl fits => exact fits
    | inr wraps => exact absurd exact (Nat.not_lt.mpr wraps)
  rw [add64_of_lt exact] at same
  subst same
  have narrow : allocator.nextAddress_ < 2 ^ 32 := Nat.lt_of_le_of_lt high range.below
  refine ⟨by rw [bumped.address, wrap32_of_lt narrow], rfl, rfl, ?_, fits, below⟩
  exact Nat.le_trans low (Nat.le_add_right _ _)

theorem RangesServed.returned {result : Option Nat} {after : HeapContext}
    (served : RangesServed platform holes root base state) (narrow : size < 2 ^ 64)
    (ran : HeapManager.allocate size state.context = .ok result after)
    (exact : state.context.heap.vm_allocator_.nextAddress_ + size < 2 ^ 64)
    (below : after.heap.vm_allocator_.baseAddress_ + after.heap.vm_allocator_.capacity_ < 2 ^ 32) :
    RangesServed platform holes root base
      { context := after
        ranges := (result.toList.map fun va => (va, size)) ++ state.ranges } := by
  have deep : allocateDepth = 1048574 + 2 := rfl
  have low := served.range.low
  rw [HeapManager.allocate, deep] at ran
  by_cases terminates : Terminates size state.context.heap
  · obtain ⟨same, outcome⟩ := served.books.allocates narrow terminates 1048574
    rw [same] at ran
    obtain ⟨books, bumped⟩ := outcome.of_ok ran
    obtain ⟨start, base, cursor, range⟩ := bumped.exact served.range exact below
    rw [start]
    refine ⟨⟨?_, ?_⟩, books, base.trans served.baseIs, range, ?_⟩
    · intro range member
      cases List.mem_cons.mp member with
      | inl here =>
          rw [here, ← served.baseIs]
          exact low
      | inr old => exact served.low range old
    · apply List.pairwise_cons.mpr
      exact ⟨served.before, served.apart⟩
    · intro range member
      rw [cursor]
      cases List.mem_cons.mp member with
      | inl here =>
          rw [here]
      | inr old => exact Nat.le_trans (served.before range old) (Nat.le_add_right _ _)
  · rw [served.books.never_ends narrow terminates] at ran
    cases ran

theorem RangesServed.thrown {fault : Fault} {after : HeapContext}
    (served : RangesServed platform holes root base state) (narrow : size < 2 ^ 64)
    (ended : fault ≠ .nonTermination)
    (failed : HeapManager.allocate size state.context = .error fault after) :
    RangesServed platform holes root base { state with context := after } := by
  have deep : allocateDepth = 1048574 + 2 := rfl
  rw [HeapManager.allocate, deep] at failed
  by_cases terminates : Terminates size state.context.heap
  · obtain ⟨same, outcome⟩ := served.books.allocates narrow terminates 1048574
    rw [same] at failed
    obtain ⟨_, books, heap⟩ := outcome.of_error failed
    refine ⟨served.toRangesApart, books, ?_, ?_, ?_⟩
    · rw [heap]
      exact served.baseIs
    · rw [heap]
      exact served.range
    · intro range member
      rw [heap]
      exact served.before range member
  · rw [served.books.never_ends narrow terminates] at failed
    cases failed
    exact absurd rfl ended

theorem RangesServed.step (served : RangesServed platform holes root base state)
    (request : ExactRequest platform state call next) :
    RangesServed platform holes root base next := by
  have books := served.books.attempt request.step.attempt
  cases request.step with
  | returned narrow ran =>
      exact served.returned narrow ran (request.exact _ rfl) request.below
  | thrown narrow ended failed => exact served.thrown narrow ended failed
  | other step kept =>
      exact ⟨served.toRangesApart, books, served.baseIs, served.range, served.before⟩

end Steps

/-- In every run of the bump allocator whose operations are all exact the cursor is in its
range, and there an operation keeps it so exactly if it is exact. In every run of a heap whose
requests are exact the ranges are above its base and apart. -/
theorem bump_arithmetic_safe {labels : List (BumpAllocator.Call × Option Nat)}
    {state : BumpAllocator} (run : Trace BumpAllocator.ExactStep BumpAllocator.new labels state)
    {platform : Platform} (valid : platform.Valid) (localMemSize : Nat)
    {operations : List Operation} {aspace : AddressSpaceManager}
    (setup : Trace (Step platform) (AddressSpaceManager.new platform localMemSize) operations aspace)
    {root : Nat} (isLive : aspace.Live root) {base_va : Nat} (aligned : 4096 ∣ base_va)
    (narrow : base_va < 2 ^ 32) {calls : List HeapCall} {last : HeapRecord}
    (requests : Trace (ExactRequest platform)
      { context := { heap := new root base_va, aspace_ := aspace }, ranges := [] } calls last) :
    (BumpAllocator.InRange state ∧ ∀ label next, BumpAllocator.CallStep state label next →
      (BumpAllocator.Kept state label next ↔ BumpAllocator.Exact state label.1)) ∧
    BumpAllocator.InRange last.context.heap.vm_allocator_ ∧ RangesApart base_va last.ranges := by
  have range := BumpAllocator.run_inRange run
  rw [new_withHoles] at setup
  have books := new_books (run_reached valid setup) isLive aligned narrow
  have start : RangesServed platform (AddressSpaceManager.new platform localMemSize).hole_list_
      root base_va
      { context := { heap := new root base_va, aspace_ := aspace }, ranges := [] } :=
    ⟨⟨fun range member => by simp at member, List.Pairwise.nil⟩, books, rfl,
      ⟨Nat.le_refl base_va, Nat.le_refl base_va, narrow⟩, fun range member => by simp at member⟩
  have served := requests.invariant _ (fun _ _ _ kept step => kept.step step) start
  exact ⟨⟨range, fun label next step => BumpAllocator.kept_iff range step⟩, served.range,
    served.toRangesApart⟩

section Small

/-- A request of nearly 2^64 bytes is accepted, the cursor wraps around to an address below
the base, and the next request is given that address. -/
theorem huge_request_wraps : ∃ wrapped last,
    Trace BumpAllocator.CallStep BumpAllocator.new
      [(.initBaseAddress 0x10000, none), (.initCapacity 0x1000, none),
        (.allocate (2 ^ 64 - 0x8000), some 0x10000)] wrapped ∧
      ¬BumpAllocator.InRange wrapped ∧
        BumpAllocator.CallStep wrapped (.allocate 16, some 0x8000) last := by
  let placed : BumpAllocator := ⟨0x10000, 0, 0x10000, none⟩
  let sized : BumpAllocator := ⟨0x10000, 0x1000, 0x10000, none⟩
  let wrapped : BumpAllocator := ⟨0x10000, 0x1000, 0x8000, none⟩
  let last : BumpAllocator := ⟨0x10000, 0x1000, 0x8010, none⟩
  have first : BumpAllocator.CallStep BumpAllocator.new (.initBaseAddress 0x10000, none) placed :=
    ⟨(by decide : 0x10000 < 2 ^ 64), by decide, by decide⟩
  have second : BumpAllocator.CallStep placed (.initCapacity 0x1000, none) sized :=
    ⟨(by decide : 0x1000 < 2 ^ 64), by decide, by decide⟩
  have third : BumpAllocator.CallStep sized (.allocate (2 ^ 64 - 0x8000), some 0x10000) wrapped :=
    ⟨(by decide : 2 ^ 64 - 0x8000 < 2 ^ 64), by decide, by decide⟩
  have fourth : BumpAllocator.CallStep wrapped (.allocate 16, some 0x8000) last :=
    ⟨(by decide : 16 < 2 ^ 64), by decide, by decide⟩
  refine ⟨wrapped, last, ?_, ?_, fourth⟩
  · exact Trace.cons first (Trace.cons second (Trace.cons third (Trace.nil wrapped)))
  · intro range
    exact absurd range.low (by decide)

theorem smallBump_run : ∃ state, Trace BumpAllocator.ExactStep BumpAllocator.new
    [(.initBaseAddress 0x10000, none), (.setGrowable true, none), (.growCapacity 0x1000, none),
      (.allocate 16, some 0x10000), (.allocate 32, some 0x10010)] state ∧
      state.nextAddress_ = 0x10030 := by
  let placed : BumpAllocator := ⟨0x10000, 0, 0x10000, none⟩
  let growable : BumpAllocator := ⟨0x10000, 0, 0x10000, some true⟩
  let grown : BumpAllocator := ⟨0x10000, 0x1000, 0x10000, some true⟩
  let served : BumpAllocator := ⟨0x10000, 0x1000, 0x10010, some true⟩
  let last : BumpAllocator := ⟨0x10000, 0x1000, 0x10030, some true⟩
  have first : BumpAllocator.ExactStep BumpAllocator.new (.initBaseAddress 0x10000, none) placed :=
    ⟨(by decide : 0 ≤ 0x10000), (by decide : 0x10000 < 2 ^ 64), by decide, by decide⟩
  have second : BumpAllocator.ExactStep placed (.setGrowable true, none) growable :=
    ⟨trivial, trivial, by decide, by decide⟩
  have third : BumpAllocator.ExactStep growable (.growCapacity 0x1000, none) grown :=
    ⟨fun _ => by decide, (by decide : 0x1000 < 2 ^ 64), by decide, by decide⟩
  have fourth : BumpAllocator.ExactStep grown (.allocate 16, some 0x10000) served :=
    ⟨(by decide : 0x10000 + 16 < 2 ^ 64), (by decide : 16 < 2 ^ 64), by decide, by decide⟩
  have fifth : BumpAllocator.ExactStep served (.allocate 32, some 0x10010) last :=
    ⟨(by decide : 0x10010 + 32 < 2 ^ 64), (by decide : 32 < 2 ^ 64), by decide, by decide⟩
  exact ⟨last, Trace.cons first (Trace.cons second (Trace.cons third (Trace.cons fourth
    (Trace.cons fifth (Trace.nil last))))), rfl⟩

/-- That bump allocator, and two requests of a page each from a heap at 0x10000. -/
theorem bump_arithmetic_safe_small : ∃ state aspace last,
    Trace BumpAllocator.ExactStep BumpAllocator.new
        [(.initBaseAddress 0x10000, none), (.setGrowable true, none), (.growCapacity 0x1000, none),
          (.allocate 16, some 0x10000), (.allocate 32, some 0x10010)] state ∧
      BumpAllocator.InRange state ∧
      Trace (ExactRequest smallPlatform)
        { context := { heap := new 0x1000 0x10000, aspace_ := aspace }, ranges := [] }
        [.allocate 4096, .allocate 4096] last ∧
      last.ranges = [(0x11000, 4096), (0x10000, 4096)] ∧ RangesApart 0x10000 last.ranges := by
  obtain ⟨state, bumps, _⟩ := smallBump_run
  obtain ⟨created, aspace, final, ran, isLive, allocated, _, again, _⟩ := smallPlatform_twoPages
  have setup : Trace (Step smallPlatform) (AddressSpaceManager.new smallPlatform 0)
      [.allocatePageTable] created := Trace.cons ⟨trivial, Or.inl ⟨_, ran⟩⟩ (Trace.nil created)
  have first : ExactRequest smallPlatform
      { context := { heap := new 0x1000 0x10000, aspace_ := created }, ranges := [] }
      (.allocate 4096)
      { context := { heap := onePageHeap, aspace_ := aspace }, ranges := [(0x10000, 4096)] } :=
    ⟨@RequestStep.returned smallPlatform
        { context := { heap := new 0x1000 0x10000, aspace_ := created }, ranges := [] } 4096 _ _
        (by decide) allocated, fun size same => by
      cases same
      exact (by decide : 0x10000 + 4096 < 2 ^ 64),
      (by decide : 0x10000 + (0 + roundUp 4096 4096) < 2 ^ 32)⟩
  have second : ExactRequest smallPlatform
      { context := { heap := onePageHeap, aspace_ := aspace }, ranges := [(0x10000, 4096)] }
      (.allocate 4096)
      { context := { heap := twoPageHeap, aspace_ := final }
        ranges := [(0x11000, 4096), (0x10000, 4096)] } :=
    ⟨@RequestStep.returned smallPlatform
        { context := { heap := onePageHeap, aspace_ := aspace }, ranges := [(0x10000, 4096)] } 4096 _ _
        (by decide) again, fun size same => by
      cases same
      exact (by decide : 0x11000 + 4096 < 2 ^ 64),
      (by decide : 0x10000 + (0x1000 + roundUp 4096 4096) < 2 ^ 32)⟩
  have requests := Trace.cons first (Trace.cons second (Trace.nil _))
  obtain ⟨⟨range, _⟩, _, apart⟩ := bump_arithmetic_safe bumps smallPlatform_valid 0 setup isLive
    (by decide) (by decide) requests
  exact ⟨state, created, _, bumps, range, requests, rfl, apart⟩

end Small

end Espiral.HeapManager
