import Espiral.Mm.HeapRuns
import Espiral.Mm.MappingFailures

/-!
# When a heap allocation ends

The source grows the heap and calls itself again, without a bound. Here sizes are
arbitrary 64-bit numbers, allocations may throw, and a size near the end of the
64-bit range may take the next address of the heap below its base.
-/

namespace Espiral.HeapManager

set_option autoImplicit false

open AddressSpaceManager Contracts MachineWords Traces

/-- The pages the source asks for; the sum has 64 bits. -/
def pagesNeeded (size : Nat) : Nat := add64 size (PAGE_SIZE - 1) / PAGE_SIZE

def growHeap (size : Nat) : Action HeapContext Unit := do
  let self ← get
  mapPages self.heap.lastVa (pagesNeeded size) self.heap.top_pgtbl_pa_
  onVmAllocator (BumpAllocator.growCapacity (wrap64 (pagesNeeded size * PAGE_SIZE)))

/-- The call returns or throws and has grown the heap at most once: two levels of the
recursion are enough. -/
def EndsAfterOneGrowth (size : Nat) (context : HeapContext) : Prop :=
  ∀ last, allocateWithin 2 size context ≠ .error .nonTermination last

/-- The size is not zero, and if so many bytes that their page count wraps around to zero,
then the sum with the next address wraps around as well. -/
def Terminates (size : Nat) (heap : HeapManager) : Prop :=
  size ≠ 0 ∧ (2 ^ 64 - 4096 < size → 2 ^ 64 ≤ heap.vm_allocator_.nextAddress_ + size)

instance (size : Nat) (heap : HeapManager) : Decidable (Terminates size heap) :=
  inferInstanceAs (Decidable (_ ∧ _))

/-- An allocation of any size that returns or throws; or a step of somebody else, on any
table, that does not free this one. -/
inductive HeapAttempt (platform : Platform) : HeapContext → HeapCall → HeapContext → Prop
  | returned {context next : HeapContext} {size : Nat} {result : Option Nat}
      (narrow : size < 2 ^ 64)
      (ran : HeapManager.allocate size context = .ok result next) :
      HeapAttempt platform context (.allocate size) next
  | thrown {context next : HeapContext} {size : Nat} {fault : Fault} (narrow : size < 2 ^ 64)
      (ended : fault ≠ .nonTermination)
      (failed : HeapManager.allocate size context = .error fault next) :
      HeapAttempt platform context (.allocate size) next
  | other {context : HeapContext} {operation : Operation} {aspace : AddressSpaceManager}
      (step : Step platform context.aspace_ operation aspace)
      (kept : operation ≠ .freePageTable context.heap.top_pgtbl_pa_) :
      HeapAttempt platform context (.other operation) { context with aspace_ := aspace }

structure HeapBooks (platform : Platform) (holes : HoleList) (root : Nat)
    (context : HeapContext) : Prop where
  reached : Reached platform (MayMapItself platform holes) holes context.aspace_
  rootIs : context.heap.top_pgtbl_pa_ = root
  isLive : context.aspace_.Live root
  bounded : context.heap.vm_allocator_.Bounded
  mapped : Mapped context.heap context.aspace_.history

section Sizes

variable {size : Nat}

theorem pagesNeeded_wrapped (large : 2 ^ 64 - 4096 < size) (narrow : size < 2 ^ 64) :
    pagesNeeded size = 0 := by
  unfold pagesNeeded add64 wrap64 PAGE_SIZE
  omega

theorem pagesNeeded_small (small : size ≤ 2 ^ 64 - 4096) :
    pagesNeeded size = (size + 4095) / 4096 := by
  unfold pagesNeeded PAGE_SIZE
  rw [add64_of_lt (by omega)]

theorem pagesNeeded_covers (small : size ≤ 2 ^ 64 - 4096) : size ≤ pagesNeeded size * 4096 := by
  rw [pagesNeeded_small small]
  omega

end Sizes

section Allocation

variable {platform : Platform} {holes : HoleList} {root size : Nat} {context next : HeapContext}

theorem HeapBooks.accepted (books : HeapBooks platform holes root context) (narrow : size < 2 ^ 64)
    (accepts : BumpAllocator.Accepts size context.heap.vm_allocator_) (depth : Nat) :
    allocateWithin (depth + 1) size context =
        .ok (some (wrap32 context.heap.vm_allocator_.nextAddress_))
          { context with
            heap := { context.heap with
              vm_allocator_ := { context.heap.vm_allocator_ with
                nextAddress_ := add64 context.heap.vm_allocator_.nextAddress_ size } } } ∧
      HeapBooks platform holes root
        { context with
          heap := { context.heap with
            vm_allocator_ := { context.heap.vm_allocator_ with
              nextAddress_ := add64 context.heap.vm_allocator_.nextAddress_ size } } } := by
  obtain ⟨ran, bounded⟩ := books.bounded.allocate_accepts narrow accepts
  constructor
  · rw [allocateWithin, bind_ok (onVmAllocator_ok ran)]
    rfl
  · exact ⟨books.reached, books.rootIs, books.isLive, bounded, books.mapped⟩

theorem HeapBooks.rejected (books : HeapBooks platform holes root context)
    (rejects : ¬BumpAllocator.Accepts size context.heap.vm_allocator_) (depth : Nat) :
    allocateWithin (depth + 1) size context =
      (do growHeap size
          allocateWithin depth size : Action HeapContext (Option Nat)) context := by
  have full : onVmAllocator (BumpAllocator.allocate size) context = .ok none context :=
    onVmAllocator_ok (books.bounded.allocate_rejects rejects)
  have asked : (get : Action HeapContext HeapContext) context = .ok context context := rfl
  rw [allocateWithin, bind_ok full, growHeap, bind_assoc]
  simp only
  rw [bind_ok asked, bind_ok asked, bind_assoc]
  rfl

theorem HeapBooks.grown (books : HeapBooks platform holes root context)
    (growth : Growth platform (MayMapItself platform holes) holes context (pagesNeeded size) next) :
    onVmAllocator (BumpAllocator.growCapacity (wrap64 (pagesNeeded size * PAGE_SIZE))) next =
        .ok () { next with
          heap := { context.heap with
            vm_allocator_ := { context.heap.vm_allocator_ with
              capacity_ := context.heap.vm_allocator_.capacity_ + pagesNeeded size * 4096 } } } ∧
      HeapBooks platform holes root
        { next with
          heap := { context.heap with
            vm_allocator_ := { context.heap.vm_allocator_ with
              capacity_ :=
                context.heap.vm_allocator_.capacity_ + pagesNeeded size * 4096 } } } := by
  have aligned := books.bounded.capacityAligned
  have narrow := growth.narrow
  have pages : (context.heap.vm_allocator_.capacity_ + pagesNeeded size * 4096) / 4096 =
      context.heap.pageCount + pagesNeeded size := Nat.add_mul_div_right _ _ (by decide)
  have capacityNarrow :
      context.heap.vm_allocator_.capacity_ + pagesNeeded size * 4096 ≤ 2 ^ 32 := by
    rw [pageCount] at narrow
    omega
  have additional : wrap64 (pagesNeeded size * PAGE_SIZE) = pagesNeeded size * 4096 := by
    rw [PAGE_SIZE]
    exact wrap64_of_lt (by omega)
  obtain ⟨ran, bounded⟩ := books.bounded.grow (Nat.dvd_mul_left 4096 (pagesNeeded size))
    capacityNarrow
  have isLive := growth.isLive
  rw [books.rootIs] at isLive
  constructor
  · rw [additional, ← growth.heap]
    apply onVmAllocator_ok
    rw [growth.heap]
    exact ran
  · refine ⟨growth.reached, books.rootIs, isLive, bounded, ?_⟩
    change MappedUpTo context.heap ((_ + pagesNeeded size * 4096) / 4096) _
    rw [pages]
    exact growth.mapped

theorem HeapBooks.failed (books : HeapBooks platform holes root context) {count : Nat}
    (growth : Growth platform (MayMapItself platform holes) holes context count next) :
    HeapBooks platform holes root next := by
  have isLive := growth.isLive
  rw [books.rootIs] at isLive
  refine ⟨growth.reached, by rw [growth.heap, books.rootIs], isLive, ?_, ?_⟩
  · rw [growth.heap]
    exact books.bounded
  · rw [Mapped, growth.heap]
    intro position inside
    exact growth.mapped position (Nat.lt_add_right count inside)

/-- Growing either maps all its pages and adds them to the heap, or throws and leaves the
heap as it was. -/
theorem HeapBooks.grow (books : HeapBooks platform holes root context) :
    Ensures (growHeap size) context
      (fun _ next => HeapBooks platform holes root next ∧
        next.heap.vm_allocator_ = { context.heap.vm_allocator_ with
          capacity_ := context.heap.vm_allocator_.capacity_ + pagesNeeded size * 4096 })
      (fun fault next => MappingFault fault ∧ HeapBooks platform holes root next ∧
        next.heap = context.heap) := by
  have asked : (get : Action HeapContext HeapContext) context = .ok context context := rfl
  have isLive := books.isLive
  rw [← books.rootIs] at isLive
  rw [growHeap]
  apply ensures_bind_of_run asked
  apply Ensures.bind
  apply (mapPages_spec (pagesNeeded size) books.reached isLive books.bounded books.mapped).weaken
  · intro _ next growth
    obtain ⟨ran, kept⟩ := books.grown growth
    exact ensures_of_run ran ⟨kept, rfl⟩
  · intro fault next outcome
    obtain ⟨failed, count, growth⟩ := outcome
    exact ⟨failed, books.failed growth, growth.heap⟩

theorem accepts_after_growth (bounded : context.heap.vm_allocator_.Bounded)
    (terminates : Terminates size context.heap)
    (rejects : ¬BumpAllocator.Accepts size context.heap.vm_allocator_) :
    BumpAllocator.Accepts size { context.heap.vm_allocator_ with
      capacity_ := context.heap.vm_allocator_.capacity_ + pagesNeeded size * 4096 } := by
  have high := bounded.high
  have sum := not_or.mp fun fits => rejects ⟨terminates.1, fits⟩
  have small : size ≤ 2 ^ 64 - 4096 := by
    by_contra large
    exact sum.2 (terminates.2 (Nat.lt_of_not_le large))
  have covers := pagesNeeded_covers small
  refine ⟨terminates.1, Or.inl ?_⟩
  change context.heap.vm_allocator_.nextAddress_ + size ≤
    context.heap.vm_allocator_.baseAddress_ + (context.heap.vm_allocator_.capacity_ + _)
  omega

/-- What a returned allocation has done to the allocator of the heap: it may have grown the
range first, and then the bytes were accepted. -/
structure Bumped (size : Nat) (allocator : BumpAllocator) (result : Option Nat)
    (after : BumpAllocator) : Prop where
  address : result = some (wrap32 allocator.nextAddress_)
  grown : ∃ capacity, allocator.capacity_ ≤ capacity ∧
    BumpAllocator.Accepts size { allocator with capacity_ := capacity } ∧
      after = { allocator with
        capacity_ := capacity
        nextAddress_ := add64 allocator.nextAddress_ size }

/-- An allocation that terminates needs two levels of the recursion and no more. -/
theorem HeapBooks.allocates (books : HeapBooks platform holes root context)
    (narrow : size < 2 ^ 64) (terminates : Terminates size context.heap) (depth : Nat) :
    allocateWithin (depth + 2) size context = allocateWithin 2 size context ∧
      Ensures (allocateWithin 2 size) context
        (fun result next => HeapBooks platform holes root next ∧
          Bumped size context.heap.vm_allocator_ result next.heap.vm_allocator_)
        (fun fault next => MappingFault fault ∧ HeapBooks platform holes root next ∧
          next.heap = context.heap) := by
  by_cases accepts : BumpAllocator.Accepts size context.heap.vm_allocator_
  · obtain ⟨ran, kept⟩ := books.accepted narrow accepts 1
    obtain ⟨deeper, _⟩ := books.accepted narrow accepts (depth + 1)
    exact ⟨deeper.trans ran.symm,
      ensures_of_run ran ⟨kept, rfl, _, Nat.le_refl _, accepts, rfl⟩⟩
  · rw [books.rejected accepts (depth + 1)]
    have shallow := books.rejected accepts 1
    cases ensures_iff.mp (@HeapBooks.grow _ _ _ size context books) with
    | inl returned =>
        obtain ⟨_, grown, ran, kept, capacity⟩ := returned
        have enough := accepts_after_growth books.bounded terminates accepts
        have again := enough
        rw [← capacity] at again
        obtain ⟨second, final⟩ := kept.accepted narrow again 0
        obtain ⟨deeper, _⟩ := kept.accepted narrow again depth
        rw [bind_ok ran] at shallow ⊢
        rw [shallow, deeper, second]
        refine ⟨rfl, ensures_of_run (shallow.trans second) ⟨final, ?_⟩⟩
        rw [capacity]
        exact ⟨rfl, _, Nat.le_add_right _ _, enough, rfl⟩
    | inr thrown =>
        obtain ⟨fault, failed, ran, outcome⟩ := thrown
        rw [bind_error ran] at shallow ⊢
        rw [shallow]
        exact ⟨rfl, ensures_iff.mpr (Or.inr ⟨fault, failed, shallow, outcome⟩)⟩

theorem HeapBooks.never_ends (books : HeapBooks platform holes root context)
    (narrow : size < 2 ^ 64) (endless : ¬Terminates size context.heap) (depth : Nat) :
    allocateWithin depth size context = .error .nonTermination context := by
  have noPages : pagesNeeded size = 0 := by
    by_cases none : size = 0
    · rw [none]
      decide
    · by_contra some
      apply endless
      refine ⟨none, ?_⟩
      intro large
      exact absurd (pagesNeeded_wrapped large narrow) some
  have rejects : ¬BumpAllocator.Accepts size context.heap.vm_allocator_ := by
    intro accepts
    apply endless
    refine ⟨accepts.1, ?_⟩
    intro large
    have baseNarrow := books.bounded.baseNarrow
    have capacityNarrow := books.bounded.capacityNarrow
    have sum := accepts.2
    omega
  have growing : growHeap size context = .ok () context := by
    have growth : Growth platform (MayMapItself platform holes) holes context (pagesNeeded size)
        context := by
      have isLive := books.isLive
      have capacityNarrow := books.bounded.capacityNarrow
      rw [← books.rootIs] at isLive
      rw [noPages]
      exact ⟨rfl, books.reached, isLive, books.mapped, by rw [pageCount]; omega, [], rfl,
        fun _ member => by simp at member, rfl⟩
    have asked : (get : Action HeapContext HeapContext) context = .ok context context := rfl
    have mapped : mapPages context.heap.lastVa (pagesNeeded size) context.heap.top_pgtbl_pa_
        context = .ok () context := by
      rw [noPages]
      rfl
    rw [growHeap, bind_ok asked, bind_ok mapped, (books.grown growth).1, noPages]
    rfl
  induction depth with
  | zero => rfl
  | succ depth ih => rw [books.rejected rejects, bind_ok growing, ih]

theorem HeapBooks.ends_iff (books : HeapBooks platform holes root context)
    (narrow : size < 2 ^ 64) :
    EndsAfterOneGrowth size context ↔ Terminates size context.heap := by
  constructor
  · intro ends
    by_contra endless
    exact ends context (books.never_ends narrow endless 2)
  · intro terminates last failed
    exact ((books.allocates narrow terminates 0).2.of_error failed).1.ended rfl

theorem HeapBooks.attempt {call : HeapCall} (books : HeapBooks platform holes root context)
    (attempt : HeapAttempt platform context call next) : HeapBooks platform holes root next := by
  have deep : allocateDepth = 1048574 + 2 := rfl
  cases attempt with
  | @returned _ size _ narrow ran =>
      rw [HeapManager.allocate, deep] at ran
      by_cases terminates : Terminates size context.heap
      · obtain ⟨same, outcome⟩ := books.allocates narrow terminates 1048574
        rw [same] at ran
        exact (outcome.of_ok ran).1
      · rw [books.never_ends narrow terminates] at ran
        cases ran
  | @thrown _ size fault narrow ended failed =>
      rw [HeapManager.allocate, deep] at failed
      by_cases terminates : Terminates size context.heap
      · obtain ⟨same, outcome⟩ := books.allocates narrow terminates 1048574
        rw [same] at failed
        exact (outcome.of_error failed).2.1
      · rw [books.never_ends narrow terminates] at failed
        cases failed
        exact absurd rfl ended
  | other step kept =>
      obtain ⟨owner, owned⟩ := books.reached.owned
      obtain ⟨later, effect⟩ := step_effect books.reached owned step
      obtain ⟨newer, history, untouched⟩ := effect.history
      rw [books.rootIs] at kept
      have away := untouched root books.isLive kept
      have consistent := effect.reached.consistent
      refine ⟨effect.reached, books.rootIs, ?_, books.bounded, ?_⟩
      · change live _ root = true
        rw [history]
        exact live_append away.2 books.isLive
      · change Mapped context.heap _
        rw [history] at consistent ⊢
        rw [← books.rootIs] at away
        exact books.mapped.append consistent away.1 away.2

theorem new_books {aspace : AddressSpaceManager}
    (reached : Reached platform (MayMapItself platform holes) holes aspace)
    (isLive : aspace.Live root) {base : Nat} (aligned : 4096 ∣ base) (narrow : base < 2 ^ 32) :
    HeapBooks platform holes root { heap := new root base, aspace_ := aspace } :=
  ⟨reached, rfl, isLive, (new_sound root aligned narrow).bounded,
    new_mapped root base aspace.history⟩

theorem run_books (valid : platform.Valid) {localMemSize : Nat} {operations : List Operation}
    {aspace : AddressSpaceManager}
    (setup : Trace (Step platform) (AddressSpaceManager.new platform localMemSize) operations aspace)
    (isLive : aspace.Live root) {base_va : Nat} (aligned : 4096 ∣ base_va)
    (narrow : base_va < 2 ^ 32) {calls : List HeapCall}
    (run : Trace (HeapAttempt platform) { heap := new root base_va, aspace_ := aspace } calls
      context) :
    HeapBooks platform (AddressSpaceManager.new platform localMemSize).hole_list_ root context := by
  rw [new_withHoles] at setup
  have start := new_books (run_reached valid setup) isLive aligned narrow
  exact run.invariant _ (fun _ _ _ books attempt => books.attempt attempt) start

end Allocation

/-- After any attempts, an allocation ends after at most one growth exactly when its size is
neither zero nor so large that its page count wraps around to zero while its sum with the next
address does not; then the depth plays no role, and otherwise no depth is enough. -/
theorem allocate_ends_iff {platform : Platform} (valid : platform.Valid) (localMemSize : Nat)
    {operations : List Operation} {aspace : AddressSpaceManager}
    (setup : Trace (Step platform) (AddressSpaceManager.new platform localMemSize) operations aspace)
    {root : Nat} (isLive : aspace.Live root) {base_va : Nat} (aligned : 4096 ∣ base_va)
    (baseNarrow : base_va < 2 ^ 32) {calls : List HeapCall} {context : HeapContext}
    (run : Trace (HeapAttempt platform) { heap := new root base_va, aspace_ := aspace } calls
      context) {size : Nat} (narrow : size < 2 ^ 64) :
    (EndsAfterOneGrowth size context ↔ Terminates size context.heap) ∧
      (Terminates size context.heap → ∀ depth,
        allocateWithin (depth + 2) size context = allocateWithin 2 size context) ∧
      (¬Terminates size context.heap → ∀ depth,
        allocateWithin depth size context = .error .nonTermination context) := by
  have books := run_books valid setup isLive aligned baseNarrow run
  refine ⟨books.ends_iff narrow, ?_, ?_⟩
  · intro terminates depth
    exact (books.allocates narrow terminates depth).1
  · intro endless depth
    exact books.never_ends narrow endless depth

section Small

/-- The first allocation of a heap, of no bytes. -/
theorem allocate_zero_never_ends : ∃ aspace : AddressSpaceManager,
    Trace (Step smallPlatform) (AddressSpaceManager.new smallPlatform 0) [.allocatePageTable]
        aspace ∧ aspace.Live 0x1000 ∧
      (∀ depth, allocateWithin depth 0 { heap := new 0x1000 0x10000, aspace_ := aspace } =
        .error .nonTermination { heap := new 0x1000 0x10000, aspace_ := aspace }) ∧
      ¬EndsAfterOneGrowth 0 { heap := new 0x1000 0x10000, aspace_ := aspace } := by
  obtain ⟨aspace, setup, _, _, _, isLive, _⟩ := smallPlatform_table
  have books := @run_books _ 0x1000 _ smallPlatform_valid 0 _ aspace setup isLive 0x10000
    (by decide) (by decide) [] (Trace.nil _)
  have never := fun depth => books.never_ends (by decide : 0 < 2 ^ 64)
    (by change ¬Terminates 0 (new 0x1000 0x10000); decide) depth
  exact ⟨aspace, setup, isLive, never, fun ends => ends _ (never 2)⟩

theorem allocate_ends_iff_zero : ∃ aspace : AddressSpaceManager,
    Trace (Step smallPlatform) (AddressSpaceManager.new smallPlatform 0) [.allocatePageTable]
        aspace ∧
      (EndsAfterOneGrowth 0 { heap := new 0x1000 0x10000, aspace_ := aspace } ↔
        Terminates 0 (new 0x1000 0x10000)) ∧
      (Terminates 0 (new 0x1000 0x10000) → ∀ depth,
        allocateWithin (depth + 2) 0 { heap := new 0x1000 0x10000, aspace_ := aspace } =
          allocateWithin 2 0 { heap := new 0x1000 0x10000, aspace_ := aspace }) ∧
      (¬Terminates 0 (new 0x1000 0x10000) → ∀ depth,
        allocateWithin depth 0 { heap := new 0x1000 0x10000, aspace_ := aspace } =
          .error .nonTermination { heap := new 0x1000 0x10000, aspace_ := aspace }) := by
  obtain ⟨aspace, setup, _, _, _, isLive, _⟩ := smallPlatform_table
  exact ⟨aspace, setup, @allocate_ends_iff smallPlatform smallPlatform_valid 0 _ aspace setup
    0x1000 isLive 0x10000 (by decide) (by decide) [] _ (Trace.nil _) 0 (by decide)⟩

end Small

end Espiral.HeapManager
