import Espiral.Mm.HeapManager
import Espiral.Mm.MappingFailures
import Espiral.Mm.SpareFrames

/-!
# Runs of a heap

The bump allocator and the page table keep separate books. Over every run of
allocations they agree: the pages of the heap are those of the range of the
allocator, each mapped once and readable, writable and accessible to the user.
-/

namespace Espiral.HeapManager

set_option autoImplicit false

open AddressSpaceManager Contracts MachineWords Traces

section Lifting

variable {Value : Type} {context : HeapContext}

theorem onVmAllocator_ok {action : Action BumpAllocator Value} {value : Value}
    {allocator : BumpAllocator}
    (ran : action context.heap.vm_allocator_ = .ok value allocator) :
    onVmAllocator action context =
      .ok value { context with heap := { context.heap with vm_allocator_ := allocator } } := by
  simp only [onVmAllocator, ran]

theorem onAddressSpace_run {action : Action AddressSpaceManager Value} {value : Value}
    {aspace : AddressSpaceManager} (ran : action context.aspace_ = .ok value aspace) :
    onAddressSpace action context = .ok value { context with aspace_ := aspace } := by
  simp only [onAddressSpace, ran]

theorem onAddressSpace_thrown {action : Action AddressSpaceManager Value} {fault : Fault}
    {aspace : AddressSpaceManager} (thrown : action context.aspace_ = .error fault aspace) :
    onAddressSpace action context = .error fault { context with aspace_ := aspace } := by
  simp only [onAddressSpace, thrown]

theorem onAddressSpace_ensures {action : Action AddressSpaceManager Value}
    {returns : Value → AddressSpaceManager → Prop} {throws : Fault → AddressSpaceManager → Prop}
    (ensures : Ensures action context.aspace_ returns throws) :
    Ensures (onAddressSpace action) context
      (fun value next => next.heap = context.heap ∧ returns value next.aspace_)
      (fun fault next => next.heap = context.heap ∧ throws fault next.aspace_) := by
  rw [ensures_iff]
  rcases ensures_iff.mp ensures with ⟨value, next, ran, holds⟩ | ⟨fault, next, ran, holds⟩
  · left
    exact ⟨value, { context with aspace_ := next }, onAddressSpace_run ran, rfl, holds⟩
  · right
    exact ⟨fault, { context with aspace_ := next }, onAddressSpace_thrown ran, rfl, holds⟩

end Lifting

/-- The page number of a heap's page; virtual addresses wrap around. -/
def heapPage (heap : HeapManager) (position : Nat) : Nat :=
  (heap.vm_allocator_.baseAddress_ / 4096 + position) % 2 ^ 20

def pageCount (heap : HeapManager) : Nat := heap.vm_allocator_.capacity_ / 4096

def MappedUpTo (heap : HeapManager) (count : Nat) (history : List MappingEvent) : Prop :=
  ∀ position < count, ∃ pa,
    mapping history heap.top_pgtbl_pa_ (heapPage heap position) =
      some (makePte pa (leafFlags heapFlags))

def Mapped (heap : HeapManager) (history : List MappingEvent) : Prop :=
  MappedUpTo heap heap.pageCount history

structure Growth (platform : Platform) (identity : Nat → Prop) (holes : HoleList)
    (context : HeapContext) (count : Nat) (next : HeapContext) : Prop where
  heap : next.heap = context.heap
  reached : Reached platform identity holes next.aspace_
  isLive : next.aspace_.Live context.heap.top_pgtbl_pa_
  mapped : MappedUpTo context.heap (context.heap.pageCount + count) next.aspace_.history
  narrow : context.heap.pageCount + count ≤ 2 ^ 20
  events : ∃ newer, next.aspace_.history = newer ++ context.aspace_.history ∧
    OnlyMaps context.heap.top_pgtbl_pa_ heapFlags newer ∧
    pagesOf context.heap.top_pgtbl_pa_ newer =
      ((List.range' context.heap.pageCount count).map (heapPage context.heap)).reverse

structure Allocated (platform : Platform) (identity : Nat → Prop) (holes : HoleList) (size : Nat)
    (context next : HeapContext) : Prop where
  sound : next.heap.vm_allocator_.Sound
  mapped : Mapped next.heap next.aspace_.history
  base : next.heap.vm_allocator_.baseAddress_ = context.heap.vm_allocator_.baseAddress_
  root : next.heap.top_pgtbl_pa_ = context.heap.top_pgtbl_pa_
  advanced : next.heap.vm_allocator_.nextAddress_ =
    context.heap.vm_allocator_.nextAddress_ + size
  grown : next.heap.vm_allocator_.capacity_ = context.heap.vm_allocator_.capacity_ ∨
    next.heap.vm_allocator_.capacity_ =
      context.heap.vm_allocator_.capacity_ + roundUp size 4096
  reached : Reached platform identity holes next.aspace_
  isLive : next.aspace_.Live context.heap.top_pgtbl_pa_
  events : ∃ newer, next.aspace_.history = newer ++ context.aspace_.history ∧
    OnlyMaps context.heap.top_pgtbl_pa_ heapFlags newer ∧
    pagesOf context.heap.top_pgtbl_pa_ newer =
      ((List.range' context.heap.pageCount (next.heap.pageCount - context.heap.pageCount)).map
        (heapPage context.heap)).reverse

section Allocation

variable {platform : Platform} {identity : Nat → Prop} {holes : HoleList}
  {context next : HeapContext}

theorem range_split {before rest : List Nat} {item count : Nat}
    (split : before ++ item :: rest = List.range count) : item = before.length ∧ item < count := by
  have entry : (before ++ item :: rest)[before.length]? = some item := by simp
  rw [split, List.getElem?_eq_some_iff] at entry
  obtain ⟨bound, same⟩ := entry
  rw [List.getElem_range] at same
  rw [List.length_range] at bound
  exact ⟨same.symm, by omega⟩

theorem heapPage_address (sound : context.heap.vm_allocator_.Bounded) (i : Nat) :
    wrap32 (context.heap.lastVa + i * PAGE_SIZE) =
      heapPage context.heap (context.heap.pageCount + i) * 4096 := by
  have base : context.heap.vm_allocator_.getBaseAddress =
      context.heap.vm_allocator_.baseAddress_ := wrap32_of_lt sound.baseNarrow
  have baseAligned := sound.baseAligned
  have capacityAligned := sound.capacityAligned
  rw [HeapManager.lastVa, base, BumpAllocator.getCapacity, PAGE_SIZE, heapPage, pageCount, wrap32,
    wrap32]
  omega

theorem MappedUpTo.succ {heap : HeapManager} {count pa va : Nat} {history : List MappingEvent}
    (mapped : MappedUpTo heap count history) (page : va / 4096 = heapPage heap count) :
    MappedUpTo heap (count + 1) (.mapped heap.top_pgtbl_pa_ va pa heapFlags :: history) := by
  intro position inside
  by_cases here : va / 4096 = heapPage heap position
  · exact ⟨pa, by rw [mapping, if_pos ⟨rfl, here⟩]⟩
  · have different : position ≠ count := by
      intro same
      exact here (by rw [page, same])
    obtain ⟨target, found⟩ := mapped position (by omega)
    exact ⟨target, by rw [mapping, if_neg (fun both => here both.2), found]⟩

/-- A heap cannot go around the address space: its first page is mapped already. -/
theorem MappedUpTo.not_around {heap : HeapManager} {count : Nat} {history : List MappingEvent}
    (mapped : MappedUpTo heap count history) (narrow : count ≤ 2 ^ 20)
    (unmapped : mapping history heap.top_pgtbl_pa_ (heapPage heap count) = none) :
    count + 1 ≤ 2 ^ 20 := by
  by_contra around
  have whole : count = 2 ^ 20 := by omega
  obtain ⟨pa, found⟩ := mapped 0 (by omega)
  have same : heapPage heap count = heapPage heap 0 := by
    rw [heapPage, heapPage, whole]
    omega
  rw [same, found] at unmapped
  cases unmapped

/-- The loop maps consecutive pages; a failed call has mapped the first of them. -/
theorem mapPages_spec (count : Nat) (reached : Reached platform identity holes context.aspace_)
    (isLive : context.aspace_.Live context.heap.top_pgtbl_pa_)
    (sound : context.heap.vm_allocator_.Bounded)
    (mapped : Mapped context.heap context.aspace_.history) :
    Ensures (mapPages context.heap.lastVa count context.heap.top_pgtbl_pa_) context
      (fun _ next => Growth platform identity holes context count next)
      (fun fault next => MappingFault fault ∧
        ∃ done, Growth platform identity holes context done next) := by
  have capacityNarrow := sound.capacityNarrow
  have start : Growth platform identity holes context 0 context :=
    ⟨rfl, reached, isLive, mapped, by rw [pageCount]; omega, [], rfl,
      fun _ member => by simp at member, rfl⟩
  have loop := @ensures_forM Fault HeapContext Nat context
    (fun fault next => MappingFault fault ∧
      ∃ done, Growth platform identity holes context done next)
    (fun i => onAddressSpace (allocateOneVmPage (wrap32 (context.heap.lastVa + i * PAGE_SIZE))
      context.heap.top_pgtbl_pa_ heapFlags))
    (fun before next => Growth platform identity holes context before.length next)
    (List.range count) [] (List.range count) rfl ?_ start
  · rw [List.length_range] at loop
    exact loop
  · intro before i rest now split growth
    obtain ⟨position, _⟩ := range_split split
    obtain ⟨owner, owned⟩ := growth.reached.owned
    have address := heapPage_address sound i
    have page : heapPage context.heap (context.heap.pageCount + i) * 4096 / 4096 =
        heapPage context.heap (context.heap.pageCount + i) := Nat.mul_div_cancel _ (by decide)
    have pageNarrow : heapPage context.heap (context.heap.pageCount + i) < 2 ^ 20 :=
      Nat.mod_lt _ (by decide)
    rw [address]
    apply (onAddressSpace_ensures ((allocateOneVmPage_spec owned growth.isLive
      (by omega : heapPage context.heap (context.heap.pageCount + i) * 4096 < 2 ^ 32)
      (by decide : heapFlags &&& PteFlags.R ≠ 0)).both (allocateOneVmPage_faults owned.pool))).weaken
    · intro _ after outcome
      obtain ⟨heap, ⟨later, pa, advanced, history, unmapped, isFrame, _⟩, _⟩ := outcome
      obtain ⟨newer, same, only, pages⟩ := growth.events
      refine ⟨heap.trans growth.heap, growth.reached.of_mapped advanced history unmapped
        (isFrame.narrow owned.pool.valid), live_of_mapped history growth.isLive, ?_, ?_,
        _ :: newer, by rw [history, same]; rfl, ?_, ?_⟩
      · rw [history, List.length_append, List.length_singleton, ← Nat.add_assoc]
        exact growth.mapped.succ (by rw [page, position])
      · rw [page, position] at unmapped
        rw [List.length_append, List.length_singleton, ← Nat.add_assoc]
        exact growth.mapped.not_around growth.narrow unmapped
      · intro event member
        cases List.mem_cons.mp member with
        | inl same => exact ⟨_, _, same⟩
        | inr old => exact only event old
      · rw [List.length_append, List.length_singleton, List.range'_concat, List.map_append,
          List.reverse_append, ← pages, ← position]
        simp [pagesOf, page]
    · intro _ after outcome
      obtain ⟨heap, ⟨later, advanced, same, _⟩, failed⟩ := outcome
      obtain ⟨newer, split, only, pages⟩ := growth.events
      exact ⟨failed, before.length, heap.trans growth.heap, growth.reached.of_same advanced same,
        live_of_same same growth.isLive, by rw [same]; exact growth.mapped, growth.narrow,
        newer, by rw [same, split], only, pages⟩

section Steady

variable {Invariant : AddressSpaceManager → Prop} {root : Nat}

theorem onVmAllocator_keeps {Value : Type} (action : Action BumpAllocator Value) :
    Keeps (fun now : HeapContext => now.heap.top_pgtbl_pa_ = root ∧ Invariant now.aspace_)
      (onVmAllocator action) := by
  intro now kept
  rw [ensures_iff]
  cases ran : action now.heap.vm_allocator_ with
  | ok value allocator => exact Or.inl ⟨value, _, onVmAllocator_ok ran, kept⟩
  | error fault allocator =>
      refine Or.inr ⟨fault, { now with heap := { now.heap with
        vm_allocator_ := allocator } }, ?_, kept⟩
      simp only [onVmAllocator, ran]

theorem allocate_narrow (size : Nat) :
    Ensures (onVmAllocator (BumpAllocator.allocate size)) context
      (fun result _ => ∀ va, result = some va → va < 2 ^ 32) (fun _ _ => True) := by
  rw [ensures_iff]
  cases ran : onVmAllocator (BumpAllocator.allocate size) context with
  | error fault after => exact Or.inr ⟨fault, after, rfl, trivial⟩
  | ok result after =>
      refine Or.inl ⟨result, after, rfl, ?_⟩
      intro va same
      rw [same, onVmAllocator, BumpAllocator.allocate] at ran
      split at ran
      · next done =>
          cases ran
          split at done
          · cases done
          · split at done
            · cases done
            · cases done
              exact wrap32_lt _
      · cases ran

theorem mapPages_keeps
    (keeps : ∀ va state, va < 2 ^ 32 → Invariant state →
      Ensures (allocateOneVmPage va root heapFlags) state (fun _ after => Invariant after)
        (fun _ after => Invariant after)) (last_va pages_needed : Nat) :
    Keeps (fun now : HeapContext => now.heap.top_pgtbl_pa_ = root ∧ Invariant now.aspace_)
      (mapPages last_va pages_needed root) := by
  intro now kept
  apply @ensures_forM Fault HeapContext Nat now
    (fun _ after => after.heap.top_pgtbl_pa_ = root ∧ Invariant after.aspace_) _
    (fun _ after => after.heap.top_pgtbl_pa_ = root ∧ Invariant after.aspace_)
    (List.range pages_needed) [] (List.range pages_needed) rfl ?_ kept
  intro _ i _ current _ currentKept
  apply (onAddressSpace_ensures (keeps _ current.aspace_ (wrap32_lt _) currentKept.2)).weaken
  · intro _ after outcome
    exact ⟨by rw [outcome.1]; exact currentKept.1, outcome.2⟩
  · intro _ after outcome
    exact ⟨by rw [outcome.1]; exact currentKept.1, outcome.2⟩

/-- Whatever its size, an allocation does nothing to the address space but map pages of
its table, and it returns a 32-bit address. -/
theorem allocateWithin_keeps {depth size : Nat}
    (keeps : ∀ va state, va < 2 ^ 32 → Invariant state →
      Ensures (allocateOneVmPage va root heapFlags) state (fun _ after => Invariant after)
        (fun _ after => Invariant after))
    (rootIs : context.heap.top_pgtbl_pa_ = root) (start : Invariant context.aspace_) :
    Ensures (allocateWithin depth size) context
      (fun result after => (after.heap.top_pgtbl_pa_ = root ∧ Invariant after.aspace_) ∧
        ∀ va, result = some va → va < 2 ^ 32)
      (fun _ after => after.heap.top_pgtbl_pa_ = root ∧ Invariant after.aspace_) := by
  induction depth generalizing context with
  | zero => exact ensures_throw ⟨rootIs, start⟩
  | succ depth ih =>
      have asks := onVmAllocator_keeps (BumpAllocator.allocate size) context ⟨rootIs, start⟩
      rw [allocateWithin]
      apply Ensures.bind
      apply (asks.both (allocate_narrow size)).weaken
      · rintro result now ⟨kept, bounded⟩
        cases result with
        | some va => exact ensures_pure ⟨kept, bounded⟩
        | none =>
            have asked : (get : Action HeapContext HeapContext) now = .ok now now := rfl
            apply ensures_bind_of_run asked
            rw [kept.1]
            apply Ensures.bind
            apply (mapPages_keeps keeps _ _ now kept).weaken
            · intro _ mapped mappedKept
              apply Ensures.bind
              apply (onVmAllocator_keeps _ mapped mappedKept).weaken
              · intro _ grown grownKept
                exact ih grownKept.1 grownKept.2
              · intro _ _ thrown
                exact thrown
            · intro _ _ thrown
              exact thrown
      · intro _ _ thrown
        exact thrown.1

end Steady

section Returned

theorem allocate_va (size : Nat) :
    Ensures (onVmAllocator (BumpAllocator.allocate size)) context
      (fun result after =>
        after.heap.vm_allocator_.nextAddress_ = context.heap.vm_allocator_.nextAddress_ ∧
            result = none ∨
          result = some (wrap32 context.heap.vm_allocator_.nextAddress_))
      (fun _ _ => True) := by
  by_cases nothing : size = 0
  · have refused : BumpAllocator.allocate size context.heap.vm_allocator_ =
        .ok none context.heap.vm_allocator_ := by rw [BumpAllocator.allocate, if_pos nothing]
    exact ensures_of_run (onVmAllocator_ok refused) (Or.inl ⟨rfl, rfl⟩)
  by_cases full : add64 context.heap.vm_allocator_.nextAddress_ size >
      add64 context.heap.vm_allocator_.baseAddress_ context.heap.vm_allocator_.capacity_
  · have refused : BumpAllocator.allocate size context.heap.vm_allocator_ =
        .ok none context.heap.vm_allocator_ := by
      rw [BumpAllocator.allocate, if_neg nothing, if_pos full]
    exact ensures_of_run (onVmAllocator_ok refused) (Or.inl ⟨rfl, rfl⟩)
  · have served : BumpAllocator.allocate size context.heap.vm_allocator_ =
        .ok (some (wrap32 context.heap.vm_allocator_.nextAddress_))
          { context.heap.vm_allocator_ with
            nextAddress_ := add64 context.heap.vm_allocator_.nextAddress_ size } := by
      rw [BumpAllocator.allocate, if_neg nothing, if_neg full]
    exact ensures_of_run (onVmAllocator_ok served) (Or.inr rfl)

theorem growCapacity_va (additional_capacity : Nat) (context : HeapContext) :
    Ensures (onVmAllocator (BumpAllocator.growCapacity additional_capacity)) context
      (fun _ after =>
        after.heap.vm_allocator_.nextAddress_ = context.heap.vm_allocator_.nextAddress_)
      (fun _ _ => True) := by
  by_cases growable : context.heap.vm_allocator_.growable_ = some true
  · have grown : BumpAllocator.growCapacity additional_capacity context.heap.vm_allocator_ =
        .ok () { context.heap.vm_allocator_ with
          capacity_ := add64 context.heap.vm_allocator_.capacity_ additional_capacity } := by
      rw [BumpAllocator.growCapacity, if_pos growable]
    exact ensures_of_run (onVmAllocator_ok grown) rfl
  · unfold Ensures onVmAllocator BumpAllocator.growCapacity
    rw [if_neg growable]
    trivial

theorem mapPages_heap (last_va pages_needed root : Nat) {heap : HeapManager} :
    Keeps (fun now : HeapContext => now.heap = heap) (mapPages last_va pages_needed root) := by
  intro now kept
  apply @ensures_forM Fault HeapContext Nat now (fun _ after => after.heap = heap) _
    (fun _ after => after.heap = heap) (List.range pages_needed) [] (List.range pages_needed) rfl ?_
    kept
  intro _ i _ current _ currentKept
  have any : Ensures (allocateOneVmPage (wrap32 (last_va + i * PAGE_SIZE)) root heapFlags)
      current.aspace_ (fun _ _ => True) (fun _ _ => True) := by
    rw [ensures_iff]
    cases ran : allocateOneVmPage (wrap32 (last_va + i * PAGE_SIZE)) root heapFlags
        current.aspace_ with
    | ok value after => exact Or.inl ⟨value, after, rfl, trivial⟩
    | error fault after => exact Or.inr ⟨fault, after, rfl, trivial⟩
  apply (onAddressSpace_ensures any).weaken
  · exact fun _ _ outcome => outcome.1.trans currentKept
  · exact fun _ _ outcome => outcome.1.trans currentKept

theorem allocateWithin_va (depth size : Nat) (context : HeapContext) :
    Ensures (allocateWithin depth size) context
      (fun result _ => ∀ va, result = some va →
        va = wrap32 context.heap.vm_allocator_.nextAddress_) (fun _ _ => True) := by
  induction depth generalizing context with
  | zero => exact ensures_throw trivial
  | succ depth ih =>
      rw [allocateWithin]
      apply Ensures.bind
      apply (allocate_va size).weaken ?_ (fun _ _ _ => trivial)
      rintro result now (⟨still, refused⟩ | served)
      · rw [refused]
        have asked : (get : Action HeapContext HeapContext) now = .ok now now := rfl
        apply ensures_bind_of_run asked
        apply Ensures.bind
        apply (mapPages_heap _ _ _ now rfl).weaken ?_ (fun _ _ _ => trivial)
        intro _ mapped sameHeap
        apply Ensures.bind
        apply (growCapacity_va _ mapped).weaken ?_ (fun _ _ _ => trivial)
        intro _ grown next
        rw [← still, ← sameHeap, ← next]
        exact ih grown
      · rw [served]
        exact ensures_pure fun va same => (Option.some.inj same).symm

end Returned

/-- An allocation of no bytes never fits, and it grows the heap by no page. -/
theorem allocateWithin_zero (depth : Nat) :
    ∃ fault after, allocateWithin depth 0 context = .error fault after := by
  induction depth generalizing context with
  | zero => exact ⟨_, _, rfl⟩
  | succ depth ih =>
      have full : onVmAllocator (BumpAllocator.allocate 0) context = .ok none context :=
        onVmAllocator_ok (by rw [BumpAllocator.allocate, if_pos rfl])
      have asked : (get : Action HeapContext HeapContext) context = .ok context context := rfl
      have noPages : add64 0 (PAGE_SIZE - 1) / PAGE_SIZE = 0 := by decide
      rw [allocateWithin, bind_ok full]
      simp only
      rw [bind_ok asked, noPages]
      have mapped : mapPages context.heap.lastVa 0 context.heap.top_pgtbl_pa_ context =
          .ok () context := rfl
      rw [bind_ok mapped]
      cases grown : onVmAllocator (BumpAllocator.growCapacity (wrap64 (0 * PAGE_SIZE))) context with
      | ok value after =>
          rw [bind_ok grown]
          exact ih
      | error fault after =>
          rw [bind_error grown]
          exact ⟨fault, after, rfl⟩

def grownBy (size : Nat) (allocator : BumpAllocator) : BumpAllocator :=
  { allocator with
    capacity_ := allocator.capacity_ + roundUp size 4096
    nextAddress_ := allocator.nextAddress_ + size }

def mapGrowth (size : Nat) (heap : HeapManager) : Action HeapContext Unit :=
  mapPages heap.lastVa (roundUp size 4096 / 4096) heap.top_pgtbl_pa_

section Growing

variable {size : Nat} (sound : context.heap.vm_allocator_.Sound) (positive : 0 < size)
  (small : size < 2 ^ 63)
  (exceeds : context.heap.vm_allocator_.baseAddress_ + context.heap.vm_allocator_.capacity_ <
    context.heap.vm_allocator_.nextAddress_ + size)

include sound positive small exceeds

theorem allocateWithin_grows (depth : Nat) :
    allocateWithin (depth + 1) size context =
      (do mapGrowth size context.heap
          onVmAllocator (BumpAllocator.growCapacity (roundUp size 4096))
          allocateWithin depth size : Action HeapContext (Option Nat)) context := by
  have rounded := @roundUp_lt size 4096 (by decide)
  have full : onVmAllocator (BumpAllocator.allocate size) context = .ok none context :=
    onVmAllocator_ok (sound.allocate_full small exceeds)
  have asked : (get : Action HeapContext HeapContext) context = .ok context context := rfl
  have sum : add64 size (PAGE_SIZE - 1) = size + 4095 :=
    add64_of_lt (by change size + 4095 < 2 ^ 64; omega)
  have pagesNeeded : add64 size (PAGE_SIZE - 1) / PAGE_SIZE = roundUp size 4096 / 4096 := by
    rw [sum, roundUp, Nat.mul_div_cancel _ (by decide)]
    rfl
  have additional : wrap64 (roundUp size 4096 / 4096 * PAGE_SIZE) = roundUp size 4096 := by
    rw [PAGE_SIZE, Nat.div_mul_cancel (dvd_roundUp size 4096)]
    exact wrap64_of_lt (by omega)
  rw [allocateWithin, bind_ok full]
  simp only
  rw [bind_ok asked]
  simp only [pagesNeeded, additional]
  rfl

theorem allocate_grows {grown : HeapContext} (heap : grown.heap = context.heap)
    (narrow : context.heap.vm_allocator_.capacity_ + roundUp size 4096 ≤ 2 ^ 32)
    (mapped : mapGrowth size context.heap context = .ok () grown) :
    allocate size context = .ok (some (wrap32 context.heap.vm_allocator_.nextAddress_))
      { grown with
        heap := { context.heap with vm_allocator_ := grownBy size context.heap.vm_allocator_ } } ∧
      (grownBy size context.heap.vm_allocator_).Sound := by
  have depth : allocateDepth = 1048574 + 1 + 1 := rfl
  have enough := @le_roundUp size 4096 (by decide)
  have high := sound.high
  have grow := sound.grow (dvd_roundUp size 4096) narrow
  have growing : BumpAllocator.growCapacity (roundUp size 4096) grown.heap.vm_allocator_ = .ok ()
      { context.heap.vm_allocator_ with
        capacity_ := context.heap.vm_allocator_.capacity_ + roundUp size 4096 } := by
    rw [heap]
    exact grow.1
  have again : context.heap.vm_allocator_.nextAddress_ + size ≤
      context.heap.vm_allocator_.baseAddress_ +
        (context.heap.vm_allocator_.capacity_ + roundUp size 4096) := by omega
  refine ⟨?_, grow.2.allocated again⟩
  rw [allocate, depth, allocateWithin_grows sound positive small exceeds, bind_ok mapped,
    bind_ok (onVmAllocator_ok growing), allocateWithin,
    bind_ok (onVmAllocator_ok (grow.2.allocate_fits positive again)), heap]
  rfl

theorem allocate_fails {fault : Fault} {failed : HeapContext}
    (thrown : mapGrowth size context.heap context = .error fault failed) :
    allocate size context = .error fault failed := by
  have depth : allocateDepth = 1048575 + 1 := rfl
  rw [allocate, depth, allocateWithin_grows sound positive small exceeds, bind_error thrown]

end Growing

theorem allocate_fits {size : Nat} (sound : context.heap.vm_allocator_.Sound) (positive : 0 < size)
    (fits : context.heap.vm_allocator_.nextAddress_ + size ≤
      context.heap.vm_allocator_.baseAddress_ + context.heap.vm_allocator_.capacity_) :
    allocate size context = .ok (some (wrap32 context.heap.vm_allocator_.nextAddress_))
      { context with
        heap := { context.heap with
          vm_allocator_ := { context.heap.vm_allocator_ with
            nextAddress_ := context.heap.vm_allocator_.nextAddress_ + size } } } := by
  have depth : allocateDepth = 1048575 + 1 := rfl
  rw [allocate, depth, allocateWithin, bind_ok (onVmAllocator_ok (sound.allocate_fits positive fits))]
  rfl

theorem allocate_spec {size : Nat} (reached : Reached platform identity holes context.aspace_)
    (isLive : context.aspace_.Live context.heap.top_pgtbl_pa_)
    (sound : context.heap.vm_allocator_.Sound)
    (mapped : Mapped context.heap context.aspace_.history) (positive : 0 < size)
    (small : size < 2 ^ 63) :
    Ensures (allocate size) context
      (fun result next => result = some (wrap32 context.heap.vm_allocator_.nextAddress_) ∧
        Allocated platform identity holes size context next)
      (fun _ next => ∃ count, Growth platform identity holes context count next) := by
  by_cases fits : context.heap.vm_allocator_.nextAddress_ + size ≤
      context.heap.vm_allocator_.baseAddress_ + context.heap.vm_allocator_.capacity_
  · apply ensures_of_run (allocate_fits sound positive fits)
    refine ⟨rfl, sound.allocated fits, mapped, rfl, rfl, rfl, Or.inl rfl, reached, isLive,
      [], rfl, fun _ member => by simp at member, ?_⟩
    change [] = ((List.range' _ (pageCount context.heap - pageCount context.heap)).map _).reverse
    rw [Nat.sub_self]
    rfl
  · have exceeds := Nat.lt_of_not_le fits
    have mapping := mapPages_spec (roundUp size 4096 / 4096) reached isLive sound.bounded mapped
    rcases ensures_iff.mp mapping with ⟨_, grown, ran, growth⟩ | ⟨fault, failed, thrown, _, partly⟩
    · have aligned := sound.capacityAligned
      have rounded := dvd_roundUp size 4096
      have pages := growth.narrow
      rw [pageCount] at pages
      have count : (context.heap.vm_allocator_.capacity_ + roundUp size 4096) / 4096 =
          context.heap.pageCount + roundUp size 4096 / 4096 := Nat.add_div_of_dvd_right aligned
      obtain ⟨allocated, grownSound⟩ :=
        allocate_grows sound positive small exceeds growth.heap (by omega) ran
      apply ensures_of_run allocated
      refine ⟨rfl, grownSound, ?_, rfl, rfl, rfl, Or.inr rfl, growth.reached, growth.isLive, ?_⟩
      · change MappedUpTo context.heap ((_ + roundUp size 4096) / 4096) _
        rw [count]
        exact growth.mapped
      · change ∃ newer, _ ∧ _ ∧ pagesOf _ newer =
          ((List.range' _ ((_ + roundUp size 4096) / 4096 - _)).map _).reverse
        rw [count, Nat.add_sub_cancel_left]
        exact growth.events
    · rw [ensures_iff]
      exact Or.inr ⟨fault, failed, allocate_fails sound positive small exceeds thrown, partly⟩

/-- A full heap is given one more page while frames are spare. -/
theorem allocate_onePage {owner : Nat → Option Role} {size count : Nat}
    (owned : WellOwned platform identity owner context.aspace_)
    (isLive : context.aspace_.Live context.heap.top_pgtbl_pa_)
    (sound : context.heap.vm_allocator_.Sound)
    (full : context.heap.vm_allocator_.nextAddress_ =
      context.heap.vm_allocator_.baseAddress_ + context.heap.vm_allocator_.capacity_)
    (positive : 0 < size) (small : size ≤ 4096)
    (narrow : context.heap.vm_allocator_.baseAddress_ +
      context.heap.vm_allocator_.capacity_ + 4096 ≤ 2 ^ 32)
    (unmapped : mapping context.aspace_.history context.heap.top_pgtbl_pa_
      (context.heap.vm_allocator_.nextAddress_ / 4096) = none)
    (spare : Spare platform (fun frame => context.aspace_.hole_list_.addrInHole frame)
      context.aspace_.frames (count + nodesNeeded context.aspace_.view
        context.heap.top_pgtbl_pa_ context.heap.vm_allocator_.nextAddress_ + 1)) :
    ∃ aspace later pa, allocate size context =
        .ok (some context.heap.vm_allocator_.nextAddress_)
          { heap := { context.heap with
              vm_allocator_ := grownBy size context.heap.vm_allocator_ }
            aspace_ := aspace } ∧
      (grownBy size context.heap.vm_allocator_).Sound ∧
      Advance platform identity owner later context.aspace_ aspace ∧
      aspace.history = .mapped context.heap.top_pgtbl_pa_
        context.heap.vm_allocator_.nextAddress_ pa heapFlags :: context.aspace_.history ∧
      NextFrame platform context.aspace_.frames pa ∧
      WithNode platform (fun frame => context.aspace_.hole_list_.addrInHole frame)
        context.aspace_.view context.heap.top_pgtbl_pa_
        context.heap.vm_allocator_.nextAddress_ (insert pa context.aspace_.frames)
        aspace.frames ∧
      Spare platform (fun frame => context.aspace_.hole_list_.addrInHole frame) aspace.frames
        count := by
  have nextNarrow : context.heap.vm_allocator_.nextAddress_ < 2 ^ 32 := by omega
  have nextIs : wrap32 context.heap.vm_allocator_.nextAddress_ =
      context.heap.vm_allocator_.nextAddress_ := wrap32_of_lt nextNarrow
  obtain ⟨aspace, later, pa, ran, advanced, history, first, withNode, rest⟩ :=
    allocateOneVmPage_returns owned isLive nextNarrow (by decide : heapFlags &&& PteFlags.R ≠ 0)
      unmapped spare
  have lastVa : context.heap.lastVa = context.heap.vm_allocator_.nextAddress_ := by
    have base : context.heap.vm_allocator_.getBaseAddress =
        context.heap.vm_allocator_.baseAddress_ := wrap32_of_lt sound.baseNarrow
    rw [HeapManager.lastVa, base, BumpAllocator.getCapacity, ← full, nextIs]
  have address : wrap32 (context.heap.vm_allocator_.nextAddress_ + 0 * PAGE_SIZE) =
      context.heap.vm_allocator_.nextAddress_ := by
    rw [Nat.zero_mul, Nat.add_zero, nextIs]
  have lifted : onAddressSpace (allocateOneVmPage
      (wrap32 (context.heap.vm_allocator_.nextAddress_ + 0 * PAGE_SIZE))
      context.heap.top_pgtbl_pa_ heapFlags) context =
        .ok () { context with aspace_ := aspace } := by
    rw [address]
    exact onAddressSpace_run ran
  have rounded : roundUp size 4096 = 4096 := by
    unfold roundUp
    omega
  have mapped : mapGrowth size context.heap context =
      .ok () { context with aspace_ := aspace } := by
    rw [mapGrowth, lastVa, rounded, mapPages, Nat.div_self (by decide), List.range_one]
    exact (bind_ok lifted).trans rfl
  obtain ⟨grown, grownSound⟩ := @allocate_grows context size sound positive (by omega) (by omega)
    { context with aspace_ := aspace } rfl (by omega) mapped
  rw [nextIs] at grown
  exact ⟨aspace, later, pa, grown, grownSound, advanced, history, first, withNode, rest⟩

end Allocation

/-- A heap in use, the ranges it has returned and the pages mapped for it, newest first. -/
structure HeapRun where
  context : HeapContext
  ranges : List (Nat × Nat)
  pages : List Nat

inductive HeapCall where
  | allocate (size : Nat)
  | other (operation : Operation)

/-- An allocation that returns, of at least one byte and below the last 32-bit
address; or a step of somebody else, on any table, that does not free this one. -/
inductive HeapStep (platform : Platform) : HeapRun → HeapCall → HeapRun → Prop
  | allocate {run : HeapRun} {size : Nat} {result : Option Nat} {next : HeapContext}
      {newer : List MappingEvent} (positive : 0 < size)
      (bounded : run.context.heap.vm_allocator_.baseAddress_ +
        run.context.heap.vm_allocator_.capacity_ + roundUp size 4096 < 2 ^ 32)
      (ran : HeapManager.allocate size run.context = .ok result next)
      (history : next.aspace_.history = newer ++ run.context.aspace_.history) :
      HeapStep platform run (.allocate size)
        { context := next
          ranges := (result.toList.map fun va => (va, size)) ++ run.ranges
          pages := pagesOf run.context.heap.top_pgtbl_pa_ newer ++ run.pages }
  | other {run : HeapRun} {operation : Operation} {aspace : AddressSpaceManager}
      (step : Step platform run.context.aspace_ operation aspace)
      (kept : operation ≠ .freePageTable run.context.heap.top_pgtbl_pa_) :
      HeapStep platform run (.other operation)
        { run with context := { run.context with aspace_ := aspace } }

structure HeapReached (platform : Platform) (holes : HoleList) (root base : Nat)
    (run : HeapRun) : Prop where
  reached : Reached platform (MayMapItself platform holes) holes run.context.aspace_
  rootIs : run.context.heap.top_pgtbl_pa_ = root
  isLive : run.context.aspace_.Live root
  sound : run.context.heap.vm_allocator_.Sound
  baseIs : run.context.heap.vm_allocator_.baseAddress_ = base
  narrow : base + run.context.heap.vm_allocator_.capacity_ < 2 ^ 32
  mapped : Mapped run.context.heap run.context.aspace_.history
  pages : run.pages =
    (List.range' (base / 4096) (run.context.heap.vm_allocator_.capacity_ / 4096)).reverse
  increasing : run.ranges.Pairwise fun later earlier => earlier.1 + earlier.2 ≤ later.1
  inside : ∀ range ∈ run.ranges,
    base ≤ range.1 ∧ range.1 + range.2 ≤ run.context.heap.vm_allocator_.nextAddress_

section Runs

variable {platform : Platform} {holes : HoleList} {root base : Nat} {run next : HeapRun}

theorem new_sound {base : Nat} (root : Nat) (aligned : 4096 ∣ base) (narrow : base < 2 ^ 32) :
    (new root base).vm_allocator_.Sound :=
  ⟨rfl, aligned, Nat.dvd_zero 4096, Nat.le_refl base, Nat.le_refl base, narrow, Nat.zero_le _⟩

theorem new_mapped (root base : Nat) (history : List MappingEvent) :
    Mapped (new root base) history := by
  intro position inside
  have none : (new root base).pageCount = 0 := Nat.zero_div 4096
  omega

theorem Mapped.append {heap : HeapManager} {newer earlier : List MappingEvent}
    (mapped : Mapped heap earlier) (consistent : Consistent (newer ++ earlier))
    (notCreated : .created heap.top_pgtbl_pa_ ∉ newer)
    (notFreed : .freed heap.top_pgtbl_pa_ ∉ newer) : Mapped heap (newer ++ earlier) := by
  intro position inside
  obtain ⟨pa, found⟩ := mapped position inside
  exact ⟨pa, mapping_append consistent notCreated notFreed found⟩

theorem new_heapReached {aspace : AddressSpaceManager}
    (reached : Reached platform (MayMapItself platform holes) holes aspace)
    (isLive : aspace.Live root) (aligned : 4096 ∣ base) (narrow : base < 2 ^ 32) :
    HeapReached platform holes root base
      { context := { heap := new root base, aspace_ := aspace }, ranges := [], pages := [] } where
  reached := reached
  rootIs := rfl
  isLive := isLive
  sound := new_sound root aligned narrow
  baseIs := rfl
  narrow := narrow
  mapped := new_mapped root base aspace.history
  pages := by
    change [] = (List.range' (base / 4096) (0 / 4096)).reverse
    rw [Nat.zero_div]
    rfl
  increasing := List.Pairwise.nil
  inside range member := by simp at member

theorem heapPages_narrow {heap : HeapManager} {count : Nat}
    (narrow : heap.vm_allocator_.baseAddress_ / 4096 + heap.pageCount + count ≤ 2 ^ 20) :
    (List.range' heap.pageCount count).map (heapPage heap) =
      List.range' (heap.vm_allocator_.baseAddress_ / 4096 + heap.pageCount) count := by
  have shift : List.range' (heap.vm_allocator_.baseAddress_ / 4096 + heap.pageCount) count =
      (List.range' heap.pageCount count).map
        fun position => heap.vm_allocator_.baseAddress_ / 4096 + position := by
    rw [List.map_add_range']
  rw [shift]
  apply List.map_congr_left
  intro position member
  have inside := (List.mem_range'_1.mp member).2
  exact Nat.mod_eq_of_lt (by omega)

theorem HeapReached.step {call : HeapCall} (kept : HeapReached platform holes root base run)
    (step : HeapStep platform run call next) : HeapReached platform holes root base next := by
  obtain ⟨reached, rootIs, isLive, sound, baseIs, narrow, mapped, pages, increasing, inside⟩ := kept
  cases step with
  | @allocate size result after appended positive bounded ran history =>
      have enough := @le_roundUp size 4096 (by decide)
      obtain ⟨same, allocated⟩ := (allocate_spec reached (by rw [rootIs]; exact isLive) sound mapped
        positive (by omega)).of_ok ran
      obtain ⟨newer, split, _, added⟩ := allocated.events
      rw [split] at history
      have sameNewer := List.append_cancel_right history
      have nowSound := allocated.sound
      have capacityAligned := sound.capacityAligned
      have baseAligned := sound.baseAligned
      have low := sound.low
      have high := sound.high
      have nowNarrow : base + after.heap.vm_allocator_.capacity_ < 2 ^ 32 ∧
          run.context.heap.vm_allocator_.capacity_ ≤ after.heap.vm_allocator_.capacity_ := by
        rcases allocated.grown with same | grown
        · omega
        · omega
      have nextNarrow : wrap32 run.context.heap.vm_allocator_.nextAddress_ =
          run.context.heap.vm_allocator_.nextAddress_ := wrap32_of_lt (by omega)
      rw [same, nextNarrow]
      refine ⟨allocated.reached, allocated.root.trans rootIs, by rw [← rootIs]; exact allocated.isLive,
        nowSound, allocated.base.trans baseIs, nowNarrow.1, allocated.mapped, ?_, ?_, ?_⟩
      · have total := nowSound.capacityAligned
        rw [← sameNewer, added, heapPages_narrow (by rw [pageCount, pageCount]; omega), pages, baseIs,
          ← List.reverse_append, pageCount, pageCount, List.range'_append_1]
        have count : run.context.heap.vm_allocator_.capacity_ / 4096 +
            (after.heap.vm_allocator_.capacity_ / 4096 -
              run.context.heap.vm_allocator_.capacity_ / 4096) =
            after.heap.vm_allocator_.capacity_ / 4096 := by omega
        rw [count]
      · apply List.pairwise_cons.mpr
        exact ⟨fun earlier member => (inside earlier member).2, increasing⟩
      · intro range member
        rw [allocated.advanced]
        cases List.mem_cons.mp member with
        | inl here =>
            rw [here]
            exact ⟨by rw [← baseIs]; exact low, Nat.le_refl _⟩
        | inr old =>
            have before := inside range old
            exact ⟨before.1, by omega⟩
  | other step kept =>
      obtain ⟨owner, owned⟩ := reached.owned
      obtain ⟨later, effect⟩ := step_effect reached owned step
      obtain ⟨newer, history, untouched⟩ := effect.history
      rw [rootIs] at kept
      have away := untouched root isLive kept
      refine ⟨effect.reached, rootIs, ?_, sound, baseIs, narrow, ?_, pages, increasing, inside⟩
      · change live _ root = true
        rw [history]
        exact live_append away.2 isLive
      · have consistent := effect.reached.consistent
        change Mapped run.context.heap _
        rw [history] at consistent ⊢
        exact mapped.append consistent (by rw [rootIs]; exact away.1) (by rw [rootIs]; exact away.2)

end Runs

structure HeapCorrect (root base : Nat) (run : HeapRun) : Prop where
  increasing : run.ranges.Pairwise fun later earlier => earlier.1 + earlier.2 ≤ later.1
  translated : ∀ range ∈ run.ranges, ∀ va, range.1 ≤ va → va < range.1 + range.2 →
    ∃ pte next, leafOf run.context.aspace_.view root (va / 4096) = some pte ∧
      pte &&& (PteFlags.R ||| PteFlags.W ||| PteFlags.U) =
        PteFlags.R ||| PteFlags.W ||| PteFlags.U ∧
      translate va root run.context.aspace_ = .ok (some (ptePa pte ||| vaPgoff va)) next
  pages : run.pages =
    (List.range' (base / 4096) (run.context.heap.vm_allocator_.capacity_ / 4096)).reverse
  pagesMapped : ∀ page ∈ run.pages, ∃ pte,
    leafOf run.context.aspace_.view root page = some pte ∧
      pte &&& (PteFlags.R ||| PteFlags.W ||| PteFlags.U) =
        PteFlags.R ||| PteFlags.W ||| PteFlags.U
  capacityAligned : 4096 ∣ run.context.heap.vm_allocator_.capacity_
  low : base ≤ run.context.heap.vm_allocator_.nextAddress_
  high : run.context.heap.vm_allocator_.nextAddress_ ≤
    base + run.context.heap.vm_allocator_.capacity_

theorem heapFlags_kept (pa : Nat) :
    makePte pa (leafFlags heapFlags) &&& (PteFlags.R ||| PteFlags.W ||| PteFlags.U) =
      PteFlags.R ||| PteFlags.W ||| PteFlags.U := by
  rw [makePte_and (by decide)]
  decide

theorem HeapReached.leaf {platform : Platform} {holes : HoleList} {root base page : Nat}
    {run : HeapRun} (kept : HeapReached platform holes root base run) (low : base / 4096 ≤ page)
    (high : page < (base + run.context.heap.vm_allocator_.capacity_) / 4096) :
    ∃ pte, leafOf run.context.aspace_.view root page = some pte ∧
      mapping run.context.aspace_.history root page = some pte ∧
      pte &&& (PteFlags.R ||| PteFlags.W ||| PteFlags.U) =
        PteFlags.R ||| PteFlags.W ||| PteFlags.U := by
  obtain ⟨owner, owned⟩ := kept.reached.owned
  have narrow := kept.narrow
  have capacityAligned := kept.sound.capacityAligned
  have inside : page - base / 4096 < run.context.heap.pageCount := by
    rw [pageCount]
    omega
  obtain ⟨pa, mapped⟩ := kept.mapped (page - base / 4096) inside
  have same : heapPage run.context.heap (page - base / 4096) = page := by
    rw [heapPage, kept.baseIs]
    omega
  rw [kept.rootIs, same] at mapped
  refine ⟨_, ?_, mapped, heapFlags_kept pa⟩
  rw [owned.maps root page kept.isLive (by omega), mapped]

theorem HeapReached.correct {platform : Platform} {holes : HoleList} {root base : Nat}
    {run : HeapRun} (kept : HeapReached platform holes root base run) :
    HeapCorrect root base run := by
  have low := kept.sound.low
  have high := kept.sound.high
  have narrow := kept.narrow
  have capacityAligned := kept.sound.capacityAligned
  have baseAligned := kept.sound.baseAligned
  rw [kept.baseIs] at low high baseAligned
  refine ⟨kept.increasing, ?_, kept.pages, ?_, capacityAligned, low, high⟩
  · intro range member va start stop
    have inside := kept.inside range member
    obtain ⟨pte, leaf, mapped, flags⟩ :=
      @HeapReached.leaf platform holes root base (va / 4096) run kept (by omega) (by omega)
    obtain ⟨owner, owned⟩ := kept.reached.owned
    obtain ⟨next, ran, _⟩ := translate_mapping owned kept.isLive (by omega : va < 2 ^ 32)
    rw [mapped] at ran
    exact ⟨pte, next, leaf, flags, ran⟩
  · intro page member
    rw [kept.pages, List.mem_reverse, List.mem_range'_1] at member
    obtain ⟨pte, leaf, _, flags⟩ := kept.leaf member.1 (by omega)
    exact ⟨pte, leaf, flags⟩

/-- Over every run of allocations, and whatever others do in between, the ranges
are disjoint and increasing, all their bytes translate, and exactly the pages of
the heap's range are mapped for it, each once. -/
theorem heap_correct {platform : Platform} (valid : platform.Valid) (localMemSize : Nat)
    {operations : List Operation} {aspace : AddressSpaceManager}
    (setup : Trace (Step platform) (AddressSpaceManager.new platform localMemSize) operations aspace)
    {root : Nat} (isLive : aspace.Live root) {base_va : Nat} (aligned : 4096 ∣ base_va)
    (narrow : base_va < 2 ^ 32) {calls : List HeapCall} {last : HeapRun}
    (run : Trace (HeapStep platform)
      { context := { heap := new root base_va, aspace_ := aspace }, ranges := [], pages := [] }
      calls last) :
    HeapCorrect root base_va last := by
  rw [new_withHoles] at setup
  have start := new_heapReached (run_reached valid setup) isLive aligned narrow
  exact (run.invariant _ (fun _ _ _ kept step => kept.step step) start).correct

section Small

theorem smallPlatform_heap {base : Nat} (aligned : 4096 ∣ base) (narrow : base + 4096 < 2 ^ 32) :
    ∃ created aspace, allocatePageTable (AddressSpaceManager.new smallPlatform 0) =
        .ok (some 0x1000) created ∧ created.Live 0x1000 ∧
      HeapManager.allocate 16 { heap := new 0x1000 base, aspace_ := created } =
        .ok (some base)
          { heap := { new 0x1000 base with
              vm_allocator_ := grownBy 16 (new 0x1000 base).vm_allocator_ }
            aspace_ := aspace } ∧
      ∃ newer, aspace.history = newer ++ created.history := by
  obtain ⟨created, setup, ran, history, frames, isLive, spare⟩ := smallPlatform_table
  obtain ⟨owner, owned⟩ := (run_reached smallPlatform_valid setup).owned
  obtain ⟨after, _, pa, allocated, _, _, added, _⟩ :=
    @allocate_onePage _ _ { heap := new 0x1000 base, aspace_ := created } owner 16 0 owned isLive
      (new_sound 0x1000 aligned (by omega)) rfl (by decide) (by decide)
      (by change base + 0 + 4096 ≤ 2 ^ 32; omega) (by rw [history]; rfl)
      (spare.fewer (by decide : 0 + 2 ≤ 3)).forNode
  exact ⟨created, after, ran, isLive, allocated, [_], added⟩

def onePageHeap : HeapManager :=
  { new 0x1000 0x10000 with vm_allocator_ := grownBy 4096 (new 0x1000 0x10000).vm_allocator_ }

def twoPageHeap : HeapManager :=
  { onePageHeap with vm_allocator_ := grownBy 4096 onePageHeap.vm_allocator_ }

theorem smallPlatform_firstPage : ∃ created aspace owner,
    allocatePageTable (AddressSpaceManager.new smallPlatform 0) = .ok (some 0x1000) created ∧
      created.Live 0x1000 ∧ aspace.Live 0x1000 ∧
      HeapManager.allocate 4096 { heap := new 0x1000 0x10000, aspace_ := created } =
        .ok (some 0x10000) { heap := onePageHeap, aspace_ := aspace } ∧
      aspace.history = .mapped 0x1000 0x10000 0x2000 heapFlags :: created.history ∧
      created.history = [.created 0x1000] ∧
      WellOwned smallPlatform
        (MayMapItself smallPlatform (AddressSpaceManager.new smallPlatform 0).hole_list_) owner aspace ∧
      onePageHeap.vm_allocator_.Sound ∧ aspace.frames = {0x3000, 0x2000, 0x1000} ∧
      Spare smallPlatform (fun frame => aspace.hole_list_.addrInHole frame) aspace.frames 1 := by
  obtain ⟨created, setup, ran, history, frames, isLive, spare⟩ := smallPlatform_table
  obtain ⟨owner, owned⟩ := (run_reached smallPlatform_valid setup).owned
  have sound := new_sound 0x1000 (by decide : 4096 ∣ 0x10000) (by decide)
  obtain ⟨aspace, later, pa, allocated, grownSound, advanced, added, next, withNode, rest⟩ :=
    @allocate_onePage _ _ { heap := new 0x1000 0x10000, aspace_ := created } owner 4096 1 owned
      isLive sound rfl (by decide) (by decide) (by change 0x10000 + 0 + 4096 ≤ 2 ^ 32; decide)
      (by rw [history]; rfl) spare.forNode
  have missing : ¬pteValid (entryAt created.view 0x1000 (0x10000 / 4096 / 1024)) = true := by
    intro upper
    have node := (owned.nodes 0x1000 _ isLive (by decide) upper).2
    have used := (owned.used _ _ node).1
    rw [frames, Finset.mem_singleton] at used
    rw [used, owned.roots 0x1000 isLive] at node
    cases node
  change NextFrame smallPlatform created.frames pa at next
  have page : pa = 0x2000 := by
    apply next.unique
    apply @smallPlatform_next _ 1 (by decide)
    rw [frames]
    decide
  change WithNode _ _ created.view 0x1000 0x10000 (insert pa created.frames) aspace.frames at withNode
  rw [WithNode, if_neg missing, page, frames] at withNode
  obtain ⟨node, outcome⟩ := withNode
  rw [frames] at spare
  obtain ⟨⟨_, same, nodeNext, grown⟩, _⟩ := (spare.take 0x2000).request outcome
  cases same
  have nodeIs : node = 0x3000 := nodeNext.unique (smallPlatform_next (by decide : 2 ≤ 3) (by decide))
  rw [nodeIs] at grown
  have holes : aspace.hole_list_ = created.hole_list_ := advanced.holes
  rw [page] at added
  exact ⟨created, aspace, later, ran, isLive, live_of_mapped added isLive, allocated, added, history,
    advanced.owned, grownSound, grown, holes ▸ rest⟩

/-- Two allocations of one page each: the pages are put into the second and the last frame. -/
theorem smallPlatform_twoPages : ∃ created aspace final,
    allocatePageTable (AddressSpaceManager.new smallPlatform 0) = .ok (some 0x1000) created ∧
      created.Live 0x1000 ∧
      HeapManager.allocate 4096 { heap := new 0x1000 0x10000, aspace_ := created } =
        .ok (some 0x10000) { heap := onePageHeap, aspace_ := aspace } ∧
      aspace.history = .mapped 0x1000 0x10000 0x2000 heapFlags :: created.history ∧
      HeapManager.allocate 4096 { heap := onePageHeap, aspace_ := aspace } =
          .ok (some 0x11000) { heap := twoPageHeap, aspace_ := final } ∧
        final.history = .mapped 0x1000 0x11000 0x4000 heapFlags :: aspace.history ∧
        (∀ va, va / 4096 = 0x10 → final.translated 0x1000 va = some (0x2000 + va % 4096)) ∧
        ∀ va, va / 4096 = 0x11 → final.translated 0x1000 va = some (0x4000 + va % 4096) := by
  obtain ⟨created, aspace, owner, ran, isLive, liveNow, allocated, added, history, owned, sound, used,
    spare⟩ := smallPlatform_firstPage
  have historyNow : aspace.history =
      [.mapped 0x1000 0x10000 0x2000 heapFlags, .created 0x1000] := by
    rw [added, history]
  have node : nodesNeeded aspace.view 0x1000 0x11000 = 0 :=
    nodesNeeded_mapped owned liveNow (by decide : 0x10 < 2 ^ 20) (by rw [historyNow]; rfl) (by decide)
  obtain ⟨final, last, second, again, _, advanced, addedAgain, next, _⟩ :=
    @allocate_onePage _ _ { heap := onePageHeap, aspace_ := aspace } owner 4096 0 owned liveNow sound
      rfl (by decide) (by decide) (by change 0x10000 + 4096 + 4096 ≤ 2 ^ 32; decide)
      (by
        change mapping aspace.history 0x1000 (0x11000 / 4096) = none
        rw [historyNow]
        rfl)
      (by
        change Spare _ _ _ (0 + nodesNeeded aspace.view 0x1000 0x11000 + 1)
        rw [node]
        exact spare)
  change NextFrame smallPlatform aspace.frames second at next
  have page : second = 0x4000 := by
    apply next.unique
    apply @smallPlatform_next _ 3 (by decide)
    rw [used]
    decide
  rw [page] at addedAgain
  change final.history = .mapped 0x1000 0x11000 0x4000 heapFlags :: aspace.history at addedAgain
  have liveAgain : final.Live 0x1000 := live_of_mapped addedAgain liveNow
  have low : mapping final.history 0x1000 0x10 = some (makePte 0x2000 (leafFlags heapFlags)) := by
    rw [addedAgain, historyNow]
    rfl
  have high : mapping final.history 0x1000 0x11 = some (makePte 0x4000 (leafFlags heapFlags)) := by
    rw [addedAgain]
    exact if_pos ⟨rfl, by decide⟩
  exact ⟨created, aspace, final, ran, isLive, allocated, added, again, addedAgain,
    fun va inPage => advanced.owned.translated_mapped liveAgain low (by decide) (by decide)
      (by omega) inPage,
    fun va inPage => advanced.owned.translated_mapped liveAgain high (by decide) (by decide)
      (by omega) inPage⟩

/-- Two requests of a page each from a heap at 0x10000: the ranges follow each other. -/
theorem heap_correct_small : ∃ aspace last, Trace (Step smallPlatform)
      (AddressSpaceManager.new smallPlatform 0) [.allocatePageTable] aspace ∧
    Trace (HeapStep smallPlatform)
      { context := { heap := new 0x1000 0x10000, aspace_ := aspace }, ranges := [], pages := [] }
      [.allocate 4096, .allocate 4096] last ∧
    last.ranges = [(0x11000, 4096), (0x10000, 4096)] ∧ HeapCorrect 0x1000 0x10000 last := by
  obtain ⟨created, aspace, final, ran, isLive, allocated, added, again, addedAgain, _⟩ :=
    smallPlatform_twoPages
  have setup : Trace (Step smallPlatform) (AddressSpaceManager.new smallPlatform 0)
      [.allocatePageTable] created := Trace.cons ⟨trivial, Or.inl ⟨_, ran⟩⟩ (Trace.nil created)
  have first := @HeapStep.allocate smallPlatform
    { context := { heap := new 0x1000 0x10000, aspace_ := created }, ranges := [], pages := [] } 4096
    (some 0x10000) _ [_] (by decide) (by change 0x10000 + 0 + 4096 < 2 ^ 32; decide) allocated added
  have second := @HeapStep.allocate smallPlatform
    { context := { heap := onePageHeap, aspace_ := aspace }, ranges := [(0x10000, 4096)]
      pages := [0x10] } 4096 (some 0x11000) _ [_] (by decide)
    (by change 0x10000 + 4096 + 4096 < 2 ^ 32; decide) again addedAgain
  have run := Trace.cons first (Trace.cons second (Trace.nil _))
  exact ⟨created, _, setup, run, rfl,
    heap_correct smallPlatform_valid 0 setup isLive (by decide) (by decide) run⟩

end Small

end Espiral.HeapManager
