import Espiral.Mm.FrameSupply
import Espiral.Mm.HeapTermination
import Espiral.Mm.TableRelease

/-!
# Growing a heap after a failed growth

The pages of a growth are mapped one after another, and the heap is told after
the last one. When the frames run out in between, the pages that have been
mapped are the first ones of every later growth.
-/

namespace Espiral.HeapManager

set_option autoImplicit false

open AddressSpaceManager Contracts MachineWords Traces

def growthPages (size : Nat) (heap : HeapManager) : Finset Nat :=
  (Finset.range (pagesNeeded size)).image fun i => heapPage heap (heap.pageCount + i)

def growthFrames (size : Nat) (context : HeapContext) : Nat :=
  pagesNeeded size + (missingNodes context.aspace_.view context.heap.top_pgtbl_pa_
    (growthPages size context.heap)).card

def Meanwhile (platform : Platform) (context : HeapContext) (call : HeapCall)
    (next : HeapContext) : Prop :=
  HeapAttempt platform context call next ∧
    ∀ size, call = .allocate size → BumpAllocator.Accepts size context.heap.vm_allocator_

/-- The pages of the next growth are free: the growth that failed has mapped none of them,
they were free before it, and nobody has mapped one since. The last field matters only if
the next address is below the base. -/
structure Recoverable (platform : Platform) (root : Nat) (context failed later : HeapContext)
    (wanted : Nat) : Prop where
  counted : wanted ≤ 2 ^ 64 - 4096
  refused : ∃ last, Refused platform context.aspace_ root context.heap.lastVa last
  unmapped : ∀ page ∈ growthPages wanted later.heap,
    mapping context.aspace_.history root page = none
  untouched : ∀ newer, later.aspace_.history = newer ++ failed.aspace_.history →
    ∀ page ∈ growthPages wanted later.heap, page ∉ pagesOf root newer
  below : later.heap.vm_allocator_.nextAddress_ < later.heap.vm_allocator_.baseAddress_ →
    ∀ offset < wanted,
      wrap32 (later.heap.vm_allocator_.nextAddress_ + offset) / 4096 ∈
          growthPages wanted later.heap ∨
        later.aspace_.translated root (wrap32 (later.heap.vm_allocator_.nextAddress_ + offset)) ≠
          none

section Growths

variable {platform : Platform} {identity : Nat → Prop} {holes : HoleList} {root size page : Nat}
  {context failed grown next : HeapContext} {fault : Fault}

theorem mem_growthPages (size page : Nat) (heap : HeapManager) :
    page ∈ growthPages size heap ↔
      page ∈ ((List.range' heap.pageCount (pagesNeeded size)).map (heapPage heap)).reverse := by
  rw [growthPages, Finset.mem_image, List.mem_reverse, List.mem_map]
  constructor
  · intro inside
    obtain ⟨i, bound, same⟩ := inside
    have small := Finset.mem_range.mp bound
    exact ⟨heap.pageCount + i, List.mem_range'_1.mpr ⟨Nat.le_add_right _ _, by omega⟩, same⟩
  · intro inside
    obtain ⟨position, between, same⟩ := inside
    obtain ⟨low, high⟩ := List.mem_range'_1.mp between
    refine ⟨position - heap.pageCount, Finset.mem_range.mpr (by omega), ?_⟩
    rw [Nat.add_sub_cancel' low]
    exact same

theorem growthPages_small (inside : page ∈ growthPages size context.heap) : page < 2 ^ 20 := by
  obtain ⟨i, _, same⟩ := Finset.mem_image.mp inside
  rw [← same]
  exact Nat.mod_lt _ (by decide)

theorem growth_pages
    (growth : Growth platform identity holes context (pagesNeeded size) grown)
    (inside : page ∈ growthPages size context.heap) :
    mapping context.aspace_.history context.heap.top_pgtbl_pa_ page = none ∧
      mapping grown.aspace_.history context.heap.top_pgtbl_pa_ page ≠ none := by
  obtain ⟨newer, history, only, pages⟩ := growth.events
  have member : page ∈ pagesOf context.heap.top_pgtbl_pa_ newer := by
    rw [pages]
    exact (mem_growthPages size page context.heap).mp inside
  have untouched := untouched_of_mapped only.events
  have consistent := growth.reached.consistent
  rw [history] at consistent ⊢
  exact ⟨unmapped_before consistent (untouched _).1 (untouched _).2 member,
    mapping_of_mem_append (untouched _).1 (untouched _).2 member⟩

theorem growth_other (growth : Growth platform identity holes context (pagesNeeded size) grown)
    (outside : page ∉ growthPages size context.heap) :
    mapping grown.aspace_.history context.heap.top_pgtbl_pa_ page =
      mapping context.aspace_.history context.heap.top_pgtbl_pa_ page := by
  obtain ⟨newer, history, only, pages⟩ := growth.events
  rw [history]
  apply mapping_append_other only.events
  intro _ member
  rw [pages] at member
  exact outside ((mem_growthPages size page context.heap).mpr member)

theorem HeapBooks.allocate_stuck (books : HeapBooks platform holes root context)
    (rejects : ¬BumpAllocator.Accepts size context.heap.vm_allocator_)
    (stuck : mapPages context.heap.lastVa (pagesNeeded size) context.heap.top_pgtbl_pa_ context =
      .error fault failed) :
    HeapManager.allocate size context = .error fault failed := by
  have deep : allocateDepth = 1048574 + 1 + 1 := rfl
  have asked : (get : Action HeapContext HeapContext) context = .ok context context := rfl
  have growing : growHeap size context = .error fault failed := by
    rw [growHeap, bind_ok asked, bind_error stuck]
  rw [HeapManager.allocate, deep, books.rejected rejects, bind_error growing]

section Outcomes

variable (books : HeapBooks platform holes root context) (narrow : size < 2 ^ 64)
  (terminates : Terminates size context.heap)
  (rejects : ¬BumpAllocator.Accepts size context.heap.vm_allocator_)

include books narrow terminates rejects

theorem HeapBooks.allocate_grown
    (mapped : mapPages context.heap.lastVa (pagesNeeded size) context.heap.top_pgtbl_pa_ context =
      .ok () grown) :
    Growth platform (MayMapItself platform holes) holes context (pagesNeeded size) grown ∧
      ∃ heap, HeapManager.allocate size context =
        .ok (some (wrap32 context.heap.vm_allocator_.nextAddress_))
          { grown with heap := heap } := by
  have deep : allocateDepth = 1048574 + 1 + 1 := rfl
  have asked : (get : Action HeapContext HeapContext) context = .ok context context := rfl
  have isLive := books.isLive
  rw [← books.rootIs] at isLive
  have growth := (mapPages_spec (pagesNeeded size) books.reached isLive books.bounded
    books.mapped).of_ok mapped
  obtain ⟨told, kept⟩ := books.grown growth
  have again := accepts_after_growth books.bounded terminates rejects
  have growing : growHeap size context = onVmAllocator (BumpAllocator.growCapacity
      (wrap64 (pagesNeeded size * PAGE_SIZE))) grown := by
    rw [growHeap, bind_ok asked, bind_ok mapped]
  rw [told] at growing
  obtain ⟨second, _⟩ := kept.accepted narrow again 1048574
  rw [HeapManager.allocate, deep, books.rejected rejects, bind_ok growing]
  exact ⟨growth, _, second⟩

end Outcomes

theorem HeapBooks.first_address (books : HeapBooks platform holes root context) :
    wrap32 (context.heap.lastVa + 0 * PAGE_SIZE) = context.heap.lastVa ∧
      context.heap.lastVa / 4096 = heapPage context.heap context.heap.pageCount := by
  have address := heapPage_address books.bounded 0
  have same : wrap32 (context.heap.lastVa + 0 * PAGE_SIZE) = context.heap.lastVa := by
    rw [Nat.zero_mul, Nat.add_zero]
    exact wrap32_of_lt (wrap32_lt _)
  rw [same, Nat.add_zero] at address
  refine ⟨same, ?_⟩
  rw [address]
  exact Nat.mul_div_cancel _ (by decide)

theorem HeapBooks.mapPages_thrown (books : HeapBooks platform holes root context) {count : Nat}
    (stuck : mapPages context.heap.lastVa count context.heap.top_pgtbl_pa_ context =
      .error fault failed) :
    (∃ last, Refused platform context.aspace_ root context.heap.lastVa last) ∧
        failed.aspace_.history = context.aspace_.history ∨
      (¬∃ last, Refused platform context.aspace_ root context.heap.lastVa last) ∧
        mapping failed.aspace_.history root (context.heap.lastVa / 4096) ≠ none := by
  obtain ⟨owner, owned⟩ := books.reached.owned
  have lastNarrow : context.heap.lastVa < 2 ^ 32 := wrap32_lt _
  have spec := @allocateOneVmPage_spec _ _ owner _ root _ owned books.isLive lastNarrow heapFlags
    (by decide)
  cases count with
  | zero => cases stuck
  | succ count =>
      rw [mapPages, List.range_succ_eq_map] at stuck
      change (onAddressSpace (allocateOneVmPage (wrap32 (context.heap.lastVa + 0 * PAGE_SIZE))
          context.heap.top_pgtbl_pa_ heapFlags) >>= fun _ => ((List.range count).map Nat.succ).forM
        fun i => onAddressSpace (allocateOneVmPage (wrap32 (context.heap.lastVa + i * PAGE_SIZE))
          context.heap.top_pgtbl_pa_ heapFlags)) context = .error fault failed at stuck
      rw [books.first_address.1, books.rootIs] at stuck
      cases first : allocateOneVmPage context.heap.lastVa root heapFlags context.aspace_ with
      | error firstFault firstNext =>
          left
          have lifted : onAddressSpace (allocateOneVmPage context.heap.lastVa root heapFlags)
              context = .error firstFault { context with aspace_ := firstNext } :=
            onAddressSpace_thrown first
          rw [bind_error lifted] at stuck
          cases stuck
          obtain ⟨_, _, history, _, refused⟩ := spec.of_error first
          exact ⟨⟨_, refused⟩, history⟩
      | ok value firstNext =>
          right
          have lifted : onAddressSpace (allocateOneVmPage context.heap.lastVa root heapFlags)
              context = .ok () { context with aspace_ := firstNext } :=
            onAddressSpace_run first
          rw [bind_ok lifted] at stuck
          obtain ⟨later, pa, advanced, history, _⟩ := spec.of_ok first
          have start : StillMapped platform (MayMapItself platform holes) root
              (context.heap.lastVa / 4096) firstNext := by
            refine ⟨⟨later, advanced.owned⟩, live_of_mapped history books.isLive, ?_⟩
            rw [history, mapping, if_pos ⟨rfl, rfl⟩]
            exact Option.some_ne_none _
          have loop := @ensures_forM Fault HeapContext Nat { context with aspace_ := firstNext }
            (fun _ next => StillMapped platform (MayMapItself platform holes) root
              (context.heap.lastVa / 4096) next.aspace_)
            (fun i => onAddressSpace (allocateOneVmPage
              (wrap32 (context.heap.lastVa + i * PAGE_SIZE)) root heapFlags))
            (fun _ next => StillMapped platform (MayMapItself platform holes) root
              (context.heap.lastVa / 4096) next.aspace_)
            ((List.range count).map Nat.succ) [] _ rfl ?_ start
          · exact ⟨allocateOneVmPage_not_refused owned books.isLive lastNarrow (by decide) first,
              (loop.of_error stuck).mapped⟩
          · intro _ i _ now _ still
            apply (onAddressSpace_ensures (still.call (wrap32_lt _) (by decide))).weaken
            · intro _ next outcome
              exact outcome.2
            · intro _ next outcome
              exact outcome.2

/-- The heap is as it was after a growth that threw, and unless already its first page was
refused that page is mapped now. -/
theorem HeapBooks.stuck (books : HeapBooks platform holes root context) (narrow : size < 2 ^ 64)
    (thrown : HeapManager.allocate size context = .error fault failed)
    (ended : fault ≠ .nonTermination) :
    failed.heap = context.heap ∧
      (∃ newer, failed.aspace_.history = newer ++ context.aspace_.history ∧
        .created root ∉ newer ∧ .freed root ∉ newer) ∧
      ((∃ last, Refused platform context.aspace_ root context.heap.lastVa last) ∧
          failed.aspace_.history = context.aspace_.history ∨
        (¬∃ last, Refused platform context.aspace_ root context.heap.lastVa last) ∧
          mapping failed.aspace_.history root (context.heap.lastVa / 4096) ≠ none) := by
  have deep : allocateDepth = 1048574 + 1 + 1 := rfl
  have terminates : Terminates size context.heap := by
    by_contra endless
    rw [HeapManager.allocate, deep, books.never_ends narrow endless] at thrown
    cases thrown
    exact ended rfl
  have rejects : ¬BumpAllocator.Accepts size context.heap.vm_allocator_ := by
    intro accepts
    rw [HeapManager.allocate, deep, (books.accepted narrow accepts _).1] at thrown
    cases thrown
  have isLive := books.isLive
  rw [← books.rootIs] at isLive
  cases mapped : mapPages context.heap.lastVa (pagesNeeded size) context.heap.top_pgtbl_pa_
      context with
  | ok value grown =>
      obtain ⟨_, heap, ran⟩ := books.allocate_grown narrow terminates rejects mapped
      rw [ran] at thrown
      cases thrown
  | error otherFault other =>
      rw [books.allocate_stuck rejects mapped] at thrown
      cases thrown
      obtain ⟨_, done, growth⟩ := (mapPages_spec (pagesNeeded size) books.reached isLive
        books.bounded books.mapped).of_error mapped
      obtain ⟨newer, history, only, _⟩ := growth.events
      exact ⟨growth.heap, ⟨newer, history, untouched_of_mapped only.events root⟩,
        books.mapPages_thrown mapped⟩

section Supplied

variable (books : HeapBooks platform holes root context)
  (unmapped : ∀ page ∈ growthPages size context.heap,
    mapping context.aspace_.history root page = none)
  (supply : Supply platform (fun frame => holes.addrInHole frame) context.aspace_.frames
    (growthFrames size context))

include books unmapped supply

/-- There are not enough frames for a growth that goes around the address space. -/
theorem HeapBooks.growth_narrow : context.heap.pageCount + pagesNeeded size ≤ 2 ^ 20 := by
  obtain ⟨owner, owned⟩ := books.reached.owned
  obtain ⟨frames, enough, unused⟩ := supply
  have few := frames_few owned.pool.valid fun frame member => (unused frame member).1
  have capacityNarrow := books.bounded.capacityNarrow
  unfold growthFrames at enough
  have pages : context.heap.pageCount ≤ 2 ^ 20 := by
    rw [pageCount]
    omega
  by_contra around
  have some : 0 < context.heap.pageCount := by omega
  have inside : heapPage context.heap (2 ^ 20) ∈ growthPages size context.heap := by
    rw [growthPages, Finset.mem_image]
    refine ⟨2 ^ 20 - context.heap.pageCount, Finset.mem_range.mpr (by omega), ?_⟩
    rw [Nat.add_sub_cancel' pages]
  have first : heapPage context.heap (2 ^ 20) = heapPage context.heap 0 := by
    rw [heapPage, heapPage, Nat.add_mod_right, Nat.add_zero]
  obtain ⟨pa, mapped⟩ := books.mapped 0 some
  have free := unmapped _ inside
  rw [first, ← books.rootIs, mapped] at free
  cases free

theorem HeapBooks.mapPages_supplied :
    ∃ grown, mapPages context.heap.lastVa (pagesNeeded size) context.heap.top_pgtbl_pa_ context =
      .ok () grown := by
  have narrow := HeapBooks.growth_narrow books unmapped supply
  have injective : Set.InjOn (fun i => heapPage context.heap (context.heap.pageCount + i))
      (Finset.range (pagesNeeded size)) := by
    intro first firstIn second secondIn same
    have firstSmall := Finset.mem_range.mp firstIn
    have secondSmall := Finset.mem_range.mp secondIn
    change (_ + (_ + first)) % 2 ^ 20 = (_ + (_ + second)) % 2 ^ 20 at same
    omega
  have start : Awaiting platform (MayMapItself platform holes) holes root
      ((Finset.Ico 0 (pagesNeeded size)).image fun i =>
        heapPage context.heap (context.heap.pageCount + i)) context.aspace_ := by
    rw [← Finset.range_eq_Ico]
    refine ⟨books.reached, books.isLive, fun page inside => growthPages_small inside, unmapped, ?_⟩
    rw [framesNeeded, Finset.card_image_of_injOn injective, Finset.card_range, ← books.rootIs]
    exact supply
  have loop := @ensures_forM Fault HeapContext Nat context (fun _ _ => False)
    (fun i => onAddressSpace (allocateOneVmPage (wrap32 (context.heap.lastVa + i * PAGE_SIZE))
      context.heap.top_pgtbl_pa_ heapFlags))
    (fun before now => Awaiting platform (MayMapItself platform holes) holes root
      ((Finset.Ico before.length (pagesNeeded size)).image fun i =>
        heapPage context.heap (context.heap.pageCount + i)) now.aspace_)
    (List.range (pagesNeeded size)) [] _ rfl ?_ start
  · cases ensures_iff.mp loop with
    | inl returned =>
        obtain ⟨_, grown, ran, _⟩ := returned
        exact ⟨grown, ran⟩
    | inr thrown =>
        obtain ⟨_, _, _, impossible⟩ := thrown
        exact impossible.elim
  · intro before i rest now split awaiting
    obtain ⟨position, small⟩ := range_split split
    have address := heapPage_address books.bounded i
    have page : heapPage context.heap (context.heap.pageCount + i) * 4096 / 4096 =
        heapPage context.heap (context.heap.pageCount + i) := Nat.mul_div_cancel _ (by decide)
    have pageNarrow : heapPage context.heap (context.heap.pageCount + i) < 2 ^ 20 :=
      Nat.mod_lt _ (by decide)
    rw [← position] at awaiting
    obtain ⟨next, pa, ran, left, _⟩ := awaiting.page
      (by omega : heapPage context.heap (context.heap.pageCount + i) * 4096 < 2 ^ 32)
      (by
        rw [page]
        exact Finset.mem_image_of_mem _ (Finset.mem_Ico.mpr ⟨Nat.le_refl i, small⟩))
      (by decide : heapFlags &&& PteFlags.R ≠ 0)
    have others : ((Finset.Ico i (pagesNeeded size)).image fun i =>
        heapPage context.heap (context.heap.pageCount + i)).erase
          (heapPage context.heap (context.heap.pageCount + i)) =
        (Finset.Ico (i + 1) (pagesNeeded size)).image fun i =>
          heapPage context.heap (context.heap.pageCount + i) := by
      ext other
      rw [Finset.mem_erase, Finset.mem_image, Finset.mem_image]
      constructor
      · intro inside
        obtain ⟨different, later, between, same⟩ := inside
        obtain ⟨low, high⟩ := Finset.mem_Ico.mp between
        have away : later ≠ i := by
          intro here
          rw [here] at same
          exact different same.symm
        exact ⟨later, Finset.mem_Ico.mpr ⟨by omega, high⟩, same⟩
      · intro inside
        obtain ⟨later, between, same⟩ := inside
        obtain ⟨low, high⟩ := Finset.mem_Ico.mp between
        refine ⟨?_, later, Finset.mem_Ico.mpr ⟨by omega, high⟩, same⟩
        intro here
        have equal := injective (Finset.mem_coe.mpr (Finset.mem_range.mpr high))
          (Finset.mem_coe.mpr (Finset.mem_range.mpr small)) (same.trans here)
        omega
    rw [page, others] at left
    have lifted : onAddressSpace (allocateOneVmPage
        (heapPage context.heap (context.heap.pageCount + i) * 4096) root heapFlags) now =
          .ok () { now with aspace_ := next } := onAddressSpace_run ran
    rw [address, books.rootIs]
    apply ensures_of_run lifted
    rw [List.length_append, List.length_singleton, ← position]
    exact left

end Supplied

theorem translated_iff_mapped {state : AddressSpaceManager} {addr : Nat}
    (reached : Reached platform identity holes state) (isLive : state.Live root)
    (addrBound : addr < 2 ^ 32) :
    state.translated root addr ≠ none ↔ mapping state.history root (addr / 4096) ≠ none := by
  obtain ⟨owner, owned⟩ := reached.owned
  rw [owned.translated_mapping isLive addrBound, ne_eq, ne_eq, Option.map_eq_none_iff]

theorem HeapBooks.range_page (books : HeapBooks platform holes root context)
    (small : size ≤ 2 ^ 64 - 4096)
    (low : context.heap.vm_allocator_.baseAddress_ ≤ context.heap.vm_allocator_.nextAddress_)
    {offset : Nat} (inside : offset < size) :
    wrap32 (context.heap.vm_allocator_.nextAddress_ + offset) / 4096 ∈
        growthPages size context.heap ∨
      mapping context.aspace_.history root
        (wrap32 (context.heap.vm_allocator_.nextAddress_ + offset) / 4096) ≠ none := by
  have high := books.bounded.high
  have baseAligned := books.bounded.baseAligned
  have capacityAligned := books.bounded.capacityAligned
  have covers := pagesNeeded_covers small
  obtain ⟨position, place⟩ : ∃ position, context.heap.vm_allocator_.nextAddress_ + offset =
      context.heap.vm_allocator_.baseAddress_ + position * 4096 +
        (context.heap.vm_allocator_.nextAddress_ + offset) % 4096 :=
    ⟨(context.heap.vm_allocator_.nextAddress_ + offset -
      context.heap.vm_allocator_.baseAddress_) / 4096, by omega⟩
  have page : wrap32 (context.heap.vm_allocator_.nextAddress_ + offset) / 4096 =
      heapPage context.heap position := by
    rw [heapPage, wrap32]
    omega
  rw [page]
  by_cases old : position < context.heap.pageCount
  · right
    obtain ⟨pa, mapped⟩ := books.mapped position old
    rw [← books.rootIs, mapped]
    exact Option.some_ne_none _
  · left
    rw [pageCount] at old
    rw [growthPages, Finset.mem_image]
    refine ⟨position - context.heap.pageCount, Finset.mem_range.mpr ?_, ?_⟩
    · rw [pageCount]
      omega
    · rw [pageCount, Nat.add_sub_cancel' (Nat.le_of_not_lt old)]

structure Waited (root : Nat) (failed later : HeapContext) : Prop where
  base : later.heap.vm_allocator_.baseAddress_ = failed.heap.vm_allocator_.baseAddress_
  capacity : later.heap.vm_allocator_.capacity_ = failed.heap.vm_allocator_.capacity_
  history : ∃ newer, later.aspace_.history = newer ++ failed.aspace_.history ∧
    .created root ∉ newer ∧ .freed root ∉ newer

theorem Waited.step {later : HeapContext} {call : HeapCall} (waited : Waited root failed later)
    (books : HeapBooks platform holes root later) (step : Meanwhile platform later call next) :
    Waited root failed next ∧ HeapBooks platform holes root next := by
  have deep : allocateDepth = 1048574 + 1 + 1 := rfl
  obtain ⟨attempt, fits⟩ := step
  refine ⟨?_, books.attempt attempt⟩
  cases attempt with
  | @returned _ size _ narrow ran =>
      rw [HeapManager.allocate, deep, (books.accepted narrow (fits size rfl) _).1] at ran
      cases ran
      exact ⟨waited.base, waited.capacity, waited.history⟩
  | @thrown _ size fault narrow ended thrown =>
      rw [HeapManager.allocate, deep, (books.accepted narrow (fits size rfl) _).1] at thrown
      cases thrown
  | other step kept =>
      obtain ⟨owner, owned⟩ := books.reached.owned
      obtain ⟨later, effect⟩ := step_effect books.reached owned step
      obtain ⟨newer, history, untouched⟩ := effect.history
      obtain ⟨before, split, notCreated, notFreed⟩ := waited.history
      rw [books.rootIs] at kept
      have away := untouched root books.isLive kept
      refine ⟨waited.base, waited.capacity, newer ++ before, ?_, ?_, ?_⟩
      · rw [history, split, List.append_assoc]
      · rw [List.mem_append, not_or]
        exact ⟨away.1, notCreated⟩
      · rw [List.mem_append, not_or]
        exact ⟨away.2, notFreed⟩

theorem Waited.same_address {later : HeapContext} (waited : Waited root failed later)
    (heap : failed.heap = context.heap) : later.heap.lastVa = context.heap.lastVa := by
  rw [HeapManager.lastVa, HeapManager.lastVa, BumpAllocator.getBaseAddress,
    BumpAllocator.getBaseAddress, BumpAllocator.getCapacity, BumpAllocator.getCapacity,
    waited.base, waited.capacity, heap]

theorem HeapBooks.first_growthPage (books : HeapBooks platform holes root context)
    (positive : 0 < size) (small : size ≤ 2 ^ 64 - 4096) :
    context.heap.lastVa / 4096 ∈ growthPages size context.heap := by
  have covers := pagesNeeded_covers small
  rw [books.first_address.2, growthPages, Finset.mem_image]
  exact ⟨0, Finset.mem_range.mpr (by omega), rfl⟩

section Recovery

variable {later : HeapContext} {wanted : Nat}
  (books : HeapBooks platform holes root context) (laterBooks : HeapBooks platform holes root later)
  (narrow : size < 2 ^ 64) (ended : fault ≠ .nonTermination)
  (thrown : HeapManager.allocate size context = .error fault failed)
  (waited : Waited root failed later) (positive : 0 < wanted) (wantedNarrow : wanted < 2 ^ 64)
  (rejects : ¬BumpAllocator.Accepts wanted later.heap.vm_allocator_)

include books laterBooks narrow ended thrown waited positive wantedNarrow rejects

theorem recoverable_of_grown {va : Nat} {final : HeapContext}
    (ran : HeapManager.allocate wanted later = .ok (some va) final)
    (covered : ∀ offset < wanted, final.aspace_.translated root (wrap32 (va + offset)) ≠ none) :
    Recoverable platform root context failed later wanted := by
  have deep : allocateDepth = 1048574 + 1 + 1 := rfl
  have terminates : Terminates wanted later.heap := by
    by_contra endless
    rw [HeapManager.allocate, deep, laterBooks.never_ends wantedNarrow endless] at ran
    cases ran
  have sum := not_or.mp fun fits => rejects ⟨terminates.1, fits⟩
  have small : wanted ≤ 2 ^ 64 - 4096 := by
    by_contra large
    exact sum.2 (terminates.2 (Nat.lt_of_not_le large))
  obtain ⟨heap, ⟨before, beforeHistory, beforeCreated, beforeFreed⟩, first⟩ :=
    books.stuck narrow thrown ended
  obtain ⟨since, sinceHistory, sinceCreated, sinceFreed⟩ := waited.history
  have laterConsistent := laterBooks.reached.consistent
  cases mapped : mapPages later.heap.lastVa (pagesNeeded wanted) later.heap.top_pgtbl_pa_
      later with
  | error otherFault other =>
      rw [laterBooks.allocate_stuck rejects mapped] at ran
      cases ran
  | ok value grown =>
      obtain ⟨growth, grownHeap, again⟩ :=
        laterBooks.allocate_grown wantedNarrow terminates rejects mapped
      rw [again] at ran
      cases ran
      have free : ∀ page ∈ growthPages wanted later.heap,
          mapping later.aspace_.history root page = none := by
        intro page inside
        rw [← laterBooks.rootIs]
        exact (growth_pages growth inside).1
      have freeThen : ∀ page ∈ growthPages wanted later.heap,
          mapping failed.aspace_.history root page = none := by
        intro page inside
        by_contra mappedThen
        obtain ⟨pte, found⟩ := Option.ne_none_iff_exists'.mp mappedThen
        rw [sinceHistory] at laterConsistent
        have still := mapping_append laterConsistent sinceCreated sinceFreed found
        rw [← sinceHistory, free page inside] at still
        cases still
      refine ⟨small, ?_, ?_, ?_, ?_⟩
      · have firstFree := freeThen _ (laterBooks.first_growthPage positive small)
        rw [waited.same_address heap] at firstFree
        cases first with
        | inl refused => exact refused.1
        | inr mappedFirst => exact absurd firstFree mappedFirst.2
      · intro page inside
        by_contra mappedBefore
        obtain ⟨pte, found⟩ := Option.ne_none_iff_exists'.mp mappedBefore
        have consistent := laterConsistent
        rw [sinceHistory, beforeHistory, ← List.append_assoc] at consistent
        have still := mapping_append consistent
          (by rw [List.mem_append, not_or]; exact ⟨sinceCreated, beforeCreated⟩)
          (by rw [List.mem_append, not_or]; exact ⟨sinceFreed, beforeFreed⟩) found
        rw [List.append_assoc, ← beforeHistory, ← sinceHistory, free page inside] at still
        cases still
      · intro newer history page inside member
        rw [sinceHistory] at history
        rw [← List.append_cancel_right history] at member
        apply mapping_of_mem_append sinceCreated sinceFreed member
        rw [← sinceHistory]
        exact free page inside
      · intro _ offset inside
        have found := covered offset inside
        have isLive := growth.isLive
        rw [laterBooks.rootIs] at isLive
        by_cases grownPage : wrap32 (later.heap.vm_allocator_.nextAddress_ + offset) / 4096 ∈
            growthPages wanted later.heap
        · exact Or.inl grownPage
        · right
          have same : wrap32 (wrap32 later.heap.vm_allocator_.nextAddress_ + offset) =
              wrap32 (later.heap.vm_allocator_.nextAddress_ + offset) := by
            unfold wrap32
            omega
          rw [same] at found
          have mappedNow := (translated_iff_mapped growth.reached isLive (wrap32_lt _)).mp found
          rw [translated_iff_mapped laterBooks.reached laterBooks.isLive (wrap32_lt _),
            ← laterBooks.rootIs, ← growth_other growth grownPage, laterBooks.rootIs]
          exact mappedNow

theorem grown_of_recoverable
    (supply : Supply platform (fun frame => holes.addrInHole frame) later.aspace_.frames
      (growthFrames wanted later))
    (recoverable : Recoverable platform root context failed later wanted) :
    ∃ va final, HeapManager.allocate wanted later = .ok (some va) final ∧
      ∀ offset < wanted, final.aspace_.translated root (wrap32 (va + offset)) ≠ none := by
  have small := recoverable.counted
  have terminates : Terminates wanted later.heap :=
    ⟨Nat.ne_of_gt positive, fun large => absurd small (Nat.not_le.mpr large)⟩
  obtain ⟨heap, _, first⟩ := books.stuck narrow thrown ended
  obtain ⟨since, sinceHistory, sinceCreated, sinceFreed⟩ := waited.history
  have failedHistory : failed.aspace_.history = context.aspace_.history := by
    cases first with
    | inl refused => exact refused.2
    | inr mappedFirst => exact absurd recoverable.refused mappedFirst.1
  have free : ∀ page ∈ growthPages wanted later.heap,
      mapping later.aspace_.history root page = none := by
    intro page inside
    rw [sinceHistory, mapping_append_unmapped sinceCreated sinceFreed
      (recoverable.untouched since sinceHistory page inside), failedHistory]
    exact recoverable.unmapped page inside
  obtain ⟨grown, mapped⟩ := HeapBooks.mapPages_supplied laterBooks free supply
  obtain ⟨growth, grownHeap, ran⟩ :=
    laterBooks.allocate_grown wantedNarrow terminates rejects mapped
  refine ⟨_, _, ran, ?_⟩
  intro offset inside
  have same : wrap32 (wrap32 later.heap.vm_allocator_.nextAddress_ + offset) =
      wrap32 (later.heap.vm_allocator_.nextAddress_ + offset) := by
    unfold wrap32
    omega
  have isLive := growth.isLive
  rw [laterBooks.rootIs] at isLive
  rw [same]
  change grown.aspace_.translated root _ ≠ none
  rw [translated_iff_mapped growth.reached isLive (wrap32_lt _), ← laterBooks.rootIs]
  by_cases grownPage : wrap32 (later.heap.vm_allocator_.nextAddress_ + offset) / 4096 ∈
      growthPages wanted later.heap
  · exact (growth_pages growth grownPage).2
  · rw [growth_other growth grownPage, laterBooks.rootIs]
    by_cases wrapped :
        later.heap.vm_allocator_.nextAddress_ < later.heap.vm_allocator_.baseAddress_
    · have before := (recoverable.below wrapped offset inside).resolve_left grownPage
      exact (translated_iff_mapped laterBooks.reached laterBooks.isLive (wrap32_lt _)).mp before
    · exact (laterBooks.range_page small (Nat.le_of_not_lt wrapped) inside).resolve_left grownPage

end Recovery

end Growths

/-- After any attempts, when a growth has run out of frames and there are enough again, the
next growth succeeds and its range is mapped exactly when its pages are free. -/
theorem growth_recovers_iff {platform : Platform} (valid : platform.Valid) (localMemSize : Nat)
    {operations : List Operation} {aspace : AddressSpaceManager}
    (setup : Trace (Step platform) (AddressSpaceManager.new platform localMemSize) operations aspace)
    {root : Nat} (isLive : aspace.Live root) {base_va : Nat} (aligned : 4096 ∣ base_va)
    (baseNarrow : base_va < 2 ^ 32) {calls : List HeapCall} {context failed later : HeapContext}
    (run : Trace (HeapAttempt platform) { heap := new root base_va, aspace_ := aspace } calls
      context) {size : Nat} (narrow : size < 2 ^ 64) {fault : Fault}
    (thrown : HeapManager.allocate size context = .error fault failed)
    (ranOut : OutOfFrames fault) {meanwhile : List HeapCall}
    (waited : Trace (Meanwhile platform) failed meanwhile later) {wanted : Nat}
    (positive : 0 < wanted) (wantedNarrow : wanted < 2 ^ 64)
    (growing : ¬BumpAllocator.Accepts wanted later.heap.vm_allocator_)
    (supply : Supply platform (fun frame => later.aspace_.hole_list_.addrInHole frame)
      later.aspace_.frames (growthFrames wanted later)) :
    (∃ va final, HeapManager.allocate wanted later = .ok (some va) final ∧
        ∀ offset < wanted, final.aspace_.translated root (wrap32 (va + offset)) ≠ none) ↔
      Recoverable platform root context failed later wanted := by
  have books := run_books valid setup isLive aligned baseNarrow run
  have ended := MappingFault.ended (Or.inl ranOut)
  have failedBooks := books.attempt (HeapAttempt.thrown narrow ended thrown)
  have start : Waited root failed failed :=
    ⟨rfl, rfl, [], rfl, List.not_mem_nil, List.not_mem_nil⟩
  obtain ⟨since, laterBooks⟩ := waited.invariant (fun now => Waited root failed now ∧
      HeapBooks platform (AddressSpaceManager.new platform localMemSize).hole_list_ root now)
    (fun _ _ _ kept step => kept.1.step kept.2 step) ⟨start, failedBooks⟩
  constructor
  · intro succeeds
    obtain ⟨va, final, ran, covered⟩ := succeeds
    exact recoverable_of_grown books laterBooks narrow ended thrown since positive wantedNarrow
      growing ran covered
  · intro recoverable
    rw [laterBooks.reached.holes] at supply
    exact grown_of_recoverable books laterBooks narrow ended thrown since positive wantedNarrow
      growing supply recoverable

section Small

theorem smallPlatform_twoTables : ∃ aspace,
    Trace (Step smallPlatform) (AddressSpaceManager.new smallPlatform 0)
        [.allocatePageTable, .allocatePageTable] aspace ∧
      aspace.history = [.created 0x2000, .created 0x1000] ∧ aspace.frames = {0x1000, 0x2000} ∧
      Spare smallPlatform (fun frame => aspace.hole_list_.addrInHole frame) aspace.frames 2 := by
  obtain ⟨created, aspace, first, second, history, frames⟩ : ∃ created aspace,
      allocatePageTable (AddressSpaceManager.new smallPlatform 0) = .ok (some 0x1000) created ∧
        allocatePageTable created = .ok (some 0x2000) aspace ∧
        aspace.history = [.created 0x2000, .created 0x1000] ∧
        aspace.frames = {0x1000, 0x2000} := ⟨_, _, rfl, rfl, rfl, rfl⟩
  have setup : Trace (Step smallPlatform) (AddressSpaceManager.new smallPlatform 0)
      [.allocatePageTable, .allocatePageTable] aspace :=
    Trace.cons ⟨trivial, Or.inl ⟨_, first⟩⟩
      (Trace.cons ⟨trivial, Or.inl ⟨_, second⟩⟩ (Trace.nil aspace))
  refine ⟨aspace, setup, history, frames, ?_, {0x3000, 0x4000}, by decide, ?_⟩
  · intro frame isFrame _
    rw [(run_reached smallPlatform_valid setup).holes]
    exact smallPlatform_noHoles frame isFrame
  · rw [frames]
    decide

theorem allocateOneVmPage_full {platform : Platform} {state : AddressSpaceManager}
    {root va flags : Nat} (pool : VortexMemoryAllocator.FramePool platform state.page_allocator_)
    (full : Full platform state.frames) :
    ∃ next, allocateOneVmPage va root flags state =
      .error (.runtimeError "Failed to allocate physical page for VM") next := by
  obtain ⟨result, next, ran, _, _, outcome⟩ := allocateOnePage_run pool
  have nothing : result = none := (outcome.unique (PageOutcome.full full)).1
  refine ⟨next, ?_⟩
  rw [allocateOneVmPage, bind_ok ran, nothing]
  rfl

theorem smallPlatform_filled : ∃ aspace first pa,
    Trace (Step smallPlatform) (AddressSpaceManager.new smallPlatform 0)
        [.allocatePageTable, .allocatePageTable] aspace ∧ aspace.Live 0x1000 ∧
      allocateOneVmPage 0x10000 0x1000 heapFlags aspace = .ok () first ∧
      (¬∃ last, Refused smallPlatform aspace 0x1000 0x10000 last) ∧
      (∃ owner, WellOwned smallPlatform (MayMapItself smallPlatform
        (AddressSpaceManager.new smallPlatform 0).hole_list_) owner first) ∧
      first.history = [.mapped 0x1000 0x10000 pa heapFlags, .created 0x2000, .created 0x1000] ∧
      Full smallPlatform first.frames := by
  obtain ⟨aspace, setup, history, frames, spare⟩ := smallPlatform_twoTables
  have isLive : aspace.Live 0x1000 := by
    rw [Live, history]
    rfl
  obtain ⟨owner, owned⟩ := (run_reached smallPlatform_valid setup).owned
  obtain ⟨first, later, pa, ran, advanced, grown, next, withNode, _⟩ :=
    @allocateOneVmPage_returns _ _ owner aspace 0x1000 0x10000 heapFlags 0 owned isLive (by decide)
      (by decide) (by rw [history]; rfl) spare.forNode
  have firstPage : pa = 0x3000 := by
    apply next.unique
    apply @smallPlatform_next _ 2 (by decide)
    rw [frames]
    decide
  have missing : ¬pteValid (entryAt aspace.view 0x1000 (0x10000 / 4096 / 1024)) = true := by
    intro upper
    have node := (owned.nodes 0x1000 _ isLive (by decide) upper).2
    have used := (owned.used _ _ node).1
    have otherLive : aspace.Live 0x2000 := by
      rw [Live, history]
      rfl
    rw [frames, Finset.mem_insert, Finset.mem_singleton] at used
    cases used with
    | inl same =>
        rw [same, owned.roots 0x1000 isLive] at node
        cases node
    | inr same =>
        rw [same, owned.roots 0x2000 otherLive] at node
        cases node
  rw [WithNode, if_neg missing, firstPage, frames] at withNode
  obtain ⟨node, outcome⟩ := withNode
  rw [frames] at spare
  obtain ⟨⟨_, same, nodeNext, taken⟩, _⟩ := (spare.take 0x3000).request outcome
  cases same
  have nodeIs : node = 0x4000 := nodeNext.unique (smallPlatform_next (by decide : 3 ≤ 3) (by decide))
  have full : Full smallPlatform first.frames := by
    intro frame isFrame
    have start : smallPlatform.ALLOC_BASE_ADDR = 0x1000 := rfl
    have stop : smallPlatform.GLOBAL_MEM_SIZE = 0x5000 := rfl
    obtain ⟨⟨position, place⟩, low, high⟩ := isFrame
    rw [taken, nodeIs]
    have cases : frame = 0x1000 ∨ frame = 0x2000 ∨ frame = 0x3000 ∨ frame = 0x4000 := by omega
    simp only [Finset.mem_insert, Finset.mem_singleton]
    tauto
  exact ⟨aspace, first, pa, setup, isLive, ran,
    allocateOneVmPage_not_refused owned isLive (by decide) (by decide) ran, ⟨later, advanced.owned⟩,
    by rw [grown, history], full⟩

theorem smallPlatform_stopped : ∃ aspace failed pa,
    Trace (Step smallPlatform) (AddressSpaceManager.new smallPlatform 0)
        [.allocatePageTable, .allocatePageTable] aspace ∧ aspace.Live 0x1000 ∧
      HeapManager.allocate 8192 { heap := new 0x1000 0x10000, aspace_ := aspace } =
        .error (.runtimeError "Failed to allocate physical page for VM")
          { heap := new 0x1000 0x10000, aspace_ := failed } ∧
      (¬∃ last, Refused smallPlatform aspace 0x1000 0x10000 last) ∧
      failed.history = [.mapped 0x1000 0x10000 pa heapFlags, .created 0x2000, .created 0x1000] := by
  obtain ⟨aspace, first, pa, setup, isLive, ran, accepted, ⟨later, owned⟩, history, full⟩ :=
    smallPlatform_filled
  have books := @run_books _ 0x1000 _ smallPlatform_valid 0 _ aspace setup isLive 0x10000
    (by decide) (by decide) [] (Trace.nil _)
  have firstLive : first.Live 0x1000 := by
    rw [Live, history]
    rfl
  obtain ⟨failed, stopped⟩ := @allocateOneVmPage_full _ first 0x1000 0x11000 heapFlags owned.pool full
  obtain ⟨_, _, failedHistory, _⟩ := (@allocateOneVmPage_spec _ _ later first 0x1000
    0x11000 owned firstLive (by decide) heapFlags (by decide)).of_error stopped
  have mapped : mapPages (new 0x1000 0x10000).lastVa (pagesNeeded 8192) 0x1000
      { heap := new 0x1000 0x10000, aspace_ := aspace } =
        .error (.runtimeError "Failed to allocate physical page for VM")
          { heap := new 0x1000 0x10000, aspace_ := failed } := by
    have pages : List.range (pagesNeeded 8192) = [0, 1] := by decide
    have firstLifted : onAddressSpace (allocateOneVmPage
        (wrap32 ((new 0x1000 0x10000).lastVa + 0 * PAGE_SIZE)) 0x1000 heapFlags)
        { heap := new 0x1000 0x10000, aspace_ := aspace } =
          .ok () { heap := new 0x1000 0x10000, aspace_ := first } := by
      have address : wrap32 ((new 0x1000 0x10000).lastVa + 0 * PAGE_SIZE) = 0x10000 := by decide
      rw [address]
      exact onAddressSpace_run ran
    have secondLifted : onAddressSpace (allocateOneVmPage
        (wrap32 ((new 0x1000 0x10000).lastVa + 1 * PAGE_SIZE)) 0x1000 heapFlags)
        { heap := new 0x1000 0x10000, aspace_ := first } =
          .error (.runtimeError "Failed to allocate physical page for VM")
            { heap := new 0x1000 0x10000, aspace_ := failed } := by
      have address : wrap32 ((new 0x1000 0x10000).lastVa + 1 * PAGE_SIZE) = 0x11000 := by decide
      rw [address]
      exact onAddressSpace_thrown stopped
    rw [mapPages, pages]
    exact (bind_ok firstLifted).trans (bind_error secondLifted)
  have thrown := @HeapBooks.allocate_stuck _ _ _ 8192 _ _ _ books
    (by change ¬BumpAllocator.Accepts 8192 (new 0x1000 0x10000).vm_allocator_; decide) mapped
  exact ⟨aspace, failed, pa, setup, isLive, thrown, accepted, failedHistory.trans history⟩

/-- The second page of a growth finds no frame, and then the other table is freed. -/
theorem smallPlatform_ranOut : ∃ aspace failed later,
    Trace (Step smallPlatform) (AddressSpaceManager.new smallPlatform 0)
        [.allocatePageTable, .allocatePageTable] aspace ∧ aspace.Live 0x1000 ∧
      HeapManager.allocate 8192 { heap := new 0x1000 0x10000, aspace_ := aspace } =
        .error (.runtimeError "Failed to allocate physical page for VM") failed ∧
      (¬∃ last, Refused smallPlatform aspace 0x1000 0x10000 last) ∧
      Meanwhile smallPlatform failed (.other (.freePageTable 0x2000)) later ∧
      ¬BumpAllocator.Accepts 4096 later.heap.vm_allocator_ ∧
      Supply smallPlatform (fun frame => later.aspace_.hole_list_.addrInHole frame)
        later.aspace_.frames (growthFrames 4096 later) := by
  obtain ⟨aspace, failed, pa, setup, isLive, thrown, accepted, history⟩ := smallPlatform_stopped
  have books := @run_books _ 0x1000 _ smallPlatform_valid 0 _ aspace setup isLive 0x10000
    (by decide) (by decide) [] (Trace.nil _)
  have failedBooks := books.attempt
    (HeapAttempt.thrown (by decide) (MappingFault.ended (Or.inl (Or.inl rfl))) thrown)
  have otherLive : failed.Live 0x2000 := by
    rw [Live, history]
    rfl
  obtain ⟨after, released, freed, effect⟩ := freePageTable_released failedBooks.reached otherLive
  have step : Step smallPlatform failed (.freePageTable 0x2000) after :=
    ⟨otherLive, Or.inl ⟨_, map_ok _ freed⟩⟩
  have attempt := @HeapAttempt.other smallPlatform
    { heap := new 0x1000 0x10000, aspace_ := failed } _ _ step
    (by change Operation.freePageTable 0x2000 ≠ .freePageTable 0x1000; decide)
  have afterBooks := failedBooks.attempt attempt
  obtain ⟨failedOwner, failedOwned⟩ := failedBooks.reached.owned
  obtain ⟨afterOwner, afterOwned⟩ := afterBooks.reached.owned
  have afterHistory : after.history = .freed 0x2000 :: failed.history := by
    obtain ⟨_, again, _, _, history, _⟩ := freePageTable_spec failedOwned
      (fun _ itself => by rw [failedBooks.reached.holes]; exact itself) otherLive
    rw [freed] at again
    cases again
    exact history
  have linked : pteValid (entryAt after.view 0x1000 0) = true := by
    apply @WellOwned.linked _ _ _ _ 0x1000 afterOwned afterBooks.isLive 0x10 _ (by decide)
    rw [afterHistory, history]
    rfl
  have needed : growthFrames 4096 { heap := new 0x1000 0x10000, aspace_ := after } = 1 := by
    have pages : growthPages 4096 (new 0x1000 0x10000) = {0x10} := by decide
    have count : pagesNeeded 4096 = 1 := by decide
    have none : missingNodes after.view 0x1000 {0x10} = ∅ := by
      rw [missingNodes, Finset.image_singleton, Finset.filter_singleton]
      exact if_neg (by rw [linked]; decide)
    change pagesNeeded 4096 + (missingNodes after.view 0x1000
      (growthPages 4096 (new 0x1000 0x10000))).card = 1
    rw [pages, none, count]
    rfl
  have isFrame : smallPlatform.IsFrame 0x2000 := by decide
  have outside : ∀ state : AddressSpaceManager,
      state.hole_list_ = (AddressSpaceManager.new smallPlatform 0).hole_list_ →
        state.hole_list_.addrInHole 0x2000 = false := by
    intro state same
    rw [same]
    exact smallPlatform_noHoles 0x2000 isFrame
  have free : 0x2000 ∉ after.frames := by
    rw [effect.frames, Finset.mem_sdiff]
    intro holds
    apply holds.2
    exact (effect.owned 0x2000).mpr ⟨holds.1, outside failed failedBooks.reached.holes, _,
      HasRole.root otherLive, rfl⟩
  refine ⟨aspace, _, _, setup, isLive, thrown, accepted, ⟨attempt, fun size same => by cases same⟩,
    ?_, {0x2000}, by rw [needed]; rfl, ?_⟩
  · change ¬BumpAllocator.Accepts 4096 (new 0x1000 0x10000).vm_allocator_
    decide
  · intro frame member
    rw [Finset.mem_singleton.mp member]
    exact ⟨isFrame, free, outside after afterBooks.reached.holes⟩

/-- After a failed growth that has mapped a page, no later growth succeeds. -/
theorem growth_not_recovered : ∃ aspace failed later,
    Trace (Step smallPlatform) (AddressSpaceManager.new smallPlatform 0)
        [.allocatePageTable, .allocatePageTable] aspace ∧ aspace.Live 0x1000 ∧
      HeapManager.allocate 8192 { heap := new 0x1000 0x10000, aspace_ := aspace } =
        .error (.runtimeError "Failed to allocate physical page for VM") failed ∧
      Meanwhile smallPlatform failed (.other (.freePageTable 0x2000)) later ∧
      ¬BumpAllocator.Accepts 4096 later.heap.vm_allocator_ ∧
      Supply smallPlatform (fun frame => later.aspace_.hole_list_.addrInHole frame)
        later.aspace_.frames (growthFrames 4096 later) ∧
      ¬∃ va final, HeapManager.allocate 4096 later = .ok (some va) final ∧
        ∀ offset < 4096, final.aspace_.translated 0x1000 (wrap32 (va + offset)) ≠ none := by
  obtain ⟨aspace, failed, later, setup, isLive, thrown, accepted, waited, rejects, supply⟩ :=
    smallPlatform_ranOut
  have books := @run_books _ 0x1000 _ smallPlatform_valid 0 _ aspace setup isLive 0x10000
    (by decide) (by decide) [] (Trace.nil _)
  have ended := MappingFault.ended (Or.inl (Or.inl rfl))
  have failedBooks := books.attempt (HeapAttempt.thrown (by decide) ended thrown)
  have start : Waited 0x1000 failed failed :=
    ⟨rfl, rfl, [], rfl, List.not_mem_nil, List.not_mem_nil⟩
  obtain ⟨since, laterBooks⟩ := start.step failedBooks waited
  refine ⟨aspace, failed, later, setup, isLive, thrown, waited, rejects, supply, ?_⟩
  intro succeeds
  obtain ⟨va, final, ran, covered⟩ := succeeds
  have recoverable := recoverable_of_grown books laterBooks (by decide) ended thrown since
    (by decide) (by decide) rejects ran covered
  exact accepted recoverable.refused

theorem growth_recovers_iff_ranOut : ∃ aspace failed later,
    Trace (Step smallPlatform) (AddressSpaceManager.new smallPlatform 0)
        [.allocatePageTable, .allocatePageTable] aspace ∧
      HeapManager.allocate 8192 { heap := new 0x1000 0x10000, aspace_ := aspace } =
        .error (.runtimeError "Failed to allocate physical page for VM") failed ∧
      Meanwhile smallPlatform failed (.other (.freePageTable 0x2000)) later ∧
      ((∃ va final, HeapManager.allocate 4096 later = .ok (some va) final ∧
          ∀ offset < 4096, final.aspace_.translated 0x1000 (wrap32 (va + offset)) ≠ none) ↔
        Recoverable smallPlatform 0x1000 { heap := new 0x1000 0x10000, aspace_ := aspace } failed
          later 4096) := by
  obtain ⟨aspace, failed, later, setup, isLive, thrown, _, waited, rejects, supply⟩ :=
    smallPlatform_ranOut
  exact ⟨aspace, failed, later, setup, thrown, waited,
    growth_recovers_iff smallPlatform_valid 0 setup isLive (by decide) (by decide) (Trace.nil _)
      (by decide) thrown (Or.inl rfl) (Trace.cons waited (Trace.nil later)) (by decide)
      (by decide) rejects supply⟩

end Small

end Espiral.HeapManager
