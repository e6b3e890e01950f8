import Espiral.Spinner.Buffers
import Espiral.Spinner.Copies

/-!
# Isolation of buffers

Every byte of a buffer is in a frame that its page alone owns, so no two bytes
of any buffers have the same address. An upload and a download through
different buffers therefore have nothing to do with each other.
-/

namespace Espiral.Spinner

set_option autoImplicit false

open AddressSpaceManager ByteMemory Contracts MachineWords Traces

section Bytes

variable {platform : Platform} {holes : HoleList} {run : BufferRun} {buffer first second : Buffer}

theorem BufferReached.owns (kept : BufferReached platform holes run)
    (member : buffer ∈ run.buffers) {owner : Nat → Option Role}
    (owned : WellOwned platform (fun _ => False) owner run.spinner.aspace_) :
    ∃ kcb heap, HasHeap run.spinner.kcbs_ buffer.kid kcb heap ∧
      ∀ addr, buffer.va ≤ addr → addr < buffer.va + buffer.size →
        ∃ pa, run.spinner.aspace_.translated kcb.top_pgtbl_pa addr = some pa ∧
          pa % 4096 = addr % 4096 ∧
          owner (frameOf pa) = some (.leaf kcb.top_pgtbl_pa (addr / 4096)) := by
  obtain ⟨_, narrow, kcb, heap, found, low, high⟩ := kept.placed buffer member
  refine ⟨kcb, heap, found, ?_⟩
  intro addr above below
  obtain ⟨rootIs, isLive⟩ := kept.kernels.rooted _ _ _ found
  obtain ⟨sound, mapped⟩ := kept.heaps _ _ _ found
  have capacity := sound.high
  have baseAligned := sound.baseAligned
  have capacityAligned := sound.capacityAligned
  have inside : addr / 4096 - heap.vm_allocator_.baseAddress_ / 4096 < heap.pageCount := by
    rw [HeapManager.pageCount]
    omega
  obtain ⟨pa, mapping⟩ := mapped _ inside
  have page : HeapManager.heapPage heap
      (addr / 4096 - heap.vm_allocator_.baseAddress_ / 4096) = addr / 4096 := by
    rw [HeapManager.heapPage]
    omega
  rw [rootIs, page] at mapping
  have bound : addr < 2 ^ 32 := by omega
  have translation := owned.translated_mapping isLive bound
  rw [mapping, Option.map_some] at translation
  obtain ⟨offset, place⟩ := owned.translated_owner isLive bound translation
  cases place with
  | inl mine => exact ⟨_, translation, offset, mine⟩
  | inr itself => exact itself.1.elim

/-- Bytes of buffers that have one address are one byte of one buffer. -/
theorem BufferReached.bytes_apart (kept : BufferReached platform holes run)
    (firstMember : first ∈ run.buffers) (secondMember : second ∈ run.buffers)
    {firstKcb secondKcb : KernelControlBlock} {firstHeap secondHeap : HeapManager}
    (firstFound : HasHeap run.spinner.kcbs_ first.kid firstKcb firstHeap)
    (secondFound : HasHeap run.spinner.kcbs_ second.kid secondKcb secondHeap)
    {firstAddr secondAddr : Nat} (firstLow : first.va ≤ firstAddr)
    (firstHigh : firstAddr < first.va + first.size) (secondLow : second.va ≤ secondAddr)
    (secondHigh : secondAddr < second.va + second.size)
    (same : run.spinner.aspace_.translated firstKcb.top_pgtbl_pa firstAddr =
      run.spinner.aspace_.translated secondKcb.top_pgtbl_pa secondAddr) :
    first = second ∧ firstAddr = secondAddr := by
  obtain ⟨owner, owned⟩ := kept.kernels.reached.owned
  obtain ⟨_, _, firstAgain, firstOwns⟩ := kept.owns firstMember owned
  obtain ⟨_, _, secondAgain, secondOwns⟩ := kept.owns secondMember owned
  rw [← (firstFound.unique firstAgain).1] at firstOwns
  rw [← (secondFound.unique secondAgain).1] at secondOwns
  obtain ⟨pa, firstIs, firstOffset, firstMine⟩ := firstOwns firstAddr firstLow firstHigh
  obtain ⟨_, secondIs, secondOffset, secondMine⟩ := secondOwns secondAddr secondLow secondHigh
  rw [firstIs, secondIs] at same
  cases same
  rw [firstMine, Option.some.injEq, Role.leaf.injEq] at secondMine
  have equal : firstAddr = secondAddr := by omega
  have sameKernel := kept.kernels.apart _ _ _ _ _ _ firstFound secondFound secondMine.1
  refine ⟨?_, equal⟩
  by_contra different
  have ordered : run.buffers.Pairwise fun left right => left.kid = right.kid →
      left.va + left.size ≤ right.va ∨ right.va + right.size ≤ left.va :=
    kept.apart.imp fun order sameKid => Or.inr (order sameKid)
  have symmetric : Std.Symm fun left right : Buffer => left.kid = right.kid →
      left.va + left.size ≤ right.va ∨ right.va + right.size ≤ left.va := by
    constructor
    intro left right order sameKid
    exact (order sameKid.symm).symm
  cases ordered.forall firstMember secondMember different sameKernel with
  | inl before => omega
  | inr after => omega

theorem BufferReached.mappedApart (kept : BufferReached platform holes run)
    (member : buffer ∈ run.buffers) {kcb : KernelControlBlock} {heap : HeapManager}
    (found : HasHeap run.spinner.kcbs_ buffer.kid kcb heap) :
    MappedApart run.spinner.aspace_ kcb.top_pgtbl_pa buffer.va buffer.size := by
  obtain ⟨owner, owned⟩ := kept.kernels.reached.owned
  obtain ⟨_, _, again, owns⟩ := kept.owns member owned
  rw [← (found.unique again).1] at owns
  constructor
  · intro addr low high
    obtain ⟨pa, translation, _⟩ := owns addr low high
    rw [translation]
    rfl
  · intro one other oneLow oneHigh otherLow otherHigh same
    exact (kept.bytes_apart member member found found oneLow oneHigh otherLow otherHigh same).2

end Bytes

section Runs

variable {platform : Platform} {holes : HoleList} {caps : Caps → Option Nat}

theorem BufferReached.step {run next : BufferRun} {call : BufferCall}
    (kept : BufferReached platform holes run) (step : BufferStep caps run call next) :
    BufferReached platform holes next := by
  cases step with
  | allocateKernel ran => exact kept.allocateKernel ran
  | allocateHeap positive bounded ran => exact kept.allocateHeap positive bounded ran
  | uploadArgs ran => exact kept.uploadArgs ran
  | @upload kid va content next ran =>
      obtain ⟨kcb, between, found, _⟩ := bind_returns ran
      have spec := @upload_spec _ _ _ _ (flatAccelerator_backed caps) run.spinner kid va kcb
        (kcbAt_returns found).1 content
      exact kept.transferred (spec.of_ok ran).1
  | @download kid va dest result next ran =>
      obtain ⟨kcb, between, found, _⟩ := bind_returns ran
      have spec := @download_spec _ _ _ _ (flatAccelerator_backed caps) run.spinner kid va kcb
        (kcbAt_returns found).1 dest
      exact kept.transferred (spec.of_ok ran).1
  | freeKernel ran => exact kept.freeKernel ran

theorem new_bufferReached (valid : platform.Valid) (accelerator : HostAccelerator FlatDevice)
    (device : FlatDevice) :
    ∃ holes, BufferReached platform holes
      { spinner := Spinner.new platform accelerator device, buffers := [] } := by
  have reached := withHoles_reached valid (fun _ => False)
    (AddressSpaceManager.new platform
      ((accelerator.getCaps .localMemSize).getD 0)).hole_list_
  rw [← new_withHoles] at reached
  refine ⟨_, Kernels.nothing reached, ?_, Nat.zero_le _, ?_, ?_, List.Pairwise.nil⟩
  · intro kid kcb stored
    cases stored
  · intro kid kcb heap found
    cases found.stored
  · intro buffer member
    cases member

/-- In every state of every run, for any two different buffers: an upload of at most the
size of the first one returns, downloads of the second one return the same bytes before
and after it, and a download of the first one returns what was uploaded. -/
theorem buffers_isolated (valid : platform.Valid) (device : FlatDevice) {calls : List BufferCall}
    {last : BufferRun}
    (run : Trace (BufferStep caps)
      { spinner := Spinner.new platform (flatAccelerator caps) device, buffers := [] } calls last)
    {first second : Buffer} (firstLive : first ∈ last.buffers) (secondLive : second ∈ last.buffers)
    (different : first ≠ second) {content : List UInt8} (fits : content.length ≤ first.size) :
    ∃ after, upload (flatAccelerator caps) first.kid first.va content last.spinner = .ok () after ∧
      (∃ bytes, ∀ dest : List UInt8, dest.length = second.size →
        (∃ next, download (flatAccelerator caps) second.kid second.va dest last.spinner =
            .ok bytes next) ∧
          ∃ next, download (flatAccelerator caps) second.kid second.va dest after =
            .ok bytes next) ∧
      ∀ dest : List UInt8, dest.length = content.length →
        ∃ next, download (flatAccelerator caps) first.kid first.va dest after =
          .ok content next := by
  obtain ⟨holes, start⟩ := new_bufferReached valid (flatAccelerator caps) device
  have kept := run.invariant (BufferReached platform holes)
    (fun _ _ _ kept step => kept.step step) start
  obtain ⟨_, firstNarrow, firstKcb, firstHeap, firstFound, _⟩ := kept.placed first firstLive
  obtain ⟨_, secondNarrow, secondKcb, secondHeap, secondFound, _⟩ := kept.placed second secondLive
  have firstRange := (kept.mappedApart firstLive firstFound).part (Nat.le_refl _)
    (Nat.add_le_add_left fits first.va)
  have secondRange := kept.mappedApart secondLive secondFound
  obtain ⟨after, ran, transferred, done⟩ :=
    upload_copies caps firstFound.stored (by omega) firstRange
  have sameBytes : bytesOf last.spinner.aspace_ secondKcb.top_pgtbl_pa second.va second.size
      after.device.memory =
      bytesOf last.spinner.aspace_ secondKcb.top_pgtbl_pa second.va second.size
        last.spinner.device.memory := by
    unfold bytesOf
    apply List.map_congr_left
    intro index member
    have inside := List.mem_range.mp member
    obtain ⟨pa, found⟩ := Option.isSome_iff_exists.mp
      (secondRange.mapped (second.va + index) (by omega) (by omega))
    rw [found, Option.getD_some]
    apply done.2
    intro other otherInside otherFound
    exact different (kept.bytes_apart firstLive secondLive firstFound secondFound
      (by omega : first.va ≤ first.va + other) (by omega)
      (by omega : second.va ≤ second.va + index) (by omega) (otherFound.trans found.symm)).1
  have firstStored : after.kcbs_[first.kid]? = some (some firstKcb) := by
    rw [transferred.kcbs]
    exact firstFound.stored
  have secondStored : after.kcbs_[second.kid]? = some (some secondKcb) := by
    rw [transferred.kcbs]
    exact secondFound.stored
  refine ⟨after, ran, ⟨bytesOf last.spinner.aspace_ secondKcb.top_pgtbl_pa second.va second.size
    last.spinner.device.memory, ?_⟩, ?_⟩
  · intro dest sizeIs
    obtain ⟨next, before, _⟩ :=
      download_copies caps secondFound.stored (by omega) secondRange.mapped sizeIs
    obtain ⟨later, ranAfter, _⟩ := download_copies caps secondStored (by omega)
      (secondRange.kept transferred.aspace).mapped sizeIs
    rw [bytesOf_kept transferred.aspace, sameBytes] at ranAfter
    exact ⟨⟨next, before⟩, later, ranAfter⟩
  · intro dest sizeIs
    obtain ⟨next, ranDownload, _⟩ := download_copies caps firstStored (by omega)
      (firstRange.kept transferred.aspace).mapped sizeIs
    rw [bytesOf_kept transferred.aspace, done.bytesOf firstRange] at ranDownload
    exact ⟨next, ranDownload⟩

end Runs

section Small

def smallDevice : FlatDevice := { memory := fun _ => 0, launches := [] }

theorem smallPlatform_bufferCalls : ∃ (begun state full : Spinner FlatDevice)
    (kcb block : KernelControlBlock) (heap grown : HeapManager),
    Spinner.allocateKernel (fun _ => some emptyImage) "kernel"
        (Spinner.new smallPlatform (flatAccelerator fun _ => none) smallDevice) = .ok 0 begun ∧
      HasHeap begun.kcbs_ 0 kcb heap ∧ heap.vm_allocator_.nextAddress_ = 0x10000 ∧
      Spinner.allocateHeap 0 16 begun = .ok 0x10000 state ∧
      HasHeap state.kcbs_ 0 block grown ∧ grown.vm_allocator_.nextAddress_ = 0x10010 ∧
      Spinner.allocateHeap 0 16 state = .ok 0x10010 full := by
  obtain ⟨created, aspace, ran, _, allocated, _⟩ :=
    @HeapManager.smallPlatform_heap 0x10000 (by decide) (by decide)
  let kcb := newKcb 0x1000 "kernel" 16 0x10000 0x10000
  let grown : HeapManager := { HeapManager.new 0x1000 0x10000 with
    vm_allocator_ := HeapManager.grownBy 16 (HeapManager.new 0x1000 0x10000).vm_allocator_ }
  have kernel := smallPlatform_kernel (flatAccelerator fun _ => none) rfl smallDevice ran
  have first := @allocateHeap_run _
    { kcbs_ := [some kcb], aspace_ := created, device := smallDevice } 0 16 0x10000 kcb
    (HeapManager.new 0x1000 0x10000) { heap := grown, aspace_ := aspace } rfl rfl allocated
  have sound : grown.vm_allocator_.Sound := by
    refine ⟨rfl, ?_, ?_, ?_, ?_, ?_, ?_⟩
    · decide
    · decide
    · decide
    · decide
    · decide
    · decide
  have fits := @HeapManager.allocate_fits { heap := grown, aspace_ := aspace } 16 sound (by decide)
    (by change 0x10000 + 16 + 16 ≤ 0x10000 + 0x1000; decide)
  have second := @allocateHeap_run _
    { kcbs_ := [some { kcb with heap := some grown }], aspace_ := aspace, device := smallDevice }
    0 16 0x10010 { kcb with heap := some grown } grown _ rfl rfl fits
  have fresh : HasHeap [some kcb] 0 kcb (HeapManager.new 0x1000 0x10000) := ⟨rfl, rfl⟩
  have used : HasHeap [some { kcb with heap := some grown }] 0 { kcb with heap := some grown }
    grown := ⟨rfl, rfl⟩
  exact ⟨_, _, _, _, _, _, _, kernel, fresh, rfl, first, used, rfl, second⟩

theorem smallPlatform_buffers : ∃ last : BufferRun,
    last.buffers = [⟨0, 0x10010, 16⟩, ⟨0, 0x10000, 16⟩] ∧
      Trace (BufferStep fun _ => none)
        { spinner := Spinner.new smallPlatform (flatAccelerator fun _ => none) smallDevice
          buffers := [] }
        [.allocateKernel (fun _ => some emptyImage) "kernel", .allocateHeap 0 16,
          .allocateHeap 0 16] last := by
  obtain ⟨begun, state, full, kcb, block, heap, grown, kernel, fresh, start, first, used, behind,
    second⟩ := smallPlatform_bufferCalls
  refine ⟨_, rfl, Trace.cons (BufferStep.allocateKernel kernel)
    (Trace.cons (BufferStep.allocateHeap (by decide) ?_ first)
      (Trace.cons (BufferStep.allocateHeap (by decide) ?_ second) (Trace.nil _)))⟩
  · intro _ _ found
    rw [(found.unique fresh).2, start]
    decide
  · intro _ _ found
    rw [(found.unique used).2, behind]
    decide

theorem buffers_isolated_two : ∃ last after : Spinner FlatDevice,
    upload (flatAccelerator fun _ => none) 0 0x10000 [1, 2, 3] last = .ok () after ∧
      (∃ bytes, ∀ dest : List UInt8, dest.length = 16 →
        (∃ next, download (flatAccelerator fun _ => none) 0 0x10010 dest last = .ok bytes next) ∧
          ∃ next, download (flatAccelerator fun _ => none) 0 0x10010 dest after =
            .ok bytes next) ∧
      ∃ next, download (flatAccelerator fun _ => none) 0 0x10000 [0, 0, 0] after =
        .ok [1, 2, 3] next := by
  obtain ⟨last, buffers, run⟩ := smallPlatform_buffers
  have firstLive : ⟨0, 0x10000, 16⟩ ∈ last.buffers := by
    rw [buffers]
    decide
  have secondLive : ⟨0, 0x10010, 16⟩ ∈ last.buffers := by
    rw [buffers]
    decide
  obtain ⟨after, ran, unseen, seen⟩ := @buffers_isolated smallPlatform (fun _ => none)
    smallPlatform_valid smallDevice _ last run ⟨0, 0x10000, 16⟩ ⟨0, 0x10010, 16⟩ firstLive secondLive
    (by decide) [1, 2, 3] (by decide)
  exact ⟨last.spinner, after, ran, unseen, seen [0, 0, 0] rfl⟩

end Small

end Espiral.Spinner
