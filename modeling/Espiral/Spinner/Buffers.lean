import Espiral.Library.Traces
import Espiral.Spinner.Kernels
import Espiral.Spinner.Transfers

/-!
# Buffers of different kernels

A heap hands out consecutive ranges, its pages are mapped to frames of their
own, and a copy loop writes to the frames of its range only. Taken together
over whole runs: what is uploaded into one buffer is found there and cannot be
seen through any other.
-/

namespace Espiral.Spinner

set_option autoImplicit false

open AddressSpaceManager ByteMemory Contracts MachineWords Traces

structure Buffer where
  kid : Nat
  va : Nat
  size : Nat
  deriving DecidableEq, Repr

structure BufferRun where
  spinner : Spinner FlatDevice
  buffers : List Buffer

inductive BufferCall where
  | allocateKernel (files : Files) (vxbin_path : String)
  | allocateHeap (kid size : Nat)
  | uploadArgs (kid : Nat) (args : List UInt8)
  | upload (kid va : Nat) (content : List UInt8)
  | download (kid va : Nat) (dest : List UInt8)
  | freeKernel (kid : Nat)

/-- A call that returns; buffers have at least one byte and end below the last
32-bit address. -/
inductive BufferStep (caps : Caps → Option Nat) : BufferRun → BufferCall → BufferRun → Prop
  | allocateKernel {run : BufferRun} {files : Files} {vxbin_path : String} {kid : Nat}
      {next : Spinner FlatDevice}
      (ran : Spinner.allocateKernel files vxbin_path run.spinner = .ok kid next) :
      BufferStep caps run (.allocateKernel files vxbin_path) { run with spinner := next }
  | allocateHeap {run : BufferRun} {kid size va : Nat} {next : Spinner FlatDevice}
      (positive : 0 < size)
      (bounded : ∀ kcb heap, HasHeap run.spinner.kcbs_ kid kcb heap →
        heap.vm_allocator_.nextAddress_ + size < 2 ^ 32)
      (ran : Spinner.allocateHeap kid size run.spinner = .ok va next) :
      BufferStep caps run (.allocateHeap kid size)
        { spinner := next, buffers := ⟨kid, va, size⟩ :: run.buffers }
  | uploadArgs {run : BufferRun} {kid : Nat} {args : List UInt8} {next : Spinner FlatDevice}
      (ran : Spinner.uploadArgs (flatAccelerator caps) kid args run.spinner = .ok () next) :
      BufferStep caps run (.uploadArgs kid args) { run with spinner := next }
  | upload {run : BufferRun} {kid va : Nat} {content : List UInt8} {next : Spinner FlatDevice}
      (ran : Spinner.upload (flatAccelerator caps) kid va content run.spinner = .ok () next) :
      BufferStep caps run (.upload kid va content) { run with spinner := next }
  | download {run : BufferRun} {kid va : Nat} {dest result : List UInt8}
      {next : Spinner FlatDevice}
      (ran : Spinner.download (flatAccelerator caps) kid va dest run.spinner = .ok result next) :
      BufferStep caps run (.download kid va dest) { run with spinner := next }
  | freeKernel {run : BufferRun} {kid : Nat} {next : Spinner FlatDevice}
      (ran : Spinner.freeKernel kid run.spinner = .ok () next) :
      BufferStep caps run (.freeKernel kid)
        { spinner := next, buffers := run.buffers.filter fun buffer => buffer.kid ≠ kid }

def HeapKept (history : List MappingEvent) (heap : HeapManager) : Prop :=
  heap.vm_allocator_.Sound ∧ HeapManager.Mapped heap history

def Placed (kcbs : Kcbs) (buffer : Buffer) : Prop :=
  0 < buffer.size ∧ buffer.va + buffer.size < 2 ^ 32 ∧
    ∃ kcb heap, HasHeap kcbs buffer.kid kcb heap ∧
      heap.vm_allocator_.baseAddress_ ≤ buffer.va ∧
      buffer.va + buffer.size ≤ heap.vm_allocator_.nextAddress_

structure BufferReached (platform : Platform) (holes : HoleList) (run : BufferRun) : Prop where
  kernels : Kernels platform (fun _ => False) holes run.spinner.kcbs_ run.spinner.aspace_
  finished : ∀ (kid : Nat) (kcb : KernelControlBlock), run.spinner.kcbs_[kid]? = some (some kcb) →
    kcb.heap.isSome
  few : run.spinner.kcbs_.length ≤ 2 ^ 20
  heaps : ∀ kid kcb heap, HasHeap run.spinner.kcbs_ kid kcb heap →
    HeapKept run.spinner.aspace_.history heap
  placed : ∀ buffer ∈ run.buffers, Placed run.spinner.kcbs_ buffer
  apart : run.buffers.Pairwise fun later earlier =>
    later.kid = earlier.kid → earlier.va + earlier.size ≤ later.va

section Steps

variable {platform : Platform} {holes : HoleList} {run : BufferRun} {kid : Nat}
  {kcb : KernelControlBlock} {heap : HeapManager}

theorem HeapKept.append {newer earlier : List MappingEvent} (kept : HeapKept earlier heap)
    (consistent : Consistent (newer ++ earlier))
    (notCreated : .created heap.top_pgtbl_pa_ ∉ newer)
    (notFreed : .freed heap.top_pgtbl_pa_ ∉ newer) : HeapKept (newer ++ earlier) heap :=
  ⟨kept.1, kept.2.append consistent notCreated notFreed⟩

theorem HeapKept.cons {event : MappingEvent} {earlier : List MappingEvent}
    (kept : HeapKept earlier heap) (consistent : Consistent (event :: earlier))
    (notCreated : event ≠ .created heap.top_pgtbl_pa_)
    (notFreed : event ≠ .freed heap.top_pgtbl_pa_) : HeapKept (event :: earlier) heap := by
  apply @HeapKept.append heap [event] earlier kept consistent
  · rw [List.mem_singleton]
    exact notCreated.symm
  · rw [List.mem_singleton]
    exact notFreed.symm

theorem BufferReached.transferred (kept : BufferReached platform holes run)
    {next : Spinner FlatDevice} (transferred : Transferred run.spinner next) :
    BufferReached platform holes { run with spinner := next } := by
  have sameView := transferred.aspace.sameView
  have kernels := kept.kernels.read sameView
  constructor
  · change Kernels _ _ _ next.kcbs_ _
    rw [transferred.kcbs]
    exact kernels
  · change ∀ (kid : Nat) (kcb : KernelControlBlock), next.kcbs_[kid]? = _ → _
    rw [transferred.kcbs]
    exact kept.finished
  · change next.kcbs_.length ≤ _
    rw [transferred.kcbs]
    exact kept.few
  · intro other otherKcb otherHeap found
    change HasHeap next.kcbs_ _ _ _ at found
    rw [transferred.kcbs] at found
    change HeapKept next.aspace_.history _
    rw [transferred.aspace.history]
    exact kept.heaps other otherKcb otherHeap found
  · intro buffer member
    change Placed next.kcbs_ _
    rw [transferred.kcbs]
    exact kept.placed buffer member
  · exact kept.apart

/-- The heap of one kernel has handed out a range; the other heaps are as before. -/
theorem BufferReached.grown (kept : BufferReached platform holes run)
    (found : HasHeap run.spinner.kcbs_ kid kcb heap) {size : Nat} {context : HeapContext}
    (allocated : HeapManager.Allocated platform (fun _ => False) holes size
      { heap := heap, aspace_ := run.spinner.aspace_ } context)
    {grown : KernelControlBlock} (rootIs : grown.top_pgtbl_pa = kcb.top_pgtbl_pa)
    (has : grown.heap = some context.heap) :
    BufferReached platform holes
      { run with spinner := { run.spinner with
          kcbs_ := run.spinner.kcbs_.set kid (some grown)
          aspace_ := context.aspace_ } } := by
  obtain ⟨newer, history, only, _⟩ := allocated.events
  have root := (kept.kernels.rooted _ _ _ found).1
  have neither := untouched_of_mapped only.events
  have lives : ∀ table, run.spinner.aspace_.Live table → context.aspace_.Live table := by
    intro table isLive
    change live context.aspace_.history table = true
    rw [history, live_append_of_onlyMaps only]
    exact isLive
  have consistent := allocated.reached.consistent
  rw [history] at consistent
  constructor
  · apply (kept.kernels.kept allocated.reached lives).store found rootIs
    intro now hasNow
    rw [has, Option.some.injEq] at hasNow
    rw [← hasNow, allocated.root]
    exact root
  · intro other otherKcb stored
    change (run.spinner.kcbs_.set kid (some grown))[other]? = _ at stored
    by_cases here : kid = other
    · rw [← here, List.getElem?_set_self (List.getElem?_eq_some_iff.mp found.stored).1] at stored
      cases stored
      rw [has]
      rfl
    · rw [List.getElem?_set_ne here] at stored
      exact kept.finished other otherKcb stored
  · change (run.spinner.kcbs_.set kid (some grown)).length ≤ _
    rw [List.length_set]
    exact kept.few
  · intro other otherKcb otherHeap now
    change HeapKept context.aspace_.history otherHeap
    cases now.of_set with
    | inl here =>
        have same := now.has
        rw [here.2, has, Option.some.injEq] at same
        rw [← same]
        exact ⟨allocated.sound, allocated.mapped⟩
    | inr away =>
        rw [history]
        exact (kept.heaps _ _ _ away.2).append consistent (neither _).1 (neither _).2
  · intro buffer member
    obtain ⟨positive, narrow, bufferKcb, bufferHeap, bufferFound, low, high⟩ :=
      kept.placed buffer member
    by_cases here : buffer.kid = kid
    · rw [here] at bufferFound
      obtain ⟨_, sameHeap⟩ := bufferFound.unique found
      rw [sameHeap] at low high
      refine ⟨positive, narrow, grown, context.heap, ?_, ?_, ?_⟩
      · rw [here]
        exact found.set_self has
      · rw [allocated.base]
        exact low
      · rw [allocated.advanced]
        exact Nat.le_add_right_of_le high
    · exact ⟨positive, narrow, bufferKcb, bufferHeap, bufferFound.set_ne here, low, high⟩
  · exact kept.apart

theorem BufferReached.heap_allocated (kept : BufferReached platform holes run)
    (found : HasHeap run.spinner.kcbs_ kid kcb heap) {size va : Nat} (positive : 0 < size)
    (small : size < 2 ^ 63) {context : HeapContext}
    (ran : HeapManager.allocate size { heap := heap, aspace_ := run.spinner.aspace_ } =
      .ok (some va) context) :
    va = wrap32 heap.vm_allocator_.nextAddress_ ∧
      HeapManager.Allocated platform (fun _ => False) holes size
        { heap := heap, aspace_ := run.spinner.aspace_ } context := by
  obtain ⟨rootIs, isLive⟩ := kept.kernels.rooted _ _ _ found
  obtain ⟨sound, mapped⟩ := kept.heaps _ _ _ found
  have spec := @HeapManager.allocate_spec platform (fun _ => False) holes
    { heap := heap, aspace_ := run.spinner.aspace_ } size kept.kernels.reached
    (by rw [rootIs]; exact isLive) sound mapped positive small
  obtain ⟨same, allocated⟩ := spec.of_ok ran
  exact ⟨Option.some.inj same, allocated⟩

theorem BufferReached.allocateHeap (kept : BufferReached platform holes run) {size va : Nat}
    {next : Spinner FlatDevice} (positive : 0 < size)
    (bounded : ∀ kcb heap, HasHeap run.spinner.kcbs_ kid kcb heap →
      heap.vm_allocator_.nextAddress_ + size < 2 ^ 32)
    (ran : Spinner.allocateHeap kid size run.spinner = .ok va next) :
    BufferReached platform holes { spinner := next, buffers := ⟨kid, va, size⟩ :: run.buffers } := by
  obtain ⟨kcb, heap, context, stored, has, done, nextIs⟩ := allocateHeap_returns ran
  have found : HasHeap run.spinner.kcbs_ kid kcb heap := ⟨stored, has⟩
  have narrow := bounded kcb heap found
  obtain ⟨vaIs, allocated⟩ := kept.heap_allocated found positive (by omega) done
  rw [wrap32_of_lt (by omega)] at vaIs
  have low := (kept.heaps _ _ _ found).1.low
  have grown := @BufferReached.grown platform holes run kid kcb heap kept found size context
    allocated { kcb with heap := some context.heap } rfl rfl
  rw [nextIs]
  refine ⟨grown.kernels, grown.finished, grown.few, grown.heaps, ?_, ?_⟩
  · intro buffer member
    cases List.mem_cons.mp member with
    | inl here =>
        rw [here]
        refine ⟨positive, by rw [vaIs]; exact narrow, { kcb with heap := some context.heap },
          context.heap, found.set_self rfl, ?_, ?_⟩
        · rw [allocated.base, vaIs]
          exact low
        · rw [allocated.advanced, vaIs]
    | inr before => exact grown.placed buffer before
  · rw [List.pairwise_cons]
    refine ⟨?_, kept.apart⟩
    intro earlier member same
    obtain ⟨_, _, earlierKcb, earlierHeap, earlierFound, _, high⟩ := kept.placed earlier member
    change kid = earlier.kid at same
    rw [← same] at earlierFound
    obtain ⟨_, sameHeap⟩ := earlierFound.unique found
    rw [sameHeap] at high
    change earlier.va + earlier.size ≤ va
    rw [vaIs]
    exact high

theorem allocate_keeps_live {identity : Nat → Prop} {size va root : Nat} {aspace : AddressSpaceManager}
    {context : HeapContext} (reached : Reached platform identity holes aspace)
    (isLive : aspace.Live root) (rootIs : heap.top_pgtbl_pa_ = root)
    (ran : HeapManager.allocate size { heap := heap, aspace_ := aspace } = .ok (some va) context) :
    Reached platform identity holes context.aspace_ ∧ context.aspace_.Live root ∧ va < 2 ^ 32 := by
  have keeps : ∀ (pageVa : Nat) (state : AddressSpaceManager), pageVa < 2 ^ 32 →
      (Reached platform identity holes state ∧ state.Live root) →
      Ensures (allocateOneVmPage pageVa root HeapManager.heapFlags) state
        (fun _ after => Reached platform identity holes after ∧ after.Live root)
        (fun _ after => Reached platform identity holes after ∧ after.Live root) := by
    intro pageVa state bound now
    obtain ⟨nowReached, nowLive⟩ := now
    obtain ⟨owner, owned⟩ := nowReached.owned
    apply (allocateOneVmPage_spec owned nowLive bound
      (by decide : HeapManager.heapFlags &&& PteFlags.R ≠ 0)).weaken
    · intro _ after outcome
      obtain ⟨later, pa, advanced, history, unmapped, isFrame, _⟩ := outcome
      exact ⟨nowReached.of_mapped advanced history unmapped (isFrame.narrow owned.pool.valid),
        live_of_mapped history nowLive⟩
    · intro _ after outcome
      obtain ⟨later, advanced, history, _⟩ := outcome
      exact ⟨nowReached.of_same advanced history, live_of_same history nowLive⟩
  have spec := @HeapManager.allocateWithin_keeps { heap := heap, aspace_ := aspace }
    (fun state => Reached platform identity holes state ∧ state.Live root) root
    HeapManager.allocateDepth size keeps rootIs ⟨reached, isLive⟩
  obtain ⟨⟨_, now⟩, narrow⟩ := spec.of_ok ran
  exact ⟨now.1, now.2, narrow va rfl⟩

theorem BufferReached.args_bounded (kept : BufferReached platform holes run)
    (found : HasHeap run.spinner.kcbs_ kid kcb heap) {caps : Caps → Option Nat} {va : Nat}
    {args : List UInt8} {context : HeapContext} {next : Spinner FlatDevice}
    (ran : HeapManager.allocate args.length { heap := heap, aspace_ := run.spinner.aspace_ } =
      .ok (some va) context)
    (copied : copyHostToDev (flatAccelerator caps) kid va args
      { run.spinner with
        kcbs_ := run.spinner.kcbs_.set kid (some { kcb with heap := some context.heap, args_va := va })
        aspace_ := context.aspace_ } = .ok () next) :
    0 < args.length ∧ args.length < 2 ^ 63 := by
  constructor
  · by_contra none
    have zero : args.length = 0 := by omega
    obtain ⟨fault, after, failed⟩ := @HeapManager.allocateWithin_zero
      { heap := heap, aspace_ := run.spinner.aspace_ } HeapManager.allocateDepth
    rw [zero, HeapManager.allocate, failed] at ran
    cases ran
  · by_contra huge
    obtain ⟨rootIs, isLive⟩ := kept.kernels.rooted _ _ _ found
    obtain ⟨reached, nowLive, narrow⟩ :=
      allocate_keeps_live kept.kernels.reached isLive rootIs ran
    obtain ⟨owner, owned⟩ := reached.owned
    obtain ⟨page, pageBound, unmapped⟩ := owned.not_all_mapped nowLive
    have stored := (@HasHeap.set_self _ _ { kcb with heap := some context.heap, args_va := va } _
      context.heap _ found rfl).stored
    have sameCopy : Spinner.upload (flatAccelerator caps) kid va args
        { run.spinner with
          kcbs_ := run.spinner.kcbs_.set kid
            (some { kcb with heap := some context.heap, args_va := va })
          aspace_ := context.aspace_ } = .ok () next := by
      rw [Spinner.upload, wrap32_of_lt narrow]
      exact copied
    obtain ⟨_, _, mapped⟩ :=
      (@upload_spec _ _ _ _ (flatAccelerator_backed caps) _ _ va _ stored args).of_ok sameCopy
    have byte := mapped (wrap32 (page * 4096 + 2 ^ 32 - va)) (by unfold wrap32; omega)
    have address : wrap32 (va + wrap32 (page * 4096 + 2 ^ 32 - va)) = page * 4096 := by
      unfold wrap32
      omega
    have inPage : page * 4096 / 4096 = page := Nat.mul_div_cancel page (by decide)
    rw [byteAddress, address, owned.translated_mapping nowLive (by omega), inPage, unmapped] at byte
    cases byte

theorem BufferReached.uploadArgs (kept : BufferReached platform holes run)
    {caps : Caps → Option Nat} {args : List UInt8} {next : Spinner FlatDevice}
    (ran : Spinner.uploadArgs (flatAccelerator caps) kid args run.spinner = .ok () next) :
    BufferReached platform holes { run with spinner := next } := by
  obtain ⟨kcb, heap, va, context, stored, has, done, copied⟩ := uploadArgs_returns ran
  have found : HasHeap run.spinner.kcbs_ kid kcb heap := ⟨stored, has⟩
  obtain ⟨positive, small⟩ := kept.args_bounded found done copied
  obtain ⟨vaIs, allocated⟩ := kept.heap_allocated found positive small done
  have grown := @BufferReached.grown platform holes run kid kcb heap kept found args.length context
    allocated { kcb with heap := some context.heap, args_va := va } rfl rfl
  have storedNow := (@HasHeap.set_self _ _ { kcb with heap := some context.heap, args_va := va } _
    context.heap _ found rfl).stored
  rw [vaIs] at copied storedNow grown
  obtain ⟨transferred, _⟩ := (@upload_spec _ _ _ _ (flatAccelerator_backed caps) _ _
    heap.vm_allocator_.nextAddress_ _ storedNow args).of_ok copied
  exact grown.transferred transferred

/-- A table is only added to the table of blocks when every slot has a kernel, and
there are fewer tables than frames. -/
theorem BufferReached.slots_few (kept : BufferReached platform holes run) :
    run.spinner.kcbs_.allocate.2.length ≤ 2 ^ 20 := by
  unfold Kcbs.allocate
  cases empty : run.spinner.kcbs_.findIdx? Option.isNone with
  | some slot => exact kept.few
  | none =>
      change (run.spinner.kcbs_ ++ [some KernelControlBlock.empty]).length ≤ _
      obtain ⟨owner, owned⟩ := kept.kernels.reached.owned
      have kernel : ∀ slot < run.spinner.kcbs_.length, ∃ kcb heap,
          HasHeap run.spinner.kcbs_ slot kcb heap := by
        intro slot inside
        have filled := List.findIdx?_eq_none_iff.mp empty _ (List.getElem_mem inside)
        obtain ⟨kcb, same⟩ := Option.isSome_iff_exists.mp (by
          rw [← Option.not_isNone, filled]
          rfl : (run.spinner.kcbs_[slot]).isSome = true)
        have stored : run.spinner.kcbs_[slot]? = some (some kcb) := by
          rw [List.getElem?_eq_getElem inside, same]
        obtain ⟨heap, has⟩ := Option.isSome_iff_exists.mp (kept.finished slot kcb stored)
        exact ⟨kcb, heap, stored, has⟩
      have root : ∀ {slot kcb heap}, HasHeap run.spinner.kcbs_ slot kcb heap →
          ((run.spinner.kcbs_[slot]?.join.map fun block => block.top_pgtbl_pa).getD 0) =
            kcb.top_pgtbl_pa := by
        intro slot kcb heap found
        rw [found.stored]
        rfl
      have few := @WellOwned.assigned_few _ _ _ _ owned run.spinner.kcbs_.length
        (fun slot => (run.spinner.kcbs_[slot]?.join.map fun block => block.top_pgtbl_pa).getD 0) (by
          intro slot inside
          obtain ⟨kcb, heap, found⟩ := kernel slot inside
          rw [root found]
          exact (owned.used _ _ (owned.roots _ (kept.kernels.rooted _ _ _ found).2)).1) (by
          intro first firstInside second secondInside same
          obtain ⟨firstKcb, firstHeap, firstFound⟩ := kernel first firstInside
          obtain ⟨secondKcb, secondHeap, secondFound⟩ := kernel second secondInside
          change (Option.map _ _).getD 0 = (Option.map _ _).getD 0 at same
          rw [root firstFound, root secondFound] at same
          exact kept.kernels.apart _ _ _ _ _ _ firstFound secondFound same)
      rw [List.length_append, List.length_singleton]
      exact few

theorem BufferReached.allocateKernel (kept : BufferReached platform holes run) {files : Files}
    {vxbin_path : String} {next : Spinner FlatDevice}
    (ran : Spinner.allocateKernel files vxbin_path run.spinner = .ok kid next) :
    BufferReached platform holes { run with spinner := next } := by
  obtain ⟨pgtbl_pa, aspace, content, min_vma, max_vma, kidIs, created, _, _, _, inside, nextIs⟩ :=
    allocateKernel_returns ran
  obtain ⟨owner, owned⟩ := kept.kernels.reached.owned
  obtain ⟨result, after, ranTable, later, advanced, _, outcome⟩ := allocatePageTable_spec owned
  rw [created] at ranTable
  cases ranTable
  cases outcome with
  | inl refused => cases refused.1
  | inr done =>
      obtain ⟨root, same, fresh, history⟩ := done
      cases same
      have few := kept.few
      have vacant : ∀ kcb heap, ¬HasHeap run.spinner.kcbs_ kid kcb heap := by
        intro kcb heap found
        rw [kidIs] at found
        exact Kcbs.allocate_vacant (by omega) kcb found.stored
      have consistent : Consistent ([.created pgtbl_pa] ++ run.spinner.aspace_.history) :=
        kept.kernels.reached.consistent
      obtain ⟨reached, notLive⟩ := kept.kernels.reached.of_created owned advanced fresh history
      have lives := live_created history
      have kernels := @Kernels.create _ _ _ _ _ _ kid
        (newKcb pgtbl_pa vxbin_path content.length min_vma max_vma) kept.kernels.obtained reached
        (fun table isLive => (lives table).mpr (Or.inr isLive)) notLive
        ((lives pgtbl_pa).mpr (Or.inl rfl)) (by
          intro heap has
          cases has
          rfl)
      rw [nextIs]
      refine ⟨kernels, ?_, ?_, ?_, ?_, kept.apart⟩
      · intro other otherKcb stored
        change (run.spinner.kcbs_.allocate.2.set kid _)[other]? = _ at stored
        by_cases here : kid = other
        · rw [← here, List.getElem?_set_self inside] at stored
          cases stored
          rfl
        · rw [List.getElem?_set_ne here] at stored
          exact kept.finished other otherKcb (Kcbs.stored_of_allocate (by omega) (by rw [← kidIs]; exact here)
            stored)
      · change (List.set _ _ _).length ≤ _
        rw [List.length_set]
        exact kept.slots_few
      · intro other otherKcb otherHeap now
        change HeapKept aspace.history otherHeap
        rw [history]
        cases now.of_set with
        | inl here =>
            have has := now.has
            rw [here.2] at has
            cases has
            exact ⟨HeapManager.new_sound _ (pageAlignUp_aligned max_vma) (wrap32_lt _),
              HeapManager.new_mapped _ _ _⟩
        | inr away =>
            have before := away.2.of_allocate
            obtain ⟨rootIs, isLive⟩ := kept.kernels.rooted _ _ _ before
            apply (kept.heaps _ _ _ before).cons consistent
            · rw [rootIs]
              intro same
              cases same
              exact notLive isLive
            · intro same
              cases same
      · intro buffer member
        obtain ⟨positive, narrow, bufferKcb, bufferHeap, found, low, high⟩ :=
          kept.placed buffer member
        have different : buffer.kid ≠ kid := by
          intro same
          rw [same] at found
          exact vacant _ _ found
        exact ⟨positive, narrow, bufferKcb, bufferHeap, found.allocate.set_ne different, low, high⟩

theorem BufferReached.freeKernel (kept : BufferReached platform holes run)
    {next : Spinner FlatDevice} (ran : Spinner.freeKernel kid run.spinner = .ok () next) :
    BufferReached platform holes
      { spinner := next, buffers := run.buffers.filter fun buffer => buffer.kid ≠ kid } := by
  obtain ⟨kcb, aspace, stored, freed, nextIs⟩ := freeKernel_returns ran
  obtain ⟨heap, has⟩ := Option.isSome_iff_exists.mp (kept.finished kid kcb stored)
  have found : HasHeap run.spinner.kcbs_ kid kcb heap := ⟨stored, has⟩
  obtain ⟨owner, owned⟩ := kept.kernels.reached.owned
  obtain ⟨after, ranFree, ownedAfter, holesAfter, history, _⟩ :=
    freePageTable_spec owned (fun _ impossible => impossible.elim) (kept.kernels.rooted _ _ _ found).2
  rw [freed] at ranFree
  cases ranFree
  have consistent : Consistent ([.freed kcb.top_pgtbl_pa] ++ run.spinner.aspace_.history) :=
    kept.kernels.reached.consistent
  have reached := kept.kernels.reached.of_freed ownedAfter holesAfter history
  rw [nextIs]
  refine ⟨kept.kernels.remove found reached history, ?_, ?_, ?_, ?_, ?_⟩
  · intro other otherKcb otherStored
    change (run.spinner.kcbs_.set kid none)[other]? = _ at otherStored
    by_cases here : kid = other
    · rw [← here, List.getElem?_set_self (List.getElem?_eq_some_iff.mp stored).1] at otherStored
      cases otherStored
    · rw [List.getElem?_set_ne here] at otherStored
      exact kept.finished other otherKcb otherStored
  · change (List.set _ _ _).length ≤ _
    rw [List.length_set]
    exact kept.few
  · intro other otherKcb otherHeap now
    obtain ⟨different, before⟩ := now.of_set_none
    change HeapKept aspace.history otherHeap
    rw [history]
    apply (kept.heaps _ _ _ before).cons consistent
    · intro same
      cases same
    · rw [(kept.kernels.rooted _ _ _ before).1, ne_eq, MappingEvent.freed.injEq]
      intro same
      exact different (kept.kernels.apart _ _ _ _ _ _ before found same.symm)
  · intro buffer member
    obtain ⟨before, other⟩ := List.mem_filter.mp member
    obtain ⟨positive, narrow, bufferKcb, bufferHeap, bufferFound, low, high⟩ :=
      kept.placed buffer before
    exact ⟨positive, narrow, bufferKcb, bufferHeap,
      bufferFound.set_ne (of_decide_eq_true other), low, high⟩
  · exact kept.apart.filter _

end Steps

end Espiral.Spinner
