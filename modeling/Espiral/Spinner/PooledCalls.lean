import Espiral.Mm.PooledFrames
import Espiral.Spinner.SpinnerRuns

/-!
# The pool of frames under the calls of a spinner

The ids, addresses and files of a call may be any. What the call asks of the
address space manager keeps its page allocator a pool of frames, and so does
every sequence of calls.
-/

namespace Espiral.Spinner

set_option autoImplicit false

open AddressSpaceManager Contracts MachineWords Traces VortexMemoryAllocator

section AnyCalls

variable {platform : Platform} {caps : Caps → Option Nat}

def Pooled (platform : Platform) (state : Spinner FlatDevice) : Prop :=
  AddressSpaceManager.Pooled platform state.aspace_

theorem kcbAt_pooled (kid : Nat) : Keeps (Pooled platform) (kcbAt kid) := by
  intro state pooled
  cases stored : state.kcbs_[kid]? with
  | none => exact ensures_iff.mpr (Or.inr ⟨_, state, by rw [kcbAt, stored], pooled⟩)
  | some slot =>
      cases slot with
      | none => exact ensures_iff.mpr (Or.inr ⟨_, state, by rw [kcbAt, stored], pooled⟩)
      | some kcb => exact ensures_of_run (kcbAt_run stored) pooled

theorem setKcb_pooled (kid : Nat) (kcb : Option KernelControlBlock) :
    Keeps (Pooled platform) (setKcb kid kcb) := by
  intro state pooled
  apply (setKcb_ensures kid kcb state).weaken
  · intro _ next same
    rw [same]
    exact pooled
  · intro _ next same
    rw [same]
    exact pooled

theorem onAddressSpace_pooled {Value : Type} {action : Action AddressSpaceManager Value}
    (keeps : Keeps (AddressSpaceManager.Pooled platform) action) :
    Keeps (Pooled platform) (Spinner.onAddressSpace action) := by
  intro state pooled
  apply (onAddressSpace_ensures (keeps state.aspace_ pooled)).weaken
  · intro _ next outcome
    exact outcome.1
  · intro _ next outcome
    exact outcome.1

theorem onHeap_pooled (kid size : Nat) :
    Keeps (Pooled platform) (onHeap kid (HeapManager.allocate size)) := by
  intro state pooled
  cases ensures_iff.mp (kcbAt_pooled kid state pooled) with
  | inr thrown =>
      obtain ⟨fault, next, ran, kept⟩ := thrown
      exact ensures_iff.mpr (Or.inr ⟨fault, next, bind_error ran, kept⟩)
  | inl returned =>
      obtain ⟨kcb, next, ran, _⟩ := returned
      obtain ⟨stored, _⟩ := kcbAt_returns ran
      cases has : kcb.heap with
      | none =>
          refine ensures_iff.mpr (Or.inr ⟨.undefinedBehaviour, state, ?_, pooled⟩)
          rw [onHeap, bind_ok (kcbAt_run stored)]
          simp only [has]
          rfl
      | some heap =>
          have heapKeeps := @HeapManager.allocateWithin_keeps
            { heap := heap, aspace_ := state.aspace_ } (AddressSpaceManager.Pooled platform)
            heap.top_pgtbl_pa_ HeapManager.allocateDepth size
            (fun va aspace _ kept => allocateOneVmPage_pooled va _ _ aspace kept) rfl pooled
          apply (onHeap_ensures stored has heapKeeps).weaken
          · intro _ next outcome
            obtain ⟨context, ⟨kept, _⟩, nextIs⟩ := outcome
            rw [nextIs]
            exact kept.2
          · intro _ next outcome
            obtain ⟨context, kept, nextIs⟩ := outcome
            rw [nextIs]
            exact kept.2

theorem accelUpload_pooled (addr : Nat) (bytes : List UInt8) :
    Keeps (Pooled platform) (accelUpload (flatAccelerator caps) addr bytes) :=
  fun _ pooled => ensures_of_run rfl pooled

theorem accelDownload_pooled (dest : List UInt8) (addr : Nat) :
    Keeps (Pooled platform) (accelDownload (flatAccelerator caps) dest addr) :=
  fun _ pooled => ensures_of_run rfl pooled

theorem copyChunksToDev_pooled (root : Nat) (content : List UInt8) (fuel va offset : Nat) :
    Keeps (Pooled platform)
      (copyChunksToDev (flatAccelerator caps) root content fuel va offset) := by
  induction fuel generalizing va offset with
  | zero => exact keeps_throw _
  | succ fuel ih =>
      apply keeps_ite
      · intro _
        apply (onAddressSpace_pooled (translate_shielded pooled_shielded va root)).bind
        intro found
        apply (valueOf_keeps found).bind
        intro pa
        exact (accelUpload_pooled pa _).bind fun _ => ih _ _
      · intro _
        exact keeps_pure _

theorem copyChunksToHost_pooled (root fuel va offset : Nat) (dest : List UInt8) :
    Keeps (Pooled platform)
      (copyChunksToHost (flatAccelerator caps) root fuel va offset dest) := by
  induction fuel generalizing va offset dest with
  | zero => exact keeps_throw _
  | succ fuel ih =>
      apply keeps_ite
      · intro _
        apply (onAddressSpace_pooled (translate_shielded pooled_shielded va root)).bind
        intro found
        apply (valueOf_keeps found).bind
        intro pa
        exact (accelDownload_pooled _ pa).bind fun _ => ih _ _ _
      · intro _
        exact keeps_pure _

theorem copyHostToDev_pooled (kid va : Nat) (content : List UInt8) :
    Keeps (Pooled platform) (copyHostToDev (flatAccelerator caps) kid va content) :=
  (kcbAt_pooled kid).bind fun _ => copyChunksToDev_pooled _ content _ va 0

theorem readVxbin_pooled (files : Files) (vxbin_path : String) :
    Keeps (Pooled platform) (readVxbin files vxbin_path) := by
  unfold readVxbin
  cases files vxbin_path with
  | none => exact keeps_throw _
  | some content => exact keeps_pure _

theorem vxbinHeader_pooled (content : List UInt8) :
    Keeps (Pooled platform) (vxbinHeader content) :=
  keeps_ite (fun _ => keeps_throw _) (fun _ => keeps_pure _)

theorem allocateKernel_pooled (files : Files) (vxbin_path : String) :
    Keeps (Pooled platform) (Spinner.allocateKernel files vxbin_path) := by
  have obtained : Keeps (Pooled platform) (allocateKcb : Action (Spinner FlatDevice) Nat) :=
    fun _ pooled => ensures_of_run rfl pooled
  apply obtained.bind
  intro kid
  apply (onAddressSpace_pooled allocatePageTable_pooled).bind
  intro result
  cases result with
  | none => exact (setKcb_pooled kid none).bind fun _ => keeps_throw _
  | some pgtbl_pa =>
      apply (readVxbin_pooled files vxbin_path).bind
      intro content
      apply (vxbinHeader_pooled content).bind
      intro header
      exact (setKcb_pooled kid _).bind fun _ => keeps_pure _

theorem uploadArgs_pooled (kid : Nat) (args : List UInt8) :
    Keeps (Pooled platform) (Spinner.uploadArgs (flatAccelerator caps) kid args) := by
  apply (onHeap_pooled kid args.length).bind
  intro result
  apply (valueOf_keeps result).bind
  intro args_va
  apply (kcbAt_pooled kid).bind
  intro kcb
  exact (setKcb_pooled kid _).bind fun _ => copyHostToDev_pooled kid args_va args

theorem mapVxbinSegments_pooled (root min_vma max_vma bin_size : Nat) :
    Keeps (AddressSpaceManager.Pooled platform)
      (mapVxbinSegments root min_vma max_vma bin_size) := by
  apply mapVxbinSegments_keeps
  · intro va size flags _
    exact forPages_pooled (fun _ => allocateOneVmPage_pooled _ root flags) _
  · intro va _
    exact allocateOneVmPage_pooled va root sharedFlags

theorem uploadSparseScratchpad_pooled (kid : Nat) (data : SparseScratchpad) :
    Keeps (Pooled platform) (uploadSparseScratchpad (flatAccelerator caps) kid data) := by
  apply (kcbAt_pooled kid).bind
  intro _
  induction data with
  | nil => exact keeps_pure _
  | cons node rest ih => exact (accelUpload_pooled node.1 node.2).bind fun _ => ih

theorem startKernel_pooled (files : Files) (order : SparseScratchpad → SparseScratchpad)
    (kid : Nat) :
    Keeps (Pooled platform)
      (Spinner.startKernel platform (flatAccelerator caps) order files kid) := by
  have itself : ∀ addr size root flags, Keeps (Pooled platform)
      (Spinner.onAddressSpace (unsafeMapIdentity addr size root flags)) :=
    fun addr size root flags => onAddressSpace_pooled
      (forPages_pooled (fun _ => mapAddrInner_pooled _ _ root flags) _)
  apply ((kcbAt_pooled kid).bind fun _ => onAddressSpace_pooled
    (mapVxbinSegments_pooled _ _ _ _)).bind
  intro _
  apply ((kcbAt_pooled kid).bind fun _ => keeps_ite (fun _ => keeps_pure _)
    (fun _ => itself _ _ _ _)).bind
  intro _
  apply ((kcbAt_pooled kid).bind fun _ => keeps_ite (fun _ => keeps_throw _)
    (fun _ => onAddressSpace_pooled
      (forPages_pooled (fun _ => allocateOneVmPage_pooled _ _ _) _))).bind
  intro _
  apply ((kcbAt_pooled kid).bind fun _ => itself _ _ _ _).bind
  intro _
  apply ((kcbAt_pooled kid).bind fun _ => (readVxbin_pooled files _).bind fun content =>
    (vxbinHeader_pooled content).bind fun _ => copyHostToDev_pooled kid _ _).bind
  intro _
  apply ((kcbAt_pooled kid).bind fun _ => (onAddressSpace_pooled
    (dumpPageTableInner_pooled dumpDepth _ [])).bind fun _ =>
      uploadSparseScratchpad_pooled kid _).bind
  intro _
  apply (kcbAt_pooled kid).bind
  intro kcb
  apply (onAddressSpace_pooled (dumpAddressMappingInner_pooled (PT_LEVELS + 1) _ 0 [])).bind
  intro _
  apply (kcbAt_pooled kid).bind
  intro _
  exact fun _ pooled => ensures_of_run rfl pooled

theorem performCall_pooled (files : Files) (call : SpinnerCall) :
    Keeps (Pooled platform) (performCall platform caps files call) := by
  cases call with
  | allocateKernel vxbin_path =>
      exact (allocateKernel_pooled files vxbin_path).bind fun _ => keeps_pure _
  | allocateHeap kid size =>
      exact ((onHeap_pooled kid size).bind fun result => valueOf_keeps result).bind
        fun _ => keeps_pure _
  | uploadArgs kid args => exact uploadArgs_pooled kid args
  | upload kid va content => exact copyHostToDev_pooled kid _ content
  | download kid va dest =>
      exact ((kcbAt_pooled kid).bind fun _ => copyChunksToHost_pooled _ _ _ 0 dest).bind
        fun _ => keeps_pure _
  | startKernel kid order => exact startKernel_pooled files order kid
  | freeKernel kid =>
      exact (kcbAt_pooled kid).bind fun kcb =>
        (onAddressSpace_pooled (freePageTable_pooled kcb.top_pgtbl_pa)).bind
          fun _ => setKcb_pooled kid none

def AnyStep (platform : Platform) (caps : Caps → Option Nat) (state : Spinner FlatDevice)
    (call : Files × SpinnerCall) (next : Spinner FlatDevice) : Prop :=
  (∃ value, performCall platform caps call.1 call.2 state = .ok value next) ∨
    ∃ fault, performCall platform caps call.1 call.2 state = .error fault next

theorem run_pooled (valid : platform.Valid) {device : FlatDevice}
    {calls : List (Files × SpinnerCall)} {state : Spinner FlatDevice}
    (run : Trace (AnyStep platform caps) (Spinner.new platform (flatAccelerator caps) device) calls
      state) : Pooled platform state := by
  apply run.invariant (Pooled platform) ?_ (new_pooled valid _)
  intro state call next pooled step
  exact (performCall_pooled call.1 call.2 state pooled).either step

end AnyCalls

end Espiral.Spinner
