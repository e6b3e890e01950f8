import Espiral.Library.Simulations
import Espiral.Spinner.Spinner

/-!
# Devices that a spinner cannot tell apart

A spinner looks at the capabilities and the downloaded bytes of its device only.
Devices that agree in these, and go on agreeing after every transfer and every
start, make no difference to any of its calls.
-/

namespace Espiral

set_option autoImplicit false

open ByteMemory MachineWords Simulations

/-- From related devices, what one accelerator does the other does too. -/
structure HostAccelerator.Drives {Device Twin : Type} (relation : Device → Twin → Prop)
    (accelerator : HostAccelerator Device) (other : HostAccelerator Twin) : Prop where
  caps : accelerator.getCaps = other.getCaps
  uploads : ∀ {device twin}, relation device twin → ∀ addr bytes,
    relation (accelerator.upload addr bytes device).2 (other.upload addr bytes twin).2
  downloads : ∀ {device twin}, relation device twin → ∀ dest addr,
    (accelerator.download dest addr device).2.1 = (other.download dest addr twin).2.1 ∧
      relation (accelerator.download dest addr device).2.2 (other.download dest addr twin).2.2
  starts : ∀ {device twin}, relation device twin → ∀ krnl_addr args_addr top_pgtbl_pa,
    relation (accelerator.start krnl_addr args_addr top_pgtbl_pa device).2
      (other.start krnl_addr args_addr top_pgtbl_pa twin).2

namespace Spinner

/-- The spinners differ in their devices only, and these are related. -/
structure SameSpinner {Device Twin : Type} (relation : Device → Twin → Prop)
    (state : Spinner Device) (twin : Spinner Twin) : Prop where
  kcbs_ : state.kcbs_ = twin.kcbs_
  aspace_ : state.aspace_ = twin.aspace_
  device : relation state.device twin.device

section Operations

variable {Device Twin Value : Type} {relation : Device → Twin → Prop}

section Access

theorem valueOf_matches (found : Option Value) :
    Matches (SameSpinner relation) (valueOf found) (valueOf found) := by
  cases found with
  | none => exact matches_throw _
  | some value => exact matches_pure _

theorem kcbAt_matches (kid : Nat) :
    Matches (SameSpinner relation) (kcbAt kid) (kcbAt kid) := by
  intro state twin same
  unfold kcbAt
  rw [same.kcbs_]
  split
  · exact .thrown same
  · exact .thrown same
  · exact .returned same

theorem setKcb_matches (kid : Nat) (kcb : Option KernelControlBlock) :
    Matches (SameSpinner relation) (setKcb kid kcb) (setKcb kid kcb) := by
  intro state twin same
  unfold setKcb
  rw [same.kcbs_]
  split
  · exact .returned ⟨rfl, same.aspace_, same.device⟩
  · exact .thrown same

theorem onAddressSpace_matches (action : Action AddressSpaceManager Value) :
    Matches (SameSpinner relation) (onAddressSpace action) (onAddressSpace action) := by
  intro state twin same
  unfold onAddressSpace
  rw [same.aspace_]
  split
  · exact .returned ⟨same.kcbs_, rfl, same.device⟩
  · exact .thrown ⟨same.kcbs_, rfl, same.device⟩

theorem onHeap_matches (kid : Nat) (action : Action HeapContext Value) :
    Matches (SameSpinner relation) (onHeap kid action) (onHeap kid action) := by
  refine (kcbAt_matches kid).bind fun kcb => ?_
  cases kcb.heap with
  | none => exact matches_throw _
  | some heap =>
      intro state twin same
      simp only
      rw [same.kcbs_, same.aspace_]
      split
      · exact .returned ⟨rfl, rfl, same.device⟩
      · exact .thrown ⟨rfl, rfl, same.device⟩

theorem allocateKcb_matches :
    Matches (SameSpinner relation) allocateKcb allocateKcb := by
  intro state twin same
  unfold allocateKcb
  rw [same.kcbs_]
  exact .returned ⟨rfl, same.aspace_, same.device⟩

theorem readVxbin_matches (files : Files) (vxbin_path : String) :
    Matches (SameSpinner relation) (readVxbin files vxbin_path) (readVxbin files vxbin_path) := by
  unfold readVxbin
  split
  · exact matches_pure _
  · exact matches_throw _

theorem vxbinHeader_matches (content : List UInt8) :
    Matches (SameSpinner relation) (vxbinHeader content) (vxbinHeader content) :=
  matches_ite (fun _ => matches_throw _) fun _ => matches_pure _

end Access

theorem allocateKernel_matches (files : Files) (vxbin_path : String) :
    Matches (SameSpinner relation) (allocateKernel files vxbin_path)
      (allocateKernel files vxbin_path) := by
  refine allocateKcb_matches.bind fun kid => (onAddressSpace_matches _).bind fun obtained => ?_
  cases obtained with
  | none => exact (setKcb_matches kid none).bind fun _ => matches_throw _
  | some pgtbl_pa =>
      refine (readVxbin_matches files vxbin_path).bind fun content =>
        (vxbinHeader_matches content).bind fun (min_vma, max_vma) => ?_
      exact (setKcb_matches kid _).bind fun _ => matches_pure kid

theorem freeKernel_matches (kid : Nat) :
    Matches (SameSpinner relation) (freeKernel kid) (freeKernel kid) :=
  (kcbAt_matches kid).bind fun _ => (onAddressSpace_matches _).bind fun _ => setKcb_matches kid none

theorem allocateHeap_matches (kid size : Nat) :
    Matches (SameSpinner relation) (allocateHeap kid size) (allocateHeap kid size) :=
  (onHeap_matches kid _).bind valueOf_matches

section Devices

variable {accelerator : HostAccelerator Device} {other : HostAccelerator Twin}
  (drives : accelerator.Drives relation other)
include drives

theorem accelUpload_matches (addr : Nat) (bytes : List UInt8) :
    Matches (SameSpinner relation) (accelUpload accelerator addr bytes)
      (accelUpload other addr bytes) := by
  intro state twin same
  exact .returned ⟨same.kcbs_, same.aspace_, drives.uploads same.device addr bytes⟩

theorem accelDownload_matches (dest : List UInt8) (addr : Nat) :
    Matches (SameSpinner relation) (accelDownload accelerator dest addr)
      (accelDownload other dest addr) := by
  intro state twin same
  obtain ⟨bytes, device⟩ := drives.downloads same.device dest addr
  unfold accelDownload
  simp only [bytes]
  exact .returned ⟨same.kcbs_, same.aspace_, device⟩

theorem copyChunksToDev_matches (top_pgtbl_pa : Nat) (content : List UInt8)
    (fuel base_va offset : Nat) :
    Matches (SameSpinner relation)
      (copyChunksToDev accelerator top_pgtbl_pa content fuel base_va offset)
      (copyChunksToDev other top_pgtbl_pa content fuel base_va offset) := by
  induction fuel generalizing base_va offset with
  | zero => exact matches_throw _
  | succ fuel ih =>
      refine matches_ite (fun _ => ?_) fun _ => matches_pure _
      exact (onAddressSpace_matches _).bind fun found => (valueOf_matches found).bind fun pa =>
        (accelUpload_matches drives pa _).bind fun _ => ih _ _

theorem copyHostToDev_matches (kid base_va : Nat) (content : List UInt8) :
    Matches (SameSpinner relation) (copyHostToDev accelerator kid base_va content)
      (copyHostToDev other kid base_va content) :=
  (kcbAt_matches kid).bind fun _ => copyChunksToDev_matches drives _ content _ base_va 0

theorem uploadArgs_matches (kid : Nat) (args : List UInt8) :
    Matches (SameSpinner relation) (uploadArgs accelerator kid args)
      (uploadArgs other kid args) := by
  refine (onHeap_matches kid _).bind fun found => (valueOf_matches found).bind fun args_va => ?_
  refine (kcbAt_matches kid).bind fun kcb => (setKcb_matches kid _).bind fun _ => ?_
  exact copyHostToDev_matches drives kid args_va args

theorem mapping_matches (platform : Platform) (kid : Nat) :
    Matches (SameSpinner relation) (allocateLocalMemory platform accelerator kid)
        (allocateLocalMemory platform other kid) ∧
      Matches (SameSpinner relation) (allocateUserStack platform accelerator kid)
        (allocateUserStack platform other kid) := by
  constructor
  · refine (kcbAt_matches kid).bind fun kcb => ?_
    rw [drives.caps]
    exact matches_ite (fun _ => matches_pure _) fun _ => onAddressSpace_matches _
  · refine (kcbAt_matches kid).bind fun kcb => ?_
    rw [drives.caps]
    exact matches_ite (fun _ => matches_throw _) fun _ => onAddressSpace_matches _

theorem uploadVxbin_matches (files : Files) (kid : Nat) :
    Matches (SameSpinner relation) (uploadVxbin accelerator files kid)
      (uploadVxbin other files kid) :=
  (kcbAt_matches kid).bind fun kcb => (readVxbin_matches files kcb.vxbin_path).bind fun content =>
    (vxbinHeader_matches content).bind fun (min_vma, _) =>
      copyHostToDev_matches drives kid (wrap32 min_vma) _

theorem uploadPageTable_matches (order : SparseScratchpad → SparseScratchpad) (kid : Nat) :
    Matches (SameSpinner relation) (uploadPageTable accelerator order kid)
      (uploadPageTable other order kid) := by
  refine (kcbAt_matches kid).bind fun kcb => (onAddressSpace_matches _).bind fun pt_content => ?_
  refine (kcbAt_matches kid).bind fun _ => ?_
  exact matches_forM (fun (pa, content) => accelUpload_matches drives pa content) _

theorem accelStart_matches (kid : Nat) :
    Matches (SameSpinner relation) (accelStart accelerator kid) (accelStart other kid) := by
  refine (kcbAt_matches kid).bind fun kcb => ?_
  intro state twin same
  exact .returned ⟨same.kcbs_, same.aspace_, drives.starts same.device _ _ _⟩

theorem startKernel_matches (platform : Platform) (order : SparseScratchpad → SparseScratchpad)
    (files : Files) (kid : Nat) :
    Matches (SameSpinner relation) (startKernel platform accelerator order files kid)
      (startKernel platform other order files kid) := by
  obtain ⟨localMemory, userStack⟩ := mapping_matches drives platform kid
  have segments : Matches (SameSpinner relation) (allocateVxbinSegments kid)
      (allocateVxbinSegments kid) := (kcbAt_matches kid).bind fun _ => onAddressSpace_matches _
  have ioPages : Matches (SameSpinner relation) (allocateIoPages platform kid)
      (allocateIoPages platform kid) := (kcbAt_matches kid).bind fun _ => onAddressSpace_matches _
  refine segments.bind fun _ => localMemory.bind fun _ => userStack.bind fun _ => ?_
  refine ioPages.bind fun _ => (uploadVxbin_matches drives files kid).bind fun _ => ?_
  refine (uploadPageTable_matches drives order kid).bind fun _ => (kcbAt_matches kid).bind fun _ => ?_
  exact (onAddressSpace_matches _).bind fun _ => accelStart_matches drives kid

end Devices

end Operations

end Spinner

end Espiral
