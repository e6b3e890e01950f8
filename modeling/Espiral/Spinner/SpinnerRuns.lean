import Espiral.Library.Traces
import Espiral.Mm.HeapRuns
import Espiral.Mm.RangeCoverage
import Espiral.Spinner.Kernels
import Espiral.Spinner.Starts

/-!
# Runs of a spinner

Calls on finished kernels, returning or not. Every call keeps the invariant of
the kernels, and the roles of frames after it come from those before it and
from the frames it was handed.
-/

namespace Espiral.Spinner

set_option autoImplicit false

open AddressSpaceManager ByteMemory Contracts MachineWords Traces

inductive SpinnerCall where
  | allocateKernel (vxbin_path : String)
  | allocateHeap (kid size : Nat)
  | uploadArgs (kid : Nat) (args : List UInt8)
  | upload (kid va : Nat) (content : List UInt8)
  | download (kid va : Nat) (dest : List UInt8)
  | startKernel (kid : Nat) (order : SparseScratchpad → SparseScratchpad)
  | freeKernel (kid : Nat)

def performCall (platform : Platform) (caps : Caps → Option Nat) (files : Files) :
    SpinnerCall → Action (Spinner FlatDevice) Unit
  | .allocateKernel vxbin_path => do
      let _ ← Spinner.allocateKernel files vxbin_path
      pure ()
  | .allocateHeap kid size => do
      let _ ← Spinner.allocateHeap kid size
      pure ()
  | .uploadArgs kid args => Spinner.uploadArgs (flatAccelerator caps) kid args
  | .upload kid va content => Spinner.upload (flatAccelerator caps) kid va content
  | .download kid va dest => do
      let _ ← Spinner.download (flatAccelerator caps) kid va dest
      pure ()
  | .startKernel kid order =>
      Spinner.startKernel platform (flatAccelerator caps) order files kid
  | .freeKernel kid => Spinner.freeKernel kid

/-- An id that has been returned and not been freed since. -/
def Finished (kcbs : Kcbs) (kid : Nat) : Prop := ∃ kcb heap, HasHeap kcbs kid kcb heap

/-- Calls are on finished kernels, and a map is iterated in some order. -/
def Admissible (kcbs : Kcbs) : SpinnerCall → Prop
  | .allocateKernel _ => True
  | .allocateHeap kid _ => Finished kcbs kid
  | .uploadArgs kid _ => Finished kcbs kid
  | .upload kid _ _ => Finished kcbs kid
  | .download kid _ _ => Finished kcbs kid
  | .startKernel kid order => Finished kcbs kid ∧ ∀ dump, (order dump).Perm dump
  | .freeKernel kid => Finished kcbs kid

/-- A call that returns or throws; the files are the same for all calls. -/
def CallStep (platform : Platform) (caps : Caps → Option Nat) (files : Files)
    (state : Spinner FlatDevice) (call : SpinnerCall) (next : Spinner FlatDevice) : Prop :=
  Admissible state.kcbs_ call ∧
    ((∃ value, performCall platform caps files call state = .ok value next) ∨
      ∃ fault, performCall platform caps files call state = .error fault next)

structure Serving (platform : Platform) (holes : HoleList) (files : Files)
    (state : Spinner FlatDevice) : Prop where
  kernels : Kernels platform (MayMapItself platform holes) holes state.kcbs_ state.aspace_
  images : ∀ kid kcb heap, HasHeap state.kcbs_ kid kcb heap →
    ∃ content, files kcb.vxbin_path = some content ∧
      kcb.vxbin_size = (imageBytes content).length

structure CallEffect (platform : Platform) (holes : HoleList) (files : Files)
    (owner : Nat → Option Role) (state next : Spinner FlatDevice) : Prop where
  serving : Serving platform holes files next
  owned : ∃ later, WellOwned platform (MayMapItself platform holes) later next.aspace_ ∧
    (Taken platform (fun frame => holes.addrInHole frame) none owner later state.aspace_.frames
        next.aspace_.frames ∨
      Extends later owner)

/-- A block that differs from another one in its heap and its arguments only. -/
structure SameKernel (kcb block : KernelControlBlock) : Prop where
  root : block.top_pgtbl_pa = kcb.top_pgtbl_pa
  path : block.vxbin_path = kcb.vxbin_path
  size : block.vxbin_size = kcb.vxbin_size
  heap : ∃ heap, block.heap = some heap ∧ heap.top_pgtbl_pa_ = kcb.top_pgtbl_pa

structure Advanced (platform : Platform) (holes : HoleList) (kid : Nat) (kcb : KernelControlBlock)
    (owner : Nat → Option Role) (start state : Spinner FlatDevice) : Prop where
  block : ∃ block, state.kcbs_ = start.kcbs_.set kid (some block) ∧ SameKernel kcb block
  progress : Progress platform (MayMapItself platform holes) holes kcb.top_pgtbl_pa owner
    start.aspace_ state.aspace_

section Calls

variable {platform : Platform} {holes : HoleList} {files : Files} {owner : Nat → Option Role}
  {start state next : Spinner FlatDevice} {kid : Nat} {kcb : KernelControlBlock} {heap : HeapManager}

theorem Serving.advanced (serving : Serving platform holes files state)
    (owned : WellOwned platform (MayMapItself platform holes) owner state.aspace_)
    (found : HasHeap state.kcbs_ kid kcb heap) :
    Advanced platform holes kid kcb owner state state := by
  obtain ⟨rootIs, isLive⟩ := serving.kernels.rooted _ _ _ found
  refine ⟨⟨kcb, ?_, rfl, rfl, rfl, heap, found.has, rootIs⟩,
    serving.kernels.reached.progress owned isLive⟩
  apply List.ext_getElem?
  intro other
  by_cases here : kid = other
  · rw [← here, List.getElem?_set_self (List.getElem?_eq_some_iff.mp found.stored).1, found.stored]
  · rw [List.getElem?_set_ne here]

/-- Calls for one kernel leave the others alone. -/
theorem Advanced.effect (advanced : Advanced platform holes kid kcb owner start state)
    (serving : Serving platform holes files start) (found : HasHeap start.kcbs_ kid kcb heap) :
    CallEffect platform holes files owner start state := by
  obtain ⟨block, kcbs, same⟩ := advanced.block
  obtain ⟨later, owned, taken⟩ := advanced.progress.owned
  have kernels := serving.kernels.kept advanced.progress.reached advanced.progress.lives
  refine ⟨⟨?_, ?_⟩, later, owned, Or.inl taken⟩
  · rw [kcbs]
    apply kernels.store found same.root
    intro now has
    obtain ⟨blockHeap, blockHas, rootIs⟩ := same.heap
    rw [blockHas, Option.some.injEq] at has
    rw [← has]
    exact rootIs
  · intro other otherKcb otherHeap now
    rw [kcbs] at now
    cases now.of_set with
    | inl here =>
        rw [here.2, same.path, same.size]
        exact serving.images kid kcb heap found
    | inr away => exact serving.images _ _ _ away.2

theorem Advanced.stored (advanced : Advanced platform holes kid kcb owner start state)
    (found : HasHeap start.kcbs_ kid kcb heap) :
    ∃ block, SameKernel kcb block ∧ state.kcbs_[kid]? = some (some block) ∧
      ∀ slot, state.kcbs_.set kid slot = start.kcbs_.set kid slot := by
  obtain ⟨block, kcbs, same⟩ := advanced.block
  refine ⟨block, same, ?_, ?_⟩
  · rw [kcbs]
    exact List.getElem?_set_self (List.getElem?_eq_some_iff.mp found.stored).1
  · intro slot
    rw [kcbs, List.set_set]

section OneKernel

variable (found : HasHeap start.kcbs_ kid kcb heap)

include found

theorem kcbAt_advanced {Value : Type}
    {continuation : KernelControlBlock → Action (Spinner FlatDevice) Value}
    (keeps : ∀ block, SameKernel kcb block →
      Keeps (Advanced platform holes kid kcb owner start) (continuation block)) :
    Keeps (Advanced platform holes kid kcb owner start) (kcbAt kid >>= continuation) := by
  intro state advanced
  obtain ⟨block, same, stored, _⟩ := advanced.stored found
  exact ensures_bind_of_run (kcbAt_run stored) (keeps block same state advanced)

theorem setKcb_advanced {block : KernelControlBlock} (same : SameKernel kcb block) :
    Keeps (Advanced platform holes kid kcb owner start) (setKcb kid (some block)) := by
  intro state advanced
  obtain ⟨_, _, stored, sets⟩ := advanced.stored found
  have inside := (List.getElem?_eq_some_iff.mp stored).1
  have ran : setKcb kid (some block) state =
      .ok () { state with kcbs_ := state.kcbs_.set kid (some block) } := by
    rw [setKcb, if_pos inside]
  apply ensures_of_run ran
  exact ⟨⟨block, sets _, same⟩, advanced.progress⟩

end OneKernel

theorem valueOf_keeps {Value : Type} {Invariant : Spinner FlatDevice → Prop}
    (result : Option Value) : Keeps Invariant (valueOf result) := by
  cases result with
  | none => exact keeps_throw _
  | some value => exact keeps_pure _

theorem Advanced.transferred (advanced : Advanced platform holes kid kcb owner start state)
    (transferred : Transferred state next) :
    Advanced platform holes kid kcb owner start next where
  block := by
    rw [transferred.kcbs]
    exact advanced.block
  progress := advanced.progress.of_sameView transferred.aspace.sameView

theorem onHeap_advanced (found : HasHeap start.kcbs_ kid kcb heap) (size : Nat)
    (advanced : Advanced platform holes kid kcb owner start state) :
    Ensures (onHeap kid (HeapManager.allocate size)) state
      (fun result next => Advanced platform holes kid kcb owner start next ∧
        ∀ va, result = some va → va < 2 ^ 32)
      (fun _ next => Advanced platform holes kid kcb owner start next) := by
  obtain ⟨block, same, stored, sets⟩ := advanced.stored found
  obtain ⟨blockHeap, has, rootIs⟩ := same.heap
  have heapKeeps := @HeapManager.allocateWithin_keeps { heap := blockHeap, aspace_ := state.aspace_ }
    (Progress platform (MayMapItself platform holes) holes kcb.top_pgtbl_pa owner start.aspace_)
    kcb.top_pgtbl_pa HeapManager.allocateDepth size
    (fun _ aspace bound progress => allocateOneVmPage_keeps (by decide) bound aspace progress)
    rootIs advanced.progress
  have finish : ∀ context : HeapContext, context.heap.top_pgtbl_pa_ = kcb.top_pgtbl_pa ∧
      Progress platform (MayMapItself platform holes) holes kcb.top_pgtbl_pa owner start.aspace_
        context.aspace_ →
      Advanced platform holes kid kcb owner start { state with
        kcbs_ := state.kcbs_.set kid (some { block with heap := some context.heap })
        aspace_ := context.aspace_ } := by
    intro context kept
    exact ⟨⟨{ block with heap := some context.heap }, sets _, same.root, same.path, same.size,
      context.heap, rfl, kept.1⟩, kept.2⟩
  apply (onHeap_ensures stored has heapKeeps).weaken
  · intro _ next outcome
    obtain ⟨context, ⟨kept, narrow⟩, nextIs⟩ := outcome
    rw [nextIs]
    exact ⟨finish context kept, narrow⟩
  · intro _ next outcome
    obtain ⟨context, kept, nextIs⟩ := outcome
    rw [nextIs]
    exact finish context kept

theorem upload_advanced (found : HasHeap start.kcbs_ kid kcb heap) (caps : Caps → Option Nat)
    (va : Nat) (content : List UInt8) :
    Keeps (Advanced platform holes kid kcb owner start)
      (Spinner.upload (flatAccelerator caps) kid va content) := by
  intro state advanced
  obtain ⟨block, _, stored, _⟩ := advanced.stored found
  apply (upload_spec (flatAccelerator_backed caps) stored content).weaken
  · intro _ next outcome
    exact advanced.transferred outcome.1
  · intro _ next outcome
    exact advanced.transferred outcome.1

theorem download_advanced (found : HasHeap start.kcbs_ kid kcb heap) (caps : Caps → Option Nat)
    (va : Nat) (dest : List UInt8) :
    Keeps (Advanced platform holes kid kcb owner start)
      (Spinner.download (flatAccelerator caps) kid va dest) := by
  intro state advanced
  obtain ⟨block, _, stored, _⟩ := advanced.stored found
  apply (download_spec (flatAccelerator_backed caps) stored dest).weaken
  · intro _ next outcome
    exact advanced.transferred outcome.1
  · intro _ next outcome
    exact advanced.transferred outcome.1

theorem allocateHeap_advanced (found : HasHeap start.kcbs_ kid kcb heap) (size : Nat) :
    Keeps (Advanced platform holes kid kcb owner start) (Spinner.allocateHeap kid size) := by
  apply Keeps.bind ?_ (fun result => valueOf_keeps result)
  intro state advanced
  apply (onHeap_advanced found size advanced).weaken
  · intro _ _ outcome
    exact outcome.1
  · intro _ _ kept
    exact kept

theorem uploadArgs_advanced (found : HasHeap start.kcbs_ kid kcb heap) (caps : Caps → Option Nat)
    (args : List UInt8) :
    Keeps (Advanced platform holes kid kcb owner start)
      (Spinner.uploadArgs (flatAccelerator caps) kid args) := by
  intro state advanced
  rw [Spinner.uploadArgs]
  apply Ensures.bind
  apply (onHeap_advanced found args.length advanced).weaken
  · intro result next outcome
    obtain ⟨kept, narrow⟩ := outcome
    cases result with
    | none => exact Ensures.bind (ensures_throw kept)
    | some args_va =>
        have valued : (valueOf (some args_va) : Action (Spinner FlatDevice) Nat) next =
          .ok args_va next := rfl
        apply ensures_bind_of_run valued
        apply kcbAt_advanced found ?_ next kept
        intro block same
        have written : SameKernel kcb { block with args_va := args_va } :=
          ⟨same.root, same.path, same.size, same.heap⟩
        apply (setKcb_advanced found written).bind
        intro _
        have sameUpload : copyHostToDev (flatAccelerator caps) kid args_va args =
            Spinner.upload (flatAccelerator caps) kid args_va args := by
          rw [Spinner.upload, wrap32_of_lt (narrow args_va rfl)]
        rw [sameUpload]
        exact upload_advanced found caps args_va args
  · intro _ _ kept
    exact kept

variable (serving : Serving platform holes files state)
  (owned : WellOwned platform (MayMapItself platform holes) owner state.aspace_)

include serving owned

theorem startKernel_effect {caps : Caps → Option Nat} (found : HasHeap state.kcbs_ kid kcb heap)
    (itself : ∀ page, MapsItself platform ((caps .localMemSize).getD 0) page →
      MayMapItself platform holes page)
    {order : SparseScratchpad → SparseScratchpad} (permutes : ∀ dump, (order dump).Perm dump) :
    Ensures (Spinner.startKernel platform (flatAccelerator caps) order files kid) state
      (fun _ next => CallEffect platform holes files owner state next)
      (fun _ next => CallEffect platform holes files owner state next) := by
  obtain ⟨block, kcbs, same⟩ := (serving.advanced owned found).block
  have isLive := (serving.kernels.rooted _ _ _ found).2
  apply (startKernel_spec serving.kernels.reached owned found.stored isLive itself
    permutes).weaken
  · intro _ next outcome
    have advanced : Advanced platform holes kid kcb owner state next :=
      ⟨⟨block, outcome.1.trans kcbs, same⟩, outcome.2.1⟩
    exact advanced.effect serving found
  · intro _ next outcome
    have advanced : Advanced platform holes kid kcb owner state next :=
      ⟨⟨block, outcome.1.trans kcbs, same⟩, outcome.2⟩
    exact advanced.effect serving found

theorem freeKernel_effect (found : HasHeap state.kcbs_ kid kcb heap) :
    Ensures (Spinner.freeKernel kid) state
      (fun _ next => CallEffect platform holes files owner state next)
      (fun _ next => CallEffect platform holes files owner state next) := by
  have isLive := (serving.kernels.rooted _ _ _ found).2
  obtain ⟨aspace, ran, laterOwned, laterHoles, history, _⟩ := freePageTable_spec owned
    (fun _ itself => by rw [serving.kernels.reached.holes]; exact itself) isLive
  have reached := serving.kernels.reached.of_freed laterOwned laterHoles history
  have removed : freeKcb kid { state with aspace_ := aspace } =
      .ok () { state with kcbs_ := state.kcbs_.set kid none, aspace_ := aspace } := by
    rw [freeKcb, setKcb, if_pos (List.getElem?_eq_some_iff.mp found.stored).1]
  rw [Spinner.freeKernel]
  apply ensures_bind_of_run (kcbAt_run found.stored)
  apply ensures_bind_of_run (onAddressSpace_run ran)
  apply ensures_of_run removed
  refine ⟨⟨serving.kernels.remove found reached history, ?_⟩, _, laterOwned,
    Or.inr fun _ _ has => (without_some.mp has).1⟩
  intro other otherKcb otherHeap now
  exact serving.images _ _ _ now.of_set_none.2

/-- An allocation that throws leaves a block without a heap behind, or an empty slot. -/
theorem allocateKernel_effect (vxbin_path : String) :
    Ensures (Spinner.allocateKernel files vxbin_path) state
      (fun _ next => CallEffect platform holes files owner state next)
      (fun _ next => CallEffect platform holes files owner state next) := by
  obtain ⟨result, aspace, later, ran, laterOwned, taken, reached, lives, created⟩ :=
    serving.kernels.reached.allocatePageTable owned
  have effect : ∀ kcbs, Serving platform holes files { state with kcbs_ := kcbs, aspace_ := aspace } →
      CallEffect platform holes files owner state
        { state with kcbs_ := kcbs, aspace_ := aspace } :=
    fun _ servingNow => ⟨servingNow, later, laterOwned, Or.inl taken⟩
  have obtained : Serving platform holes files
      { state with kcbs_ := state.kcbs_.allocate.2, aspace_ := aspace } :=
    ⟨serving.kernels.obtained.kept reached lives,
      fun _ _ _ found => serving.images _ _ _ found.of_allocate⟩
  cases result with
  | none =>
      refine ensures_iff.mpr (Or.inr ⟨_, _, allocateKernel_noRoot ran, effect _ ?_⟩)
      exact ⟨obtained.kernels.vacate, fun _ _ _ found => obtained.images _ _ _ found.of_set_none.2⟩
  | some root =>
      cases onDisk : files vxbin_path with
      | none =>
          exact ensures_iff.mpr (Or.inr ⟨_, _, allocateKernel_noFile ran onDisk, effect _ obtained⟩)
      | some content =>
          by_cases whole : 16 ≤ content.length
          · apply ensures_of_run (allocateKernel_run ran onDisk whole)
            apply effect
            obtain ⟨fresh, isLive⟩ := created root rfl
            constructor
            · apply serving.kernels.obtained.create reached lives fresh isLive
              intro heap has
              cases has
              rfl
            · intro other otherKcb otherHeap now
              cases now.of_set with
              | inl here =>
                  rw [here.2]
                  exact ⟨content, onDisk, (List.length_drop ..).symm⟩
              | inr away => exact obtained.images _ _ _ away.2
          · have short := allocateKernel_short ran onDisk (Nat.lt_of_not_le whole)
            exact ensures_iff.mpr (Or.inr ⟨_, _, short, effect _ obtained⟩)

theorem performCall_effect {caps : Caps → Option Nat}
    (itself : ∀ page, MapsItself platform ((caps .localMemSize).getD 0) page →
      MayMapItself platform holes page)
    {call : SpinnerCall} (admissible : Admissible state.kcbs_ call) :
    Ensures (performCall platform caps files call) state
      (fun _ next => CallEffect platform holes files owner state next)
      (fun _ next => CallEffect platform holes files owner state next) := by
  have kept : ∀ {action : Action (Spinner FlatDevice) Unit} {kid : Nat} {kcb : KernelControlBlock}
      {heap : HeapManager}, HasHeap state.kcbs_ kid kcb heap →
      Keeps (Advanced platform holes kid kcb owner state) action →
      Ensures action state (fun _ next => CallEffect platform holes files owner state next)
        (fun _ next => CallEffect platform holes files owner state next) := by
    intro action kid kcb heap found keeps
    apply (keeps state (serving.advanced owned found)).weaken
    · intro _ next advanced
      exact advanced.effect serving found
    · intro _ next advanced
      exact advanced.effect serving found
  cases call with
  | allocateKernel vxbin_path =>
      apply Ensures.bind
      apply (allocateKernel_effect serving owned vxbin_path).weaken
      · intro _ _ effect
        exact ensures_pure effect
      · intro _ _ effect
        exact effect
  | allocateHeap kid size =>
      obtain ⟨kcb, heap, found⟩ := admissible
      exact kept found ((allocateHeap_advanced found size).bind fun _ => keeps_pure _)
  | uploadArgs kid args =>
      obtain ⟨kcb, heap, found⟩ := admissible
      exact kept found (uploadArgs_advanced found caps args)
  | upload kid va content =>
      obtain ⟨kcb, heap, found⟩ := admissible
      exact kept found (upload_advanced found caps va content)
  | download kid va dest =>
      obtain ⟨kcb, heap, found⟩ := admissible
      exact kept found ((download_advanced found caps va dest).bind fun _ => keeps_pure _)
  | startKernel kid order =>
      obtain ⟨⟨kcb, heap, found⟩, permutes⟩ := admissible
      exact startKernel_effect serving owned found itself permutes
  | freeKernel kid =>
      obtain ⟨kcb, heap, found⟩ := admissible
      exact freeKernel_effect serving owned found

end Calls

section Runs

variable {platform : Platform} {holes : HoleList} {caps : Caps → Option Nat} {files : Files}
  {owner : Nat → Option Role} {state next : Spinner FlatDevice} {call : SpinnerCall}

theorem new_serving (valid : platform.Valid) (accelerator : HostAccelerator FlatDevice)
    (device : FlatDevice) :
    Serving platform (AddressSpaceManager.new platform
      ((accelerator.getCaps .localMemSize).getD 0)).hole_list_ files
      (Spinner.new platform accelerator device) where
  kernels := by
    apply Kernels.nothing
    change Reached _ _ _ (AddressSpaceManager.new platform _)
    rw [new_withHoles]
    exact withHoles_reached valid _ _
  images kid kcb heap found := by cases found.stored

theorem CallStep.effect (step : CallStep platform caps files state call next)
    (serving : Serving platform holes files state)
    (owned : WellOwned platform (MayMapItself platform holes) owner state.aspace_)
    (itself : ∀ page, MapsItself platform ((caps .localMemSize).getD 0) page →
      MayMapItself platform holes page) :
    CallEffect platform holes files owner state next :=
  (performCall_effect serving owned itself step.1).either step.2

theorem run_serving (valid : platform.Valid) {device : FlatDevice} {calls : List SpinnerCall}
    (itself : ∀ page, MapsItself platform ((caps .localMemSize).getD 0) page →
      MayMapItself platform
        (AddressSpaceManager.new platform ((caps .localMemSize).getD 0)).hole_list_ page)
    (run : Trace (CallStep platform caps files)
      (Spinner.new platform (flatAccelerator caps) device) calls state) :
    Serving platform (AddressSpaceManager.new platform
      ((caps .localMemSize).getD 0)).hole_list_ files state := by
  apply run.invariant (Serving platform _ files) ?_ (new_serving valid (flatAccelerator caps) device)
  intro state call next serving step
  obtain ⟨owner, owned⟩ := serving.kernels.reached.owned
  exact (step.effect serving owned itself).serving

end Runs

end Espiral.Spinner
