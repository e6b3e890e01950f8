import Espiral.Mm.HeapRuns
import Espiral.Spinner.Spinner

/-!
# What a returning call has done

One lemma for each operation that a kernel's owner calls before it is started:
if the call returns, these calls of the layers below have returned and this is
the state it leaves.
-/

namespace Espiral.Spinner

set_option autoImplicit false

open Contracts MachineWords

variable {Device Value : Type} {state next : Spinner Device}

section Access

theorem valueOf_returns {found : Option Value} {value : Value}
    (ran : valueOf found state = .ok value next) : found = some value ∧ next = state := by
  cases found with
  | none => cases ran
  | some other =>
      cases ran
      exact ⟨rfl, rfl⟩

theorem kcbAt_run {kid : Nat} {kcb : KernelControlBlock}
    (stored : state.kcbs_[kid]? = some (some kcb)) : kcbAt kid state = .ok kcb state := by
  simp only [kcbAt, stored]

theorem kcbAt_returns {kid : Nat} {kcb : KernelControlBlock}
    (ran : kcbAt kid state = .ok kcb next) :
    state.kcbs_[kid]? = some (some kcb) ∧ next = state := by
  unfold kcbAt at ran
  split at ran
  · cases ran
  · cases ran
  · next found stored =>
      cases ran
      exact ⟨stored, rfl⟩

theorem setKcb_returns {kid : Nat} {kcb : Option KernelControlBlock}
    (ran : setKcb kid kcb state = .ok () next) :
    kid < state.kcbs_.length ∧ next = { state with kcbs_ := state.kcbs_.set kid kcb } := by
  unfold setKcb at ran
  split at ran
  · next inside =>
      cases ran
      exact ⟨inside, rfl⟩
  · cases ran

theorem setKcb_ensures (kid : Nat) (kcb : Option KernelControlBlock) (state : Spinner Device) :
    Ensures (setKcb kid kcb) state
      (fun _ next => next = { state with kcbs_ := state.kcbs_.set kid kcb })
      (fun _ next => next = state) := by
  rw [ensures_iff]
  by_cases inside : kid < state.kcbs_.length
  · exact Or.inl ⟨(), _, by rw [setKcb, if_pos inside], rfl⟩
  · exact Or.inr ⟨.outOfRange, state, by rw [setKcb, if_neg inside], rfl⟩

theorem onAddressSpace_run {action : Action AddressSpaceManager Value} {value : Value}
    {aspace : AddressSpaceManager} (ran : action state.aspace_ = .ok value aspace) :
    onAddressSpace action state = .ok value { state with aspace_ := aspace } := by
  simp only [onAddressSpace, ran]

theorem onAddressSpace_returns {action : Action AddressSpaceManager Value} {value : Value}
    (ran : onAddressSpace action state = .ok value next) :
    ∃ aspace, action state.aspace_ = .ok value aspace ∧ next = { state with aspace_ := aspace } := by
  unfold onAddressSpace at ran
  split at ran
  · next result aspace done =>
      cases ran
      exact ⟨aspace, done, rfl⟩
  · cases ran

theorem onHeap_returns {kid : Nat} {action : Action HeapContext Value} {value : Value}
    (ran : onHeap kid action state = .ok value next) :
    ∃ kcb heap context, state.kcbs_[kid]? = some (some kcb) ∧ kcb.heap = some heap ∧
      action { heap := heap, aspace_ := state.aspace_ } = .ok value context ∧
      next = { state with
        kcbs_ := state.kcbs_.set kid (some { kcb with heap := some context.heap })
        aspace_ := context.aspace_ } := by
  obtain ⟨kcb, middle, found, rest⟩ := bind_returns ran
  obtain ⟨stored, same⟩ := kcbAt_returns found
  subst same
  cases has : kcb.heap with
  | none =>
      simp only [has] at rest
      cases rest
  | some heap =>
      simp only [has] at rest
      cases done : action { heap := heap, aspace_ := middle.aspace_ } with
      | ok result context =>
          rw [done] at rest
          cases rest
          exact ⟨kcb, heap, context, stored, has, done, rfl⟩
      | error fault context =>
          rw [done] at rest
          cases rest

/-- The block gets the heap manager back, however the call ends. -/
theorem onHeap_ensures {kid : Nat} {kcb : KernelControlBlock} {heap : HeapManager}
    {action : Action HeapContext Value} {returns : Value → HeapContext → Prop}
    {throws : Fault → HeapContext → Prop} (stored : state.kcbs_[kid]? = some (some kcb))
    (has : kcb.heap = some heap)
    (ensures : Ensures action { heap := heap, aspace_ := state.aspace_ } returns throws) :
    Ensures (onHeap kid action) state
      (fun value next => ∃ context, returns value context ∧ next = { state with
        kcbs_ := state.kcbs_.set kid (some { kcb with heap := some context.heap })
        aspace_ := context.aspace_ })
      (fun fault next => ∃ context, throws fault context ∧ next = { state with
        kcbs_ := state.kcbs_.set kid (some { kcb with heap := some context.heap })
        aspace_ := context.aspace_ }) := by
  rw [ensures_iff]
  cases ensures_iff.mp ensures with
  | inl returned =>
      obtain ⟨value, context, ran, holds⟩ := returned
      refine Or.inl ⟨value, _, ?_, context, holds, rfl⟩
      rw [onHeap, bind_ok (kcbAt_run stored)]
      simp only [has, ran]
  | inr thrown =>
      obtain ⟨fault, context, ran, holds⟩ := thrown
      refine Or.inr ⟨fault, _, ?_, context, holds, rfl⟩
      rw [onHeap, bind_ok (kcbAt_run stored)]
      simp only [has, ran]

end Access

section Kernels

theorem readVxbin_returns {files : Files} {vxbin_path : String} {content : List UInt8}
    (ran : readVxbin files vxbin_path state = .ok content next) :
    files vxbin_path = some content ∧ next = state := by
  cases onDisk : files vxbin_path with
  | none =>
      rw [readVxbin, onDisk] at ran
      cases ran
  | some bytes =>
      rw [readVxbin, onDisk] at ran
      cases ran
      exact ⟨rfl, rfl⟩

theorem readVxbin_run {files : Files} {vxbin_path : String} {content : List UInt8}
    (onDisk : files vxbin_path = some content) :
    readVxbin files vxbin_path state = .ok content state := by
  simp only [readVxbin, onDisk]
  rfl

theorem vxbinHeader_returns {content : List UInt8} {words : Nat × Nat}
    (ran : vxbinHeader content state = .ok words next) :
    16 ≤ content.length ∧ words = (ByteMemory.ofLittleEndian (content.take 8),
      ByteMemory.ofLittleEndian ((content.drop 8).take 8)) ∧ next = state := by
  unfold vxbinHeader at ran
  split at ran
  · cases ran
  · next long =>
      cases ran
      exact ⟨Nat.le_of_not_lt long, rfl, rfl⟩

theorem vxbinHeader_run {content : List UInt8} (whole : 16 ≤ content.length) :
    vxbinHeader content state = .ok (ByteMemory.ofLittleEndian (content.take 8),
      ByteMemory.ofLittleEndian ((content.drop 8).take 8)) state := by
  rw [vxbinHeader, if_neg (Nat.not_lt_of_le whole)]
  rfl

theorem pageAlignUp_aligned (value : Nat) : 4096 ∣ wrap32 (pageAlignUp value) := by
  have aligned : pageAlignUp value % 2 ^ 12 = 0 := by
    rw [pageAlignUp, Nat.and_mod_two_pow]
    have clear : not64 (PAGE_SIZE - 1) % 2 ^ 12 = 0 := by decide
    rw [clear, Nat.and_zero]
  unfold wrap32
  omega

def newKcb (pgtbl_pa : Nat) (vxbin_path : String) (size min_vma max_vma : Nat) :
    KernelControlBlock where
  top_pgtbl_pa := pgtbl_pa
  vxbin_path := vxbin_path
  vxbin_size := size - 2 * 8
  args_va := 0
  start_pc_va := 0x80000000
  kernel_end_va := wrap32 max_vma
  kernel_start_va := wrap32 min_vma
  heap := some (HeapManager.new pgtbl_pa (wrap32 (pageAlignUp max_vma)))

theorem allocateKernel_returns {files : Files} {vxbin_path : String} {kid : Nat}
    (ran : allocateKernel files vxbin_path state = .ok kid next) :
    ∃ pgtbl_pa aspace content min_vma max_vma, kid = state.kcbs_.allocate.1 ∧
      AddressSpaceManager.allocatePageTable state.aspace_ = .ok (some pgtbl_pa) aspace ∧
      files vxbin_path = some content ∧
      min_vma = ByteMemory.ofLittleEndian (content.take 8) ∧
      max_vma = ByteMemory.ofLittleEndian ((content.drop 8).take 8) ∧
      kid < state.kcbs_.allocate.2.length ∧
      next = { state with
        kcbs_ := state.kcbs_.allocate.2.set kid
          (some (newKcb pgtbl_pa vxbin_path content.length min_vma max_vma))
        aspace_ := aspace } := by
  obtain ⟨obtained, afterId, ranId, rest⟩ := bind_returns ran
  cases ranId
  obtain ⟨result, afterTable, ranTable, rest⟩ := bind_returns rest
  obtain ⟨aspace, created, same⟩ := onAddressSpace_returns ranTable
  subst same
  cases result with
  | none =>
      obtain ⟨_, _, _, rest⟩ := bind_returns rest
      cases rest
  | some pgtbl_pa =>
      obtain ⟨content, afterRead, ranRead, rest⟩ := bind_returns rest
      obtain ⟨onDisk, same⟩ := readVxbin_returns ranRead
      subst same
      obtain ⟨header, afterHeader, ranHeader, rest⟩ := bind_returns rest
      obtain ⟨_, words, same⟩ := vxbinHeader_returns ranHeader
      subst same words
      obtain ⟨_, afterStore, ranStore, rest⟩ := bind_returns rest
      obtain ⟨inside, stored⟩ := setKcb_returns ranStore
      cases rest
      exact ⟨pgtbl_pa, aspace, content, _, _, rfl, created, onDisk, rfl, rfl, inside, stored⟩

theorem Kcbs.allocate_inside (kcbs : Kcbs) : kcbs.allocate.1 < kcbs.allocate.2.length := by
  have low : ∀ index, wrap32 index ≤ index := fun index => Nat.mod_le index _
  unfold Kcbs.allocate
  cases empty : kcbs.findIdx? Option.isNone with
  | some slot =>
      obtain ⟨inside, _⟩ := List.findIdx?_eq_some_iff_getElem.mp empty
      exact Nat.lt_of_le_of_lt (low slot) inside
  | none =>
      change wrap32 kcbs.length < (kcbs ++ [some KernelControlBlock.empty]).length
      rw [List.length_append, List.length_singleton]
      exact Nat.lt_succ_of_le (low kcbs.length)

section Allocations

variable {files : Files} {vxbin_path : String} {content : List UInt8} {root : Nat}
  {aspace : AddressSpaceManager}

theorem allocateKernel_asked {result : Option Nat}
    (asked : AddressSpaceManager.allocatePageTable state.aspace_ = .ok result aspace) :
    allocateKcb state = .ok state.kcbs_.allocate.1 { state with kcbs_ := state.kcbs_.allocate.2 } ∧
      onAddressSpace AddressSpaceManager.allocatePageTable
        { state with kcbs_ := state.kcbs_.allocate.2 } =
          .ok result { state with kcbs_ := state.kcbs_.allocate.2, aspace_ := aspace } :=
  ⟨rfl, onAddressSpace_run asked⟩

theorem allocateKernel_noRoot
    (asked : AddressSpaceManager.allocatePageTable state.aspace_ = .ok none aspace) :
    allocateKernel files vxbin_path state =
      .error (.runtimeError "Failed to allocate page table for kernel")
        { state with
          kcbs_ := state.kcbs_.allocate.2.set state.kcbs_.allocate.1 none
          aspace_ := aspace } := by
  obtain ⟨obtained, refused⟩ := allocateKernel_asked asked
  have freed : freeKcb state.kcbs_.allocate.1
      { state with kcbs_ := state.kcbs_.allocate.2, aspace_ := aspace } = .ok ()
        { state with
          kcbs_ := state.kcbs_.allocate.2.set state.kcbs_.allocate.1 none
          aspace_ := aspace } := by
    rw [freeKcb, setKcb, if_pos (Kcbs.allocate_inside state.kcbs_)]
  rw [allocateKernel, bind_ok obtained, bind_ok refused]
  simp only
  rw [bind_ok freed]
  rfl

theorem allocateKernel_noFile
    (asked : AddressSpaceManager.allocatePageTable state.aspace_ = .ok (some root) aspace)
    (missing : files vxbin_path = none) :
    allocateKernel files vxbin_path state =
      .error (.runtimeError ("Error: " ++ vxbin_path ++ " not found"))
        { state with kcbs_ := state.kcbs_.allocate.2, aspace_ := aspace } := by
  obtain ⟨obtained, granted⟩ := allocateKernel_asked asked
  rw [allocateKernel, bind_ok obtained, bind_ok granted]
  simp only [readVxbin, missing]
  rfl

theorem allocateKernel_short
    (asked : AddressSpaceManager.allocatePageTable state.aspace_ = .ok (some root) aspace)
    (onDisk : files vxbin_path = some content) (short : content.length < 16) :
    allocateKernel files vxbin_path state = .error .undefinedBehaviour
      { state with kcbs_ := state.kcbs_.allocate.2, aspace_ := aspace } := by
  obtain ⟨obtained, granted⟩ := allocateKernel_asked asked
  rw [allocateKernel, bind_ok obtained, bind_ok granted]
  simp only
  rw [bind_ok (readVxbin_run onDisk), vxbinHeader, if_pos short]
  rfl

theorem allocateKernel_run
    (asked : AddressSpaceManager.allocatePageTable state.aspace_ = .ok (some root) aspace)
    (onDisk : files vxbin_path = some content) (whole : 16 ≤ content.length) :
    allocateKernel files vxbin_path state = .ok state.kcbs_.allocate.1
      { state with
        kcbs_ := state.kcbs_.allocate.2.set state.kcbs_.allocate.1
          (some (newKcb root vxbin_path content.length
            (ByteMemory.ofLittleEndian (content.take 8))
            (ByteMemory.ofLittleEndian ((content.drop 8).take 8))))
        aspace_ := aspace } := by
  obtain ⟨obtained, granted⟩ := allocateKernel_asked asked
  have stored : ∀ kcb, setKcb state.kcbs_.allocate.1 kcb
      { state with kcbs_ := state.kcbs_.allocate.2, aspace_ := aspace } = .ok ()
        { state with
          kcbs_ := state.kcbs_.allocate.2.set state.kcbs_.allocate.1 kcb
          aspace_ := aspace } := by
    intro kcb
    rw [setKcb, if_pos (Kcbs.allocate_inside state.kcbs_)]
  rw [allocateKernel, bind_ok obtained, bind_ok granted]
  simp only
  rw [bind_ok (readVxbin_run onDisk), bind_ok (vxbinHeader_run whole)]
  simp only
  rw [bind_ok (stored _)]
  rfl

end Allocations

theorem freeKernel_returns {kid : Nat} (ran : freeKernel kid state = .ok () next) :
    ∃ kcb aspace, state.kcbs_[kid]? = some (some kcb) ∧
      AddressSpaceManager.freePageTable kcb.top_pgtbl_pa state.aspace_ = .ok () aspace ∧
      next = { state with kcbs_ := state.kcbs_.set kid none, aspace_ := aspace } := by
  obtain ⟨kcb, afterRead, found, rest⟩ := bind_returns ran
  obtain ⟨stored, same⟩ := kcbAt_returns found
  subst same
  obtain ⟨_, afterFree, ranFree, rest⟩ := bind_returns rest
  obtain ⟨aspace, freed, same⟩ := onAddressSpace_returns ranFree
  subst same
  exact ⟨kcb, aspace, stored, freed, (setKcb_returns rest).2⟩

theorem allocateHeap_returns {kid size va : Nat} (ran : allocateHeap kid size state = .ok va next) :
    ∃ kcb heap context, state.kcbs_[kid]? = some (some kcb) ∧ kcb.heap = some heap ∧
      HeapManager.allocate size { heap := heap, aspace_ := state.aspace_ } =
        .ok (some va) context ∧
      next = { state with
        kcbs_ := state.kcbs_.set kid (some { kcb with heap := some context.heap })
        aspace_ := context.aspace_ } := by
  obtain ⟨result, middle, ranHeap, rest⟩ := bind_returns ran
  obtain ⟨some, same⟩ := valueOf_returns rest
  rw [some] at ranHeap
  rw [same]
  exact onHeap_returns ranHeap

theorem allocateHeap_run {kid size va : Nat} {kcb : KernelControlBlock} {heap : HeapManager}
    {context : HeapContext} (stored : state.kcbs_[kid]? = some (some kcb))
    (has : kcb.heap = some heap)
    (ran : HeapManager.allocate size { heap := heap, aspace_ := state.aspace_ } =
      .ok (some va) context) :
    allocateHeap kid size state = .ok va
      { state with
        kcbs_ := state.kcbs_.set kid (some { kcb with heap := some context.heap })
        aspace_ := context.aspace_ } := by
  have lifted : onHeap kid (HeapManager.allocate size) state = .ok (some va)
      { state with
        kcbs_ := state.kcbs_.set kid (some { kcb with heap := some context.heap })
        aspace_ := context.aspace_ } := by
    rw [onHeap, bind_ok (kcbAt_run stored)]
    simp only [has, ran]
  rw [allocateHeap, bind_ok lifted]
  rfl

theorem uploadArgs_returns {accelerator : HostAccelerator Device} {kid : Nat} {args : List UInt8}
    (ran : uploadArgs accelerator kid args state = .ok () next) :
    ∃ kcb heap va context, state.kcbs_[kid]? = some (some kcb) ∧ kcb.heap = some heap ∧
      HeapManager.allocate args.length { heap := heap, aspace_ := state.aspace_ } =
        .ok (some va) context ∧
      copyHostToDev accelerator kid va args
        { state with
          kcbs_ := state.kcbs_.set kid
            (some { kcb with heap := some context.heap, args_va := va })
          aspace_ := context.aspace_ } = .ok () next := by
  obtain ⟨result, allocated, ranHeap, afterHeap⟩ := bind_returns ran
  obtain ⟨args_va, valued, isSome, afterValue⟩ := bind_returns afterHeap
  obtain ⟨found, sameValued⟩ := valueOf_returns isSome
  obtain ⟨block, read, ranRead, afterRead⟩ := bind_returns afterValue
  obtain ⟨storedNow, sameRead⟩ := kcbAt_returns ranRead
  obtain ⟨_, written, ranStore, ranCopy⟩ := bind_returns afterRead
  obtain ⟨inside, writtenIs⟩ := setKcb_returns ranStore
  rw [found] at ranHeap
  obtain ⟨kcb, heap, context, stored, has, done, allocatedIs⟩ := onHeap_returns ranHeap
  have within : kid < state.kcbs_.length := (List.getElem?_eq_some_iff.mp stored).1
  rw [sameValued, allocatedIs, List.getElem?_set_self within] at storedNow
  cases storedNow
  rw [writtenIs, sameRead, sameValued, allocatedIs, List.set_set] at ranCopy
  exact ⟨kcb, heap, args_va, context, stored, has, done, ranCopy⟩

end Kernels

section Small

def emptyImage : List UInt8 :=
  ByteMemory.littleEndian 8 0x10000 ++ ByteMemory.littleEndian 8 0x10000

theorem allocateKernel_first {platform : Platform} (accelerator : HostAccelerator Device)
    (device : Device) {files : Files} {vxbin_path : String} {content : List UInt8} {root : Nat}
    {created : AddressSpaceManager} (onDisk : files vxbin_path = some content)
    (whole : 16 ≤ content.length)
    (ran : AddressSpaceManager.allocatePageTable (AddressSpaceManager.new platform
      ((accelerator.getCaps .localMemSize).getD 0)) = .ok (some root) created) :
    allocateKernel files vxbin_path (new platform accelerator device) = .ok 0
      { kcbs_ := [some (newKcb root vxbin_path content.length
          (ByteMemory.ofLittleEndian (content.take 8))
          (ByteMemory.ofLittleEndian ((content.drop 8).take 8)))]
        aspace_ := created
        device := device } := by
  exact @allocateKernel_run Device (new platform accelerator device) files vxbin_path content root
    created ran onDisk whole

theorem smallPlatform_kernel (accelerator : HostAccelerator Device)
    (noLocalMemory : accelerator.getCaps .localMemSize = none) (device : Device)
    {created : AddressSpaceManager}
    (ran : AddressSpaceManager.allocatePageTable (AddressSpaceManager.new smallPlatform 0) =
      .ok (some 0x1000) created) :
    allocateKernel (fun _ => some emptyImage) "kernel" (new smallPlatform accelerator device) =
      .ok 0
        { kcbs_ := [some (newKcb 0x1000 "kernel" 16 0x10000 0x10000)]
          aspace_ := created
          device := device } := by
  apply @allocateKernel_first _ _ accelerator device (fun _ => some emptyImage) "kernel" emptyImage
    0x1000 created rfl (by decide)
  rw [noLocalMemory]
  exact ran

end Small

end Espiral.Spinner
