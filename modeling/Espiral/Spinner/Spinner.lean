import Mathlib.Data.Nat.Log
import Espiral.Accelerator.HostAccelerator
import Espiral.Mm.HeapManager

/-!
# Spinner

Kernels, their control blocks and their data on the device. A control block
owns its heap manager, so the heap is part of the block here. Files are what
the file system holds at the time of a call. Assertions are compiled out, as in
a release build, and log output is left out.
-/

namespace Espiral

set_option autoImplicit false

open ByteMemory MachineWords

structure KernelControlBlock where
  top_pgtbl_pa : Nat
  vxbin_path : String
  vxbin_size : Nat
  args_va : Nat
  start_pc_va : Nat
  kernel_end_va : Nat
  kernel_start_va : Nat
  heap : Option HeapManager

def KernelControlBlock.empty : KernelControlBlock where
  top_pgtbl_pa := 0
  vxbin_path := ""
  vxbin_size := 0
  args_va := 0
  start_pc_va := 0
  kernel_end_va := 0
  kernel_start_va := 0
  heap := none

abbrev Kcbs := List (Option KernelControlBlock)

namespace Kcbs

/-- The first empty slot, or a new one that is filled at once. -/
def allocate (kcbs : Kcbs) : Nat × Kcbs :=
  match kcbs.findIdx? Option.isNone with
  | some i => (wrap32 i, kcbs)
  | none => (wrap32 kcbs.length, kcbs ++ [some KernelControlBlock.empty])

end Kcbs

structure Spinner (Device : Type) where
  kcbs_ : Kcbs
  aspace_ : AddressSpaceManager
  device : Device

abbrev Files := String → Option (List UInt8)

namespace Spinner

variable {Device : Type}

def new (platform : Platform) (accelerator : HostAccelerator Device) (device : Device) :
    Spinner Device where
  kcbs_ := []
  aspace_ := .new platform ((accelerator.getCaps .localMemSize).getD 0)
  device := device

section Access

/-- `std::optional::value`. -/
def valueOf {Value : Type} : Option Value → Action (Spinner Device) Value
  | some value => pure value
  | none => throw .badOptionalAccess

/-- `kcbs_.at(kid).value()`. -/
def kcbAt (kid : Nat) : Action (Spinner Device) KernelControlBlock := fun self =>
  match self.kcbs_[kid]? with
  | none => .error .outOfRange self
  | some none => .error .badOptionalAccess self
  | some (some kcb) => .ok kcb self

def setKcb (kid : Nat) (kcb : Option KernelControlBlock) : Action (Spinner Device) Unit :=
  fun self =>
    if kid < self.kcbs_.length then .ok () { self with kcbs_ := self.kcbs_.set kid kcb }
    else .error .outOfRange self

def onAddressSpace {Value : Type} (action : Action AddressSpaceManager Value) :
    Action (Spinner Device) Value := fun self =>
  match action self.aspace_ with
  | .ok value aspace => .ok value { self with aspace_ := aspace }
  | .error fault aspace => .error fault { self with aspace_ := aspace }

/-- A call of the heap manager of a kernel; the block of an unfinished kernel has none. -/
def onHeap {Value : Type} (kid : Nat) (action : Action HeapContext Value) :
    Action (Spinner Device) Value := do
  let kcb ← kcbAt kid
  match kcb.heap with
  | none => throw .undefinedBehaviour
  | some heap => fun self =>
      match action { heap := heap, aspace_ := self.aspace_ } with
      | .ok value next =>
          .ok value { self with
            kcbs_ := self.kcbs_.set kid (some { kcb with heap := some next.heap })
            aspace_ := next.aspace_ }
      | .error fault next =>
          .error fault { self with
            kcbs_ := self.kcbs_.set kid (some { kcb with heap := some next.heap })
            aspace_ := next.aspace_ }

/-- The return code of the accelerator is not looked at. -/
def accelUpload (accelerator : HostAccelerator Device) (addr : Nat) (bytes : List UInt8) :
    Action (Spinner Device) Unit := fun self =>
  .ok () { self with device := (accelerator.upload addr bytes self.device).2 }

def accelDownload (accelerator : HostAccelerator Device) (dest : List UInt8) (addr : Nat) :
    Action (Spinner Device) (List UInt8) := fun self =>
  let (_, bytes, device) := accelerator.download dest addr self.device
  .ok bytes { self with device := device }

end Access

section ControlBlocks

def allocateKcb : Action (Spinner Device) Nat := fun self =>
  let (kid, kcbs) := self.kcbs_.allocate
  .ok kid { self with kcbs_ := kcbs }

def freeKcb (kid : Nat) : Action (Spinner Device) Unit := setKcb kid none

end ControlBlocks

section Transfers

/-- The loop of `copy_host_to_dev_`; every chunk has at least one byte. -/
def copyChunksToDev (accelerator : HostAccelerator Device) (top_pgtbl_pa : Nat)
    (content : List UInt8) : Nat → Nat → Nat → Action (Spinner Device) Unit
  | 0, _, _ => throw .nonTermination
  | fuel + 1, base_va, offset =>
      if offset < content.length then do
        let page_off := base_va &&& (PAGE_SIZE - 1)
        let chunk_size := min (PAGE_SIZE - page_off) (content.length - offset)
        let pa ← valueOf (← onAddressSpace (AddressSpaceManager.translate base_va top_pgtbl_pa))
        accelUpload accelerator pa ((content.drop offset).take chunk_size)
        copyChunksToDev accelerator top_pgtbl_pa content fuel (wrap32 (base_va + chunk_size))
          (offset + chunk_size)
      else pure ()

def copyHostToDev (accelerator : HostAccelerator Device) (kid base_va : Nat)
    (content : List UInt8) : Action (Spinner Device) Unit := do
  let kcb ← kcbAt kid
  copyChunksToDev accelerator kcb.top_pgtbl_pa content (content.length + 1) base_va 0

/-- The loop of `copy_dev_to_host_`; `dest` is the whole destination. -/
def copyChunksToHost (accelerator : HostAccelerator Device) (top_pgtbl_pa : Nat) :
    Nat → Nat → Nat → List UInt8 → Action (Spinner Device) (List UInt8)
  | 0, _, _, _ => throw .nonTermination
  | fuel + 1, va, offset, dest =>
      if offset < dest.length then do
        let page_off := va &&& (PAGE_SIZE - 1)
        let chunk_size := min (PAGE_SIZE - page_off) (dest.length - offset)
        let pa ← valueOf (← onAddressSpace (AddressSpaceManager.translate va top_pgtbl_pa))
        let chunk ← accelDownload accelerator ((dest.drop offset).take chunk_size) pa
        copyChunksToHost accelerator top_pgtbl_pa fuel (wrap32 (va + chunk_size))
          (offset + chunk_size)
          (dest.take offset ++ chunk ++ dest.drop (offset + chunk_size))
      else pure dest

def copyDevToHost (accelerator : HostAccelerator Device) (kid va : Nat) (dest : List UInt8) :
    Action (Spinner Device) (List UInt8) := do
  let kcb ← kcbAt kid
  copyChunksToHost accelerator kcb.top_pgtbl_pa (dest.length + 1) va 0 dest

def upload (accelerator : HostAccelerator Device) (kid va : Nat) (content : List UInt8) :
    Action (Spinner Device) Unit := copyHostToDev accelerator kid (wrap32 va) content

def download (accelerator : HostAccelerator Device) (kid va : Nat) (dest : List UInt8) :
    Action (Spinner Device) (List UInt8) := copyDevToHost accelerator kid (wrap32 va) dest

end Transfers

section Kernels

def readVxbin (files : Files) (vxbin_path : String) : Action (Spinner Device) (List UInt8) :=
  match files vxbin_path with
  | some content => pure content
  | none => throw (.runtimeError ("Error: " ++ vxbin_path ++ " not found"))

/-- The two words in front of the image; a shorter file is read past its end. -/
def vxbinHeader (content : List UInt8) : Action (Spinner Device) (Nat × Nat) :=
  if content.length < 16 then throw .undefinedBehaviour
  else pure (ofLittleEndian (content.take 8), ofLittleEndian ((content.drop 8).take 8))

/-- `(value + PAGE_SIZE - 1) & ~(PAGE_SIZE - 1)` in 64 bits. -/
def pageAlignUp (value : Nat) : Nat :=
  wrap64 (value + PAGE_SIZE - 1) &&& not64 (PAGE_SIZE - 1)

/-- `addr & ~(PAGE_SIZE - 1)`. -/
def pageAlignDown (addr : Nat) : Nat := addr &&& not64 (PAGE_SIZE - 1)

def allocateKernel (files : Files) (vxbin_path : String) : Action (Spinner Device) Nat := do
  let kid ← allocateKcb
  match ← onAddressSpace AddressSpaceManager.allocatePageTable with
  | none =>
      freeKcb kid
      throw (.runtimeError "Failed to allocate page table for kernel")
  | some pgtbl_pa =>
      let vxbin_content ← readVxbin files vxbin_path
      let (min_vma, max_vma) ← vxbinHeader vxbin_content
      setKcb kid (some
        { top_pgtbl_pa := pgtbl_pa
          vxbin_path := vxbin_path
          vxbin_size := vxbin_content.length - 2 * 8
          args_va := 0
          start_pc_va := 0x80000000
          kernel_end_va := wrap32 max_vma
          kernel_start_va := wrap32 min_vma
          heap := some (HeapManager.new pgtbl_pa (wrap32 (pageAlignUp max_vma))) })
      pure kid

def freeKernel (kid : Nat) : Action (Spinner Device) Unit := do
  let kcb ← kcbAt kid
  onAddressSpace (AddressSpaceManager.freePageTable kcb.top_pgtbl_pa)
  freeKcb kid

def allocateHeap (kid size : Nat) : Action (Spinner Device) Nat := do
  valueOf (← onHeap kid (HeapManager.allocate size))

def uploadArgs (accelerator : HostAccelerator Device) (kid : Nat) (args : List UInt8) :
    Action (Spinner Device) Unit := do
  let args_va ← valueOf (← onHeap kid (HeapManager.allocate args.length))
  let kcb ← kcbAt kid
  setKcb kid (some { kcb with args_va := args_va })
  copyHostToDev accelerator kid args_va args

end Kernels

section Starting

def codeFlags : Nat := PteFlags.R ||| PteFlags.X ||| PteFlags.U ||| PteFlags.A

def dataFlags : Nat := PteFlags.R ||| PteFlags.W ||| PteFlags.U ||| PteFlags.A ||| PteFlags.D

def sharedFlags : Nat :=
  PteFlags.R ||| PteFlags.W ||| PteFlags.X ||| PteFlags.U ||| PteFlags.A ||| PteFlags.D

/-- The mapping part of `allocate_vxbin_segments_`, on the fields of the block. -/
def mapVxbinSegments (top_pgtbl_pa min_vma max_vma bin_size : Nat) :
    Action AddressSpaceManager Unit :=
  let code_end := wrap32 (min_vma + bin_size)
  let has_data := decide (max_vma > code_end)
  let last_code_page := pageAlignDown (wrap32 (code_end + (2 ^ 32 - 1)))
  let shared_boundary := has_data && decide (last_code_page = pageAlignDown code_end)
  if shared_boundary then do
    if last_code_page > min_vma then
      AddressSpaceManager.allocateVmPages min_vma (last_code_page - min_vma) top_pgtbl_pa
        sharedFlags
    AddressSpaceManager.allocateOneVmPage last_code_page top_pgtbl_pa sharedFlags
    let next_page := wrap32 (last_code_page + PAGE_SIZE)
    if max_vma > next_page then
      AddressSpaceManager.allocateVmPages next_page (max_vma - next_page) top_pgtbl_pa dataFlags
  else do
    let code_size_aligned := wrap32 (pageAlignUp bin_size)
    AddressSpaceManager.allocateVmPages min_vma code_size_aligned top_pgtbl_pa codeFlags
    let data_va := wrap32 (min_vma + code_size_aligned)
    if has_data && decide (max_vma > data_va) then
      AddressSpaceManager.allocateVmPages data_va (max_vma - data_va) top_pgtbl_pa dataFlags

def allocateVxbinSegments (kid : Nat) : Action (Spinner Device) Unit := do
  let kcb ← kcbAt kid
  onAddressSpace (mapVxbinSegments kcb.top_pgtbl_pa kcb.kernel_start_va kcb.kernel_end_va
    kcb.vxbin_size)

def allocateLocalMemory (platform : Platform) (accelerator : HostAccelerator Device) (kid : Nat) :
    Action (Spinner Device) Unit := do
  let kcb ← kcbAt kid
  let lmem_size := (accelerator.getCaps .localMemSize).getD 0
  if lmem_size = 0 then pure ()
  else
    onAddressSpace (AddressSpaceManager.unsafeMapIdentity platform.LMEM_BASE_ADDR
      (wrap32 lmem_size) kcb.top_pgtbl_pa dataFlags)

/-- The stack size for all hart ids; the number of cores is fixed. -/
def stackSize64 (platform : Platform) (num_threads num_warps : Nat) : Nat :=
  let num_cores := 4
  let nt_bits := Nat.clog 2 num_threads
  let nw_bits := Nat.clog 2 num_warps
  let max_hartid := wrap64 ((num_cores - 1) <<< (nw_bits + nt_bits) +
    (num_warps - 1) <<< nt_bits + (num_threads - 1))
  wrap64 (1 <<< platform.STACK_LOG2_SIZE * wrap64 (max_hartid + 1))

/-- The logarithm of no threads or no warps is infinite and has no integer value. -/
def allocateUserStack (platform : Platform) (accelerator : HostAccelerator Device) (kid : Nat) :
    Action (Spinner Device) Unit := do
  let kcb ← kcbAt kid
  let num_threads := wrap32 ((accelerator.getCaps .numThreads).getD platform.NUM_THREADS)
  let num_warps := wrap32 ((accelerator.getCaps .numWarps).getD platform.NUM_WARPS)
  if num_threads = 0 ∨ num_warps = 0 then throw .undefinedBehaviour
  else
    let stack_size_64 := stackSize64 platform num_threads num_warps
    let user_stack_start_va := sub64 platform.STACK_BASE_ADDR stack_size_64
    onAddressSpace (AddressSpaceManager.allocateVmPages (wrap32 user_stack_start_va)
      (wrap32 stack_size_64) kcb.top_pgtbl_pa dataFlags)

def allocateIoPages (platform : Platform) (kid : Nat) : Action (Spinner Device) Unit := do
  let kcb ← kcbAt kid
  onAddressSpace (AddressSpaceManager.unsafeMapIdentity platform.IO_BASE_ADDR
    (wrap32 (platform.IO_END_ADDR - platform.IO_BASE_ADDR)) kcb.top_pgtbl_pa dataFlags)

def uploadVxbin (accelerator : HostAccelerator Device) (files : Files) (kid : Nat) :
    Action (Spinner Device) Unit := do
  let kcb ← kcbAt kid
  let vxbin_content ← readVxbin files kcb.vxbin_path
  let (min_vma, _) ← vxbinHeader vxbin_content
  copyHostToDev accelerator kid (wrap32 min_vma) (vxbin_content.drop (2 * 8))

def uploadSparseScratchpad (accelerator : HostAccelerator Device) (kid : Nat)
    (data : SparseScratchpad) : Action (Spinner Device) Unit := do
  let _ ← kcbAt kid
  data.forM fun (pa, content) => accelUpload accelerator pa content

/-- `order` is the order in which the dumped map happens to be iterated. -/
def uploadPageTable (accelerator : HostAccelerator Device)
    (order : SparseScratchpad → SparseScratchpad) (kid : Nat) : Action (Spinner Device) Unit := do
  let kcb ← kcbAt kid
  let pt_content ← onAddressSpace (AddressSpaceManager.dumpPageTable kcb.top_pgtbl_pa)
  uploadSparseScratchpad accelerator kid (order pt_content)

def accelStart (accelerator : HostAccelerator Device) (kid : Nat) :
    Action (Spinner Device) Unit := do
  let kcb ← kcbAt kid
  fun self => .ok ()
    { self with
      device := (accelerator.start kcb.start_pc_va kcb.args_va kcb.top_pgtbl_pa self.device).2 }

def startKernel (platform : Platform) (accelerator : HostAccelerator Device)
    (order : SparseScratchpad → SparseScratchpad) (files : Files) (kid : Nat) :
    Action (Spinner Device) Unit := do
  allocateVxbinSegments kid
  allocateLocalMemory platform accelerator kid
  allocateUserStack platform accelerator kid
  allocateIoPages platform kid
  uploadVxbin accelerator files kid
  uploadPageTable accelerator order kid
  let kcb ← kcbAt kid
  let _ ← onAddressSpace (AddressSpaceManager.dumpAddressMapping kcb.top_pgtbl_pa)
  accelStart accelerator kid

end Starting

end Spinner

end Espiral
