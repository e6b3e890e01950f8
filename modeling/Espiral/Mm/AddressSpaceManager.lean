import Espiral.Allocator.VortexMemoryAllocator
import Espiral.Mm.HoleList
import Espiral.Mm.Pte
import Espiral.Mm.ScratchpadMemory

/-!
# Address space manager

Two-level page tables for all kernels, kept in the scratchpad. The source runs
each operation under locks, so one operation is one step here. `history` is
the only field the source does not have: it records which tables were created
and freed and which mappings succeeded, newest first, and nothing reads it.
-/

namespace Espiral

set_option autoImplicit false

open ByteMemory MachineWords

inductive MappingEvent where
  | created (root : Nat)
  | mapped (root va pa flags : Nat)
  | freed (root : Nat)
  deriving DecidableEq, Repr

structure AddressSpaceManager where
  page_allocator_ : VortexMemoryAllocator
  scratchpad_ : ScratchpadMemory
  hole_list_ : HoleList
  history : List MappingEvent

/-- A dumped page table: node address and content, each address once. -/
abbrev SparseScratchpad := List (Nat × List UInt8)

def SparseScratchpad.insert (pa : Nat) (content : List UInt8) (dump : SparseScratchpad) :
    SparseScratchpad :=
  (pa, content) :: dump.filter fun node => node.1 ≠ pa

namespace AddressSpaceManager

/-- The constructor; the second argument is the local memory size the accelerator
reports, zero if it reports none. -/
def new (platform : Platform) (localMemSize : Nat) : AddressSpaceManager where
  page_allocator_ :=
    .initBlockAlignment platform.CACHE_BLOCK_SIZE
      (.initPageAlignment platform.MEM_PAGE_SIZE
        (.initCapacity (platform.GLOBAL_MEM_SIZE - platform.ALLOC_BASE_ADDR)
          (.initBaseAddress platform.ALLOC_BASE_ADDR .new)))
  scratchpad_ := .empty
  hole_list_ :=
    .addHole platform.LMEM_BASE_ADDR localMemSize
      (.addHole platform.IO_BASE_ADDR (platform.IO_END_ADDR - platform.IO_BASE_ADDR) .empty)
  history := []

def onAllocator {Value : Type} (action : Action VortexMemoryAllocator Value) :
    Action AddressSpaceManager Value := fun self =>
  match action self.page_allocator_ with
  | .ok value page_allocator => .ok value { self with page_allocator_ := page_allocator }
  | .error fault page_allocator => .error fault { self with page_allocator_ := page_allocator }

def record (event : MappingEvent) : Action AddressSpaceManager Unit := fun self =>
  .ok () { self with history := event :: self.history }

def readScratchpad (addr size : Nat) : Action AddressSpaceManager (List UInt8) := fun self =>
  let (bytes, scratchpad) := self.scratchpad_.read addr size
  .ok bytes { self with scratchpad_ := scratchpad }

def writeScratchpad (addr : Nat) (data : List UInt8) : Action AddressSpaceManager Unit :=
  fun self => .ok () { self with scratchpad_ := self.scratchpad_.write addr data }

def addrInHole (addr : Nat) : Action AddressSpaceManager Bool := fun self =>
  .ok (self.hole_list_.addrInHole addr) self

def readPte (addr : Nat) : Action AddressSpaceManager Nat := do
  let bytes ← readScratchpad addr PTE_SIZE
  pure (ofLittleEndian bytes)

def writePte (addr pte : Nat) : Action AddressSpaceManager Unit :=
  writeScratchpad addr (littleEndian PTE_SIZE pte)

def zeroNode : List UInt8 := List.replicate PAGE_SIZE 0

def pteIn (node : List UInt8) (index : Nat) : Nat :=
  ofLittleEndian ((node.drop (index * PTE_SIZE)).take PTE_SIZE)

def entryIndices : List Nat := List.range (PAGE_SIZE / PTE_SIZE)

def allocateOnePage : Action AddressSpaceManager (Option Nat) := do
  match ← onAllocator (VortexMemoryAllocator.allocate PAGE_SIZE) with
  | none => pure none
  | some pa =>
      if ← addrInHole pa then onAllocator (VortexMemoryAllocator.allocate PAGE_SIZE)
      else pure (some pa)

def releaseOnePage (addr : Nat) : Action AddressSpaceManager Unit := do
  if ← addrInHole addr then pure ()
  else
    let _ ← onAllocator (VortexMemoryAllocator.release addr)
    pure ()

def allocatePageTableNode : Action AddressSpaceManager (Option Nat) := do
  let addr_64 := (← allocateOnePage).getD 0
  pure (if addr_64 ≠ 0 then some addr_64 else none)

def allocatePageTable : Action AddressSpaceManager (Option Nat) := do
  match ← allocatePageTableNode with
  | some pgtbl_pa =>
      writeScratchpad pgtbl_pa zeroNode
      record (.created pgtbl_pa)
      pure (some pgtbl_pa)
  | none => pure none

/-- The loop of `page_table_walk`, from `level - 1` down to zero. -/
def walkFrom (va : Nat) : Nat → Nat → Action AddressSpaceManager Nat
  | 0, _ => throw (.pageFault "No leaf PTE found after walking all levels")
  | level + 1, current_pa => do
      let pte_addr := wrap32 (current_pa + vaVpn va level * PTE_SIZE)
      let pte ← readPte pte_addr
      if !pteValid pte then throw (.pageFault "Invalid PTE: valid bit not set")
      else if !pteReadable pte && pteWritable pte then
        throw (.pageFault "Invalid PTE: W set without R")
      else if pteIsLeaf pte then
        if !pteReadable pte then throw (.pageFault "Leaf PTE not readable")
        else if level > 0 then
          let ppn_low_mask := 1 <<< (level * VPN_BITS) - 1
          if ptePpn pte &&& ppn_low_mask ≠ 0 then throw (.pageFault "Misaligned superpage")
          else
            let offset_mask := 1 <<< (12 + level * VPN_BITS) - 1
            pure ((ptePa pte &&& (2 ^ 32 - 1 - offset_mask)) ||| (va &&& offset_mask))
        else pure (ptePa pte ||| vaPgoff va)
      else walkFrom va level (ptePa pte)

def pageTableWalk (va root_pa : Nat) : Action AddressSpaceManager Nat :=
  walkFrom va PT_LEVELS root_pa

/-- Page faults become an empty result; nothing else is caught. -/
def translate (va top_pgtbl_pa : Nat) : Action AddressSpaceManager (Option Nat) := fun self =>
  match pageTableWalk va top_pgtbl_pa self with
  | .ok pa self => .ok (some pa) self
  | .error (.pageFault _) self => .ok none self
  | .error fault self => .error fault self

def descend (va : Nat) : Nat → Nat → Action AddressSpaceManager Nat
  | 0, current_pa => pure current_pa
  | level + 1, current_pa => do
      let pte_addr := wrap32 (current_pa + vaVpn va (level + 1) * PTE_SIZE)
      let pte ← readPte pte_addr
      if !pteValid pte then
        match ← allocatePageTableNode with
        | none => throw (.runtimeError "Failed to allocate page table node")
        | some new_pa =>
            writeScratchpad new_pa zeroNode
            let pte := makePte new_pa PteFlags.V
            writePte pte_addr pte
            descend va level (ptePa pte)
      else descend va level (ptePa pte)

def mapAddrInner (va pa top_pgtbl_pa flags : Nat) : Action AddressSpaceManager Unit := do
  let current_pa ← descend va (PT_LEVELS - 1) top_pgtbl_pa
  let pte_addr := wrap32 (current_pa + vaVpn va 0 * PTE_SIZE)
  let leaf_pte := makePte pa (flags ||| PteFlags.V ||| PteFlags.A ||| PteFlags.D)
  let existing ← readPte pte_addr
  if pteValid existing then
    let _ ← readPte pte_addr
    let _ ← translate va top_pgtbl_pa
    throw (.runtimeError "Virtual address already mapped")
  else
    writePte pte_addr leaf_pte
    record (.mapped top_pgtbl_pa va pa flags)

/-- The page loops of this class. The offset is a 32-bit counter, so it may wrap;
the fuel covers every offset once and the first one again. -/
def forPages (size : Nat) (body : Nat → Action AddressSpaceManager Unit) :
    Nat → Nat → Action AddressSpaceManager Unit
  | 0, _ => throw .nonTermination
  | fuel + 1, offset =>
      if offset < size then do
        body offset
        forPages size body fuel (wrap32 (offset + PAGE_SIZE))
      else pure ()

def pageLoopFuel : Nat := 2 ^ 20 + 2

def unsafeMapIdentity (addr size top_pgtbl_pa flags : Nat) : Action AddressSpaceManager Unit :=
  forPages size (fun offset =>
    mapAddrInner (wrap32 (addr + offset)) (wrap32 (addr + offset)) top_pgtbl_pa flags)
    pageLoopFuel 0

def allocateOneVmPage (va top_pgtbl_pa flags : Nat) : Action AddressSpaceManager Unit := do
  let pa := (← allocateOnePage).getD 0
  if pa = 0 then throw (.runtimeError "Failed to allocate physical page for VM")
  else mapAddrInner va pa top_pgtbl_pa flags

def allocateVmPages (va size top_pgtbl_pa flags : Nat) : Action AddressSpaceManager Unit :=
  forPages size (fun offset => allocateOneVmPage (wrap32 (va + offset)) top_pgtbl_pa flags)
    pageLoopFuel 0

/-- The first argument is the level plus one; a negative level returns at once. -/
def freePageTableInner : Nat → Nat → Action AddressSpaceManager Unit
  | 0, _ => pure ()
  | level + 1, pa => do
      let page_data ← readScratchpad pa PAGE_SIZE
      entryIndices.forM fun index => do
        let pte := pteIn page_data index
        if pteValid pte then
          if !pteIsLeaf pte then freePageTableInner level (ptePa pte)
          else releaseOnePage (ptePa pte)
        else pure ()
      releaseOnePage pa

def freePageTable (top_pgtbl_pa : Nat) : Action AddressSpaceManager Unit := do
  freePageTableInner PT_LEVELS top_pgtbl_pa
  record (.freed top_pgtbl_pa)

/-- The recursion is bounded by the shape of the table only; the first argument
bounds its depth here. -/
def dumpPageTableInner : Nat → Nat → SparseScratchpad → Action AddressSpaceManager SparseScratchpad
  | 0, _, _ => throw .nonTermination
  | depth + 1, root_pa, dump => do
      let current_node ← readScratchpad root_pa PAGE_SIZE
      entryIndices.foldlM (fun dump index =>
        let pte := pteIn current_node index
        if pteValid pte && !pteIsLeaf pte then dumpPageTableInner depth (ptePa pte) dump
        else pure dump) (dump.insert root_pa current_node)

def dumpDepth : Nat := 2 ^ 20

def dumpPageTable (top_pgtbl_pa : Nat) : Action AddressSpaceManager SparseScratchpad :=
  dumpPageTableInner dumpDepth top_pgtbl_pa []

/-- The first argument is the level plus two; below level minus one the shift is too wide to have
a defined outcome. -/
def dumpAddressMappingInner : Nat → Nat → Nat → List (Nat × Nat) →
    Action AddressSpaceManager (List (Nat × Nat))
  | 0, node_pa, _, mapping => do
      let current_node ← readScratchpad node_pa PAGE_SIZE
      if entryIndices.any fun index => pteValid (pteIn current_node index) then
        throw .undefinedBehaviour
      else pure mapping
  | level + 1, node_pa, va_prefix, mapping => do
      let current_node ← readScratchpad node_pa PAGE_SIZE
      entryIndices.foldlM (fun mapping vpn_idx =>
        let pte := pteIn current_node vpn_idx
        if pteValid pte then
          let va := va_prefix ||| wrap32 (vpn_idx <<< (2 + level * VPN_BITS))
          if pteIsLeaf pte then pure (mapping ++ [(va, ptePa pte)])
          else dumpAddressMappingInner level (ptePa pte) va mapping
        else pure mapping) mapping

def dumpAddressMapping (top_pgtbl_pa : Nat) : Action AddressSpaceManager (List (Nat × Nat)) :=
  dumpAddressMappingInner (PT_LEVELS + 1) top_pgtbl_pa 0 []

end AddressSpaceManager

end Espiral
