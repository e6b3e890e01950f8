import Espiral.Library.IntrusiveLists
import Espiral.Library.MachineWords

/-!
# Pages of the block allocator

A page owns the blocks it is divided into. Every block carries three pairs of
link fields and is on the used list or on both free lists. Block pointers are
indices into the page's own store: a block is created in one page and never
moves to another. `created` counts the blocks the page has ever allocated and
bounds every list walk.
-/

namespace Espiral.VortexMemoryAllocator

set_option autoImplicit false

open IntrusiveLists MachineWords

structure Block where
  nextFreeS : Option Ptr
  prevFreeS : Option Ptr
  nextFreeM : Option Ptr
  prevFreeM : Option Ptr
  nextUsed : Option Ptr
  prevUsed : Option Ptr
  addr : Nat
  size : Nat

def Block.new (addr size : Nat) : Block where
  nextFreeS := none
  prevFreeS := none
  nextFreeM := none
  prevFreeM := none
  nextUsed := none
  prevUsed := none
  addr := addr
  size := size

def usedLink : Link Block where
  next := Block.nextUsed
  prev := Block.prevUsed
  setNext target block := { block with nextUsed := target }
  setPrev target block := { block with prevUsed := target }
  next_setNext _ _ := rfl
  next_setPrev _ _ := rfl
  prev_setPrev _ _ := rfl
  prev_setNext _ _ := rfl

def freeMLink : Link Block where
  next := Block.nextFreeM
  prev := Block.prevFreeM
  setNext target block := { block with nextFreeM := target }
  setPrev target block := { block with prevFreeM := target }
  next_setNext _ _ := rfl
  next_setPrev _ _ := rfl
  prev_setPrev _ _ := rfl
  prev_setNext _ _ := rfl

def freeSLink : Link Block where
  next := Block.nextFreeS
  prev := Block.prevFreeS
  setNext target block := { block with nextFreeS := target }
  setPrev target block := { block with prevFreeS := target }
  next_setNext _ _ := rfl
  next_setPrev _ _ := rfl
  prev_setPrev _ _ := rfl
  prev_setNext _ _ := rfl

structure Page where
  addr : Nat
  size : Nat
  blockAlign_ : Nat
  blocks : Store Block
  created : Nat
  usedList_ : Option Ptr
  freeSList_ : Option Ptr
  freeMList_ : Option Ptr

namespace Page

def new (addr size blockAlign : Nat) : Page where
  addr := addr
  size := size
  blockAlign_ := blockAlign
  blocks := fun _ => Block.new addr size
  created := 1
  usedList_ := none
  freeSList_ := some 0
  freeMList_ := some 0

def empty (page : Page) : Bool := page.usedList_.isNone

def destructorAsserts (page : Page) : Bool :=
  page.usedList_.isNone &&
    match page.freeMList_ with
    | none => false
    | some block =>
        (page.blocks block).nextFreeM.isNone && (page.blocks block).prevFreeM.isNone

def setSize (page : Page) (block : Ptr) (size : Nat) : Page :=
  { page with blocks := page.blocks.modify block fun content => { content with size := size } }

def newBlock (page : Page) (addr size : Nat) : Ptr × Page :=
  (page.created,
    { page with
      blocks := page.blocks.modify page.created fun _ => Block.new addr size
      created := page.created + 1 })

def insertUsedList (page : Page) (block : Ptr) : Page :=
  let (blocks, head) := pushFront usedLink page.blocks page.usedList_ block
  { page with blocks := blocks, usedList_ := head }

def removeUsedList (page : Page) (block : Ptr) : Page :=
  let (blocks, head) := unlink usedLink page.blocks page.usedList_ block
  { page with blocks := blocks, usedList_ := head }

/-- The M-list is kept in increasing address order. -/
def insertFreeMList (page : Page) (block : Ptr) : Page :=
  let (blocks, head) := insertWhere freeMLink page.blocks page.freeMList_
    (fun currBlock => currBlock.addr < (page.blocks block).addr) page.created block
  { page with blocks := blocks, freeMList_ := head }

def removeFreeMList (page : Page) (block : Ptr) : Page :=
  let (blocks, head) := unlink freeMLink page.blocks page.freeMList_ block
  { page with blocks := blocks, freeMList_ := head }

/-- The S-list is kept in decreasing size order, a new block ahead of its equals. -/
def insertFreeSList (page : Page) (block : Ptr) : Page :=
  let (blocks, head) := insertWhere freeSLink page.blocks page.freeSList_
    (fun currBlock => currBlock.size > (page.blocks block).size) page.created block
  { page with blocks := blocks, freeSList_ := head }

def removeFreeSList (page : Page) (block : Ptr) : Page :=
  let (blocks, head) := unlink freeSLink page.blocks page.freeSList_ block
  { page with blocks := blocks, freeSList_ := head }

def splitRemainder (page : Page) (size extraBytes : Nat) (freeBlock : Ptr) : Page :=
  let page := page.setSize freeBlock size
  let nextAddr := add64 (page.blocks freeBlock).addr size
  let (newBlock, page) := page.newBlock nextAddr extraBytes
  (page.insertFreeMList newBlock).insertFreeSList newBlock

def allocate (page : Page) (size : Nat) (freeBlock : Ptr) : Page :=
  let page := (page.removeFreeMList freeBlock).removeFreeSList freeBlock
  let extraBytes := sub64 (page.blocks freeBlock).size size
  let page :=
    if extraBytes ≥ page.blockAlign_ then page.splitRemainder size extraBytes freeBlock else page
  page.insertUsedList freeBlock

def mergeLeft (page : Page) (usedBlock : Ptr) : Ptr × Page :=
  match (page.blocks usedBlock).prevFreeM with
  | none => (usedBlock, page)
  | some prevBlock =>
      let prevAddr := add64 (page.blocks prevBlock).addr (page.blocks prevBlock).size
      if (page.blocks usedBlock).addr = prevAddr then
        let merged := page.setSize prevBlock
          (add64 (page.blocks prevBlock).size (page.blocks usedBlock).size)
        let merged := { merged with
          blocks := dropNext freeMLink merged.blocks prevBlock usedBlock }
        (prevBlock, merged.removeFreeSList prevBlock)
      else (usedBlock, page)

def mergeRight (page : Page) (usedBlock : Ptr) : Page :=
  match (page.blocks usedBlock).nextFreeM with
  | none => page
  | some nextBlock =>
      let nextAddr := add64 (page.blocks usedBlock).addr (page.blocks usedBlock).size
      if (page.blocks nextBlock).addr = nextAddr then
        let merged := page.setSize usedBlock
          (add64 (page.blocks usedBlock).size (page.blocks nextBlock).size)
        let merged := { merged with
          blocks := dropNext freeMLink merged.blocks usedBlock nextBlock }
        merged.removeFreeSList nextBlock
      else page

def release (page : Page) (usedBlock : Ptr) : Page :=
  let page := (page.removeUsedList usedBlock).insertFreeMList usedBlock
  let (block, page) := page.mergeLeft usedBlock
  (page.mergeRight block).insertFreeSList block

def smallestFit (page : Page) (size : Nat) : Nat → Ptr → Ptr
  | 0, freeBlock => freeBlock
  | fuel + 1, freeBlock =>
      match (page.blocks freeBlock).nextFreeS with
      | none => freeBlock
      | some next =>
          if (page.blocks next).size ≥ size then page.smallestFit size fuel next else freeBlock

def findFreeBlock (page : Page) (size : Nat) : Option Ptr :=
  match page.freeSList_ with
  | none => none
  | some freeBlock =>
      if (page.blocks freeBlock).size ≥ size then
        some (page.smallestFit size page.created freeBlock)
      else none

def findUsedBlock (page : Page) (addr : Nat) : Option Ptr :=
  if addr ≥ page.addr ∧ addr < add64 page.addr page.size then
    (walk usedLink page.blocks (fun useBlock => useBlock.addr ≠ addr) page.created none
      page.usedList_).2
  else none

def usedBlocks (page : Page) : List (Nat × Nat) :=
  (collect usedLink page.blocks page.created page.usedList_).map fun block =>
    ((page.blocks block).addr, (page.blocks block).size)

end Page

end Espiral.VortexMemoryAllocator
