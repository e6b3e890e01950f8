import Espiral.Common
import Espiral.Allocator.Page

/-!
# The block allocator

The pages are kept in address order. A page is named by its position in that
list where the source holds a pointer to it.
-/

namespace Espiral

set_option autoImplicit false

open IntrusiveLists MachineWords

structure VortexMemoryAllocator where
  baseAddress_ : Nat
  capacity_ : Nat
  pageAlign_ : Nat
  blockAlign_ : Nat
  pages_ : List VortexMemoryAllocator.Page
  allocated_ : Nat

namespace VortexMemoryAllocator

def new : VortexMemoryAllocator where
  baseAddress_ := 0
  capacity_ := 0
  pageAlign_ := 0
  blockAlign_ := 0
  pages_ := []
  allocated_ := 0

def initBaseAddress (base : Nat) (self : VortexMemoryAllocator) : VortexMemoryAllocator :=
  { self with baseAddress_ := base }

def initCapacity (capacity : Nat) (self : VortexMemoryAllocator) : VortexMemoryAllocator :=
  { self with capacity_ := capacity }

def initPageAlignment (align : Nat) (self : VortexMemoryAllocator) : VortexMemoryAllocator :=
  { self with pageAlign_ := align }

def initBlockAlignment (align : Nat) (self : VortexMemoryAllocator) : VortexMemoryAllocator :=
  { self with blockAlign_ := align }

def free (self : VortexMemoryAllocator) : Nat := sub64 self.capacity_ self.allocated_

def allocated (self : VortexMemoryAllocator) : Nat := self.allocated_

def alignSize (size alignment : Nat) : Nat :=
  sub64 (add64 size alignment) 1 &&& not64 (sub64 alignment 1)

def insertAfter (newPage : Page) : List Page → List Page
  | [] => [newPage]
  | next :: rest =>
      if next.addr < newPage.addr then next :: insertAfter newPage rest
      else newPage :: next :: rest

def insertPage (newPage : Page) : List Page → List Page
  | [] => [newPage]
  | first :: rest =>
      if first.addr > newPage.addr then newPage :: first :: rest
      else first :: insertAfter newPage rest

def positionAfter (newPage : Page) : List Page → Nat
  | [] => 0
  | next :: rest => if next.addr < newPage.addr then positionAfter newPage rest + 1 else 0

def positionOf (newPage : Page) : List Page → Nat
  | [] => 0
  | first :: rest =>
      if first.addr > newPage.addr then 0 else positionAfter newPage rest + 1

def createPage (addr size : Nat) (self : VortexMemoryAllocator) : Nat × VortexMemoryAllocator :=
  let newPage := Page.new addr size self.blockAlign_
  (positionOf newPage self.pages_, { self with pages_ := insertPage newPage self.pages_ })

def deletePage (page : Nat) (self : VortexMemoryAllocator) : VortexMemoryAllocator :=
  { self with pages_ := self.pages_.eraseIdx page }

/-- The scan of `findNextAddress`: the first gap before a page, or the end of
the last page. -/
def scanGaps (size : Nat) : Nat → List Page → Nat ⊕ Nat
  | endOfLastPage, [] => .inr endOfLastPage
  | endOfLastPage, current :: rest =>
      if add64 endOfLastPage size ≤ current.addr then .inl endOfLastPage
      else scanGaps size (add64 current.addr current.size) rest

def findNextAddress (size : Nat) (self : VortexMemoryAllocator) : Option Nat :=
  match self.pages_ with
  | [] => some self.baseAddress_
  | pages =>
      match scanGaps size self.baseAddress_ pages with
      | .inl gap => some gap
      | .inr endOfLastPage =>
          if add64 endOfLastPage size ≤ add64 self.baseAddress_ self.capacity_ then
            some endOfLastPage
          else none

def hasPageOverlap (start size : Nat) (self : VortexMemoryAllocator) : Bool :=
  self.pages_.any fun current =>
    let pageEnd := add64 current.addr current.size
    let stop := add64 start size
    decide (start ≤ pageEnd) && decide (stop ≥ current.addr)

/-- Hands out a block of the page at this position. A page without a large
enough block would make the source dereference a null block. -/
def allocateFrom (page size : Nat) (freeBlock : Option Ptr) :
    Action VortexMemoryAllocator Nat := fun self =>
  match self.pages_[page]?, freeBlock with
  | some currPage, some block =>
      .ok ((currPage.allocate size block).blocks block).addr
        { self with
          pages_ := self.pages_.set page (currPage.allocate size block)
          allocated_ := add64 self.allocated_ size }
  | _, _ => .error .undefinedBehaviour self

def findFreeBlockAt (page size : Nat) (self : VortexMemoryAllocator) : Option Ptr :=
  self.pages_[page]?.bind fun currPage => currPage.findFreeBlock size

def reserve (addr size : Nat) : Action VortexMemoryAllocator Int := fun self =>
  if size = 0 then .ok (-1) self
  else
    let size := alignSize size self.pageAlign_
    if add64 addr size > add64 self.baseAddress_ self.capacity_ then .ok (-1) self
    else if self.hasPageOverlap addr size then .ok (-1) self
    else
      let (newPage, self) := self.createPage addr size
      match allocateFrom newPage size (self.findFreeBlockAt newPage size) self with
      | .ok _ self => .ok 0 self
      | .error fault self => .error fault self

/-- The page walk of `allocate` and `release`: the first page where the search
succeeds, and the block it finds there. -/
def findPage (search : Page → Option Ptr) : List Page → Option (Nat × Ptr)
  | [] => none
  | currPage :: rest =>
      match search currPage with
      | some block => some (0, block)
      | none => (findPage search rest).map fun (page, block) => (page + 1, block)

def allocate (size : Nat) : Action VortexMemoryAllocator (Option Nat) := fun self =>
  if size = 0 then .ok none self
  else
    let size := alignSize size self.blockAlign_
    match findPage (fun currPage => currPage.findFreeBlock size) self.pages_ with
    | some (page, block) =>
        match allocateFrom page size (some block) self with
        | .ok addr self => .ok (some (wrap32 addr)) self
        | .error fault self => .error fault self
    | none =>
        let pageSize := alignSize size self.pageAlign_
        match self.findNextAddress pageSize with
        | none => .ok none self
        | some pageAddr =>
            let (page, self) := self.createPage pageAddr pageSize
            match allocateFrom page size (self.findFreeBlockAt page size) self with
            | .ok addr self => .ok (some (wrap32 addr)) self
            | .error fault self => .error fault self

def release (addr : Nat) : Action VortexMemoryAllocator Bool := fun self =>
  match findPage (fun currPage => currPage.findUsedBlock addr) self.pages_ with
  | none => .ok false self
  | some (page, usedBlock) =>
      match self.pages_[page]? with
      | none => .error .undefinedBehaviour self
      | some currPage =>
          let size := (currPage.blocks usedBlock).size
          let currPage := currPage.release usedBlock
          let released := { self with pages_ := self.pages_.set page currPage }
          let released := if currPage.empty then released.deletePage page else released
          .ok true { released with allocated_ := sub64 released.allocated_ size }

def usedBlocks (self : VortexMemoryAllocator) : List (Nat × Nat) :=
  self.pages_.flatMap Page.usedBlocks

end VortexMemoryAllocator

end Espiral
