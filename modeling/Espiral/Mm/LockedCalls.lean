import Espiral.Library.Interleavings
import Espiral.Mm.PageMaps

/-!
# Calls under their locks

The calls of the address space manager, cut where other threads can run: each
request to the page allocator is made under its own lock, and a mapping holds the
lock of the scratchpad from its first read to its last write, also while it asks
for a node. A range of pages is one call after the other.
-/

namespace Espiral.AddressSpaceManager

set_option autoImplicit false

open Interleavings MachineWords

structure Mapping where
  va : Nat
  pa : Nat
  root : Nat
  flags : Nat
  deriving DecidableEq, Repr

inductive Request where
  | pageTable
  | vmPage (va root flags : Nat)
  | node (map : Mapping) (level current_pa : Nat)
  deriving DecidableEq, Repr

inductive Pending where
  | node (level pa : Nat)
  | page (addr : Nat)
  deriving DecidableEq, Repr

inductive Point where
  | idle
  /-- Before the request of `allocate_one_page`. -/
  | asking (request : Request)
  /-- Before the second request, the first frame being in a hole. -/
  | askingAgain (request : Request)
  /-- `allocate_one_page` has returned; zero stands for no frame. -/
  | granted (request : Request) (pa : Nat)
  /-- Before `begin_transaction`. -/
  | mapping (map : Mapping)
  /-- In the loop of `map_addr_inner`. -/
  | descending (map : Mapping) (level current_pa : Nat)
  /-- After the `end_transaction` of a page that is mapped already. -/
  | reporting (map : Mapping) (pte_addr : Nat)
  | translating (map : Mapping)
  | freeing (pending : List Pending)
  deriving DecidableEq, Repr

inductive Moved where
  | to (point : Point)
  | ended (outcome : Except Fault (Option Nat))

/-- What is done for a valid entry of a node. -/
def entryPending (level pte : Nat) : Pending :=
  if !pteIsLeaf pte then .node level (ptePa pte) else .page (ptePa pte)

/-- What the loop over the entries of a node is going to do. -/
def entriesPending (level : Nat) (page_data : List UInt8) (indices : List Nat) : List Pending :=
  indices.filterMap fun index =>
    let pte := pteIn page_data index
    if pteValid pte then some (entryPending level pte) else none

def advance : Point → Action AddressSpaceManager Moved
  | .idle => throw .undefinedBehaviour
  | .asking request => do
      match ← onAllocator (VortexMemoryAllocator.allocate PAGE_SIZE) with
      | none => pure (.to (.granted request 0))
      | some pa =>
          if ← addrInHole pa then pure (.to (.askingAgain request))
          else pure (.to (.granted request pa))
  | .askingAgain request => do
      let pa ← onAllocator (VortexMemoryAllocator.allocate PAGE_SIZE)
      pure (.to (.granted request (pa.getD 0)))
  | .granted .pageTable pa =>
      if pa ≠ 0 then do
        writeScratchpad pa zeroNode
        record (.created pa)
        pure (.ended (.ok (some pa)))
      else pure (.ended (.ok none))
  | .granted (.vmPage va root flags) pa =>
      if pa = 0 then
        pure (.ended (.error (.runtimeError "Failed to allocate physical page for VM")))
      else pure (.to (.mapping ⟨va, pa, root, flags⟩))
  | .granted (.node map level current_pa) new_pa =>
      if new_pa ≠ 0 then do
        writeScratchpad new_pa zeroNode
        let pte := makePte new_pa PteFlags.V
        writePte (wrap32 (current_pa + vaVpn map.va (level + 1) * PTE_SIZE)) pte
        pure (.to (.descending map level (ptePa pte)))
      else pure (.ended (.error (.runtimeError "Failed to allocate page table node")))
  | .mapping map => pure (.to (.descending map (PT_LEVELS - 1) map.root))
  | .descending map (level + 1) current_pa => do
      let pte ← readPte (wrap32 (current_pa + vaVpn map.va (level + 1) * PTE_SIZE))
      if !pteValid pte then pure (.to (.asking (.node map level current_pa)))
      else pure (.to (.descending map level (ptePa pte)))
  | .descending map 0 current_pa => do
      let pte_addr := wrap32 (current_pa + vaVpn map.va 0 * PTE_SIZE)
      let leaf_pte := makePte map.pa (map.flags ||| PteFlags.V ||| PteFlags.A ||| PteFlags.D)
      let existing ← readPte pte_addr
      if pteValid existing then pure (.to (.reporting map pte_addr))
      else
        writePte pte_addr leaf_pte
        record (.mapped map.root map.va map.pa map.flags)
        pure (.ended (.ok none))
  | .reporting map pte_addr => do
      let _ ← readPte pte_addr
      pure (.to (.translating map))
  | .translating map => do
      let _ ← translate map.va map.root
      pure (.ended (.error (.runtimeError "Virtual address already mapped")))
  | .freeing [] => pure (.ended (.ok none))
  | .freeing (.node 0 _ :: rest) => pure (.to (.freeing rest))
  | .freeing (.node (level + 1) pa :: rest) => do
      let page_data ← readScratchpad pa PAGE_SIZE
      pure (.to (.freeing (entriesPending level page_data entryIndices ++ .page pa :: rest)))
  | .freeing (.page addr :: rest) => do
      releaseOnePage addr
      pure (.to (.freeing rest))

def Request.isNode : Request → Bool
  | .node _ _ _ => true
  | _ => false

/-- The thread holds the lock of the scratchpad between two steps. -/
def Point.locks : Point → Bool
  | .asking request => request.isNode
  | .askingAgain request => request.isNode
  | .granted request _ => request.isNode
  | .descending _ _ _ => true
  | _ => false

/-- The step uses the scratchpad under its lock. The entry that is reported is read without. -/
def Point.touches : Point → Bool
  | .granted .pageTable _ => true
  | .mapping _ => true
  | .translating _ => true
  | .freeing (.node _ _ :: _) => true
  | point => point.locks

def Request.root : Request → Option Nat
  | .pageTable => none
  | .vmPage _ root _ => some root
  | .node map _ _ => some map.root

def Point.root : Point → Option Nat
  | .asking request => request.root
  | .askingAgain request => request.root
  | .granted request _ => request.root
  | .mapping map => some map.root
  | .descending map _ _ => some map.root
  | .reporting map _ => some map.root
  | .translating map => some map.root
  | _ => none

inductive TableRequest where
  | allocatePageTable
  | allocateOneVmPage (va root flags : Nat)
  | mapIdentity (addr root flags : Nat)
  | freePageTable (root : Nat)
  deriving DecidableEq, Repr

namespace TableRequest

/-- The first point of a call. A table that is being freed is not live any more. -/
def entry : TableRequest → Action AddressSpaceManager Point
  | .allocatePageTable => pure (.asking .pageTable)
  | .allocateOneVmPage va root flags => pure (.asking (.vmPage va root flags))
  | .mapIdentity addr root flags => pure (.mapping ⟨addr, addr, root, flags⟩)
  | .freePageTable root => do
      record (.freed root)
      pure (.freeing [.node PT_LEVELS root])

def whole : TableRequest → Action AddressSpaceManager (Option Nat)
  | .allocatePageTable => AddressSpaceManager.allocatePageTable
  | .allocateOneVmPage va root flags =>
      (fun _ => none) <$> AddressSpaceManager.allocateOneVmPage va root flags
  | .mapIdentity addr root flags => (fun _ => none) <$> mapAddrInner addr addr root flags
  | .freePageTable root => (fun _ => none) <$> AddressSpaceManager.freePageTable root

end TableRequest

/-- The manager, and the thread that holds the lock of its scratchpad. -/
structure LockedManager (Thread : Type) where
  manager : AddressSpaceManager
  lock : Option Thread

inductive CallEvent where
  | call (request : TableRequest)
  | move
  | ended (outcome : Except Fault (Option Nat))

section Interleaved

variable {Thread : Type} [DecidableEq Thread]

abbrev Threads (Thread : Type) := World Thread (LockedManager Thread) Point

def lockAfter (thread : Thread) (lock : Option Thread) (point : Point) : Option Thread :=
  if point.locks then some thread else if lock = some thread then none else lock

def Ready (thread : Thread) (lock : Option Thread) (point : Point) : Prop :=
  point.touches = true → lock = none ∨ lock = some thread

/-- How the rest of the source makes these calls: on live roots, with the readable flag,
identity mappings for pages that may map to themselves; and a table is freed when no other
call works on it. -/
def MayStart (platform : Platform) (thread : Thread) (world : Threads Thread) :
    TableRequest → Prop
  | .allocatePageTable => True
  | .allocateOneVmPage va root flags =>
      world.shared.manager.Live root ∧ va < 2 ^ 32 ∧ flags &&& PteFlags.R ≠ 0
  | .mapIdentity addr root flags =>
      world.shared.manager.Live root ∧ addr < 2 ^ 32 ∧ flags &&& PteFlags.R ≠ 0 ∧
        (world.shared.manager.hole_list_.addrInHole (frameOf addr) = true ∨
          ¬platform.IsFrame (frameOf addr))
  | .freePageTable root => world.shared.manager.Live root ∧
      ∀ other, other ≠ thread → (world.points other).root ≠ some root

/-- A step of a thread: it starts a call, or moves on in the one it is in. -/
inductive Act (platform : Platform) :
    Actions Thread (LockedManager Thread) Point CallEvent
  | call {thread : Thread} {world : Threads Thread} {request : TableRequest} {point : Point}
      {next : AddressSpaceManager} (idle : world.points thread = .idle)
      (permitted : MayStart platform thread world request)
      (entered : request.entry world.shared.manager = .ok point next) :
      Act platform thread world (.call request) ⟨next, world.shared.lock⟩ point
  | move {thread : Thread} {world : Threads Thread} {point : Point}
      {next : AddressSpaceManager}
      (ready : Ready thread world.shared.lock (world.points thread))
      (moved : advance (world.points thread) world.shared.manager = .ok (.to point) next) :
      Act platform thread world .move ⟨next, lockAfter thread world.shared.lock point⟩ point
  | ended {thread : Thread} {world : Threads Thread} {outcome : Except Fault (Option Nat)}
      {next : AddressSpaceManager}
      (ready : Ready thread world.shared.lock (world.points thread))
      (moved : advance (world.points thread) world.shared.manager = .ok (.ended outcome) next) :
      Act platform thread world (.ended outcome)
        ⟨next, lockAfter thread world.shared.lock .idle⟩ .idle

end Interleaved

end Espiral.AddressSpaceManager
