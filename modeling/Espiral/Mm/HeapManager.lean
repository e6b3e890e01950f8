import Espiral.Allocator.BumpAllocator
import Espiral.Mm.AddressSpaceRuns

/-!
# Heap manager

A bump allocator over virtual addresses that maps fresh pages at its end when
it runs out. It shares the address space manager with everybody else.
-/

namespace Espiral

set_option autoImplicit false

open MachineWords

structure HeapManager where
  vm_allocator_ : BumpAllocator
  top_pgtbl_pa_ : Nat

structure HeapContext where
  heap : HeapManager
  aspace_ : AddressSpaceManager

namespace HeapManager

/-- The constructor of the source, which makes a fresh allocator growable. -/
def new (top_pgtbl_pa base_va : Nat) : HeapManager where
  vm_allocator_ :=
    match BumpAllocator.setGrowable true BumpAllocator.new with
    | .ok _ allocator => .initCapacity 0 (.initBaseAddress base_va allocator)
    | .error _ allocator => allocator
  top_pgtbl_pa_ := top_pgtbl_pa

def onVmAllocator {Value : Type} (action : Action BumpAllocator Value) :
    Action HeapContext Value := fun self =>
  match action self.heap.vm_allocator_ with
  | .ok value allocator =>
      .ok value { self with heap := { self.heap with vm_allocator_ := allocator } }
  | .error fault allocator =>
      .error fault { self with heap := { self.heap with vm_allocator_ := allocator } }

def onAddressSpace {Value : Type} (action : Action AddressSpaceManager Value) :
    Action HeapContext Value := fun self =>
  match action self.aspace_ with
  | .ok value aspace => .ok value { self with aspace_ := aspace }
  | .error fault aspace => .error fault { self with aspace_ := aspace }

def heapFlags : Nat := PteFlags.R ||| PteFlags.W ||| PteFlags.U ||| PteFlags.A ||| PteFlags.D

def lastVa (self : HeapManager) : Nat :=
  wrap32 (self.vm_allocator_.getBaseAddress + self.vm_allocator_.getCapacity)

def mapPages (last_va pages_needed : Nat) (top_pgtbl_pa : Nat) : Action HeapContext Unit :=
  (List.range pages_needed).forM fun i =>
    onAddressSpace (AddressSpaceManager.allocateOneVmPage (wrap32 (last_va + i * PAGE_SIZE))
      top_pgtbl_pa heapFlags)

/-- The source calls itself after growing; the first argument bounds the depth here. -/
def allocateWithin : Nat → Nat → Action HeapContext (Option Nat)
  | 0, _ => throw .nonTermination
  | depth + 1, size => do
      match ← onVmAllocator (BumpAllocator.allocate size) with
      | some va => pure (some va)
      | none =>
          let self ← get
          let pages_needed := add64 size (PAGE_SIZE - 1) / PAGE_SIZE
          mapPages self.heap.lastVa pages_needed self.heap.top_pgtbl_pa_
          onVmAllocator (BumpAllocator.growCapacity (wrap64 (pages_needed * PAGE_SIZE)))
          allocateWithin depth size

def allocateDepth : Nat := 2 ^ 20

def allocate (size : Nat) : Action HeapContext (Option Nat) := allocateWithin allocateDepth size

end HeapManager

end Espiral
