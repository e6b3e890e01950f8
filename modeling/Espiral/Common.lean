import Mathlib.Algebra.Group.Nat.Defs

/-!
# Shared definitions

Constants of the common header, and the ways a call can end other than by
returning. Every stateful operation is a state computation that keeps the
state it has reached when it faults, as an exception does.
-/

namespace Espiral

set_option autoImplicit false

def PAGE_SIZE : Nat := 4096
def PTE_SIZE : Nat := 4
def PT_LEVELS : Nat := 2
def VPN_BITS : Nat := 10
def VPN_MASK : Nat := 1 <<< VPN_BITS - 1

namespace PteFlags

def V : Nat := 1 <<< 0
def R : Nat := 1 <<< 1
def W : Nat := 1 <<< 2
def X : Nat := 1 <<< 3
def U : Nat := 1 <<< 4
def G : Nat := 1 <<< 5
def A : Nat := 1 <<< 6
def D : Nat := 1 <<< 7

end PteFlags

/-- The build constants that the source takes from the hardware configuration. -/
structure Platform where
  ALLOC_BASE_ADDR : Nat
  GLOBAL_MEM_SIZE : Nat
  MEM_PAGE_SIZE : Nat
  CACHE_BLOCK_SIZE : Nat
  IO_BASE_ADDR : Nat
  IO_END_ADDR : Nat
  LMEM_BASE_ADDR : Nat
  STACK_BASE_ADDR : Nat
  STACK_LOG2_SIZE : Nat
  NUM_THREADS : Nat
  NUM_WARPS : Nat

/-- What the address space manager relies on about these constants. -/
structure Platform.Valid (platform : Platform) : Prop where
  basePositive : 0 < platform.ALLOC_BASE_ADDR
  baseAligned : 4096 ∣ platform.ALLOC_BASE_ADDR
  pageSize : platform.MEM_PAGE_SIZE = 4096
  cacheBlock : ∃ bits ≤ 12, platform.CACHE_BLOCK_SIZE = 2 ^ bits
  room : platform.ALLOC_BASE_ADDR + 4096 ≤ platform.GLOBAL_MEM_SIZE
  narrow : platform.GLOBAL_MEM_SIZE ≤ 2 ^ 32

def Platform.IsFrame (platform : Platform) (frame : Nat) : Prop :=
  4096 ∣ frame ∧ platform.ALLOC_BASE_ADDR ≤ frame ∧ frame + 4096 ≤ platform.GLOBAL_MEM_SIZE

instance (platform : Platform) (frame : Nat) : Decidable (platform.IsFrame frame) :=
  inferInstanceAs (Decidable (_ ∧ _ ∧ _))

theorem Platform.IsFrame.narrow {platform : Platform} {frame : Nat}
    (isFrame : platform.IsFrame frame) (valid : platform.Valid) : frame < 2 ^ 32 := by
  have high := isFrame.2.2
  have bound := valid.narrow
  omega

/-- Four frames above the first page, and an input and output range below them. -/
def smallPlatform : Platform where
  ALLOC_BASE_ADDR := 0x1000
  GLOBAL_MEM_SIZE := 0x5000
  MEM_PAGE_SIZE := 4096
  CACHE_BLOCK_SIZE := 64
  IO_BASE_ADDR := 0x40
  IO_END_ADDR := 0x80
  LMEM_BASE_ADDR := 0x20000
  STACK_BASE_ADDR := 0x80000
  STACK_LOG2_SIZE := 13
  NUM_THREADS := 4
  NUM_WARPS := 4

theorem smallPlatform_valid : smallPlatform.Valid where
  basePositive := by decide
  baseAligned := by decide
  pageSize := rfl
  cacheBlock := ⟨6, by decide, rfl⟩
  room := by decide
  narrow := by decide

/-- The first three are the exceptions the source throws; the last two stand
for a call that has no defined outcome or no outcome at all. -/
inductive Fault where
  | runtimeError (message : String)
  | pageFault (message : String)
  | badOptionalAccess
  | outOfRange
  | undefinedBehaviour
  | nonTermination
  deriving DecidableEq, Repr

abbrev Action (State Value : Type) := EStateM Fault State Value

end Espiral
