import Espiral.Library.MachineWords

/-!
# Hole list

Address ranges the page allocator should not hand out. The end of a range
counts as inside.
-/

namespace Espiral

set_option autoImplicit false

open MachineWords

structure HoleList where
  hole_list_ : List (Nat × Nat)

namespace HoleList

def empty : HoleList := { hole_list_ := [] }

/-- A second hole at the same base replaces the first one. -/
def addHole (addr size : Nat) (self : HoleList) : HoleList :=
  if size > 0 then
    { hole_list_ := (addr, size) :: self.hole_list_.filter fun hole => hole.1 ≠ addr }
  else self

def addrInHole (addr : Nat) (self : HoleList) : Bool :=
  self.hole_list_.any fun (base, size) => decide (addr ≥ base) && decide (addr ≤ add64 base size)

/-- The page at this address and a registered range have an address in common. -/
def Intersects (self : HoleList) (frame : Nat) : Prop :=
  ∃ hole ∈ self.hole_list_, ∃ addr,
    frame ≤ addr ∧ addr < frame + 4096 ∧ hole.1 ≤ addr ∧ addr < hole.1 + hole.2

end HoleList

end Espiral
