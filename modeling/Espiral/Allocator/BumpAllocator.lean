import Espiral.Common
import Espiral.Library.MachineWords

/-!
# Bump allocator

Hands out consecutive ranges and never takes one back. Its addresses have 64
bits; what it returns has 32.
-/

namespace Espiral

set_option autoImplicit false

open MachineWords

structure BumpAllocator where
  baseAddress_ : Nat
  capacity_ : Nat
  nextAddress_ : Nat
  growable_ : Option Bool
  deriving DecidableEq, Repr

namespace BumpAllocator

def new : BumpAllocator :=
  { baseAddress_ := 0, capacity_ := 0, nextAddress_ := 0, growable_ := none }

def initBaseAddress (base : Nat) (self : BumpAllocator) : BumpAllocator :=
  { self with baseAddress_ := base, nextAddress_ := base }

def initCapacity (capacity : Nat) (self : BumpAllocator) : BumpAllocator :=
  { self with capacity_ := capacity }

def getBaseAddress (self : BumpAllocator) : Nat := wrap32 self.baseAddress_

def getCapacity (self : BumpAllocator) : Nat := self.capacity_

def setGrowable (growable : Bool) : Action BumpAllocator Unit := fun self =>
  match self.growable_ with
  | none => .ok () { self with growable_ := some growable }
  | some present =>
      if growable ≠ present then
        .error (.runtimeError "BumpAllocator: cannot change growable after initialization") self
      else .ok () self

def growCapacity (additional_capacity : Nat) : Action BumpAllocator Unit := fun self =>
  if self.growable_ = some true then
    .ok () { self with capacity_ := add64 self.capacity_ additional_capacity }
  else
    .error (.runtimeError "BumpAllocator: this instance does not support growing capacity") self

def allocate (size : Nat) : Action BumpAllocator (Option Nat) := fun self =>
  if size = 0 then .ok none self
  else if add64 self.nextAddress_ size > add64 self.baseAddress_ self.capacity_ then .ok none self
  else
    .ok (some (wrap32 self.nextAddress_))
      { self with nextAddress_ := add64 self.nextAddress_ size }

/-- The allocator is inside its page-aligned range, whose addresses may run past
the last 32-bit address but at most once around. -/
structure Sound (state : BumpAllocator) : Prop where
  growable : state.growable_ = some true
  baseAligned : 4096 ∣ state.baseAddress_
  capacityAligned : 4096 ∣ state.capacity_
  low : state.baseAddress_ ≤ state.nextAddress_
  high : state.nextAddress_ ≤ state.baseAddress_ + state.capacity_
  baseNarrow : state.baseAddress_ < 2 ^ 32
  capacityNarrow : state.capacity_ ≤ 2 ^ 32

/-- The same without a lower bound for the next address: a size near the end of the
64-bit range takes it below the base. -/
structure Bounded (state : BumpAllocator) : Prop where
  growable : state.growable_ = some true
  baseAligned : 4096 ∣ state.baseAddress_
  capacityAligned : 4096 ∣ state.capacity_
  high : state.nextAddress_ ≤ state.baseAddress_ + state.capacity_
  baseNarrow : state.baseAddress_ < 2 ^ 32
  capacityNarrow : state.capacity_ ≤ 2 ^ 32

def Accepts (size : Nat) (self : BumpAllocator) : Prop :=
  size ≠ 0 ∧ (self.nextAddress_ + size ≤ self.baseAddress_ + self.capacity_ ∨
    2 ^ 64 ≤ self.nextAddress_ + size)

instance (size : Nat) (self : BumpAllocator) : Decidable (Accepts size self) :=
  inferInstanceAs (Decidable (_ ∧ _))

section Runs

variable {self : BumpAllocator} {size : Nat}

theorem Sound.bounded (sound : Sound self) : Bounded self :=
  ⟨sound.growable, sound.baseAligned, sound.capacityAligned, sound.high, sound.baseNarrow,
    sound.capacityNarrow⟩

theorem Bounded.stop (bounded : Bounded self) :
    add64 self.baseAddress_ self.capacity_ = self.baseAddress_ + self.capacity_ := by
  have baseNarrow := bounded.baseNarrow
  have capacityNarrow := bounded.capacityNarrow
  exact add64_of_lt (by omega)

theorem Bounded.allocate_accepts (bounded : Bounded self) (narrow : size < 2 ^ 64)
    (accepts : Accepts size self) :
    allocate size self = .ok (some (wrap32 self.nextAddress_))
        { self with nextAddress_ := add64 self.nextAddress_ size } ∧
      Bounded { self with nextAddress_ := add64 self.nextAddress_ size } := by
  have baseNarrow := bounded.baseNarrow
  have capacityNarrow := bounded.capacityNarrow
  have high := bounded.high
  have inside : add64 self.nextAddress_ size ≤ self.baseAddress_ + self.capacity_ := by
    have sum := accepts.2
    unfold add64 wrap64
    omega
  constructor
  · rw [allocate, if_neg accepts.1, bounded.stop, if_neg (Nat.not_lt.mpr inside)]
  · exact ⟨bounded.growable, bounded.baseAligned, bounded.capacityAligned, inside, baseNarrow,
      capacityNarrow⟩

theorem Bounded.allocate_rejects (bounded : Bounded self) (rejects : ¬Accepts size self) :
    allocate size self = .ok none self := by
  by_cases none : size = 0
  · rw [allocate, if_pos none]
  · have sum := not_or.mp fun fits => rejects ⟨none, fits⟩
    have next : add64 self.nextAddress_ size = self.nextAddress_ + size :=
      add64_of_lt (Nat.lt_of_not_le sum.2)
    rw [allocate, if_neg none, bounded.stop, next, if_pos (Nat.lt_of_not_le sum.1)]

theorem Bounded.grow (bounded : Bounded self) {additional : Nat} (aligned : 4096 ∣ additional)
    (narrow : self.capacity_ + additional ≤ 2 ^ 32) :
    growCapacity additional self =
        .ok () { self with capacity_ := self.capacity_ + additional } ∧
      Bounded { self with capacity_ := self.capacity_ + additional } := by
  have capacity : add64 self.capacity_ additional = self.capacity_ + additional :=
    add64_of_lt (by omega)
  constructor
  · rw [growCapacity, if_pos bounded.growable, capacity]
  · refine ⟨bounded.growable, bounded.baseAligned, Nat.dvd_add bounded.capacityAligned aligned, ?_,
      bounded.baseNarrow, narrow⟩
    exact bounded.high.trans (Nat.add_le_add_left (Nat.le_add_right _ _) _)

theorem Sound.allocate_fits (sound : Sound self) (positive : 0 < size)
    (fits : self.nextAddress_ + size ≤ self.baseAddress_ + self.capacity_) :
    allocate size self = .ok (some (wrap32 self.nextAddress_))
      { self with nextAddress_ := self.nextAddress_ + size } := by
  have baseNarrow := sound.baseNarrow
  have capacityNarrow := sound.capacityNarrow
  have next : add64 self.nextAddress_ size = self.nextAddress_ + size := add64_of_lt (by omega)
  rw [← next]
  exact (sound.bounded.allocate_accepts (by omega)
    ⟨Nat.ne_of_gt positive, Or.inl fits⟩).1

theorem Sound.allocate_full (sound : Sound self) (small : size < 2 ^ 63)
    (exceeds : self.baseAddress_ + self.capacity_ < self.nextAddress_ + size) :
    allocate size self = .ok none self := by
  have baseNarrow := sound.baseNarrow
  have capacityNarrow := sound.capacityNarrow
  have high := sound.high
  apply sound.bounded.allocate_rejects
  intro accepts
  have sum := accepts.2
  omega

theorem Sound.allocated (sound : Sound self)
    (fits : self.nextAddress_ + size ≤ self.baseAddress_ + self.capacity_) :
    Sound { self with nextAddress_ := self.nextAddress_ + size } where
  growable := sound.growable
  baseAligned := sound.baseAligned
  capacityAligned := sound.capacityAligned
  low := by
    have low := sound.low
    change self.baseAddress_ ≤ self.nextAddress_ + size
    omega
  high := fits
  baseNarrow := sound.baseNarrow
  capacityNarrow := sound.capacityNarrow

theorem Sound.grow (sound : Sound self) {additional : Nat} (aligned : 4096 ∣ additional)
    (narrow : self.capacity_ + additional ≤ 2 ^ 32) :
    growCapacity additional self =
        .ok () { self with capacity_ := self.capacity_ + additional } ∧
      Sound { self with capacity_ := self.capacity_ + additional } := by
  obtain ⟨ran, bounded⟩ := sound.bounded.grow aligned narrow
  exact ⟨ran, bounded.growable, bounded.baseAligned, bounded.capacityAligned, sound.low,
    bounded.high, bounded.baseNarrow, narrow⟩

end Runs

end BumpAllocator

end Espiral
