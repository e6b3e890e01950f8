import Espiral.Library.Contracts
import Espiral.Library.Traces
import Espiral.Allocator.BumpAllocator

/-!
# Runs of the bump allocator

Sizes and capacities are arbitrary 64-bit numbers and the operations come in any
order. The cursor stays in its range exactly as long as no operation moves it, or
an end of the range, past the other.
-/

namespace Espiral.BumpAllocator

set_option autoImplicit false

open Contracts MachineWords Traces

inductive Call where
  | initBaseAddress (base : Nat)
  | initCapacity (capacity : Nat)
  | setGrowable (growable : Bool)
  | growCapacity (additional_capacity : Nat)
  | allocate (size : Nat)
  deriving DecidableEq, Repr

def Call.Narrow : Call → Prop
  | .initBaseAddress base => base < 2 ^ 64
  | .initCapacity capacity => capacity < 2 ^ 64
  | .setGrowable _ => True
  | .growCapacity additional_capacity => additional_capacity < 2 ^ 64
  | .allocate size => size < 2 ^ 64

/-- Only `allocate` returns an address. -/
def perform : Call → Action BumpAllocator (Option Nat)
  | .initBaseAddress base => fun self => .ok none (initBaseAddress base self)
  | .initCapacity capacity => fun self => .ok none (initCapacity capacity self)
  | .setGrowable growable => (fun _ => none) <$> setGrowable growable
  | .growCapacity additional_capacity => (fun _ => none) <$> growCapacity additional_capacity
  | .allocate size => allocate size

def outcome : EStateM.Result Fault BumpAllocator (Option Nat) → Option Nat × BumpAllocator
  | .ok addr next => (addr, next)
  | .error _ next => (none, next)

/-- An operation that leaves the range below the last 32-bit address. -/
structure CallStep (state : BumpAllocator) (label : Call × Option Nat) (next : BumpAllocator) :
    Prop where
  narrow : label.1.Narrow
  below : next.baseAddress_ + next.capacity_ < 2 ^ 32
  ran : outcome (perform label.1 state) = (label.2, next)

structure InRange (state : BumpAllocator) : Prop where
  low : state.baseAddress_ ≤ state.nextAddress_
  high : state.nextAddress_ ≤ state.baseAddress_ + state.capacity_
  below : state.baseAddress_ + state.capacity_ < 2 ^ 32

/-- What an operation has to keep: the cursor stays in the range and does not go back, and
an address that is returned leaves room for all the bytes asked for. -/
structure Kept (state : BumpAllocator) (label : Call × Option Nat) (next : BumpAllocator) :
    Prop where
  range : InRange next
  forward : state.nextAddress_ ≤ next.nextAddress_
  room : ∀ size addr, label = (.allocate size, some addr) →
    addr + size ≤ next.baseAddress_ + next.capacity_

/-- The initialisers and the growth keep the cursor in the range and do not move it back, and
the sum in `allocate` does not wrap around. -/
def Exact (state : BumpAllocator) : Call → Prop
  | .initBaseAddress base => state.nextAddress_ ≤ base
  | .initCapacity capacity => state.nextAddress_ ≤ state.baseAddress_ + capacity
  | .setGrowable _ => True
  | .growCapacity additional_capacity => state.growable_ = some true →
      state.nextAddress_ ≤ state.baseAddress_ + wrap64 (state.capacity_ + additional_capacity)
  | .allocate size => state.nextAddress_ + size < 2 ^ 64

def ExactStep (state : BumpAllocator) (label : Call × Option Nat) (next : BumpAllocator) : Prop :=
  Exact state label.1 ∧ CallStep state label next

section Steps

variable {state next : BumpAllocator} {result : Option Nat}

theorem new_inRange : InRange new := ⟨Nat.le_refl 0, Nat.le_refl 0, by decide⟩

theorem setGrowable_outcome (state : BumpAllocator) (growable : Bool) :
    outcome (perform (.setGrowable growable) state) =
      (none, { state with growable_ := some (state.growable_.getD growable) }) := by
  cases present : state.growable_ with
  | none =>
      have ran : setGrowable growable state = .ok () { state with growable_ := some growable } := by
        simp only [setGrowable, present]
      rw [perform, map_ok _ ran, outcome, Option.getD_none]
  | some now =>
      have same : { state with growable_ := some now } = state := by
        rw [← present]
      rw [Option.getD_some, same]
      by_cases differs : growable ≠ now
      · have thrown : setGrowable growable state = .error (.runtimeError
            "BumpAllocator: cannot change growable after initialization") state := by
          simp only [setGrowable, present]
          exact if_pos differs
        rw [perform, map_error _ thrown, outcome]
      · have ran : setGrowable growable state = .ok () state := by
          simp only [setGrowable, present]
          rw [if_neg differs]
        rw [perform, map_ok _ ran, outcome]

theorem growCapacity_outcome (state : BumpAllocator) (additional_capacity : Nat) :
    outcome (perform (.growCapacity additional_capacity) state) =
      (none, if state.growable_ = some true then
        { state with capacity_ := add64 state.capacity_ additional_capacity } else state) := by
  by_cases growable : state.growable_ = some true
  · have ran : growCapacity additional_capacity state =
        .ok () { state with capacity_ := add64 state.capacity_ additional_capacity } := by
      rw [growCapacity, if_pos growable]
    rw [perform, map_ok _ ran, outcome, if_pos growable]
  · have thrown : growCapacity additional_capacity state = .error (.runtimeError
        "BumpAllocator: this instance does not support growing capacity") state := by
      rw [growCapacity, if_neg growable]
    rw [perform, map_error _ thrown, outcome, if_neg growable]

theorem kept_iff_of_none {call : Call} (below : next.baseAddress_ + next.capacity_ < 2 ^ 32) :
    Kept state (call, none) next ↔ state.nextAddress_ ≤ next.nextAddress_ ∧
      next.baseAddress_ ≤ next.nextAddress_ ∧
        next.nextAddress_ ≤ next.baseAddress_ + next.capacity_ := by
  constructor
  · intro kept
    exact ⟨kept.forward, kept.range.low, kept.range.high⟩
  · intro bounds
    exact ⟨⟨bounds.2.1, bounds.2.2, below⟩, bounds.1, fun _ _ same => by cases same⟩

/-- A sum that does not wrap around is tested exactly; one that does always passes the test
and moves the cursor back. -/
theorem allocate_kept_iff {size : Nat} (range : InRange state)
    (step : CallStep state (.allocate size, result) next) :
    Kept state (.allocate size, result) next ↔ Exact state (.allocate size) := by
  have low := range.low
  have high := range.high
  have below := range.below
  have narrow : size < 2 ^ 64 := step.narrow
  have ran := step.ran
  have stop : add64 state.baseAddress_ state.capacity_ = state.baseAddress_ + state.capacity_ :=
    add64_of_lt (by omega)
  rw [perform, allocate, stop] at ran
  by_cases zero : size = 0
  · rw [if_pos zero] at ran
    cases ran
    rw [kept_iff_of_none below, Exact]
    omega
  · rw [if_neg zero] at ran
    by_cases exact : state.nextAddress_ + size < 2 ^ 64
    · have sum : add64 state.nextAddress_ size = state.nextAddress_ + size := add64_of_lt exact
      rw [sum] at ran
      by_cases full : state.nextAddress_ + size > state.baseAddress_ + state.capacity_
      · rw [if_pos full] at ran
        cases ran
        rw [kept_iff_of_none below, Exact]
        omega
      · rw [if_neg full] at ran
        cases ran
        refine ⟨fun _ => exact, fun _ => ⟨⟨?_, ?_, below⟩, Nat.le_add_right _ _, ?_⟩⟩
        · change state.baseAddress_ ≤ state.nextAddress_ + size
          omega
        · change state.nextAddress_ + size ≤ state.baseAddress_ + state.capacity_
          omega
        · intro asked addr same
          cases same
          have start : wrap32 state.nextAddress_ = state.nextAddress_ := wrap32_of_lt (by omega)
          rw [start]
          change state.nextAddress_ + size ≤ state.baseAddress_ + state.capacity_
          omega
    · have sum : add64 state.nextAddress_ size + 2 ^ 64 = state.nextAddress_ + size := by
        unfold add64 wrap64
        omega
      rw [if_neg (by omega)] at ran
      cases ran
      refine ⟨fun kept => ?_, fun wrapped => absurd wrapped exact⟩
      have forward : state.nextAddress_ ≤ add64 state.nextAddress_ size := kept.forward
      omega

theorem kept_iff {label : Call × Option Nat} (range : InRange state)
    (step : CallStep state label next) : Kept state label next ↔ Exact state label.1 := by
  have low := range.low
  have high := range.high
  have below := step.below
  have ran := step.ran
  rcases label with ⟨call, result⟩
  cases call with
  | initBaseAddress base =>
      cases ran
      rw [kept_iff_of_none below, Exact, initBaseAddress]
      simp
  | initCapacity capacity =>
      cases ran
      rw [kept_iff_of_none below, Exact, initCapacity]
      simp [low]
  | setGrowable growable =>
      rw [setGrowable_outcome] at ran
      cases ran
      rw [kept_iff_of_none below, Exact]
      simp [low, high]
  | growCapacity additional_capacity =>
      rw [growCapacity_outcome] at ran
      cases ran
      rw [kept_iff_of_none below, Exact]
      by_cases growable : state.growable_ = some true
      · simp [growable, low, add64]
      · simp [growable, low, high]
  | allocate size => exact allocate_kept_iff range step

theorem run_inRange {labels : List (Call × Option Nat)}
    (run : Trace ExactStep new labels state) : InRange state :=
  run.invariant InRange
    (fun _ _ _ range step => ((kept_iff range step.2).mpr step.1).range) new_inRange

end Steps

end Espiral.BumpAllocator
