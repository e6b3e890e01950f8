import Espiral.Allocator.ExactCalls

/-!
# Exact allocations

Two roundings, the scan for a gap and the 32-bit return value stand between a
request and the block it gets. Where none of them loses a bit the block is the
one that was asked for, and its address gives it back.
-/

namespace Espiral.VortexMemoryAllocator

set_option autoImplicit false

open Contracts MachineWords Traces

section Grants

variable {state next : VortexMemoryAllocator} {addr size : Nat}

theorem Sound.size_unique (sound : Sound state) {other : Nat}
    (first : (addr, size) ∈ state.usedBlocks) (second : (addr, other) ∈ state.usedBlocks) :
    size = other := by
  have found := sound.lookup_live.mpr first
  rw [sound.lookup_live.mpr second] at found
  exact (Option.some.inj found).symm

theorem Sound.release_live (sound : Sound state) (member : (addr, size) ∈ state.usedBlocks) :
    ∃ next, state.release addr = .ok true next ∧ Revoke state next addr size := by
  rcases release_cases sound addr with ⟨next, found, ran, revoke⟩ | ⟨_, missing⟩
  · have listed : (addr, found) ∈ state.usedBlocks :=
      revoke.used.mem_iff.mpr List.mem_cons_self
    rw [← sound.size_unique member listed] at revoke
    exact ⟨next, ran, revoke⟩
  · exact absurd member (missing size)

theorem Grant.released (grant : Grant state next addr size) :
    ∃ back, next.release addr = .ok true back ∧ Revoke next back addr size ∧
      back.usedBlocks.Perm state.usedBlocks := by
  rcases grant.sound.release_live grant.listed with ⟨back, ran, revoke⟩
  exact ⟨back, ran, revoke, (revoke.used.symm.trans grant.used).cons_inv⟩

end Grants

section Run

variable {base capacity pageAlign blockAlign : Nat}

theorem run_sound (pagePower : ∃ bits < 32, pageAlign = 2 ^ bits)
    (blockPower : ∃ bits < 32, blockAlign = 2 ^ bits) (range : base + capacity < 2 ^ 64)
    {labels : List (Call × Outcome)} {state : VortexMemoryAllocator}
    (run : Trace ExactStep (initialised base capacity pageAlign blockAlign) labels state) :
    Sound state :=
  run.invariant Sound (fun _ _ _ sound step => ((step.effect sound).sound sound).1)
    (initialised_sound pagePower blockPower range)

theorem allocate_effect {state : VortexMemoryAllocator} {size : Nat} (sound : Sound state)
    (exact : Exact state (.allocate size)) : ∃ result next,
      state.allocate size = .ok result next ∧
        Effect state (.allocate size) (.allocated result) next := by
  rcases exact_effect sound exact with ⟨outcome, next, ran, effect⟩
  cases called : state.allocate size with
  | ok result after =>
      rw [perform, map_ok _ called] at ran
      cases ran
      exact ⟨result, next, rfl, effect⟩
  | error fault after =>
      rw [perform, map_error _ called] at ran
      cases ran

end Run

end Espiral.VortexMemoryAllocator
