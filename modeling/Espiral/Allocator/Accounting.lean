import Espiral.Allocator.ExactAllocations

/-!
# The count of allocated bytes

A request is counted with its rounded size, a release takes off what the block
itself says. The two are the same numbers, so the count is the sum over the
blocks in use and a release never takes off more than has been counted.
-/

namespace Espiral.VortexMemoryAllocator

set_option autoImplicit false

open Contracts IntrusiveLists MachineWords Traces

section Counts

variable {state next : VortexMemoryAllocator} {addr size : Nat}

theorem Grant.counted (grant : Grant state next addr size) (sound : Sound state) :
    next.allocated_ = state.allocated_ + size := by
  rw [grant.sound.accounted, sum_perm_cons grant.used, sound.accounted]
  omega

theorem Revoke.counted (revoke : Revoke state next addr size) (sound : Sound state) :
    size ≤ state.allocated_ ∧ next.allocated_ = state.allocated_ - size := by
  have total := sum_perm_cons revoke.used
  rw [sound.accounted, revoke.sound.accounted]
  omega

def counted (state : VortexMemoryAllocator) : Call → Outcome → Nat
  | .allocate size, .allocated (some _) => state.blockSize size
  | .reserve _ size, .reserved 0 => roundUp size state.pageAlign_
  | _, _ => 0

/-- A call adds what it hands out, or takes off the block that it takes back. -/
theorem Effect.counts {call : Call} {outcome : Outcome} (effect : Effect state call outcome next)
    (sound : Sound state) :
    next.allocated_ = state.allocated_ + counted state call outcome ∨
      ∃ addr size, call = .release addr ∧ outcome = .released true ∧
        (addr, size) ∈ state.usedBlocks ∧ size ≤ state.allocated_ ∧
        next.allocated_ = state.allocated_ - size := by
  cases effect with
  | cut _ _ grant _ => exact Or.inl (grant.counted sound)
  | opened _ _ _ grant _ => exact Or.inl (grant.counted sound)
  | reserved _ _ _ grant _ => exact Or.inl (grant.counted sound)
  | @released addr size _ revoke =>
      have counts := revoke.counted sound
      have listed : (addr, size) ∈ state.usedBlocks := revoke.used.mem_iff.mpr List.mem_cons_self
      exact Or.inr ⟨addr, size, rfl, rfl, listed, counts.1, counts.2⟩
  | _ => exact Or.inl rfl

theorem Sound.release_counted (sound : Sound state) {position : Nat} {block : Ptr}
    {currPage : Page}
    (found : findPage (fun page => page.findUsedBlock addr) state.pages_ = some (position, block))
    (here : state.pages_[position]? = some currPage) :
    (currPage.blocks block).size ≤ state.allocated_ ∧
      ∃ next, state.release addr = .ok true next ∧
        next.allocated_ = state.allocated_ - (currPage.blocks block).size := by
  rcases findPage_some found with ⟨before, page, after, split, length, success, _⟩
  have same : page = currPage := by
    rw [split, ← length] at here
    simpa using here
  subst same
  have revoke := releasedFrom_revoke sound split success
  have counts := revoke.counted sound
  exact ⟨counts.1, _, release_found found split length, counts.2⟩

end Counts

section Run

variable {base capacity pageAlign blockAlign : Nat}

/-- In every state of a run without wrap-around the count is the sum over all blocks in use, and
what a release takes off it is part of that sum. -/
theorem accounting_exact (pagePower : ∃ bits < 32, pageAlign = 2 ^ bits)
    (blockPower : ∃ bits < 32, blockAlign = 2 ^ bits) (range : base + capacity < 2 ^ 64)
    {labels : List (Call × Outcome)} {state : VortexMemoryAllocator}
    (run : Trace ExactStep (initialised base capacity pageAlign blockAlign) labels state) :
    state.allocated_ = (state.usedBlocks.map Prod.snd).sum ∧
      ∀ addr position block currPage,
        findPage (fun page => page.findUsedBlock addr) state.pages_ = some (position, block) →
        state.pages_[position]? = some currPage →
          (currPage.blocks block).size ≤ state.allocated_ ∧
          ∃ next, state.release addr = .ok true next ∧
            next.allocated_ = state.allocated_ - (currPage.blocks block).size := by
  have sound := run_sound pagePower blockPower range run
  constructor
  · exact sound.accounted
  · intro addr position block currPage found here
    exact sound.release_counted found here

/-- A request for 100 bytes is counted with the 128 bytes of its block. -/
theorem accounting_exact_first :
    ∃ state, perform (.allocate 100) (initialised 0x1000 0x10000 64 128) =
        .ok (.allocated (some 0x1000)) state ∧
      state.allocated_ = (state.usedBlocks.map Prod.snd).sum ∧ state.allocated_ = 128 := by
  have pagePower : ∃ bits < 32, 64 = 2 ^ bits := ⟨6, by decide, rfl⟩
  have blockPower : ∃ bits < 32, 128 = 2 ^ bits := ⟨7, by decide, rfl⟩
  have range : 0x1000 + 0x10000 < 2 ^ 64 := by decide
  have sound := initialised_sound pagePower blockPower range
  rcases allocate_first sound rfl (by decide : 0 < 100) (by decide) with ⟨state, ran, grant⟩
  have exact : Exact (initialised 0x1000 0x10000 64 128) (.allocate 100) :=
    exact_of_noPages sound.toConfigured rfl (by decide)
  have step : ExactStep (initialised 0x1000 0x10000 64 128)
      (.allocate 100, .allocated (some 0x1000)) state := ⟨exact, map_ok _ ran⟩
  have counts := grant.counted sound
  exact ⟨state, step.2, (accounting_exact pagePower blockPower range
    (Trace.cons step (Trace.nil state))).1, counts⟩

end Run

end Espiral.VortexMemoryAllocator
