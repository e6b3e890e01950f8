import Espiral.Allocator.ExactAllocations

/-!
# Where blocks are placed

The S-list is sorted by size and the pages by address in every reachable state,
so the first block the search accepts is a smallest one of the lowest page that
has any, and the first gap the scan accepts is the lowest.
-/

namespace Espiral.VortexMemoryAllocator

set_option autoImplicit false

open Contracts MachineWords Traces

/-- What the result of a request says about the state before it. -/
structure WellPlaced (state : VortexMemoryAllocator) (size : Nat) (result : Option Nat)
    (next : VortexMemoryAllocator) : Prop where
  block : ¬Full state (state.blockSize size) →
    ∃ start, result = some start ∧ FirstFit state (state.blockSize size) start
  gap : Full state (state.blockSize size) → state.pages_ ≠ [] → ∀ start, result = some start →
    IsLeast {gap | IsGap state (state.pageSize size) gap} start
  nothing : result = none → Full state (state.blockSize size) ∧
    (∀ start, ¬IsGap state (state.pageSize size) start) ∧ next = state

/-- The steps of a run whose calls are exact and whose reservations are page-aligned and not
below the base. -/
def PlacementStep (state : VortexMemoryAllocator) (label : Call × Outcome)
    (next : VortexMemoryAllocator) : Prop :=
  ExactStep state label next ∧ ∀ addr size, label.1 = .reserve addr size →
    state.pageAlign_ ∣ addr ∧ state.baseAddress_ ≤ addr

section Above

variable {state next : VortexMemoryAllocator}

theorem aboveBase_iff : AboveBase state ↔
    ∀ extent ∈ state.extents, state.baseAddress_ ≤ extent.1 := by
  constructor
  · intro above extent member
    rcases List.mem_map.mp member with ⟨page, inPages, same⟩
    rw [← same]
    exact above page inPages
  · intro above page member
    exact above page.extent (List.mem_map_of_mem member)

theorem Grant.aboveBase {addr size start length : Nat} (grant : Grant state next addr size)
    (grown : next.extents.Perm ((start, length) :: state.extents)) (above : AboveBase state)
    (low : state.baseAddress_ ≤ start) : AboveBase next := by
  rw [aboveBase_iff] at above ⊢
  intro extent member
  rw [grant.settings.baseAddress]
  cases List.mem_cons.mp (grown.mem_iff.mp member) with
  | inl here =>
      rw [here]
      exact low
  | inr old => exact above extent old

theorem AboveBase.of_extents (above : AboveBase state) (settings : SameSettings state next)
    (extents : ∀ extent ∈ next.extents, extent ∈ state.extents) : AboveBase next := by
  rw [aboveBase_iff] at above ⊢
  intro extent member
  rw [settings.baseAddress]
  exact above extent (extents extent member)

theorem Effect.aboveBase {call : Call} {outcome : Outcome}
    (effect : Effect state call outcome next) (sound : Sound state) (above : AboveBase state)
    (reserves : ∀ addr size, call = .reserve addr size → state.baseAddress_ ≤ addr) :
    AboveBase next := by
  cases effect with
  | cut _ _ grant same =>
      exact above.of_extents grant.settings fun extent member => by rw [← same]; exact member
  | opened _ _ placed grant grown =>
      apply grant.aboveBase grown above
      by_cases none : state.pages_ = []
      · cases placed with
        | first _ atBase => exact Nat.le_of_eq atBase.symm
        | gap before page after split _ _ _ =>
            rw [none] at split
            simp at split
        | last some _ _ _ => exact absurd none some
      · exact (placed.isLeast sound above none).1.low
  | released revoke => exact above.of_extents revoke.settings revoke.extents
  | reserved _ _ _ grant grown => exact grant.aboveBase grown above (reserves _ _ rfl)
  | _ => exact above

end Above

section Placement

variable {state : VortexMemoryAllocator} {size : Nat}

theorem FirstFit.not_full {start : Nat} (firstFit : FirstFit state size start) :
    ¬Full state size := by
  rcases firstFit with ⟨before, page, after, split, _, length, listed, large, _⟩
  intro full
  have small := full page (by rw [split]; simp) _ listed
  exact absurd large (Nat.not_le.mpr small)

theorem Effect.wellPlaced {result : Option Nat} {next : VortexMemoryAllocator}
    (effect : Effect state (.allocate size) (.allocated result) next) (sound : Sound state)
    (above : AboveBase state) (nonempty : 0 < size) (narrow : NarrowStarts state size) :
    WellPlaced state size result next := by
  cases effect with
  | nothing => exact absurd nonempty (Nat.lt_irrefl 0)
  | @cut _ addr _ _ firstFit grant _ =>
      rw [wrap32_of_lt (narrow addr (Or.inl firstFit))]
      exact ⟨fun _ => ⟨addr, rfl, firstFit⟩, fun full => absurd full firstFit.not_full,
        fun missing => by cases missing⟩
  | @opened _ addr _ _ full placed grant _ =>
      rw [wrap32_of_lt (narrow addr (Or.inr ⟨full, placed⟩))]
      refine ⟨fun room => absurd full room, ?_, fun missing => by cases missing⟩
      intro _ some start same
      rw [← Option.some.inj same]
      exact placed.isLeast sound above some
  | exhausted _ full fits nowhere =>
      have blockPositive : 0 < state.blockSize size :=
        roundUp_pos (alignment_pos sound.blockAlign) nonempty
      have positive : 0 < state.pageSize size :=
        Nat.lt_of_lt_of_le blockPositive (blockSize_le_pageSize sound.toConfigured size)
      refine ⟨fun room => absurd full room, ?_,
        fun _ => ⟨full, no_gap_of_nowhere sound positive fits nowhere, rfl⟩⟩
      intro _ _ start missing
      cases missing

end Placement

section Run

variable {base capacity pageAlign blockAlign : Nat}

/-- After every run without wrap-around, a request without one is placed in a smallest
sufficient block of the lowest page that has one, else in the lowest gap, and refused only if
there is neither. -/
theorem allocate_wellPlaced (pagePower : ∃ bits < 32, pageAlign = 2 ^ bits)
    (blockPower : ∃ bits < 32, blockAlign = 2 ^ bits) (range : base + capacity < 2 ^ 64)
    {labels : List (Call × Outcome)} {state : VortexMemoryAllocator}
    (run : Trace PlacementStep (initialised base capacity pageAlign blockAlign) labels state)
    {size : Nat} (nonempty : 0 < size) (exact : Exact state (.allocate size))
    (narrow : NarrowStarts state size) :
    ∃ result next, state.allocate size = .ok result next ∧
      WellPlaced state size result next := by
  have start : Sound (initialised base capacity pageAlign blockAlign) ∧
      AboveBase (initialised base capacity pageAlign blockAlign) :=
    ⟨initialised_sound pagePower blockPower range, fun page member => by cases member⟩
  have kept := run.invariant (fun state => Sound state ∧ AboveBase state) (by
    intro state label next invariant step
    have effect := step.1.effect invariant.1
    exact ⟨(effect.sound invariant.1).1, effect.aboveBase invariant.1 invariant.2
      fun addr size same => (step.2 addr size same).2⟩) start
  rcases allocate_effect kept.1 exact with ⟨result, next, ran, effect⟩
  exact ⟨result, next, ran, effect.wellPlaced kept.1 kept.2 nonempty narrow⟩

/-- A request that fits is put into the free block, one of a page into the gap before the
reserved page, and one of the whole range is refused. -/
theorem allocate_wellPlaced_gapped :
    (∃ next, gapped.allocate 100 = .ok (some 0x1080) next ∧ ¬Full gapped 128 ∧
        WellPlaced gapped 100 (some 0x1080) next) ∧
      (∃ next, gapped.allocate 4096 = .ok (some 0x2000) next ∧ Full gapped 4096 ∧
        gapped.pages_ ≠ [] ∧ WellPlaced gapped 4096 (some 0x2000) next) ∧
      ∃ next, gapped.allocate 0x10000 = .ok none next ∧ WellPlaced gapped 0x10000 none next := by
  have pagePower : ∃ bits < 32, 4096 = 2 ^ bits := ⟨12, by decide, rfl⟩
  have blockPower : ∃ bits < 32, 64 = 2 ^ bits := ⟨6, by decide, rfl⟩
  have range : 0x1000 + 0x10000 < 2 ^ 64 := by decide
  have reserves : PlacementStep _ _ reservedThird := ⟨reservedThird_step, by
    intro addr size same
    cases same
    decide⟩
  have allocates : PlacementStep reservedThird _ gapped := ⟨gapped_step, by
    intro addr size same
    cases same⟩
  have configured := (run_sound pagePower blockPower range
    (Trace.cons reservedThird_step (Trace.cons gapped_step (Trace.nil gapped)))).toConfigured
  have run := Trace.cons reserves (Trace.cons allocates (Trace.nil gapped))
  refine ⟨?_, ?_, ?_⟩
  · obtain ⟨result, next, ran, placed⟩ := allocate_wellPlaced pagePower blockPower range run
      (by decide : 0 < 100) (exact_of_ends configured ⟨by decide, by decide⟩) (gapped_narrow 100)
    cases ran.symm.trans (@allocate_after 100 gapped (some 0x1080) (by decide))
    exact ⟨_, ran, by unfold Full; decide, placed⟩
  · obtain ⟨result, next, ran, placed⟩ := allocate_wellPlaced pagePower blockPower range run
      (by decide : 0 < 4096) (exact_of_ends configured ⟨by decide, by decide⟩) (gapped_narrow 4096)
    cases ran.symm.trans (@allocate_after 4096 gapped (some 0x2000) (by decide))
    exact ⟨_, ran, by unfold Full; decide, by decide, placed⟩
  · obtain ⟨result, next, ran, placed⟩ := allocate_wellPlaced pagePower blockPower range run
      (by decide : 0 < 0x10000) (exact_of_ends configured ⟨by decide, by decide⟩)
      (gapped_narrow 0x10000)
    cases ran.symm.trans (@allocate_after 0x10000 gapped none (by decide))
    exact ⟨_, ran, placed⟩

theorem not_wellPlaced_of_overlap {state next : VortexMemoryAllocator} {size start : Nat} {page : Page}
    (only : state.pages_ = [page]) (noBlock : page.freeBlocks = [])
    (overlaps : ¬Page.Apart page.extent (start, state.pageSize size)) :
    ¬WellPlaced state size (some start) next := by
  intro placed
  have full : Full state (state.blockSize size) := by
    intro other member block listed
    rw [only] at member
    rw [List.mem_singleton.mp member, noBlock] at listed
    cases listed
  have least := placed.gap full (by simp [only]) start rfl
  exact overlaps (least.1.apart page (by simp [only]))

/-- With one page in use, a size whose end wraps around passes the test against that page, and
the new page starts where the old one does. -/
theorem wrapped_end_accepted : ∃ first next,
    perform (.allocate 4096) (initialised 0x1000 0x10000 4096 64) =
        .ok (.allocated (some 0x1000)) first ∧
      first.pageSize (2 ^ 64 - 4096) < 2 ^ 64 ∧
      first.allocate (2 ^ 64 - 4096) = .ok (some 0x1000) next ∧
      ¬WellPlaced first (2 ^ 64 - 4096) (some 0x1000) next := by
  refine ⟨_, _, rfl, by decide, rfl, ?_⟩
  exact not_wellPlaced_of_overlap rfl rfl (by decide)

end Run

end Espiral.VortexMemoryAllocator
