import Espiral.Allocator.ExactCalls

/-!
# Runs of the map of live ranges

In a range of 32-bit addresses no sum of an admissible call wraps around, so a
call has one of the exact effects, and each of these is a step of the map.
-/

namespace Espiral.VortexMemoryAllocator

set_option autoImplicit false

open Contracts IntrusiveLists MachineWords Traces

structure Bounded (limit : Nat) (initial state : VortexMemoryAllocator) : Prop where
  sound : Sound state
  settings : SameSettings initial state
  below : ∀ extent ∈ state.extents, extent.1 + extent.2 ≤ limit

section Run

variable {base capacity pageAlign blockAlign : Nat}

/-- The calls the refinement is about: both roundings of an allocation are at
most the capacity, and the end of a reservation does not wrap. -/
def Admissible (capacity pageAlign blockAlign : Nat) : Call → Prop
  | .allocate size => roundUp (roundUp size blockAlign) pageAlign ≤ capacity
  | .release _ => True
  | .reserve addr size => addr + roundUp size pageAlign < 2 ^ 64

def AdmissibleStep (capacity pageAlign blockAlign : Nat) (state : VortexMemoryAllocator)
    (label : Call × Outcome) (next : VortexMemoryAllocator) : Prop :=
  Admissible capacity pageAlign blockAlign label.1 ∧ perform label.1 state = .ok label.2 next

section Step

variable {limit : Nat} {initial state next : VortexMemoryAllocator}

theorem Bounded.endsFit {size : Nat} (bounded : Bounded limit initial state)
    (baseBelow : state.baseAddress_ ≤ limit) (fits : limit + state.pageSize size < 2 ^ 64) :
    EndsFit state (state.pageSize size) := by
  constructor
  · omega
  · intro page member
    have stop := bounded.below page.extent (List.mem_map_of_mem member)
    unfold Page.extent at stop
    unfold Page.stop
    omega

theorem Bounded.grant {addr size start length : Nat} (bounded : Bounded limit initial state)
    (grant : Grant state next addr size)
    (grown : next.extents.Perm ((start, length) :: state.extents))
    (fits : start + length ≤ limit) : Bounded limit initial next where
  sound := grant.sound
  settings := bounded.settings.trans grant.settings
  below := by
    intro extent member
    rcases List.mem_cons.mp (grown.mem_iff.mp member) with here | old
    · rw [here]
      exact fits
    · exact bounded.below extent old

/-- A page is created at the base only when the size is within the capacity, so
it never reaches past the last allowed address. -/
theorem Placed.below {addr length : Nat} (bounded : Bounded limit initial state)
    (limitIs : limit = state.baseAddress_ + state.capacity_) (small : length ≤ state.capacity_)
    (placed : Placed state addr length) : addr + length ≤ limit := by
  cases placed with
  | first _ atBase => omega
  | gap before nextPage after split start room _ =>
      have inside := bounded.below nextPage.extent
        (List.mem_map_of_mem (by rw [split]; simp))
      unfold Page.extent at inside
      omega
  | last _ _ room _ => omega

theorem Bounded.narrow {limit : Nat} {initial state : VortexMemoryAllocator} {block : Nat × Nat}
    (bounded : Bounded limit initial state) (range : limit ≤ 2 ^ 32)
    (member : block ∈ state.usedBlocks) : block.1 < 2 ^ 32 := by
  rcases List.mem_flatMap.mp member with ⟨page, inPages, inPage⟩
  have inside := (bounded.sound.pages page inPages).used_inside inPage
  have below := bounded.below page.extent (List.mem_map_of_mem inPages)
  unfold Page.extent at below
  simp only at below
  omega

end Step

section Answers

variable {initial state next : VortexMemoryAllocator} {call : Call} {outcome : Outcome}
  (initialIs : initial = initialised base capacity pageAlign blockAlign)
  (bounded : Bounded (base + capacity) initial state)
  (admissible : Admissible capacity pageAlign blockAlign call)

include initialIs bounded admissible

theorem Bounded.exact (range : base + capacity ≤ 2 ^ 32) : Exact state call := by
  subst initialIs
  have settings := bounded.settings
  have baseIs : state.baseAddress_ = base := settings.baseAddress
  have pageAlignIs : state.pageAlign_ = pageAlign := settings.pageAlign
  have blockAlignIs : state.blockAlign_ = blockAlign := settings.blockAlign
  cases call with
  | allocate size =>
      have small : state.pageSize size ≤ capacity := by
        rw [pageSize, blockSize, pageAlignIs, blockAlignIs]
        exact admissible
      have large := blockSize_le_pageSize bounded.sound.toConfigured size
      have ends : EndsFit state (state.pageSize size) := bounded.endsFit (by omega) (by omega)
      exact Or.inr ⟨by omega, fun _ => ends.placeFits⟩
  | release addr => trivial
  | reserve addr size =>
      right
      rw [pageAlignIs]
      exact admissible

theorem Bounded.effect (effect : Effect state call outcome next) :
    Bounded (base + capacity) initial next := by
  subst initialIs
  have settings := bounded.settings
  have baseIs : state.baseAddress_ = base := settings.baseAddress
  have capacityIs : state.capacity_ = capacity := settings.capacity
  have pageAlignIs : state.pageAlign_ = pageAlign := settings.pageAlign
  have blockAlignIs : state.blockAlign_ = blockAlign := settings.blockAlign
  have limitIs : base + capacity = state.baseAddress_ + state.capacity_ := by
    rw [baseIs, capacityIs]
  cases effect with
  | nothing => exact bounded
  | cut _ _ grant same =>
      refine ⟨grant.sound, settings.trans grant.settings, ?_⟩
      rw [same]
      exact bounded.below
  | opened _ _ placed grant grown =>
      apply bounded.grant grant grown
      apply placed.below bounded limitIs
      rw [capacityIs, pageSize, blockSize, pageAlignIs, blockAlignIs]
      exact admissible
  | exhausted => exact bounded
  | released revoke =>
      refine ⟨revoke.sound, settings.trans revoke.settings, ?_⟩
      intro extent member
      exact bounded.below extent (revoke.extents extent member)
  | unknown => exact bounded
  | reserved _ below _ grant grown =>
      apply bounded.grant grant grown
      rw [limitIs]
      exact below
  | refused => exact bounded

/-- An effect of an admissible call is a step of the map: what it returns is the block it
has granted. -/
theorem Bounded.refines (range : base + capacity ≤ 2 ^ 32)
    (effect : Effect state call outcome next) :
    LiveMap.Step pageAlign blockAlign (live state) (call, outcome) (live next) := by
  have kept := bounded.effect initialIs admissible effect
  subst initialIs
  have sound := bounded.sound
  have pageAlignIs : state.pageAlign_ = pageAlign := bounded.settings.pageAlign
  have granted : ∀ {size addr : Nat}, Grant state next addr (state.blockSize size) →
      LiveMap.Step pageAlign blockAlign (live state)
        (.allocate size, .allocated (some (wrap32 addr))) (live next) := by
    intro size addr grant
    have blockIs : state.blockSize size = roundUp size blockAlign := by
      rw [blockSize, show state.blockAlign_ = blockAlign from bounded.settings.blockAlign]
    rw [wrap32_of_lt (kept.narrow range grant.listed), grant.live_eq, blockIs]
    apply LiveMap.Step.allocated
    rw [← blockIs]
    exact grant.vacant sound
  cases effect with
  | nothing => exact LiveMap.Step.exhausted
  | cut _ _ grant _ => exact granted grant
  | opened _ _ _ grant _ => exact granted grant
  | exhausted => exact LiveMap.Step.exhausted
  | released revoke =>
      rw [(revoke.live_eq sound).2]
      exact LiveMap.Step.released (revoke.live_eq sound).1
  | unknown missing => exact LiveMap.Step.unknown (not_mem_live sound missing)
  | reserved _ _ _ grant _ =>
      rw [pageAlignIs] at grant
      rw [grant.live_eq]
      exact LiveMap.Step.reserved (grant.vacant sound)
  | refused => exact LiveMap.Step.refused

theorem perform_refines (range : base + capacity ≤ 2 ^ 32) :
    ∃ outcome next, perform call state = .ok outcome next ∧
      LiveMap.Step pageAlign blockAlign (live state) (call, outcome) (live next) ∧
      Bounded (base + capacity) initial next := by
  obtain ⟨outcome, next, ran, effect⟩ :=
    exact_effect bounded.sound (bounded.exact initialIs admissible range)
  exact ⟨outcome, next, ran, bounded.refines initialIs admissible range effect,
    bounded.effect initialIs admissible effect⟩

end Answers

theorem Bounded.allocated {initial state next : VortexMemoryAllocator} {size addr : Nat}
    (range : base + capacity ≤ 2 ^ 32)
    (initialIs : initial = initialised base capacity pageAlign blockAlign)
    (bounded : Bounded (base + capacity) initial state)
    (admissible : Admissible capacity pageAlign blockAlign (.allocate size))
    (ran : state.allocate size = .ok (some addr) next) :
    ∃ length, Grant state next addr length ∧ ∀ extent ∈ state.extents, extent ∈ next.extents := by
  have step : ExactStep state (.allocate size, .allocated (some addr)) next :=
    ⟨bounded.exact initialIs admissible range, map_ok _ ran⟩
  have effect := step.effect bounded.sound
  have kept := bounded.effect initialIs admissible effect
  have narrow : ∀ {start : Nat}, Grant state next start (state.blockSize size) →
      wrap32 start = start := by
    intro start grant
    exact wrap32_of_lt (kept.narrow range grant.listed)
  cases effect with
  | cut _ _ grant same =>
      rw [narrow grant]
      refine ⟨_, grant, ?_⟩
      intro extent member
      rw [same]
      exact member
  | opened _ _ _ grant grown =>
      rw [narrow grant]
      refine ⟨_, grant, ?_⟩
      intro extent member
      exact grown.mem_iff.mpr (List.mem_cons_of_mem _ member)

theorem initialised_bounded (pagePower : ∃ bits < 32, pageAlign = 2 ^ bits)
    (blockPower : ∃ bits < 32, blockAlign = 2 ^ bits) (range : base + capacity ≤ 2 ^ 32) :
    Bounded (base + capacity) (initialised base capacity pageAlign blockAlign)
      (initialised base capacity pageAlign blockAlign) :=
  ⟨initialised_sound pagePower blockPower (by omega), ⟨rfl, rfl, rfl, rfl⟩, by
    simp [extents, initialised, initBlockAlignment, initPageAlignment, initCapacity,
      initBaseAddress, new]⟩

theorem run_bounded (pagePower : ∃ bits < 32, pageAlign = 2 ^ bits)
    (blockPower : ∃ bits < 32, blockAlign = 2 ^ bits) (range : base + capacity ≤ 2 ^ 32)
    {labels : List (Call × Outcome)} {state : VortexMemoryAllocator}
    (run : Trace (AdmissibleStep capacity pageAlign blockAlign)
      (initialised base capacity pageAlign blockAlign) labels state) :
    Bounded (base + capacity) (initialised base capacity pageAlign blockAlign) state := by
  apply run.invariant (Bounded (base + capacity) (initialised base capacity pageAlign blockAlign))
  · rintro state label next bounded ⟨admissible, ran⟩
    rcases perform_refines rfl bounded admissible range with ⟨outcome, later, answered, _, kept⟩
    rw [ran] at answered
    cases answered
    exact kept
  · exact initialised_bounded pagePower blockPower range

/-- From the initialised allocator every sequence of admissible calls runs to
its end, and its answers are a run of the map of live ranges. -/
theorem calls_refine_live_map (pagePower : ∃ bits < 32, pageAlign = 2 ^ bits)
    (blockPower : ∃ bits < 32, blockAlign = 2 ^ bits) (range : base + capacity ≤ 2 ^ 32)
    (calls : List Call)
    (admissible : ∀ call ∈ calls, Admissible capacity pageAlign blockAlign call) :
    ∃ outcomes final,
      calls.mapM perform (initialised base capacity pageAlign blockAlign) = .ok outcomes final ∧
      Trace (LiveMap.Step pageAlign blockAlign) ∅ (calls.zip outcomes) (live final) := by
  have start := initialised_bounded pagePower blockPower range
  have relation : ∀ (state : VortexMemoryAllocator) (map : LiveMap) (call : Call),
      (Bounded (base + capacity) (initialised base capacity pageAlign blockAlign) state ∧
        map = live state) → Admissible capacity pageAlign blockAlign call →
      ∃ outcome next later, perform call state = .ok outcome next ∧
        LiveMap.Step pageAlign blockAlign map (call, outcome) later ∧
        (Bounded (base + capacity) (initialised base capacity pageAlign blockAlign) next ∧
          later = live next) := by
    rintro state map call ⟨bounded, rfl⟩ allowed
    rcases perform_refines rfl bounded allowed range with ⟨outcome, next, ran, moved, kept⟩
    exact ⟨outcome, next, live next, ran, moved, kept, rfl⟩
  rcases mapM_simulation relation calls admissible ⟨start, rfl⟩ with
    ⟨outcomes, final, last, ran, run, _, rfl⟩
  exact ⟨outcomes, final, ran, run⟩

theorem calls_refine_live_map_three :
    ∃ outcomes final,
      [Call.allocate 100, .reserve 0x4000 10, .release 0x1000].mapM perform
        (initialised 0x1000 0x10000 4096 64) = .ok outcomes final ∧
      Trace (LiveMap.Step 4096 64) ∅
        ([Call.allocate 100, .reserve 0x4000 10, .release 0x1000].zip outcomes) (live final) :=
  calls_refine_live_map ⟨12, by decide, by decide⟩ ⟨6, by decide, by decide⟩ (by decide) _ (by
    intro call member
    simp only [List.mem_cons, List.not_mem_nil, or_false] at member
    rcases member with rfl | rfl | rfl
    · exact (by decide : roundUp (roundUp 100 64) 4096 ≤ 0x10000)
    · exact (by decide : 0x4000 + roundUp 10 4096 < 2 ^ 64)
    · trivial)

end Run

end Espiral.VortexMemoryAllocator
