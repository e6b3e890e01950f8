import Espiral.Allocator.ExactCalls

/-!
# Containment in the managed range

Nothing in `findNextAddress` compares the first page with the capacity, and
`reserve` does not look at the base address. As long as neither of these two
gaps is used, every block stays inside the managed range and the counters are
exact.
-/

namespace Espiral.VortexMemoryAllocator

set_option autoImplicit false

open Contracts IntrusiveLists MachineWords Traces

structure Contained (state : VortexMemoryAllocator) : Prop where
  blocks : ∀ block ∈ state.usedBlocks, state.baseAddress_ ≤ block.1 ∧
    block.1 + block.2 ≤ state.baseAddress_ + state.capacity_
  allocated : state.allocated ≤ state.capacity_
  free : state.free + state.allocated = state.capacity_

/-- No rounding and no end address wraps that the call computes on the way to its place. -/
def NoWrap (state : VortexMemoryAllocator) : Call → Prop
  | .allocate size => state.pageSize size < 2 ^ 64 ∧
      (state.pageWith size = none → PlaceFits state (state.pageSize size))
  | .release _ => True
  | .reserve addr size => addr + roundUp size state.pageAlign_ < 2 ^ 64

/-- The call keeps clear of the two unchecked bounds: a first page is no larger
than the capacity, and a reservation below the base is refused for another reason. -/
def ChecksSuffice (state : VortexMemoryAllocator) : Call → Prop
  | .allocate size => size ≠ 0 → state.pages_ = [] → state.pageSize size ≤ state.capacity_
  | .release _ => True
  | .reserve addr size => state.baseAddress_ ≤ addr ∨ size = 0 ∨
      state.baseAddress_ + state.capacity_ < addr + roundUp size state.pageAlign_ ∨
      state.hasPageOverlap addr (roundUp size state.pageAlign_) = true

/-- What a returned or accepted range is: a live block of the new state. The
returned address is the 32-bit image of the block's start. -/
def Answered (next : VortexMemoryAllocator) : Call → Outcome → Prop
  | .allocate size, .allocated (some addr) =>
      ∃ start, (start, roundUp size next.blockAlign_) ∈ next.usedBlocks ∧
        addr = wrap32 start ∧ (next.baseAddress_ + next.capacity_ ≤ 2 ^ 32 → addr = start)
  | .reserve addr size, .reserved 0 => (addr, roundUp size next.pageAlign_) ∈ next.usedBlocks
  | _, _ => True

def CheckedStep (state : VortexMemoryAllocator) (label : Call × Outcome)
    (next : VortexMemoryAllocator) : Prop :=
  NoWrap state label.1 ∧ ChecksSuffice state label.1 ∧ perform label.1 state = .ok label.2 next

structure Enclosed (state : VortexMemoryAllocator) : Prop where
  sound : Sound state
  inside : ∀ extent ∈ state.extents, state.baseAddress_ ≤ extent.1 ∧
    extent.1 + extent.2 ≤ state.baseAddress_ + state.capacity_

section Enclosed

variable {state next : VortexMemoryAllocator}

theorem Enclosed.contained (enclosed : Enclosed state) : Contained state := by
  have sound := enclosed.sound
  have pagesInside : ∀ page ∈ state.pages_, state.baseAddress_ ≤ page.addr ∧
      page.stop ≤ state.baseAddress_ + state.capacity_ :=
    fun page member => enclosed.inside page.extent (List.mem_map_of_mem member)
  have total := sum_used_le sound.pages sound.ordered pagesInside (Nat.le_add_right _ _)
  have bound : state.allocated_ ≤ state.capacity_ := by
    rw [sound.accounted]
    exact Nat.le_of_add_le_add_left total
  have fits := sound.fits
  constructor
  · intro block member
    rcases List.mem_flatMap.mp member with ⟨page, inPages, inPage⟩
    have outer := pagesInside page inPages
    have inner := (sound.pages page inPages).used_inside inPage
    unfold Page.stop at outer
    omega
  · exact bound
  · rw [free, allocated, sub64_of_le bound (by omega)]
    omega

theorem Enclosed.grant {addr size start length : Nat} (enclosed : Enclosed state)
    (grant : Grant state next addr size)
    (grown : next.extents.Perm ((start, length) :: state.extents))
    (low : state.baseAddress_ ≤ start)
    (high : start + length ≤ state.baseAddress_ + state.capacity_) : Enclosed next where
  sound := grant.sound
  inside := by
    intro extent member
    rw [grant.settings.baseAddress, grant.settings.capacity]
    rcases List.mem_cons.mp (grown.mem_iff.mp member) with here | old
    · rw [here]
      exact ⟨low, high⟩
    · exact enclosed.inside extent old

theorem Enclosed.same_extents (enclosed : Enclosed state) (sound : Sound next)
    (settings : SameSettings state next)
    (extents : ∀ extent ∈ next.extents, extent ∈ state.extents) : Enclosed next where
  sound := sound
  inside := by
    intro extent member
    rw [settings.baseAddress, settings.capacity]
    exact enclosed.inside extent (extents extent member)

theorem Placed.enclosed {addr length : Nat} (enclosed : Enclosed state)
    (small : state.pages_ = [] → length ≤ state.capacity_) (placed : Placed state addr length) :
    state.baseAddress_ ≤ addr ∧ addr + length ≤ state.baseAddress_ + state.capacity_ := by
  have pagesInside : ∀ page ∈ state.pages_, state.baseAddress_ ≤ page.addr ∧
      page.stop ≤ state.baseAddress_ + state.capacity_ :=
    fun page member => enclosed.inside page.extent (List.mem_map_of_mem member)
  have above : AboveBase state := fun page member => (pagesInside page member).1
  cases placed with
  | first none atBase =>
      have bound := small none
      omega
  | gap before nextPage after split start room _ =>
      have inside := pagesInside nextPage (by rw [split]; simp)
      have members : ∀ page ∈ before, page ∈ state.pages_ := by
        intro page member
        rw [split]
        simp [member]
      have low := above.endOfLast members
      unfold Page.stop at inside
      omega
  | last _ start room _ =>
      have low := above.endOfLast fun _ member => member
      omega

theorem NoWrap.exact (sound : Sound state) {call : Call} (noWrap : NoWrap state call) :
    Exact state call := by
  cases call with
  | allocate size =>
      have large := blockSize_le_pageSize sound.toConfigured size
      refine Or.inr ⟨Nat.lt_of_le_of_lt large noWrap.1, ?_⟩
      intro full
      exact noWrap.2 ((pageWith_eq_none sound).mpr full)
  | release addr => trivial
  | reserve addr size => exact Or.inr noWrap

theorem Enclosed.answered {size addr : Nat} (enclosed : Enclosed next)
    (grant : Grant state next addr (state.blockSize size)) :
    Answered next (.allocate size) (.allocated (some (wrap32 addr))) := by
  refine ⟨addr, ?_, rfl, ?_⟩
  · rw [grant.settings.blockAlign]
    exact grant.listed
  · intro narrow
    have inside := enclosed.contained.blocks _ grant.listed
    have positive := enclosed.sound.used_positive grant.listed
    simp only at inside positive
    exact wrap32_of_lt (by omega)

theorem enclosed_step {label : Call × Outcome} (enclosed : Enclosed state)
    (step : CheckedStep state label next) :
    Enclosed next ∧ Answered next label.1 label.2 := by
  obtain ⟨call, outcome⟩ := label
  obtain ⟨noWrap, covered, ran⟩ := step
  have exact_step : ExactStep state (call, outcome) next := ⟨noWrap.exact enclosed.sound, ran⟩
  simp only at covered ⊢
  cases exact_step.effect enclosed.sound with
  | nothing => exact ⟨enclosed, trivial⟩
  | cut _ _ grant same =>
      have kept := enclosed.same_extents grant.sound grant.settings
        (fun extent member => by rw [← same]; exact member)
      exact ⟨kept, kept.answered grant⟩
  | opened nonempty _ placed grant grown =>
      have range := placed.enclosed enclosed (covered (Nat.ne_of_gt nonempty))
      have kept := enclosed.grant grant grown range.1 range.2
      exact ⟨kept, kept.answered grant⟩
  | exhausted => exact ⟨enclosed, trivial⟩
  | released revoke =>
      exact ⟨enclosed.same_extents revoke.sound revoke.settings revoke.extents, trivial⟩
  | unknown => exact ⟨enclosed, trivial⟩
  | @reserved addr size _ nonempty below vacant grant grown =>
      have low : state.baseAddress_ ≤ addr := by
        rcases covered with above | zero | beyond | overlap
        · exact above
        · omega
        · omega
        · rw [overlap] at vacant
          cases vacant
      refine ⟨enclosed.grant grant grown low below, ?_⟩
      change _ ∈ _
      rw [grant.settings.pageAlign]
      exact grant.listed
  | refused => exact ⟨enclosed, trivial⟩

end Enclosed

section Run

variable {base capacity pageAlign blockAlign : Nat}

theorem initialised_enclosed (pagePower : ∃ bits < 32, pageAlign = 2 ^ bits)
    (blockPower : ∃ bits < 32, blockAlign = 2 ^ bits) (range : base + capacity < 2 ^ 64) :
    Enclosed (initialised base capacity pageAlign blockAlign) :=
  ⟨initialised_sound pagePower blockPower range, by
    simp [extents, initialised, initBlockAlignment, initPageAlignment, initCapacity,
      initBaseAddress, new]⟩

/-- Every state of a run whose calls keep clear of the unchecked bounds is
contained, and so is every range the run returns or accepts. -/
theorem runs_contained (pagePower : ∃ bits < 32, pageAlign = 2 ^ bits)
    (blockPower : ∃ bits < 32, blockAlign = 2 ^ bits) (range : base + capacity < 2 ^ 64)
    {labels : List (Call × Outcome)} {state : VortexMemoryAllocator}
    (run : Trace CheckedStep (initialised base capacity pageAlign blockAlign) labels state) :
    Contained state ∧ ∀ label next, CheckedStep state label next →
      Contained next ∧ Answered next label.1 label.2 := by
  have enclosed := run.invariant Enclosed (fun _ _ _ kept step => (enclosed_step kept step).1)
    (initialised_enclosed pagePower blockPower range)
  refine ⟨enclosed.contained, ?_⟩
  intro label next step
  have after := enclosed_step enclosed step
  exact ⟨after.1.contained, after.2⟩

theorem runs_contained_first :
    ∃ next, CheckedStep (initialised 0x1000 0x2000 4096 64)
        (.allocate 0x2000, .allocated (some 0x1000)) next ∧ Contained next := by
  have pagePower : ∃ bits < 32, 4096 = 2 ^ bits := ⟨12, by decide, by decide⟩
  have blockPower : ∃ bits < 32, 64 = 2 ^ bits := ⟨6, by decide, by decide⟩
  have range : 0x1000 + 0x2000 < 2 ^ 64 := by decide
  rcases allocate_first (initialised_sound pagePower blockPower range) rfl
    (by decide : 0 < 0x2000) (by decide) with ⟨next, ran, _⟩
  have step : CheckedStep (initialised 0x1000 0x2000 4096 64)
      (.allocate 0x2000, .allocated (some 0x1000)) next :=
    ⟨⟨by decide, fun _ => EndsFit.placeFits ⟨by decide, fun _ member => by cases member⟩⟩,
      fun _ _ => by decide, map_ok _ ran⟩
  exact ⟨next, step,
    (runs_contained pagePower blockPower range (Trace.cons step (Trace.nil next))).1⟩

/-- The first page is created without a look at the capacity: one page of
capacity, two pages handed out. -/
theorem first_page_not_contained :
    ∃ next, perform (.allocate 0x2000) (initialised 0x1000 0x1000 4096 64) =
        .ok (.allocated (some 0x1000)) next ∧
      NoWrap (initialised 0x1000 0x1000 4096 64) (.allocate 0x2000) ∧ ¬Contained next := by
  have sound : Sound (initialised 0x1000 0x1000 4096 64) :=
    initialised_sound ⟨12, by decide, by decide⟩ ⟨6, by decide, by decide⟩ (by decide)
  rcases allocate_first sound rfl (by decide : 0 < 0x2000) (by decide) with ⟨next, ran, grant⟩
  refine ⟨next, map_ok _ ran,
    ⟨by decide, fun _ => EndsFit.placeFits ⟨by decide, fun _ member => by cases member⟩⟩, ?_⟩
  intro contained
  have inside := contained.blocks _ (grant.used.mem_iff.mpr List.mem_cons_self)
  rw [grant.settings.baseAddress, grant.settings.capacity] at inside
  exact absurd inside.2 (by decide)

end Run

end Espiral.VortexMemoryAllocator
