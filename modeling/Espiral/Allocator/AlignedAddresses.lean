import Espiral.Allocator.ExactAllocations

/-!
# Aligned addresses

Nothing in the allocator looks at the alignment of an address. Blocks inherit
it from their page and pages from the base, or from the page before them, so
it holds in runs whose reservations start at multiples of the alignment.
-/

namespace Espiral.VortexMemoryAllocator

set_option autoImplicit false

open Contracts MachineWords Tilings Traces

/-- The steps of a run whose calls are exact and whose accepted reservations start at a
multiple of the block alignment. -/
def AlignedStep (state : VortexMemoryAllocator) (label : Call × Outcome)
    (next : VortexMemoryAllocator) : Prop :=
  ExactStep state label next ∧ ∀ addr size, label = (.reserve addr size, .reserved 0) →
    state.blockAlign_ ∣ addr

structure Aligned (state : VortexMemoryAllocator) : Prop where
  sound : Sound state
  coarser : state.blockAlign_ ∣ state.pageAlign_
  base : state.blockAlign_ ∣ state.baseAddress_
  pages : ∀ extent ∈ state.extents, state.blockAlign_ ∣ extent.1 ∧ state.blockAlign_ ∣ extent.2

theorem Page.Sound.freeBlocks_dvd {align : Nat} {page : Page} (sound : Page.Sound align page)
    (aligned : align ∣ page.addr) {block : Nat × Nat} (member : block ∈ page.freeBlocks) :
    align ∣ block.1 := by
  rcases sound.layout with ⟨cells, layout, grain, _⟩
  rcases (Page.mem_freeBlocks layout).mp member with ⟨cell, inside, free, rfl⟩
  rcases grain with multiples | ⟨only, single, used⟩
  · exact tiles_dvd layout.tiles aligned multiples cell inside
  · rw [single] at inside
    rw [List.mem_singleton.mp inside, used] at free
    cases free

section Effects

variable {state next : VortexMemoryAllocator}

theorem Aligned.endOfLast (aligned : Aligned state) {pages : List Page}
    (members : ∀ page ∈ pages, page ∈ state.pages_) :
    state.blockAlign_ ∣ VortexMemoryAllocator.endOfLast state.baseAddress_ pages := by
  rcases List.eq_nil_or_concat pages with empty | ⟨front, last, split⟩
  · rw [empty]
    exact aligned.base
  · rw [List.concat_eq_append] at split
    subst split
    rw [endOfLast_append]
    have extent := aligned.pages last.extent
      (List.mem_map_of_mem (members last (by simp)))
    exact Nat.dvd_add extent.1 extent.2

theorem Aligned.placed (aligned : Aligned state) {start length : Nat}
    (placed : Placed state start length) : state.blockAlign_ ∣ start := by
  cases placed with
  | first _ atBase =>
      rw [atBase]
      exact aligned.base
  | gap before page after split begins _ _ =>
      rw [begins]
      apply aligned.endOfLast
      intro other member
      rw [split]
      simp [member]
  | last _ begins _ _ =>
      rw [begins]
      exact aligned.endOfLast fun _ member => member

theorem Aligned.firstFit (aligned : Aligned state) {start size : Nat}
    (fit : FirstFit state size start) : state.blockAlign_ ∣ start := by
  rcases fit with ⟨before, page, after, split, _, best⟩
  have member : page ∈ state.pages_ := by
    rw [split]
    simp
  rcases best with ⟨length, free, _⟩
  have extent := aligned.pages page.extent (List.mem_map_of_mem member)
  exact (aligned.sound.pages page member).freeBlocks_dvd extent.1 free

theorem Aligned.pageMultiple (aligned : Aligned state) (size : Nat) :
    state.blockAlign_ ∣ roundUp size state.pageAlign_ :=
  aligned.coarser.trans (dvd_roundUp size state.pageAlign_)

theorem Aligned.of_extents (aligned : Aligned state) (sound : Sound next)
    (settings : SameSettings state next)
    (extents : ∀ extent ∈ next.extents, extent ∈ state.extents ∨
      state.blockAlign_ ∣ extent.1 ∧ state.blockAlign_ ∣ extent.2) : Aligned next where
  sound := sound
  coarser := by
    rw [settings.blockAlign, settings.pageAlign]
    exact aligned.coarser
  base := by
    rw [settings.blockAlign, settings.baseAddress]
    exact aligned.base
  pages := by
    intro extent member
    rw [settings.blockAlign]
    cases extents extent member with
    | inl old => exact aligned.pages extent old
    | inr both => exact both

theorem Aligned.grown (aligned : Aligned state) {addr size start length : Nat}
    (grant : Grant state next addr size)
    (extents : next.extents.Perm ((start, length) :: state.extents))
    (startAligned : state.blockAlign_ ∣ start) (lengthAligned : state.blockAlign_ ∣ length) :
    Aligned next := by
  apply aligned.of_extents grant.sound grant.settings
  intro extent member
  cases List.mem_cons.mp (extents.mem_iff.mp member) with
  | inl here =>
      rw [here]
      exact Or.inr ⟨startAligned, lengthAligned⟩
  | inr old => exact Or.inl old

/-- Alignment is kept by every call but a reservation at another address. -/
theorem Aligned.step {label : Call × Outcome} (aligned : Aligned state)
    (step : AlignedStep state label next) : Aligned next := by
  rcases label with ⟨call, outcome⟩
  have effect := step.1.effect aligned.sound
  cases effect with
  | cut _ _ grant same =>
      apply aligned.of_extents grant.sound grant.settings
      intro extent member
      rw [same] at member
      exact Or.inl member
  | opened _ _ placed grant grown =>
      exact aligned.grown grant grown (aligned.placed placed) (aligned.pageMultiple _)
  | released revoke =>
      apply aligned.of_extents revoke.sound revoke.settings
      intro extent member
      exact Or.inl (revoke.extents extent member)
  | @reserved addr size _ _ _ _ grant grown =>
      exact aligned.grown grant grown (step.2 addr size rfl) (aligned.pageMultiple _)
  | nothing => exact aligned
  | exhausted => exact aligned
  | unknown => exact aligned
  | refused => exact aligned

theorem Aligned.wrap32 (aligned : Aligned state) {start : Nat}
    (multiple : state.blockAlign_ ∣ start) :
    state.blockAlign_ ∣ MachineWords.wrap32 start := by
  rcases aligned.sound.blockAlign with ⟨bits, small, power⟩
  have divides : state.blockAlign_ ∣ 2 ^ 32 := by
    rw [power]
    exact Nat.pow_dvd_pow 2 (Nat.le_of_lt small)
  exact (Nat.dvd_mod_iff divides).mpr multiple

theorem Aligned.allocated (aligned : Aligned state) {size addr : Nat}
    (effect : Effect state (.allocate size) (.allocated (some addr)) next) :
    state.blockAlign_ ∣ addr := by
  cases effect with
  | cut _ firstFit _ _ => exact aligned.wrap32 (aligned.firstFit firstFit)
  | opened _ _ placed _ _ => exact aligned.wrap32 (aligned.placed placed)

end Effects

section Run

variable {base capacity pageAlign blockAlign : Nat}

theorem initialised_aligned (pagePower : ∃ bits < 32, pageAlign = 2 ^ bits)
    (blockPower : ∃ bits < 32, blockAlign = 2 ^ bits) (range : base + capacity < 2 ^ 64)
    (coarser : blockAlign ∣ pageAlign) (baseAligned : pageAlign ∣ base) :
    Aligned (initialised base capacity pageAlign blockAlign) where
  sound := initialised_sound pagePower blockPower range
  coarser := coarser
  base := coarser.trans baseAligned
  pages := by
    intro extent member
    cases member

/-- In every run whose reservations start at multiples of the block alignment, so do all
allocations. -/
theorem allocations_aligned (pagePower : ∃ bits < 32, pageAlign = 2 ^ bits)
    (blockPower : ∃ bits < 32, blockAlign = 2 ^ bits) (range : base + capacity < 2 ^ 64)
    (coarser : blockAlign ∣ pageAlign) (baseAligned : pageAlign ∣ base)
    {labels : List (Call × Outcome)} {state next : VortexMemoryAllocator}
    (run : Trace AlignedStep (initialised base capacity pageAlign blockAlign) labels state)
    {size addr : Nat} (exact : Exact state (.allocate size))
    (ran : state.allocate size = .ok (some addr) next) : blockAlign ∣ addr := by
  have kept := run.invariant
    (fun reached => Aligned reached ∧ reached.blockAlign_ = blockAlign)
    (by
      rintro before label after ⟨aligned, setting⟩ step
      have settings := ((step.1.effect aligned.sound).sound aligned.sound).2
      exact ⟨aligned.step step, settings.blockAlign.trans setting⟩)
    ⟨initialised_aligned pagePower blockPower range coarser baseAligned, rfl⟩
  have step : ExactStep state (.allocate size, .allocated (some addr)) next :=
    ⟨exact, map_ok _ ran⟩
  rw [← kept.2]
  exact kept.1.allocated (step.effect kept.1.sound)

/-- The block before the reserved page is cut behind one of 100 bytes. -/
theorem allocations_aligned_gapped : ∃ next,
    gapped.allocate 100 = .ok (some 0x1080) next ∧ 64 ∣ 0x1080 := by
  have pagePower : ∃ bits < 32, 4096 = 2 ^ bits := ⟨12, by decide, rfl⟩
  have blockPower : ∃ bits < 32, 64 = 2 ^ bits := ⟨6, by decide, rfl⟩
  have range : 0x1000 + 0x10000 < 2 ^ 64 := by decide
  have reserves : AlignedStep _ _ reservedThird := ⟨reservedThird_step, by
    intro addr size same
    cases same
    decide⟩
  have allocates : AlignedStep reservedThird _ gapped := ⟨gapped_step, by
    intro addr size same
    cases same⟩
  have sound := run_sound pagePower blockPower range
    (Trace.cons reservedThird_step (Trace.cons gapped_step (Trace.nil gapped)))
  have ran := @allocate_after 100 gapped (some 0x1080) (by decide)
  exact ⟨_, ran, allocations_aligned pagePower blockPower range (by decide) (by decide)
    (Trace.cons reserves (Trace.cons allocates (Trace.nil gapped)))
    (exact_of_ends sound.toConfigured ⟨by decide, by decide⟩) ran⟩

/-- A reservation at an address that is no multiple of the block alignment is accepted, and
the next page starts where it ends. -/
theorem unaligned_after_reserve : ∃ final,
    [Call.reserve 0x1010 64, .allocate 64].mapM perform (initialised 0x1000 0x10000 4096 64) =
      .ok [.reserved 0, .allocated (some 0x2010)] final ∧ ¬64 ∣ 0x2010 := by
  have answers : (match [Call.reserve 0x1010 64, .allocate 64].mapM perform
      (initialised 0x1000 0x10000 4096 64) with
    | .ok outcomes _ => outcomes
    | .error _ _ => []) = [.reserved 0, .allocated (some 0x2010)] := by decide
  split at answers
  · rename_i outcomes final ran
    exact ⟨final, by rw [ran, answers], by decide⟩
  · cases answers

end Run

end Espiral.VortexMemoryAllocator
