import Mathlib.Order.Bounds.Basic
import Espiral.Allocator.LiveMap

/-!
# Calls in which no sum wraps around

All sizes are 64-bit numbers, and the sums the source computes with them wrap
around. Where they do not, one relation says everything a call can do; the
invariants of runs are read off it.
-/

namespace Espiral.VortexMemoryAllocator

set_option autoImplicit false

open Contracts IntrusiveLists MachineWords Traces

def Full (state : VortexMemoryAllocator) (size : Nat) : Prop :=
  ∀ page ∈ state.pages_, ∀ block ∈ page.freeBlocks, block.2 < size

/-- The roundings and the end addresses that the call computes fit in 64 bits. -/
def Exact (state : VortexMemoryAllocator) : Call → Prop
  | .allocate size => size = 0 ∨ state.blockSize size < 2 ^ 64 ∧
      (Full state (state.blockSize size) → PlaceFits state (state.pageSize size))
  | .release _ => True
  | .reserve addr size => size = 0 ∨ addr + roundUp size state.pageAlign_ < 2 ^ 64

def ExactStep (state : VortexMemoryAllocator) (label : Call × Outcome)
    (next : VortexMemoryAllocator) : Prop :=
  Exact state label.1 ∧ perform label.1 state = .ok label.2 next

inductive Effect (state : VortexMemoryAllocator) : Call → Outcome → VortexMemoryAllocator → Prop
  | nothing : Effect state (.allocate 0) (.allocated none) state
  | cut {size addr : Nat} {next : VortexMemoryAllocator} (nonempty : 0 < size)
      (firstFit : FirstFit state (state.blockSize size) addr)
      (grant : Grant state next addr (state.blockSize size))
      (same : next.extents = state.extents) :
      Effect state (.allocate size) (.allocated (some (wrap32 addr))) next
  | opened {size addr : Nat} {next : VortexMemoryAllocator} (nonempty : 0 < size)
      (full : Full state (state.blockSize size))
      (placed : Placed state addr (state.pageSize size))
      (grant : Grant state next addr (state.blockSize size))
      (grown : next.extents.Perm ((addr, state.pageSize size) :: state.extents)) :
      Effect state (.allocate size) (.allocated (some (wrap32 addr))) next
  | exhausted {size : Nat} (nonempty : 0 < size) (full : Full state (state.blockSize size))
      (fits : PlaceFits state (state.pageSize size))
      (nowhere : state.findNextAddress (state.pageSize size) = none) :
      Effect state (.allocate size) (.allocated none) state
  | released {addr size : Nat} {next : VortexMemoryAllocator}
      (revoke : Revoke state next addr size) :
      Effect state (.release addr) (.released true) next
  | unknown {addr : Nat} (missing : ∀ size, (addr, size) ∉ state.usedBlocks) :
      Effect state (.release addr) (.released false) state
  | reserved {addr size : Nat} {next : VortexMemoryAllocator} (nonempty : 0 < size)
      (below : addr + roundUp size state.pageAlign_ ≤ state.baseAddress_ + state.capacity_)
      (vacant : state.hasPageOverlap addr (roundUp size state.pageAlign_) = false)
      (grant : Grant state next addr (roundUp size state.pageAlign_))
      (grown : next.extents.Perm ((addr, roundUp size state.pageAlign_) :: state.extents)) :
      Effect state (.reserve addr size) (.reserved 0) next
  | refused {addr size : Nat} : Effect state (.reserve addr size) (.reserved (-1)) state

/-- Every start that may be picked for this request is a 32-bit address. -/
def NarrowStarts (state : VortexMemoryAllocator) (size : Nat) : Prop :=
  ∀ start, FirstFit state (state.blockSize size) start ∨
    Full state (state.blockSize size) ∧ Placed state start (state.pageSize size) →
      start < 2 ^ 32

section Effects

variable {state next : VortexMemoryAllocator}

theorem exact_effect (sound : Sound state) {call : Call} (exact : Exact state call) :
    ∃ outcome next, perform call state = .ok outcome next ∧ Effect state call outcome next := by
  cases call with
  | allocate size =>
      cases Nat.eq_zero_or_pos size with
      | inl zero =>
          subst zero
          exact ⟨_, _, map_ok _ allocate_zero, Effect.nothing⟩
      | inr nonempty =>
          have sums := exact.resolve_left (Nat.ne_of_gt nonempty)
          have whole : state.pageWith size = none ↔ Full state (state.blockSize size) :=
            pageWith_eq_none sound
          rcases allocate_cases sound nonempty sums.1 (fun none => sums.2 (whole.mp none)) with
            ⟨_, _, _, _, _, next, addr, _, _, ran, grant, same, firstFit, _⟩ |
            ⟨next, addr, none, placed, ran, grant, grown⟩ | ⟨none, nowhere, ran⟩
          · exact ⟨_, next, map_ok _ ran, Effect.cut nonempty firstFit grant same⟩
          · exact ⟨_, next, map_ok _ ran,
              Effect.opened nonempty (whole.mp none) placed grant grown⟩
          · have full := whole.mp none
            exact ⟨_, state, map_ok _ ran,
              Effect.exhausted nonempty full (sums.2 full) nowhere⟩
  | release addr =>
      rcases release_cases sound addr with ⟨next, size, ran, revoke⟩ | ⟨ran, missing⟩
      · exact ⟨_, next, map_ok _ ran, Effect.released revoke⟩
      · exact ⟨_, state, map_ok _ ran, Effect.unknown missing⟩
  | reserve addr size =>
      cases Nat.eq_zero_or_pos size with
      | inl zero =>
          subst zero
          exact ⟨_, _, map_ok _ reserve_zero, Effect.refused⟩
      | inr nonempty =>
          rcases reserve_cases sound nonempty (exact.resolve_left (Nat.ne_of_gt nonempty)) with
            ⟨next, ran, below, vacant, grant, grown⟩ | ran
          · exact ⟨_, next, map_ok _ ran, Effect.reserved nonempty below vacant grant grown⟩
          · exact ⟨_, state, map_ok _ ran, Effect.refused⟩

theorem ExactStep.effect {label : Call × Outcome} (step : ExactStep state label next)
    (sound : Sound state) : Effect state label.1 label.2 next := by
  rcases exact_effect sound step.1 with ⟨outcome, later, ran, effect⟩
  rw [step.2] at ran
  cases ran
  exact effect

theorem Effect.sound {call : Call} {outcome : Outcome} (effect : Effect state call outcome next)
    (sound : Sound state) : Sound next ∧ SameSettings state next := by
  cases effect with
  | cut _ _ grant _ => exact ⟨grant.sound, grant.settings⟩
  | opened _ _ _ grant _ => exact ⟨grant.sound, grant.settings⟩
  | released revoke => exact ⟨revoke.sound, revoke.settings⟩
  | reserved _ _ _ grant _ => exact ⟨grant.sound, grant.settings⟩
  | _ => exact ⟨sound, rfl, rfl, rfl, rfl⟩

/-- What a successful allocation has granted; the returned address is that of the block. -/
theorem Effect.grant {size addr : Nat}
    (effect : Effect state (.allocate size) (.allocated (some addr)) next)
    (narrow : NarrowStarts state size) : Grant state next addr (state.blockSize size) := by
  cases effect with
  | @cut _ start _ _ firstFit grant _ =>
      rw [wrap32_of_lt (narrow start (Or.inl firstFit))]
      exact grant
  | @opened _ start _ _ full placed grant _ =>
      rw [wrap32_of_lt (narrow start (Or.inr ⟨full, placed⟩))]
      exact grant

theorem exact_of_ends {size : Nat} (configured : Configured state)
    (ends : EndsFit state (state.pageSize size)) : Exact state (.allocate size) := by
  have large := blockSize_le_pageSize configured size
  have fits := ends.1
  exact Or.inr ⟨by omega, fun _ => ends.placeFits⟩

theorem exact_of_noPages {size : Nat} (configured : Configured state) (none : state.pages_ = [])
    (fits : state.baseAddress_ + state.pageSize size < 2 ^ 64) :
    Exact state (.allocate size) :=
  exact_of_ends configured ⟨fits, by simp [none]⟩

/-- Where the pages and the free blocks start below the last 32-bit address and the range ends
there, so does every pick. -/
theorem narrowStarts_of_low {size : Nat} (range : state.baseAddress_ + state.capacity_ < 2 ^ 32)
    (low : ∀ page ∈ state.pages_, page.addr < 2 ^ 32 ∧ ∀ block ∈ page.freeBlocks, block.1 < 2 ^ 32) :
    NarrowStarts state size := by
  rintro start (⟨before, page, after, split, _, length, listed, _⟩ | ⟨_, placed⟩)
  · exact (low page (by rw [split]; simp)).2 _ listed
  · cases placed with
    | first _ atBase => omega
    | gap before page after split _ room _ =>
        have bound := (low page (by rw [split]; simp)).1
        omega
    | last _ _ room _ => omega

end Effects

section Gaps

variable {state : VortexMemoryAllocator}

/-- So many bytes are free from here on, before a page or the end of the capacity. -/
structure IsGap (state : VortexMemoryAllocator) (length start : Nat) : Prop where
  low : state.baseAddress_ ≤ start
  high : start + length ≤ state.baseAddress_ + state.capacity_ ∨
    ∃ page ∈ state.pages_, start + length ≤ page.addr
  apart : ∀ page ∈ state.pages_, Page.Apart page.extent (start, length)

def AboveBase (state : VortexMemoryAllocator) : Prop :=
  ∀ page ∈ state.pages_, state.baseAddress_ ≤ page.addr

/-- A range apart from pages without room between them comes after all of them. -/
theorem Tight.after {pages : List Page} {low length start : Nat} (tight : Tight low length pages)
    (above : low ≤ start) (apart : ∀ page ∈ pages, Page.Apart page.extent (start, length)) :
    endOfLast low pages ≤ start := by
  induction pages generalizing low with
  | nil => exact above
  | cons current rest ih =>
      have narrow : current.addr < low + length := tight [] current rest rfl
      have beside := apart current (by simp)
      have behind : current.stop ≤ start := by
        unfold Page.Apart Page.extent at beside
        unfold Page.stop
        simp only at beside
        omega
      have later : Tight current.stop length rest := by
        intro left page right split
        exact tight (current :: left) page right (by rw [split]; rfl)
      exact ih later behind fun page member => apart page (by simp [member])

theorem AboveBase.endOfLast {pages : List Page} (above : AboveBase state)
    (members : ∀ page ∈ pages, page ∈ state.pages_) :
    state.baseAddress_ ≤ VortexMemoryAllocator.endOfLast state.baseAddress_ pages := by
  rcases List.eq_nil_or_concat pages with empty | ⟨front, last, split⟩
  · rw [empty]
    exact Nat.le_refl _
  · rw [List.concat_eq_append] at split
    subst split
    rw [endOfLast_append]
    have low := above last (members last (by simp))
    unfold Page.stop
    omega

theorem Placed.isLeast {length start : Nat} (sound : Sound state) (above : AboveBase state)
    (some : state.pages_ ≠ []) (placed : Placed state start length) :
    IsLeast {gap | IsGap state length gap} start := by
  have apart := placed.apart sound
  cases placed with
  | first none _ => exact absurd none some
  | gap before next after split begins room tight =>
      have members : ∀ page ∈ before, page ∈ state.pages_ := by
        intro page member
        rw [split]
        simp [member]
      constructor
      · refine ⟨?_, Or.inr ⟨next, by rw [split]; simp, room⟩, apart⟩
        rw [begins]
        exact above.endOfLast members
      · intro other gap
        rw [begins]
        exact tight.after gap.low fun page member => gap.apart page (members page member)
  | last _ begins room tight =>
      constructor
      · refine ⟨?_, Or.inl room, apart⟩
        rw [begins]
        exact above.endOfLast fun _ member => member
      · intro other gap
        rw [begins]
        exact tight.after gap.low gap.apart

theorem no_gap_of_nowhere {length : Nat} (sound : Sound state) (positive : 0 < length)
    (fits : PlaceFits state length) (nowhere : state.findNextAddress length = none) (start : Nat) :
    ¬IsGap state length start := by
  intro gap
  rcases findNextAddress_none sound fits nowhere with ⟨_, full, tight⟩
  have after := tight.after gap.low gap.apart
  rcases gap.high with below | ⟨page, member, before⟩
  · omega
  · have stop : page.stop ≤ endOfLast state.baseAddress_ state.pages_ :=
      stop_le_endOfLast sound.pages sound.ordered member
    unfold Page.stop at stop
    omega

end Gaps

section Small

def answer (call : Call) (state : VortexMemoryAllocator) : Option Outcome :=
  match perform call state with
  | .ok outcome _ => some outcome
  | .error _ _ => none

def after (call : Call) (state : VortexMemoryAllocator) : VortexMemoryAllocator :=
  match perform call state with
  | .ok _ next => next
  | .error _ next => next

theorem perform_after {call : Call} {state : VortexMemoryAllocator} {outcome : Outcome}
    (answered : answer call state = some outcome) :
    perform call state = .ok outcome (after call state) := by
  unfold answer at answered
  unfold after
  split at answered
  · rename_i other next ran
    rw [ran, Option.some.inj answered]
  · cases answered

theorem allocate_after {size : Nat} {state : VortexMemoryAllocator} {result : Option Nat}
    (answered : answer (.allocate size) state = some (.allocated result)) :
    state.allocate size = .ok result (after (.allocate size) state) := by
  have ran := perform_after answered
  cases called : state.allocate size with
  | ok other next =>
      rw [perform, map_ok _ called] at ran
      cases ran
      rfl
  | error fault next =>
      rw [perform, map_error _ called] at ran
      cases ran

def reservedThird : VortexMemoryAllocator :=
  after (.reserve 0x3000 4096) (initialised 0x1000 0x10000 4096 64)

/-- A page with one free block, a gap of one page, and the reserved page. -/
def gapped : VortexMemoryAllocator := after (.allocate 100) reservedThird

theorem reservedThird_step : ExactStep (initialised 0x1000 0x10000 4096 64)
    (.reserve 0x3000 4096, .reserved 0) reservedThird :=
  ⟨Or.inr (by decide), perform_after (by decide)⟩

theorem gapped_step : ExactStep reservedThird (.allocate 100, .allocated (some 0x1000)) gapped :=
  ⟨Or.inr ⟨by decide, fun _ => EndsFit.placeFits ⟨by decide, by decide⟩⟩, perform_after (by decide)⟩

theorem gapped_narrow (size : Nat) : NarrowStarts gapped size :=
  narrowStarts_of_low (by decide) (by decide)

end Small

end Espiral.VortexMemoryAllocator
