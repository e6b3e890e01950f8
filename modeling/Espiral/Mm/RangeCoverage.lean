import Espiral.Mm.RangeMapping
import Espiral.Mm.SpareFrames

/-!
# Which ranges the page loops cover

The loops count the pages of a range by its length alone, and a range that does
not start at a page boundary may meet one page more than that.
-/

namespace Espiral.AddressSpaceManager

set_option autoImplicit false

open Contracts MachineWords Traces

def LastPageVisited (va size : Nat) : Prop := size = 0 ∨ va % 4096 + size ≤ roundUp size 4096

instance (va size : Nat) : Decidable (LastPageVisited va size) :=
  inferInstanceAs (Decidable (_ ∨ _))

/-- All translations of live tables that differ afterwards are of pages of one table
that had no translation before and meet the range. -/
def MapsWithin (state next : AddressSpaceManager) (root va size : Nat) : Prop :=
  ∀ table addr, state.Live table → addr < 2 ^ 32 →
    next.translated table addr ≠ state.translated table addr →
      table = root ∧ state.translated table addr = none ∧
        va < (addr / 4096 + 1) * 4096 ∧ addr / 4096 * 4096 < va + size

theorem WellOwned.mono {platform : Platform} {identity wider : Nat → Prop}
    {owner : Nat → Option Role} {state : AddressSpaceManager}
    (owned : WellOwned platform identity owner state)
    (includes : ∀ frame, identity frame → wider frame) :
    WellOwned platform wider owner state where
  pool := owned.pool
  used := owned.used
  roots := owned.roots
  nodes := owned.nodes
  leaves root index slot isLive small slotSmall upper lower := by
    have leaf := owned.leaves root index slot isLive small slotSmall upper lower
    refine ⟨leaf.1, ?_⟩
    cases leaf.2 with
    | inl has => exact Or.inl has
    | inr itself => exact Or.inr ⟨includes _ itself.1, itself.2⟩
  maps := owned.maps

theorem Reached.mono {platform : Platform} {identity wider : Nat → Prop} {holes : HoleList}
    {state : AddressSpaceManager} (reached : Reached platform identity holes state)
    (includes : ∀ frame, identity frame → wider frame) :
    Reached platform wider holes state where
  holes := reached.holes
  owned := by
    obtain ⟨owner, owned⟩ := reached.owned
    exact ⟨owner, owned.mono includes⟩
  consistent := reached.consistent

section Pages

variable {va size page addr : Nat}

/-- Inside the address space the loop visits consecutive pages. -/
theorem visited_iff (inside : va + size ≤ 2 ^ 32) :
    (∃ position < loopPages size, rangePage va position = page) ↔
      va / 4096 ≤ page ∧ page < va / 4096 + loopPages size := by
  unfold rangePage loopPages
  constructor
  · intro visited
    obtain ⟨position, counted, same⟩ := visited
    omega
  · intro between
    exact ⟨page - va / 4096, by omega, by omega⟩

theorem visited_meets (visited : va / 4096 ≤ page ∧ page < va / 4096 + loopPages size) :
    va < (page + 1) * 4096 ∧ page * 4096 < va + size := by
  unfold loopPages at visited
  omega

/-- A page of the range that is not visited is its last page, and then the loop ends early. -/
theorem unvisited_last (low : va ≤ addr) (high : addr < va + size)
    (unvisited : ¬(va / 4096 ≤ addr / 4096 ∧ addr / 4096 < va / 4096 + loopPages size)) :
    (va + size - 1) / 4096 = addr / 4096 ∧ ¬LastPageVisited va size := by
  unfold loopPages at unvisited
  unfold LastPageVisited roundUp
  omega

theorem last_unvisited (early : ¬LastPageVisited va size) :
    0 < size ∧ ¬(va + size - 1) / 4096 < va / 4096 + loopPages size := by
  unfold LastPageVisited roundUp at early
  unfold loopPages
  omega

end Pages

section Ranges

variable {platform : Platform} {identity : Nat → Prop} {holes : HoleList}
  {state next : AddressSpaceManager} {root va size flags : Nat} {target : Nat → Nat → Prop}
  (reached : Reached platform identity holes state)
  (mapped : RangeMapped platform identity holes state root va flags (loopPages size) target next)

include reached mapped

theorem RangeMapped.translated_other {table addr : Nat} (tableLive : state.Live table)
    (addrBound : addr < 2 ^ 32)
    (away : table ≠ root ∨ ¬∃ position < loopPages size, rangePage va position = addr / 4096) :
    next.translated table addr = state.translated table addr := by
  obtain ⟨owner, owned⟩ := reached.owned
  obtain ⟨later, nextOwned⟩ := mapped.reached.owned
  obtain ⟨pas, _, history⟩ := mapped.events
  have nextLive : next.Live table := by
    rw [Live, history, live_append_of_onlyMaps (rangeEvents_onlyMaps root va flags pas _)]
    exact tableLive
  rw [owned.translated_mapping tableLive addrBound, nextOwned.translated_mapping nextLive addrBound,
    history, mapping_rangeEvents_other]
  cases away with
  | inl different => exact Or.inl different
  | inr unvisited =>
      right
      intro position counted same
      exact unvisited ⟨position, counted, same⟩

theorem RangeMapped.translated_visited (isLive : state.Live root) (narrow : size ≤ 2 ^ 32)
    {addr : Nat} (addrBound : addr < 2 ^ 32)
    (visited : ∃ position < loopPages size, rangePage va position = addr / 4096) :
    state.translated root addr = none ∧ ∃ position pa, rangePage va position = addr / 4096 ∧
      target position pa ∧ next.translated root addr = some (ptePa (makePte pa (leafFlags flags)) +
        addr % 4096) := by
  obtain ⟨owner, owned⟩ := reached.owned
  obtain ⟨later, nextOwned⟩ := mapped.reached.owned
  obtain ⟨pas, targets, history⟩ := mapped.events
  obtain ⟨position, counted, same⟩ := visited
  have few : loopPages size ≤ 2 ^ 20 := by
    unfold loopPages
    omega
  constructor
  · rw [owned.translated_mapping isLive addrBound, ← same, mapped.unmapped position counted]
    rfl
  · refine ⟨position, pas position, same, targets position counted, ?_⟩
    rw [nextOwned.translated_mapping mapped.isLive addrBound, history, ← same,
      mapping_rangeEvents_page counted few]
    rfl

theorem RangeMapped.mapsWithin (isLive : state.Live root) (inside : va + size ≤ 2 ^ 32) :
    MapsWithin state next root va size := by
  intro table addr tableLive addrBound changed
  have visited : table = root ∧ ∃ position < loopPages size, rangePage va position = addr / 4096 := by
    by_contra away
    apply changed
    apply RangeMapped.translated_other reached mapped tableLive addrBound
    by_cases same : table = root
    · exact Or.inr fun visited => away ⟨same, visited⟩
    · exact Or.inl same
  have before := (RangeMapped.translated_visited reached mapped isLive (by omega) addrBound
    visited.2).1
  rw [visited.1]
  exact ⟨rfl, before, visited_meets ((visited_iff inside).mp visited.2)⟩

/-- The range is covered just if its last page is visited or was covered before. The
addresses of one page stand or fall together. -/
theorem RangeMapped.covers_iff (isLive : state.Live root) (inside : va + size ≤ 2 ^ 32)
    {accept : Nat → Option Nat → Prop}
    (visitedAccepted : ∀ addr position pa, addr < 2 ^ 32 → rangePage va position = addr / 4096 →
      target position pa →
      accept addr (some (ptePa (makePte pa (leafFlags flags)) + addr % 4096)))
    (wholePage : ∀ addr other, addr / 4096 = other / 4096 →
      accept other (state.translated root other) → accept addr (state.translated root addr)) :
    (∀ addr, va ≤ addr → addr < va + size → accept addr (next.translated root addr)) ↔
      LastPageVisited va size ∨
        accept (va + size - 1) (state.translated root (va + size - 1)) := by
  constructor
  · intro covered
    by_cases all : LastPageVisited va size
    · exact Or.inl all
    · obtain ⟨some, unvisited⟩ := last_unvisited all
      right
      have last := covered (va + size - 1) (by omega) (by omega)
      rw [RangeMapped.translated_other reached mapped isLive (by omega)
        (Or.inr fun visited => unvisited ((visited_iff inside).mp visited).2)] at last
      exact last
  · intro condition addr low high
    by_cases visited : ∃ position < loopPages size, rangePage va position = addr / 4096
    · obtain ⟨_, position, pa, same, isTarget, found⟩ :=
        RangeMapped.translated_visited reached mapped isLive (by omega) (by omega) visited
      rw [found]
      exact visitedAccepted addr position pa (by omega) same isTarget
    · obtain ⟨samePage, early⟩ :=
        unvisited_last low high fun between => visited ((visited_iff inside).mpr between)
      rw [RangeMapped.translated_other reached mapped isLive (by omega) (Or.inr visited)]
      cases condition with
      | inl all => exact absurd all early
      | inr before => exact wholePage addr (va + size - 1) samePage.symm before

end Ranges

section Coverage

variable {platform : Platform} {identity : Nat → Prop} {holes : HoleList}
  {state next : AddressSpaceManager} {root va size flags : Nat}
  (reached : Reached platform identity holes state) (isLive : state.Live root)
  (readable : flags &&& PteFlags.R ≠ 0) (inside : va + size ≤ 2 ^ 32)

include reached isLive readable inside

theorem allocateVmPages_covers (ran : allocateVmPages va size root flags state = .ok () next) :
    MapsWithin state next root va size ∧
      ((∀ addr, va ≤ addr → addr < va + size → next.translated root addr ≠ none) ↔
        LastPageVisited va size ∨ state.translated root (va + size - 1) ≠ none) := by
  have mapped := (@allocateVmPages_range platform identity holes state root va flags size reached
    isLive readable).of_ok ran
  refine ⟨RangeMapped.mapsWithin reached mapped isLive inside,
    @RangeMapped.covers_iff _ _ _ _ _ _ _ _ _ _ reached mapped isLive inside
      (fun _ found => found ≠ none) ?_ ?_⟩
  · intro _ _ _ _ _ _
    exact Option.some_ne_none _
  · intro addr other same found
    obtain ⟨pa, known⟩ := Option.ne_none_iff_exists'.mp found
    rw [(translated_page known same).2]
    exact Option.some_ne_none _

theorem unsafeMapIdentity_covers
    (ran : unsafeMapIdentity va size root flags state = .ok () next) :
    MapsWithin state next root va size ∧
      ((∀ addr, va ≤ addr → addr < va + size → next.translated root addr = some addr) ↔
        LastPageVisited va size ∨
          state.translated root (va + size - 1) = some (va + size - 1)) := by
  have wider := reached.mono (fun _ _ => (trivial : (fun _ : Nat => True) _))
  have mapped := (@unsafeMapIdentity_range platform (fun _ => True) holes state root va flags size
    wider isLive readable (fun _ _ _ => trivial)).of_ok ran
  refine ⟨RangeMapped.mapsWithin wider mapped isLive inside,
    @RangeMapped.covers_iff _ _ _ _ _ _ _ _ _ _ wider mapped isLive inside
      (fun addr found => found = some addr) ?_ ?_⟩
  · intro addr position pa addrBound page target
    have narrow : pa < 2 ^ 32 := by
      rw [target]
      exact wrap32_lt _
    rw [target, ← rangePage_eq] at *
    rw [ptePa_makePte (wrap32_lt _), frameOf, page]
    congr 1
    omega
  · intro addr other same found
    rw [(translated_page found same).2]
    congr 1
    omega

end Coverage

/-- After any run, a range is covered by a loop that returns exactly when its last page is
visited or was covered before; and no page that does not meet the range is mapped. -/
theorem ranges_covered_iff {platform : Platform} (valid : platform.Valid) (localMemSize : Nat)
    {operations : List Operation} {state : AddressSpaceManager}
    (run : Trace (Step platform) (new platform localMemSize) operations state)
    {root va size flags : Nat} (isLive : state.Live root) (readable : flags &&& PteFlags.R ≠ 0)
    (inside : va + size ≤ 2 ^ 32) :
    (∀ next, allocateVmPages va size root flags state = .ok () next →
        MapsWithin state next root va size ∧
          ((∀ addr, va ≤ addr → addr < va + size → next.translated root addr ≠ none) ↔
            LastPageVisited va size ∨ state.translated root (va + size - 1) ≠ none)) ∧
      ∀ next, unsafeMapIdentity va size root flags state = .ok () next →
        MapsWithin state next root va size ∧
          ((∀ addr, va ≤ addr → addr < va + size → next.translated root addr = some addr) ↔
            LastPageVisited va size ∨
              state.translated root (va + size - 1) = some (va + size - 1)) := by
  rw [new_withHoles] at run
  have reached := run_reached valid run
  constructor
  · intro next ran
    exact allocateVmPages_covers reached isLive readable inside ran
  · intro next ran
    exact unsafeMapIdentity_covers reached isLive readable inside ran

section Small

theorem forPages_one {size : Nat} {body : Nat → Action AddressSpaceManager Unit}
    {state next : AddressSpaceManager} (positive : 0 < size) (small : size ≤ PAGE_SIZE)
    (ran : body 0 state = .ok () next) :
    forPages size body pageLoopFuel 0 state = .ok () next := by
  have fuel : pageLoopFuel = 2 ^ 20 + 1 + 1 := rfl
  have second : wrap32 (0 + PAGE_SIZE) = PAGE_SIZE := by decide
  rw [fuel, forPages, if_pos positive, bind_ok ran, forPages, second,
    if_neg (Nat.not_lt_of_le small)]
  rfl

/-- A page and a half from the middle of a page on: the half page at the end is not mapped. -/
theorem unaligned_range_uncovered : ∃ state next : AddressSpaceManager,
    Trace (Step smallPlatform) (new smallPlatform 0) [.allocatePageTable] state ∧
      state.Live 0x1000 ∧
      allocateVmPages 0x10800 0x1000 0x1000 PteFlags.R state = .ok () next ∧
      next.translated 0x1000 0x11000 = none := by
  obtain ⟨state, run, _, history, _, isLive, spare⟩ := smallPlatform_table
  have reached := run_reached smallPlatform_valid run
  obtain ⟨owner, owned⟩ := reached.owned
  obtain ⟨next, _, _, ran, _⟩ := @allocateOneVmPage_returns _ _ owner state 0x1000 0x10800
    PteFlags.R 1 owned isLive (by decide) (by decide) (by rw [history]; rfl) spare.forNode
  have loop : allocateVmPages 0x10800 0x1000 0x1000 PteFlags.R state = .ok () next :=
    @forPages_one _ (fun offset => allocateOneVmPage (wrap32 (0x10800 + offset)) 0x1000 PteFlags.R)
      state next (by decide) (by decide) ran
  have mapped := (allocateVmPages_range reached isLive (by decide)).of_ok loop
  refine ⟨state, next, run, isLive, loop, ?_⟩
  have unvisited := mt (@visited_iff 0x10800 0x1000 (0x11000 / 4096) (by decide)).mp (by decide)
  rw [RangeMapped.translated_other reached mapped isLive (by decide) (Or.inr unvisited), owned.translated_mapping isLive (by decide), history]
  rfl

theorem ranges_covered_iff_unaligned : ∃ state : AddressSpaceManager,
    Trace (Step smallPlatform) (new smallPlatform 0) [.allocatePageTable] state ∧
      (∀ next, allocateVmPages 0x10800 0x1000 0x1000 PteFlags.R state = .ok () next →
          MapsWithin state next 0x1000 0x10800 0x1000 ∧
            ((∀ addr, 0x10800 ≤ addr → addr < 0x10800 + 0x1000 →
                next.translated 0x1000 addr ≠ none) ↔
              LastPageVisited 0x10800 0x1000 ∨
                state.translated 0x1000 (0x10800 + 0x1000 - 1) ≠ none)) ∧
        ∀ next, unsafeMapIdentity 0x10800 0x1000 0x1000 PteFlags.R state = .ok () next →
          MapsWithin state next 0x1000 0x10800 0x1000 ∧
            ((∀ addr, 0x10800 ≤ addr → addr < 0x10800 + 0x1000 →
                next.translated 0x1000 addr = some addr) ↔
              LastPageVisited 0x10800 0x1000 ∨
                state.translated 0x1000 (0x10800 + 0x1000 - 1) = some (0x10800 + 0x1000 - 1)) := by
  obtain ⟨state, run, _, _, _, isLive, _⟩ := smallPlatform_table
  exact ⟨state, run, ranges_covered_iff smallPlatform_valid 0 run isLive (by decide) (by decide)⟩

end Small

end Espiral.AddressSpaceManager
