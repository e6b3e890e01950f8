import Mathlib.Order.Interval.Finset.Nat
import Espiral.Mm.AddressSpaceRuns

/-!
# Counting frames

There are fewer frames than pages of an address space, so tables and mapped
pages are few. While no unused frame is reported as a hole and enough frames
are unused, a page that is not mapped yet can be mapped, and it is known which
frames that takes.
-/

namespace Espiral.AddressSpaceManager

set_option autoImplicit false

open ByteMemory Contracts MachineWords Traces VortexMemoryAllocator

section Bounds

variable {platform : Platform} {identity : Nat → Prop} {owner : Nat → Option Role}
  {state : AddressSpaceManager}

theorem frames_few (valid : platform.Valid) {frames : Finset Nat}
    (all : ∀ frame ∈ frames, platform.IsFrame frame) : frames.card < 2 ^ 20 := by
  have bounds : ∀ frame ∈ frames, frame / 4096 ∈ Finset.Ico 1 (2 ^ 20) := by
    intro frame member
    obtain ⟨_, low, high⟩ := all frame member
    have positive := valid.basePositive
    have aligned := valid.baseAligned
    have narrow := valid.narrow
    rw [Finset.mem_Ico]
    omega
  have apart : Set.InjOn (fun frame => frame / 4096) frames := by
    intro first firstMember second secondMember same
    have firstAligned := (all first firstMember).1
    have secondAligned := (all second secondMember).1
    change first / 4096 = second / 4096 at same
    omega
  have few := Finset.card_le_card_of_injOn _ bounds apart
  rw [Nat.card_Ico] at few
  omega

theorem WellOwned.frames_few (owned : WellOwned platform identity owner state) :
    state.frames.card < 2 ^ 20 :=
  AddressSpaceManager.frames_few owned.pool.valid fun _ used => owned.pool.isFrame used

theorem WellOwned.assigned_few (owned : WellOwned platform identity owner state) {count : Nat}
    {assign : Nat → Nat} (used : ∀ index < count, assign index ∈ state.frames)
    (apart : ∀ first < count, ∀ second < count, assign first = assign second → first = second) :
    count < 2 ^ 20 := by
  have few := @Finset.card_le_card_of_injOn Nat Nat (Finset.range count) state.frames assign
    (fun index member => used index (Finset.mem_range.mp member))
    (fun first firstMember second secondMember same =>
      apart first (by simpa using firstMember) second (by simpa using secondMember) same)
  rw [Finset.card_range] at few
  exact Nat.lt_of_le_of_lt few owned.frames_few

/-- Without pages that are mapped to themselves no table maps every page. -/
theorem WellOwned.not_all_mapped {root : Nat}
    (owned : WellOwned platform (fun _ => False) owner state) (isLive : state.Live root) :
    ∃ page < 2 ^ 20, mapping state.history root page = none := by
  by_contra none
  have mapped : ∀ page < 2 ^ 20, ∃ pte, mapping state.history root page = some pte := by
    intro page bound
    apply Option.ne_none_iff_exists'.mp
    intro missing
    exact none ⟨page, bound, missing⟩
  have owns : ∀ page < 2 ^ 20, owner (ptePa ((mapping state.history root page).getD 0)) =
      some (.leaf root page) := by
    intro page bound
    obtain ⟨pte, found⟩ := mapped page bound
    rw [found, Option.getD_some]
    cases owned.leaf_owner isLive bound found with
    | inl has => exact has
    | inr itself => exact itself.1.elim
  have few := @WellOwned.assigned_few _ _ _ _ owned (2 ^ 20)
    (fun page => ptePa ((mapping state.history root page).getD 0))
    (fun page bound => (owned.used _ _ (owns page bound)).1) (by
      intro first firstBound second secondBound same
      have firstOwns := owns first firstBound
      have secondOwns := owns second secondBound
      change ptePa _ = ptePa _ at same
      rw [same, secondOwns] at firstOwns
      simpa using firstOwns.symm)
  exact Nat.lt_irrefl _ few

end Bounds

/-- No unused frame is reported as a hole, and at least this many are unused. -/
structure Spare (platform : Platform) (hole : Nat → Bool) (used : Finset Nat) (count : Nat) :
    Prop where
  outside : ∀ frame, platform.IsFrame frame → frame ∉ used → hole frame = false
  enough : ∃ spare : Finset Nat, count ≤ spare.card ∧
    ∀ frame ∈ spare, platform.IsFrame frame ∧ frame ∉ used

section Requests

variable {platform : Platform} {hole : Nat → Bool} {used last : Finset Nat} {count : Nat}

theorem Spare.take (spare : Spare platform hole used (count + 1)) (frame : Nat) :
    Spare platform hole (insert frame used) count := by
  obtain ⟨frames, size, unused⟩ := spare.enough
  refine ⟨?_, frames.erase frame, ?_, ?_⟩
  · intro other isFrame away
    exact spare.outside other isFrame fun before => away (Finset.mem_insert_of_mem before)
  · have card := @Finset.pred_card_le_card_erase Nat frames frame _
    omega
  · intro other member
    obtain ⟨different, before⟩ := Finset.mem_erase.mp member
    refine ⟨(unused other before).1, ?_⟩
    rw [Finset.mem_insert, not_or]
    exact ⟨different, (unused other before).2⟩

theorem Spare.request {result : Option Nat} (spare : Spare platform hole used (count + 1))
    (outcome : PageOutcome platform hole used result last) :
    (∃ frame, result = some frame ∧ NextFrame platform used frame ∧ last = insert frame used) ∧
      Spare platform hole last count := by
  obtain ⟨frames, size, unused⟩ := spare.enough
  cases outcome with
  | full full =>
      obtain ⟨frame, member⟩ := Finset.card_pos.mp (by omega : 0 < frames.card)
      exact absurd (full frame (unused frame member).1) (unused frame member).2
  | direct first _ => exact ⟨⟨_, rfl, first, rfl⟩, spare.take _⟩
  | discarded first inside _ =>
      rw [spare.outside _ first.isFrame first.unused] at inside
      cases inside
  | retried first inside _ =>
      rw [spare.outside _ first.isFrame first.unused] at inside
      cases inside

theorem Spare.fewer {less : Nat} (spare : Spare platform hole used count) (order : less ≤ count) :
    Spare platform hole used less where
  outside := spare.outside
  enough := by
    obtain ⟨frames, size, unused⟩ := spare.enough
    exact ⟨frames, order.trans size, unused⟩

def nodesNeeded (memory : Memory) (root va : Nat) : Nat :=
  if pteValid (entryAt memory root (va / 4096 / 1024)) then 0 else 1

theorem nodesNeeded_le (memory : Memory) (root va : Nat) : nodesNeeded memory root va ≤ 1 := by
  unfold nodesNeeded
  split
  · exact Nat.zero_le 1
  · exact Nat.le_refl 1

theorem Spare.forNode {memory : Memory} {root va : Nat}
    (spare : Spare platform hole used (count + 2)) :
    Spare platform hole used (count + nodesNeeded memory root va + 1) :=
  spare.fewer (Nat.add_le_add_right (Nat.add_le_add_left (nodesNeeded_le memory root va) count) 1)

theorem Spare.withNode {memory : Memory} {root va : Nat}
    (spare : Spare platform hole used (count + nodesNeeded memory root va))
    (withNode : WithNode platform hole memory root va used last) :
    Spare platform hole last count := by
  unfold WithNode at withNode
  unfold nodesNeeded at spare
  split at withNode
  · rw [withNode]
    exact spare.fewer (Nat.le_add_right count _)
  · next missing =>
      obtain ⟨node, outcome⟩ := withNode
      rw [if_neg missing] at spare
      exact (spare.request outcome).2

theorem nodesNeeded_mapped {identity : Nat → Prop} {owner : Nat → Option Role}
    {state : AddressSpaceManager} (owned : WellOwned platform identity owner state)
    {root va page pte : Nat} (isLive : state.Live root) (bound : page < 2 ^ 20)
    (mapped : mapping state.history root page = some pte) (near : va / 4096 / 1024 = page / 1024) :
    nodesNeeded state.view root va = 0 := by
  rw [← owned.maps root page isLive bound, leafOf] at mapped
  by_cases upper : pteValid (entryAt state.view root (page / 1024)) = true
  · rw [nodesNeeded, near, if_pos upper]
  · rw [if_neg upper] at mapped
    cases mapped

end Requests

section Calls

variable {platform : Platform} {identity : Nat → Prop} {owner : Nat → Option Role}
  {state : AddressSpaceManager} {root va flags count : Nat}
  (owned : WellOwned platform identity owner state) (isLive : state.Live root)
  (vaBound : va < 2 ^ 32) (readable : flags &&& PteFlags.R ≠ 0)
  (unmapped : mapping state.history root (va / 4096) = none)

include owned isLive vaBound readable unmapped

theorem mapAddrInner_returns {pa : Nat} (paBound : pa < 2 ^ 32) {given : Option Nat}
    (target : given = some (frameOf pa) ∧ frameOf pa ∈ state.frames ∧ owner (frameOf pa) = none ∨
      identity (frameOf pa) ∧ frameOf pa = va / 4096 * 4096)
    (spare : Spare platform (fun frame => state.hole_list_.addrInHole frame) state.frames
      (count + nodesNeeded state.view root va)) :
    ∃ next later, mapAddrInner va pa root flags state = .ok () next ∧
      Advance platform identity owner later state next ∧
      next.history = .mapped root va pa flags :: state.history ∧
      WithNode platform (fun frame => state.hole_list_.addrInHole frame) state.view root va
        state.frames next.frames ∧
      Spare platform (fun frame => state.hole_list_.addrInHole frame) next.frames count := by
  cases ensures_iff.mp (mapAddrInner_spec owned isLive vaBound paBound readable target) with
  | inl returned =>
      obtain ⟨_, next, ran, later, advanced, history, _, _, withNode⟩ := returned
      exact ⟨next, later, ran, advanced, history, withNode, spare.withNode withNode⟩
  | inr thrown =>
      obtain ⟨_, _, _, _, _, _, _, reason⟩ := thrown
      cases reason with
      | inl noNode =>
          obtain ⟨missing, outcome⟩ := noNode
          rw [nodesNeeded, missing] at spare
          obtain ⟨⟨_, impossible, _⟩, _⟩ := spare.request outcome
          cases impossible
      | inr mapped => exact absurd unmapped mapped

theorem allocateOneVmPage_returns
    (spare : Spare platform (fun frame => state.hole_list_.addrInHole frame) state.frames
      (count + nodesNeeded state.view root va + 1)) :
    ∃ next later pa, allocateOneVmPage va root flags state = .ok () next ∧
      Advance platform identity owner later state next ∧
      next.history = .mapped root va pa flags :: state.history ∧
      NextFrame platform state.frames pa ∧
      WithNode platform (fun frame => state.hole_list_.addrInHole frame) state.view root va
        (insert pa state.frames) next.frames ∧
      Spare platform (fun frame => state.hole_list_.addrInHole frame) next.frames count := by
  cases ensures_iff.mp (allocateOneVmPage_spec owned isLive vaBound readable) with
  | inl returned =>
      obtain ⟨_, next, ran, later, pa, advanced, history, _, _, ⟨between, outcome, withNode⟩, _⟩ :=
        returned
      obtain ⟨⟨frame, same, first, grown⟩, rest⟩ := spare.request outcome
      cases same
      rw [grown] at withNode rest
      exact ⟨next, later, pa, ran, advanced, history, first, withNode, rest.withNode withNode⟩
  | inr thrown =>
      obtain ⟨_, _, _, _, _, _, _, reason⟩ := thrown
      exfalso
      cases reason with
      | noFrame outcome =>
          obtain ⟨⟨_, impossible, _⟩, _⟩ := spare.request outcome
          cases impossible
      | noNode first missing outcome =>
          rw [nodesNeeded, missing] at spare
          obtain ⟨⟨_, impossible, _⟩, _⟩ := (spare.request first).2.request outcome
          cases impossible
      | alreadyMapped mapped => exact mapped unmapped

end Calls

theorem allocatePageTable_returns {platform : Platform} {identity : Nat → Prop}
    {owner : Nat → Option Role} {state : AddressSpaceManager} {count : Nat}
    (owned : WellOwned platform identity owner state)
    (spare : Spare platform (fun frame => state.hole_list_.addrInHole frame) state.frames
      (count + 1)) :
    ∃ root next later, allocatePageTable state = .ok (some root) next ∧
      Advance platform identity owner later state next ∧
      next.history = .created root :: state.history ∧
      Spare platform (fun frame => state.hole_list_.addrInHole frame) next.frames count := by
  obtain ⟨result, grown, ranNode, _, _, asked⟩ := allocatePageTableNode_run owned.pool
  obtain ⟨⟨root, same, first, _⟩, left⟩ := spare.request asked
  have narrow : root + 4096 ≤ 2 ^ 32 := first.isFrame.2.2.trans owned.pool.valid.narrow
  obtain ⟨zeroed, wrote, allocator, _⟩ := @zeroNode_run grown root narrow
  have ran : allocatePageTable state = .ok (some root)
      { zeroed with history := .created root :: zeroed.history } := by
    rw [allocatePageTable, bind_ok ranNode, same]
    simp only
    rw [bind_ok wrote]
    rfl
  obtain ⟨other, next, ranSpec, later, advanced, _, outcome⟩ := allocatePageTable_spec owned
  rw [ran] at ranSpec
  cases ranSpec
  rcases outcome with ⟨impossible, _⟩ | ⟨created, here, _, history⟩
  · cases impossible
  · cases here
    refine ⟨root, _, later, ran, advanced, history, ?_⟩
    change Spare platform _ (frames zeroed) count
    rw [AddressSpaceManager.frames, allocator]
    exact left

structure Roomy (platform : Platform) (identity : Nat → Prop) (holes : HoleList) (root count : Nat)
    (history : List MappingEvent) (state : AddressSpaceManager) : Prop where
  reached : Reached platform identity holes state
  isLive : state.Live root
  history : state.history = history
  spare : Spare platform (fun frame => holes.addrInHole frame) state.frames count

section Rooms

variable {platform : Platform} {identity : Nat → Prop} {holes : HoleList}
  {root count nodes va flags : Nat} {history : List MappingEvent} {state : AddressSpaceManager}

theorem Roomy.near (roomy : Roomy platform identity holes root count history state) {page pte : Nat}
    (bound : page < 2 ^ 20) (mapped : mapping history root page = some pte)
    (near : va / 4096 / 1024 = page / 1024) : nodesNeeded state.view root va ≤ 0 := by
  obtain ⟨owner, owned⟩ := roomy.reached.owned
  rw [← roomy.history] at mapped
  exact Nat.le_of_eq (nodesNeeded_mapped owned roomy.isLive bound mapped near)

variable (vaBound : va < 2 ^ 32) (readable : flags &&& PteFlags.R ≠ 0)
  (unmapped : mapping history root (va / 4096) = none) (node : nodesNeeded state.view root va ≤ nodes)

include vaBound readable unmapped node

theorem Roomy.frame (roomy : Roomy platform identity holes root (count + nodes + 1) history state) :
    ∃ next pa, allocateOneVmPage va root flags state = .ok () next ∧ platform.IsFrame pa ∧
      Roomy platform identity holes root count (.mapped root va pa flags :: history) next := by
  obtain ⟨owner, owned⟩ := roomy.reached.owned
  have spare := roomy.spare.fewer
    (Nat.add_le_add_right (Nat.add_le_add_left node count) 1)
  have free := unmapped
  rw [← roomy.reached.holes] at spare
  rw [← roomy.history] at free
  obtain ⟨next, later, pa, ran, advanced, grown, first, _, left⟩ :=
    allocateOneVmPage_returns owned roomy.isLive vaBound readable free spare
  rw [roomy.reached.holes] at left
  exact ⟨next, pa, ran, first.isFrame, roomy.reached.of_mapped advanced grown free
    (first.isFrame.narrow owned.pool.valid), live_of_mapped grown roomy.isLive,
    by rw [grown, roomy.history], left⟩

theorem Roomy.itself (roomy : Roomy platform identity holes root (count + nodes) history state)
    (allowed : identity (frameOf va)) :
    ∃ next, mapAddrInner va va root flags state = .ok () next ∧
      Roomy platform identity holes root count (.mapped root va va flags :: history) next := by
  obtain ⟨owner, owned⟩ := roomy.reached.owned
  have spare := roomy.spare.fewer (Nat.add_le_add_left node count)
  have free := unmapped
  rw [← roomy.reached.holes] at spare
  rw [← roomy.history] at free
  obtain ⟨next, later, ran, advanced, grown, _, left⟩ :=
    @mapAddrInner_returns _ _ _ _ _ _ _ count owned roomy.isLive vaBound readable free va vaBound
      none (Or.inr ⟨allowed, rfl⟩) spare
  rw [roomy.reached.holes] at left
  exact ⟨next, ran, roomy.reached.of_mapped advanced grown free vaBound,
    live_of_mapped grown roomy.isLive, by rw [grown, roomy.history], left⟩

end Rooms

section Small

theorem smallPlatform_next {used : Finset Nat} {count : Nat} (inside : count ≤ 3)
    (usedIs : ∀ index < 4, (index + 1) * 4096 ∈ used ↔ index < count) :
    NextFrame smallPlatform used ((count + 1) * 4096) := by
  have start : smallPlatform.ALLOC_BASE_ADDR = 0x1000 := rfl
  have stop : smallPlatform.GLOBAL_MEM_SIZE = 0x5000 := rfl
  refine ⟨⟨Nat.dvd_mul_left _ _, by omega, by omega⟩, ?_, ?_⟩
  · intro member
    exact Nat.lt_irrefl _ ((usedIs count (by omega)).mp member)
  · intro lower isFrame before
    obtain ⟨⟨position, same⟩, low, high⟩ := isFrame
    have place : lower = (position - 1 + 1) * 4096 := by omega
    rw [place]
    exact (usedIs (position - 1) (by omega)).mpr (by omega)

theorem smallPlatform_table : ∃ created,
    Trace (Step smallPlatform) (new smallPlatform 0) [.allocatePageTable] created ∧
      allocatePageTable (new smallPlatform 0) = .ok (some 0x1000) created ∧
      created.history = [.created 0x1000] ∧ created.frames = {0x1000} ∧ created.Live 0x1000 ∧
      Spare smallPlatform (fun frame => created.hole_list_.addrInHole frame) created.frames 3 := by
  obtain ⟨created, ran, history, frames⟩ := smallPlatform_created
  have setup : Trace (Step smallPlatform) (new smallPlatform 0) [.allocatePageTable] created :=
    Trace.cons ⟨trivial, Or.inl ⟨_, ran⟩⟩ (Trace.nil created)
  refine ⟨created, setup, ran, history, frames, ?_, ?_, {0x2000, 0x3000, 0x4000}, by decide, ?_⟩
  · rw [Live, history]
    rfl
  · intro frame isFrame _
    rw [(run_reached smallPlatform_valid setup).holes]
    exact smallPlatform_noHoles frame isFrame
  · rw [frames]
    decide

end Small

end Espiral.AddressSpaceManager
