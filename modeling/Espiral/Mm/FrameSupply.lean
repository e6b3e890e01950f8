import Espiral.Mm.RangeMapping
import Espiral.Mm.SpareFrames
import Espiral.Mm.TableCalls

/-!
# Enough frames for a set of pages

How many frames a set of unmapped pages takes is known beforehand: one for each
page and one for each node that is missing. While that many unused frames are
not reported as holes, consecutive pages are mapped one after another.
-/

namespace Espiral.AddressSpaceManager

set_option autoImplicit false

open ByteMemory Contracts MachineWords VortexMemoryAllocator

def Supply (platform : Platform) (hole : Nat → Bool) (used : Finset Nat) (count : Nat) : Prop :=
  ∃ supply : Finset Nat, count ≤ supply.card ∧
    ∀ frame ∈ supply, platform.IsFrame frame ∧ frame ∉ used ∧ hole frame = false

def missingNodes (memory : Memory) (root : Nat) (pages : Finset Nat) : Finset Nat :=
  (pages.image fun page => page / 1024).filter fun index =>
    pteValid (entryAt memory root index) = false

def framesNeeded (memory : Memory) (root : Nat) (pages : Finset Nat) : Nat :=
  pages.card + (missingNodes memory root pages).card

section Supply

variable {platform : Platform} {hole : Nat → Bool} {used last : Finset Nat} {count less : Nat}

theorem Supply.fewer (supply : Supply platform hole used count) (order : less ≤ count) :
    Supply platform hole used less := by
  obtain ⟨frames, size, unused⟩ := supply
  exact ⟨frames, order.trans size, unused⟩

theorem Spare.supply (spare : Spare platform hole used count) :
    Supply platform hole used count := by
  obtain ⟨frames, size, unused⟩ := spare.enough
  refine ⟨frames, size, ?_⟩
  intro frame member
  obtain ⟨isFrame, notUsed⟩ := unused frame member
  exact ⟨isFrame, notUsed, spare.outside frame isFrame notUsed⟩

theorem Supply.take (supply : Supply platform hole used (count + 1)) (frame : Nat) :
    Supply platform hole (insert frame used) count := by
  obtain ⟨frames, size, unused⟩ := supply
  refine ⟨frames.erase frame, ?_, ?_⟩
  · have card := @Finset.pred_card_le_card_erase Nat frames frame _
    omega
  · intro other member
    obtain ⟨different, before⟩ := Finset.mem_erase.mp member
    obtain ⟨isFrame, notUsed, outside⟩ := unused other before
    refine ⟨isFrame, ?_, outside⟩
    rw [Finset.mem_insert, not_or]
    exact ⟨different, notUsed⟩

theorem Supply.skip (supply : Supply platform hole used count) {frame : Nat}
    (inside : hole frame = true) : Supply platform hole (insert frame used) count := by
  obtain ⟨frames, size, unused⟩ := supply
  refine ⟨frames, size, ?_⟩
  intro other member
  obtain ⟨isFrame, notUsed, outside⟩ := unused other member
  refine ⟨isFrame, ?_, outside⟩
  rw [Finset.mem_insert, not_or]
  refine ⟨?_, notUsed⟩
  intro same
  rw [same, inside] at outside
  cases outside

theorem Supply.not_full (supply : Supply platform hole used (count + 1)) :
    ¬Full platform used := by
  obtain ⟨frames, size, unused⟩ := supply
  obtain ⟨frame, member⟩ := Finset.card_pos.mp (by omega : 0 < frames.card)
  intro full
  exact (unused frame member).2.1 (full frame (unused frame member).1)

theorem Supply.request {result : Option Nat} (supply : Supply platform hole used (count + 1))
    (outcome : PageOutcome platform hole used result last) :
    (∃ frame, result = some frame) ∧ Supply platform hole last count := by
  cases outcome with
  | full full => exact absurd full supply.not_full
  | direct _ _ => exact ⟨⟨_, rfl⟩, supply.take _⟩
  | discarded _ inside full => exact absurd full (supply.skip inside).not_full
  | retried _ inside _ => exact ⟨⟨_, rfl⟩, (supply.skip inside).take _⟩

end Supply

section Needed

variable {memory later : Memory} {root page : Nat} {pages : Finset Nat}

theorem framesNeeded_le (memory : Memory) (root : Nat) (pages : Finset Nat) :
    framesNeeded memory root pages ≤ 2 * pages.card := by
  have nodes : (missingNodes memory root pages).card ≤ pages.card :=
    (Finset.card_filter_le _ _).trans Finset.card_image_le
  unfold framesNeeded
  omega

theorem isMissing (member : page ∈ pages)
    (absent : pteValid (entryAt memory root (page / 1024)) = false) :
    page / 1024 ∈ missingNodes memory root pages := by
  rw [missingNodes, Finset.mem_filter, Finset.mem_image]
  exact ⟨⟨page, member, rfl⟩, absent⟩

theorem framesNeeded_member (member : page ∈ pages) :
    (if pteValid (entryAt memory root (page / 1024)) then 0 else 1) + 1 ≤
      framesNeeded memory root pages := by
  have some := Finset.card_pos.mpr ⟨page, member⟩
  unfold framesNeeded
  cases present : pteValid (entryAt memory root (page / 1024)) with
  | true =>
      rw [if_pos rfl]
      omega
  | false =>
      have positive := Finset.card_pos.mpr ⟨_, isMissing member present⟩
      rw [if_neg Bool.false_ne_true]
      omega

/-- Mapping a page takes its frame and its node off what the pages need. -/
theorem framesNeeded_erase (member : page ∈ pages)
    (kept : ∀ index < 1024, pteValid (entryAt memory root index) = true →
      pteValid (entryAt later root index) = true)
    (linked : pteValid (entryAt later root (page / 1024)) = true)
    (small : ∀ page ∈ pages, page < 2 ^ 20) :
    framesNeeded later root (pages.erase page) +
        (if pteValid (entryAt memory root (page / 1024)) then 0 else 1) + 1 ≤
      framesNeeded memory root pages := by
  have subset : missingNodes later root (pages.erase page) ⊆
      (missingNodes memory root pages).erase (page / 1024) := by
    intro index inside
    rw [missingNodes, Finset.mem_filter, Finset.mem_image] at inside
    obtain ⟨⟨other, otherMember, same⟩, invalid⟩ := inside
    have otherBound := small other (Finset.mem_of_mem_erase otherMember)
    rw [Finset.mem_erase, missingNodes, Finset.mem_filter, Finset.mem_image]
    refine ⟨?_, ⟨other, Finset.mem_of_mem_erase otherMember, same⟩, ?_⟩
    · intro here
      rw [here, linked] at invalid
      cases invalid
    · cases valid : pteValid (entryAt memory root index) with
      | false => rfl
      | true =>
          rw [kept index (by omega) valid] at invalid
          cases invalid
  have fewer := Finset.card_le_card subset
  have smaller := Finset.card_erase_of_mem member
  have some := Finset.card_pos.mpr ⟨page, member⟩
  unfold framesNeeded
  by_cases present : pteValid (entryAt memory root (page / 1024)) = true
  · have most := @Finset.card_erase_le Nat (missingNodes memory root pages) (page / 1024) _
    rw [if_pos present]
    omega
  · rw [Bool.not_eq_true] at present
    have node := isMissing member present
    have less := Finset.card_erase_of_mem node
    have positive := Finset.card_pos.mpr ⟨_, node⟩
    rw [present, if_neg Bool.false_ne_true]
    omega

end Needed

section Pages

variable {platform : Platform} {identity : Nat → Prop} {owner : Nat → Option Role}
  {holes : HoleList} {state : AddressSpaceManager} {root va flags count : Nat}

theorem Supply.withNode {hole : Nat → Bool} {memory : Memory} {used last : Finset Nat}
    (supply : Supply platform hole used
      (count + if pteValid (entryAt memory root (va / 4096 / 1024)) then 0 else 1))
    (withNode : WithNode platform hole memory root va used last) :
    Supply platform hole last count := by
  unfold WithNode at withNode
  split at withNode
  · rw [withNode]
    exact supply.fewer (Nat.le_add_right count _)
  · next missing =>
      obtain ⟨node, outcome⟩ := withNode
      rw [if_neg missing] at supply
      exact (supply.request outcome).2

theorem WellOwned.allocateOneVmPage_keeps (owned : WellOwned platform identity owner state)
    (isLive : state.Live root) (vaBound : va < 2 ^ 32) (readable : flags &&& PteFlags.R ≠ 0) :
    Ensures (allocateOneVmPage va root flags) state (fun _ next => TablesKept state next)
      (fun _ next => TablesKept state next) := by
  obtain ⟨result, grown, ran, pool, tables, outcome⟩ := allocateOnePage_run owned.pool
  have growing := owned.allocated pool tables outcome.grows
  have kept := owned.separated.same tables
  rw [allocateOneVmPage]
  apply ensures_bind_of_run ran
  cases result with
  | none => exact ensures_throw kept
  | some pa =>
      have isFrame := outcome.fresh.2.2
      have positive := owned.pool.valid.basePositive
      have low := isFrame.2.1
      have nonzero : pa ≠ 0 := by omega
      simp only [Option.getD_some, nonzero, if_false]
      apply (mapAddrInner_keeps kept.separated (kept.entries.live root isLive) vaBound
        (isFrame.narrow owned.pool.valid) readable growing.owned.handsOutUnlinked).weaken
      · intro _ _ later
        exact kept.trans later
      · intro _ _ later
        exact kept.trans later

theorem allocateOneVmPage_supplied (owned : WellOwned platform identity owner state)
    (isLive : state.Live root) (vaBound : va < 2 ^ 32) (readable : flags &&& PteFlags.R ≠ 0)
    (unmapped : mapping state.history root (va / 4096) = none)
    (supply : Supply platform (fun frame => state.hole_list_.addrInHole frame) state.frames
      (count + (if pteValid (entryAt state.view root (va / 4096 / 1024)) then 0 else 1) + 1)) :
    ∃ next later pa, allocateOneVmPage va root flags state = .ok () next ∧
      Advance platform identity owner later state next ∧
      next.history = .mapped root va pa flags :: state.history ∧ platform.IsFrame pa ∧
      TablesKept state next ∧
      Supply platform (fun frame => state.hole_list_.addrInHole frame) next.frames count := by
  have keeps := owned.allocateOneVmPage_keeps isLive vaBound readable
  cases ensures_iff.mp (allocateOneVmPage_spec owned isLive vaBound readable) with
  | inl returned =>
      obtain ⟨_, next, ran, later, pa, advanced, history, _, isFrame, ⟨between, outcome, withNode⟩,
        _⟩ := returned
      exact ⟨next, later, pa, ran, advanced, history, isFrame, keeps.of_ok ran,
        (supply.request outcome).2.withNode withNode⟩
  | inr thrown =>
      obtain ⟨_, _, _, _, _, _, _, reason⟩ := thrown
      exfalso
      cases reason with
      | noFrame outcome =>
          obtain ⟨_, impossible⟩ := (supply.request outcome).1
          cases impossible
      | noNode first missing outcome =>
          rw [missing] at supply
          obtain ⟨_, impossible⟩ := ((supply.request first).2.request outcome).1
          cases impossible
      | alreadyMapped mapped => exact mapped unmapped

theorem WellOwned.linked (owned : WellOwned platform identity owner state)
    (isLive : state.Live root) {page pte : Nat} (bound : page < 2 ^ 20)
    (mapped : mapping state.history root page = some pte) :
    pteValid (entryAt state.view root (page / 1024)) = true := by
  rw [← owned.maps root page isLive bound, leafOf] at mapped
  cases valid : pteValid (entryAt state.view root (page / 1024)) with
  | true => rfl
  | false =>
      rw [valid] at mapped
      cases mapped

end Pages

structure Awaiting (platform : Platform) (identity : Nat → Prop) (holes : HoleList) (root : Nat)
    (pages : Finset Nat) (state : AddressSpaceManager) : Prop where
  reached : Reached platform identity holes state
  isLive : state.Live root
  small : ∀ page ∈ pages, page < 2 ^ 20
  unmapped : ∀ page ∈ pages, mapping state.history root page = none
  supply : Supply platform (fun frame => holes.addrInHole frame) state.frames
    (framesNeeded state.view root pages)

theorem Awaiting.page {platform : Platform} {identity : Nat → Prop} {holes : HoleList}
    {root va flags : Nat} {pages : Finset Nat} {state : AddressSpaceManager}
    (awaiting : Awaiting platform identity holes root pages state) (vaBound : va < 2 ^ 32)
    (member : va / 4096 ∈ pages) (readable : flags &&& PteFlags.R ≠ 0) :
    ∃ next pa, allocateOneVmPage va root flags state = .ok () next ∧
      Awaiting platform identity holes root (pages.erase (va / 4096)) next ∧
      next.history = .mapped root va pa flags :: state.history := by
  obtain ⟨owner, owned⟩ := awaiting.reached.owned
  have unmapped := awaiting.unmapped _ member
  have enough := @framesNeeded_member state.view root (va / 4096) _ member
  have supply := awaiting.supply
  rw [← awaiting.reached.holes, ← Nat.sub_add_cancel enough, ← Nat.add_assoc] at supply
  obtain ⟨next, later, pa, ran, advanced, history, isFrame, kept, left⟩ :=
    allocateOneVmPage_supplied owned awaiting.isLive vaBound readable unmapped supply
  rw [awaiting.reached.holes] at left
  have nextLive := live_of_mapped history awaiting.isLive
  have here : mapping next.history root (va / 4096) = some (makePte pa (leafFlags flags)) := by
    rw [history, mapping, if_pos ⟨rfl, rfl⟩]
  have needs := @framesNeeded_erase state.view next.view root (va / 4096) pages member
    (fun index small valid => by
      rw [kept.entries.upper root index awaiting.isLive small valid]
      exact valid)
    (advanced.owned.linked nextLive (by omega) here) awaiting.small
  refine ⟨next, pa, ran, ⟨awaiting.reached.of_mapped advanced history unmapped
    (isFrame.narrow owned.pool.valid), nextLive, ?_, ?_, left.fewer (by omega)⟩, history⟩
  · intro other inside
    exact awaiting.small other (Finset.mem_of_mem_erase inside)
  · intro other inside
    obtain ⟨different, before⟩ := Finset.mem_erase.mp inside
    rw [history, mapping, if_neg fun both => different both.2.symm]
    exact awaiting.unmapped other before

/-- The pages from `first` up to `position` have been mapped one after another, and there
are frames for the others up to `stop`. -/
structure Laid (platform : Platform) (identity : Nat → Prop) (holes : HoleList) (root : Nat)
    (flagsOf : Nat → Nat) (first stop : Nat) (start : AddressSpaceManager) (position : Nat)
    (state : AddressSpaceManager) : Prop where
  reached : Reached platform identity holes state
  isLive : state.Live root
  within : first ≤ position ∧ position ≤ stop ∧ stop < 2 ^ 20
  supply : Supply platform (fun frame => holes.addrInHole frame) state.frames
    (framesNeeded state.view root (Finset.Ico position stop))
  unmapped : ∀ page, position ≤ page → page < stop → mapping state.history root page = none
  events : ∃ newer, state.history = newer ++ start.history ∧
    (∀ event ∈ newer, ∃ va pa flags, event = .mapped root va pa flags) ∧
    pagesOf root newer = (List.range' first (position - first)).reverse
  flagged : ∀ page, first ≤ page → page < position →
    ∃ pa, mapping state.history root page = some (makePte pa (leafFlags (flagsOf page)))

section Layout

variable {platform : Platform} {identity : Nat → Prop} {holes : HoleList} {root first stop : Nat}
  {flagsOf : Nat → Nat} {start state : AddressSpaceManager} {position va size flags : Nat}

theorem Laid.page (laid : Laid platform identity holes root flagsOf first stop start position state)
    (more : position < stop) (vaBound : va < 2 ^ 32) (page : va / 4096 = position)
    (flagsAre : flagsOf position = flags) (readable : flags &&& PteFlags.R ≠ 0) :
    ∃ next, allocateOneVmPage va root flags state = .ok () next ∧
      Laid platform identity holes root flagsOf first stop start (position + 1) next := by
  obtain ⟨low, _, narrow⟩ := laid.within
  have member : position ∈ Finset.Ico position stop := Finset.mem_Ico.mpr ⟨Nat.le_refl _, more⟩
  have rest : (Finset.Ico position stop).erase position = Finset.Ico (position + 1) stop := by
    ext other
    rw [Finset.mem_erase, Finset.mem_Ico, Finset.mem_Ico]
    omega
  have awaiting : Awaiting platform identity holes root (Finset.Ico position stop) state := by
    refine ⟨laid.reached, laid.isLive, ?_, ?_, laid.supply⟩
    · intro other inside
      exact (Finset.mem_Ico.mp inside).2.trans narrow
    · intro other inside
      obtain ⟨above, below⟩ := Finset.mem_Ico.mp inside
      exact laid.unmapped other above below
  obtain ⟨next, pa, ran, left, history⟩ :=
    awaiting.page vaBound (by rw [page]; exact member) readable
  rw [page, rest] at left
  have here : mapping next.history root position = some (makePte pa (leafFlags flags)) := by
    rw [history, mapping, if_pos ⟨rfl, page⟩]
  have others : ∀ other, other ≠ position →
      mapping next.history root other = mapping state.history root other := by
    intro other different
    rw [history, mapping, if_neg]
    intro both
    exact different (both.2.symm.trans page)
  obtain ⟨newer, split, only, pages⟩ := laid.events
  refine ⟨next, ran, left.reached, left.isLive, ⟨by omega, by omega, narrow⟩, left.supply, ?_, ?_,
    ?_⟩
  · intro other above below
    exact left.unmapped other (Finset.mem_Ico.mpr ⟨above, below⟩)
  · refine ⟨_ :: newer, by rw [history, split]; rfl, ?_, ?_⟩
    · intro event inside
      cases List.mem_cons.mp inside with
      | inl same => exact ⟨_, _, _, same⟩
      | inr before => exact only event before
    · have count : position + 1 - first = position - first + 1 := by omega
      have last : first + (position - first) = position := by omega
      rw [count, List.range'_concat, List.reverse_append, ← pages, Nat.one_mul, last]
      simp [pagesOf, page]
  · intro other above below
    by_cases same : other = position
    · rw [same, flagsAre]
      exact ⟨pa, here⟩
    · rw [others other same]
      exact laid.flagged other above (by omega)

theorem Laid.range
    (laid : Laid platform identity holes root flagsOf first stop start position state)
    (aligned : va = position * 4096) (fits : position + loopPages size ≤ stop)
    (flagsAre : ∀ page, position ≤ page → page < position + loopPages size → flagsOf page = flags)
    (readable : flags &&& PteFlags.R ≠ 0) :
    ∃ next, allocateVmPages va size root flags state = .ok () next ∧
      Laid platform identity holes root flagsOf first stop start (position + loopPages size)
        next := by
  have narrow : stop < 1048576 := laid.within.2.2
  have counted : ∀ count, count * 4096 < size ↔ count < loopPages size := by
    intro count
    unfold loopPages
    omega
  have loop := @forPages_counts size
    (fun offset => allocateOneVmPage (wrap32 (va + offset)) root flags)
    (fun count now => count ≤ loopPages size ∧
      Laid platform identity holes root flagsOf first stop start (position + count) now)
    (fun _ _ => False) ?_ ?_ pageLoopFuel 0 state ⟨Nat.zero_le _, laid⟩
    (by rw [Nat.zero_mul]; exact Nat.add_pos_right size (by decide)) (Nat.zero_le _) (by decide)
  · cases ensures_iff.mp loop with
    | inl returned =>
        obtain ⟨_, next, ran, _, laidNext⟩ := returned
        exact ⟨next, ran, laidNext⟩
    | inr thrown =>
        obtain ⟨_, _, _, impossible⟩ := thrown
        exact impossible.elim
  · intro count now more _ invariant
    have inside := (counted count).mp more
    have below : position + count < stop := Nat.lt_of_lt_of_le (Nat.add_lt_add_left inside _) fits
    have narrowVa : (position + count) * 4096 < 1048576 * 4096 :=
      Nat.mul_lt_mul_of_pos_right (below.trans narrow) (by decide)
    have address : wrap32 (va + count * 4096) = (position + count) * 4096 := by
      rw [aligned, ← Nat.add_mul]
      exact wrap32_of_lt narrowVa
    obtain ⟨next, ran, laidNext⟩ := invariant.2.page below narrowVa
      (Nat.mul_div_cancel _ (by decide))
      (flagsAre _ (Nat.le_add_right _ _) (Nat.add_lt_add_left inside _)) readable
    rw [address]
    exact ensures_of_run ran ⟨inside, laidNext⟩
  · intro now invariant
    have impossible : 1048576 ≤ loopPages size := invariant.1
    omega

theorem Laid.entry {page mask : Nat}
    (laid : Laid platform identity holes root flagsOf first stop start position state)
    (low : first ≤ page) (high : page < position) (small : mask < 1024)
    (some : flagsOf page &&& mask ≠ 0) (readable : flagsOf page &&& PteFlags.R ≠ 0) :
    ∃ pte, leafOf state.view root page = .some pte ∧ pte &&& PteFlags.R ≠ 0 ∧
      pte &&& mask ≠ 0 := by
  obtain ⟨owner, owned⟩ := laid.reached.owned
  obtain ⟨pa, mapped⟩ := laid.flagged page low high
  have bounds := laid.within
  refine ⟨_, (owned.maps root page laid.isLive (by omega)).trans mapped, ?_, ?_⟩
  · rw [makePte_and (by decide)]
    exact leafFlags_and readable
  · rw [makePte_and small]
    exact leafFlags_and some

end Layout

end Espiral.AddressSpaceManager
