import Mathlib.Logic.Relation
import Espiral.Mm.Walk

/-!
# What one operation does

Each operation of the address space manager keeps the ownership invariant,
also when it throws. The page allocator is seen as a pool of frames only.
-/

namespace Espiral.AddressSpaceManager

set_option autoImplicit false

open ByteMemory Contracts MachineWords VortexMemoryAllocator

/-- The lowest frame that is not in use, which is the one handed out next. -/
structure NextFrame (platform : Platform) (used : Finset Nat) (frame : Nat) : Prop where
  isFrame : platform.IsFrame frame
  unused : frame ∉ used
  lowest : ∀ lower, platform.IsFrame lower → lower < frame → lower ∈ used

def Full (platform : Platform) (used : Finset Nat) : Prop :=
  ∀ frame, platform.IsFrame frame → frame ∈ used

/-- Everything `allocate_one_page` can do: the first frame is kept unless it is
in a hole, and then the second one is kept whatever it is. -/
inductive PageOutcome (platform : Platform) (hole : Nat → Bool) (used : Finset Nat) :
    Option Nat → Finset Nat → Prop
  | full (full : Full platform used) : PageOutcome platform hole used none used
  | direct {frame : Nat} (first : NextFrame platform used frame) (outside : hole frame = false) :
      PageOutcome platform hole used (some frame) (insert frame used)
  | discarded {frame : Nat} (first : NextFrame platform used frame) (inside : hole frame = true)
      (full : Full platform (insert frame used)) :
      PageOutcome platform hole used none (insert frame used)
  | retried {frame second : Nat} (first : NextFrame platform used frame)
      (inside : hole frame = true) (next : NextFrame platform (insert frame used) second) :
      PageOutcome platform hole used (some second) (insert second (insert frame used))

section Outcome

variable {platform : Platform} {hole : Nat → Bool} {used later : Finset Nat} {result : Option Nat}

theorem NextFrame.unique {first second : Nat} (left : NextFrame platform used first)
    (right : NextFrame platform used second) : first = second := by
  apply Nat.le_antisymm
  · by_contra later
    exact right.unused (left.lowest second right.isFrame (Nat.lt_of_not_le later))
  · by_contra later
    exact left.unused (right.lowest first left.isFrame (Nat.lt_of_not_le later))

theorem PageOutcome.grows (outcome : PageOutcome platform hole used result later) :
    used ⊆ later := by
  cases outcome with
  | full _ => exact Finset.Subset.refl used
  | direct _ _ => exact Finset.subset_insert _ _
  | discarded _ _ _ => exact Finset.subset_insert _ _
  | retried _ _ _ => exact (Finset.subset_insert _ _).trans (Finset.subset_insert _ _)

theorem PageOutcome.fresh {frame : Nat}
    (outcome : PageOutcome platform hole used (some frame) later) :
    frame ∈ later ∧ frame ∉ used ∧ platform.IsFrame frame := by
  cases outcome with
  | direct first _ => exact ⟨Finset.mem_insert_self _ _, first.unused, first.isFrame⟩
  | retried _ _ next =>
      refine ⟨Finset.mem_insert_self _ _, ?_, next.isFrame⟩
      intro before
      exact next.unused (Finset.mem_insert_of_mem before)

end Outcome

def Requests (platform : Platform) (hole : Nat → Bool) : Finset Nat → Finset Nat → Prop :=
  Relation.ReflTransGen fun used later => ∃ result, PageOutcome platform hole used result later

def HandedOut (platform : Platform) (hole : Nat → Bool) (used last : Finset Nat) (frame : Nat) :
    Prop :=
  ∃ before after, Requests platform hole used before ∧
    PageOutcome platform hole before (some frame) after ∧ Requests platform hole after last

/-- A frame gets a role only after it has been handed out; `given` is one that
had been handed out before. -/
structure Taken (platform : Platform) (hole : Nat → Bool) (given : Option Nat)
    (owner later : Nat → Option Role) (used last : Finset Nat) : Prop where
  requests : Requests platform hole used last
  roles : ∀ frame role, later frame = some role → owner frame = some role ∨
    given = some frame ∨ HandedOut platform hole used last frame

section Requests

variable {platform : Platform} {hole : Nat → Bool} {given : Option Nat}
  {owner middle later : Nat → Option Role} {used between last : Finset Nat} {frame : Nat}

theorem Requests.grows (requests : Requests platform hole used last) : used ⊆ last := by
  induction requests with
  | refl => exact Finset.Subset.refl used
  | tail _ outcome ih =>
      rcases outcome with ⟨_, outcome⟩
      exact ih.trans outcome.grows

theorem HandedOut.before (handed : HandedOut platform hole between last frame)
    (requests : Requests platform hole used between) :
    HandedOut platform hole used last frame := by
  rcases handed with ⟨before, after, earlier, outcome, rest⟩
  exact ⟨before, after, requests.trans earlier, outcome, rest⟩

theorem HandedOut.after (handed : HandedOut platform hole used between frame)
    (requests : Requests platform hole between last) :
    HandedOut platform hole used last frame := by
  rcases handed with ⟨before, after, earlier, outcome, rest⟩
  exact ⟨before, after, earlier, outcome, rest.trans requests⟩

theorem PageOutcome.handedOut (outcome : PageOutcome platform hole used (some frame) between)
    (requests : Requests platform hole between last) :
    HandedOut platform hole used last frame :=
  ⟨used, between, Relation.ReflTransGen.refl, outcome, requests⟩

theorem Taken.refl (owner : Nat → Option Role) (used : Finset Nat) :
    Taken platform hole given owner owner used used where
  requests := Relation.ReflTransGen.refl
  roles _ _ has := Or.inl has

theorem Taken.trans (left : Taken platform hole given owner middle used between)
    (right : Taken platform hole given middle later between last) :
    Taken platform hole given owner later used last where
  requests := left.requests.trans right.requests
  roles frame role has := by
    rcases right.roles frame role has with before | same | handed
    · rcases left.roles frame role before with first | same | handed
      · exact Or.inl first
      · exact Or.inr (Or.inl same)
      · exact Or.inr (Or.inr (handed.after right.requests))
    · exact Or.inr (Or.inl same)
    · exact Or.inr (Or.inr (handed.before left.requests))

theorem Taken.allow (taken : Taken platform hole none owner later used last) :
    Taken platform hole given owner later used last where
  requests := taken.requests
  roles frame role has := by
    rcases taken.roles frame role has with before | same | handed
    · exact Or.inl before
    · cases same
    · exact Or.inr (Or.inr handed)

theorem Taken.settle (taken : Taken platform hole (some frame) owner later between last)
    (outcome : PageOutcome platform hole used (some frame) between) :
    Taken platform hole none owner later used last where
  requests := Relation.ReflTransGen.head ⟨_, outcome⟩ taken.requests
  roles other role has := by
    rcases taken.roles other role has with before | same | handed
    · exact Or.inl before
    · cases same
      exact Or.inr (Or.inr (outcome.handedOut taken.requests))
    · exact Or.inr (Or.inr (handed.before (Relation.ReflTransGen.single ⟨_, outcome⟩)))

theorem Taken.of_outcome {result : Option Nat}
    (outcome : PageOutcome platform hole used result last) :
    Taken platform hole given owner owner used last where
  requests := Relation.ReflTransGen.single ⟨result, outcome⟩
  roles _ _ has := Or.inl has

theorem Taken.of_update (role : Role) :
    Taken platform hole (some frame) owner (Function.update owner frame (some role)) used used where
  requests := Relation.ReflTransGen.refl
  roles other otherRole has := by
    by_cases here : other = frame
    · exact Or.inr (Or.inl (by rw [here]))
    · rw [Function.update_of_ne here] at has
      exact Or.inl has

end Requests

structure SameTables (state next : AddressSpaceManager) : Prop where
  holes : next.hole_list_ = state.hole_list_
  history : next.history = state.history
  view : next.view = state.view

section Pages

variable {platform : Platform} {state : AddressSpaceManager}

theorem onAllocator_ok {Value : Type} {action : Action VortexMemoryAllocator Value}
    {value : Value} {allocator : VortexMemoryAllocator}
    (ran : action state.page_allocator_ = .ok value allocator) :
    onAllocator action state = .ok value { state with page_allocator_ := allocator } := by
  simp only [onAllocator, ran]

theorem allocate_run (pool : FramePool platform state.page_allocator_) :
    ∃ result next, onAllocator (VortexMemoryAllocator.allocate PAGE_SIZE) state =
        .ok result next ∧ FramePool platform next.page_allocator_ ∧ SameTables state next ∧
      ((∃ frame, result = some frame ∧ NextFrame platform state.frames frame ∧
          next.frames = insert frame state.frames) ∨
        (result = none ∧ next = state ∧ Full platform state.frames)) := by
  rcases allocate_frame pool with
    ⟨frame, next, ran, nextPool, isFrame, unused, grown, lowest⟩ | ⟨ran, full⟩
  · exact ⟨some frame, _, onAllocator_ok ran, nextPool, ⟨rfl, rfl, rfl⟩,
      Or.inl ⟨frame, rfl, ⟨isFrame, unused, lowest⟩, grown⟩⟩
  · exact ⟨none, state, onAllocator_ok ran, pool, ⟨rfl, rfl, rfl⟩, Or.inr ⟨rfl, rfl, full⟩⟩

theorem allocateOnePage_run (pool : FramePool platform state.page_allocator_) :
    ∃ result next, allocateOnePage state = .ok result next ∧
      FramePool platform next.page_allocator_ ∧ SameTables state next ∧
      PageOutcome platform (fun frame => state.hole_list_.addrInHole frame) state.frames result
        next.frames := by
  rcases allocate_run pool with ⟨result, first, ran, firstPool, firstSame, outcome⟩
  rcases outcome with ⟨frame, rfl, nextFrame, grown⟩ | ⟨rfl, rfl, full⟩
  · cases inHole : state.hole_list_.addrInHole frame with
    | false =>
        refine ⟨some frame, first, ?_, firstPool, firstSame, ?_⟩
        · rw [allocateOnePage, bind_ok ran]
          have test : addrInHole frame first = .ok false first := by
            rw [addrInHole, firstSame.holes, inHole]
          simp only
          rw [bind_ok test]
          rfl
        · rw [grown]
          exact PageOutcome.direct nextFrame inHole
    | true =>
        rcases allocate_run firstPool with ⟨again, second, reran, secondPool, secondSame, rest⟩
        refine ⟨again, second, ?_, secondPool, ⟨secondSame.holes.trans firstSame.holes,
          secondSame.history.trans firstSame.history, secondSame.view.trans firstSame.view⟩, ?_⟩
        · rw [allocateOnePage, bind_ok ran]
          have test : addrInHole frame first = .ok true first := by
            rw [addrInHole, firstSame.holes, inHole]
          simp only
          rw [bind_ok test]
          exact reran
        · rcases rest with ⟨other, rfl, otherFrame, regrown⟩ | ⟨rfl, rfl, full⟩
          · rw [regrown, grown] at *
            exact PageOutcome.retried nextFrame inHole otherFrame
          · rw [grown] at full ⊢
            exact PageOutcome.discarded nextFrame inHole full
  · exact ⟨none, first, by rw [allocateOnePage, bind_ok ran]; rfl, firstPool, firstSame,
      PageOutcome.full full⟩

theorem releaseOnePage_run (pool : FramePool platform state.page_allocator_) (addr : Nat) :
    ∃ next, releaseOnePage addr state = .ok () next ∧ FramePool platform next.page_allocator_ ∧
      SameTables state next ∧
      next.frames =
        if state.hole_list_.addrInHole addr then state.frames else state.frames.erase addr := by
  cases inHole : state.hole_list_.addrInHole addr with
  | true =>
      refine ⟨state, ?_, pool, ⟨rfl, rfl, rfl⟩, by simp⟩
      have test : addrInHole addr state = .ok true state := by rw [addrInHole, inHole]
      rw [releaseOnePage, bind_ok test]
      rfl
  | false =>
      have test : addrInHole addr state = .ok false state := by rw [addrInHole, inHole]
      rcases release_frame pool addr with ⟨_, next, ran, nextPool, erased⟩ | ⟨missing, ran⟩
      · refine ⟨{ state with page_allocator_ := next }, ?_, nextPool, ⟨rfl, rfl, rfl⟩, ?_⟩
        · rw [releaseOnePage, bind_ok test]
          simp only [Bool.false_eq_true, if_false]
          rw [bind_ok (onAllocator_ok ran)]
          rfl
        · rw [if_neg Bool.false_ne_true]
          exact erased
      · refine ⟨state, ?_, pool, ⟨rfl, rfl, rfl⟩, ?_⟩
        · rw [releaseOnePage, bind_ok test]
          simp only [Bool.false_eq_true, if_false]
          rw [bind_ok (onAllocator_ok ran)]
          rfl
        · rw [if_neg Bool.false_ne_true]
          exact (Finset.erase_eq_of_notMem missing).symm

theorem allocatePageTableNode_run (pool : FramePool platform state.page_allocator_) :
    ∃ result next, allocatePageTableNode state = .ok result next ∧
      FramePool platform next.page_allocator_ ∧ SameTables state next ∧
      PageOutcome platform (fun frame => state.hole_list_.addrInHole frame) state.frames result
        next.frames := by
  rcases allocateOnePage_run pool with ⟨result, next, ran, nextPool, same, outcome⟩
  refine ⟨result, next, ?_, nextPool, same, outcome⟩
  rw [allocatePageTableNode, bind_ok ran]
  cases result with
  | none => rfl
  | some frame =>
      have positive := pool.valid.basePositive
      have low := outcome.fresh.2.2.2.1
      have nonzero : frame ≠ 0 := by omega
      simp only [Option.getD_some, nonzero, ne_eq, not_false_eq_true, if_true]
      rfl

theorem writeScratchpad_run {addr : Nat} {data : List UInt8}
    (inside : addr + data.length ≤ 2 ^ 32) :
    ∃ next, writeScratchpad addr data state = .ok () next ∧
      next.page_allocator_ = state.page_allocator_ ∧ next.hole_list_ = state.hole_list_ ∧
      next.history = state.history ∧ next.view = store state.view addr data :=
  ⟨_, rfl, rfl, rfl, rfl, ScratchpadMemory.view_write inside⟩

theorem zeroNode_run {node : Nat} (narrow : node + 4096 ≤ 2 ^ 32) :
    ∃ next, writeScratchpad node zeroNode state = .ok () next ∧
      next.page_allocator_ = state.page_allocator_ ∧ next.hole_list_ = state.hole_list_ ∧
      next.history = state.history ∧
      next.view = store state.view node (List.replicate 4096 0) := by
  have length : zeroNode.length = 4096 := List.length_replicate
  exact writeScratchpad_run (by rw [length]; exact narrow)

theorem writePte_run {node slot pte : Nat} (narrow : node + 4096 ≤ 2 ^ 32) (small : slot < 1024) :
    ∃ next, writePte (node + slot * 4) pte state = .ok () next ∧
      next.page_allocator_ = state.page_allocator_ ∧ next.hole_list_ = state.hole_list_ ∧
      next.history = state.history ∧
      next.view = store state.view (node + slot * 4) (littleEndian 4 pte) := by
  apply writeScratchpad_run
  rw [littleEndian_length]
  change node + slot * 4 + 4 ≤ 2 ^ 32
  omega

theorem linkNode_run {root index node : Nat} (rootNarrow : root + 4096 ≤ 2 ^ 32)
    (nodeNarrow : node + 4096 ≤ 2 ^ 32) (small : index < 1024) :
    ∃ zeroed next, writeScratchpad node zeroNode state = .ok () zeroed ∧
      writePte (root + index * 4) (makePte node PteFlags.V) zeroed = .ok () next ∧
      next.page_allocator_ = state.page_allocator_ ∧ next.hole_list_ = state.hole_list_ ∧
      next.history = state.history ∧
      next.view = store (store state.view node (List.replicate 4096 0)) (root + index * 4)
        (littleEndian 4 (makePte node PteFlags.V)) := by
  obtain ⟨zeroed, wroteZeros, zeroAllocator, zeroHoles, zeroHistory, zeroView⟩ :=
    @zeroNode_run state node nodeNarrow
  obtain ⟨next, wroteLink, allocator, holes, history, view⟩ :=
    @writePte_run zeroed root index (makePte node PteFlags.V) rootNarrow small
  refine ⟨zeroed, next, wroteZeros, wroteLink, allocator.trans zeroAllocator, holes.trans zeroHoles,
    history.trans zeroHistory, ?_⟩
  rw [view, zeroView]

end Pages

structure Advance (platform : Platform) (identity : Nat → Prop) (owner later : Nat → Option Role)
    (state next : AddressSpaceManager) : Prop where
  owned : WellOwned platform identity later next
  extended : Extends owner later
  frames : state.frames ⊆ next.frames
  holes : next.hole_list_ = state.hole_list_

theorem Advance.trans {platform : Platform} {identity : Nat → Prop}
    {first second third : Nat → Option Role} {state middle next : AddressSpaceManager}
    (left : Advance platform identity first second state middle)
    (right : Advance platform identity second third middle next) :
    Advance platform identity first third state next where
  owned := right.owned
  extended := left.extended.trans right.extended
  frames := left.frames.trans right.frames
  holes := right.holes.trans left.holes

section Operations

variable {platform : Platform} {identity : Nat → Prop} {owner : Nat → Option Role}
  {state : AddressSpaceManager} {root va : Nat}

theorem WellOwned.unowned (owned : WellOwned platform identity owner state) {frame : Nat}
    (unused : frame ∉ state.frames) : owner frame = none := by
  cases has : owner frame with
  | none => rfl
  | some role => exact absurd (owned.used frame role has).1 unused

theorem WellOwned.narrow (owned : WellOwned platform identity owner state) {frame : Nat}
    (used : frame ∈ state.frames) : frame + 4096 ≤ 2 ^ 32 := by
  have high := (owned.pool.isFrame used).2.2
  have bound := owned.pool.valid.narrow
  omega

theorem WellOwned.shaped (owned : WellOwned platform identity owner state)
    (isLive : state.Live root) : Shaped state.view root where
  narrow := owned.narrow (owned.used root _ (owned.roots root isLive)).1
  upper index small valid := (owned.nodes root index isLive small valid).1
  lower index small slot slotSmall upper lower :=
    (owned.leaves root index slot isLive small slotSmall upper lower).1

theorem WellOwned.allocated (owned : WellOwned platform identity owner state)
    {next : AddressSpaceManager} (pool : FramePool platform next.page_allocator_)
    (same : SameTables state next) (frames : state.frames ⊆ next.frames) :
    Advance platform identity owner owner state next where
  owned := owned.grow ⟨frames, same.holes, same.history, same.view⟩ pool
  extended := Extends.refl owner
  frames := frames
  holes := same.holes

theorem WellOwned.read (owned : WellOwned platform identity owner state)
    {next : AddressSpaceManager} (same : SameView state next) :
    Advance platform identity owner owner state next where
  owned := owned.sameView same
  extended := Extends.refl owner
  frames := same.grown.frames
  holes := same.holes

/-- A walk from a live root is the lookup in the page map of the history. -/
theorem translate_mapping (owned : WellOwned platform identity owner state)
    (isLive : state.Live root) (vaBound : va < 2 ^ 32) :
    ∃ next, translate va root state =
        .ok ((mapping state.history root (va / 4096)).map fun pte => ptePa pte ||| vaPgoff va)
          next ∧ SameView state next := by
  have aligned : 4 ∣ root := (by decide : 4 ∣ 4096).trans (owned.root_aligned isLive)
  rcases @translate_run state va root aligned with ⟨next, ran, same⟩
  refine ⟨next, ?_, same⟩
  rw [ran, walkRoot_leafOf (owned.shaped isLive) vaBound,
    owned.maps root (va / 4096) isLive (by omega)]

/-- A mapped page is a leaf that owns its frame, or it is mapped to itself. -/
theorem WellOwned.leaf_owner (owned : WellOwned platform identity owner state)
    (isLive : state.Live root) {page pte : Nat} (bound : page < 2 ^ 20)
    (mapped : mapping state.history root page = some pte) :
    owner (ptePa pte) = some (.leaf root page) ∨
      identity (ptePa pte) ∧ ptePa pte = page * 4096 := by
  rw [← owned.maps root page isLive bound, leafOf] at mapped
  have upperSmall : page / 1024 < 1024 := by omega
  have lowerSmall : page % 1024 < 1024 := Nat.mod_lt page (by decide)
  have whole : page / 1024 * 1024 + page % 1024 = page := by omega
  by_cases upper : pteValid (entryAt state.view root (page / 1024)) = true
  · simp only [if_pos upper] at mapped
    by_cases lower : pteValid (entryAt state.view
        (ptePa (entryAt state.view root (page / 1024))) (page % 1024)) = true
    · rw [if_pos lower, Option.some.injEq] at mapped
      have leaf := (owned.leaves root _ _ isLive upperSmall lowerSmall upper lower).2
      rw [mapped, whole] at leaf
      exact leaf
    · rw [if_neg lower] at mapped
      cases mapped
  · simp only [if_neg upper] at mapped
    cases mapped

/-- One more request is made just if the node for the page is missing. -/
def WithNode (platform : Platform) (hole : Nat → Bool) (memory : Memory) (root va : Nat)
    (used last : Finset Nat) : Prop :=
  if pteValid (entryAt memory root (va / 4096 / 1024)) then last = used
  else ∃ node, PageOutcome platform hole used (some node) last

theorem WithNode.requests {hole : Nat → Bool} {memory : Memory} {used last : Finset Nat}
    (withNode : WithNode platform hole memory root va used last) :
    Requests platform hole used last := by
  unfold WithNode at withNode
  split at withNode
  · rw [withNode]
    exact Relation.ReflTransGen.refl
  · obtain ⟨node, outcome⟩ := withNode
    exact Relation.ReflTransGen.single ⟨_, outcome⟩

theorem WellOwned.linkNode_returns (owned : WellOwned platform identity owner state)
    (isLive : state.Live root) {index node : Nat} (small : index < 1024)
    (missing : pteValid (entryAt state.view root index) = false) (free : owner node = none)
    (used : node ∈ state.frames) :
    ∃ zeroed next, writeScratchpad node zeroNode state = .ok () zeroed ∧
      writePte (root + index * 4) (makePte node PteFlags.V) zeroed = .ok () next ∧
      Advance platform identity owner
        (Function.update owner node (some (.node root index))) state next ∧
      next.history = state.history ∧ next.frames = state.frames ∧
      entryAt next.view root index = makePte node PteFlags.V := by
  have nodeNarrow := owned.narrow used
  obtain ⟨zeroed, linked, wroteZeros, wroteLink, allocator, holes, history, written⟩ :=
    @linkNode_run state root index node (owned.shaped isLive).narrow nodeNarrow small
  have frames : linked.frames = state.frames := by
    rw [AddressSpaceManager.frames, allocator]
    rfl
  refine ⟨zeroed, linked, wroteZeros, wroteLink, ⟨?_, ?_, ?_, holes⟩, history, frames, ?_⟩
  · exact owned.add_node isLive small missing free used allocator history written rfl
  · exact Extends.update free _
  · rw [frames]
  · rw [written, entryAt_store_entry (makePte_lt (by omega)), if_pos rfl]

/-- The descent to the node of level zero, which it creates if it is missing. -/
theorem descend_spec (owned : WellOwned platform identity owner state) (isLive : state.Live root)
    (vaBound : va < 2 ^ 32) :
    Ensures (descend va (PT_LEVELS - 1) root) state
      (fun node next => ∃ later, Advance platform identity owner later state next ∧
        next.history = state.history ∧
        Taken platform (fun frame => state.hole_list_.addrInHole frame) none owner later
          state.frames next.frames ∧
        (∀ frame ∈ state.frames, owner frame = none → later frame = none) ∧
        WithNode platform (fun frame => state.hole_list_.addrInHole frame) state.view root va
          state.frames next.frames ∧
        pteValid (entryAt next.view root (va / 4096 / 1024)) = true ∧
        ptePa (entryAt next.view root (va / 4096 / 1024)) = node)
      (fun _ next => Advance platform identity owner owner state next ∧
        next.history = state.history ∧
        pteValid (entryAt state.view root (va / 4096 / 1024)) = false ∧
        PageOutcome platform (fun frame => state.hole_list_.addrInHole frame) state.frames none
          next.frames) := by
  have narrow := (owned.shaped isLive).narrow
  have small : va / 4096 / 1024 < 1024 := by omega
  obtain ⟨read, ran, same⟩ := @readEntry_run state root _ narrow small
  have reading := owned.read same
  have levels : PT_LEVELS - 1 = 0 + 1 := rfl
  rw [levels, descend, Nat.zero_add, vaVpn_one vaBound, entry_address narrow small]
  unfold Ensures
  rw [bind_ok ran]
  cases valid : pteValid (entryAt state.view root (va / 4096 / 1024)) with
  | true =>
      refine ⟨owner, reading, same.history, ?_, fun _ _ none => none, ?_, ?_, ?_⟩
      · rw [same.frames]
        exact Taken.refl owner state.frames
      · rw [WithNode, if_pos valid]
        exact same.frames
      · rw [same.view]
        exact valid
      · rw [same.view]
  | false =>
      simp only [Bool.not_false, if_true]
      rcases allocatePageTableNode_run reading.owned.pool with
        ⟨result, grown, allocated, pool, tables, outcome⟩
      have growing := reading.owned.allocated pool tables outcome.grows
      rw [same.holes, same.frames] at outcome
      rw [bind_ok allocated]
      cases result with
      | none =>
          exact ⟨reading.trans growing, tables.history.trans same.history, trivial, outcome⟩
      | some node =>
          have fresh := outcome.fresh
          have free := owned.unowned fresh.2.1
          have nodeNarrow := growing.owned.narrow fresh.1
          have viewIs : grown.view = state.view := tables.view.trans same.view
          have liveNow : grown.Live root := by
            rw [Live, tables.history, same.history]
            exact isLive
          have target : ptePa (makePte node PteFlags.V) = node := by
            rw [ptePa_makePte (by omega), frameOf_of_aligned fresh.2.2.1]
          obtain ⟨zeroed, linked, wroteZeros, wroteLink, advanced, history, sameFrames, entryNow⟩ :=
            growing.owned.linkNode_returns liveNow small (by rw [viewIs]; exact valid) free fresh.1
          simp only
          rw [bind_ok wroteZeros, bind_ok wroteLink, target]
          refine ⟨_, (reading.trans growing).trans advanced, ?_, ?_, ?_, ?_, ?_, ?_⟩
          · exact (history.trans tables.history).trans same.history
          · rw [sameFrames]
            exact (Taken.of_update _).settle outcome
          · intro frame used none
            have different : frame ≠ node := by
              intro here
              rw [here] at used
              exact fresh.2.1 used
            rw [Function.update_of_ne different]
            exact none
          · rw [WithNode, valid, sameFrames]
            exact ⟨node, outcome⟩
          · rw [entryNow]
            exact (node_pte node).1
          · rw [entryNow]
            exact target

/-- The entry of a page is written into its node: for a frame without a role, or for the page
itself. -/
theorem WellOwned.writeLeaf_returns (owned : WellOwned platform identity owner state)
    (isLive : state.Live root) (vaBound : va < 2 ^ 32) {pa flags node : Nat} (paBound : pa < 2 ^ 32)
    (readable : flags &&& PteFlags.R ≠ 0)
    (upper : pteValid (entryAt state.view root (va / 4096 / 1024)) = true)
    (nodeIs : ptePa (entryAt state.view root (va / 4096 / 1024)) = node) {given : Option Nat}
    (target : given = some (frameOf pa) ∧ frameOf pa ∈ state.frames ∧ owner (frameOf pa) = none ∨
      identity (frameOf pa) ∧ frameOf pa = va / 4096 * 4096) (hole : Nat → Bool) :
    ∃ written later, writePte (node + va / 4096 % 1024 * 4)
        (makePte pa (flags ||| PteFlags.V ||| PteFlags.A ||| PteFlags.D)) state = .ok () written ∧
      Advance platform identity owner later state
        { written with history := .mapped root va pa flags :: written.history } ∧
      written.history = state.history ∧ written.frames = state.frames ∧
      Taken platform hole given owner later state.frames written.frames := by
  have small : va / 4096 / 1024 < 1024 := by omega
  have role := (owned.nodes root _ isLive small upper).2
  rw [nodeIs] at role
  have narrow := owned.narrow (owned.used node _ role).1
  obtain ⟨written, wrote, allocator, holes, history, view⟩ :=
    @writePte_run state node (va / 4096 % 1024)
      (makePte pa (flags ||| PteFlags.V ||| PteFlags.A ||| PteFlags.D)) narrow
      (Nat.mod_lt _ (by decide))
  have frames : written.frames = state.frames := by
    rw [AddressSpaceManager.frames, allocator]
    rfl
  have final : ∀ later : Nat → Option Role, Extends owner later →
      (∀ frame role, later frame = some role → frame ∈ state.frames ∧ state.Live role.table) →
      (later (frameOf pa) = some (.leaf root (va / 4096)) ∨
        identity (frameOf pa) ∧ frameOf pa = va / 4096 * 4096) →
      Advance platform identity owner later state
        { written with history := .mapped root va pa flags :: written.history } := by
    intro later extended used claimed
    refine ⟨owned.add_leaf isLive vaBound paBound readable upper nodeIs allocator
      (by rw [history]) view extended used claimed, extended, ?_, holes⟩
    exact frames.symm.subset
  cases target with
  | inl fresh =>
      obtain ⟨givenIs, used, free⟩ := fresh
      have advanced := final (Function.update owner (frameOf pa) (some (.leaf root (va / 4096))))
        (Extends.update free _) (owned.used_update _ used isLive) (Or.inl (Function.update_self ..))
      refine ⟨written, _, wrote, advanced, history, frames, ?_⟩
      rw [frames, givenIs]
      exact Taken.of_update _
  | inr itself =>
      refine ⟨written, owner, wrote, final _ (Extends.refl owner) owned.used (Or.inr itself), history,
        frames, ?_⟩
      rw [frames]
      exact Taken.refl owner state.frames

theorem mapAddrInner_spec (owned : WellOwned platform identity owner state)
    (isLive : state.Live root) (vaBound : va < 2 ^ 32) {pa flags : Nat} (paBound : pa < 2 ^ 32)
    (readable : flags &&& PteFlags.R ≠ 0) {given : Option Nat}
    (target : given = some (frameOf pa) ∧ frameOf pa ∈ state.frames ∧ owner (frameOf pa) = none ∨
      identity (frameOf pa) ∧ frameOf pa = va / 4096 * 4096) :
    Ensures (mapAddrInner va pa root flags) state
      (fun _ next => ∃ later, Advance platform identity owner later state next ∧
        next.history = .mapped root va pa flags :: state.history ∧
        mapping state.history root (va / 4096) = none ∧
        Taken platform (fun frame => state.hole_list_.addrInHole frame) given owner later
          state.frames next.frames ∧
        WithNode platform (fun frame => state.hole_list_.addrInHole frame) state.view root va
          state.frames next.frames)
      (fun _ next => ∃ later, Advance platform identity owner later state next ∧
        next.history = state.history ∧
        Taken platform (fun frame => state.hole_list_.addrInHole frame) given owner later
          state.frames next.frames ∧
        (pteValid (entryAt state.view root (va / 4096 / 1024)) = false ∧
            PageOutcome platform (fun frame => state.hole_list_.addrInHole frame) state.frames none
              next.frames ∨
          mapping state.history root (va / 4096) ≠ none)) := by
  unfold mapAddrInner
  apply Ensures.bind
  apply (descend_spec owned isLive vaBound).weaken
  · rintro node reached ⟨later, advanced, history, taken, keepsFree, withNode, upper, nodeIs⟩
    have liveNow : reached.Live root := by
      rw [Live, history]
      exact isLive
    have small : va / 4096 / 1024 < 1024 := by omega
    have lowerSmall : va / 4096 % 1024 < 1024 := Nat.mod_lt _ (by decide)
    have role := (advanced.owned.nodes root _ liveNow small upper).2
    rw [nodeIs] at role
    have nodeUsed := (advanced.owned.used node _ role).1
    have narrow := advanced.owned.narrow nodeUsed
    rw [vaVpn_zero, entry_address (by omega) lowerSmall]
    obtain ⟨read, ran, same⟩ := @readEntry_run reached node _ (by omega) lowerSmall
    have reading := advanced.owned.read same
    unfold Ensures
    simp only
    rw [bind_ok ran]
    have lookup : mapping state.history root (va / 4096) =
        if pteValid (entryAt reached.view node (va / 4096 % 1024)) then
          some (entryAt reached.view node (va / 4096 % 1024)) else none := by
      rw [← history, ← advanced.owned.maps root (va / 4096) liveNow (by omega), leafOf, if_pos upper,
        nodeIs]
    cases valid : pteValid (entryAt reached.view node (va / 4096 % 1024)) with
    | true =>
        obtain ⟨final, sameFinal, thrown⟩ := @alreadyMapped_throws read node _ root narrow lowerSmall
          (owned.root_aligned isLive) va
        simp only [if_true]
        rw [thrown]
        refine ⟨later, (advanced.trans reading).trans (reading.owned.read sameFinal), ?_, ?_,
          Or.inr ?_⟩
        · exact (sameFinal.history.trans same.history).trans history
        · rw [sameFinal.frames, same.frames]
          exact taken.allow
        · rw [lookup, valid]
          simp
    | false =>
        have liveThen : read.Live root := by
          rw [Live, same.history]
          exact liveNow
        rw [← same.view] at upper nodeIs
        have targetNow : given = some (frameOf pa) ∧ frameOf pa ∈ read.frames ∧
            later (frameOf pa) = none ∨ identity (frameOf pa) ∧ frameOf pa = va / 4096 * 4096 := by
          cases target with
          | inl fresh =>
              obtain ⟨givenIs, used, none⟩ := fresh
              exact Or.inl ⟨givenIs, reading.frames (advanced.frames used), keepsFree _ used none⟩
          | inr itself => exact Or.inr itself
        obtain ⟨written, last, wrote, filled, writtenHistory, writtenFrames, takenNow⟩ :=
          reading.owned.writeLeaf_returns liveThen vaBound paBound readable upper nodeIs targetNow
            fun frame => state.hole_list_.addrInHole frame
        have frames : written.frames = reached.frames := writtenFrames.trans same.frames
        simp only [Bool.false_eq_true, if_false]
        rw [bind_ok wrote]
        refine ⟨last, (advanced.trans reading).trans filled, ?_, ?_, ?_, ?_⟩
        · exact congrArg (List.cons _) ((writtenHistory.trans same.history).trans history)
        · rw [lookup, valid]
          rfl
        · rw [same.frames] at takenNow
          exact taken.allow.trans takenNow
        · change WithNode _ _ _ _ _ _ written.frames
          rw [frames]
          exact withNode
  · rintro fault next ⟨advanced, history, missing, outcome⟩
    exact ⟨owner, advanced, history, Taken.of_outcome outcome, Or.inl ⟨missing, outcome⟩⟩

end Operations

end Espiral.AddressSpaceManager
