import Espiral.Library.Traces
import Espiral.Mm.AddressSpaceSteps

/-!
# Runs of the address space manager

The public operations, one lemma for each, and the invariant over every run in
which they are called as the rest of the source calls them. A call that throws
is a step like any other.
-/

namespace Espiral.AddressSpaceManager

set_option autoImplicit false

open ByteMemory Contracts MachineWords Traces VortexMemoryAllocator

def withHoles (platform : Platform) (holes : HoleList) : AddressSpaceManager :=
  { new platform 0 with hole_list_ := holes }

/-- A page may be mapped to itself if it is reported as a hole or is no frame of
the page allocator. -/
def MayMapItself (platform : Platform) (holes : HoleList) (frame : Nat) : Prop :=
  holes.addrInHole frame = true ∨ ¬platform.IsFrame frame

section Loops

variable {Invariant : AddressSpaceManager → Prop}

theorem wrap32_page_aligned {offset : Nat} (aligned : 4096 ∣ offset) :
    4096 ∣ wrap32 (offset + PAGE_SIZE) := by
  unfold wrap32
  exact (Nat.dvd_mod_iff (by decide)).mpr (Nat.dvd_add aligned (by decide))

theorem forPages_keeps {size : Nat} {body : Nat → Action AddressSpaceManager Unit}
    (keeps : ∀ offset state, offset < size → 4096 ∣ offset → Invariant state →
      Ensures (body offset) state (fun _ next => Invariant next) (fun _ next => Invariant next))
    {fuel offset : Nat} {state : AddressSpaceManager} (aligned : 4096 ∣ offset)
    (start : Invariant state) :
    Ensures (forPages size body fuel offset) state (fun _ next => Invariant next)
      (fun _ next => Invariant next) := by
  induction fuel generalizing offset state with
  | zero => exact ensures_throw start
  | succ fuel ih =>
      rw [forPages]
      by_cases more : offset < size
      · rw [if_pos more]
        apply Ensures.bind
        apply (keeps offset state more aligned start).weaken
        · intro _ next kept
          exact ih (wrap32_page_aligned aligned) kept
        · intro _ _ kept
          exact kept
      · rw [if_neg more]
        exact ensures_pure start

end Loops

section Operations

variable {platform : Platform} {identity : Nat → Prop} {owner : Nat → Option Role}
  {state : AddressSpaceManager} {root va : Nat}

theorem allocatePageTable_spec (owned : WellOwned platform identity owner state) :
    ∃ result next, allocatePageTable state = .ok result next ∧
      ∃ later, Advance platform identity owner later state next ∧
        Taken platform (fun frame => state.hole_list_.addrInHole frame) none owner later
          state.frames next.frames ∧
        ((result = none ∧ next.history = state.history) ∨
          ∃ created, result = some created ∧ created ∉ state.frames ∧
            next.history = .created created :: state.history) := by
  rcases allocatePageTableNode_run owned.pool with ⟨result, grown, ran, pool, tables, outcome⟩
  have growing := owned.allocated pool tables outcome.grows
  rw [allocatePageTable, bind_ok ran]
  cases result with
  | none =>
      exact ⟨none, grown, rfl, owner, growing, Taken.of_outcome outcome,
        Or.inl ⟨rfl, tables.history⟩⟩
  | some created =>
      have fresh := outcome.fresh
      have free := owned.unowned fresh.2.1
      have narrow := growing.owned.narrow fresh.1
      obtain ⟨zeroed, wrote, zeroAllocator, zeroHoles, zeroHistory, zeroView⟩ :=
        @zeroNode_run grown created narrow
      simp only
      rw [bind_ok wrote]
      have final : WellOwned platform identity
          (Function.update owner created (some (.root created)))
          { zeroed with history := .created created :: zeroed.history } :=
        growing.owned.add_root free fresh.1 zeroAllocator (by rw [zeroHistory]) zeroView rfl
      refine ⟨some created, _, rfl, _, growing.trans ⟨final, ?_, ?_, zeroHoles⟩, ?_,
        Or.inr ⟨created, rfl, fresh.2.1, ?_⟩⟩
      · exact Extends.update free _
      · rw [AddressSpaceManager.frames, AddressSpaceManager.frames, zeroAllocator]
      · change Taken _ _ _ _ _ _ zeroed.frames
        rw [AddressSpaceManager.frames, AddressSpaceManager.frames, zeroAllocator]
        exact (Taken.of_update _).settle outcome
      · rw [zeroHistory, tables.history]

/-- Why a page cannot be mapped: no frame is returned for it or for a node, or it
is mapped already. -/
inductive Refused (platform : Platform) (state : AddressSpaceManager) (root va : Nat)
    (last : Finset Nat) : Prop
  | noFrame (outcome : PageOutcome platform (fun frame => state.hole_list_.addrInHole frame)
      state.frames none last)
  | noNode {pa : Nat} {between : Finset Nat}
      (first : PageOutcome platform (fun frame => state.hole_list_.addrInHole frame)
        state.frames (some pa) between)
      (missing : pteValid (entryAt state.view root (va / 4096 / 1024)) = false)
      (outcome : PageOutcome platform (fun frame => state.hole_list_.addrInHole frame)
        between none last)
  | alreadyMapped (mapped : mapping state.history root (va / 4096) ≠ none)

/-- Mapping a fresh frame; a failed call may leave a frame in use without a role. -/
theorem allocateOneVmPage_spec (owned : WellOwned platform identity owner state)
    (isLive : state.Live root) (vaBound : va < 2 ^ 32) {flags : Nat}
    (readable : flags &&& PteFlags.R ≠ 0) :
    Ensures (allocateOneVmPage va root flags) state
      (fun _ next => ∃ later pa, Advance platform identity owner later state next ∧
        next.history = .mapped root va pa flags :: state.history ∧
        mapping state.history root (va / 4096) = none ∧ platform.IsFrame pa ∧
        (∃ between, PageOutcome platform (fun frame => state.hole_list_.addrInHole frame)
            state.frames (some pa) between ∧
          WithNode platform (fun frame => state.hole_list_.addrInHole frame) state.view root va
            between next.frames) ∧
        Taken platform (fun frame => state.hole_list_.addrInHole frame) none owner later
          state.frames next.frames)
      (fun _ next => ∃ later, Advance platform identity owner later state next ∧
        next.history = state.history ∧
        Taken platform (fun frame => state.hole_list_.addrInHole frame) none owner later
          state.frames next.frames ∧ Refused platform state root va next.frames) := by
  rcases allocateOnePage_run owned.pool with ⟨result, grown, ran, pool, tables, outcome⟩
  have growing := owned.allocated pool tables outcome.grows
  rw [allocateOneVmPage]
  apply ensures_bind_of_run ran
  cases result with
  | none =>
      exact ensures_throw ⟨owner, growing, tables.history, Taken.of_outcome outcome,
        Refused.noFrame outcome⟩
  | some pa =>
      have fresh := outcome.fresh
      have positive := owned.pool.valid.basePositive
      have low := fresh.2.2.2.1
      have nonzero : pa ≠ 0 := by omega
      have narrow := growing.owned.narrow fresh.1
      have atFrame : frameOf pa = pa := frameOf_of_aligned fresh.2.2.1
      have liveNow : grown.Live root := by
        rw [Live, tables.history]
        exact isLive
      simp only [Option.getD_some, nonzero, if_false]
      have mapped := mapAddrInner_spec growing.owned liveNow vaBound (by omega : pa < 2 ^ 32)
        readable (Or.inl ⟨rfl, by rw [atFrame]; exact fresh.1, by
          rw [atFrame]; exact owned.unowned fresh.2.1⟩)
      rw [atFrame, tables.holes] at mapped
      apply mapped.weaken
      · rintro _ next ⟨later, advanced, history, unmapped, taken, withNode⟩
        rw [tables.history] at history unmapped
        rw [tables.view] at withNode
        exact ⟨later, pa, growing.trans advanced, history, unmapped, fresh.2.2,
          ⟨_, outcome, withNode⟩, taken.settle outcome⟩
      · rintro _ next ⟨later, advanced, history, taken, reason⟩
        refine ⟨later, growing.trans advanced, history.trans tables.history, taken.settle outcome, ?_⟩
        rcases reason with ⟨missing, noNode⟩ | mapped
        · rw [tables.view] at missing
          exact Refused.noNode outcome missing noNode
        · rw [tables.history] at mapped
          exact Refused.alreadyMapped mapped

/-- The invariant of runs, for any hole list and any pages that may map to themselves. -/
structure Reached (platform : Platform) (identity : Nat → Prop) (holes : HoleList)
    (state : AddressSpaceManager) : Prop where
  holes : state.hole_list_ = holes
  owned : ∃ owner, WellOwned platform identity owner state
  consistent : Consistent state.history

section Steps

variable {holes : HoleList} {later : Nat → Option Role} {next : AddressSpaceManager}

theorem Reached.of_sameView (reached : Reached platform identity holes state)
    (same : SameView state next) : Reached platform identity holes next where
  holes := same.holes.trans reached.holes
  owned := by
    obtain ⟨owner, owned⟩ := reached.owned
    exact ⟨owner, owned.sameView same⟩
  consistent := by
    rw [same.history]
    exact reached.consistent

theorem Reached.of_same (reached : Reached platform identity holes state)
    (advanced : Advance platform identity owner later state next)
    (history : next.history = state.history) : Reached platform identity holes next where
  holes := advanced.holes.trans reached.holes
  owned := ⟨later, advanced.owned⟩
  consistent := by
    rw [history]
    exact reached.consistent

theorem Reached.of_mapped (reached : Reached platform identity holes state)
    (advanced : Advance platform identity owner later state next) {table pa flags : Nat}
    (history : next.history = .mapped table va pa flags :: state.history)
    (unmapped : mapping state.history table (va / 4096) = none) (paBound : pa < 2 ^ 32) :
    Reached platform identity holes next where
  holes := advanced.holes.trans reached.holes
  owned := ⟨later, advanced.owned⟩
  consistent := by
    rw [history]
    exact ⟨unmapped, paBound, reached.consistent⟩

theorem Reached.of_created (reached : Reached platform identity holes state)
    (owned : WellOwned platform identity owner state)
    (advanced : Advance platform identity owner later state next) {created : Nat}
    (fresh : created ∉ state.frames) (history : next.history = .created created :: state.history) :
    Reached platform identity holes next ∧ ¬state.Live created := by
  constructor
  · refine ⟨advanced.holes.trans reached.holes, ⟨later, advanced.owned⟩, ?_⟩
    rw [history]
    exact reached.consistent
  · intro isLive
    exact fresh (owned.used _ _ (owned.roots _ isLive)).1

theorem Reached.of_freed (reached : Reached platform identity holes state)
    (owned : WellOwned platform identity later next) (sameHoles : next.hole_list_ = state.hole_list_)
    {freed : Nat} (history : next.history = .freed freed :: state.history) :
    Reached platform identity holes next where
  holes := sameHoles.trans reached.holes
  owned := ⟨later, owned⟩
  consistent := by
    rw [history]
    exact reached.consistent

theorem live_of_mapped {other otherVa pa flags : Nat}
    (history : next.history = .mapped other otherVa pa flags :: state.history)
    (isLive : state.Live root) : next.Live root := by
  rw [Live, history]
  exact isLive

theorem live_of_same (history : next.history = state.history) (isLive : state.Live root) :
    next.Live root := by
  rw [Live, history]
  exact isLive

theorem Reached.allocatePageTable (reached : Reached platform identity holes state)
    (owned : WellOwned platform identity owner state) :
    ∃ result next later, allocatePageTable state = .ok result next ∧
      WellOwned platform identity later next ∧
      Taken platform (fun frame => holes.addrInHole frame) none owner later state.frames
        next.frames ∧
      Reached platform identity holes next ∧ (∀ table, state.Live table → next.Live table) ∧
      ∀ root, result = some root → ¬state.Live root ∧ next.Live root := by
  obtain ⟨result, next, ran, later, advanced, taken, outcome⟩ := allocatePageTable_spec owned
  rw [reached.holes] at taken
  refine ⟨result, next, later, ran, advanced.owned, taken, ?_⟩
  cases outcome with
  | inl refused =>
      obtain ⟨nothing, same⟩ := refused
      refine ⟨reached.of_same advanced same, fun _ isLive => live_of_same same isLive, ?_⟩
      intro root found
      rw [nothing] at found
      cases found
  | inr done =>
      obtain ⟨root, isRoot, fresh, history⟩ := done
      obtain ⟨reachedNow, notLive⟩ := reached.of_created owned advanced fresh history
      have lives := live_created history
      refine ⟨reachedNow, fun table isLive => (lives table).mpr (Or.inr isLive), ?_⟩
      intro other found
      rw [isRoot, Option.some.injEq] at found
      rw [← found]
      exact ⟨notLive, (lives root).mpr (Or.inl rfl)⟩

structure Progress (platform : Platform) (identity : Nat → Prop) (holes : HoleList) (root : Nat)
    (owner : Nat → Option Role) (start state : AddressSpaceManager) : Prop where
  owned : ∃ later, WellOwned platform identity later state ∧
    Taken platform (fun frame => holes.addrInHole frame) none owner later start.frames state.frames
  holes : state.hole_list_ = holes
  consistent : Consistent state.history
  isLive : state.Live root
  onlyMaps : ∃ newer, state.history = newer ++ start.history ∧ ∀ table,
    .created table ∉ newer ∧ .freed table ∉ newer

def Installed (platform : Platform) (holes : HoleList) (used : Finset Nat)
    (history : List MappingEvent) (state : AddressSpaceManager) : Prop :=
  ∃ newer, state.history = newer ++ history ∧ ∀ table va pa flags,
    .mapped table va pa flags ∈ newer →
      HandedOut platform (fun frame => holes.addrInHole frame) used state.frames pa

theorem Progress.reached {start : AddressSpaceManager}
    (progress : Progress platform identity holes root owner start state) :
    Reached platform identity holes state := by
  rcases progress.owned with ⟨later, owned, _⟩
  exact ⟨progress.holes, ⟨later, owned⟩, progress.consistent⟩

theorem Reached.progress (reached : Reached platform identity holes state)
    (owned : WellOwned platform identity owner state) (isLive : state.Live root) :
    Progress platform identity holes root owner state state :=
  ⟨⟨owner, owned, Taken.refl owner state.frames⟩, reached.holes, reached.consistent, isLive,
    [], rfl, fun _ => by simp⟩

theorem Progress.created_freed {start : AddressSpaceManager}
    (progress : Progress platform identity holes root owner start state) {Condition : Nat → Prop}
    {Other : Nat → Prop} : ∃ newer, state.history = newer ++ start.history ∧ ∀ table,
      Condition table → Other table → .created table ∉ newer ∧ .freed table ∉ newer := by
  rcases progress.onlyMaps with ⟨newer, split, only⟩
  exact ⟨newer, split, fun table _ _ => only table⟩

theorem Progress.mapped {start : AddressSpaceManager} {middle : Nat → Option Role}
    (progress : Progress platform identity holes root owner start state)
    (taken : Taken platform (fun frame => holes.addrInHole frame) none owner middle start.frames
      state.frames)
    (advanced : Advance platform identity middle later state next) {table pa flags : Nat}
    (history : next.history = .mapped table va pa flags :: state.history)
    (unmapped : mapping state.history table (va / 4096) = none) (paBound : pa < 2 ^ 32)
    (takes : Taken platform (fun frame => holes.addrInHole frame) none middle later state.frames
      next.frames) : Progress platform identity holes root owner start next := by
  have now := progress.reached.of_mapped advanced history unmapped paBound
  refine ⟨⟨later, advanced.owned, taken.trans takes⟩, now.holes, now.consistent,
    live_of_mapped history progress.isLive, ?_⟩
  rcases progress.onlyMaps with ⟨newer, split, only⟩
  exact ⟨_ :: newer, by rw [history, split]; rfl, fun table => by simp [only table]⟩

theorem Progress.failed {start : AddressSpaceManager} {middle : Nat → Option Role}
    (progress : Progress platform identity holes root owner start state)
    (taken : Taken platform (fun frame => holes.addrInHole frame) none owner middle start.frames
      state.frames)
    (advanced : Advance platform identity middle later state next)
    (same : next.history = state.history)
    (takes : Taken platform (fun frame => holes.addrInHole frame) none middle later state.frames
      next.frames) : Progress platform identity holes root owner start next := by
  have now := progress.reached.of_same advanced same
  exact ⟨⟨later, advanced.owned, taken.trans takes⟩, now.holes, now.consistent,
    live_of_same same progress.isLive, by rw [same]; exact progress.onlyMaps⟩

theorem allocateVmPages_spec {size flags : Nat} (reached : Reached platform identity holes state)
    (owned : WellOwned platform identity owner state) (isLive : state.Live root)
    (readable : flags &&& PteFlags.R ≠ 0) :
    Ensures (allocateVmPages va size root flags) state
      (fun _ next => Progress platform identity holes root owner state next ∧
        Installed platform holes state.frames state.history next)
      (fun _ next => Progress platform identity holes root owner state next ∧
        Installed platform holes state.frames state.history next) := by
  apply forPages_keeps ?_ (Nat.dvd_zero 4096)
    ⟨reached.progress owned isLive, [], rfl, fun _ _ _ _ member => by simp at member⟩
  rintro offset current _ _ ⟨progress, newer, history, handed⟩
  rcases progress.owned with ⟨middle, middleOwned, taken⟩
  have more := allocateOneVmPage_spec middleOwned progress.isLive (wrap32_lt (va + offset)) readable
  rw [progress.holes] at more
  apply more.weaken
  · rintro _ next ⟨later, pa, advanced, grown, unmapped, isFrame, ⟨between, fresh, withNode⟩, takes⟩
    have handedOut := fresh.handedOut withNode.requests
    refine ⟨progress.mapped taken advanced grown unmapped
      (isFrame.narrow middleOwned.pool.valid) takes, _ :: newer, by rw [grown, history]; rfl, ?_⟩
    intro table mappedVa mappedPa mappedFlags member
    rcases List.mem_cons.mp member with same | before
    · cases same
      exact handedOut.before taken.requests
    · exact (handed _ _ _ _ before).after takes.requests
  · rintro _ next ⟨later, advanced, same, takes, _⟩
    exact ⟨progress.failed taken advanced same takes, newer, by rw [same, history],
      fun _ _ _ _ member => (handed _ _ _ _ member).after takes.requests⟩

theorem unsafeMapIdentity_spec {addr size flags : Nat}
    (reached : Reached platform identity holes state)
    (owned : WellOwned platform identity owner state) (isLive : state.Live root)
    (readable : flags &&& PteFlags.R ≠ 0)
    (allowed : ∀ offset < size, 4096 ∣ offset → identity (frameOf (wrap32 (addr + offset)))) :
    Ensures (unsafeMapIdentity addr size root flags) state
      (fun _ next => Progress platform identity holes root owner state next)
      (fun _ next => Progress platform identity holes root owner state next) := by
  apply forPages_keeps ?_ (Nat.dvd_zero 4096) (reached.progress owned isLive)
  intro offset current inside aligned progress
  rcases progress.owned with ⟨middle, middleOwned, taken⟩
  have more := @mapAddrInner_spec platform identity middle current root (wrap32 (addr + offset))
    middleOwned progress.isLive (wrap32_lt _) (wrap32 (addr + offset)) flags (wrap32_lt _) readable
    none (Or.inr ⟨allowed offset inside aligned, rfl⟩)
  rw [progress.holes] at more
  apply more.weaken
  · rintro _ next ⟨later, advanced, grown, unmapped, takes, _⟩
    exact progress.mapped taken advanced grown unmapped (wrap32_lt _) takes
  · rintro _ next ⟨later, advanced, same, takes, _⟩
    exact progress.failed taken advanced same takes

end Steps

/-- While a table is being freed the frames of the other tables stay in use. -/
structure Freeing (platform : Platform) (owner : Nat → Option Role) (root : Nat)
    (state current : AddressSpaceManager) : Prop where
  pool : FramePool platform current.page_allocator_
  tables : SameTables state current
  kept : ∀ frame role, without root owner frame = some role → frame ∈ current.frames
  shrunk : current.frames ⊆ state.frames

theorem Freeing.release {current : AddressSpaceManager}
    (freeing : Freeing platform owner root state current) {addr : Nat}
    (unowned : ∀ role, without root owner addr = some role →
      state.hole_list_.addrInHole addr = true) :
    Ensures (releaseOnePage addr) current (fun _ next => Freeing platform owner root state next)
      (fun _ _ => False) := by
  rcases releaseOnePage_run freeing.pool addr with ⟨next, ran, pool, same, frames⟩
  apply ensures_of_run ran
  have holes : current.hole_list_ = state.hole_list_ := freeing.tables.holes
  have subset : next.frames ⊆ current.frames := by
    rw [frames]
    split
    · exact Finset.Subset.refl _
    · exact Finset.erase_subset _ _
  refine ⟨pool, ⟨same.holes.trans holes, same.history.trans freeing.tables.history,
    same.view.trans freeing.tables.view⟩, ?_, subset.trans freeing.shrunk⟩
  intro frame role has
  have before := freeing.kept frame role has
  rw [frames, holes]
  by_cases inHole : state.hole_list_.addrInHole addr = true
  · rw [if_pos inHole]
    exact before
  · rw [if_neg inHole, Finset.mem_erase]
    refine ⟨?_, before⟩
    intro same
    rw [same] at has
    exact inHole (unowned role has)

/-- Freeing a node keeps what the release of each of its valid entries keeps. -/
theorem freePageTableInner_keeps {level pa : Nat} {Invariant : AddressSpaceManager → Prop}
    {throws : Fault → AddressSpaceManager → Prop} {read : AddressSpaceManager}
    {page_data : List UInt8} (ran : readScratchpad pa PAGE_SIZE state = .ok page_data read)
    (start : Invariant read)
    (entry : ∀ index < 1024, pteValid (pteIn page_data index) = true →
      ∀ current, Invariant current →
        Ensures (if !pteIsLeaf (pteIn page_data index) then
            freePageTableInner level (ptePa (pteIn page_data index))
          else releaseOnePage (ptePa (pteIn page_data index)))
          current (fun _ next => Invariant next) throws)
    (last : ∀ current, Invariant current →
      Ensures (releaseOnePage pa) current (fun _ next => Invariant next) throws) :
    Ensures (freePageTableInner (level + 1) pa) state (fun _ next => Invariant next) throws := by
  have members : ∀ index ∈ entryIndices, index < 1024 := fun _ member => List.mem_range.mp member
  rw [freePageTableInner]
  generalize entryIndices = indices at members ⊢
  apply Ensures.bind
  apply ensures_of_run ran
  apply Ensures.bind
  have loop := @ensures_forM Fault AddressSpaceManager Nat read throws
    (fun index =>
      if pteValid (pteIn page_data index) then
        if !pteIsLeaf (pteIn page_data index) then
          freePageTableInner level (ptePa (pteIn page_data index))
        else releaseOnePage (ptePa (pteIn page_data index))
      else pure ())
    (fun _ next => Invariant next) indices [] indices rfl ?_ start
  · apply loop.weaken
    · intro _ next kept
      exact last next kept
    · intro _ _ thrown
      exact thrown
  · intro before index rest now split kept
    have small : index < 1024 := members index (by rw [← split]; simp)
    by_cases valid : pteValid (pteIn page_data index) = true
    · rw [if_pos valid]
      exact entry index small valid now kept
    · rw [if_neg valid]
      exact ensures_pure kept

theorem Freeing.read {current read : AddressSpaceManager}
    (freeing : Freeing platform owner root state current) (same : SameView current read) :
    Freeing platform owner root state read where
  pool := by
    rw [same.allocator]
    exact freeing.pool
  tables := ⟨same.holes.trans freeing.tables.holes, same.history.trans freeing.tables.history,
    same.view.trans freeing.tables.view⟩
  kept := by
    rw [AddressSpaceManager.frames, same.allocator]
    exact freeing.kept
  shrunk := by
    rw [AddressSpaceManager.frames, same.allocator]
    exact freeing.shrunk

/-- A frame of the table that is being freed is no frame of another table. -/
theorem Freeing.releaseOwn {current : AddressSpaceManager}
    (freeing : Freeing platform owner root state current) {addr : Nat} {role : Role}
    (has : owner addr = some role) (mine : role.table = root) :
    Ensures (releaseOnePage addr) current (fun _ next => Freeing platform owner root state next)
      (fun _ _ => False) := by
  apply freeing.release
  intro other otherHas
  have before := without_some.mp otherHas
  rw [has, Option.some.injEq] at before
  rw [← before.1] at before
  exact absurd mine before.2

theorem freeNode_spec (owned : WellOwned platform identity owner state)
    (mayMapItself : ∀ frame, identity frame → MayMapItself platform state.hole_list_ frame)
    (isLive : state.Live root) {index : Nat} (small : index < 1024)
    (valid : pteValid (entryAt state.view root index) = true) {current : AddressSpaceManager}
    (freeing : Freeing platform owner root state current) :
    Ensures (freePageTableInner 1 (ptePa (entryAt state.view root index))) current
      (fun _ next => Freeing platform owner root state next) (fun _ _ => False) := by
  have node := owned.nodes root index isLive small valid
  have narrow := owned.narrow (owned.used _ _ node.2).1
  rcases @readScratchpad_run current (ptePa (entryAt state.view root index)) PAGE_SIZE narrow with
    ⟨read, ran, same⟩
  rw [freeing.tables.view] at ran
  apply freePageTableInner_keeps ran (freeing.read same)
  · intro slot slotSmall
    have entry : pteIn (load state.view (ptePa (entryAt state.view root index)) PAGE_SIZE) slot =
        entryAt state.view (ptePa (entryAt state.view root index)) slot :=
      pteIn_load _ _ slotSmall
    rw [entry]
    intro lower now freed
    have leaf := owned.leaves root index slot isLive small slotSmall valid lower
    rw [pteIsLeaf_of_readable leaf.1]
    simp only [Bool.not_true, Bool.false_eq_true, if_false]
    rcases leaf.2 with mine | ⟨itself, _⟩
    · exact freed.releaseOwn mine rfl
    · apply freed.release
      intro role has
      have other := without_some.mp has
      rcases mayMapItself _ itself with inHole | outside
      · exact inHole
      · exact absurd (owned.pool.isFrame (owned.used _ _ other.1).1) outside
  · intro now freed
    exact freed.releaseOwn node.2 rfl

theorem record_run (event : MappingEvent) :
    record event state = .ok () { state with history := event :: state.history } := rfl

/-- A freed table is gone, and the others keep everything they own. -/
theorem freePageTable_spec (owned : WellOwned platform identity owner state)
    (mayMapItself : ∀ frame, identity frame → MayMapItself platform state.hole_list_ frame)
    (isLive : state.Live root) :
    ∃ next, freePageTable root state = .ok () next ∧
      WellOwned platform identity (without root owner) next ∧
      next.hole_list_ = state.hole_list_ ∧ next.history = .freed root :: state.history ∧
      next.frames ⊆ state.frames := by
  have role := owned.roots root isLive
  have narrow := owned.narrow (owned.used _ _ role).1
  rcases @readScratchpad_run state root PAGE_SIZE narrow with ⟨read, ran, same⟩
  have start : Freeing platform owner root state state :=
    ⟨owned.pool, ⟨rfl, rfl, rfl⟩, fun frame role has =>
      (owned.used frame role (without_some.mp has).1).1, Finset.Subset.refl _⟩
  have freed : Ensures (freePageTableInner (1 + 1) root) state
      (fun _ next => Freeing platform owner root state next) (fun _ _ => False) := by
    apply freePageTableInner_keeps ran (start.read same)
    · intro index small
      have entry : pteIn (load state.view root PAGE_SIZE) index =
          entryAt state.view root index := pteIn_load _ _ small
      rw [entry]
      intro valid now freed
      rw [(owned.nodes root index isLive small valid).1]
      exact freeNode_spec owned mayMapItself isLive small valid freed
    · intro now freed
      exact freed.releaseOwn role rfl
  rcases ensures_iff.mp freed with ⟨_, last, returned, final⟩ | ⟨_, _, _, impossible⟩
  · refine ⟨{ last with history := .freed root :: last.history }, ?_, ?_, ?_, ?_, ?_⟩
    · rw [freePageTable, PT_LEVELS, bind_ok returned, record_run]
    · exact owned.remove_table final.pool final.kept (by rw [final.tables.history])
        final.tables.view
    · exact final.tables.holes
    · rw [final.tables.history]
    · exact final.shrunk
  · exact impossible.elim

end Operations

inductive Operation where
  | allocatePageTable
  | allocateOneVmPage (va root flags : Nat)
  | allocateVmPages (va size root flags : Nat)
  | unsafeMapIdentity (addr size root flags : Nat)
  | freePageTable (root : Nat)
  deriving DecidableEq, Repr

def perform : Operation → Action AddressSpaceManager (Option Nat)
  | .allocatePageTable => allocatePageTable
  | .allocateOneVmPage va root flags => (fun _ => none) <$> allocateOneVmPage va root flags
  | .allocateVmPages va size root flags => (fun _ => none) <$> allocateVmPages va size root flags
  | .unsafeMapIdentity addr size root flags =>
      (fun _ => none) <$> unsafeMapIdentity addr size root flags
  | .freePageTable root => (fun _ => none) <$> freePageTable root

def Operation.allocates : Operation → Bool
  | .allocateOneVmPage _ _ _ => true
  | .allocateVmPages _ _ _ _ => true
  | _ => false

/-- How the rest of the source calls the operations: on live roots, with the
readable flag, and identity mappings only for pages that may map to themselves. -/
def Allowed (platform : Platform) (state : AddressSpaceManager) : Operation → Prop
  | .allocatePageTable => True
  | .allocateOneVmPage va root flags =>
      state.Live root ∧ va < 2 ^ 32 ∧ flags &&& PteFlags.R ≠ 0
  | .allocateVmPages _ _ root flags => state.Live root ∧ flags &&& PteFlags.R ≠ 0
  | .unsafeMapIdentity addr size root flags => state.Live root ∧ flags &&& PteFlags.R ≠ 0 ∧
      ∀ offset < size, 4096 ∣ offset →
        MayMapItself platform state.hole_list_ (frameOf (wrap32 (addr + offset)))
  | .freePageTable root => state.Live root

def Step (platform : Platform) (state : AddressSpaceManager) (operation : Operation)
    (next : AddressSpaceManager) : Prop :=
  Allowed platform state operation ∧
    ((∃ result, perform operation state = .ok result next) ∨
      ∃ fault, perform operation state = .error fault next)

section Runs

variable {platform : Platform} {holes : HoleList} {state next : AddressSpaceManager}

theorem withHoles_owned (valid : platform.Valid) (identity : Nat → Prop) (holes : HoleList) :
    WellOwned platform identity (fun _ => none) (withHoles platform holes) := by
  have nothingLive : ∀ root, ¬(withHoles platform holes).Live root := by
    intro root isLive
    exact Bool.false_ne_true isLive
  constructor
  · exact ofPlatform_pool valid
  · intro frame role has
    cases has
  · intro root isLive
    exact absurd isLive (nothingLive root)
  · intro root index isLive
    exact absurd isLive (nothingLive root)
  · intro root index slot isLive
    exact absurd isLive (nothingLive root)
  · intro root page isLive
    exact absurd isLive (nothingLive root)

theorem withHoles_reached (valid : platform.Valid) (identity : Nat → Prop) (holes : HoleList) :
    Reached platform identity holes (withHoles platform holes) :=
  ⟨rfl, ⟨fun _ => none, withHoles_owned valid identity holes⟩, trivial⟩

theorem keeps_of_ensures {Value : Type} {action : Action AddressSpaceManager Value}
    {Property : AddressSpaceManager → Prop}
    (ensures : Ensures action state (fun _ after => Property after) (fun _ after => Property after))
    {f : Value → Option Nat}
    (outcome : (∃ result, (f <$> action) state = .ok result next) ∨
      ∃ fault, (f <$> action) state = .error fault next) : Property next := by
  rcases ensures_iff.mp ensures with ⟨value, after, ran, kept⟩ | ⟨fault, after, ran, kept⟩
  · rw [map_ok f ran] at outcome
    rcases outcome with ⟨_, same⟩ | ⟨_, impossible⟩
    · cases same
      exact kept
    · cases impossible
  · rw [map_error f ran] at outcome
    rcases outcome with ⟨_, impossible⟩ | ⟨_, same⟩
    · cases impossible
    · cases same
      exact kept

structure Effect (platform : Platform) (holes : HoleList) (operation : Operation)
    (owner later : Nat → Option Role) (state next : AddressSpaceManager) : Prop where
  owned : WellOwned platform (MayMapItself platform holes) later next
  reached : Reached platform (MayMapItself platform holes) holes next
  taken : Taken platform (fun frame => holes.addrInHole frame) none owner later state.frames
      next.frames ∨
    next.frames ⊆ state.frames ∧ Extends later owner
  installed : operation.allocates = true →
    Installed platform holes state.frames state.history next
  history : ∃ newer, next.history = newer ++ state.history ∧ ∀ table, state.Live table →
    operation ≠ .freePageTable table → .created table ∉ newer ∧ .freed table ∉ newer

theorem step_effect {operation : Operation} {owner : Nat → Option Role}
    (reached : Reached platform (MayMapItself platform holes) holes state)
    (owned : WellOwned platform (MayMapItself platform holes) owner state)
    (step : Step platform state operation next) :
    ∃ later, Effect platform holes operation owner later state next := by
  have holesAre := reached.holes
  rcases step with ⟨allowed, outcome⟩
  cases operation with
  | allocatePageTable =>
      rcases allocatePageTable_spec owned with ⟨result, after, ran, later, advanced, taken, history⟩
      rw [perform, ran] at outcome
      rw [holesAre] at taken
      rcases outcome with ⟨_, same⟩ | ⟨_, impossible⟩
      · cases same
        rcases history with ⟨_, unchanged⟩ | ⟨created, _, fresh, grown⟩
        · exact ⟨later, advanced.owned, reached.of_same advanced unchanged, Or.inl taken,
            fun impossible => Bool.noConfusion impossible, [], unchanged, fun _ _ _ => by simp⟩
        · obtain ⟨reachedNow, notLive⟩ := reached.of_created owned advanced fresh grown
          refine ⟨later, advanced.owned, reachedNow, Or.inl taken,
            fun impossible => Bool.noConfusion impossible, [_], grown, fun table isLive _ => ?_⟩
          have different : table ≠ created := by
            intro same
            rw [same] at isLive
            exact notLive isLive
          simp [different]
      · cases impossible
  | allocateOneVmPage va root flags =>
      rcases allowed with ⟨isLive, vaBound, readable⟩
      have spec := allocateOneVmPage_spec owned isLive vaBound readable
      rw [holesAre] at spec
      apply keeps_of_ensures ?_ outcome
      apply spec.weaken
      · rintro _ after ⟨later, pa, advanced, history, unmapped, isFrame, ⟨between, fresh, withNode⟩,
          taken⟩
        have handedOut := fresh.handedOut withNode.requests
        refine ⟨later, advanced.owned, reached.of_mapped advanced history unmapped
          (isFrame.narrow owned.pool.valid), Or.inl taken, fun _ => ⟨[_], history, ?_⟩,
          [_], history, fun _ _ _ => by simp⟩
        intro table mappedVa mappedPa mappedFlags member
        cases List.mem_singleton.mp member
        exact handedOut
      · rintro _ after ⟨later, advanced, history, taken, _⟩
        exact ⟨later, advanced.owned, reached.of_same advanced history, Or.inl taken,
          fun _ => ⟨[], history, fun _ _ _ _ member => by simp at member⟩,
          [], history, fun _ _ _ => by simp⟩
  | allocateVmPages va size root flags =>
      rcases allowed with ⟨isLive, readable⟩
      apply keeps_of_ensures ?_ outcome
      apply (allocateVmPages_spec reached owned isLive readable).weaken
      · rintro _ after ⟨progress, installed⟩
        rcases progress.owned with ⟨later, afterOwned, taken⟩
        exact ⟨later, afterOwned, progress.reached, Or.inl taken, fun _ => installed,
          progress.created_freed⟩
      · rintro _ after ⟨progress, installed⟩
        rcases progress.owned with ⟨later, afterOwned, taken⟩
        exact ⟨later, afterOwned, progress.reached, Or.inl taken, fun _ => installed,
          progress.created_freed⟩
  | unsafeMapIdentity addr size root flags =>
      rcases allowed with ⟨isLive, readable, itself⟩
      rw [holesAre] at itself
      apply keeps_of_ensures ?_ outcome
      apply (unsafeMapIdentity_spec reached owned isLive readable itself).weaken
      · intro _ after progress
        rcases progress.owned with ⟨later, afterOwned, taken⟩
        exact ⟨later, afterOwned, progress.reached, Or.inl taken,
          fun impossible => Bool.noConfusion impossible, progress.created_freed⟩
      · intro _ after progress
        rcases progress.owned with ⟨later, afterOwned, taken⟩
        exact ⟨later, afterOwned, progress.reached, Or.inl taken,
          fun impossible => Bool.noConfusion impossible, progress.created_freed⟩
  | freePageTable root =>
      rcases freePageTable_spec owned (fun _ itself => by rw [holesAre]; exact itself) allowed with
        ⟨after, ran, afterOwned, afterHoles, history, shrunk⟩
      rw [perform, map_ok _ ran] at outcome
      rcases outcome with ⟨_, same⟩ | ⟨_, impossible⟩
      · cases same
        refine ⟨_, afterOwned, reached.of_freed afterOwned afterHoles history,
          Or.inr ⟨shrunk, fun _ _ has => (without_some.mp has).1⟩,
          fun impossible => Bool.noConfusion impossible, [_], history, ?_⟩
        intro table _ other
        have different : table ≠ root := fun same => other (by rw [same])
        simp [different]
      · cases impossible

theorem step_reached {operation : Operation}
    (reached : Reached platform (MayMapItself platform holes) holes state)
    (step : Step platform state operation next) :
    Reached platform (MayMapItself platform holes) holes next := by
  rcases reached.owned with ⟨owner, owned⟩
  rcases step_effect reached owned step with ⟨later, effect⟩
  exact effect.reached

theorem step_of_allowed {operation : Operation} (allowed : Allowed platform state operation) :
    ∃ next, Step platform state operation next := by
  cases ran : perform operation state with
  | ok result next => exact ⟨next, allowed, Or.inl ⟨result, ran⟩⟩
  | error fault next => exact ⟨next, allowed, Or.inr ⟨fault, ran⟩⟩

theorem run_reached (valid : platform.Valid) {operations : List Operation}
    (run : Trace (Step platform) (withHoles platform holes) operations state) :
    Reached platform (MayMapItself platform holes) holes state :=
  run.invariant _ (fun _ _ _ kept step => step_reached kept step) (withHoles_reached valid _ holes)

theorem new_withHoles (platform : Platform) (localMemSize : Nat) :
    new platform localMemSize = withHoles platform (new platform localMemSize).hole_list_ := rfl

end Runs

section Small

theorem smallPlatform_created : ∃ next,
    allocatePageTable (new smallPlatform 0) = .ok (some 0x1000) next ∧
      next.history = [.created 0x1000] ∧ next.frames = {0x1000} := ⟨_, rfl, rfl, rfl⟩

theorem smallPlatform_noHoles : ∀ frame, smallPlatform.IsFrame frame →
    (new smallPlatform 0).hole_list_.addrInHole frame = false := by
  intro frame isFrame
  have low : 0x1000 ≤ frame := isFrame.2.1
  have holes : (new smallPlatform 0).hole_list_.hole_list_ = [(0x40, 0x40)] := rfl
  have stop : add64 0x40 0x40 = 0x80 := rfl
  have above : ¬frame ≤ 0x80 := by omega
  rw [HoleList.addrInHole, holes]
  simp only [List.any_cons, List.any_nil, stop, Bool.or_false]
  rw [decide_eq_false above, Bool.and_false]

theorem smallPlatform_run : ∃ state : AddressSpaceManager,
    Trace (Step smallPlatform) (new smallPlatform 0)
        [.allocatePageTable, .allocateOneVmPage 0x5000 0x1000 PteFlags.R] state ∧
      state.Live 0x1000 := by
  rcases smallPlatform_created with ⟨created, ran, history, _⟩
  have first : Step smallPlatform (new smallPlatform 0) .allocatePageTable created :=
    ⟨trivial, Or.inl ⟨_, ran⟩⟩
  have isLive : created.Live 0x1000 := by
    rw [Live, history]
    rfl
  rcases (run_reached smallPlatform_valid (Trace.cons first (Trace.nil created))).owned with
    ⟨owner, owned⟩
  rcases @step_of_allowed smallPlatform created
    (.allocateOneVmPage 0x5000 0x1000 PteFlags.R) ⟨isLive, by decide, by decide⟩ with
    ⟨state, second⟩
  refine ⟨state, Trace.cons first (Trace.cons second (Trace.nil state)), ?_⟩
  apply keeps_of_ensures ?_ second.2
  apply (allocateOneVmPage_spec owned isLive (by decide : 0x5000 < 2 ^ 32)
    (by decide : PteFlags.R &&& PteFlags.R ≠ 0)).weaken
  · rintro _ next ⟨_, _, _, grown, _⟩
    exact live_of_mapped grown isLive
  · rintro _ next ⟨_, _, same, _⟩
    exact live_of_same same isLive

end Small

end Espiral.AddressSpaceManager
