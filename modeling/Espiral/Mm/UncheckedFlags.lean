import Espiral.Mm.TwinTables

/-!
# Runs with any flags

The operations again, without a condition on the flags of their callers. Each
of them keeps the manager paired with a twin, also when it throws, so a live
table whose own mappings are readable is well formed after any run.
-/

namespace Espiral.AddressSpaceManager

set_option autoImplicit false

open ByteMemory Contracts MachineWords Traces VortexMemoryAllocator

structure Paired (platform : Platform) (holes : HoleList) (state : AddressSpaceManager) : Prop where
  twin : ∃ owner twin, Twin platform (MayMapItself platform holes) owner state twin
  holes : state.hole_list_ = holes

structure StaysPaired (platform : Platform) (identity : Nat → Prop)
    (state next : AddressSpaceManager) : Prop where
  twin : ∃ owner twin, Twin platform identity owner next twin
  holes : next.hole_list_ = state.hole_list_
  live : ∀ table, state.Live table → next.Live table

theorem Paired.stays {platform : Platform} {holes : HoleList} {state next : AddressSpaceManager}
    (paired : Paired platform holes state)
    (stays : StaysPaired platform (MayMapItself platform holes) state next) :
    Paired platform holes next :=
  ⟨stays.twin, stays.holes.trans paired.holes⟩

section Operations

variable {platform : Platform} {identity : Nat → Prop} {owner : Nat → Option Role}
  {state twin : AddressSpaceManager} {root va : Nat}

theorem StaysPaired.of_sameHistory {later : Nat → Option Role} {next nextTwin : AddressSpaceManager}
    (twin : Twin platform identity later next nextTwin) (history : next.history = state.history)
    (holes : next.hole_list_ = state.hole_list_) : StaysPaired platform identity state next :=
  ⟨⟨later, nextTwin, twin⟩, holes, fun _ => live_of_same history⟩

theorem Twin.descend (paired : Twin platform identity owner state twin) (isLive : state.Live root)
    (vaBound : va < 2 ^ 32) :
    Ensures (descend va (PT_LEVELS - 1) root) state
      (fun node next => ∃ later nextTwin, Twin platform identity later next nextTwin ∧
        next.history = state.history ∧ next.hole_list_ = state.hole_list_ ∧
        state.frames ⊆ next.frames ∧
        (∀ frame ∈ state.frames, owner frame = none → later frame = none) ∧
        pteValid (entryAt next.view root (va / 4096 / 1024)) = true ∧
        ptePa (entryAt next.view root (va / 4096 / 1024)) = node)
      (fun _ next => ∃ nextTwin, Twin platform identity owner next nextTwin ∧
        next.history = state.history ∧ next.hole_list_ = state.hole_list_) := by
  have narrow := paired.narrow (paired.used (paired.root_owner isLive)).1
  have small : va / 4096 / 1024 < 1024 := by omega
  obtain ⟨read, ran, same⟩ := @readEntry_run state root _ narrow small
  have reading := paired.read same
  have levels : PT_LEVELS - 1 = 0 + 1 := rfl
  rw [levels, AddressSpaceManager.descend, Nat.zero_add, vaVpn_one vaBound,
    entry_address narrow small]
  apply ensures_bind_of_run ran
  cases valid : pteValid (entryAt state.view root (va / 4096 / 1024)) with
  | true =>
      apply ensures_pure
      refine ⟨owner, twin, reading, same.history, same.holes, same.grown.frames,
        fun _ _ none => none, ?_, ?_⟩
      · rw [same.view]
        exact valid
      · rw [same.view]
  | false =>
      simp only [Bool.not_false, if_true]
      obtain ⟨result, grown, allocated, pool, tables, outcome⟩ :=
        allocatePageTableNode_run reading.pool
      have growing := reading.grow pool tables outcome.grows
      have history := tables.history.trans same.history
      have holes := tables.holes.trans same.holes
      apply ensures_bind_of_run allocated
      cases result with
      | none => exact ensures_throw ⟨_, growing, history, holes⟩
      | some node =>
          have fresh := outcome.fresh
          rw [same.frames] at fresh
          have free := paired.unowned fresh.2.1
          have nodeNarrow := growing.narrow fresh.1
          have viewIs : grown.view = state.view := tables.view.trans same.view
          have target : ptePa (makePte node PteFlags.V) = node := by
            rw [ptePa_makePte (by omega), frameOf_of_aligned fresh.2.2.1]
          obtain ⟨zeroed, linked, wroteZeros, wroteLink, allocator, linkHoles, linkHistory, written⟩ :=
            @linkNode_run grown root (va / 4096 / 1024) node narrow nodeNarrow small
          obtain ⟨nextTwin, linkedTwin⟩ := growing.add_node (live_of_same history isLive) small
            (by rw [viewIs]; exact valid) free fresh.1 allocator linkHoles linkHistory written
          have entryNow : entryAt linked.view root (va / 4096 / 1024) =
              makePte node PteFlags.V := by
            rw [written, entryAt_store_entry (makePte_lt (by omega)), if_pos rfl]
          simp only
          apply ensures_bind_of_run wroteZeros
          apply ensures_bind_of_run wroteLink
          rw [target]
          apply ensures_pure
          refine ⟨_, nextTwin, linkedTwin, linkHistory.trans history, linkHoles.trans holes, ?_, ?_, ?_,
            ?_⟩
          · have frames : linked.frames = grown.frames := by
              rw [AddressSpaceManager.frames, allocator]
              rfl
            rw [frames, ← same.frames]
            exact outcome.grows
          · intro frame used none
            have different : frame ≠ node := by
              intro here
              rw [here] at used
              exact fresh.2.1 used
            rw [Function.update_of_ne different]
            exact none
          · rw [entryNow]
            exact (node_pte node).1
          · rw [entryNow]
            exact target

theorem Twin.writeLeaf (paired : Twin platform identity owner state twin) (isLive : state.Live root)
    (vaBound : va < 2 ^ 32) {pa flags node : Nat} (paBound : pa < 2 ^ 32)
    (upper : pteValid (entryAt state.view root (va / 4096 / 1024)) = true)
    (nodeIs : ptePa (entryAt state.view root (va / 4096 / 1024)) = node)
    (target : frameOf pa ∈ state.frames ∧ owner (frameOf pa) = none ∨
      identity (frameOf pa) ∧ frameOf pa = va / 4096 * 4096) :
    ∃ written, writePte (node + va / 4096 % 1024 * 4)
        (makePte pa (flags ||| PteFlags.V ||| PteFlags.A ||| PteFlags.D)) state = .ok () written ∧
      StaysPaired platform identity state
        { written with history := .mapped root va pa flags :: written.history } := by
  have small : va / 4096 / 1024 < 1024 := by omega
  have nodeHas := (paired.node isLive small upper).2
  rw [nodeIs] at nodeHas
  have narrow := paired.narrow (paired.used nodeHas).1
  obtain ⟨written, wrote, allocator, holes, history, view⟩ :=
    @writePte_run state node (va / 4096 % 1024)
      (makePte pa (flags ||| PteFlags.V ||| PteFlags.A ||| PteFlags.D)) narrow
      (Nat.mod_lt _ (by decide))
  let mapped : AddressSpaceManager :=
    { written with history := .mapped root va pa flags :: written.history }
  have sameAllocator : mapped.page_allocator_ = state.page_allocator_ := allocator
  have sameHoles : mapped.hole_list_ = state.hole_list_ := holes
  have added : mapped.history = .mapped root va pa flags :: state.history :=
    congrArg (List.cons _) history
  have stored : mapped.view = store state.view (node + va / 4096 % 1024 * 4)
      (littleEndian 4 (makePte pa (leafFlags flags))) := view
  refine ⟨written, wrote, ?_, holes, fun table => live_of_mapped added⟩
  cases target with
  | inl fresh =>
      obtain ⟨used, free⟩ := fresh
      obtain ⟨nextTwin, filled⟩ := paired.add_leaf isLive vaBound paBound upper nodeIs sameAllocator
        sameHoles added stored (Extends.update free (.leaf root (va / 4096)))
        (paired.used_update _ used isLive) (Or.inl (Function.update_self ..))
        (fun frame table position has => by
          by_cases here : frame = frameOf pa
          · rw [here, Function.update_self] at has
            cases has
          · rw [Function.update_of_ne here] at has
            exact has)
      exact ⟨_, nextTwin, filled⟩
  | inr itself =>
      obtain ⟨nextTwin, filled⟩ := paired.add_leaf isLive vaBound paBound upper nodeIs sameAllocator
        sameHoles added stored (Extends.refl owner) (fun _ _ has => paired.used has) (Or.inr itself)
        (fun _ _ _ has => has)
      exact ⟨owner, nextTwin, filled⟩

theorem Twin.mapAddrInner (paired : Twin platform identity owner state twin)
    (isLive : state.Live root) (vaBound : va < 2 ^ 32) {pa : Nat} (flags : Nat)
    (paBound : pa < 2 ^ 32)
    (target : frameOf pa ∈ state.frames ∧ owner (frameOf pa) = none ∨
      identity (frameOf pa) ∧ frameOf pa = va / 4096 * 4096) :
    Ensures (mapAddrInner va pa root flags) state
      (fun _ next => StaysPaired platform identity state next)
      (fun _ next => StaysPaired platform identity state next) := by
  unfold AddressSpaceManager.mapAddrInner
  apply Ensures.bind
  apply (paired.descend isLive vaBound).weaken
  · rintro node reached ⟨later, reachedTwin, now, history, holes, frames, keepsFree, upper, nodeIs⟩
    have liveNow : reached.Live root := live_of_same history isLive
    have small : va / 4096 / 1024 < 1024 := by omega
    have lowerSmall : va / 4096 % 1024 < 1024 := Nat.mod_lt _ (by decide)
    have nodeHas := (now.node liveNow small upper).2
    rw [nodeIs] at nodeHas
    have narrow := now.narrow (now.used nodeHas).1
    rw [vaVpn_zero, entry_address narrow lowerSmall]
    obtain ⟨read, ran, same⟩ := @readEntry_run reached node _ narrow lowerSmall
    apply ensures_bind_of_run ran
    by_cases valid : pteValid (entryAt reached.view node (va / 4096 % 1024)) = true
    · obtain ⟨final, sameFinal, thrown⟩ := @alreadyMapped_throws read node _ root narrow lowerSmall
        (now.owned.aligned (now.root_owner liveNow)) va
      have reads := same.trans sameFinal
      rw [if_pos valid]
      exact ensures_of_throw thrown (StaysPaired.of_sameHistory (now.read reads)
        (reads.history.trans history) (reads.holes.trans holes))
    · have liveThen : read.Live root := live_of_same same.history liveNow
      have targetNow : frameOf pa ∈ read.frames ∧ later (frameOf pa) = none ∨
          identity (frameOf pa) ∧ frameOf pa = va / 4096 * 4096 := by
        cases target with
        | inl fresh =>
            rw [same.frames]
            exact Or.inl ⟨frames fresh.1, keepsFree _ fresh.1 fresh.2⟩
        | inr itself => exact Or.inr itself
      rw [← same.view] at upper nodeIs
      obtain ⟨written, wrote, stays⟩ :=
        (now.read same).writeLeaf liveThen vaBound paBound upper nodeIs targetNow
      rw [if_neg valid]
      apply ensures_bind_of_run wrote
      apply ensures_of_run (record_run _)
      exact ⟨stays.twin, stays.holes.trans (same.holes.trans holes), fun table tableLive =>
        stays.live table (live_of_same (same.history.trans history) tableLive)⟩
  · rintro fault next ⟨nextTwin, now, history, holes⟩
    exact StaysPaired.of_sameHistory now history holes

theorem Twin.allocateOneVmPage (paired : Twin platform identity owner state twin)
    (isLive : state.Live root) (vaBound : va < 2 ^ 32) (flags : Nat) :
    Ensures (allocateOneVmPage va root flags) state
      (fun _ next => StaysPaired platform identity state next)
      (fun _ next => StaysPaired platform identity state next) := by
  obtain ⟨result, grown, ran, pool, tables, outcome⟩ := allocateOnePage_run paired.pool
  have growing := paired.grow pool tables outcome.grows
  rw [AddressSpaceManager.allocateOneVmPage]
  apply ensures_bind_of_run ran
  cases result with
  | none => exact ensures_throw (StaysPaired.of_sameHistory growing tables.history tables.holes)
  | some pa =>
      have fresh := outcome.fresh
      have positive := paired.pool.valid.basePositive
      have low := fresh.2.2.2.1
      have nonzero : pa ≠ 0 := by omega
      have narrow := growing.narrow fresh.1
      have atFrame : frameOf pa = pa := frameOf_of_aligned fresh.2.2.1
      simp only [Option.getD_some, nonzero, if_false]
      have mapped := growing.mapAddrInner (live_of_same tables.history isLive) vaBound flags
        (by omega : pa < 2 ^ 32)
        (Or.inl ⟨by rw [atFrame]; exact fresh.1, by rw [atFrame]; exact paired.unowned fresh.2.1⟩)
      have continues : ∀ next, StaysPaired platform identity grown next →
          StaysPaired platform identity state next := fun next stays =>
        ⟨stays.twin, stays.holes.trans tables.holes, fun table tableLive =>
          stays.live table (live_of_same tables.history tableLive)⟩
      exact mapped.weaken (fun _ => continues) (fun _ => continues)

theorem Twin.allocatePageTable (paired : Twin platform identity owner state twin) :
    ∃ result next, allocatePageTable state = .ok result next ∧
      StaysPaired platform identity state next := by
  obtain ⟨result, grown, ran, pool, tables, outcome⟩ := allocatePageTableNode_run paired.pool
  have growing := paired.grow pool tables outcome.grows
  rw [AddressSpaceManager.allocatePageTable, bind_ok ran]
  cases result with
  | none =>
      exact ⟨none, grown, rfl, StaysPaired.of_sameHistory growing tables.history tables.holes⟩
  | some created =>
      have fresh := outcome.fresh
      obtain ⟨zeroed, wrote, allocator, holes, history, view⟩ :=
        @zeroNode_run grown created (growing.narrow fresh.1)
      let made : AddressSpaceManager :=
        { zeroed with history := .created created :: zeroed.history }
      have sameAllocator : made.page_allocator_ = grown.page_allocator_ := allocator
      have sameHoles : made.hole_list_ = grown.hole_list_ := holes
      have added : made.history = .created created :: grown.history :=
        congrArg (List.cons _) history
      have stored : made.view = store grown.view created (List.replicate 4096 0) := view
      obtain ⟨nextTwin, root⟩ := growing.add_root (paired.unowned fresh.2.1) fresh.1 sameAllocator
        sameHoles added stored
      simp only
      rw [bind_ok wrote, bind_ok (record_run _)]
      exact ⟨_, _, rfl, ⟨_, nextTwin, root⟩, holes.trans tables.holes, fun table tableLive =>
        (live_created added table).mpr (Or.inr (live_of_same tables.history tableLive))⟩

/-- Releasing a page of the table: its frame, or one that its owner may not release. -/
theorem Twin.releaseLeaf (paired : Twin platform identity owner state twin)
    (mayMapItself : ∀ frame, identity frame → MayMapItself platform state.hole_list_ frame)
    {frame page : Nat} (leaf : owner frame = some (.leaf root page) ∨ identity frame)
    {current : AddressSpaceManager} (freeing : Freeing platform owner root state current) :
    Ensures (releaseOnePage frame) current
      (fun _ next => Freeing platform owner root state next) (fun _ _ => False) := by
  cases leaf with
  | inl mine => exact freeing.releaseOwn mine rfl
  | inr itself =>
      apply freeing.release
      intro role has
      have other := without_some.mp has
      cases mayMapItself frame itself with
      | inl inHole => exact inHole
      | inr outside => exact absurd (paired.pool.isFrame (paired.used other.1).1) outside

/-- An entry without any of the readable, writable and executable flags is not released. -/
theorem Twin.freeNode (paired : Twin platform identity owner state twin)
    (mayMapItself : ∀ frame, identity frame → MayMapItself platform state.hole_list_ frame)
    (isLive : state.Live root) {index : Nat} (small : index < 1024)
    (valid : pteValid (entryAt state.view root index) = true) {current : AddressSpaceManager}
    (freeing : Freeing platform owner root state current) :
    Ensures (freePageTableInner 1 (ptePa (entryAt state.view root index))) current
      (fun _ next => Freeing platform owner root state next) (fun _ _ => False) := by
  have node := paired.node isLive small valid
  have narrow := paired.narrow (paired.used node.2).1
  have twinLive := (paired.live root).mpr isLive
  have rootSame := paired.roots root isLive index small
  obtain ⟨read, ran, same⟩ :=
    @readScratchpad_run current (ptePa (entryAt state.view root index)) PAGE_SIZE narrow
  rw [freeing.tables.view] at ran
  apply freePageTableInner_keeps ran (freeing.read same)
  · intro slot slotSmall
    have entry : pteIn (load state.view (ptePa (entryAt state.view root index)) PAGE_SIZE) slot =
        entryAt state.view (ptePa (entryAt state.view root index)) slot :=
      pteIn_load _ _ slotSmall
    rw [entry]
    intro lower now freed
    have alike := paired.nodes _ root index node.2 slot slotSmall
    have leaf := paired.owned.leaves root index slot twinLive small slotSmall
    rw [rootSame, alike.valid, alike.target] at leaf
    cases isLeaf : pteIsLeaf (entryAt state.view (ptePa (entryAt state.view root index)) slot) with
    | false => exact ensures_pure freed
    | true => exact paired.releaseLeaf mayMapItself ((leaf valid lower).2.imp_right And.left) freed
  · intro now freed
    exact freed.releaseOwn node.2 rfl

theorem Twin.freePageTable (paired : Twin platform identity owner state twin)
    (mayMapItself : ∀ frame, identity frame → MayMapItself platform state.hole_list_ frame)
    (isLive : state.Live root) :
    ∃ next, freePageTable root state = .ok () next ∧ next.hole_list_ = state.hole_list_ ∧
      ∃ nextTwin, Twin platform identity (without root owner) next nextTwin := by
  have rootHas := paired.root_owner isLive
  have narrow := paired.narrow (paired.used rootHas).1
  obtain ⟨read, ran, same⟩ := @readScratchpad_run state root PAGE_SIZE narrow
  have start : Freeing platform owner root state state :=
    ⟨paired.pool, ⟨rfl, rfl, rfl⟩, fun frame role has =>
      (paired.used (without_some.mp has).1).1, Finset.Subset.refl _⟩
  have freed : Ensures (freePageTableInner (1 + 1) root) state
      (fun _ next => Freeing platform owner root state next) (fun _ _ => False) := by
    apply freePageTableInner_keeps ran (start.read same)
    · intro index small
      have entry : pteIn (load state.view root PAGE_SIZE) index =
          entryAt state.view root index := pteIn_load _ _ small
      rw [entry]
      intro valid now freed
      rw [(paired.node isLive small valid).1]
      exact paired.freeNode mayMapItself isLive small valid freed
    · intro now freed
      exact freed.releaseOwn rootHas rfl
  rcases ensures_iff.mp freed with ⟨_, last, returned, final⟩ | ⟨_, _, _, impossible⟩
  · let gone : AddressSpaceManager := { last with history := .freed root :: last.history }
    have history : gone.history = .freed root :: state.history :=
      congrArg (List.cons _) final.tables.history
    have view : gone.view = state.view := final.tables.view
    refine ⟨gone, ?_, final.tables.holes,
      paired.remove_table final.pool final.kept final.tables.holes history view⟩
    rw [AddressSpaceManager.freePageTable, PT_LEVELS, bind_ok returned, record_run]
  · exact impossible.elim

end Operations

end Espiral.AddressSpaceManager
