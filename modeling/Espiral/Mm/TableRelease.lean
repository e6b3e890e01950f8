import Mathlib.Data.List.Nodup
import Espiral.Mm.FrameOwnership

/-!
# What freeing a table gives back

The calls that `free_page_table` makes to the page allocator, one after the
other, and which of them succeed. The frames of a table have one role each, so
each of them is released once.
-/

namespace Espiral

set_option autoImplicit false

open Traces

namespace VortexMemoryAllocator

def ReleaseStep (state : VortexMemoryAllocator) (call : Nat × Bool)
    (next : VortexMemoryAllocator) : Prop :=
  release call.1 state = .ok call.2 next

section Releases

variable {platform : Platform} {state last : VortexMemoryAllocator} {calls : List (Nat × Bool)}

theorem FramePool.allocated (pool : FramePool platform state) :
    state.allocated_ = 4096 * (frames state).card := by
  have sizes : state.usedBlocks.map Prod.snd = List.replicate state.usedBlocks.length 4096 := by
    rw [List.eq_replicate_iff]
    constructor
    · exact List.length_map _
    · intro size member
      obtain ⟨block, inBlocks, same⟩ := List.mem_map.mp member
      rw [← same]
      exact pool.blocks block inBlocks
  have distinct : (state.usedBlocks.map Prod.fst).Nodup := by
    have starts := pool.sound.starts_nodup
    rw [List.NodupKeys, List.keys, List.map_map] at starts
    exact starts
  rw [pool.sound.accounted, sizes, List.sum_replicate_nat, frames,
    List.toFinset_card_of_nodup distinct, List.length_map, Nat.mul_comm]

/-- The calls that succeed are those for frames in use, and these are free afterwards. -/
theorem release_calls (run : Trace ReleaseStep state calls last)
    (pool : FramePool platform state) :
    FramePool platform last ∧ frames last = frames state \ (calls.map Prod.fst).toFinset ∧
      ∀ frame, (frame, true) ∈ calls ↔ frame ∈ frames state ∧ frame ∈ calls.map Prod.fst := by
  induction run with
  | nil state =>
      refine ⟨pool, ?_, ?_⟩
      · rw [List.map_nil, List.toFinset_nil, Finset.sdiff_empty]
      · intro frame
        simp
  | @cons first second third call rest head tail ih =>
      rw [ReleaseStep] at head
      cases release_frame pool call.1 with
      | inl released =>
          obtain ⟨used, next, ran, nextPool, erased⟩ := released
          rw [ran] at head
          injection head with result same
          rw [same] at nextPool erased
          obtain ⟨lastPool, left, succeeded⟩ := ih nextPool
          refine ⟨lastPool, ?_, ?_⟩
          · rw [left, erased]
            ext frame
            simp only [Finset.mem_sdiff, Finset.mem_erase, List.mem_toFinset, List.map_cons,
              List.mem_cons, not_or]
            constructor
            · intro holds
              exact ⟨holds.1.2, holds.1.1, holds.2⟩
            · intro holds
              exact ⟨⟨holds.2.1, holds.1⟩, holds.2.2⟩
          · intro frame
            rw [List.mem_cons, succeeded, erased, Finset.mem_erase, List.map_cons, List.mem_cons]
            constructor
            · intro holds
              cases holds with
              | inl here =>
                  have frameIs : frame = call.1 := congrArg Prod.fst here
                  rw [frameIs]
                  exact ⟨used, Or.inl rfl⟩
              | inr later => exact ⟨later.1.2, Or.inr later.2⟩
            · intro holds
              by_cases here : frame = call.1
              · left
                rw [here, result]
              · right
                exact ⟨⟨here, holds.1⟩, holds.2.resolve_left here⟩
      | inr missing =>
          obtain ⟨unused, ran⟩ := missing
          rw [ran] at head
          injection head with result same
          rw [← same] at ih
          obtain ⟨lastPool, left, succeeded⟩ := ih pool
          refine ⟨lastPool, ?_, ?_⟩
          · rw [left]
            ext frame
            simp only [Finset.mem_sdiff, List.mem_toFinset, List.map_cons, List.mem_cons, not_or]
            constructor
            · intro holds
              refine ⟨holds.1, ?_, holds.2⟩
              intro here
              rw [here] at holds
              exact unused holds.1
            · intro holds
              exact ⟨holds.1, holds.2.2⟩
          · intro frame
            rw [List.mem_cons, succeeded, List.map_cons, List.mem_cons]
            constructor
            · intro holds
              cases holds with
              | inl here =>
                  have impossible : true = call.2 := congrArg Prod.snd here
                  rw [← result] at impossible
                  cases impossible
              | inr later => exact ⟨later.1, Or.inr later.2⟩
            · intro holds
              right
              refine ⟨holds.1, holds.2.resolve_left ?_⟩
              intro here
              rw [here] at holds
              exact unused holds.1

end Releases

end VortexMemoryAllocator

namespace AddressSpaceManager

open ByteMemory Contracts MachineWords VortexMemoryAllocator

def validEntries (memory : Memory) (node : Nat) : List Nat :=
  (List.range 1024).filter fun index => pteValid (entryAt memory node index)

def tableRoles (memory : Memory) (root : Nat) : List Role :=
  ((validEntries memory root).flatMap fun index =>
    ((validEntries memory (ptePa (entryAt memory root index))).map fun slot =>
        Role.leaf root (index * 1024 + slot)) ++ [Role.node root index]) ++
    [Role.root root]

def roleAddress (memory : Memory) : Role → Nat
  | .root table => table
  | .node table index => ptePa (entryAt memory table index)
  | .leaf table page =>
      ptePa (entryAt memory (ptePa (entryAt memory table (page / 1024))) (page % 1024))

def tableAddresses (memory : Memory) (root : Nat) : List Nat :=
  (tableRoles memory root).map (roleAddress memory)

/-- These addresses have been given to `release_one_page`, and nothing else has happened. -/
structure Releasing (platform : Platform) (state : AddressSpaceManager) (addresses : List Nat)
    (current : AddressSpaceManager) : Prop where
  pool : FramePool platform current.page_allocator_
  tables : SameTables state current
  calls : ∃ calls, Trace ReleaseStep state.page_allocator_ calls current.page_allocator_ ∧
    calls.map Prod.fst = addresses.filter fun addr => !state.hole_list_.addrInHole addr

section Calls

variable {platform : Platform} {identity : Nat → Prop} {owner : Nat → Option Role}
  {state current next : AddressSpaceManager} {root : Nat} {addresses : List Nat}

theorem mem_validEntries {memory : Memory} {node index : Nat} :
    index ∈ validEntries memory node ↔ index < 1024 ∧ pteValid (entryAt memory node index) = true := by
  rw [validEntries, List.mem_filter, List.mem_range]

theorem Releasing.read (releasing : Releasing platform state addresses current)
    (same : SameView current next) : Releasing platform state addresses next where
  pool := by
    rw [same.allocator]
    exact releasing.pool
  tables := ⟨same.holes.trans releasing.tables.holes, same.history.trans releasing.tables.history,
    same.view.trans releasing.tables.view⟩
  calls := by
    rw [same.allocator]
    exact releasing.calls

theorem Releasing.release (releasing : Releasing platform state addresses current) (addr : Nat) :
    Ensures (releaseOnePage addr) current
      (fun _ next => Releasing platform state (addresses ++ [addr]) next) (fun _ _ => False) := by
  obtain ⟨calls, run, arguments⟩ := releasing.calls
  have tested : addrInHole addr current = .ok (current.hole_list_.addrInHole addr) current := rfl
  rw [releaseOnePage]
  apply ensures_bind_of_run tested
  rw [releasing.tables.holes]
  cases inHole : state.hole_list_.addrInHole addr with
  | true =>
      apply ensures_pure
      refine ⟨releasing.pool, releasing.tables, calls, run, ?_⟩
      rw [List.filter_append, arguments]
      simp [inHole]
  | false =>
      have arguments : (calls ++ [(addr, true)]).map Prod.fst =
          (addresses ++ [addr]).filter fun addr => !state.hole_list_.addrInHole addr := by
        rw [List.filter_append, List.map_append, arguments]
        simp [inHole]
      rw [if_neg Bool.false_ne_true]
      cases release_frame releasing.pool addr with
      | inl released =>
          obtain ⟨_, after, ran, pool, _⟩ := released
          apply ensures_bind_of_run (onAllocator_ok ran)
          exact ensures_pure ⟨pool, ⟨releasing.tables.holes, releasing.tables.history,
            releasing.tables.view⟩, _, @Trace.snoc _ _ ReleaseStep _ _ _ _ (addr, true) run ran,
            arguments⟩
      | inr missing =>
          apply ensures_bind_of_run (onAllocator_ok missing.2)
          refine ensures_pure ⟨releasing.pool, ⟨releasing.tables.holes, releasing.tables.history,
            releasing.tables.view⟩, _,
            @Trace.snoc _ _ ReleaseStep _ _ _ _ (addr, false) run missing.2, ?_⟩
          rw [← arguments, List.map_append, List.map_append]
          rfl

/-- Freeing a node: first what its valid entries stand for, in order, then the node. -/
theorem freePageTableInner_releases {level pa : Nat} {released : Nat → List Nat}
    (releasing : Releasing platform state addresses current) (narrow : pa + PAGE_SIZE ≤ 2 ^ 32)
    (entry : ∀ index < 1024, pteValid (entryAt state.view pa index) = true → ∀ earlier now,
      Releasing platform state earlier now →
        Ensures (if !pteIsLeaf (entryAt state.view pa index) then
            freePageTableInner level (ptePa (entryAt state.view pa index))
          else releaseOnePage (ptePa (entryAt state.view pa index))) now
          (fun _ next => Releasing platform state (earlier ++ released index) next)
          (fun _ _ => False)) :
    Ensures (freePageTableInner (level + 1) pa) current
      (fun _ next => Releasing platform state
        (addresses ++ (validEntries state.view pa).flatMap released ++ [pa]) next)
      (fun _ _ => False) := by
  have members : ∀ index ∈ entryIndices, index < 1024 := fun _ member => List.mem_range.mp member
  obtain ⟨read, ran, same⟩ := @readScratchpad_run current pa PAGE_SIZE narrow
  rw [freePageTableInner]
  apply ensures_bind_of_run ran
  apply Ensures.bind
  have loop := @ensures_forM Fault AddressSpaceManager Nat read (fun _ _ => False)
    (fun index => do
      let pte := pteIn (load current.view pa PAGE_SIZE) index
      if pteValid pte then
        if !pteIsLeaf pte then freePageTableInner level (ptePa pte)
        else releaseOnePage (ptePa pte)
      else pure ())
    (fun before next => Releasing platform state (addresses ++
      (before.filter fun index => pteValid (entryAt state.view pa index)).flatMap released) next)
    entryIndices [] entryIndices (List.nil_append _) ?_ (by
      rw [List.filter_nil, List.flatMap_nil, List.append_nil]
      exact releasing.read same)
  · apply loop.weaken
    · intro _ next done
      exact done.release pa
    · intro _ _ impossible
      exact impossible
  · intro before index rest now split done
    have small : index < 1024 := members index (by rw [← split]; simp)
    have word : pteIn (load current.view pa PAGE_SIZE) index = entryAt state.view pa index := by
      rw [releasing.tables.view]
      exact pteIn_load _ _ small
    simp only [word]
    rw [List.filter_append, List.flatMap_append, ← List.append_assoc]
    by_cases valid : pteValid (entryAt state.view pa index) = true
    · rw [if_pos valid, List.filter_singleton, valid, cond_true, List.flatMap_singleton]
      exact entry index small valid _ now done
    · rw [if_neg valid, List.filter_singleton, Bool.eq_false_of_not_eq_true valid, cond_false,
        List.flatMap_nil, List.append_nil]
      exact ensures_pure done

theorem freeNode_releases (owned : WellOwned platform identity owner state)
    (isLive : state.Live root) {index : Nat} (small : index < 1024)
    (valid : pteValid (entryAt state.view root index) = true)
    (releasing : Releasing platform state addresses current) :
    Ensures (freePageTableInner 1 (ptePa (entryAt state.view root index))) current
      (fun _ next => Releasing platform state
        (addresses ++ ((validEntries state.view (ptePa (entryAt state.view root index))).map
            fun slot => ptePa (entryAt state.view (ptePa (entryAt state.view root index)) slot)) ++
          [ptePa (entryAt state.view root index)]) next)
      (fun _ _ => False) := by
  have node := (owned.nodes root index isLive small valid).2
  have narrow := owned.narrow (owned.used _ _ node).1
  rw [List.map_eq_flatMap]
  apply freePageTableInner_releases releasing narrow
  intro slot slotSmall lower earlier now done
  have leaf := (owned.leaves root index slot isLive small slotSmall valid lower).1
  rw [pteIsLeaf_of_readable leaf, Bool.not_true, if_neg Bool.false_ne_true]
  exact done.release _

theorem tableAddresses_eq (memory : Memory) (root : Nat) :
    tableAddresses memory root = ((validEntries memory root).flatMap fun index =>
      ((validEntries memory (ptePa (entryAt memory root index))).map fun slot =>
          ptePa (entryAt memory (ptePa (entryAt memory root index)) slot)) ++
        [ptePa (entryAt memory root index)]) ++ [root] := by
  have nodes : ∀ index ∈ validEntries memory root,
      (((validEntries memory (ptePa (entryAt memory root index))).map fun slot =>
          Role.leaf root (index * 1024 + slot)) ++ [Role.node root index]).map
            (roleAddress memory) =
        ((validEntries memory (ptePa (entryAt memory root index))).map fun slot =>
          ptePa (entryAt memory (ptePa (entryAt memory root index)) slot)) ++
          [ptePa (entryAt memory root index)] := by
    intro index _
    rw [List.map_append, List.map_map, List.map_singleton, roleAddress]
    apply congrArg (· ++ [ptePa (entryAt memory root index)])
    apply List.map_congr_left
    intro slot member
    have small := (mem_validEntries.mp member).1
    have upper : (index * 1024 + slot) / 1024 = index := by omega
    have lower : (index * 1024 + slot) % 1024 = slot := by omega
    rw [Function.comp_apply, roleAddress, upper, lower]
  rw [tableAddresses, tableRoles, List.map_append, List.map_flatMap, List.flatMap_congr nodes,
    List.map_singleton, roleAddress]

/-- Freeing a table gives its addresses to `release_one_page`, each as often as the table
uses it, and does nothing else. -/
theorem freePageTable_releases (owned : WellOwned platform identity owner state)
    (isLive : state.Live root) :
    ∃ next last, freePageTable root state = .ok () next ∧
      Releasing platform state (tableAddresses state.view root) last ∧
      next = { last with history := .freed root :: last.history } := by
  have role := owned.roots root isLive
  have narrow := owned.narrow (owned.used _ _ role).1
  have start : Releasing platform state [] state :=
    ⟨owned.pool, ⟨rfl, rfl, rfl⟩, [], Trace.nil _, rfl⟩
  have freed : Ensures (freePageTableInner (1 + 1) root) state
      (fun _ next => Releasing platform state (tableAddresses state.view root) next)
      (fun _ _ => False) := by
    rw [tableAddresses_eq, ← List.nil_append (List.flatMap _ _)]
    apply freePageTableInner_releases start narrow
    intro index small valid earlier now done
    rw [(owned.nodes root index isLive small valid).1, Bool.not_false, if_pos rfl,
      ← List.append_assoc]
    exact freeNode_releases owned isLive small valid done
  cases ensures_iff.mp freed with
  | inl returned =>
      obtain ⟨_, last, ran, done⟩ := returned
      refine ⟨_, last, ?_, done, rfl⟩
      rw [freePageTable, PT_LEVELS, bind_ok ran, record_run]
  | inr thrown =>
      obtain ⟨_, _, _, impossible⟩ := thrown
      exact impossible.elim

theorem mem_tableRoles {memory : Memory} {role : Role} :
    role ∈ tableRoles memory root ↔ role = .root root ∨
      (∃ index ∈ validEntries memory root, role = .node root index) ∨
        ∃ index ∈ validEntries memory root,
          ∃ slot ∈ validEntries memory (ptePa (entryAt memory root index)),
            role = .leaf root (index * 1024 + slot) := by
  rw [tableRoles, List.mem_append, List.mem_singleton, List.mem_flatMap]
  constructor
  · intro member
    cases member with
    | inl inside =>
        obtain ⟨index, valid, member⟩ := inside
        rw [List.mem_append, List.mem_map, List.mem_singleton] at member
        cases member with
        | inl leaf =>
            obtain ⟨slot, lower, same⟩ := leaf
            exact Or.inr (Or.inr ⟨index, valid, slot, lower, same.symm⟩)
        | inr node => exact Or.inr (Or.inl ⟨index, valid, node⟩)
    | inr top => exact Or.inl top
  · intro uses
    cases uses with
    | inl top => exact Or.inr top
    | inr inner =>
        left
        cases inner with
        | inl node =>
            obtain ⟨index, valid, same⟩ := node
            exact ⟨index, valid, List.mem_append_right _ (List.mem_singleton.mpr same)⟩
        | inr leaf =>
            obtain ⟨index, valid, slot, lower, same⟩ := leaf
            exact ⟨index, valid,
              List.mem_append_left _ (List.mem_map.mpr ⟨slot, lower, same.symm⟩)⟩

theorem hasRole_of_mem (isLive : state.Live root) {role : Role}
    (member : role ∈ tableRoles state.view root) :
    HasRole state (roleAddress state.view role) role ∧ role.table = root := by
  rcases mem_tableRoles.mp member with top | ⟨index, valid, node⟩ |
    ⟨index, valid, slot, lower, leaf⟩
  · rw [top]
    exact ⟨HasRole.root isLive, rfl⟩
  · obtain ⟨small, valid⟩ := mem_validEntries.mp valid
    rw [node]
    exact ⟨HasRole.node isLive small valid rfl, rfl⟩
  · obtain ⟨small, valid⟩ := mem_validEntries.mp valid
    obtain ⟨slotSmall, lower⟩ := mem_validEntries.mp lower
    have upperIndex : (index * 1024 + slot) / 1024 = index := by omega
    have lowerIndex : (index * 1024 + slot) % 1024 = slot := by omega
    rw [leaf, roleAddress, upperIndex, lowerIndex]
    exact ⟨HasRole.leaf isLive small slotSmall valid lower rfl, rfl⟩

theorem hasRole_iff (isLive : state.Live root) {frame : Nat} :
    (∃ role, HasRole state frame role ∧ role.table = root) ↔
      frame ∈ tableAddresses state.view root := by
  rw [tableAddresses, List.mem_map]
  constructor
  · intro shown
    obtain ⟨role, has, mine⟩ := shown
    cases has with
    | root _ =>
        change frame = root at mine
        exact ⟨.root root, mem_tableRoles.mpr (Or.inl rfl), mine.symm⟩
    | @node table index _ small valid target =>
        change table = root at mine
        rw [mine] at valid target
        exact ⟨.node root index, mem_tableRoles.mpr (Or.inr (Or.inl
          ⟨index, mem_validEntries.mpr ⟨small, valid⟩, rfl⟩)), target⟩
    | @leaf table index slot _ small slotSmall valid lower target =>
        change table = root at mine
        rw [mine] at valid lower target
        refine ⟨.leaf root (index * 1024 + slot), mem_tableRoles.mpr (Or.inr (Or.inr
          ⟨index, mem_validEntries.mpr ⟨small, valid⟩, slot,
            mem_validEntries.mpr ⟨slotSmall, lower⟩, rfl⟩)), ?_⟩
        have upperIndex : (index * 1024 + slot) / 1024 = index := by omega
        have lowerIndex : (index * 1024 + slot) % 1024 = slot := by omega
        rw [roleAddress, upperIndex, lowerIndex]
        exact target
  · intro listed
    obtain ⟨role, member, same⟩ := listed
    obtain ⟨has, mine⟩ := hasRole_of_mem isLive member
    rw [same] at has
    exact ⟨role, has, mine⟩

theorem validEntries_nodup (memory : Memory) (node : Nat) : (validEntries memory node).Nodup :=
  List.nodup_range.filter _

theorem tableRoles_nodup (memory : Memory) (root : Nat) : (tableRoles memory root).Nodup := by
  rw [tableRoles, List.nodup_append, List.nodup_flatMap]
  refine ⟨⟨?_, ?_⟩, List.nodup_singleton _, ?_⟩
  · intro index _
    rw [List.nodup_append]
    refine ⟨?_, List.nodup_singleton _, ?_⟩
    · apply (validEntries_nodup memory _).map
      intro first second same
      have pages := congrArg (fun role => match role with | .leaf _ page => page | _ => 0) same
      change index * 1024 + first = index * 1024 + second at pages
      omega
    · intro leaf inLeaves node inNodes same
      obtain ⟨slot, _, isLeaf⟩ := List.mem_map.mp inLeaves
      rw [← isLeaf, List.mem_singleton.mp inNodes] at same
      cases same
  · apply (validEntries_nodup memory root).imp
    intro first second different role inFirst inSecond
    rw [List.mem_append, List.mem_map, List.mem_singleton] at inFirst inSecond
    rcases inFirst with ⟨slot, lower, leaf⟩ | node
    · rcases inSecond with ⟨otherSlot, otherLower, otherLeaf⟩ | otherNode
      · have pages := congrArg (fun role => match role with | .leaf _ page => page | _ => 0)
          (leaf.trans otherLeaf.symm)
        change first * 1024 + slot = second * 1024 + otherSlot at pages
        have small := (mem_validEntries.mp lower).1
        have otherSmall := (mem_validEntries.mp otherLower).1
        omega
      · rw [← leaf] at otherNode
        cases otherNode
    · rcases inSecond with ⟨otherSlot, _, otherLeaf⟩ | otherNode
      · rw [node] at otherLeaf
        cases otherLeaf
      · rw [node] at otherNode
        injection otherNode with _ same
        exact different same
  · intro inner inInner top inTop same
    obtain ⟨index, _, member⟩ := List.mem_flatMap.mp inInner
    rw [List.mem_append, List.mem_map, List.mem_singleton] at member
    rw [same, List.mem_singleton.mp inTop] at member
    rcases member with ⟨_, _, impossible⟩ | impossible
    · cases impossible
    · cases impossible

theorem count_map_once {Item : Type} {items : List Item} {address : Item → Nat} {addr : Nat}
    (distinct : items.Nodup)
    (once : ∀ first ∈ items, ∀ second ∈ items, address first = addr → address second = addr →
      first = second)
    (member : addr ∈ items.map address) : (items.map address).count addr = 1 := by
  induction items with
  | nil => cases member
  | cons item rest ih =>
      obtain ⟨fresh, restDistinct⟩ := List.nodup_cons.mp distinct
      rw [List.map_cons] at member ⊢
      by_cases here : address item = addr
      · have away : addr ∉ rest.map address := by
          intro later
          obtain ⟨other, inRest, same⟩ := List.mem_map.mp later
          rw [once item List.mem_cons_self other (List.mem_cons_of_mem _ inRest) here same] at fresh
          exact fresh inRest
        rw [here, List.count_cons_self, List.count_eq_zero.mpr away]
      · rw [List.count_cons_of_ne here]
        apply ih restDistinct
        · intro first firstIn second secondIn
          exact once first (List.mem_cons_of_mem _ firstIn) second
            (List.mem_cons_of_mem _ secondIn)
        · exact (List.mem_cons.mp member).resolve_left fun same => here same.symm

end Calls

structure TableReleased (state : AddressSpaceManager) (root : Nat) (released : Finset Nat)
    (next : AddressSpaceManager) : Prop where
  owned : ∀ frame, frame ∈ released ↔ frame ∈ state.frames ∧
    state.hole_list_.addrInHole frame = false ∧ ∃ role, HasRole state frame role ∧ role.table = root
  frames : next.frames = state.frames \ released
  calls : ∃ calls, Trace ReleaseStep state.page_allocator_ calls next.page_allocator_ ∧
    calls.map Prod.fst = (tableAddresses state.view root).filter
      (fun addr => !state.hole_list_.addrInHole addr) ∧
    (∀ frame ∈ released, (calls.map Prod.fst).count frame = 1 ∧ (frame, true) ∈ calls) ∧
    ∀ frame, (frame, true) ∈ calls → frame ∈ released
  others : ∀ frame role, HasRole state frame role → role.table ≠ root → frame ∉ released
  allocated : next.page_allocator_.allocated_ + 4096 * released.card =
    state.page_allocator_.allocated_

section Tables

variable {platform : Platform} {holes : HoleList} {state : AddressSpaceManager} {root : Nat}

theorem freePageTable_released
    (reached : Reached platform (MayMapItself platform holes) holes state)
    (isLive : state.Live root) :
    ∃ next released, freePageTable root state = .ok () next ∧
      TableReleased state root released next := by
  obtain ⟨owner, owned⟩ := reached.owned
  obtain ⟨next, last, ran, releasing, nextIs⟩ := freePageTable_releases owned isLive
  obtain ⟨calls, run, arguments⟩ := releasing.calls
  obtain ⟨lastPool, left, succeeded⟩ := release_calls run owned.pool
  have nextAllocator : next.page_allocator_ = last.page_allocator_ := by rw [nextIs]
  have only : ∀ frame role, frame ∈ state.frames → state.hole_list_.addrInHole frame = false →
      HasRole state frame role → owner frame = some role := by
    intro frame role used outside has
    rw [reached.holes] at outside
    exact owner_of_role owned (owned.pool.isFrame used) outside has
  have called : ∀ frame, frame ∈ calls.map Prod.fst ↔
      state.hole_list_.addrInHole frame = false ∧ ∃ role, HasRole state frame role ∧
        role.table = root := by
    intro frame
    rw [arguments, List.mem_filter, hasRole_iff isLive, Bool.not_eq_true', and_comm]
  have members : ∀ frame,
      frame ∈ state.frames.filter (fun frame => frame ∈ calls.map Prod.fst) ↔
        frame ∈ state.frames ∧ state.hole_list_.addrInHole frame = false ∧
          ∃ role, HasRole state frame role ∧ role.table = root := by
    intro frame
    rw [Finset.mem_filter, called]
  have remaining : next.frames =
      state.frames \ state.frames.filter (fun frame => frame ∈ calls.map Prod.fst) := by
    rw [AddressSpaceManager.frames, nextAllocator, left]
    ext frame
    rw [Finset.mem_sdiff, Finset.mem_sdiff, Finset.mem_filter, List.mem_toFinset, not_and]
    constructor
    · intro holds
      exact ⟨holds.1, fun _ => holds.2⟩
    · intro holds
      exact ⟨holds.1, holds.2 holds.1⟩
  refine ⟨next, state.frames.filter (fun frame => frame ∈ calls.map Prod.fst), ran, members,
    remaining, ⟨calls, by rw [nextAllocator]; exact run, arguments, ?_, ?_⟩, ?_, ?_⟩
  · intro frame inside
    obtain ⟨used, outside, _⟩ := (members frame).mp inside
    have inCalls := (Finset.mem_filter.mp inside).2
    refine ⟨?_, (succeeded frame).mpr ⟨used, inCalls⟩⟩
    rw [arguments] at inCalls ⊢
    rw [List.count_filter (by rw [outside]; rfl), tableAddresses]
    apply count_map_once (tableRoles_nodup state.view root)
    · intro first firstIn second secondIn firstIs secondIs
      have has := (hasRole_of_mem isLive firstIn).1
      have hasSecond := (hasRole_of_mem isLive secondIn).1
      rw [firstIs] at has
      rw [secondIs] at hasSecond
      have same := only frame first used outside has
      rw [only frame second used outside hasSecond] at same
      exact (Option.some.inj same).symm
    · rw [← tableAddresses]
      exact (List.mem_filter.mp inCalls).1
  · intro frame success
    exact Finset.mem_filter.mpr ((succeeded frame).mp success)
  · intro frame role has other inside
    obtain ⟨used, outside, mine, hasMine, isMine⟩ := (members frame).mp inside
    have same := only frame role used outside has
    rw [only frame mine used outside hasMine] at same
    rw [← Option.some.inj same, isMine] at other
    exact other rfl
  · have before := owned.pool.allocated
    have after := lastPool.allocated
    have size := Finset.card_sdiff_add_card_eq_card
      (Finset.filter_subset (fun frame => frame ∈ calls.map Prod.fst) state.frames)
    rw [← remaining] at size
    rw [nextAllocator, after, before, ← Nat.mul_add]
    rw [AddressSpaceManager.frames, nextAllocator] at size
    rw [size]
    rfl

end Tables

/-- After any run, freeing a live table gives back exactly what the table owns: every frame
in use outside the holes that one of its entries shows, each by one call that succeeds. -/
theorem free_releases_owned {platform : Platform} (valid : platform.Valid) (localMemSize : Nat)
    {operations : List Operation} {state : AddressSpaceManager}
    (run : Trace (Step platform) (new platform localMemSize) operations state) {root : Nat}
    (isLive : state.Live root) :
    ∃ next released, freePageTable root state = .ok () next ∧
      TableReleased state root released next := by
  rw [new_withHoles] at run
  exact freePageTable_released (run_reached valid run) isLive

theorem free_releases_owned_small : ∃ state : AddressSpaceManager,
    Trace (Step smallPlatform) (new smallPlatform 0)
        [.allocatePageTable, .allocateOneVmPage 0x5000 0x1000 PteFlags.R] state ∧
      ∃ next released, freePageTable 0x1000 state = .ok () next ∧
        TableReleased state 0x1000 released next := by
  obtain ⟨state, run, isLive⟩ := smallPlatform_run
  exact ⟨state, run, free_releases_owned smallPlatform_valid 0 run isLive⟩

end AddressSpaceManager

end Espiral
