import Mathlib.Algebra.Order.BigOperators.Group.List
import Espiral.Mm.CallsInProgress

/-!
# Calls that free a table

A table that is being freed belongs to its call: its frames have no role any more
and are in hand until they are released. The call goes through them page by page,
without any lock between two releases, and relies on their entries all the while.
-/

namespace Espiral.AddressSpaceManager

set_option autoImplicit false

open ByteMemory Contracts MachineWords VortexMemoryAllocator

section Traversal

variable {memory after : Memory}

theorem visits_subset_releases {level pa frame : Nat} (visited : frame ∈ visits memory level pa) :
    frame ∈ releases memory level pa := by
  induction level generalizing pa with
  | zero => cases visited
  | succ level ih =>
      rw [visits, List.mem_cons, List.mem_flatMap] at visited
      rw [releases, List.mem_append, List.mem_singleton, List.mem_flatMap]
      rcases visited with here | ⟨index, valid, below⟩
      · exact Or.inr here
      · refine Or.inl ⟨index, valid, ?_⟩
        cases leaf : pteIsLeaf (entryAt memory pa index) with
        | true =>
            rw [leaf] at below
            cases below
        | false =>
            rw [leaf] at below
            exact ih below

/-- The recursion depends on the entries of the nodes that it reads, and on nothing else. -/
theorem traversal_congr {level pa : Nat} (same : ∀ frame ∈ visits memory level pa,
      ∀ index < 1024, entryAt after frame index = entryAt memory frame index) :
    visits after level pa = visits memory level pa ∧
      releases after level pa = releases memory level pa := by
  induction level generalizing pa with
  | zero => exact ⟨rfl, rfl⟩
  | succ level ih =>
      have here := same pa List.mem_cons_self
      have valid : validEntries after pa = validEntries memory pa := by
        rw [validEntries, validEntries]
        apply List.filter_congr
        intro index member
        rw [here index (List.mem_range.mp member)]
      have below : ∀ index ∈ validEntries memory pa,
          pteIsLeaf (entryAt memory pa index) = false →
            visits after level (ptePa (entryAt memory pa index)) =
                visits memory level (ptePa (entryAt memory pa index)) ∧
              releases after level (ptePa (entryAt memory pa index)) =
                releases memory level (ptePa (entryAt memory pa index)) := by
        intro index member inner
        apply ih
        intro frame visited
        apply same
        rw [visits, List.mem_cons, List.mem_flatMap]
        refine Or.inr ⟨index, member, ?_⟩
        rw [inner]
        exact visited
      rw [visits, visits, releases, releases, valid]
      constructor
      · apply congrArg (List.cons pa)
        apply List.flatMap_congr
        intro index member
        rw [here index (mem_validEntries.mp member).1]
        cases leaf : pteIsLeaf (entryAt memory pa index) with
        | true => rfl
        | false => exact (below index member leaf).1
      · apply congrArg (· ++ [pa])
        apply List.flatMap_congr
        intro index member
        rw [here index (mem_validEntries.mp member).1]
        cases leaf : pteIsLeaf (entryAt memory pa index) with
        | true => rfl
        | false => exact (below index member leaf).2

theorem Pending.traversal_congr {pending : Pending} (same : ∀ frame ∈ pending.visits memory,
      ∀ index < 1024, entryAt after frame index = entryAt memory frame index) :
    pending.visits after = pending.visits memory ∧
      pending.releases after = pending.releases memory := by
  cases pending with
  | node level pa => exact AddressSpaceManager.traversal_congr same
  | page addr => exact ⟨rfl, rfl⟩

theorem entriesPending_load (level node : Nat) :
    entriesPending level (load memory node 4096) entryIndices =
      (validEntries memory node).map fun index => entryPending level (entryAt memory node index) := by
  rw [entriesPending, validEntries, ← List.filterMap_eq_map, List.filterMap_filter]
  apply List.filterMap_congr
  intro index member
  rw [pteIn_load memory node (List.mem_range.mp member)]
  rfl

/-- The entries of a node stand for what the recursion does below it. -/
theorem node_unfolds (level pa : Nat) :
    (Pending.node (level + 1) pa).visits memory = pa ::
        (entriesPending level (load memory pa 4096) entryIndices ++ [Pending.page pa]).flatMap
          (Pending.visits memory) ∧
      (Pending.node (level + 1) pa).releases memory =
        (entriesPending level (load memory pa 4096) entryIndices ++ [Pending.page pa]).flatMap
          (Pending.releases memory) := by
  rw [entriesPending_load, List.flatMap_append, List.flatMap_append, List.flatMap_map,
    List.flatMap_map, List.flatMap_singleton, List.flatMap_singleton, Pending.visits,
    Pending.visits, Pending.releases, Pending.releases, List.append_nil, visits, releases]
  constructor
  · apply congrArg (List.cons pa)
    apply List.flatMap_congr
    intro index _
    rw [entryPending]
    cases pteIsLeaf (entryAt memory pa index) with
    | true => rfl
    | false => rfl
  · apply congrArg (· ++ [pa])
    apply List.flatMap_congr
    intro index _
    rw [entryPending]
    cases pteIsLeaf (entryAt memory pa index) with
    | true => rfl
    | false => rfl

theorem nodeWeight_pos (level : Nat) : 1 ≤ nodeWeight level := by
  cases level with
  | zero => exact Nat.le_refl 1
  | succ level =>
      rw [nodeWeight]
      omega

theorem entries_lighter (level pa : Nat) :
    ((entriesPending level (load memory pa 4096) entryIndices ++ [Pending.page pa]).map
      Pending.weight).sum < nodeWeight (level + 1) := by
  have bounded : ∀ weight ∈ (entriesPending level (load memory pa 4096) entryIndices).map
      Pending.weight, weight ≤ nodeWeight level := by
    intro weight member
    rw [entriesPending_load, List.map_map, List.mem_map] at member
    obtain ⟨index, _, same⟩ := member
    rw [← same, Function.comp_apply, entryPending]
    cases pteIsLeaf (entryAt memory pa index) with
    | true => exact nodeWeight_pos level
    | false => exact Nat.le_refl _
  have total := List.sum_le_card_nsmul _ _ bounded
  have count : (entriesPending level (load memory pa 4096) entryIndices).length ≤ 1024 := by
    rw [entriesPending_load, List.length_map, validEntries]
    exact (List.length_filter_le _ _).trans (Nat.le_of_eq List.length_range)
  rw [List.length_map, Nat.nsmul_eq_mul] at total
  have most := Nat.mul_le_mul_right (nodeWeight level) count
  rw [List.map_append, List.sum_append, nodeWeight]
  simp only [List.map_cons, List.map_nil, List.sum_cons, List.sum_nil, Pending.weight]
  omega

end Traversal

section Steps

variable {platform : Platform} {holes : HoleList} {owner : Nat → Option Role}
  {held : Finset Nat} {state next : AddressSpaceManager}

theorem ReleaseClaim.kept {pending : List Pending}
    (claim : ReleaseClaim platform holes state held pending)
    (same : ∀ frame ∈ held, ∀ index < 1024,
      entryAt next.view frame index = entryAt state.view frame index) :
    ReleaseClaim platform holes next held pending := by
  have each : ∀ one ∈ pending, one.visits next.view = one.visits state.view ∧
      one.releases next.view = one.releases state.view := by
    intro one member
    apply Pending.traversal_congr
    intro frame visited
    exact same frame (claim.nodes frame (List.mem_flatMap.mpr ⟨one, member, visited⟩))
  have visited : pending.flatMap (Pending.visits next.view) =
      pending.flatMap (Pending.visits state.view) :=
    List.flatMap_congr fun one member => (each one member).1
  have released : pending.flatMap (Pending.releases next.view) =
      pending.flatMap (Pending.releases state.view) :=
    List.flatMap_congr fun one member => (each one member).2
  refine ⟨?_, ?_, ?_⟩
  · rw [visited]
    exact claim.nodes
  · rw [released]
    exact claim.pages
  · rw [released]
    exact claim.once

theorem ReleaseClaim.unfold {pending opened : List Pending}
    (claim : ReleaseClaim platform holes state held pending)
    (visited : ∀ frame ∈ opened.flatMap (Pending.visits state.view),
      frame ∈ pending.flatMap (Pending.visits state.view))
    (released : opened.flatMap (Pending.releases state.view) =
      pending.flatMap (Pending.releases state.view)) :
    ReleaseClaim platform holes state held opened := by
  refine ⟨fun frame member => claim.nodes frame (visited frame member), ?_, ?_⟩
  · rw [released]
    exact claim.pages
  · rw [released]
    exact claim.once

theorem leads_freeing_node (progress : InProgress platform holes owner held state)
    {level pa : Nat} {rest : List Pending}
    (claim : ReleaseClaim platform holes state held (.node level pa :: rest)) :
    Leads platform holes owner held state (.freeing (.node level pa :: rest)) := by
  cases level with
  | zero =>
      refine ⟨.to (.freeing rest), state, owner, held, rfl,
        progress.looked (SameView.refl state) (Finset.Subset.refl held), fun _ => rfl, ?_, rfl, ?_,
        ?_⟩
      · exact claim.unfold (fun frame member => List.mem_append_right _ member) rfl
      · intro locked
        cases locked
      · simp only [Point.weight, List.map_cons, List.sum_cons, Pending.weight, nodeWeight]
        omega
  | succ level =>
      have mine : pa ∈ held := by
        apply claim.nodes
        rw [List.flatMap_cons, Pending.visits, visits]
        exact List.mem_append_left _ List.mem_cons_self
      obtain ⟨read, ran, same⟩ :=
        @readScratchpad_run state pa PAGE_SIZE (progress.owned.narrow (progress.mine pa mine).1)
      obtain ⟨nodes, pages⟩ := @node_unfolds state.view level pa
      have looked := progress.looked same (Finset.Subset.refl held)
      have opened : ReleaseClaim platform holes state held
          ((entriesPending level (load state.view pa 4096) entryIndices ++ [.page pa]) ++ rest) := by
        apply claim.unfold
        · intro frame member
          rw [List.flatMap_append] at member
          rw [List.flatMap_cons, nodes]
          exact List.mem_cons_of_mem _ member
        · rw [List.flatMap_append, List.flatMap_cons, pages]
      have now : ReleaseClaim platform holes read held
          ((entriesPending level (load state.view pa 4096) entryIndices ++ [.page pa]) ++ rest) := by
        apply opened.kept
        intro _ _ _ _
        rw [same.view]
      rw [List.append_assoc, List.singleton_append] at now
      refine ⟨.to (.freeing (entriesPending level (load state.view pa 4096) entryIndices ++
        .page pa :: rest)), read, owner, held, ?_, looked, fun _ => same.view, now,
        (rfl : (none : Option Nat) = none), ?_, ?_⟩
      · rw [advance, bind_ok ran]
        rfl
      · intro locked
        cases locked
      · have lighter := @entries_lighter state.view level pa
        rw [List.map_append, List.sum_append] at lighter
        simp only [Point.weight, List.map_append, List.sum_append, List.map_cons, List.sum_cons,
          List.map_nil, List.sum_nil, Pending.weight] at lighter ⊢
        omega

/-- A frame without a role may be given back. -/
theorem WellOwned.shrink {identity : Nat → Prop} (owned : WellOwned platform identity owner state)
    (pool : FramePool platform next.page_allocator_) (tables : SameTables state next)
    (kept : ∀ frame role, owner frame = some role → frame ∈ next.frames) :
    WellOwned platform identity owner next where
  pool := pool
  used frame role has := by
    rw [Live, tables.history]
    exact ⟨kept frame role has, (owned.used frame role has).2⟩
  roots := by
    simp only [Live, tables.history]
    exact owned.roots
  nodes := by
    simp only [Live, tables.history, tables.view]
    exact owned.nodes
  leaves := by
    simp only [Live, tables.history, tables.view]
    exact owned.leaves
  maps := by
    simp only [Live, tables.history, tables.view]
    exact owned.maps

theorem leads_freeing_page (progress : InProgress platform holes owner held state) {addr : Nat}
    {rest : List Pending}
    (claim : ReleaseClaim platform holes state held (.page addr :: rest)) :
    Leads platform holes owner held state (.freeing (.page addr :: rest)) := by
  obtain ⟨next, ran, pool, tables, frames⟩ := releaseOnePage_run progress.owned.pool addr
  rw [progress.holes] at frames
  have moves : advance (.freeing (.page addr :: rest)) state = .ok (.to (.freeing rest)) next := by
    rw [advance, bind_ok ran]
    rfl
  have lighter : Point.weight (.freeing rest) < Point.weight (.freeing (.page addr :: rest)) := by
    simp only [Point.weight, List.map_cons, List.sum_cons, Pending.weight]
    omega
  have unlocked : Point.locks (.freeing rest) = true →
      Point.touches (.freeing (.page addr :: rest)) = true := by
    intro locked
    cases locked
  cases inHole : holes.addrInHole addr with
  | true =>
      rw [inHole, if_pos rfl] at frames
      have keeps : Stepped platform holes owner held state owner held next := by
        apply progress.asked pool tables frames.symm.subset
        · intro frame member
          rw [frames]
          exact (progress.mine frame member).1
        · exact fun _ member => Or.inl member
      refine ⟨.to (.freeing rest), next, owner, held, moves, keeps, fun _ => tables.view, ?_, rfl,
        unlocked, lighter⟩
      have remaining : ReleaseClaim platform holes state held rest := by
        refine ⟨claim.nodes, fun other member => claim.pages other (List.mem_append_right _ member),
          ?_⟩
        have once := claim.once
        rw [List.flatMap_cons, List.filter_append] at once
        exact once.of_append_right
      apply remaining.kept
      intro _ _ _ _
      rw [tables.view]
  | false =>
      rw [inHole, if_neg (by simp)] at frames
      have once := claim.once
      rw [List.flatMap_cons, List.filter_append, Pending.releases, List.filter_singleton, inHole,
        Bool.not_false, cond_true, List.singleton_append, List.nodup_cons, List.mem_filter] at once
      have later : addr ∉ rest.flatMap (Pending.releases state.view) := by
        intro member
        exact once.1 ⟨member, by rw [inHole]; rfl⟩
      have mine := claim.pages addr List.mem_cons_self inHole
      have unowned : owner addr = none := by
        rcases mine with inHand | notFrame
        · exact (progress.mine addr inHand).2
        · apply progress.owned.unowned
          exact fun used => notFrame (progress.owned.pool.isFrame used)
      have stepped : Stepped platform holes owner held state owner (held.erase addr) next := by
        refine ⟨⟨?_, tables.holes.trans progress.holes, ?_, ?_, ?_, ?_⟩, ?_⟩
        · apply progress.owned.shrink pool tables
          intro frame role has
          rw [frames, Finset.mem_erase]
          refine ⟨?_, (progress.owned.used frame role has).1⟩
          intro same
          rw [same, unowned] at has
          cases has
        · rw [tables.history]
          exact progress.consistent
        · intro frame member
          obtain ⟨different, inHand⟩ := Finset.mem_erase.mp member
          obtain ⟨used, free⟩ := progress.mine frame inHand
          rw [frames]
          exact ⟨Finset.mem_erase.mpr ⟨different, used⟩, free⟩
        · intro frame member
          exact Or.inl (Finset.mem_erase.mp member).2
        · intro frame used free outside
          rw [tables.view, frames]
          refine ⟨Finset.mem_erase.mpr ⟨?_, used⟩, free, fun _ _ => rfl⟩
          intro same
          rw [same] at outside used
          rcases mine with inHand | notFrame
          · exact outside inHand
          · exact notFrame (progress.owned.pool.isFrame used)
        · intro root isLive
          rw [Live, tables.history]
          exact isLive
      refine ⟨.to (.freeing rest), next, owner, held.erase addr, moves, stepped,
        fun _ => tables.view, ?_, rfl, unlocked, lighter⟩
      have remaining : ReleaseClaim platform holes state (held.erase addr) rest := by
        refine ⟨?_, ?_, once.2⟩
        · intro frame member
          refine Finset.mem_erase.mpr ⟨?_, claim.nodes frame member⟩
          intro same
          obtain ⟨one, inRest, visited⟩ := List.mem_flatMap.mp member
          apply later
          rw [← same]
          refine List.mem_flatMap.mpr ⟨one, inRest, ?_⟩
          cases one with
          | node level pa => exact visits_subset_releases visited
          | page other => cases visited
        · intro other member outside
          have different : other ≠ addr := by
            intro same
            rw [same] at member
            exact later member
          rcases claim.pages other (List.mem_append_right _ member) outside with inHand | notFrame
          · exact Or.inl (Finset.mem_erase.mpr ⟨different, inHand⟩)
          · exact Or.inr notFrame
      apply remaining.kept
      intro _ _ _ _
      rw [tables.view]

theorem leads_freeing (progress : InProgress platform holes owner held state)
    {pending : List Pending} (claim : ReleaseClaim platform holes state held pending) :
    Leads platform holes owner held state (.freeing pending) := by
  cases pending with
  | nil =>
      have ended : advance (.freeing []) state = .ok (.ended (.ok none)) state := rfl
      exact progress.ends (SameView.refl state) ended
  | cons first rest =>
      cases first with
      | node level pa => exact leads_freeing_node progress claim
      | page addr => exact leads_freeing_page progress claim

end Steps

section Begin

variable {platform : Platform} {holes : HoleList} {owner : Nat → Option Role}
  {held : Finset Nat} {state : AddressSpaceManager} {root : Nat}

theorem WellOwned.below_node {identity : Nat → Prop} (owned : WellOwned platform identity owner state)
    (isLive : state.Live root) {index : Nat} (valid : index ∈ validEntries state.view root) :
    visits state.view 1 (ptePa (entryAt state.view root index)) =
        [ptePa (entryAt state.view root index)] ∧
      releases state.view 1 (ptePa (entryAt state.view root index)) =
        ((validEntries state.view (ptePa (entryAt state.view root index))).map
          fun slot => ptePa (entryAt state.view (ptePa (entryAt state.view root index)) slot)) ++
        [ptePa (entryAt state.view root index)] := by
  obtain ⟨small, upper⟩ := mem_validEntries.mp valid
  have leaf : ∀ slot ∈ validEntries state.view (ptePa (entryAt state.view root index)),
      pteIsLeaf (entryAt state.view (ptePa (entryAt state.view root index)) slot) = true := by
    intro slot member
    obtain ⟨slotSmall, lower⟩ := mem_validEntries.mp member
    exact pteIsLeaf_of_readable (owned.leaves root index slot isLive small slotSmall upper lower).1
  rw [visits, releases]
  constructor
  · apply congrArg (List.cons _)
    apply List.flatMap_eq_nil_iff.mpr
    intro slot member
    rw [leaf slot member]
    rfl
  · apply congrArg (· ++ [ptePa (entryAt state.view root index)])
    rw [List.map_eq_flatMap]
    apply List.flatMap_congr
    intro slot member
    rw [leaf slot member]
    rfl

theorem WellOwned.table_traversal {identity : Nat → Prop}
    (owned : WellOwned platform identity owner state) (isLive : state.Live root) :
    visits state.view PT_LEVELS root = root ::
        (validEntries state.view root).map (fun index => ptePa (entryAt state.view root index)) ∧
      releases state.view PT_LEVELS root = tableAddresses state.view root := by
  rw [PT_LEVELS, visits, releases, tableAddresses_eq]
  have inner : ∀ index ∈ validEntries state.view root,
      pteIsLeaf (entryAt state.view root index) = false := by
    intro index member
    obtain ⟨small, upper⟩ := mem_validEntries.mp member
    exact (owned.nodes root index isLive small upper).1
  constructor
  · apply congrArg (List.cons root)
    rw [List.map_eq_flatMap]
    apply List.flatMap_congr
    intro index member
    rw [inner index member]
    exact (owned.below_node isLive member).1
  · apply congrArg (· ++ [root])
    apply List.flatMap_congr
    intro index member
    rw [inner index member]
    exact (owned.below_node isLive member).2

theorem WellOwned.role_or_page {identity : Nat → Prop}
    (owned : WellOwned platform identity owner state) (isLive : state.Live root) {role : Role}
    (member : role ∈ tableRoles state.view root) :
    owner (roleAddress state.view role) = some role ∨ ∃ page, role = .leaf root page ∧
      identity (roleAddress state.view role) ∧ roleAddress state.view role = page * 4096 := by
  rcases mem_tableRoles.mp member with top | ⟨index, valid, node⟩ |
    ⟨index, valid, slot, lower, leaf⟩
  · rw [top]
    exact Or.inl (owned.roots root isLive)
  · obtain ⟨small, upper⟩ := mem_validEntries.mp valid
    rw [node]
    exact Or.inl (owned.nodes root index isLive small upper).2
  · obtain ⟨small, upper⟩ := mem_validEntries.mp valid
    obtain ⟨slotSmall, valid⟩ := mem_validEntries.mp lower
    have upperIndex : (index * 1024 + slot) / 1024 = index := by omega
    have lowerIndex : (index * 1024 + slot) % 1024 = slot := by omega
    rw [leaf, roleAddress, upperIndex, lowerIndex]
    rcases (owned.leaves root index slot isLive small slotSmall upper valid).2 with mine | itself
    · exact Or.inl mine
    · exact Or.inr ⟨_, rfl, itself⟩

theorem WellOwned.addresses_once (owned : WellOwned platform (MayMapItself platform holes) owner state)
    (isLive : state.Live root) : ((tableAddresses state.view root).filter
      fun addr => !holes.addrInHole addr).Nodup := by
  rw [tableAddresses, List.filter_map]
  apply List.Nodup.map_on _ ((tableRoles_nodup state.view root).filter _)
  intro first firstMember second secondMember same
  obtain ⟨firstMember, outside⟩ := List.mem_filter.mp firstMember
  have secondMember := (List.mem_filter.mp secondMember).1
  have notFrame : ∀ addr, addr = roleAddress state.view first → MayMapItself platform holes addr →
      owner addr = none := by
    intro addr here itself
    apply owned.unowned
    intro used
    rcases itself with inHole | notFrame
    · rw [here] at inHole
      rw [Function.comp_apply, inHole] at outside
      cases outside
    · exact notFrame (owned.pool.isFrame used)
  rcases owned.role_or_page isLive firstMember with firstOwns | ⟨page, firstIs, itself, atPage⟩
  · rcases owned.role_or_page isLive secondMember with secondOwns | ⟨_, _, itself, _⟩
    · rw [← same, firstOwns, Option.some.injEq] at secondOwns
      exact secondOwns
    · rw [← same] at itself
      rw [notFrame _ rfl itself] at firstOwns
      cases firstOwns
  · rcases owned.role_or_page isLive secondMember with secondOwns | ⟨other, secondIs, _, atOther⟩
    · rw [← same, notFrame _ rfl itself] at secondOwns
      cases secondOwns
    · rw [firstIs, secondIs]
      rw [same, atOther] at atPage
      have pages : other = page := by omega
      rw [pages]

def tableFrames (owner : Nat → Option Role) (state : AddressSpaceManager) (root : Nat) : Finset Nat :=
  state.frames.filter fun frame => (owner frame).any fun role => role.table == root

theorem WellOwned.mem_tableFrames {identity : Nat → Prop}
    (owned : WellOwned platform identity owner state) {frame : Nat} :
    frame ∈ tableFrames owner state root ↔ ∃ role, owner frame = some role ∧ role.table = root := by
  rw [tableFrames, Finset.mem_filter, Option.any_eq_true]
  constructor
  · rintro ⟨_, role, has, same⟩
    exact ⟨role, has, beq_iff_eq.mp same⟩
  · rintro ⟨role, has, same⟩
    exact ⟨(owned.used frame role has).1, role, has, beq_iff_eq.mpr same⟩

/-- When a table is given up, its frames pass into the hands of the call. -/
theorem InProgress.begins (progress : InProgress platform holes owner held state)
    (isLive : state.Live root) {next : AddressSpaceManager}
    (freed : next = { state with history := .freed root :: state.history }) :
    Handed platform holes owner held state (without root owner) (tableFrames owner state root) next ∧
      ReleaseClaim platform holes next (tableFrames owner state root) [.node PT_LEVELS root] := by
  have owned := progress.owned
  have gone : ∀ frame ∈ tableFrames owner state root, without root owner frame = none := by
    intro frame member
    obtain ⟨role, has, same⟩ := owned.mem_tableFrames.mp member
    cases still : without root owner frame with
    | none => rfl
    | some other =>
        obtain ⟨hasOther, different⟩ := without_some.mp still
        rw [has, Option.some.injEq] at hasOther
        rw [← hasOther] at different
        exact absurd same different
  rw [freed]
  constructor
  · refine ⟨?_, progress.holes, progress.consistent, ?_, ?_, ?_⟩
    · exact owned.remove_table owned.pool
        (fun frame role has => (owned.used frame role (without_some.mp has).1).1) rfl rfl
    · intro frame member
      exact ⟨(Finset.mem_filter.mp member).1, gone frame member⟩
    · intro frame member
      obtain ⟨role, has, _⟩ := owned.mem_tableFrames.mp member
      right
      intro both
      rw [has] at both
      cases both.2
    · intro frame used free _
      refine ⟨used, ?_, fun _ _ => rfl⟩
      rw [without, free]
      rfl
  · obtain ⟨nodes, pages⟩ := owned.table_traversal isLive
    refine ⟨?_, ?_, ?_⟩
    · intro frame member
      rw [List.flatMap_singleton, Pending.visits] at member
      change frame ∈ visits state.view PT_LEVELS root at member
      rw [nodes, List.mem_cons, List.mem_map] at member
      apply owned.mem_tableFrames.mpr
      rcases member with top | ⟨index, valid, same⟩
      · rw [top]
        exact ⟨_, owned.roots root isLive, rfl⟩
      · obtain ⟨small, upper⟩ := mem_validEntries.mp valid
        rw [← same]
        exact ⟨_, (owned.nodes root index isLive small upper).2, rfl⟩
    · intro addr member outside
      rw [List.flatMap_singleton, Pending.releases] at member
      change addr ∈ releases state.view PT_LEVELS root at member
      rw [pages, tableAddresses, List.mem_map] at member
      obtain ⟨role, member, same⟩ := member
      rcases owned.role_or_page isLive member with mine | ⟨_, _, itself, _⟩
      · left
        rw [same] at mine
        exact owned.mem_tableFrames.mpr ⟨role, mine, (hasRole_of_mem isLive member).2⟩
      · right
        rw [same] at itself
        rcases itself with inHole | notFrame
        · rw [outside] at inHole
          cases inHole
        · exact notFrame
    · rw [List.flatMap_singleton, Pending.releases]
      change ((releases state.view PT_LEVELS root).filter _).Nodup
      rw [pages]
      exact owned.addresses_once isLive

end Begin

end Espiral.AddressSpaceManager
