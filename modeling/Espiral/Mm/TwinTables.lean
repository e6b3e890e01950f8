import Espiral.Mm.AddressSpaceRuns
import Espiral.Mm.Translation

/-!
# Tables that may hold unreadable pages

The flags of a mapping are not checked. What a table holds that was mapped
without the readable flag does not matter to the other tables: next to the
manager a twin is kept that maps the same pages readably, and only the entries
of such tables differ between the two.
-/

namespace Espiral.AddressSpaceManager

set_option autoImplicit false

open ByteMemory Contracts MachineWords Traces VortexMemoryAllocator

/-- All mappings of the table that succeeded have the readable flag. -/
def AllReadable (history : List MappingEvent) (root : Nat) : Prop :=
  ∀ va pa flags, Succeeded history root va pa flags → flags &&& PteFlags.R ≠ 0

/-- Entries of one place: the same, or in a table with unreadable pages and alike up to flags. -/
def SameEntry (history : List MappingEvent) (table entry other : Nat) : Prop :=
  other = entry ∨ ¬AllReadable history table ∧ pteValid other = pteValid entry ∧
    ptePa other = ptePa entry

/-- A well-owned manager with the same allocator, holes, live tables and roots, whose nodes
have the same entries up to flags. -/
structure Twin (platform : Platform) (identity : Nat → Prop) (owner : Nat → Option Role)
    (state twin : AddressSpaceManager) : Prop where
  owned : WellOwned platform identity owner twin
  allocator : twin.page_allocator_ = state.page_allocator_
  holes : twin.hole_list_ = state.hole_list_
  live : ∀ root, twin.Live root ↔ state.Live root
  roots : ∀ root, state.Live root → ∀ index < 1024,
    entryAt twin.view root index = entryAt state.view root index
  nodes : ∀ node table position, owner node = some (.node table position) → ∀ slot < 1024,
    SameEntry state.history table (entryAt state.view node slot) (entryAt twin.view node slot)

section Entries

variable {history later : List MappingEvent} {table entry other flags : Nat}

theorem SameEntry.valid (same : SameEntry history table entry other) :
    pteValid other = pteValid entry := by
  cases same with
  | inl equal => rw [equal]
  | inr alike => exact alike.2.1

theorem SameEntry.target (same : SameEntry history table entry other) :
    ptePa other = ptePa entry := by
  cases same with
  | inl equal => rw [equal]
  | inr alike => exact alike.2.2

theorem SameEntry.eq_of_allReadable (same : SameEntry history table entry other)
    (readable : AllReadable history table) : other = entry := by
  cases same with
  | inl equal => exact equal
  | inr alike => exact absurd readable alike.1

/-- A table that has an unreadable page keeps it until the table is created or freed. -/
theorem allReadable_of_cons {event : MappingEvent} (notCreated : event ≠ .created table)
    (notFreed : event ≠ .freed table) (readable : AllReadable (event :: history) table) :
    AllReadable history table :=
  fun va pa flags success =>
    readable va pa flags (succeeded_cons.mpr (Or.inr ⟨notCreated, notFreed, success⟩))

theorem allReadable_created (history : List MappingEvent) (root : Nat) :
    AllReadable (.created root :: history) root := by
  intro va pa flags success
  cases succeeded_cons.mp success with
  | inl impossible => cases impossible
  | inr earlier => exact absurd rfl earlier.1

theorem allReadable_mapped {root va pa : Nat} (readable : AllReadable history table)
    (flag : flags &&& PteFlags.R ≠ 0) :
    AllReadable (.mapped root va pa flags :: history) table := by
  intro otherVa otherPa otherFlags success
  cases succeeded_cons.mp success with
  | inl same =>
      cases same
      exact flag
  | inr earlier => exact readable otherVa otherPa otherFlags earlier.2.2

theorem SameEntry.mono (same : SameEntry history table entry other)
    (readable : AllReadable later table → AllReadable history table) :
    SameEntry later table entry other := by
  cases same with
  | inl equal => exact Or.inl equal
  | inr alike => exact Or.inr ⟨fun now => alike.1 (readable now), alike.2⟩

theorem or_readable (flags : Nat) : (flags ||| PteFlags.R) &&& PteFlags.R ≠ 0 := by
  intro none
  rw [Nat.and_or_distrib_right] at none
  exact absurd (Nat.or_eq_zero_iff.mp none).2 (by decide)

theorem or_readable_of_readable (readable : flags &&& PteFlags.R ≠ 0) :
    flags ||| PteFlags.R = flags := by
  have power : PteFlags.R = 2 ^ 1 := rfl
  have bit : flags.testBit 1 = true := by
    by_contra clear
    rw [power, Nat.and_two_pow, Bool.eq_false_of_not_eq_true clear] at readable
    exact readable rfl
  rw [power]
  apply Nat.eq_of_testBit_eq
  intro position
  rw [Nat.testBit_or, Nat.testBit_two_pow]
  by_cases here : 1 = position
  · rw [← here, bit, Bool.true_or]
  · rw [decide_eq_false here, Bool.or_false]

/-- The entry of a page that the table maps now, and the one of the twin. -/
theorem sameEntry_mapped {root va pa : Nat} (paBound : pa < 2 ^ 32) :
    SameEntry (.mapped root va pa flags :: history) root (makePte pa (leafFlags flags))
      (makePte pa (leafFlags (flags ||| PteFlags.R))) := by
  by_cases readable : flags &&& PteFlags.R = 0
  · refine Or.inr ⟨?_, ?_, ?_⟩
    · intro all
      exact all va pa flags (succeeded_cons.mpr (Or.inl rfl)) readable
    · rw [pteValid_leaf, pteValid_leaf]
    · rw [ptePa_makePte paBound, ptePa_makePte paBound]
  · rw [or_readable_of_readable readable]
    exact Or.inl rfl

end Entries

section Preservation

variable {platform : Platform} {identity : Nat → Prop} {owner later : Nat → Option Role}
  {state next twin : AddressSpaceManager} {root : Nat}

theorem Twin.frames (paired : Twin platform identity owner state twin) :
    twin.frames = state.frames := by
  rw [AddressSpaceManager.frames, AddressSpaceManager.frames, paired.allocator]

theorem Twin.pool (paired : Twin platform identity owner state twin) :
    FramePool platform state.page_allocator_ := by
  rw [← paired.allocator]
  exact paired.owned.pool

theorem Twin.used (paired : Twin platform identity owner state twin) {frame : Nat} {role : Role}
    (has : owner frame = some role) : frame ∈ state.frames ∧ state.Live role.table := by
  have before := paired.owned.used frame role has
  rw [paired.frames, paired.live] at before
  exact before

theorem Twin.used_update (paired : Twin platform identity owner state twin) {frame : Nat}
    (role : Role) (used : frame ∈ state.frames) (isLive : state.Live role.table) :
    ∀ other otherRole, Function.update owner frame (some role) other = some otherRole →
      other ∈ state.frames ∧ state.Live otherRole.table := by
  rw [← paired.frames] at used ⊢
  intro other otherRole has
  rw [← paired.live]
  exact paired.owned.used_update role used ((paired.live _).mpr isLive) other otherRole has

theorem Twin.root_owner (paired : Twin platform identity owner state twin)
    (isLive : state.Live root) : owner root = some (.root root) :=
  paired.owned.roots root ((paired.live root).mpr isLive)

theorem Twin.narrow (paired : Twin platform identity owner state twin) {frame : Nat}
    (used : frame ∈ state.frames) : frame + 4096 ≤ 2 ^ 32 :=
  paired.owned.narrow (by rw [paired.frames]; exact used)

theorem Twin.unowned (paired : Twin platform identity owner state twin) {frame : Nat}
    (unused : frame ∉ state.frames) : owner frame = none :=
  paired.owned.unowned (by rw [paired.frames]; exact unused)

theorem Twin.node (paired : Twin platform identity owner state twin) (isLive : state.Live root)
    {index : Nat} (small : index < 1024) (valid : pteValid (entryAt state.view root index) = true) :
    pteIsLeaf (entryAt state.view root index) = false ∧
      owner (ptePa (entryAt state.view root index)) = some (.node root index) := by
  have same := paired.roots root isLive index small
  rw [← same] at valid ⊢
  exact paired.owned.nodes root index ((paired.live root).mpr isLive) small valid

theorem Twin.shaped (paired : Twin platform identity owner state twin) (isLive : state.Live root)
    (readable : AllReadable state.history root) : Shaped state.view root where
  narrow := paired.narrow (paired.used (paired.root_owner isLive)).1
  upper index small valid := (paired.node isLive small valid).1
  lower index small slot slotSmall upper lower := by
    have node := (paired.node isLive small upper).2
    have same := (paired.nodes _ root index node slot slotSmall).eq_of_allReadable readable
    have twinLive := (paired.live root).mpr isLive
    have leaf := (paired.owned.shaped twinLive).lower index small slot slotSmall
    rw [paired.roots root isLive index small, same] at leaf
    exact leaf upper lower

theorem Twin.read (paired : Twin platform identity owner state twin) (same : SameView state next) :
    Twin platform identity owner next twin where
  owned := paired.owned
  allocator := paired.allocator.trans same.allocator.symm
  holes := paired.holes.trans same.holes.symm
  live table := by
    rw [paired.live, Live, Live, same.history]
  roots table isLive := by
    rw [Live, same.history] at isLive
    rw [same.view]
    exact paired.roots table isLive
  nodes := by
    rw [same.history, same.view]
    exact paired.nodes

/-- The twin asks its allocator for the same frames. -/
theorem Twin.grow (paired : Twin platform identity owner state twin)
    (pool : FramePool platform next.page_allocator_) (same : SameTables state next)
    (frames : state.frames ⊆ next.frames) :
    Twin platform identity owner next { twin with page_allocator_ := next.page_allocator_ } where
  owned := by
    refine paired.owned.grow ?_ pool
    refine ⟨?_, rfl, rfl, rfl⟩
    rw [paired.frames]
    exact frames
  allocator := rfl
  holes := paired.holes.trans same.holes.symm
  live table := by
    rw [Live, Live, same.history]
    exact paired.live table
  roots table isLive := by
    rw [same.view]
    rw [Live, same.history] at isLive
    exact paired.roots table isLive
  nodes := by
    rw [same.history, same.view]
    exact paired.nodes

theorem Twin.add_node (paired : Twin platform identity owner state twin) {index node : Nat}
    (isLive : state.Live root) (small : index < 1024)
    (missing : pteValid (entryAt state.view root index) = false) (free : owner node = none)
    (used : node ∈ state.frames) (allocator : next.page_allocator_ = state.page_allocator_)
    (holes : next.hole_list_ = state.hole_list_) (history : next.history = state.history)
    (written : next.view = store (store state.view node (List.replicate 4096 0))
      (root + index * 4) (littleEndian 4 (makePte node PteFlags.V))) :
    ∃ nextTwin, Twin platform identity (Function.update owner node (some (.node root index))) next
      nextTwin := by
  have twinLive := (paired.live root).mpr isLive
  have rootHas := paired.root_owner isLive
  have nodeNarrow := paired.narrow used
  have rootNarrow := paired.narrow (paired.used rootHas).1
  have nodeAligned : 4096 ∣ node := (paired.pool.isFrame used).1
  have pteBound : makePte node PteFlags.V < 2 ^ 32 := makePte_lt (by omega)
  let nextTwin : AddressSpaceManager :=
    { twin with
      scratchpad_ := (twin.scratchpad_.write node zeroNode).write (root + index * 4)
        (littleEndian 4 (makePte node PteFlags.V)) }
  have view : nextTwin.view = store (store twin.view node (List.replicate 4096 0))
      (root + index * 4) (littleEndian 4 (makePte node PteFlags.V)) := by
    rw [AddressSpaceManager.view, ScratchpadMemory.view_write
      (by rw [littleEndian_length]; omega), ScratchpadMemory.view_write
      (by rw [zeroNode, List.length_replicate]; exact nodeNarrow)]
    rfl
  have sameAllocator : nextTwin.page_allocator_ = twin.page_allocator_ := rfl
  have sameHistory : nextTwin.history = twin.history := rfl
  have rootAligned := paired.owned.aligned rootHas
  have entries : ∀ other slot, 4096 ∣ other → slot < 1024 →
      (entryAt next.view other slot =
        if other = root ∧ slot = index then makePte node PteFlags.V
        else if other = node then 0 else entryAt state.view other slot) ∧
      entryAt nextTwin.view other slot =
        if other = root ∧ slot = index then makePte node PteFlags.V
        else if other = node then 0 else entryAt twin.view other slot := by
    intro other slot aligned slotSmall
    rw [written, view]
    exact ⟨entryAt_link aligned nodeAligned rootAligned small pteBound slotSmall,
      entryAt_link aligned nodeAligned rootAligned small pteBound slotSmall⟩
  refine ⟨nextTwin, ?_, sameAllocator.trans (paired.allocator.trans allocator.symm),
    paired.holes.trans holes.symm, ?_, ?_, ?_⟩
  · apply paired.owned.add_node twinLive small ?_ free (by rw [paired.frames]; exact used)
      sameAllocator sameHistory view rfl
    rw [paired.roots root isLive index small]
    exact missing
  · intro table
    rw [Live, Live, history]
    exact paired.live table
  · intro table tableLive slot slotSmall
    rw [Live, history] at tableLive
    have both := entries table slot (paired.owned.aligned (paired.root_owner tableLive)) slotSmall
    rw [both.1, both.2, paired.roots table tableLive slot slotSmall]
  · intro other table position has slot slotSmall
    rw [history]
    by_cases here : other = node
    · have both := entries other slot (by rw [here]; exact nodeAligned) slotSmall
      rw [both.1, both.2, if_pos here, if_pos here]
      exact Or.inl rfl
    · rw [Function.update_of_ne here] at has
      have notRoot : other ≠ root := ne_of_roles has rootHas (by simp)
      have away : ¬(other = root ∧ slot = index) := fun place => notRoot place.1
      have both := entries other slot (paired.owned.aligned has) slotSmall
      rw [both.1, both.2, if_neg away, if_neg away, if_neg here, if_neg here]
      exact paired.nodes other table position has slot slotSmall

theorem Twin.add_leaf (paired : Twin platform identity owner state twin) {va pa node flags : Nat}
    (isLive : state.Live root) (vaBound : va < 2 ^ 32) (paBound : pa < 2 ^ 32)
    (upper : pteValid (entryAt state.view root (va / 4096 / 1024)) = true)
    (nodeIs : ptePa (entryAt state.view root (va / 4096 / 1024)) = node)
    (allocator : next.page_allocator_ = state.page_allocator_)
    (holes : next.hole_list_ = state.hole_list_)
    (history : next.history = .mapped root va pa flags :: state.history)
    (written : next.view = store state.view (node + va / 4096 % 1024 * 4)
      (littleEndian 4 (makePte pa (leafFlags flags))))
    (extended : Extends owner later)
    (used : ∀ frame role, later frame = some role → frame ∈ state.frames ∧ state.Live role.table)
    (claimed : later (frameOf pa) = some (.leaf root (va / 4096)) ∨
      identity (frameOf pa) ∧ frameOf pa = va / 4096 * 4096)
    (sameNodes : ∀ frame table position, later frame = some (.node table position) →
      owner frame = some (.node table position)) :
    ∃ nextTwin, Twin platform identity later next nextTwin := by
  have twinLive := (paired.live root).mpr isLive
  have upperSmall : va / 4096 / 1024 < 1024 := by omega
  have lowerSmall : va / 4096 % 1024 < 1024 := Nat.mod_lt _ (by decide)
  have rootSame := paired.roots root isLive _ upperSmall
  have nodeHas := (paired.node isLive upperSmall upper).2
  rw [nodeIs] at nodeHas
  have nodeNarrow := paired.narrow (paired.used nodeHas).1
  have nodeAligned := paired.owned.aligned nodeHas
  let nextTwin : AddressSpaceManager :=
    { twin with
      scratchpad_ := twin.scratchpad_.write (node + va / 4096 % 1024 * 4)
        (littleEndian 4 (makePte pa (leafFlags (flags ||| PteFlags.R))))
      history := .mapped root va pa (flags ||| PteFlags.R) :: twin.history }
  have view : nextTwin.view = store twin.view (node + va / 4096 % 1024 * 4)
      (littleEndian 4 (makePte pa (leafFlags (flags ||| PteFlags.R)))) :=
    ScratchpadMemory.view_write (by rw [littleEndian_length]; omega)
  have sameAllocator : nextTwin.page_allocator_ = twin.page_allocator_ := rfl
  have twinHistory : nextTwin.history =
      .mapped root va pa (flags ||| PteFlags.R) :: twin.history := rfl
  have entries : ∀ other slot, 4096 ∣ other → slot < 1024 →
      (entryAt next.view other slot =
        if other = node ∧ slot = va / 4096 % 1024 then makePte pa (leafFlags flags)
        else entryAt state.view other slot) ∧
      entryAt nextTwin.view other slot =
        if other = node ∧ slot = va / 4096 % 1024 then
          makePte pa (leafFlags (flags ||| PteFlags.R))
        else entryAt twin.view other slot := by
    intro other slot aligned slotSmall
    rw [written, view]
    exact ⟨entryAt_store_pte aligned nodeAligned lowerSmall (makePte_lt paBound) slotSmall,
      entryAt_store_pte aligned nodeAligned lowerSmall (makePte_lt paBound) slotSmall⟩
  refine ⟨nextTwin, ?_, sameAllocator.trans (paired.allocator.trans allocator.symm),
    paired.holes.trans holes.symm, ?_, ?_, ?_⟩
  · apply paired.owned.add_leaf twinLive vaBound paBound (or_readable flags) ?_ ?_ sameAllocator
      twinHistory view extended ?_ claimed
    · rw [rootSame]
      exact upper
    · rw [rootSame]
      exact nodeIs
    · intro frame role has
      rw [paired.frames, paired.live]
      exact used frame role has
  · intro table
    rw [Live, Live, history]
    exact paired.live table
  · intro table tableLive slot slotSmall
    rw [Live, history] at tableLive
    have tableHas := paired.root_owner tableLive
    have away : ¬(table = node ∧ slot = va / 4096 % 1024) := by
      intro place
      exact ne_of_roles tableHas nodeHas (by simp) place.1
    have both := entries table slot (paired.owned.aligned tableHas) slotSmall
    rw [both.1, both.2, if_neg away, if_neg away, paired.roots table tableLive slot slotSmall]
  · intro other table position has slot slotSmall
    have before := sameNodes other table position has
    have both := entries other slot (paired.owned.aligned before) slotSmall
    rw [both.1, both.2, history]
    by_cases here : other = node ∧ slot = va / 4096 % 1024
    · rw [if_pos here, if_pos here]
      rw [here.1, nodeHas, Option.some.injEq, Role.node.injEq] at before
      rw [← before.1]
      exact sameEntry_mapped paBound
    · rw [if_neg here, if_neg here]
      apply (paired.nodes other table position before slot slotSmall).mono
      exact allReadable_of_cons (fun impossible => by cases impossible)
        (fun impossible => by cases impossible)

theorem Twin.add_root (paired : Twin platform identity owner state twin)
    (free : owner root = none) (used : root ∈ state.frames)
    (allocator : next.page_allocator_ = state.page_allocator_)
    (holes : next.hole_list_ = state.hole_list_)
    (history : next.history = .created root :: state.history)
    (written : next.view = store state.view root (List.replicate 4096 0)) :
    ∃ nextTwin, Twin platform identity (Function.update owner root (some (.root root))) next
      nextTwin := by
  have narrow := paired.narrow used
  have rootAligned : 4096 ∣ root := (paired.pool.isFrame used).1
  let nextTwin : AddressSpaceManager :=
    { twin with
      scratchpad_ := twin.scratchpad_.write root zeroNode
      history := .created root :: twin.history }
  have view : nextTwin.view = store twin.view root (List.replicate 4096 0) := by
    rw [AddressSpaceManager.view, ScratchpadMemory.view_write
      (by rw [zeroNode, List.length_replicate]; exact narrow)]
    rfl
  have sameAllocator : nextTwin.page_allocator_ = twin.page_allocator_ := rfl
  have twinHistory : nextTwin.history = .created root :: twin.history := rfl
  have entries : ∀ other slot, 4096 ∣ other → slot < 1024 →
      (entryAt next.view other slot = if other = root then 0 else entryAt state.view other slot) ∧
      entryAt nextTwin.view other slot = if other = root then 0 else entryAt twin.view other slot := by
    intro other slot aligned slotSmall
    rw [written, view]
    exact ⟨entryAt_store_node aligned rootAligned slotSmall,
      entryAt_store_node aligned rootAligned slotSmall⟩
  refine ⟨nextTwin, ?_, sameAllocator.trans (paired.allocator.trans allocator.symm),
    paired.holes.trans holes.symm, ?_, ?_, ?_⟩
  · exact paired.owned.add_root free (by rw [paired.frames]; exact used) sameAllocator twinHistory
      view rfl
  · intro table
    rw [live_created twinHistory, live_created history, paired.live]
  · intro table tableLive slot slotSmall
    by_cases here : table = root
    · have both := entries table slot (by rw [here]; exact rootAligned) slotSmall
      rw [both.1, both.2, if_pos here, if_pos here]
    · have before := ((live_created history table).mp tableLive).resolve_left here
      have both := entries table slot (paired.owned.aligned (paired.root_owner before)) slotSmall
      rw [both.1, both.2, if_neg here, if_neg here, paired.roots table before slot slotSmall]
  · intro other table position has slot slotSmall
    have away : other ≠ root := by
      intro here
      rw [here, Function.update_self] at has
      cases has
    rw [Function.update_of_ne away] at has
    have both := entries other slot (paired.owned.aligned has) slotSmall
    rw [both.1, both.2, if_neg away, if_neg away, history]
    apply (paired.nodes other table position has slot slotSmall).mono
    apply allReadable_of_cons
    · intro created
      cases created
      have tableLive : state.Live root := (paired.used has).2
      rw [paired.root_owner tableLive] at free
      cases free
    · intro impossible
      cases impossible

theorem Twin.remove_table (paired : Twin platform identity owner state twin)
    (pool : FramePool platform next.page_allocator_)
    (kept : ∀ frame role, without root owner frame = some role → frame ∈ next.frames)
    (holes : next.hole_list_ = state.hole_list_)
    (history : next.history = .freed root :: state.history) (view : next.view = state.view) :
    ∃ nextTwin, Twin platform identity (without root owner) next nextTwin := by
  let nextTwin : AddressSpaceManager :=
    { twin with
      page_allocator_ := next.page_allocator_
      history := .freed root :: twin.history }
  have twinHistory : nextTwin.history = .freed root :: twin.history := rfl
  have twinView : nextTwin.view = twin.view := rfl
  have live := live_freed history
  have twinLive := live_freed twinHistory
  refine ⟨nextTwin, ?_, rfl, paired.holes.trans holes.symm, ?_, ?_, ?_⟩
  · exact paired.owned.remove_table pool kept twinHistory twinView
  · intro table
    rw [twinLive, live, paired.live]
  · intro table tableLive slot slotSmall
    rw [twinView, view]
    exact paired.roots table ((live table).mp tableLive).2 slot slotSmall
  · intro other table position has slot slotSmall
    have before := without_some.mp has
    rw [twinView, view, history]
    apply (paired.nodes other table position before.1 slot slotSmall).mono
    apply allReadable_of_cons
    · intro impossible
      cases impossible
    · intro freed
      cases freed
      exact before.2 rfl

end Preservation

end Espiral.AddressSpaceManager
