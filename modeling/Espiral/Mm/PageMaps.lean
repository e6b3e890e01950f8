import Espiral.Allocator.Frames
import Espiral.Mm.MappingHistory

/-!
# Page maps and the frames they own

Below the page maps the bytes of the scratchpad hold two-level tables. The
invariant of this module ties the two together and gives every frame of a live
table one role.
-/

namespace Espiral.AddressSpaceManager

set_option autoImplicit false

open ByteMemory MachineWords VortexMemoryAllocator

section Entries

def entryAt (memory : Memory) (node index : Nat) : Nat := loadWord memory (node + index * 4) 4

/-- What the two-level walk of a page finds: the valid entry of the level-zero
node under the valid entry of the root. -/
def leafOf (memory : Memory) (root page : Nat) : Option Nat :=
  let upper := entryAt memory root (page / 1024)
  if pteValid upper then
    let lower := entryAt memory (ptePa upper) (page % 1024)
    if pteValid lower then some lower else none
  else none

variable {memory : Memory} {addr : Nat} {bytes : List UInt8} {node other index : Nat}

theorem entryAt_store_other (nodeAligned : 4096 ∣ node) (otherAligned : 4096 ∣ other)
    (different : node ≠ other) (low : other ≤ addr) (high : addr + bytes.length ≤ other + 4096)
    (small : index < 1024) :
    entryAt (store memory addr bytes) node index = entryAt memory node index := by
  apply loadWord_store_apart
  rcases nodeAligned with ⟨count, rfl⟩
  rcases otherAligned with ⟨otherCount, rfl⟩
  rcases Nat.lt_or_gt_of_ne different with before | after
  · left
    omega
  · right
    omega

theorem entryAt_store_entry {otherIndex pte : Nat} (bound : pte < 2 ^ 32) :
    entryAt (store memory (node + otherIndex * 4) (littleEndian 4 pte)) node index =
      if index = otherIndex then pte else entryAt memory node index := by
  by_cases same : index = otherIndex
  · rw [if_pos same, same]
    exact loadWord_store_same bound
  · rw [if_neg same]
    apply loadWord_store_apart
    rw [littleEndian_length]
    omega

theorem entryAt_store_zeros (small : index < 1024) :
    entryAt (store memory node (List.replicate 4096 0)) node index = 0 :=
  loadWord_store_zeros (Nat.le_add_right _ _) (by omega)

theorem entryAt_store_pte {slot pte : Nat} (otherAligned : 4096 ∣ other) (nodeAligned : 4096 ∣ node)
    (inside : slot < 1024) (bound : pte < 2 ^ 32) (small : index < 1024) :
    entryAt (store memory (node + slot * 4) (littleEndian 4 pte)) other index =
      if other = node ∧ index = slot then pte else entryAt memory other index := by
  by_cases same : other = node
  · rw [same, entryAt_store_entry bound]
    simp
  · rw [entryAt_store_other otherAligned nodeAligned same (Nat.le_add_right _ _)
      (by rw [littleEndian_length]; omega) small, if_neg (fun both => same both.1)]

theorem entryAt_store_node (otherAligned : 4096 ∣ other) (nodeAligned : 4096 ∣ node)
    (small : index < 1024) :
    entryAt (store memory node (List.replicate 4096 0)) other index =
      if other = node then 0 else entryAt memory other index := by
  by_cases same : other = node
  · rw [if_pos same, same]
    exact entryAt_store_zeros small
  · rw [if_neg same]
    exact entryAt_store_other otherAligned nodeAligned same (Nat.le_refl _)
      (by rw [List.length_replicate]) small

theorem entryAt_link {root slot pte : Nat} (otherAligned : 4096 ∣ other) (nodeAligned : 4096 ∣ node)
    (rootAligned : 4096 ∣ root) (inside : slot < 1024) (bound : pte < 2 ^ 32)
    (small : index < 1024) :
    entryAt (store (store memory node (List.replicate 4096 0)) (root + slot * 4)
        (littleEndian 4 pte)) other index =
      if other = root ∧ index = slot then pte
      else if other = node then 0 else entryAt memory other index := by
  rw [entryAt_store_pte otherAligned rootAligned inside bound small,
    entryAt_store_node otherAligned nodeAligned small]

theorem pteIn_load (memory : Memory) (node : Nat) (small : index < 1024) :
    pteIn (load memory node 4096) index = entryAt memory node index := by
  have inside : index * PTE_SIZE + PTE_SIZE ≤ 4096 := by
    change index * 4 + 4 ≤ 4096
    omega
  rw [pteIn, load_slice memory node inside]
  rfl

end Entries

inductive Role where
  | root (table : Nat)
  | node (table index : Nat)
  | leaf (table page : Nat)
  deriving DecidableEq, Repr

def Role.table : Role → Nat
  | .root table => table
  | .node table _ => table
  | .leaf table _ => table

def frames (state : AddressSpaceManager) : Finset Nat := state.page_allocator_.frames

def view (state : AddressSpaceManager) : Memory := state.scratchpad_.view

def Live (state : AddressSpaceManager) (root : Nat) : Prop := live state.history root = true

theorem live_created {state next : AddressSpaceManager} {root : Nat}
    (history : next.history = .created root :: state.history) (table : Nat) :
    next.Live table ↔ table = root ∨ state.Live table := by
  rw [Live, Live, history, live, Bool.or_eq_true, beq_iff_eq]
  exact or_congr_left eq_comm

theorem live_freed {state next : AddressSpaceManager} {root : Nat}
    (history : next.history = .freed root :: state.history) (table : Nat) :
    next.Live table ↔ table ≠ root ∧ state.Live table := by
  rw [Live, Live, history, live, Bool.and_eq_true, bne_iff_ne]
  exact and_congr_left fun _ => ne_comm

/-- Live tables are well formed, agree with the history, and own their frames:
`owner` gives a frame at most one role. A leaf may also be one of the pages
mapped to themselves that `identity` allows. -/
structure WellOwned (platform : Platform) (identity : Nat → Prop) (owner : Nat → Option Role)
    (state : AddressSpaceManager) : Prop where
  pool : FramePool platform state.page_allocator_
  used : ∀ frame role, owner frame = some role →
    frame ∈ state.frames ∧ state.Live role.table
  roots : ∀ root, state.Live root → owner root = some (.root root)
  nodes : ∀ root index, state.Live root → index < 1024 →
    pteValid (entryAt state.view root index) = true →
    pteIsLeaf (entryAt state.view root index) = false ∧
      owner (ptePa (entryAt state.view root index)) = some (.node root index)
  leaves : ∀ root index slot, state.Live root → index < 1024 → slot < 1024 →
    pteValid (entryAt state.view root index) = true →
    pteValid (entryAt state.view (ptePa (entryAt state.view root index)) slot) = true →
    pteReadable (entryAt state.view (ptePa (entryAt state.view root index)) slot) = true ∧
      (owner (ptePa (entryAt state.view (ptePa (entryAt state.view root index)) slot)) =
          some (.leaf root (index * 1024 + slot)) ∨
        identity (ptePa (entryAt state.view (ptePa (entryAt state.view root index)) slot)) ∧
          ptePa (entryAt state.view (ptePa (entryAt state.view root index)) slot) =
            (index * 1024 + slot) * 4096)
  maps : ∀ root page, state.Live root → page < 2 ^ 20 →
    leafOf state.view root page = mapping state.history root page

structure SameView (state next : AddressSpaceManager) : Prop where
  allocator : next.page_allocator_ = state.page_allocator_
  holes : next.hole_list_ = state.hole_list_
  history : next.history = state.history
  view : next.view = state.view

theorem SameView.refl (state : AddressSpaceManager) : SameView state state := ⟨rfl, rfl, rfl, rfl⟩

theorem SameView.trans {first second third : AddressSpaceManager} (left : SameView first second)
    (right : SameView second third) : SameView first third where
  allocator := right.allocator.trans left.allocator
  holes := right.holes.trans left.holes
  history := right.history.trans left.history
  view := right.view.trans left.view

theorem SameView.frames {state next : AddressSpaceManager} (same : SameView state next) :
    next.frames = state.frames := by
  rw [AddressSpaceManager.frames, AddressSpaceManager.frames, same.allocator]

structure Grown (state next : AddressSpaceManager) : Prop where
  frames : state.frames ⊆ next.frames
  holes : next.hole_list_ = state.hole_list_
  history : next.history = state.history
  view : next.view = state.view

theorem SameView.grown {state next : AddressSpaceManager} (same : SameView state next) :
    Grown state next where
  frames := by rw [same.frames]
  holes := same.holes
  history := same.history
  view := same.view

def Extends (owner later : Nat → Option Role) : Prop :=
  ∀ frame role, owner frame = some role → later frame = some role

theorem Extends.refl (owner : Nat → Option Role) : Extends owner owner := fun _ _ same => same

theorem Extends.trans {first second third : Nat → Option Role} (left : Extends first second)
    (right : Extends second third) : Extends first third :=
  fun frame role has => right frame role (left frame role has)

section Preservation

variable {platform : Platform} {identity : Nat → Prop} {owner later : Nat → Option Role}
  {state next : AddressSpaceManager}

theorem WellOwned.grow (owned : WellOwned platform identity owner state)
    (grown : Grown state next) (pool : FramePool platform next.page_allocator_) :
    WellOwned platform identity owner next := by
  have live : ∀ root, next.Live root ↔ state.Live root := by
    intro root
    rw [Live, Live, grown.history]
  constructor
  · exact pool
  · intro frame role has
    have before := owned.used frame role has
    exact ⟨grown.frames before.1, (live role.table).mpr before.2⟩
  · intro root isLive
    exact owned.roots root ((live root).mp isLive)
  · intro root index isLive
    rw [grown.view]
    exact owned.nodes root index ((live root).mp isLive)
  · intro root index slot isLive
    rw [grown.view]
    exact owned.leaves root index slot ((live root).mp isLive)
  · intro root page isLive
    rw [grown.view, grown.history]
    exact owned.maps root page ((live root).mp isLive)

theorem WellOwned.sameView (owned : WellOwned platform identity owner state)
    (same : SameView state next) : WellOwned platform identity owner next :=
  owned.grow same.grown (by rw [same.allocator]; exact owned.pool)

theorem WellOwned.aligned (owned : WellOwned platform identity owner state) {frame : Nat}
    {role : Role} (has : owner frame = some role) : 4096 ∣ frame :=
  (owned.pool.isFrame (owned.used frame role has).1).1

theorem WellOwned.root_aligned (owned : WellOwned platform identity owner state) {root : Nat}
    (isLive : state.Live root) : 4096 ∣ root := owned.aligned (owned.roots root isLive)

theorem ne_of_roles {first second : Nat} {firstRole : Role} {secondRole : Option Role}
    (firstHas : owner first = some firstRole) (secondHas : owner second = secondRole)
    (different : secondRole ≠ some firstRole) : first ≠ second := by
  intro same
  apply different
  rw [← secondHas, ← same]
  exact firstHas

theorem Extends.update {frame : Nat} (free : owner frame = none) (role : Role) :
    Extends owner (Function.update owner frame (some role)) := by
  intro other otherRole has
  rw [Function.update_of_ne (ne_of_roles has free (by simp))]
  exact has

theorem WellOwned.used_update (owned : WellOwned platform identity owner state) {frame : Nat}
    (role : Role) (used : frame ∈ state.frames) (isLive : state.Live role.table) :
    ∀ other otherRole, Function.update owner frame (some role) other = some otherRole →
      other ∈ state.frames ∧ state.Live otherRole.table := by
  intro other otherRole has
  by_cases here : other = frame
  · rw [here, Function.update_self, Option.some.injEq] at has
    rw [here, ← has]
    exact ⟨used, isLive⟩
  · rw [Function.update_of_ne here] at has
    exact owned.used other otherRole has

theorem WellOwned.node_kept (owned : WellOwned platform identity owner state)
    (extended : Extends owner later) {table position : Nat} (isLive : state.Live table)
    (small : position < 1024)
    (same : entryAt next.view table position = entryAt state.view table position) :
    pteValid (entryAt next.view table position) = true →
      pteIsLeaf (entryAt next.view table position) = false ∧
        later (ptePa (entryAt next.view table position)) = some (.node table position) := by
  rw [same]
  intro valid
  have before := owned.nodes table position isLive small valid
  exact ⟨before.1, extended _ _ before.2⟩

theorem WellOwned.leaf_kept (owned : WellOwned platform identity owner state)
    (extended : Extends owner later) {table position slot : Nat} (isLive : state.Live table)
    (small : position < 1024) (slotSmall : slot < 1024)
    (same : entryAt next.view table position = entryAt state.view table position)
    (sameLower : pteValid (entryAt state.view table position) = true →
      entryAt next.view (ptePa (entryAt state.view table position)) slot =
        entryAt state.view (ptePa (entryAt state.view table position)) slot) :
    pteValid (entryAt next.view table position) = true →
    pteValid (entryAt next.view (ptePa (entryAt next.view table position)) slot) = true →
      pteReadable (entryAt next.view (ptePa (entryAt next.view table position)) slot) = true ∧
        (later (ptePa (entryAt next.view (ptePa (entryAt next.view table position)) slot)) =
            some (.leaf table (position * 1024 + slot)) ∨
          identity (ptePa (entryAt next.view (ptePa (entryAt next.view table position)) slot)) ∧
            ptePa (entryAt next.view (ptePa (entryAt next.view table position)) slot) =
              (position * 1024 + slot) * 4096) := by
  rw [same]
  intro upper
  rw [sameLower upper]
  intro lower
  have leaf := owned.leaves table position slot isLive small slotSmall upper lower
  refine ⟨leaf.1, ?_⟩
  cases leaf.2 with
  | inl has => exact Or.inl (extended _ _ has)
  | inr allowed => exact Or.inr allowed

theorem leafOf_kept {view after : Memory} {table page : Nat}
    (same : entryAt after table (page / 1024) = entryAt view table (page / 1024))
    (sameLower : pteValid (entryAt view table (page / 1024)) = true →
      entryAt after (ptePa (entryAt view table (page / 1024))) (page % 1024) =
        entryAt view (ptePa (entryAt view table (page / 1024))) (page % 1024)) :
    leafOf after table page = leafOf view table page := by
  unfold leafOf
  simp only [same]
  by_cases upper : pteValid (entryAt view table (page / 1024)) = true
  · rw [sameLower upper]
  · rw [if_neg upper, if_neg upper]

theorem WellOwned.add_node (owned : WellOwned platform identity owner state)
    {root index node : Nat} (isLive : state.Live root) (small : index < 1024)
    (missing : pteValid (entryAt state.view root index) = false) (free : owner node = none)
    (frame : node ∈ state.frames)
    (allocator : next.page_allocator_ = state.page_allocator_)
    (history : next.history = state.history)
    (written : next.view = store (store state.view node (List.replicate 4096 0))
      (root + index * 4) (littleEndian 4 (makePte node PteFlags.V)))
    (added : later = Function.update owner node (some (.node root index))) :
    WellOwned platform identity later next := by
  have live : ∀ table, next.Live table ↔ state.Live table := by
    intro table
    rw [Live, Live, history]
  have isFrame := owned.pool.isFrame frame
  have narrow : node < 2 ^ 32 := by
    have bound := owned.pool.valid.narrow
    have high := isFrame.2.2
    omega
  have target : ptePa (makePte node PteFlags.V) = node := by
    rw [ptePa_makePte narrow, frameOf_of_aligned isFrame.1]
  have notNode : ∀ other role, owner other = some role → other ≠ node :=
    fun other role has => ne_of_roles has free (by simp)
  have kept : Extends owner later := by
    rw [added]
    exact Extends.update free _
  have rootEntry : ∀ table position, state.Live table → position < 1024 →
      entryAt next.view table position =
        if table = root ∧ position = index then makePte node PteFlags.V
        else entryAt state.view table position := by
    intro table position tableLive positionSmall
    rw [written, entryAt_link (owned.root_aligned tableLive) isFrame.1 (owned.root_aligned isLive)
      small (makePte_lt narrow) positionSmall,
      if_neg (notNode table _ (owned.roots table tableLive))]
  have nodeEntry : ∀ other table position slot, owner other = some (.node table position) →
      slot < 1024 → entryAt next.view other slot = entryAt state.view other slot := by
    intro other table position slot has slotSmall
    have notRoot : other ≠ root := ne_of_roles has (owned.roots root isLive) (by simp)
    rw [written, entryAt_link (owned.aligned has) isFrame.1 (owned.root_aligned isLive) small
      (makePte_lt narrow) slotSmall, if_neg (fun both => notRoot both.1),
      if_neg (notNode other _ has)]
  have freshEntry : ∀ slot, slot < 1024 → entryAt next.view node slot = 0 := by
    intro slot slotSmall
    have notRoot : node ≠ root := fun same =>
      notNode root _ (owned.roots root isLive) same.symm
    rw [written, entryAt_link isFrame.1 isFrame.1 (owned.root_aligned isLive) small
      (makePte_lt narrow) slotSmall, if_neg (fun both => notRoot both.1), if_pos rfl]
  constructor
  · rw [allocator]
    exact owned.pool
  · intro other role has
    rw [AddressSpaceManager.frames, allocator, live role.table]
    rw [added] at has
    exact owned.used_update (.node root index) frame isLive other role has
  · intro table tableLive
    exact kept table _ (owned.roots table ((live table).mp tableLive))
  · intro table position tableLive positionSmall
    have tableWasLive := (live table).mp tableLive
    have entry := rootEntry table position tableWasLive positionSmall
    by_cases here : table = root ∧ position = index
    · intro _
      rw [entry, if_pos here, target, here.1, here.2]
      refine ⟨(node_pte node).2, ?_⟩
      rw [added, Function.update_self]
    · exact owned.node_kept kept tableWasLive positionSmall (entry.trans (if_neg here))
  · intro table position slot tableLive positionSmall slotSmall
    have tableWasLive := (live table).mp tableLive
    have entry := rootEntry table position tableWasLive positionSmall
    by_cases here : table = root ∧ position = index
    · rw [entry, if_pos here, target, freshEntry slot slotSmall]
      intro _ impossible
      rw [pteValid_zero] at impossible
      cases impossible
    · apply owned.leaf_kept kept tableWasLive positionSmall slotSmall (entry.trans (if_neg here))
      intro upper
      have before := owned.nodes table position tableWasLive positionSmall upper
      exact nodeEntry _ table position slot before.2 slotSmall
  · intro table page tableLive pageSmall
    have tableWasLive := (live table).mp tableLive
    rw [history, ← owned.maps table page tableWasLive pageSmall]
    have upperSmall : page / 1024 < 1024 := by omega
    have lowerSmall : page % 1024 < 1024 := Nat.mod_lt page (by decide)
    have entry := rootEntry table (page / 1024) tableWasLive upperSmall
    by_cases here : table = root ∧ page / 1024 = index
    · unfold leafOf
      simp only [entry]
      rw [if_pos here, target, freshEntry _ lowerSmall, here.1, here.2, missing]
      simp [(node_pte node).1, pteValid_zero]
    · apply leafOf_kept (entry.trans (if_neg here))
      intro upper
      have before := owned.nodes table (page / 1024) tableWasLive upperSmall upper
      exact nodeEntry _ table _ _ before.2 lowerSmall

theorem WellOwned.node_eq_iff (owned : WellOwned platform identity owner state)
    {table position root index : Nat} (tableLive : state.Live table) (positionSmall : position < 1024)
    (valid : pteValid (entryAt state.view table position) = true) (isLive : state.Live root)
    (small : index < 1024) (upper : pteValid (entryAt state.view root index) = true) :
    ptePa (entryAt state.view table position) = ptePa (entryAt state.view root index) ↔
      table = root ∧ position = index := by
  constructor
  · intro same
    have has := (owned.nodes table position tableLive positionSmall valid).2
    rw [same, (owned.nodes root index isLive small upper).2] at has
    simp only [Option.some.injEq, Role.node.injEq] at has
    exact ⟨has.1.symm, has.2.symm⟩
  · rintro ⟨rfl, rfl⟩
    rfl

/-- A page of a live root is mapped: the entry is written into its node. -/
theorem WellOwned.add_leaf (owned : WellOwned platform identity owner state)
    {root va pa node flags : Nat} (isLive : state.Live root) (vaBound : va < 2 ^ 32)
    (paBound : pa < 2 ^ 32) (readable : flags &&& PteFlags.R ≠ 0)
    (upper : pteValid (entryAt state.view root (va / 4096 / 1024)) = true)
    (nodeIs : ptePa (entryAt state.view root (va / 4096 / 1024)) = node)
    (allocator : next.page_allocator_ = state.page_allocator_)
    (history : next.history = .mapped root va pa flags :: state.history)
    (written : next.view = store state.view (node + va / 4096 % 1024 * 4)
      (littleEndian 4 (makePte pa (leafFlags flags))))
    (extended : Extends owner later)
    (used : ∀ frame role, later frame = some role → frame ∈ state.frames ∧ state.Live role.table)
    (claimed : later (frameOf pa) = some (.leaf root (va / 4096)) ∨
      identity (frameOf pa) ∧ frameOf pa = va / 4096 * 4096) :
    WellOwned platform identity later next := by
  have live : ∀ table, next.Live table ↔ state.Live table := by
    intro table
    rw [Live, Live, history]
    rfl
  have pageSplit : va / 4096 / 1024 * 1024 + va / 4096 % 1024 = va / 4096 := by omega
  have upperSmall : va / 4096 / 1024 < 1024 := by omega
  have lowerSmall : va / 4096 % 1024 < 1024 := Nat.mod_lt _ (by decide)
  have nodeRole := (owned.nodes root _ isLive upperSmall upper).2
  rw [nodeIs] at nodeRole
  have target : ptePa (makePte pa (leafFlags flags)) = frameOf pa := ptePa_makePte paBound
  have leafPte := leaf_pte pa readable
  have rootEntry : ∀ table position, state.Live table → position < 1024 →
      entryAt next.view table position = entryAt state.view table position := by
    intro table position tableLive positionSmall
    have notNode : table ≠ node := ne_of_roles (owned.roots table tableLive) nodeRole (by simp)
    rw [written, entryAt_store_pte (owned.root_aligned tableLive) (owned.aligned nodeRole) lowerSmall
      (makePte_lt paBound) positionSmall, if_neg (fun both => notNode both.1)]
  have nodeEntry : ∀ other table position slot, owner other = some (.node table position) →
      slot < 1024 → entryAt next.view other slot =
        if other = node ∧ slot = va / 4096 % 1024 then makePte pa (leafFlags flags)
        else entryAt state.view other slot := by
    intro other table position slot has slotSmall
    rw [written]
    exact entryAt_store_pte (owned.aligned has) (owned.aligned nodeRole) lowerSmall
      (makePte_lt paBound) slotSmall
  have sameNode : ∀ table position, state.Live table → position < 1024 →
      pteValid (entryAt state.view table position) = true →
      (ptePa (entryAt state.view table position) = node ↔
        table = root ∧ position = va / 4096 / 1024) := by
    intro table position tableLive positionSmall valid
    rw [← nodeIs]
    exact owned.node_eq_iff tableLive positionSmall valid isLive upperSmall upper
  constructor
  · rw [allocator]
    exact owned.pool
  · intro frame role has
    rw [AddressSpaceManager.frames, allocator, live role.table]
    exact used frame role has
  · intro table tableLive
    exact extended _ _ (owned.roots table ((live table).mp tableLive))
  · intro table position tableLive positionSmall
    have tableWasLive := (live table).mp tableLive
    exact owned.node_kept extended tableWasLive positionSmall
      (rootEntry table position tableWasLive positionSmall)
  · intro table position slot tableLive positionSmall slotSmall
    have tableWasLive := (live table).mp tableLive
    have entry := rootEntry table position tableWasLive positionSmall
    by_cases here : ptePa (entryAt state.view table position) = node ∧ slot = va / 4096 % 1024
    · rw [entry]
      intro valid _
      have before := owned.nodes table position tableWasLive positionSmall valid
      have place := (sameNode table position tableWasLive positionSmall valid).mp here.1
      rw [nodeEntry _ table position slot before.2 slotSmall, if_pos here, target, place.1, place.2,
        here.2, pageSplit]
      exact ⟨leafPte.2.1, claimed⟩
    · apply owned.leaf_kept extended tableWasLive positionSmall slotSmall entry
      intro valid
      have before := owned.nodes table position tableWasLive positionSmall valid
      rw [nodeEntry _ table position slot before.2 slotSmall, if_neg here]
  · intro table page tableLive pageSmall
    have tableWasLive := (live table).mp tableLive
    have before := owned.maps table page tableWasLive pageSmall
    have pageUpper : page / 1024 < 1024 := by omega
    have pageLower : page % 1024 < 1024 := Nat.mod_lt page (by decide)
    rw [history, mapping, ← before]
    unfold leafOf
    simp only [rootEntry table (page / 1024) tableWasLive pageUpper]
    by_cases valid : pteValid (entryAt state.view table (page / 1024)) = true
    · have has := owned.nodes table (page / 1024) tableWasLive pageUpper valid
      rw [if_pos valid, if_pos valid, nodeEntry _ table _ _ has.2 pageLower]
      by_cases here : root = table ∧ va / 4096 = page
      · have both : ptePa (entryAt state.view table (page / 1024)) = node ∧
            page % 1024 = va / 4096 % 1024 := by
          rw [← here.1, ← here.2]
          exact ⟨nodeIs, rfl⟩
        rw [if_pos both, if_pos leafPte.1, if_pos here]
      · have notBoth : ¬(ptePa (entryAt state.view table (page / 1024)) = node ∧
            page % 1024 = va / 4096 % 1024) := by
          intro both
          have place := (sameNode table _ tableWasLive pageUpper valid).mp both.1
          exact here ⟨place.1.symm, by omega⟩
        rw [if_neg notBoth, if_neg here]
    · have other : ¬(root = table ∧ va / 4096 = page) := by
        rintro ⟨rfl, rfl⟩
        exact valid upper
      rw [if_neg valid, if_neg other, if_neg valid]

/-- A fresh frame becomes the zeroed root of a new table. -/
theorem WellOwned.add_root (owned : WellOwned platform identity owner state) {root : Nat}
    (free : owner root = none) (frame : root ∈ state.frames)
    (allocator : next.page_allocator_ = state.page_allocator_)
    (history : next.history = .created root :: state.history)
    (written : next.view = store state.view root (List.replicate 4096 0))
    (added : later = Function.update owner root (some (.root root))) :
    WellOwned platform identity later next := by
  have isFrame := owned.pool.isFrame frame
  have notRoot : ∀ other role, owner other = some role → other ≠ root :=
    fun other role has => ne_of_roles has free (by simp)
  have live := live_created history
  have wasLive : ∀ table, next.Live table → table ≠ root → state.Live table := by
    intro table tableLive different
    rcases (live table).mp tableLive with same | before
    · exact absurd same different
    · exact before
  have kept : Extends owner later := by
    rw [added]
    exact Extends.update free _
  have oldEntry : ∀ other role slot, owner other = some role → slot < 1024 →
      entryAt next.view other slot = entryAt state.view other slot := by
    intro other role slot has slotSmall
    rw [written, entryAt_store_node (owned.aligned has) isFrame.1 slotSmall,
      if_neg (notRoot other role has)]
  have newEntry : ∀ slot, slot < 1024 → entryAt next.view root slot = 0 := by
    intro slot slotSmall
    rw [written]
    exact entryAt_store_zeros slotSmall
  constructor
  · rw [allocator]
    exact owned.pool
  · intro other role has
    rw [AddressSpaceManager.frames, allocator, live role.table]
    by_cases here : other = root
    · subst here
      rw [added, Function.update_self, Option.some.injEq] at has
      rw [← has]
      exact ⟨frame, Or.inl rfl⟩
    · rw [added, Function.update_of_ne here] at has
      have before := owned.used other role has
      exact ⟨before.1, Or.inr before.2⟩
  · intro table tableLive
    by_cases here : table = root
    · rw [here, added, Function.update_self]
    · exact kept table _ (owned.roots table (wasLive table tableLive here))
  · intro table position tableLive positionSmall
    by_cases here : table = root
    · rw [here, newEntry position positionSmall]
      intro impossible
      rw [pteValid_zero] at impossible
      cases impossible
    · have tableWasLive := wasLive table tableLive here
      exact owned.node_kept kept tableWasLive positionSmall
        (oldEntry table _ position (owned.roots table tableWasLive) positionSmall)
  · intro table position slot tableLive positionSmall slotSmall
    by_cases here : table = root
    · rw [here, newEntry position positionSmall]
      intro impossible
      rw [pteValid_zero] at impossible
      cases impossible
    · have tableWasLive := wasLive table tableLive here
      apply owned.leaf_kept kept tableWasLive positionSmall slotSmall
        (oldEntry table _ position (owned.roots table tableWasLive) positionSmall)
      intro valid
      have before := owned.nodes table position tableWasLive positionSmall valid
      exact oldEntry _ _ slot before.2 slotSmall
  · intro table page tableLive pageSmall
    have upperSmall : page / 1024 < 1024 := by omega
    have lowerSmall : page % 1024 < 1024 := Nat.mod_lt page (by decide)
    rw [history, mapping]
    by_cases here : table = root
    · rw [here, if_pos rfl]
      unfold leafOf
      simp only [newEntry _ upperSmall, pteValid_zero]
      rfl
    · have tableWasLive := wasLive table tableLive here
      rw [if_neg (fun same => here same.symm), ← owned.maps table page tableWasLive pageSmall]
      apply leafOf_kept (oldEntry table _ _ (owned.roots table tableWasLive) upperSmall)
      intro valid
      have before := owned.nodes table _ tableWasLive upperSmall valid
      exact oldEntry _ _ _ before.2 lowerSmall

def without (root : Nat) (owner : Nat → Option Role) (frame : Nat) : Option Role :=
  (owner frame).filter fun role => role.table != root

theorem without_some {root frame : Nat} {role : Role} :
    without root owner frame = some role ↔ owner frame = some role ∧ role.table ≠ root := by
  rw [without, Option.filter_eq_some_iff]
  simp

/-- A table is forgotten once the frames of the others are still in use. -/
theorem WellOwned.remove_table (owned : WellOwned platform identity owner state) {root : Nat}
    (pool : FramePool platform next.page_allocator_)
    (kept : ∀ frame role, without root owner frame = some role → frame ∈ next.frames)
    (history : next.history = .freed root :: state.history) (view : next.view = state.view) :
    WellOwned platform identity (without root owner) next := by
  have live := live_freed history
  constructor
  · exact pool
  · intro frame role has
    have before := without_some.mp has
    exact ⟨kept frame role has, (live _).mpr ⟨before.2, (owned.used frame role before.1).2⟩⟩
  · intro table tableLive
    have before := (live table).mp tableLive
    exact without_some.mpr ⟨owned.roots table before.2, before.1⟩
  · intro table position tableLive positionSmall
    have before := (live table).mp tableLive
    rw [view]
    intro valid
    have node := owned.nodes table position before.2 positionSmall valid
    exact ⟨node.1, without_some.mpr ⟨node.2, before.1⟩⟩
  · intro table position slot tableLive positionSmall slotSmall
    have before := (live table).mp tableLive
    rw [view]
    intro upper lower
    have leaf := owned.leaves table position slot before.2 positionSmall slotSmall upper lower
    refine ⟨leaf.1, ?_⟩
    rcases leaf.2 with has | allowed
    · exact Or.inl (without_some.mpr ⟨has, before.1⟩)
    · exact Or.inr allowed
  · intro table page tableLive pageSmall
    have before := (live table).mp tableLive
    rw [view, history, mapping, if_neg (fun same => before.1 same.symm)]
    exact owned.maps table page before.2 pageSmall

end Preservation

end Espiral.AddressSpaceManager
