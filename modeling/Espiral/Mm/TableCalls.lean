import Espiral.Mm.AddressSpaceRuns
import Espiral.Mm.TableNodes
import Espiral.Mm.Translation

/-!
# Calls and the nodes of live tables

What the operations do to live tables, for any state of the page allocator. All
that is asked of the allocator is that a frame handed out for a node is not a
node of a live table.
-/

namespace Espiral.AddressSpaceManager

set_option autoImplicit false

open ByteMemory Contracts MachineWords Traces VortexMemoryAllocator

/-- A frame handed out for a node is page aligned and not a node of a live table. -/
def HandsOutUnlinked (state : AddressSpaceManager) : Prop :=
  ∀ node next, allocatePageTableNode state = .ok (some node) next →
    4096 ∣ node ∧ Unlinked state node

section Allocation

variable {state next : AddressSpaceManager}

theorem SameTables.trans {first second third : AddressSpaceManager}
    (left : SameTables first second) (right : SameTables second third) :
    SameTables first third where
  holes := right.holes.trans left.holes
  history := right.history.trans left.history
  view := right.view.trans left.view

theorem SameView.tables (same : SameView state next) : SameTables state next :=
  ⟨same.holes, same.history, same.view⟩

theorem onAllocator_tables {Value : Type} (action : Action VortexMemoryAllocator Value) :
    Ensures (onAllocator action) state (fun _ next => SameTables state next)
      (fun _ next => SameTables state next) := by
  rw [ensures_iff]
  cases ran : action state.page_allocator_ with
  | ok value allocator => exact Or.inl ⟨value, _, onAllocator_ok ran, rfl, rfl, rfl⟩
  | error fault allocator =>
      refine Or.inr ⟨fault, { state with page_allocator_ := allocator }, ?_, rfl, rfl, rfl⟩
      simp only [onAllocator, ran]

theorem allocateOnePage_tables : Ensures allocateOnePage state
    (fun _ next => SameTables state next) (fun _ next => SameTables state next) := by
  rw [allocateOnePage]
  apply Ensures.bind
  apply (onAllocator_tables (VortexMemoryAllocator.allocate PAGE_SIZE)).weaken
  · intro result first same
    cases result with
    | none => exact ensures_pure same
    | some pa =>
        have tested : addrInHole pa first = .ok (first.hole_list_.addrInHole pa) first := rfl
        apply ensures_bind_of_run tested
        cases first.hole_list_.addrInHole pa with
        | true =>
            apply (onAllocator_tables (VortexMemoryAllocator.allocate PAGE_SIZE)).weaken
            · intro _ second again
              exact same.trans again
            · intro _ second again
              exact same.trans again
        | false => exact ensures_pure same
  · intro _ _ same
    exact same

theorem allocatePageTableNode_tables : Ensures allocatePageTableNode state
    (fun _ next => SameTables state next) (fun _ next => SameTables state next) := by
  rw [allocatePageTableNode]
  apply Ensures.bind
  apply allocateOnePage_tables.weaken
  · intro _ _ same
    exact ensures_pure same
  · intro _ _ same
    exact same

theorem releaseOnePage_tables (addr : Nat) : Ensures (releaseOnePage addr) state
    (fun _ next => SameTables state next) (fun _ next => SameTables state next) := by
  have tested : addrInHole addr state = .ok (state.hole_list_.addrInHole addr) state := rfl
  rw [releaseOnePage]
  apply ensures_bind_of_run tested
  cases state.hole_list_.addrInHole addr with
  | true => exact ensures_pure ⟨rfl, rfl, rfl⟩
  | false =>
      apply Ensures.bind
      apply (onAllocator_tables (VortexMemoryAllocator.release addr)).weaken
      · intro _ _ same
        exact ensures_pure same
      · intro _ _ same
        exact same

theorem onAllocator_narrow {size addr : Nat}
    (ran : onAllocator (VortexMemoryAllocator.allocate size) state = .ok (some addr) next) :
    addr < 2 ^ 32 := by
  rw [onAllocator] at ran
  split at ran
  · next allocated =>
      cases ran
      simp only [VortexMemoryAllocator.allocate] at allocated
      split at allocated
      · cases allocated
      · split at allocated
        · split at allocated
          · cases allocated
            exact wrap32_lt _
          · cases allocated
        · split at allocated
          · cases allocated
          · split at allocated
            · cases allocated
              exact wrap32_lt _
            · cases allocated
  · cases ran

theorem allocatePageTableNode_narrow {node : Nat}
    (ran : allocatePageTableNode state = .ok (some node) next) : node < 2 ^ 32 := by
  obtain ⟨paged, middle, first, rest⟩ := bind_returns ran
  obtain ⟨frame, between, asked, tested⟩ := bind_returns first
  have page : ∀ pa, paged = some pa → pa < 2 ^ 32 := by
    intro pa same
    rw [same] at tested
    cases frame with
    | none => cases tested
    | some other =>
        obtain ⟨inside, after, test, last⟩ := bind_returns tested
        cases test
        split at last
        · exact onAllocator_narrow last
        · cases last
          exact onAllocator_narrow asked
  cases paged with
  | none => cases rest
  | some pa =>
      have bound := page pa rfl
      by_cases zero : pa = 0
      · rw [zero] at rest
        cases rest
      · simp only [Option.getD_some, ne_eq, zero, not_false_eq_true, if_true] at rest
        cases rest
        exact bound

theorem allocatePageTableNode_congr {other : AddressSpaceManager}
    (allocator : other.page_allocator_ = state.page_allocator_)
    (holes : other.hole_list_ = state.hole_list_) {result : Option Nat}
    (ran : allocatePageTableNode other = .ok result next) :
    ∃ after, allocatePageTableNode state = .ok result after := by
  have requested : ∀ size, ∀ left right : AddressSpaceManager,
      right.page_allocator_ = left.page_allocator_ → right.hole_list_ = left.hole_list_ →
      ∀ value after, onAllocator (VortexMemoryAllocator.allocate size) right = .ok value after →
        ∃ later, onAllocator (VortexMemoryAllocator.allocate size) left = .ok value later ∧
          after.page_allocator_ = later.page_allocator_ ∧
          after.hole_list_ = later.hole_list_ := by
    intro size left right sameAllocator sameHoles value after returned
    simp only [onAllocator, sameAllocator] at returned ⊢
    cases inner : VortexMemoryAllocator.allocate size left.page_allocator_ with
    | ok found grown =>
        rw [inner] at returned
        cases returned
        exact ⟨_, rfl, rfl, sameHoles⟩
    | error fault grown =>
        rw [inner] at returned
        cases returned
  obtain ⟨paged, middle, first, rest⟩ := bind_returns ran
  obtain ⟨frame, between, asked, tested⟩ := bind_returns first
  obtain ⟨later, again, laterAllocator, laterHoles⟩ :=
    requested PAGE_SIZE state other allocator holes frame between asked
  have page : ∃ after, allocateOnePage state = .ok paged after := by
    rw [allocateOnePage, bind_ok again]
    cases frame with
    | none =>
        cases tested
        exact ⟨later, rfl⟩
    | some pa =>
        have test : addrInHole pa later = .ok (later.hole_list_.addrInHole pa) later := rfl
        have otherTest : addrInHole pa between = .ok (between.hole_list_.addrInHole pa) between := rfl
        simp only at tested ⊢
        rw [bind_ok otherTest, laterHoles] at tested
        rw [bind_ok test]
        by_cases inside : later.hole_list_.addrInHole pa = true
        · rw [if_pos inside] at tested ⊢
          obtain ⟨final, done, _, _⟩ :=
            requested PAGE_SIZE later between laterAllocator laterHoles paged middle tested
          exact ⟨final, done⟩
        · rw [if_neg inside] at tested ⊢
          cases tested
          exact ⟨later, rfl⟩
  obtain ⟨after, paged⟩ := page
  refine ⟨after, ?_⟩
  rw [allocatePageTableNode, bind_ok paged]
  cases rest
  rfl

end Allocation

section Mapping

variable {state next : AddressSpaceManager} {root va pa flags : Nat}

/-- The nodes of live tables are still separate and have kept their valid entries. -/
structure TablesKept (state next : AddressSpaceManager) : Prop where
  separated : Separated next
  entries : EntriesKept state next

theorem TablesKept.trans {first second third : AddressSpaceManager}
    (left : TablesKept first second) (right : TablesKept second third) :
    TablesKept first third :=
  ⟨right.separated, left.entries.trans right.entries⟩

theorem Separated.same (separated : Separated state) (same : SameTables state next) :
    TablesKept state next :=
  ⟨separated.of_same same.history same.view, EntriesKept.of_same same.history same.view⟩

theorem Separated.read (separated : Separated state) (same : SameView state next) :
    TablesKept state next := separated.same same.tables

/-- The descent ends at the node of the page, which it may have linked. -/
theorem descend_keeps (separated : Separated state) (isLive : state.Live root)
    (vaBound : va < 2 ^ 32) (unlinked : HandsOutUnlinked state) :
    Ensures (descend va (PT_LEVELS - 1) root) state
      (fun node next => TablesKept state next ∧ next.history = state.history ∧
        pteValid (entryAt next.view root (va / 4096 / 1024)) = true ∧
        ptePa (entryAt next.view root (va / 4096 / 1024)) = node)
      (fun _ next => TablesKept state next) := by
  have bounds := separated.aligned root isLive
  have small : va / 4096 / 1024 < 1024 := by omega
  obtain ⟨read, ran, same⟩ := @readEntry_run state root _ (by omega) small
  have reading := separated.read same
  have readLive := reading.entries.live root isLive
  rw [← same.view] at ran
  have levels : PT_LEVELS - 1 = 0 + 1 := rfl
  rw [levels, descend, Nat.zero_add, vaVpn_one vaBound, entry_address (by omega) small]
  apply ensures_bind_of_run ran
  cases valid : pteValid (entryAt read.view root (va / 4096 / 1024)) with
  | true => exact ensures_pure ⟨reading, same.history, valid, rfl⟩
  | false =>
      simp only [Bool.not_false, if_true]
      apply Ensures.bind
      cases ensures_iff.mp (@allocatePageTableNode_tables read) with
      | inr thrown =>
          obtain ⟨fault, grown, allocated, tables⟩ := thrown
          rw [ensures_iff]
          exact Or.inr ⟨fault, grown, allocated, reading.trans (reading.separated.same tables)⟩
      | inl returned =>
          obtain ⟨result, grown, allocated, tables⟩ := returned
          have growing := reading.trans (reading.separated.same tables)
          apply ensures_of_run allocated
          cases result with
          | none => exact ensures_throw growing
          | some node =>
              obtain ⟨_, handed⟩ := allocatePageTableNode_congr same.allocator same.holes allocated
              obtain ⟨aligned, free⟩ := unlinked _ _ handed
              have narrow := allocatePageTableNode_narrow allocated
              have unlinkedNow : Unlinked grown node := by
                intro role has
                have history := tables.history.trans same.history
                have view := tables.view.trans same.view
                have live : ∀ table, grown.Live table → state.Live table := by
                  intro table tableLive
                  rw [Live, ← history]
                  exact tableLive
                apply free role
                cases has with
                | root tableLive => exact NodeAt.root (live _ tableLive)
                | node tableLive positionSmall upper =>
                    rw [view] at upper ⊢
                    exact NodeAt.node (live _ tableLive) positionSmall upper
              obtain ⟨zeroed, linked, wroteZeros, wroteLink, _, _, history, written⟩ :=
                @linkNode_run grown root (va / 4096 / 1024) node (by omega) (by omega) small
              have target : ptePa (makePte node PteFlags.V) = node := by
                rw [ptePa_makePte narrow, frameOf_of_aligned aligned]
              have grownLive := growing.entries.live root isLive
              have missing : pteValid (entryAt grown.view root (va / 4096 / 1024)) = false := by
                rw [tables.view]
                exact valid
              have link := Separated.link growing.separated grownLive small missing unlinkedNow
                aligned narrow history written
              have entry := linked_entry growing.separated grownLive small unlinkedNow aligned
                narrow written (NodeAt.root grownLive) small
              rw [if_pos ⟨rfl, rfl⟩] at entry
              apply ensures_bind_of_run wroteZeros
              apply ensures_bind_of_run wroteLink
              apply ensures_pure
              rw [entry, target]
              exact ⟨growing.trans ⟨link.1, link.2⟩,
                history.trans (tables.history.trans same.history), (node_pte node).1, rfl⟩

theorem mapAddrInner_keeps (separated : Separated state) (isLive : state.Live root)
    (vaBound : va < 2 ^ 32) (paBound : pa < 2 ^ 32) (readable : flags &&& PteFlags.R ≠ 0)
    (unlinked : HandsOutUnlinked state) :
    Ensures (mapAddrInner va pa root flags) state (fun _ next => TablesKept state next)
      (fun _ next => TablesKept state next) := by
  rw [mapAddrInner]
  apply Ensures.bind
  apply (descend_keeps separated isLive vaBound unlinked).weaken
  · intro node reached outcome
    obtain ⟨kept, history, upper, nodeIs⟩ := outcome
    have small : va / 4096 / 1024 < 1024 := by omega
    have lowerSmall : va / 4096 % 1024 < 1024 := Nat.mod_lt _ (by decide)
    have nodeNarrow : node + 4096 ≤ 2 ^ 32 := by
      rw [← nodeIs]
      exact ptePa_lt _
    obtain ⟨read, ran, same⟩ := @readEntry_run reached node _ nodeNarrow lowerSmall
    have reading := kept.trans (kept.separated.read same)
    have readLive := reading.entries.live root isLive
    rw [← same.view] at ran
    rw [← same.view] at upper nodeIs
    rw [vaVpn_zero, entry_address nodeNarrow lowerSmall]
    apply ensures_bind_of_run ran
    cases valid : pteValid (entryAt read.view node (va / 4096 % 1024)) with
    | true =>
        simp only [if_true]
        obtain ⟨final, unchanged, thrown⟩ :=
          @alreadyMapped_throws read node _ root nodeNarrow lowerSmall
            (separated.aligned root isLive).1 va
        exact ensures_of_throw thrown (reading.trans (reading.separated.read unchanged))
    | false =>
        simp only [Bool.false_eq_true, if_false]
        obtain ⟨linked, wrote, _, _, linkHistory, linkView⟩ :=
          @writePte_run read node (va / 4096 % 1024)
            (makePte pa (flags ||| PteFlags.V ||| PteFlags.A ||| PteFlags.D)) nodeNarrow lowerSmall
        have live : ∀ table,
            AddressSpaceManager.Live { linked with history := .mapped root va pa flags ::
              linked.history } table ↔ read.Live table := by
          intro table
          rw [Live, Live, ← linkHistory]
          rfl
        rw [← nodeIs] at linkView valid
        have fill := @Separated.fill read { linked with history := .mapped root va pa flags ::
          linked.history } root (va / 4096 / 1024) (va / 4096 % 1024) _ reading.separated
          readLive small lowerSmall upper (makePte_lt paBound) live linkView
          (leaf_pte pa readable).2.1 valid
        apply ensures_bind_of_run wrote
        exact ensures_of_run (record_run _) (reading.trans ⟨fill.1, fill.2⟩)
  · intro _ _ kept
    exact kept

theorem allocatePageTable_keeps (separated : Separated state) (unlinked : HandsOutUnlinked state) :
    Ensures allocatePageTable state (fun _ next => TablesKept state next)
      (fun _ next => TablesKept state next) := by
  rw [allocatePageTable]
  apply Ensures.bind
  cases ensures_iff.mp (@allocatePageTableNode_tables state) with
  | inr thrown =>
      obtain ⟨fault, grown, allocated, tables⟩ := thrown
      rw [ensures_iff]
      exact Or.inr ⟨fault, grown, allocated, separated.same tables⟩
  | inl returned =>
      obtain ⟨result, grown, allocated, tables⟩ := returned
      apply ensures_of_run allocated
      cases result with
      | none => exact ensures_pure (separated.same tables)
      | some created =>
          obtain ⟨aligned, free⟩ := unlinked _ _ allocated
          have narrow := allocatePageTableNode_narrow allocated
          obtain ⟨zeroed, wrote, _, _, zeroHistory, zeroView⟩ :=
            @zeroNode_run grown created (by omega)
          have start := @Separated.start state
            { zeroed with history := .created created :: zeroed.history } created separated free
            aligned narrow (by rw [zeroHistory, tables.history]) (by
              rw [← tables.view]
              exact zeroView)
          apply ensures_bind_of_run wrote
          apply ensures_bind_of_run (record_run _)
          exact ensures_pure ⟨start.1, start.2⟩

/-- The recursion of the release reads nodes and gives frames back, nothing else. -/
theorem freePageTableInner_tables (level pa : Nat) :
    Ensures (freePageTableInner level pa) state (fun _ next => SameTables state next)
      (fun _ next => SameTables state next) := by
  induction level generalizing state pa with
  | zero => exact ensures_pure ⟨rfl, rfl, rfl⟩
  | succ level ih =>
      obtain ⟨data, read, ran, same⟩ := @readScratchpad_only state pa PAGE_SIZE
      apply @freePageTableInner_keeps state level pa (SameTables state) (fun _ => SameTables state)
        _ _ ran same.sameView.tables
      · intro index small valid current sameCurrent
        split
        · apply (ih _).weaken
          · intro _ _ later
            exact sameCurrent.trans later
          · intro _ _ later
            exact sameCurrent.trans later
        · apply (releaseOnePage_tables _).weaken
          · intro _ _ later
            exact sameCurrent.trans later
          · intro _ _ later
            exact sameCurrent.trans later
      · intro current sameCurrent
        apply (releaseOnePage_tables pa).weaken
        · intro _ _ later
          exact sameCurrent.trans later
        · intro _ _ later
          exact sameCurrent.trans later

theorem freePageTable_keeps (separated : Separated state) : Ensures (freePageTable root) state
    (fun _ next => Separated next) (fun _ next => Separated next) := by
  rw [freePageTable]
  apply Ensures.bind
  apply (freePageTableInner_tables PT_LEVELS root).weaken
  · intro _ last same
    apply ensures_of_run (record_run _)
    apply @Separated.forget state { last with history := .freed root :: last.history } separated
      ?_ same.view
    intro table isLive
    have before : live last.history table = true := by
      have both : (root != table && live last.history table) = true := isLive
      exact (Bool.and_eq_true_iff.mp both).2
    rw [Live, ← same.history]
    exact before
  · intro _ last same
    exact separated.of_same same.history same.view

end Mapping

section Owned

variable {platform : Platform} {identity : Nat → Prop} {owner : Nat → Option Role}
  {state : AddressSpaceManager}

theorem WellOwned.owns_node (owned : WellOwned platform identity owner state) {frame : Nat}
    {role : Role} (node : NodeAt state frame role) : owner frame = some role := by
  cases node with
  | root isLive => exact owned.roots _ isLive
  | node isLive small valid => exact (owned.nodes _ _ isLive small valid).2

theorem WellOwned.separated (owned : WellOwned platform identity owner state) :
    Separated state where
  aligned root isLive := by
    have narrow := owned.narrow (owned.used root _ (owned.roots root isLive)).1
    exact ⟨owned.root_aligned isLive, by omega⟩
  unique frame first second left right := by
    have has := owned.owns_node left
    rw [owned.owns_node right] at has
    exact (Option.some.inj has).symm
  pointers root index isLive small valid := (owned.nodes root index isLive small valid).1
  leaves root index slot isLive small slotSmall upper lower :=
    (owned.leaves root index slot isLive small slotSmall upper lower).1

/-- The page allocator of the source hands out frames that are not in use. -/
theorem WellOwned.handsOutUnlinked (owned : WellOwned platform identity owner state) :
    HandsOutUnlinked state := by
  intro node next ran
  obtain ⟨result, after, again, _, _, outcome⟩ := allocatePageTableNode_run owned.pool
  rw [ran] at again
  cases again
  refine ⟨outcome.fresh.2.2.1, ?_⟩
  intro role has
  exact outcome.fresh.2.1 (owned.used node role (owned.owns_node has)).1

end Owned

end Espiral.AddressSpaceManager
