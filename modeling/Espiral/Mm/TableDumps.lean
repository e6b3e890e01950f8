import Espiral.Mm.AddressSpaceSteps

/-!
# Dumped page tables

A dump lists the nodes of a table with their bytes. Stored into another memory
in any order it makes that memory's walk the walk of the scratchpad, and it
touches nothing but the nodes.
-/

namespace Espiral.AddressSpaceManager

set_option autoImplicit false

open ByteMemory Contracts MachineWords

def IsNode (memory : Memory) (root node : Nat) : Prop :=
  node = root ∨ ∃ index < 1024, pteValid (entryAt memory root index) = true ∧
    ptePa (entryAt memory root index) = node

structure Dumped (memory : Memory) (root : Nat) (dump : SparseScratchpad) : Prop where
  nodes : ∀ entry ∈ dump, IsNode memory root entry.1 ∧ entry.2 = load memory entry.1 PAGE_SIZE
  complete : ∀ node, IsNode memory root node → node ∈ dump.map Prod.fst

section Entries

variable {memory : Memory} {root node pa : Nat} {content : List UInt8} {dump other : SparseScratchpad}

theorem mem_insert {entry : Nat × List UInt8} (member : entry ∈ dump.insert pa content) :
    entry = (pa, content) ∨ entry ∈ dump := by
  cases List.mem_cons.mp member with
  | inl same => exact Or.inl same
  | inr kept => exact Or.inr (List.mem_filter.mp kept).1

theorem key_insert_self : pa ∈ (dump.insert pa content).map Prod.fst :=
  List.mem_map.mpr ⟨(pa, content), List.mem_cons_self .., rfl⟩

theorem key_insert (member : node ∈ dump.map Prod.fst) :
    node ∈ (dump.insert pa content).map Prod.fst := by
  by_cases same : node = pa
  · rw [same]
    exact key_insert_self
  · obtain ⟨entry, inDump, key⟩ := List.mem_map.mp member
    apply List.mem_map.mpr
    refine ⟨entry, List.mem_cons_of_mem _ (List.mem_filter.mpr ⟨inDump, ?_⟩), key⟩
    simp [key, same]

theorem Dumped.perm (dumped : Dumped memory root dump) (order : other.Perm dump) :
    Dumped memory root other where
  nodes entry member := dumped.nodes entry (order.mem_iff.mp member)
  complete node isNode := (order.map Prod.fst).mem_iff.mpr (dumped.complete node isNode)

theorem Dumped.stored_inside (dumped : Dumped memory root dump) (device : Memory)
    (isNode : IsNode memory root node) {addr : Nat} (low : node ≤ addr) (high : addr < node + 4096) :
    storeAll device dump addr = memory addr := by
  obtain ⟨entry, member, key⟩ := List.mem_map.mp (dumped.complete node isNode)
  have size : ∀ write ∈ dump, write.2.length = 4096 := by
    intro write inDump
    rw [(dumped.nodes write inDump).2, load_length]
    rfl
  apply storeAll_copies
  · intro write inDump
    rw [size write inDump]
    exact (dumped.nodes write inDump).2
  · rw [← key] at low high
    exact ⟨entry, member, low, by rw [size entry member]; exact high⟩

theorem Dumped.stored_outside (dumped : Dumped memory root dump) (device : Memory) {addr : Nat}
    (outside : ∀ node, IsNode memory root node → addr < node ∨ node + 4096 ≤ addr) :
    storeAll device dump addr = device addr := by
  apply storeAll_outside
  intro write member
  obtain ⟨isNode, bytes⟩ := dumped.nodes write member
  have size : write.2.length = 4096 := by
    rw [bytes, load_length]
    rfl
  rw [size]
  exact outside write.1 isNode

theorem Dumped.entry (dumped : Dumped memory root dump) (device : Memory)
    (isNode : IsNode memory root node) {index : Nat} (small : index < 1024) :
    entryAt (storeAll device dump) node index = entryAt memory node index := by
  unfold entryAt loadWord
  congr 1
  apply load_congr
  intro position low high
  exact dumped.stored_inside device isNode (by omega) (by omega)

theorem Dumped.shaped (dumped : Dumped memory root dump) (device : Memory)
    (shaped : Shaped memory root) : Shaped (storeAll device dump) root where
  narrow := shaped.narrow
  upper index small valid := by
    rw [dumped.entry device (Or.inl rfl) small] at valid ⊢
    exact shaped.upper index small valid
  lower index small slot slotSmall upper lower := by
    rw [dumped.entry device (Or.inl rfl) small] at upper lower ⊢
    rw [dumped.entry device (Or.inr ⟨index, small, upper, rfl⟩) slotSmall] at lower ⊢
    exact shaped.lower index small slot slotSmall upper lower

theorem Dumped.walkRoot (dumped : Dumped memory root dump) (device : Memory)
    (shaped : Shaped memory root) {va : Nat} (bound : va < 2 ^ 32) :
    walkRoot (storeAll device dump) va root = walkRoot memory va root := by
  rw [walkRoot_leafOf (dumped.shaped device shaped) bound, walkRoot_leafOf shaped bound]
  congr 1
  apply leafOf_congr ?_ ?_ (by omega)
  · intro index small
    exact dumped.entry device (Or.inl rfl) small
  · intro index small valid slot slotSmall
    exact dumped.entry device (Or.inr ⟨index, small, valid, rfl⟩) slotSmall

end Entries

section Listing

def nodeListing (memory : Memory) (node first : Nat) (slots : List Nat) : List (Nat × Nat) :=
  slots.filterMap fun slot =>
    if pteValid (entryAt memory node slot) then
      some ((first + slot) * 4096, ptePa (entryAt memory node slot))
    else none

def pageListing (memory : Memory) (root : Nat) : List (Nat × Nat) :=
  (List.range (2 ^ 20)).filterMap fun page =>
    (leafOf memory root page).map fun pte => (page * 4096, ptePa pte)

theorem range_mul (rows columns : Nat) :
    List.range (rows * columns) =
      (List.range rows).flatMap fun row => (List.range columns).map (row * columns + ·) := by
  induction rows with
  | zero => rw [Nat.zero_mul, List.range_zero, List.flatMap_nil]
  | succ rows ih =>
      rw [Nat.succ_mul, List.range_add, List.range_succ, List.flatMap_append, ← ih,
        List.flatMap_singleton]

variable {memory : Memory} {root : Nat}

theorem leafOf_index {index slot : Nat} (slotSmall : slot < 1024) :
    leafOf memory root (index * 1024 + slot) =
      if pteValid (entryAt memory root index) then
        if pteValid (entryAt memory (ptePa (entryAt memory root index)) slot) then
          some (entryAt memory (ptePa (entryAt memory root index)) slot)
        else none
      else none := by
  have upper : (index * 1024 + slot) / 1024 = index := by omega
  have lower : (index * 1024 + slot) % 1024 = slot := by omega
  rw [leafOf, upper, lower]

theorem pageListing_nodes : pageListing memory root =
    (List.range 1024).flatMap fun index =>
      if pteValid (entryAt memory root index) then
        nodeListing memory (ptePa (entryAt memory root index)) (index * 1024) (List.range 1024)
      else [] := by
  have pages : 2 ^ 20 = 1024 * 1024 := rfl
  rw [pageListing, pages, range_mul, List.filterMap_flatMap]
  refine congrArg (List.range 1024).flatMap (funext fun index => ?_)
  rw [List.filterMap_map]
  split
  · next valid =>
      rw [nodeListing]
      apply List.filterMap_congr
      intro slot member
      rw [Function.comp_apply, leafOf_index (List.mem_range.mp member), if_pos valid]
      split
      · rfl
      · rfl
  · next invalid =>
      apply List.filterMap_eq_nil_iff.mpr
      intro slot member
      rw [Function.comp_apply, leafOf_index (List.mem_range.mp member), if_neg invalid]
      rfl

theorem mem_pageListing {va pa : Nat} : (va, pa) ∈ pageListing memory root ↔
    va < 2 ^ 32 ∧ 4096 ∣ va ∧ (leafOf memory root (va / 4096)).map ptePa = some pa := by
  rw [pageListing, List.mem_filterMap]
  constructor
  · rintro ⟨page, member, found⟩
    obtain ⟨pte, leaf, same⟩ := Option.map_eq_some_iff.mp found
    have bound := List.mem_range.mp member
    cases same
    rw [Nat.mul_div_cancel page (by decide), leaf]
    exact ⟨by omega, Nat.dvd_mul_left 4096 page, rfl⟩
  · rintro ⟨bound, aligned, found⟩
    obtain ⟨pte, leaf, target⟩ := Option.map_eq_some_iff.mp found
    refine ⟨va / 4096, List.mem_range.mpr (by omega), ?_⟩
    rw [leaf, Option.map_some, target, Nat.div_mul_cancel aligned]

theorem pageListing_ascending (memory : Memory) (root : Nat) :
    (pageListing memory root).Pairwise fun first second => first.1 < second.1 := by
  rw [pageListing, List.pairwise_filterMap]
  apply List.pairwise_lt_range.imp
  intro page later order first isFirst second isSecond
  obtain ⟨_, _, rfl⟩ := Option.map_eq_some_iff.mp isFirst
  obtain ⟨_, _, rfl⟩ := Option.map_eq_some_iff.mp isSecond
  exact Nat.mul_lt_mul_of_pos_right order (by decide)

end Listing

section Dumping

variable {state : AddressSpaceManager} {root node : Nat} {dump : SparseScratchpad}

/-- A fold over the entries of a node: the invariant knows the entries that are done. -/
theorem ensures_foldEntries {Value : Type} {body : Value → Nat → Action AddressSpaceManager Value}
    {Invariant : List Nat → Value → AddressSpaceManager → Prop}
    {throws : Fault → AddressSpaceManager → Prop} {value : Value}
    (step : ∀ before index found current, index < 1024 → Invariant before found current →
      Ensures (body found index) current
        (fun found next => Invariant (before ++ [index]) found next) throws)
    (start : Invariant [] value state) :
    Ensures (entryIndices.foldlM body value) state
      (fun found next => Invariant (List.range 1024) found next) throws := by
  apply @ensures_foldlM _ _ _ _ _ _ _ Invariant (List.range 1024) [] entryIndices
    (List.nil_append _) ?_ _ start
  intro before index rest found current split kept
  have member : index ∈ List.range 1024 := by
    rw [← split]
    exact List.mem_append_right _ (List.mem_cons_self ..)
  exact step before index found current (List.mem_range.mp member) kept

theorem Shaped.leaves {current : AddressSpaceManager} (shaped : Shaped state.view root)
    (same : SameView state current) {index : Nat} (small : index < 1024)
    (valid : pteValid (entryAt state.view root index) = true) :
    ∀ slot < 1024,
      pteValid (entryAt current.view (ptePa (entryAt state.view root index)) slot) = true →
        pteIsLeaf (entryAt current.view (ptePa (entryAt state.view root index)) slot) = true := by
  intro slot slotSmall lower
  rw [same.view] at lower ⊢
  exact pteIsLeaf_of_readable (shaped.lower index small slot slotSmall valid lower)

/-- A node whose valid entries are leaves is dumped alone. -/
theorem dumpNode_spec (depth : Nat) (narrow : node + 4096 ≤ 2 ^ 32)
    (leaves : ∀ index < 1024, pteValid (entryAt state.view node index) = true →
      pteIsLeaf (entryAt state.view node index) = true) :
    Ensures (dumpPageTableInner (depth + 1) node dump) state
      (fun result next => result = dump.insert node (load state.view node PAGE_SIZE) ∧
        SameView state next)
      (fun _ _ => False) := by
  obtain ⟨read, ran, same⟩ := @readScratchpad_run state node PAGE_SIZE narrow
  rw [dumpPageTableInner]
  apply ensures_bind_of_run ran
  apply @ensures_foldEntries _ _ _
    (fun _ result next => result = dump.insert node (load state.view node PAGE_SIZE) ∧
      SameView state next) _ _ ?_ ⟨rfl, same⟩
  intro before index result current small kept
  have entry : pteIn (load state.view node PAGE_SIZE) index = entryAt state.view node index :=
    pteIn_load _ _ small
  simp only [entry]
  rw [if_neg (by simpa using leaves index small)]
  exact ensures_pure kept

structure DumpedUpTo (memory : Memory) (root : Nat) (visited : List Nat) (dump : SparseScratchpad) :
    Prop where
  nodes : ∀ entry ∈ dump, IsNode memory root entry.1 ∧ entry.2 = load memory entry.1 PAGE_SIZE
  rooted : root ∈ dump.map Prod.fst
  below : ∀ index ∈ visited, pteValid (entryAt memory root index) = true →
    ptePa (entryAt memory root index) ∈ dump.map Prod.fst

theorem DumpedUpTo.insert {memory : Memory} {visited : List Nat} {index : Nat}
    (dumped : DumpedUpTo memory root visited dump) (small : index < 1024)
    (valid : pteValid (entryAt memory root index) = true) :
    DumpedUpTo memory root (visited ++ [index])
      (dump.insert (ptePa (entryAt memory root index))
        (load memory (ptePa (entryAt memory root index)) PAGE_SIZE)) where
  nodes entry member := by
    cases mem_insert member with
    | inl same =>
        rw [same]
        exact ⟨Or.inr ⟨index, small, valid, rfl⟩, rfl⟩
    | inr before => exact dumped.nodes entry before
  rooted := key_insert dumped.rooted
  below other member otherValid := by
    cases List.mem_append.mp member with
    | inl before => exact key_insert (dumped.below other before otherValid)
    | inr last =>
        rw [List.mem_singleton.mp last]
        exact key_insert_self

theorem DumpedUpTo.skip {memory : Memory} {visited : List Nat} {index : Nat}
    (dumped : DumpedUpTo memory root visited dump)
    (invalid : pteValid (entryAt memory root index) = false) :
    DumpedUpTo memory root (visited ++ [index]) dump where
  nodes := dumped.nodes
  rooted := dumped.rooted
  below other member otherValid := by
    cases List.mem_append.mp member with
    | inl before => exact dumped.below other before otherValid
    | inr last =>
        rw [List.mem_singleton.mp last, invalid] at otherValid
        cases otherValid

theorem DumpedUpTo.whole {memory : Memory}
    (dumped : DumpedUpTo memory root (List.range 1024) dump) : Dumped memory root dump where
  nodes := dumped.nodes
  complete node isNode := by
    cases isNode with
    | inl isRoot =>
        rw [isRoot]
        exact dumped.rooted
    | inr below =>
        obtain ⟨index, small, valid, target⟩ := below
        rw [← target]
        exact dumped.below index (List.mem_range.mpr small) valid

theorem dumpPageTable_spec (shaped : Shaped state.view root) :
    Ensures (dumpPageTable root) state
      (fun dump next => Dumped state.view root dump ∧ SameView state next) (fun _ _ => False) := by
  have depth : dumpDepth = 1048574 + 1 + 1 := rfl
  obtain ⟨read, ran, same⟩ := @readScratchpad_run state root PAGE_SIZE shaped.narrow
  rw [dumpPageTable, depth, dumpPageTableInner]
  apply ensures_bind_of_run ran
  have start : DumpedUpTo state.view root []
      (SparseScratchpad.insert root (load state.view root PAGE_SIZE) []) := by
    refine ⟨?_, key_insert_self, fun _ member => by cases member⟩
    intro entry member
    cases mem_insert member with
    | inl here =>
        rw [here]
        exact ⟨Or.inl rfl, rfl⟩
    | inr impossible => cases impossible
  have loop := @ensures_foldEntries read SparseScratchpad
    (fun dump index =>
      if pteValid (pteIn (load state.view root PAGE_SIZE) index) &&
          !pteIsLeaf (pteIn (load state.view root PAGE_SIZE) index) then
        dumpPageTableInner (1048574 + 1) (ptePa (pteIn (load state.view root PAGE_SIZE) index)) dump
      else pure dump)
    (fun visited dump next => DumpedUpTo state.view root visited dump ∧ SameView state next)
    (fun _ _ => False) _ ?_ ⟨start, same⟩
  · apply loop.weaken
    · rintro dump next ⟨dumped, kept⟩
      exact ⟨dumped.whole, kept⟩
    · intro _ _ impossible
      exact impossible
  · rintro before index dump current small ⟨dumped, sameNow⟩
    have entry : pteIn (load state.view root PAGE_SIZE) index = entryAt state.view root index :=
      pteIn_load _ _ small
    simp only [entry]
    cases valid : pteValid (entryAt state.view root index) with
    | false =>
        rw [Bool.false_and, if_neg Bool.false_ne_true]
        exact ensures_pure ⟨dumped.skip valid, sameNow⟩
    | true =>
        rw [shaped.upper index small valid, Bool.not_false, Bool.and_true, if_pos rfl]
        have below := @dumpNode_spec current (ptePa (entryAt state.view root index)) dump 1048574
          (ptePa_lt _) (shaped.leaves sameNow small valid)
        apply below.weaken
        · rintro result next ⟨resultIs, sameNext⟩
          rw [resultIs, sameNow.view]
          exact ⟨dumped.insert small valid, sameNow.trans sameNext⟩
        · intro _ _ impossible
          exact impossible

/-- The address of a page is put together from the indices on the way to its entry. -/
theorem listed_address {index slot : Nat} (small : index < 1024) (slotSmall : slot < 1024) :
    (0 ||| wrap32 (index <<< (2 + (1 + 1) * VPN_BITS))) |||
        wrap32 (slot <<< (2 + (0 + 1) * VPN_BITS)) = (index * 1024 + slot) * 4096 := by
  have upperShift : 2 + (1 + 1) * VPN_BITS = 22 := rfl
  have lowerShift : 2 + (0 + 1) * VPN_BITS = 12 := rfl
  have low : slot <<< 12 < 2 ^ 22 := by
    rw [Nat.shiftLeft_eq]
    omega
  rw [upperShift, lowerShift, Nat.zero_or, wrap32_of_lt (by rw [Nat.shiftLeft_eq]; omega),
    wrap32_of_lt (low.trans (by decide)), ← Nat.shiftLeft_add_eq_or_of_lt low, Nat.shiftLeft_eq,
    Nat.shiftLeft_eq]
  omega

theorem dumpNodeMapping_spec {index : Nat} (small : index < 1024) (mapping : List (Nat × Nat))
    (narrow : node + 4096 ≤ 2 ^ 32)
    (leaves : ∀ slot < 1024, pteValid (entryAt state.view node slot) = true →
      pteIsLeaf (entryAt state.view node slot) = true) :
    Ensures (dumpAddressMappingInner (0 + 1 + 1) node
        (0 ||| wrap32 (index <<< (2 + (1 + 1) * VPN_BITS))) mapping) state
      (fun result next => result = mapping ++
          nodeListing state.view node (index * 1024) (List.range 1024) ∧ SameView state next)
      (fun _ _ => False) := by
  obtain ⟨read, ran, same⟩ := @readScratchpad_run state node PAGE_SIZE narrow
  rw [dumpAddressMappingInner]
  apply ensures_bind_of_run ran
  apply @ensures_foldEntries _ _ _
    (fun visited result next => result = mapping ++
      nodeListing state.view node (index * 1024) visited ∧ SameView state next) _ _ ?_
    ⟨(List.append_nil _).symm, same⟩
  rintro before slot found current slotSmall ⟨listed, kept⟩
  have entry : pteIn (load state.view node PAGE_SIZE) slot = entryAt state.view node slot :=
    pteIn_load _ _ slotSmall
  simp only [entry]
  rw [nodeListing, List.filterMap_append, ← List.append_assoc, ← nodeListing, ← listed]
  cases valid : pteValid (entryAt state.view node slot) with
  | false =>
      refine ensures_pure ⟨?_, kept⟩
      simp [valid]
  | true =>
      rw [if_pos rfl, if_pos (leaves slot slotSmall valid), listed_address small slotSmall]
      refine ensures_pure ⟨?_, kept⟩
      simp [valid]

theorem dumpAddressMapping_spec (shaped : Shaped state.view root) :
    Ensures (dumpAddressMapping root) state
      (fun result next => result = pageListing state.view root ∧ SameView state next)
      (fun _ _ => False) := by
  have levels : PT_LEVELS + 1 = 0 + 1 + 1 + 1 := rfl
  obtain ⟨read, ran, same⟩ := @readScratchpad_run state root PAGE_SIZE shaped.narrow
  rw [dumpAddressMapping, levels, dumpAddressMappingInner]
  apply ensures_bind_of_run ran
  rw [pageListing_nodes]
  apply @ensures_foldEntries _ _ _
    (fun visited result next => result = (visited.flatMap fun index =>
      if pteValid (entryAt state.view root index) then
        nodeListing state.view (ptePa (entryAt state.view root index)) (index * 1024)
          (List.range 1024)
      else []) ∧ SameView state next) _ _ ?_ ⟨rfl, same⟩
  rintro before index found current small ⟨listed, kept⟩
  have entry : pteIn (load state.view root PAGE_SIZE) index = entryAt state.view root index :=
    pteIn_load _ _ small
  simp only [entry]
  rw [List.flatMap_append, ← listed, List.flatMap_singleton]
  cases valid : pteValid (entryAt state.view root index) with
  | false => exact ensures_pure ⟨(List.append_nil _).symm, kept⟩
  | true =>
      rw [if_pos rfl, shaped.upper index small valid, if_neg Bool.false_ne_true, if_pos rfl]
      have below := @dumpNodeMapping_spec current (ptePa (entryAt state.view root index)) index small
        found (ptePa_lt _) (shaped.leaves kept small valid)
      apply below.weaken
      · rintro result next ⟨resultIs, sameNext⟩
        rw [resultIs, kept.view]
        exact ⟨rfl, kept.trans sameNext⟩
      · intro _ _ impossible
        exact impossible

theorem dumpAddressMapping_reads (shaped : Shaped state.view root) :
    Ensures (dumpAddressMapping root) state (fun _ next => SameView state next)
      (fun _ _ => False) := by
  apply (dumpAddressMapping_spec shaped).weaken
  · intro _ next outcome
    exact outcome.2
  · intro _ _ impossible
    exact impossible

end Dumping

end Espiral.AddressSpaceManager
