import Espiral.Mm.Walk

/-!
# Nodes of live tables

Which frames live tables use as nodes, whoever handed them out and whatever
their leaves point to. While no frame is used twice, a mapping changes no valid
entry of a live table: it links a zeroed node under an invalid entry, and it
fills an invalid entry of a node.
-/

namespace Espiral.AddressSpaceManager

set_option autoImplicit false

open ByteMemory MachineWords

inductive NodeAt (state : AddressSpaceManager) : Nat → Role → Prop
  | root {root : Nat} (isLive : state.Live root) : NodeAt state root (.root root)
  | node {root index : Nat} (isLive : state.Live root) (small : index < 1024)
      (valid : pteValid (entryAt state.view root index) = true) :
      NodeAt state (ptePa (entryAt state.view root index)) (.node root index)

def Unlinked (state : AddressSpaceManager) (frame : Nat) : Prop := ∀ role, ¬NodeAt state frame role

/-- Live tables are two levels of nodes that are pairwise different frames. -/
structure Separated (state : AddressSpaceManager) : Prop where
  aligned : ∀ root, state.Live root → 4096 ∣ root ∧ root < 2 ^ 32
  unique : ∀ frame first second, NodeAt state frame first → NodeAt state frame second →
    first = second
  pointers : ∀ root index, state.Live root → index < 1024 →
    pteValid (entryAt state.view root index) = true →
    pteIsLeaf (entryAt state.view root index) = false
  leaves : ∀ root index slot, state.Live root → index < 1024 → slot < 1024 →
    pteValid (entryAt state.view root index) = true →
    pteValid (entryAt state.view (ptePa (entryAt state.view root index)) slot) = true →
    pteReadable (entryAt state.view (ptePa (entryAt state.view root index)) slot) = true

structure EntriesKept (state next : AddressSpaceManager) : Prop where
  live : ∀ root, state.Live root → next.Live root
  upper : ∀ root index, state.Live root → index < 1024 →
    pteValid (entryAt state.view root index) = true →
    entryAt next.view root index = entryAt state.view root index
  lower : ∀ root index slot, state.Live root → index < 1024 → slot < 1024 →
    pteValid (entryAt state.view root index) = true →
    pteValid (entryAt state.view (ptePa (entryAt state.view root index)) slot) = true →
    entryAt next.view (ptePa (entryAt state.view root index)) slot =
      entryAt state.view (ptePa (entryAt state.view root index)) slot

section Entries

variable {first second third state next : AddressSpaceManager} {frame root index slot : Nat}

theorem EntriesKept.refl (state : AddressSpaceManager) : EntriesKept state state :=
  ⟨fun _ isLive => isLive, fun _ _ _ _ _ => rfl, fun _ _ _ _ _ _ _ _ => rfl⟩

theorem EntriesKept.trans (left : EntriesKept first second) (right : EntriesKept second third) :
    EntriesKept first third where
  live root isLive := right.live root (left.live root isLive)
  upper root index isLive small valid := by
    have kept := left.upper root index isLive small valid
    rw [right.upper root index (left.live root isLive) small (by rw [kept]; exact valid), kept]
  lower root index slot isLive small slotSmall upper lower := by
    have keptUpper := left.upper root index isLive small upper
    have keptLower := left.lower root index slot isLive small slotSmall upper lower
    have later := right.lower root index slot (left.live root isLive) small slotSmall
    rw [keptUpper, keptLower] at later
    exact later upper lower

theorem EntriesKept.of_same (history : next.history = state.history) (view : next.view = state.view) :
    EntriesKept state next where
  live root isLive := by
    rw [Live, history]
    exact isLive
  upper root index _ _ _ := by rw [view]
  lower root index slot _ _ _ _ _ := by rw [view]

theorem NodeAt.aligned (separated : Separated state) {role : Role}
    (node : NodeAt state frame role) : 4096 ∣ frame ∧ frame + 4096 ≤ 2 ^ 32 := by
  cases node with
  | root isLive =>
      have bounds := separated.aligned _ isLive
      exact ⟨bounds.1, by omega⟩
  | node isLive small valid => exact ⟨ptePa_aligned _, ptePa_lt _⟩

/-- What is stored in one node leaves the entries of the others alone. -/
theorem Separated.entry_other (separated : Separated state) {role otherRole : Role} {other : Nat}
    (node : NodeAt state frame role) (otherNode : NodeAt state other otherRole)
    (different : role ≠ otherRole) {addr : Nat} {bytes : List UInt8} (low : other ≤ addr)
    (high : addr + bytes.length ≤ other + 4096) (slotSmall : slot < 1024) :
    entryAt (store state.view addr bytes) frame slot = entryAt state.view frame slot := by
  apply entryAt_store_other (node.aligned separated).1 (otherNode.aligned separated).1 ?_ low high
    slotSmall
  intro same
  rw [← same] at otherNode
  exact different (separated.unique frame _ _ node otherNode)

theorem Separated.unique_added (separated : Separated state) (unlinked : Unlinked state frame)
    {added : Role} (before : ∀ {other : Nat} {role : Role}, NodeAt next other role →
      NodeAt state other role ∨ other = frame ∧ role = added)
    {other : Nat} {left right : Role} (leftNow : NodeAt next other left)
    (rightNow : NodeAt next other right) : left = right := by
  cases before leftNow with
  | inl oldLeft =>
      cases before rightNow with
      | inl oldRight => exact separated.unique other left right oldLeft oldRight
      | inr newRight =>
          rw [newRight.1] at oldLeft
          exact absurd oldLeft (unlinked left)
  | inr newLeft =>
      cases before rightNow with
      | inl oldRight =>
          rw [newLeft.1] at oldRight
          exact absurd oldRight (unlinked right)
      | inr newRight => rw [newLeft.2, newRight.2]

end Entries

section Linking

variable {state next : AddressSpaceManager} {root index node : Nat}
  (separated : Separated state) (isLive : state.Live root) (small : index < 1024)
  (missing : pteValid (entryAt state.view root index) = false) (unlinked : Unlinked state node)
  (aligned : 4096 ∣ node) (narrow : node < 2 ^ 32) (history : next.history = state.history)
  (written : next.view = store (store state.view node (List.replicate 4096 0))
    (root + index * 4) (littleEndian 4 (makePte node PteFlags.V)))

include separated isLive small unlinked aligned narrow written

theorem linked_entry {frame slot : Nat} {role : Role} (has : NodeAt state frame role)
    (slotSmall : slot < 1024) :
    entryAt next.view frame slot =
      if frame = root ∧ slot = index then makePte node PteFlags.V
      else entryAt state.view frame slot := by
  have different : frame ≠ node := by
    intro same
    rw [same] at has
    exact unlinked role has
  rw [written, entryAt_link (has.aligned separated).1 aligned (separated.aligned root isLive).1 small
    (makePte_lt narrow) slotSmall, if_neg different]

theorem linked_fresh {slot : Nat} (slotSmall : slot < 1024) : entryAt next.view node slot = 0 := by
  have notRoot : node ≠ root := by
    intro same
    rw [same] at unlinked
    exact unlinked _ (NodeAt.root isLive)
  rw [written, entryAt_link aligned aligned (separated.aligned root isLive).1 small
    (makePte_lt narrow) slotSmall, if_neg (fun both => notRoot both.1), if_pos rfl]

theorem linked_below {table position slot : Nat} (tableLive : state.Live table)
    (positionSmall : position < 1024) (valid : pteValid (entryAt state.view table position) = true)
    (slotSmall : slot < 1024) :
    entryAt next.view (ptePa (entryAt state.view table position)) slot =
      entryAt state.view (ptePa (entryAt state.view table position)) slot := by
  have has := NodeAt.node tableLive positionSmall valid
  rw [linked_entry separated isLive small unlinked aligned narrow written has slotSmall, if_neg]
  intro here
  rw [here.1] at has
  have impossible := separated.unique root _ _ (NodeAt.root isLive) has
  cases impossible

include history

theorem linked_before {frame : Nat} {role : Role} (has : NodeAt next frame role) :
    NodeAt state frame role ∨ frame = node ∧ role = .node root index := by
  have live : ∀ table, next.Live table ↔ state.Live table := by
    intro table
    rw [Live, Live, history]
  cases has with
  | root tableLive => exact Or.inl (NodeAt.root ((live _).mp tableLive))
  | @node table position tableLive positionSmall valid =>
      have tableWasLive := (live _).mp tableLive
      rw [linked_entry separated isLive small unlinked aligned narrow written
        (NodeAt.root tableWasLive) positionSmall] at valid ⊢
      by_cases here : table = root ∧ position = index
      · rw [if_pos here, here.1, here.2, ptePa_makePte narrow, frameOf_of_aligned aligned]
        exact Or.inr ⟨rfl, rfl⟩
      · rw [if_neg here] at valid ⊢
        exact Or.inl (NodeAt.node tableWasLive positionSmall valid)

include missing

theorem Separated.link : Separated next ∧ EntriesKept state next := by
  have live : ∀ table, next.Live table ↔ state.Live table := by
    intro table
    rw [Live, Live, history]
  have target : ptePa (makePte node PteFlags.V) = node := by
    rw [ptePa_makePte narrow, frameOf_of_aligned aligned]
  have entry : ∀ {frame slot : Nat} {role : Role}, NodeAt state frame role → slot < 1024 →
      entryAt next.view frame slot =
        if frame = root ∧ slot = index then makePte node PteFlags.V
        else entryAt state.view frame slot := fun has slotSmall =>
    linked_entry separated isLive small unlinked aligned narrow written has slotSmall
  have fresh : ∀ {slot : Nat}, slot < 1024 → entryAt next.view node slot = 0 := fun slotSmall =>
    linked_fresh separated isLive small unlinked aligned narrow written slotSmall
  have below : ∀ {table position slot : Nat}, state.Live table → position < 1024 →
      pteValid (entryAt state.view table position) = true → slot < 1024 →
      entryAt next.view (ptePa (entryAt state.view table position)) slot =
        entryAt state.view (ptePa (entryAt state.view table position)) slot :=
    fun tableLive positionSmall valid slotSmall =>
      linked_below separated isLive small unlinked aligned narrow written tableLive positionSmall
        valid slotSmall
  have before : ∀ {frame : Nat} {role : Role}, NodeAt next frame role →
      NodeAt state frame role ∨ frame = node ∧ role = .node root index := fun has =>
    linked_before separated isLive small unlinked aligned narrow history written has
  constructor
  · constructor
    · intro table tableLive
      exact separated.aligned table ((live table).mp tableLive)
    · intro frame first second
      exact separated.unique_added unlinked before
    · intro table position tableLive positionSmall
      have tableWasLive := (live table).mp tableLive
      rw [entry (NodeAt.root tableWasLive) positionSmall]
      by_cases here : table = root ∧ position = index
      · intro _
        rw [if_pos here]
        exact (node_pte node).2
      · rw [if_neg here]
        exact separated.pointers table position tableWasLive positionSmall
    · intro table position slot tableLive positionSmall slotSmall
      have tableWasLive := (live table).mp tableLive
      rw [entry (NodeAt.root tableWasLive) positionSmall]
      by_cases here : table = root ∧ position = index
      · rw [if_pos here, target, fresh slotSmall]
        intro _ impossible
        rw [pteValid_zero] at impossible
        cases impossible
      · rw [if_neg here]
        intro upper
        rw [below tableWasLive positionSmall upper slotSmall]
        exact separated.leaves table position slot tableWasLive positionSmall slotSmall upper
  · constructor
    · intro table tableLive
      exact (live table).mpr tableLive
    · intro table position tableLive positionSmall valid
      rw [entry (NodeAt.root tableLive) positionSmall, if_neg]
      intro here
      rw [here.1, here.2, missing] at valid
      cases valid
    · intro table position slot tableLive positionSmall slotSmall upper _
      exact below tableLive positionSmall upper slotSmall

end Linking

section Filling

variable {state next : AddressSpaceManager} {root index slot pte : Nat}
  (separated : Separated state) (isLive : state.Live root) (small : index < 1024)
  (slotSmall : slot < 1024) (upper : pteValid (entryAt state.view root index) = true)
  (bound : pte < 2 ^ 32)
  (history : ∀ table, next.Live table ↔ state.Live table)
  (written : next.view = store state.view (ptePa (entryAt state.view root index) + slot * 4)
    (littleEndian 4 pte))

include separated isLive small slotSmall upper bound written

theorem filled_entry {frame position : Nat} {role : Role} (has : NodeAt state frame role)
    (positionSmall : position < 1024) :
    entryAt next.view frame position =
      if role = .node root index ∧ position = slot then pte else entryAt state.view frame position := by
  have node := NodeAt.node isLive small upper
  rw [written]
  by_cases here : role = .node root index
  · rw [here] at has
    have same : frame = ptePa (entryAt state.view root index) := by
      cases has with
      | node _ _ _ => rfl
    rw [same, entryAt_store_entry bound, here]
    simp
  · rw [separated.entry_other has node here (Nat.le_add_right _ _)
      (by rw [littleEndian_length]; omega) positionSmall, if_neg (fun both => here both.1)]

include history

theorem Separated.fill (readable : pteReadable pte = true)
    (missing : pteValid (entryAt state.view (ptePa (entryAt state.view root index)) slot) = false) :
    Separated next ∧ EntriesKept state next := by
  have entry : ∀ {frame position : Nat} {role : Role}, NodeAt state frame role →
      position < 1024 → entryAt next.view frame position =
        if role = .node root index ∧ position = slot then pte
        else entryAt state.view frame position := fun has positionSmall =>
    filled_entry separated isLive small slotSmall upper bound written has positionSmall
  have rootEntry : ∀ {table position : Nat}, state.Live table → position < 1024 →
      entryAt next.view table position = entryAt state.view table position := by
    intro table position tableLive positionSmall
    rw [entry (NodeAt.root tableLive) positionSmall, if_neg]
    intro here
    cases here.1
  have before : ∀ {frame : Nat} {role : Role}, NodeAt next frame role → NodeAt state frame role := by
    intro frame role has
    cases has with
    | root tableLive => exact NodeAt.root ((history _).mp tableLive)
    | node tableLive positionSmall valid =>
        have tableWasLive := (history _).mp tableLive
        rw [rootEntry tableWasLive positionSmall] at valid ⊢
        exact NodeAt.node tableWasLive positionSmall valid
  constructor
  · constructor
    · intro table tableLive
      exact separated.aligned table ((history table).mp tableLive)
    · intro frame first second left right
      exact separated.unique frame first second (before left) (before right)
    · intro table position tableLive positionSmall
      rw [rootEntry ((history table).mp tableLive) positionSmall]
      exact separated.pointers table position ((history table).mp tableLive) positionSmall
    · intro table position other tableLive positionSmall otherSmall
      have tableWasLive := (history table).mp tableLive
      rw [rootEntry tableWasLive positionSmall]
      intro valid
      rw [entry (NodeAt.node tableWasLive positionSmall valid) otherSmall]
      by_cases here : Role.node table position = .node root index ∧ other = slot
      · rw [if_pos here]
        intro _
        exact readable
      · rw [if_neg here]
        exact separated.leaves table position other tableWasLive positionSmall otherSmall valid
  · constructor
    · intro table tableLive
      exact (history table).mpr tableLive
    · intro table position tableLive positionSmall _
      exact rootEntry tableLive positionSmall
    · intro table position other tableLive positionSmall otherSmall valid lower
      rw [entry (NodeAt.node tableLive positionSmall valid) otherSmall, if_neg]
      intro here
      cases here.1
      rw [here.2, missing] at lower
      cases lower

end Filling

section Roots

variable {state next : AddressSpaceManager} {root : Nat}

theorem Separated.start (separated : Separated state) (unlinked : Unlinked state root)
    (aligned : 4096 ∣ root) (narrow : root < 2 ^ 32)
    (history : next.history = .created root :: state.history)
    (written : next.view = store state.view root (List.replicate 4096 0)) :
    Separated next ∧ EntriesKept state next := by
  have live := live_created history
  have old : ∀ {frame slot : Nat} {role : Role}, NodeAt state frame role → slot < 1024 →
      entryAt next.view frame slot = entryAt state.view frame slot := by
    intro frame slot role has slotSmall
    have different : frame ≠ root := by
      intro same
      rw [same] at has
      exact unlinked role has
    rw [written, entryAt_store_node (has.aligned separated).1 aligned slotSmall, if_neg different]
  have fresh : ∀ {slot : Nat}, slot < 1024 → pteValid (entryAt next.view root slot) = false := by
    intro slot slotSmall
    rw [written, entryAt_store_zeros slotSmall, pteValid_zero]
  have wasLive : ∀ {table position : Nat}, next.Live table → position < 1024 →
      pteValid (entryAt next.view table position) = true → state.Live table := by
    intro table position tableLive positionSmall valid
    cases (live table).mp tableLive with
    | inl same =>
        rw [same, fresh positionSmall] at valid
        cases valid
    | inr before => exact before
  have before : ∀ {frame : Nat} {role : Role}, NodeAt next frame role →
      NodeAt state frame role ∨ frame = root ∧ role = .root root := by
    intro frame role has
    cases has with
    | root tableLive =>
        cases (live _).mp tableLive with
        | inl same => exact Or.inr ⟨same, by rw [same]⟩
        | inr tableWasLive => exact Or.inl (NodeAt.root tableWasLive)
    | node tableLive positionSmall valid =>
        have tableWasLive := wasLive tableLive positionSmall valid
        rw [old (NodeAt.root tableWasLive) positionSmall] at valid ⊢
        exact Or.inl (NodeAt.node tableWasLive positionSmall valid)
  constructor
  · constructor
    · intro table tableLive
      cases (live table).mp tableLive with
      | inl same =>
          rw [same]
          exact ⟨aligned, narrow⟩
      | inr tableWasLive => exact separated.aligned table tableWasLive
    · intro frame first second
      exact separated.unique_added unlinked before
    · intro table position tableLive positionSmall valid
      have tableWasLive := wasLive tableLive positionSmall valid
      rw [old (NodeAt.root tableWasLive) positionSmall] at valid ⊢
      exact separated.pointers table position tableWasLive positionSmall valid
    · intro table position slot tableLive positionSmall slotSmall valid
      have tableWasLive := wasLive tableLive positionSmall valid
      rw [old (NodeAt.root tableWasLive) positionSmall] at valid ⊢
      rw [old (NodeAt.node tableWasLive positionSmall valid) slotSmall]
      exact separated.leaves table position slot tableWasLive positionSmall slotSmall valid
  · constructor
    · intro table tableLive
      exact (live table).mpr (Or.inr tableLive)
    · intro table position tableLive positionSmall _
      exact old (NodeAt.root tableLive) positionSmall
    · intro table position slot tableLive positionSmall slotSmall valid _
      exact old (NodeAt.node tableLive positionSmall valid) slotSmall

theorem Separated.forget (separated : Separated state)
    (live : ∀ table, next.Live table → state.Live table) (view : next.view = state.view) :
    Separated next := by
  have before : ∀ {frame : Nat} {role : Role}, NodeAt next frame role → NodeAt state frame role := by
    intro frame role has
    cases has with
    | root tableLive => exact NodeAt.root (live _ tableLive)
    | node tableLive positionSmall valid =>
        rw [view] at valid ⊢
        exact NodeAt.node (live _ tableLive) positionSmall valid
  constructor
  · intro table tableLive
    exact separated.aligned table (live table tableLive)
  · intro frame first second left right
    exact separated.unique frame first second (before left) (before right)
  · intro table position tableLive
    rw [view]
    exact separated.pointers table position (live table tableLive)
  · intro table position slot tableLive
    rw [view]
    exact separated.leaves table position slot (live table tableLive)

theorem Separated.of_same (separated : Separated state) (history : next.history = state.history)
    (view : next.view = state.view) : Separated next := by
  apply separated.forget ?_ view
  intro table tableLive
  rw [Live, ← history]
  exact tableLive

end Roots

end Espiral.AddressSpaceManager
