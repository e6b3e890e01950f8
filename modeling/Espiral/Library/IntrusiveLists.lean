import Mathlib.Data.List.Basic
import Mathlib.Data.List.Nodup
import Mathlib.Logic.Function.Basic

/-!
# Intrusive doubly linked lists

Nodes live in a store addressed by pointers. One node may carry several pairs
of link fields, so a list is described by a `Link`: the accessors of one pair
together with the laws saying that they are independent fields. The pointer
edits below are the usual ones (unlink, push at the head, insert before the
first node that fails a test); each comes with the list it represents
afterwards and with the fields it leaves alone.
-/

namespace IntrusiveLists

set_option autoImplicit false

abbrev Ptr := Nat

abbrev Store (Node : Type*) := Ptr → Node

structure Link (Node : Type*) where
  next : Node → Option Ptr
  prev : Node → Option Ptr
  setNext : Option Ptr → Node → Node
  setPrev : Option Ptr → Node → Node
  next_setNext : ∀ target node, next (setNext target node) = target
  next_setPrev : ∀ target node, next (setPrev target node) = next node
  prev_setPrev : ∀ target node, prev (setPrev target node) = target
  prev_setNext : ∀ target node, prev (setNext target node) = prev node

attribute [simp] Link.next_setNext Link.next_setPrev Link.prev_setPrev Link.prev_setNext

variable {Node : Type*}

def Store.modify (store : Store Node) (ptr : Ptr) (update : Node → Node) : Store Node :=
  Function.update store ptr (update (store ptr))

@[simp] theorem modify_same (store : Store Node) (ptr : Ptr) (update : Node → Node) :
    store.modify ptr update ptr = update (store ptr) := by
  simp [Store.modify]

theorem modify_other (store : Store Node) {ptr other : Ptr} (update : Node → Node)
    (different : other ≠ ptr) : store.modify ptr update other = store other := by
  simp [Store.modify, different]

/-- Points the successor field of `prev`, or the list head when there is no
predecessor, at `target`. -/
def setNextOrHead (link : Link Node) (store : Store Node) (head prev target : Option Ptr) :
    Store Node × Option Ptr :=
  match prev with
  | some ptr => (store.modify ptr (link.setNext target), head)
  | none => (store, target)

def setPrevIf (link : Link Node) (store : Store Node) (node target : Option Ptr) : Store Node :=
  match node with
  | some ptr => store.modify ptr (link.setPrev target)
  | none => store

def detach (link : Link Node) (node : Node) : Node :=
  link.setPrev none (link.setNext none node)

def unlink (link : Link Node) (store : Store Node) (head : Option Ptr) (ptr : Ptr) :
    Store Node × Option Ptr :=
  let (bridged, newHead) :=
    setNextOrHead link store head (link.prev (store ptr)) (link.next (store ptr))
  let joined := setPrevIf link bridged (link.next (bridged ptr)) (link.prev (bridged ptr))
  (joined.modify ptr (detach link), newHead)

/-- Pushes at the head; the predecessor field of the new node is not written. -/
def pushFront (link : Link Node) (store : Store Node) (head : Option Ptr) (ptr : Ptr) :
    Store Node × Option Ptr :=
  (setPrevIf link (store.modify ptr (link.setNext head)) head (some ptr), some ptr)

def walk (link : Link Node) (store : Store Node) (before : Node → Bool) :
    Nat → Option Ptr → Option Ptr → Option Ptr × Option Ptr
  | 0, prev, curr => (prev, curr)
  | _ + 1, prev, none => (prev, none)
  | fuel + 1, prev, some curr =>
      if before (store curr) then
        walk link store before fuel (some curr) (link.next (store curr))
      else (prev, some curr)

def collect (link : Link Node) (store : Store Node) : Nat → Option Ptr → List Ptr
  | 0, _ => []
  | _ + 1, none => []
  | fuel + 1, some curr => curr :: collect link store fuel (link.next (store curr))

def insertBetween (link : Link Node) (store : Store Node) (head : Option Ptr) (ptr : Ptr)
    (prev curr : Option Ptr) : Store Node × Option Ptr :=
  let placed := store.modify ptr fun node => link.setPrev prev (link.setNext curr node)
  let (bridged, newHead) := setNextOrHead link placed head prev (some ptr)
  (setPrevIf link bridged curr (some ptr), newHead)

def insertWhere (link : Link Node) (store : Store Node) (head : Option Ptr)
    (before : Node → Bool) (fuel : Nat) (ptr : Ptr) : Store Node × Option Ptr :=
  let (prev, curr) := walk link store before fuel none head
  insertBetween link store head ptr prev curr

/-- Drops the successor of `ptr`, known to be `next`, without touching the
dropped node's own fields. -/
def dropNext (link : Link Node) (store : Store Node) (ptr next : Ptr) : Store Node :=
  let skipped := store.modify ptr (link.setNext (link.next (store next)))
  setPrevIf link skipped (link.next (skipped ptr)) (some ptr)

/-- The nodes of `members` are chained from `first`, whose predecessor is
`prev`, and the chain leaves through `after`. -/
def Segment (link : Link Node) (store : Store Node) :
    Option Ptr → Option Ptr → List Ptr → Option Ptr → Prop
  | _, first, [], after => first = after
  | prev, first, ptr :: rest, after =>
      first = some ptr ∧ link.prev (store ptr) = prev ∧
        Segment link store (some ptr) (link.next (store ptr)) rest after

def lastOr : Option Ptr → List Ptr → Option Ptr
  | prev, [] => prev
  | _, ptr :: rest => lastOr (some ptr) rest

/-- `head` is a finite, acyclic, consistently linked list with these members. -/
structure IsList (link : Link Node) (store : Store Node) (head : Option Ptr)
    (members : List Ptr) : Prop where
  chain : Segment link store none head members none
  nodup : members.Nodup

section Segments

variable {link : Link Node} {store changed : Store Node}

theorem segment_append (prev first : Option Ptr) (left right : List Ptr) (after : Option Ptr) :
    Segment link store prev first (left ++ right) after ↔
      ∃ middle, Segment link store prev first left middle ∧
        Segment link store (lastOr prev left) middle right after := by
  induction left generalizing prev first with
  | nil => simp [Segment, lastOr]
  | cons ptr rest ih =>
      simp only [List.cons_append, Segment, lastOr, ih]
      constructor
      · rintro ⟨start, back, middle, here, there⟩
        exact ⟨middle, ⟨start, back, here⟩, there⟩
      · rintro ⟨middle, ⟨start, back, here⟩, there⟩
        exact ⟨start, back, middle, here, there⟩

theorem segment_congr {prev first after : Option Ptr} {members : List Ptr}
    (same : ∀ ptr ∈ members, link.next (changed ptr) = link.next (store ptr) ∧
      link.prev (changed ptr) = link.prev (store ptr))
    (chain : Segment link store prev first members after) :
    Segment link changed prev first members after := by
  induction members generalizing prev first with
  | nil => exact chain
  | cons ptr rest ih =>
      obtain ⟨start, back, tail⟩ := chain
      have here := same ptr (by simp)
      refine ⟨start, here.2.trans back, ?_⟩
      rw [here.1]
      exact ih (fun other member => same other (by simp [member])) tail

theorem segment_modify_outside {prev first after : Option Ptr} {members : List Ptr}
    {ptr : Ptr} (update : Node → Node) (outside : ptr ∉ members)
    (chain : Segment link store prev first members after) :
    Segment link (store.modify ptr update) prev first members after := by
  refine segment_congr (fun other member => ?_) chain
  have different : other ≠ ptr := fun same => outside (same ▸ member)
  simp [modify_other store update different]

theorem isList_modify_outside {head : Option Ptr} {members : List Ptr} {ptr : Ptr}
    (update : Node → Node) (outside : ptr ∉ members) (list : IsList link store head members) :
    IsList link (store.modify ptr update) head members :=
  ⟨segment_modify_outside update outside list.chain, list.nodup⟩

theorem segment_first_nil {prev first after : Option Ptr}
    (chain : Segment link store prev first [] after) : first = after := chain

theorem lastOr_append (prev : Option Ptr) (left : List Ptr) (ptr : Ptr) :
    lastOr prev (left ++ [ptr]) = some ptr := by
  induction left generalizing prev with
  | nil => rfl
  | cons head rest ih => simpa [lastOr] using ih (some head)

theorem lastOr_mem {prev : Option Ptr} {left : List Ptr} {ptr : Ptr}
    (last : lastOr prev left = some ptr) : prev = some ptr ∨ ptr ∈ left := by
  induction left generalizing prev with
  | nil => exact Or.inl last
  | cons head rest ih =>
      rcases ih last with here | there
      · exact Or.inr (by simp [Option.some.inj here])
      · exact Or.inr (by simp [there])

theorem segment_redirect_last {head after : Option Ptr} {left : List Ptr}
    (nodup : left.Nodup) (chain : Segment link store none head left after)
    (target : Option Ptr) :
    Segment link (setNextOrHead link store head (lastOr none left) target).1 none
      (setNextOrHead link store head (lastOr none left) target).2 left target := by
  rcases List.eq_nil_or_concat left with empty | ⟨front, last, split⟩
  · subst empty
    simp [setNextOrHead, lastOr, Segment]
  · rw [List.concat_eq_append] at split
    subst split
    rw [lastOr_append]
    simp only [setNextOrHead]
    rw [segment_append] at chain ⊢
    obtain ⟨middle, before, lastStart, lastBack, _⟩ := chain
    have outside : last ∉ front := by
      have apart := List.nodup_append.mp nodup
      intro member
      exact apart.2.2 last member last (by simp) rfl
    refine ⟨middle, segment_modify_outside _ outside before, lastStart, ?_, ?_⟩
    · simpa using lastBack
    · simp [Segment]

theorem segment_reback_first {prev first : Option Ptr} {right : List Ptr}
    (nodup : right.Nodup) (chain : Segment link store prev first right none)
    (target : Option Ptr) :
    Segment link (setPrevIf link store first target) target first right none := by
  cases right with
  | nil =>
      have empty : first = none := chain
      subst empty
      rfl
  | cons ptr rest =>
      obtain ⟨start, _, tail⟩ := chain
      subst start
      have outside : ptr ∉ rest := (List.nodup_cons.mp nodup).1
      refine ⟨rfl, ?_, ?_⟩
      · simp [setPrevIf]
      · simp only [setPrevIf, modify_same, Link.next_setPrev]
        exact segment_modify_outside _ outside tail

theorem segment_first_mem {prev first : Option Ptr} {members : List Ptr} {ptr : Ptr}
    (chain : Segment link store prev first members none) (start : first = some ptr) :
    ptr ∈ members := by
  cases members with
  | nil => simp [Segment, start] at chain
  | cons head rest =>
      have same : ptr = head := Option.some.inj (start.symm.trans chain.1)
      simp [same]

theorem segment_first_head {prev first : Option Ptr} {members : List Ptr}
    (chain : Segment link store prev first members none) : first = members.head? := by
  cases members with
  | nil => exact chain
  | cons head rest => exact chain.1

end Segments

section Frames

variable {link : Link Node}

theorem setNextOrHead_other (store : Store Node) (head target : Option Ptr) {prev : Option Ptr}
    {other : Ptr} (different : prev ≠ some other) :
    (setNextOrHead link store head prev target).1 other = store other := by
  cases prev with
  | none => rfl
  | some ptr => exact modify_other _ _ (fun same => different (by rw [same]))

theorem setPrevIf_other (store : Store Node) (target : Option Ptr) {node : Option Ptr}
    {other : Ptr} (different : node ≠ some other) :
    setPrevIf link store node target other = store other := by
  cases node with
  | none => rfl
  | some ptr => exact modify_other _ _ (fun same => different (by rw [same]))

/-- A field of the node that neither link setter writes. -/
structure Independent (link : Link Node) {Field : Type*} (field : Node → Field) : Prop where
  setNext : ∀ target node, field (link.setNext target node) = field node
  setPrev : ∀ target node, field (link.setPrev target node) = field node

variable {Field : Type*} {field : Node → Field}

theorem modify_field (store : Store Node) (ptr other : Ptr) {update : Node → Node}
    (same : ∀ node, field (update node) = field node) :
    field (store.modify ptr update other) = field (store other) := by
  by_cases equal : other = ptr
  · subst equal
    simp [same]
  · rw [modify_other _ _ equal]

theorem setNextOrHead_field (independent : Independent link field) (store : Store Node)
    (head prev target : Option Ptr) (other : Ptr) :
    field ((setNextOrHead link store head prev target).1 other) = field (store other) := by
  cases prev with
  | none => rfl
  | some ptr => exact modify_field store ptr other (independent.setNext target)

theorem setPrevIf_field (independent : Independent link field) (store : Store Node)
    (node target : Option Ptr) (other : Ptr) :
    field (setPrevIf link store node target other) = field (store other) := by
  cases node with
  | none => rfl
  | some ptr => exact modify_field store ptr other (independent.setPrev target)

theorem unlink_field (independent : Independent link field) (store : Store Node)
    (head : Option Ptr) (ptr other : Ptr) :
    field ((unlink link store head ptr).1 other) = field (store other) := by
  have detached : ∀ node, field (detach link node) = field node := by
    intro node
    rw [detach, independent.setPrev, independent.setNext]
  simp only [unlink]
  rw [modify_field _ ptr other detached, setPrevIf_field independent,
    setNextOrHead_field independent]

theorem pushFront_field (independent : Independent link field) (store : Store Node)
    (head : Option Ptr) (ptr other : Ptr) :
    field ((pushFront link store head ptr).1 other) = field (store other) := by
  simp only [pushFront]
  rw [setPrevIf_field independent, modify_field store ptr other (independent.setNext head)]

theorem insertBetween_field (independent : Independent link field) (store : Store Node)
    (head : Option Ptr) (ptr : Ptr) (prev curr : Option Ptr) (other : Ptr) :
    field ((insertBetween link store head ptr prev curr).1 other) = field (store other) := by
  simp only [insertBetween]
  rw [setPrevIf_field independent, setNextOrHead_field independent]
  refine modify_field store ptr other fun node => ?_
  rw [independent.setPrev, independent.setNext]

theorem insertWhere_field (independent : Independent link field) (store : Store Node)
    (head : Option Ptr) (before : Node → Bool) (fuel : Nat) (ptr other : Ptr) :
    field ((insertWhere link store head before fuel ptr).1 other) = field (store other) :=
  insertBetween_field independent store head ptr _ _ other

theorem dropNext_field (independent : Independent link field) (store : Store Node)
    (ptr next other : Ptr) :
    field (dropNext link store ptr next other) = field (store other) := by
  simp only [dropNext]
  rw [setPrevIf_field independent, modify_field store ptr other (independent.setNext _)]

theorem isList_of_fields {store changed : Store Node} {head : Option Ptr} {members : List Ptr}
    (next : ∀ ptr, link.next (changed ptr) = link.next (store ptr))
    (prev : ∀ ptr, link.prev (changed ptr) = link.prev (store ptr))
    (list : IsList link store head members) : IsList link changed head members :=
  ⟨segment_congr (fun ptr _ => ⟨next ptr, prev ptr⟩) list.chain, list.nodup⟩

end Frames

section Edits

variable {link : Link Node} {store : Store Node} {head : Option Ptr}

theorem isList_neighbours {left right : List Ptr} {ptr : Ptr}
    (list : IsList link store head (left ++ ptr :: right)) :
    link.prev (store ptr) = lastOr none left ∧ link.next (store ptr) = right.head? := by
  rcases (segment_append none head left _ none).mp list.chain with ⟨_, _, _, back, tail⟩
  exact ⟨back, segment_first_head tail⟩

theorem unlink_other (store : Store Node) (head : Option Ptr) {ptr other : Ptr}
    (notSelf : other ≠ ptr) (notPrev : link.prev (store ptr) ≠ some other)
    (notNext : link.next (store ptr) ≠ some other)
    (irreflexive : link.prev (store ptr) ≠ some ptr) :
    (unlink link store head ptr).1 other = store other := by
  simp only [unlink]
  rw [modify_other _ _ notSelf, setPrevIf_other, setNextOrHead_other _ _ _ notPrev]
  rw [setNextOrHead_other _ _ _ irreflexive]
  exact notNext

/-- Unlinking a member removes it and nothing else. -/
theorem unlink_isList {left right : List Ptr} {ptr : Ptr}
    (list : IsList link store head (left ++ ptr :: right)) :
    IsList link (unlink link store head ptr).1 (unlink link store head ptr).2
      (left ++ right) := by
  obtain ⟨leftNodup, ptrRightNodup, apart⟩ := List.nodup_append.mp list.nodup
  obtain ⟨ptrNotRight, rightNodup⟩ := List.nodup_cons.mp ptrRightNodup
  have ptrNotLeft : ptr ∉ left := fun member => apart ptr member ptr (by simp) rfl
  obtain ⟨middle, before, start, back, tail⟩ := (segment_append none head left _ none).mp list.chain
  subst start
  have backNotSelf : lastOr none left ≠ some ptr := by
    intro same
    rcases lastOr_mem same with impossible | member
    · cases impossible
    · exact ptrNotLeft member
  have lastNotRight : ∀ other ∈ right, lastOr none left ≠ some other := by
    intro other member same
    rcases lastOr_mem same with impossible | inLeft
    · cases impossible
    · exact apart other inLeft other (by simp [member]) rfl
  have nextNotLeft : ∀ other ∈ left, link.next (store ptr) ≠ some other := by
    intro other member same
    exact apart other member other (by simp [segment_first_mem tail same]) rfl
  have selfUnchanged : (setNextOrHead link store head (lastOr none left)
      (link.next (store ptr))).1 ptr = store ptr := setNextOrHead_other _ _ _ backNotSelf
  simp only [unlink, back, selfUnchanged]
  have leftChain := segment_redirect_last leftNodup before (link.next (store ptr))
  have rightChain : Segment link (setNextOrHead link store head (lastOr none left)
      (link.next (store ptr))).1 (some ptr) (link.next (store ptr)) right none := by
    refine segment_congr (fun other member => ?_) tail
    rw [setNextOrHead_other _ _ _ (lastNotRight other member)]
    exact ⟨rfl, rfl⟩
  have rightJoined := segment_reback_first rightNodup rightChain (lastOr none left)
  have leftJoined : Segment link (setPrevIf link (setNextOrHead link store head
      (lastOr none left) (link.next (store ptr))).1 (link.next (store ptr)) (lastOr none left))
      none (setNextOrHead link store head (lastOr none left) (link.next (store ptr))).2 left
      (link.next (store ptr)) := by
    refine segment_congr (fun other member => ?_) leftChain
    rw [setPrevIf_other _ _ (nextNotLeft other member)]
    exact ⟨rfl, rfl⟩
  constructor
  · rw [segment_append]
    exact ⟨_, segment_modify_outside _ ptrNotLeft leftJoined,
      segment_modify_outside _ ptrNotRight rightJoined⟩
  · refine List.nodup_append.mpr ⟨leftNodup, rightNodup, ?_⟩
    intro first firstMember second secondMember
    exact apart first firstMember second (by simp [secondMember])

theorem unlink_self (link : Link Node) (store : Store Node) (head : Option Ptr) (ptr : Ptr) :
    link.next ((unlink link store head ptr).1 ptr) = none ∧
      link.prev ((unlink link store head ptr).1 ptr) = none := by
  simp [unlink, detach]

theorem pushFront_isList {members : List Ptr} {ptr : Ptr}
    (list : IsList link store head members) (fresh : ptr ∉ members)
    (unlinked : link.prev (store ptr) = none) :
    IsList link (pushFront link store head ptr).1 (pushFront link store head ptr).2
      (ptr :: members) := by
  have placed := segment_modify_outside (link.setNext head) fresh list.chain
  have tail := segment_reback_first list.nodup placed (some ptr)
  have notHead : head ≠ some ptr := fun same => fresh (segment_first_mem list.chain same)
  have self : setPrevIf link (store.modify ptr (link.setNext head)) head (some ptr) ptr =
      link.setNext head (store ptr) := by
    rw [setPrevIf_other _ _ notHead]
    simp
  refine ⟨⟨rfl, ?_, ?_⟩, List.nodup_cons.mpr ⟨fresh, list.nodup⟩⟩
  · simp only [pushFront, self, Link.prev_setNext, unlinked]
  · simp only [pushFront, self, Link.next_setNext]
    exact tail

theorem walk_segment {before : Node → Bool} {fuel : Nat} {prev first : Option Ptr}
    {members : List Ptr} (enough : members.length ≤ fuel)
    (chain : Segment link store prev first members none) :
    walk link store before fuel prev first =
      (lastOr prev (members.takeWhile fun ptr => before (store ptr)),
        (members.dropWhile fun ptr => before (store ptr)).head?) := by
  induction fuel generalizing prev first members with
  | zero =>
      have empty : members = [] := List.length_eq_zero_iff.mp (Nat.le_zero.mp enough)
      subst empty
      rw [segment_first_nil chain]
      rfl
  | succ fuel ih =>
      cases members with
      | nil =>
          rw [segment_first_nil chain]
          rfl
      | cons ptr rest =>
          obtain ⟨start, _, tail⟩ := chain
          subst start
          by_cases pass : before (store ptr)
          · simp only [walk, pass, if_true, List.takeWhile_cons, List.dropWhile_cons, lastOr]
            exact ih (by simpa using enough) tail
          · simp [walk, pass, lastOr]

theorem collect_segment {fuel : Nat} {prev first : Option Ptr} {members : List Ptr}
    (enough : members.length ≤ fuel) (chain : Segment link store prev first members none) :
    collect link store fuel first = members := by
  induction fuel generalizing prev first members with
  | zero =>
      have empty : members = [] := List.length_eq_zero_iff.mp (Nat.le_zero.mp enough)
      simp [collect, empty]
  | succ fuel ih =>
      cases members with
      | nil => simp [collect, segment_first_nil chain]
      | cons ptr rest =>
          obtain ⟨start, _, tail⟩ := chain
          subst start
          simp only [collect, ih (by simpa using enough) tail]

theorem insertBetween_isList {left right : List Ptr} {ptr : Ptr}
    (list : IsList link store head (left ++ right)) (fresh : ptr ∉ left ++ right) :
    IsList link (insertBetween link store head ptr (lastOr none left) right.head?).1
      (insertBetween link store head ptr (lastOr none left) right.head?).2
      (left ++ ptr :: right) := by
  obtain ⟨leftNodup, rightNodup, apart⟩ := List.nodup_append.mp list.nodup
  obtain ⟨notLeft, notRight⟩ : ptr ∉ left ∧ ptr ∉ right := by simpa using fresh
  obtain ⟨middle, before, after⟩ := (segment_append none head left right none).mp list.chain
  have middleHead := segment_first_head after
  subst middleHead
  have lastNotSelf : lastOr none left ≠ some ptr := by
    intro same
    rcases lastOr_mem same with impossible | member
    · cases impossible
    · exact notLeft member
  have lastNotRight : ∀ other ∈ right, lastOr none left ≠ some other := by
    intro other member same
    rcases lastOr_mem same with impossible | inLeft
    · cases impossible
    · exact apart other inLeft other member rfl
  have headNotLeft : ∀ other ∈ left, right.head? ≠ some other := by
    intro other member same
    exact apart other member other (segment_first_mem after same) rfl
  have headNotSelf : right.head? ≠ some ptr := fun same => notRight (segment_first_mem after same)
  simp only [insertBetween]
  let update : Node → Node := fun node => link.setPrev (lastOr none left)
    (link.setNext right.head? node)
  have leftPlaced := segment_modify_outside update notLeft before
  have rightPlaced := segment_modify_outside update notRight after
  have leftChain := segment_redirect_last leftNodup leftPlaced (some ptr)
  have rightChain : Segment link (setNextOrHead link (store.modify ptr update) head
      (lastOr none left) (some ptr)).1 (lastOr none left) right.head? right none := by
    refine segment_congr (fun other member => ?_) rightPlaced
    rw [setNextOrHead_other _ _ _ (lastNotRight other member)]
    exact ⟨rfl, rfl⟩
  have rightJoined := segment_reback_first rightNodup rightChain (some ptr)
  have self : setPrevIf link (setNextOrHead link (store.modify ptr update) head
      (lastOr none left) (some ptr)).1 right.head? (some ptr) ptr = update (store ptr) := by
    rw [setPrevIf_other _ _ headNotSelf, setNextOrHead_other _ _ _ lastNotSelf]
    simp
  constructor
  · rw [segment_append]
    refine ⟨some ptr, ?_, rfl, ?_, ?_⟩
    · refine segment_congr (fun other member => ?_) leftChain
      rw [setPrevIf_other _ _ (headNotLeft other member)]
      exact ⟨rfl, rfl⟩
    · change link.prev (setPrevIf link (setNextOrHead link (store.modify ptr update) head
        (lastOr none left) (some ptr)).1 right.head? (some ptr) ptr) = _
      rw [self]
      simp [update]
    · change Segment link _ _ (link.next (setPrevIf link (setNextOrHead link
        (store.modify ptr update) head (lastOr none left) (some ptr)).1 right.head?
        (some ptr) ptr)) right none
      rw [self]
      simpa [update] using rightJoined
  · refine List.nodup_append.mpr ⟨leftNodup, List.nodup_cons.mpr ⟨notRight, rightNodup⟩, ?_⟩
    intro first firstMember second secondMember
    rcases List.mem_cons.mp secondMember with here | there
    · subst here
      exact fun same => notLeft (same ▸ firstMember)
    · exact apart first firstMember second there

theorem insertWhere_isList {members : List Ptr} {before : Node → Bool} {fuel : Nat} {ptr : Ptr}
    (list : IsList link store head members) (fresh : ptr ∉ members)
    (enough : members.length ≤ fuel) :
    IsList link (insertWhere link store head before fuel ptr).1
      (insertWhere link store head before fuel ptr).2
      ((members.takeWhile fun other => before (store other)) ++
        ptr :: members.dropWhile fun other => before (store other)) := by
  have split : (members.takeWhile fun other => before (store other)) ++
      (members.dropWhile fun other => before (store other)) = members :=
    List.takeWhile_append_dropWhile
  simp only [insertWhere, walk_segment enough list.chain]
  exact insertBetween_isList (by rw [split]; exact list) (by rw [split]; exact fresh)

theorem dropNext_isList {left right : List Ptr} {ptr next : Ptr}
    (list : IsList link store head (left ++ ptr :: next :: right)) :
    IsList link (dropNext link store ptr next) head (left ++ ptr :: right) := by
  obtain ⟨leftNodup, tailNodup, apart⟩ := List.nodup_append.mp list.nodup
  obtain ⟨ptrFresh, nextNodup⟩ := List.nodup_cons.mp tailNodup
  obtain ⟨nextFresh, rightNodup⟩ := List.nodup_cons.mp nextNodup
  have ptrNotLeft : ptr ∉ left := fun member => apart ptr member ptr (by simp) rfl
  have ptrNotRight : ptr ∉ right := fun member => ptrFresh (by simp [member])
  obtain ⟨middle, before, start, back, nextStart, nextBack, tail⟩ :=
    (segment_append none head left _ none).mp list.chain
  have headNotLeft : ∀ other ∈ left, link.next (store next) ≠ some other := by
    intro other member same
    exact apart other member other (by simp [segment_first_mem tail same]) rfl
  have headNotSelf : link.next (store next) ≠ some ptr :=
    fun same => ptrNotRight (segment_first_mem tail same)
  simp only [dropNext, modify_same, Link.next_setNext]
  let update : Node → Node := link.setNext (link.next (store next))
  have leftPlaced := segment_modify_outside update ptrNotLeft before
  have rightPlaced := segment_modify_outside update ptrNotRight tail
  have rightJoined := segment_reback_first rightNodup rightPlaced (some ptr)
  have self : setPrevIf link (store.modify ptr update) (link.next (store next)) (some ptr) ptr =
      update (store ptr) := by
    rw [setPrevIf_other _ _ headNotSelf]
    simp
  constructor
  · rw [segment_append]
    refine ⟨middle, ?_, start, ?_, ?_⟩
    · refine segment_congr (fun other member => ?_) leftPlaced
      rw [setPrevIf_other _ _ (headNotLeft other member)]
      exact ⟨rfl, rfl⟩
    · change link.prev (setPrevIf link (store.modify ptr update) _ _ ptr) = _
      rw [self]
      simpa [update] using back
    · change Segment link _ _ (link.next (setPrevIf link (store.modify ptr update) _ _ ptr))
        right none
      rw [self]
      simpa [update] using rightJoined
  · refine List.nodup_append.mpr ⟨leftNodup, List.nodup_cons.mpr ⟨ptrNotRight, rightNodup⟩, ?_⟩
    intro first firstMember second secondMember
    rcases List.mem_cons.mp secondMember with here | there
    · exact apart first firstMember second (by simp [here])
    · exact apart first firstMember second (by simp [there])

end Edits

section OrderedInsertion

variable {Item : Type*}

theorem cut_append {test : Item → Bool} {left right : List Item}
    (pass : ∀ item ∈ left, test item = true) (fail : ∀ item ∈ right, test item = false) :
    (left ++ right).takeWhile test = left ∧ (left ++ right).dropWhile test = right := by
  have none : right.takeWhile test = [] ∧ right.dropWhile test = right := by
    cases right with
    | nil => exact ⟨rfl, rfl⟩
    | cons head rest => simp [fail head (by simp)]
  rw [List.takeWhile_append_of_pos pass, List.dropWhile_append_of_pos pass, none.1, none.2]
  simp

theorem insert_decreasing (key : Item → Nat) {items : List Item} (item : Item)
    (sorted : items.Pairwise fun first second => key second ≤ key first) :
    ((items.takeWhile fun other => key other > key item) ++
      item :: items.dropWhile fun other => key other > key item).Pairwise
        fun first second => key second ≤ key first := by
  induction items with
  | nil => simp
  | cons head rest ih =>
      rcases List.pairwise_cons.mp sorted with ⟨headLargest, restSorted⟩
      by_cases larger : key head > key item
      · simp only [List.takeWhile_cons, List.dropWhile_cons, larger, decide_true, if_true,
          List.cons_append]
        apply List.pairwise_cons.mpr ⟨?_, ih restSorted⟩
        intro other member
        rcases List.mem_append.mp member with taken | inserted
        · exact headLargest other (List.takeWhile_sublist _ |>.mem taken)
        · rcases List.mem_cons.mp inserted with same | dropped
          · rw [same]
            exact Nat.le_of_lt larger
          · exact headLargest other (List.dropWhile_sublist _ |>.mem dropped)
      · simp only [List.takeWhile_cons, List.dropWhile_cons, larger, decide_false,
          Bool.false_eq_true, if_false, List.nil_append]
        apply List.pairwise_cons.mpr ⟨?_, sorted⟩
        intro other member
        rcases List.mem_cons.mp member with same | later
        · rw [same]
          exact Nat.not_lt.mp larger
        · exact Nat.le_trans (headLargest other later) (Nat.not_lt.mp larger)

theorem insert_perm (test : Item → Bool) (item : Item) (items : List Item) :
    (items.takeWhile test ++ item :: items.dropWhile test).Perm (item :: items) := by
  have split : items.takeWhile test ++ items.dropWhile test = items :=
    List.takeWhile_append_dropWhile
  exact List.perm_middle.trans (by rw [split])

end OrderedInsertion

end IntrusiveLists
