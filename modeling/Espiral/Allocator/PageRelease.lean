import Espiral.Allocator.PageLayout

/-!
# Releasing a block

A released block is first put on the M-list, then merged with a free left
neighbour, then with a free right neighbour, and only then put on the S-list.
On the layout this is one local edit.
-/

namespace Espiral.VortexMemoryAllocator

set_option autoImplicit false

open IntrusiveLists MachineWords Tilings

def absorbLeft (left : List BlockCell) (cell : BlockCell) : List BlockCell × BlockCell :=
  match left.getLast? with
  | none => (left, cell)
  | some last =>
      if last.tag.free then
        (left.dropLast, { last with size := last.size + cell.size })
      else (left, cell)

def absorbRight (cell : BlockCell) : List BlockCell → BlockCell × List BlockCell
  | [] => (cell, [])
  | next :: rest =>
      if next.tag.free then ({ cell with size := cell.size + next.size }, rest)
      else (cell, next :: rest)

def freed (cell : BlockCell) : BlockCell := { cell with tag := { cell.tag with free := true } }

@[simp] theorem freed_ptr (cell : BlockCell) : (freed cell).tag.ptr = cell.tag.ptr := rfl

@[simp] theorem freed_free (cell : BlockCell) : (freed cell).tag.free = true := rfl

def releaseCells (left : List BlockCell) (cell : BlockCell) (right : List BlockCell) :
    List BlockCell :=
  let (before, joined) := absorbLeft left (freed cell)
  let (joined, after) := absorbRight joined right
  before ++ joined :: after

theorem absorbLeft_nil (cell : BlockCell) : absorbLeft [] cell = ([], cell) := rfl

theorem absorbLeft_free {front : List BlockCell} {last cell : BlockCell}
    (free : last.tag.free = true) :
    absorbLeft (front ++ [last]) cell = (front, { last with size := last.size + cell.size }) := by
  simp [absorbLeft, free]

theorem absorbLeft_used {front : List BlockCell} {last cell : BlockCell}
    (used : last.tag.free = false) :
    absorbLeft (front ++ [last]) cell = (front ++ [last], cell) := by
  simp [absorbLeft, used]

theorem absorbRight_free {cell next : BlockCell} {rest : List BlockCell}
    (free : next.tag.free = true) :
    absorbRight cell (next :: rest) = ({ cell with size := cell.size + next.size }, rest) := by
  simp [absorbRight, free]

theorem absorbRight_used {cell next : BlockCell} {rest : List BlockCell}
    (used : next.tag.free = false) :
    absorbRight cell (next :: rest) = (cell, next :: rest) := by
  simp [absorbRight, used]

theorem absorbLeft_tag_free (left : List BlockCell) {cell : BlockCell}
    (free : cell.tag.free = true) : (absorbLeft left cell).2.tag.free = true := by
  rcases List.eq_nil_or_concat left with empty | ⟨front, last, split⟩
  · rw [empty]
    exact free
  · rw [split, List.concat_eq_append]
    by_cases lastFree : last.tag.free = true
    · rw [absorbLeft_free lastFree]
      exact lastFree
    · rw [absorbLeft_used (by simpa using lastFree)]
      exact free

theorem absorbRight_tag (cell : BlockCell) (right : List BlockCell) :
    (absorbRight cell right).1.tag = cell.tag := by
  cases right with
  | nil => rfl
  | cons next rest =>
      simp only [absorbRight]
      split <;> rfl

theorem usedCells_append (left right : List BlockCell) :
    usedCells (left ++ right) = usedCells left ++ usedCells right := by
  simp [usedCells]

theorem usedCells_cons_free {cell : BlockCell} {rest : List BlockCell}
    (free : cell.tag.free = true) : usedCells (cell :: rest) = usedCells rest := by
  simp [usedCells, free]

theorem usedCells_cons_used {cell : BlockCell} {rest : List BlockCell}
    (used : cell.tag.free = false) : usedCells (cell :: rest) = cell :: usedCells rest := by
  simp [usedCells, used]

theorem usedCells_absorbLeft (left : List BlockCell) (cell : BlockCell) :
    usedCells (absorbLeft left cell).1 = usedCells left := by
  rcases List.eq_nil_or_concat left with empty | ⟨front, last, split⟩
  · rw [empty]
    rfl
  · rw [split, List.concat_eq_append]
    by_cases lastFree : last.tag.free = true
    · rw [absorbLeft_free lastFree, usedCells_append, usedCells_cons_free lastFree]
      simp [usedCells]
    · rw [absorbLeft_used (by simpa using lastFree)]

theorem usedCells_absorbRight (cell : BlockCell) (right : List BlockCell) :
    usedCells (absorbRight cell right).2 = usedCells right := by
  cases right with
  | nil => rfl
  | cons next rest =>
      by_cases nextFree : next.tag.free = true
      · rw [absorbRight_free nextFree]
        exact (usedCells_cons_free nextFree).symm
      · rw [absorbRight_used (by simpa using nextFree)]

theorem usedCells_releaseCells (left : List BlockCell) (cell : BlockCell)
    (right : List BlockCell) :
    usedCells (releaseCells left cell right) = usedCells left ++ usedCells right := by
  have joinedFree : (absorbRight (absorbLeft left (freed cell)).2 right).1.tag.free = true := by
    rw [absorbRight_tag]
    exact absorbLeft_tag_free left rfl
  simp only [releaseCells, usedCells_append]
  rw [usedCells_cons_free joinedFree, usedCells_absorbLeft, usedCells_absorbRight]

theorem coalesced_around {left right : List BlockCell} {cell : BlockCell}
    (leftChain : Coalesced left) (rightChain : Coalesced right)
    (leftUsed : ∀ last, left.getLast? = some last → last.tag.free = false)
    (rightUsed : ∀ next, right.head? = some next → next.tag.free = false) :
    Coalesced (left ++ cell :: right) := by
  unfold Coalesced at *
  rw [List.isChain_append, List.isChain_cons]
  refine ⟨leftChain, ⟨?_, rightChain⟩, ?_⟩
  · intro next member
    simp [rightUsed next member]
  · intro last member next _
    simp [leftUsed last member]

theorem absorbLeft_coalesced {left : List BlockCell} (cell : BlockCell)
    (chain : Coalesced left) :
    Coalesced (absorbLeft left cell).1 ∧
      ∀ last, (absorbLeft left cell).1.getLast? = some last → last.tag.free = false := by
  rcases List.eq_nil_or_concat left with empty | ⟨front, last, split⟩
  · subst empty
    exact ⟨chain, by simp [absorbLeft_nil]⟩
  · rw [List.concat_eq_append] at split
    subst split
    by_cases lastFree : last.tag.free = true
    · rw [absorbLeft_free lastFree]
      unfold Coalesced at chain ⊢
      rw [List.isChain_append] at chain
      refine ⟨chain.1, ?_⟩
      intro previous member
      have apart := chain.2.2 previous member last (by simp)
      simpa [lastFree] using apart
    · rw [absorbLeft_used (by simpa using lastFree)]
      refine ⟨chain, ?_⟩
      intro other member
      simp only [List.getLast?_append, List.getLast?_singleton, Option.some_or,
        Option.some.injEq] at member
      rw [← member]
      simpa using lastFree

theorem absorbRight_coalesced {right : List BlockCell} (cell : BlockCell)
    (chain : Coalesced right) :
    Coalesced (absorbRight cell right).2 ∧
      ∀ next, (absorbRight cell right).2.head? = some next → next.tag.free = false := by
  cases right with
  | nil => exact ⟨chain, by simp [absorbRight]⟩
  | cons next rest =>
      unfold Coalesced at *
      by_cases nextFree : next.tag.free = true
      · rw [absorbRight_free nextFree]
        rw [List.isChain_cons] at chain
        refine ⟨chain.2, ?_⟩
        intro second member
        have apart := chain.1 second member
        simpa [nextFree] using apart
      · rw [absorbRight_used (by simpa using nextFree)]
        refine ⟨chain, ?_⟩
        intro other member
        simp only [List.head?_cons, Option.some.injEq] at member
        rw [← member]
        simpa using nextFree

theorem releaseCells_coalesced {left right : List BlockCell} {cell : BlockCell}
    (chain : Coalesced (left ++ cell :: right)) : Coalesced (releaseCells left cell right) := by
  unfold Coalesced at chain
  rw [List.isChain_append, List.isChain_cons] at chain
  have before := absorbLeft_coalesced (freed cell) chain.1
  have after := absorbRight_coalesced (absorbLeft left (freed cell)).2 chain.2.1.2
  exact coalesced_around before.1 after.1 before.2 after.2

namespace Page

variable {page : Page} {left right : List BlockCell} {cell : BlockCell}

theorem release_enter (layout : Layout page (left ++ cell :: right))
    (used : cell.tag.free = false) :
    Arranged ((page.removeUsedList cell.tag.ptr).insertFreeMList cell.tag.ptr)
      (left ++ freed cell :: right) [cell.tag.ptr] := by
  rcases layout.lists with ⟨usedList, freeS, holds, usedPerm, freePerm, decreasing⟩
  have cellUsed : cell.tag.ptr ∈ usedPtrs (left ++ cell :: right) :=
    mem_usedPtrs.mpr ⟨cell, by simp, used, rfl⟩
  have notFree : cell.tag.ptr ∉ freePtrs (left ++ cell :: right) :=
    fun member => layout.toArranged.free_of_mem member cellUsed
  have order := layout.toArranged.order_around
  simp only [freePtrs_append, usedPtrs_append, freePtrs_cons_used used, usedPtrs_cons_used used,
    List.nil_append] at holds usedPerm freePerm notFree
  have listed : cell.tag.ptr ∈ usedList := usedPerm.mem_iff.mpr (by simp)
  rcases List.append_of_mem listed with ⟨newer, older, split⟩
  subst split
  have without := removeUsedList_holds holds
  have dataU := removeUsedList_data page cell.tag.ptr
  have freeBound : (freePtrs left ++ freePtrs right).length ≤ page.created := by
    have countBound := layout.toArranged.length_le
    have leftBound := freePtrs_length_le left
    have rightBound := freePtrs_length_le right
    simp only [List.length_append, List.length_cons] at countBound ⊢
    omega
  have entered := insertFreeMList_holds without notFree (by rw [dataU.created]; exact freeBound)
  simp only [dataU.blockAddr] at entered
  rw [order.1, order.2] at entered
  have data := dataU.trans (insertFreeMList_data _ cell.tag.ptr)
  have old : Arranged page (left ++ [cell] ++ right) [] := by simpa using layout.toArranged
  have rebuilt : Arranged ((page.removeUsedList cell.tag.ptr).insertFreeMList cell.tag.ptr)
      (left ++ [freed cell] ++ right) [cell.tag.ptr] := by
    refine old.rebuild data.addr data.size (Nat.le_of_eq data.created.symm) ?_ ?_ ?_ ?_ ?_ ?_
    · simpa [freed] using tiles_retag { cell.tag with free := true } layout.tiles
    · intro other _
      exact ⟨data.blockAddr _, data.blockSize _⟩
    · intro other member
      rw [List.mem_singleton.mp member, data.blockAddr, data.blockSize]
      exact layout.extents cell (by simp)
    · simpa using layout.distinct
    · intro other member
      rw [List.mem_singleton.mp member, data.created]
      exact layout.created cell (by simp)
    · have newFree := freed_free cell
      refine ⟨newer ++ older, freeS, ?_, ?_, ?_, ?_⟩
      · simpa [freePtrs_cons_free newFree] using entered
      · have rest := (List.perm_middle.symm.trans (usedPerm.trans List.perm_middle)).cons_inv
        simpa [usedPtrs_cons_free newFree] using rest
      · simpa [freePtrs_cons_free newFree] using
          (freePerm.cons cell.tag.ptr).trans List.perm_middle.symm
      · simpa only [data.blockSize] using decreasing
  simpa using rebuilt

/-- The free list neighbours of a pending block, read off the layout. -/
theorem Arranged.neighbours {pending : List Ptr}
    (arranged : Arranged page (left ++ cell :: right) pending) (free : cell.tag.free = true) :
    (page.blocks cell.tag.ptr).prevFreeM = lastOr none (freePtrs left) ∧
      (page.blocks cell.tag.ptr).nextFreeM = (freePtrs right).head? := by
  rcases arranged.lists with ⟨_, _, holds, _⟩
  have onList := holds.onFreeM
  simp only [freePtrs_append, freePtrs_cons_free free] at onList
  exact isList_neighbours onList

theorem Arranged.blockStop {cells : List BlockCell} {pending : List Ptr} {other : BlockCell}
    (arranged : Arranged page cells pending) (member : other ∈ cells) :
    add64 (page.blocks other.tag.ptr).addr (page.blocks other.tag.ptr).size = other.stop := by
  have bound := (tiles_mem arranged.tiles member).2.2
  have fits := arranged.fits
  rw [(arranged.extents other member).1, (arranged.extents other member).2]
  apply add64_of_lt
  unfold Cell.stop at bound
  omega

theorem Arranged.size_sum {before : List BlockCell} {first second : BlockCell}
    {after : List BlockCell} {pending : List Ptr}
    (arranged : Arranged page (before ++ first :: second :: after) pending) :
    add64 (page.blocks first.tag.ptr).size (page.blocks second.tag.ptr).size =
      first.size + second.size := by
  have bound := (tiles_mem arranged.tiles
    (show second ∈ before ++ first :: second :: after by simp)).2.2
  have adjacent := tiles_adjacent arranged.tiles
  have fits := arranged.fits
  rw [(arranged.extents first (by simp)).2, (arranged.extents second (by simp)).2]
  apply add64_of_lt
  unfold Cell.stop at bound adjacent
  omega

/-- Both merges: `dropped` is absorbed by its left neighbour `kept`, and the
one of the two that was on the S-list leaves it. -/
def joinBlocks (page : Page) (kept dropped listed : Ptr) : Page :=
  let merged := page.setSize kept (add64 (page.blocks kept).size (page.blocks dropped).size)
  let merged := { merged with blocks := dropNext freeMLink merged.blocks kept dropped }
  merged.removeFreeSList listed

theorem join_perm {waiting listed first second : Ptr} {before after larger smaller : List Ptr}
    (either : (waiting = second ∧ listed = first) ∨ (waiting = first ∧ listed = second))
    (perm : ([waiting] ++ (larger ++ listed :: smaller)).Perm
      (before ++ first :: second :: after)) :
    ([first] ++ (larger ++ smaller)).Perm (before ++ first :: after) := by
  have front : ([waiting] ++ (larger ++ listed :: smaller)).Perm
      (waiting :: listed :: (larger ++ smaller)) := List.perm_middle.cons waiting
  have back : (before ++ first :: second :: after).Perm (first :: second :: (before ++ after)) := by
    apply List.perm_middle.trans
    exact List.perm_middle.cons first
  have total := front.symm.trans (perm.trans back)
  have rest : (larger ++ smaller).Perm (before ++ after) := by
    rcases either with ⟨isSecond, isFirst⟩ | ⟨isFirst, isSecond⟩
    · subst isSecond isFirst
      exact ((List.Perm.swap _ _ _).trans total).cons_inv.cons_inv
    · subst isSecond isFirst
      exact total.cons_inv.cons_inv
  exact (rest.cons first).trans List.perm_middle.symm

theorem join_arranged {before after : List BlockCell} {first second : BlockCell}
    {waiting listed : Ptr}
    (arranged : Arranged page (before ++ first :: second :: after) [waiting])
    (firstFree : first.tag.free = true) (secondFree : second.tag.free = true)
    (either : (waiting = second.tag.ptr ∧ listed = first.tag.ptr) ∨
      (waiting = first.tag.ptr ∧ listed = second.tag.ptr)) :
    Arranged (page.joinBlocks first.tag.ptr second.tag.ptr listed)
      (before ++ { first with size := first.size + second.size } :: after) [first.tag.ptr] := by
  rcases arranged.lists with ⟨used, freeS, holds, usedPerm, freePerm, decreasing⟩
  have sum := arranged.size_sum
  have distinct := arranged.distinct
  simp only [freePtrs_append, usedPtrs_append, freePtrs_cons_free firstFree,
    freePtrs_cons_free secondFree, usedPtrs_cons_free firstFree, usedPtrs_cons_free secondFree]
    at holds usedPerm freePerm
  simp only [List.map_append, List.map_cons] at distinct
  have apart : first.tag.ptr ≠ second.tag.ptr := by
    have tail := (List.nodup_append.mp distinct).2.1
    intro same
    exact (List.nodup_cons.mp tail).1 (by simp [same])
  have onList : listed ∈ freeS := by
    have member : listed ∈ [waiting] ++ freeS := freePerm.mem_iff.mpr (by
      rcases either with ⟨_, isFirst⟩ | ⟨_, isSecond⟩
      · simp [isFirst]
      · simp [isSecond])
    rcases List.mem_append.mp member with impossible | inside
    · rcases either with ⟨isSecond, isFirst⟩ | ⟨isFirst, isSecond⟩
      · simp [isSecond, isFirst, apart] at impossible
      · simp [isSecond, isFirst, apart.symm] at impossible
    · exact inside
  rcases List.append_of_mem onList with ⟨larger, smaller, split⟩
  subst split
  have resized : Holds (page.setSize first.tag.ptr (add64 (page.blocks first.tag.ptr).size
      (page.blocks second.tag.ptr).size)) used
      (freePtrs before ++ first.tag.ptr :: second.tag.ptr :: freePtrs after)
      (larger ++ listed :: smaller) := setSize_holds _ holds
  have joined : Holds (page.joinBlocks first.tag.ptr second.tag.ptr listed) used
      (freePtrs before ++ first.tag.ptr :: freePtrs after) (larger ++ smaller) :=
    removeFreeSList_holds (dropNext_holds resized)
  have data := (dropNext_data (page.setSize first.tag.ptr (add64 (page.blocks first.tag.ptr).size
      (page.blocks second.tag.ptr).size)) first.tag.ptr second.tag.ptr).trans
      (removeFreeSList_data _ listed)
  have restPerm := join_perm either freePerm
  have firstGone : first.tag.ptr ∉ larger ++ smaller := by
    have nodup : (freePtrs before ++ first.tag.ptr :: freePtrs after).Nodup := joined.onFreeM.nodup
    exact (List.nodup_cons.mp (restPerm.nodup_iff.mpr nodup)).1
  have old : Arranged page (before ++ [first, second] ++ after) [waiting] := by
    simpa using arranged
  have rebuilt : Arranged (page.joinBlocks first.tag.ptr second.tag.ptr listed)
      (before ++ [{ first with size := first.size + second.size }] ++ after) [first.tag.ptr] := by
    refine old.rebuild data.addr data.size (Nat.le_of_eq data.created.symm) ?_ ?_ ?_ ?_ ?_ ?_
    · simpa using tiles_join first.tag arranged.tiles
    · intro other member
      have different : other.tag.ptr ≠ first.tag.ptr := by
        apply arranged.ptr_not_mem
        simp only [List.mem_append, List.mem_cons] at member ⊢
        tauto
      refine ⟨(data.blockAddr _).trans (setSize_blockAddr _ _ _ _), (data.blockSize _).trans ?_⟩
      rw [setSize_blockSize, if_neg different]
    · intro other member
      rw [List.mem_singleton.mp member]
      refine ⟨?_, (data.blockSize _).trans ?_⟩
      · exact ((data.blockAddr _).trans (setSize_blockAddr _ _ _ _)).trans
          (arranged.extents first (by simp)).1
      · rw [setSize_blockSize, if_pos rfl, sum]
    · have shorter := distinct.sublist (List.Sublist.append (List.Sublist.refl _)
        (List.Sublist.cons_cons _ (List.sublist_cons_self _ _)))
      simpa using shorter
    · intro other member
      rw [List.mem_singleton.mp member]
      exact (arranged.created first (by simp)).trans_eq data.created.symm
    · have keptFree : ({ first with size := first.size + second.size } : BlockCell).tag.free =
          true := firstFree
      refine ⟨used, larger ++ smaller, ?_, ?_, ?_, ?_⟩
      · simpa [freePtrs_cons_free keptFree] using joined
      · simpa [usedPtrs_cons_free keptFree] using usedPerm
      · simpa [freePtrs_cons_free keptFree] using restPerm
      · have without : (larger ++ smaller).Pairwise fun one two =>
            (page.blocks two).size ≤ (page.blocks one).size :=
          List.Pairwise.sublist (List.Sublist.append (List.Sublist.refl larger)
            (List.sublist_cons_self _ smaller)) decreasing
        apply without.imp_of_mem
        intro one two oneMember twoMember order
        have sizeOf : ∀ ptr ∈ larger ++ smaller, ((page.joinBlocks first.tag.ptr second.tag.ptr
            listed).blocks ptr).size = (page.blocks ptr).size := by
          intro ptr member
          refine (data.blockSize ptr).trans ?_
          rw [setSize_blockSize, if_neg fun same : ptr = first.tag.ptr => firstGone (same ▸ member)]
        rw [sizeOf one oneMember, sizeOf two twoMember]
        exact order
  simpa using rebuilt

theorem mergeLeft_arranged
    (arranged : Arranged page (left ++ cell :: right) [cell.tag.ptr])
    (free : cell.tag.free = true) :
    (page.mergeLeft cell.tag.ptr).1 = (absorbLeft left cell).2.tag.ptr ∧
      Arranged (page.mergeLeft cell.tag.ptr).2
        ((absorbLeft left cell).1 ++ (absorbLeft left cell).2 :: right)
        [(absorbLeft left cell).2.tag.ptr] := by
  have back := (arranged.neighbours free).1
  rcases List.eq_nil_or_concat left with empty | ⟨front, last, split⟩
  · subst empty
    have alone : page.mergeLeft cell.tag.ptr = (cell.tag.ptr, page) := by
      simp only [mergeLeft, back]
      rfl
    rw [alone, absorbLeft_nil]
    exact ⟨rfl, arranged⟩
  · rw [List.concat_eq_append] at split
    subst split
    have focused : Arranged page (front ++ last :: cell :: right) [cell.tag.ptr] := by
      simpa using arranged
    have adjacent := tiles_adjacent focused.tiles
    by_cases lastFree : last.tag.free = true
    · have merged : page.mergeLeft cell.tag.ptr = (last.tag.ptr,
          page.joinBlocks last.tag.ptr cell.tag.ptr last.tag.ptr) := by
        have backLast : (page.blocks cell.tag.ptr).prevFreeM = some last.tag.ptr := by
          rw [back, freePtrs_append, freePtrs_cons_free lastFree]
          exact lastOr_append none _ _
        simp only [mergeLeft, backLast]
        rw [if_pos]
        · rfl
        · rw [focused.blockStop (by simp), (focused.extents cell (by simp)).1, adjacent]
      rw [merged, absorbLeft_free lastFree]
      exact ⟨rfl, join_arranged focused lastFree free (Or.inl ⟨rfl, rfl⟩)⟩
    · have lastUsed : last.tag.free = false := by simpa using lastFree
      have unmerged : page.mergeLeft cell.tag.ptr = (cell.tag.ptr, page) := by
        cases previous : (page.blocks cell.tag.ptr).prevFreeM with
        | none => simp only [mergeLeft, previous]
        | some ptr =>
            -- the free block to the left lies beyond the used block `last`
            have inside : ptr ∈ freePtrs (front ++ [last]) := by
              rcases lastOr_mem (back.symm.trans previous) with impossible | member
              · cases impossible
              · exact member
            rcases mem_freePtrs.mp inside with ⟨other, member, otherFree, same⟩
            have inFront : other ∈ front := by
              rcases List.mem_append.mp member with here | isLast
              · exact here
              · rw [List.mem_singleton.mp isLast, lastUsed] at otherFree
                cases otherFree
            have before := focused.blockAddr_lt_of_mem inFront
            have positive := (tiles_mem focused.tiles
              (show last ∈ front ++ last :: cell :: right by simp)).2.1
            simp only [mergeLeft, previous]
            rw [if_neg]
            rw [← same, focused.blockStop (show other ∈ front ++ last :: cell :: right by
              simp [inFront]), (focused.extents cell (by simp)).1]
            unfold Cell.stop at *
            omega
      rw [unmerged, absorbLeft_used lastUsed]
      exact ⟨rfl, arranged⟩

theorem mergeRight_arranged
    (arranged : Arranged page (left ++ cell :: right) [cell.tag.ptr])
    (free : cell.tag.free = true) :
    Arranged (page.mergeRight cell.tag.ptr)
      (left ++ (absorbRight cell right).1 :: (absorbRight cell right).2) [cell.tag.ptr] := by
  have next := (arranged.neighbours free).2
  cases right with
  | nil =>
      have alone : page.mergeRight cell.tag.ptr = page := by
        simp only [mergeRight, next]
        rfl
      rw [alone]
      exact arranged
  | cons second rest =>
      have adjacent := tiles_adjacent arranged.tiles
      by_cases secondFree : second.tag.free = true
      · have merged : page.mergeRight cell.tag.ptr =
            page.joinBlocks cell.tag.ptr second.tag.ptr second.tag.ptr := by
          have nextSecond : (page.blocks cell.tag.ptr).nextFreeM = some second.tag.ptr := by
            rw [next, freePtrs_cons_free secondFree]
            rfl
          simp only [mergeRight, nextSecond]
          rw [if_pos]
          · rfl
          · rw [arranged.blockStop (by simp), (arranged.extents second (by simp)).1, adjacent]
        rw [merged, absorbRight_free secondFree]
        exact join_arranged arranged free secondFree (Or.inr ⟨rfl, rfl⟩)
      · have secondUsed : second.tag.free = false := by simpa using secondFree
        have unmerged : page.mergeRight cell.tag.ptr = page := by
          cases following : (page.blocks cell.tag.ptr).nextFreeM with
          | none => simp only [mergeRight, following]
          | some ptr =>
              have inside : ptr ∈ freePtrs rest := by
                rw [next, freePtrs_cons_used secondUsed] at following
                exact List.mem_of_mem_head? following
              rcases mem_freePtrs.mp inside with ⟨other, member, _, same⟩
              have focused : Arranged page ((left ++ [cell]) ++ second :: rest) [cell.tag.ptr] := by
                simpa using arranged
              have after := focused.stop_le_of_mem member
              have positive := (tiles_mem arranged.tiles
                (show second ∈ left ++ cell :: second :: rest by simp)).2.1
              simp only [mergeRight, following]
              rw [if_neg]
              rw [← same, arranged.blockStop (by simp), (arranged.extents other (by
                simp [member])).1]
              unfold Cell.stop at *
              omega
        rw [unmerged, absorbRight_used secondUsed]
        exact arranged

theorem insertFreeSList_arranged
    (arranged : Arranged page (left ++ cell :: right) [cell.tag.ptr]) :
    Arranged (page.insertFreeSList cell.tag.ptr) (left ++ cell :: right) [] := by
  rcases arranged.lists with ⟨used, freeS, holds, usedPerm, freePerm, decreasing⟩
  have nodup : ([cell.tag.ptr] ++ freeS).Nodup := freePerm.nodup_iff.mpr holds.onFreeM.nodup
  have fresh : cell.tag.ptr ∉ freeS := (List.nodup_cons.mp nodup).1
  have enough : freeS.length ≤ page.created := by
    have total := freePerm.length_eq
    have freeBound := freePtrs_length_le (left ++ cell :: right)
    have countBound := arranged.length_le
    simp only [List.length_append, List.length_cons] at total freeBound countBound
    omega
  have inserted := insertFreeSList_holds holds fresh enough
  have data := insertFreeSList_data page cell.tag.ptr
  refine ⟨?_, ?_, ?_, arranged.distinct, ?_, ?_⟩
  · rw [data.addr, data.size]
    exact arranged.tiles
  · rw [data.addr, data.size]
    exact arranged.fits
  · intro other member
    rw [data.blockAddr, data.blockSize]
    exact arranged.extents other member
  · intro other member
    rw [data.created]
    exact arranged.created other member
  · refine ⟨used, _, inserted, usedPerm, ?_, ?_⟩
    · exact (insert_perm _ _ _).trans freePerm
    · simp only [data.blockSize]
      exact insert_decreasing (fun ptr => (page.blocks ptr).size) cell.tag.ptr decreasing

theorem release_layout (layout : Layout page (left ++ cell :: right))
    (used : cell.tag.free = false) :
    Layout (page.release cell.tag.ptr) (releaseCells left cell right) := by
  have entered := release_enter layout used
  have leftMerged := mergeLeft_arranged entered (freed_free cell)
  have joinedFree := absorbLeft_tag_free left (freed_free cell)
  have rightMerged := mergeRight_arranged leftMerged.2 joinedFree
  have tag := absorbRight_tag (absorbLeft left (freed cell)).2 right
  constructor
  · rw [freed_ptr] at leftMerged rightMerged
    rw [← tag] at rightMerged
    have inserted := insertFreeSList_arranged rightMerged
    rw [tag, ← leftMerged.1] at inserted
    exact inserted
  · exact releaseCells_coalesced layout.coalesced

end Page

end Espiral.VortexMemoryAllocator
