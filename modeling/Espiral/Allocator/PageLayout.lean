import Mathlib.Data.List.Perm.Subperm
import Espiral.Library.Tilings
import Espiral.Allocator.PageLists

/-!
# The layout of a page

In address order the blocks of a page tile it without gap or overlap. The
M-list is exactly the free blocks in that order, the S-list the same blocks by
decreasing size, the used list the others, and no two free blocks touch. This
module shows what `allocate` and `release` do to the layout.
-/

namespace Espiral.VortexMemoryAllocator

set_option autoImplicit false

open IntrusiveLists MachineWords Tilings

/-- What a cell of the layout says about its block. -/
structure Role where
  ptr : Ptr
  free : Bool

abbrev BlockCell := Cell Role

def freeCells (cells : List BlockCell) : List BlockCell := cells.filter fun cell => cell.tag.free

def usedCells (cells : List BlockCell) : List BlockCell := cells.filter fun cell => !cell.tag.free

def freePtrs (cells : List BlockCell) : List Ptr := (freeCells cells).map fun cell => cell.tag.ptr

def usedPtrs (cells : List BlockCell) : List Ptr := (usedCells cells).map fun cell => cell.tag.ptr

@[simp] theorem freePtrs_append (left right : List BlockCell) :
    freePtrs (left ++ right) = freePtrs left ++ freePtrs right := by
  simp [freePtrs, freeCells]

@[simp] theorem usedPtrs_append (left right : List BlockCell) :
    usedPtrs (left ++ right) = usedPtrs left ++ usedPtrs right := by
  simp [usedPtrs, usedCells]

theorem freePtrs_cons_free {cell : BlockCell} {rest : List BlockCell}
    (free : cell.tag.free = true) : freePtrs (cell :: rest) = cell.tag.ptr :: freePtrs rest := by
  simp [freePtrs, freeCells, free]

theorem freePtrs_cons_used {cell : BlockCell} {rest : List BlockCell}
    (used : cell.tag.free = false) : freePtrs (cell :: rest) = freePtrs rest := by
  simp [freePtrs, freeCells, used]

theorem usedPtrs_cons_free {cell : BlockCell} {rest : List BlockCell}
    (free : cell.tag.free = true) : usedPtrs (cell :: rest) = usedPtrs rest := by
  simp [usedPtrs, usedCells, free]

theorem usedPtrs_cons_used {cell : BlockCell} {rest : List BlockCell}
    (used : cell.tag.free = false) : usedPtrs (cell :: rest) = cell.tag.ptr :: usedPtrs rest := by
  simp [usedPtrs, usedCells, used]

theorem mem_freePtrs {cells : List BlockCell} {ptr : Ptr} :
    ptr ∈ freePtrs cells ↔ ∃ cell ∈ cells, cell.tag.free = true ∧ cell.tag.ptr = ptr := by
  simp [freePtrs, freeCells, and_assoc]

theorem mem_usedPtrs {cells : List BlockCell} {ptr : Ptr} :
    ptr ∈ usedPtrs cells ↔ ∃ cell ∈ cells, cell.tag.free = false ∧ cell.tag.ptr = ptr := by
  simp [usedPtrs, usedCells, and_assoc]

theorem cell_of_ptr {cells : List BlockCell} {first second : BlockCell}
    (distinct : (cells.map fun cell => cell.tag.ptr).Nodup) (firstMember : first ∈ cells)
    (secondMember : second ∈ cells) (same : first.tag.ptr = second.tag.ptr) : first = second :=
  List.inj_on_of_nodup_map distinct firstMember secondMember same

def Coalesced (cells : List BlockCell) : Prop :=
  cells.IsChain fun first second => ¬(first.tag.free = true ∧ second.tag.free = true)

namespace Page

/-- The layout of a page, except that the free blocks in `pending` are not on
the S-list yet and free blocks may touch. -/
structure Arranged (page : Page) (cells : List BlockCell) (pending : List Ptr) : Prop where
  tiles : Tiles page.addr cells (page.addr + page.size)
  fits : page.addr + page.size < 2 ^ 64
  extents : ∀ cell ∈ cells, (page.blocks cell.tag.ptr).addr = cell.addr ∧
    (page.blocks cell.tag.ptr).size = cell.size
  distinct : (cells.map fun cell => cell.tag.ptr).Nodup
  created : ∀ cell ∈ cells, cell.tag.ptr < page.created
  lists : ∃ used freeS, Holds page used (freePtrs cells) freeS ∧ used.Perm (usedPtrs cells) ∧
    (pending ++ freeS).Perm (freePtrs cells) ∧
    freeS.Pairwise fun first second =>
      (page.blocks second).size ≤ (page.blocks first).size

structure Layout (page : Page) (cells : List BlockCell) : Prop extends
    Arranged page cells [] where
  coalesced : Coalesced cells

section Arranged

variable {page : Page} {cells : List BlockCell} {pending : List Ptr}

theorem Arranged.length_le (arranged : Arranged page cells pending) :
    cells.length ≤ page.created := by
  have bound : (cells.map fun cell => cell.tag.ptr) ⊆ List.range page.created := by
    intro ptr member
    rcases List.mem_map.mp member with ⟨cell, inside, same⟩
    rw [← same]
    exact List.mem_range.mpr (arranged.created cell inside)
  have count := (List.subperm_of_subset arranged.distinct bound).length_le
  simpa using count

theorem freePtrs_length_le (cells : List BlockCell) : (freePtrs cells).length ≤ cells.length := by
  simp only [freePtrs, List.length_map]
  exact List.length_filter_le _ _

theorem Arranged.blockAddr_lt_of_mem {left right : List BlockCell} {cell other : BlockCell}
    (arranged : Arranged page (left ++ cell :: right) pending) (member : other ∈ left) :
    other.stop ≤ cell.addr := by
  have ordered := tiles_pairwise arranged.tiles
  exact (List.pairwise_append.mp ordered).2.2 other member cell (by simp)

theorem Arranged.stop_le_of_mem {left right : List BlockCell} {cell other : BlockCell}
    (arranged : Arranged page (left ++ cell :: right) pending) (member : other ∈ right) :
    cell.stop ≤ other.addr := by
  have ordered := tiles_pairwise arranged.tiles
  exact (List.pairwise_cons.mp (List.pairwise_append.mp ordered).2.1).1 other member

end Arranged

section Allocate

variable {page : Page} {left right : List BlockCell} {cell : BlockCell}

theorem Arranged.order_around {pending : List Ptr}
    (arranged : Arranged page (left ++ cell :: right) pending) :
    ((freePtrs left ++ freePtrs right).takeWhile fun other =>
        (page.blocks other).addr < (page.blocks cell.tag.ptr).addr) = freePtrs left ∧
      ((freePtrs left ++ freePtrs right).dropWhile fun other =>
        (page.blocks other).addr < (page.blocks cell.tag.ptr).addr) = freePtrs right := by
  rw [(arranged.extents cell (by simp)).1]
  apply cut_append
  · intro ptr member
    rcases mem_freePtrs.mp member with ⟨other, inside, _, same⟩
    have before := arranged.blockAddr_lt_of_mem inside
    have positive := (tiles_mem arranged.tiles
      (show other ∈ left ++ cell :: right by simp [inside])).2.1
    rw [← same, (arranged.extents other (by simp [inside])).1]
    unfold Cell.stop at before
    simp only [decide_eq_true_eq]
    omega
  · intro ptr member
    rcases mem_freePtrs.mp member with ⟨other, inside, _, same⟩
    have after := arranged.stop_le_of_mem inside
    rw [← same, (arranged.extents other (by simp [inside])).1]
    unfold Cell.stop at after
    simp only [decide_eq_false_iff_not]
    omega

/-- Replacing a run of cells by another one over the same addresses. -/
theorem Arranged.rebuild {changed : Page} {old new : List BlockCell} {pending later : List Ptr}
    (arranged : Arranged page (left ++ old ++ right) pending)
    (addr : changed.addr = page.addr) (size : changed.size = page.size)
    (grown : page.created ≤ changed.created)
    (tiles : Tiles page.addr (left ++ new ++ right) (page.addr + page.size))
    (others : ∀ other ∈ left ++ right,
      (changed.blocks other.tag.ptr).addr = (page.blocks other.tag.ptr).addr ∧
        (changed.blocks other.tag.ptr).size = (page.blocks other.tag.ptr).size)
    (extents : ∀ cell ∈ new, (changed.blocks cell.tag.ptr).addr = cell.addr ∧
      (changed.blocks cell.tag.ptr).size = cell.size)
    (distinct : ((left ++ new ++ right).map fun cell => cell.tag.ptr).Nodup)
    (created : ∀ cell ∈ new, cell.tag.ptr < changed.created)
    (lists : ∃ used freeS, Holds changed used (freePtrs (left ++ new ++ right)) freeS ∧
      used.Perm (usedPtrs (left ++ new ++ right)) ∧
      (later ++ freeS).Perm (freePtrs (left ++ new ++ right)) ∧
      freeS.Pairwise fun first second =>
        (changed.blocks second).size ≤ (changed.blocks first).size) :
    Arranged changed (left ++ new ++ right) later := by
  have outer : ∀ other ∈ left ++ new ++ right, other ∈ new ∨
      (other ∈ left ++ right ∧ other ∈ left ++ old ++ right) := by
    intro other member
    simp only [List.mem_append] at member ⊢
    tauto
  refine ⟨by rw [addr, size]; exact tiles, by rw [addr, size]; exact arranged.fits, ?_, distinct,
    ?_, lists⟩
  · intro other member
    rcases outer other member with inNew | ⟨kept, wasThere⟩
    · exact extents other inNew
    · rw [(others other kept).1, (others other kept).2]
      exact arranged.extents other wasThere
  · intro other member
    rcases outer other member with inNew | ⟨_, wasThere⟩
    · exact created other inNew
    · exact Nat.lt_of_lt_of_le (arranged.created other wasThere) grown

theorem Arranged.free_of_mem {cells : List BlockCell} {pending : List Ptr} {ptr : Ptr}
    (arranged : Arranged page cells pending) (member : ptr ∈ freePtrs cells) :
    ptr ∉ usedPtrs cells := by
  intro other
  rcases mem_freePtrs.mp member with ⟨first, firstMember, free, firstPtr⟩
  rcases mem_usedPtrs.mp other with ⟨second, secondMember, used, secondPtr⟩
  have same := cell_of_ptr arranged.distinct firstMember secondMember
    (firstPtr.trans secondPtr.symm)
  rw [same, used] at free
  cases free

theorem Arranged.ptr_not_mem {pending : List Ptr} {other : BlockCell}
    (arranged : Arranged page (left ++ cell :: right) pending) (member : other ∈ left ++ right) :
    other.tag.ptr ≠ cell.tag.ptr := by
  have distinct := arranged.distinct
  rw [List.map_append, List.map_cons, List.nodup_middle] at distinct
  have outside := (List.nodup_cons.mp distinct).1
  intro same
  apply outside
  rw [← List.map_append, ← same]
  exact List.mem_map_of_mem member

theorem mem_freePtrs_extent {cells : List BlockCell} {ptr : Ptr} {pending : List Ptr}
    (arranged : Arranged page cells pending) (member : ptr ∈ freePtrs cells) :
    ∃ other ∈ cells, other.tag.ptr = ptr ∧ other.tag.free = true ∧
      (page.blocks ptr).addr = other.addr ∧ (page.blocks ptr).size = other.size := by
  rcases mem_freePtrs.mp member with ⟨other, inside, free, same⟩
  subst same
  exact ⟨other, inside, rfl, free, arranged.extents other inside⟩

/-- What is left on the lists once `allocate` has taken a free block off both
free lists. -/
structure Taken (page taken : Page) (left : List BlockCell) (cell : BlockCell)
    (right : List BlockCell) (used freeS : List Ptr) : Prop where
  data : SameData page taken
  holds : Holds taken used (freePtrs left ++ freePtrs right) freeS
  usedPerm : used.Perm (usedPtrs left ++ usedPtrs right)
  freePerm : freeS.Perm (freePtrs left ++ freePtrs right)
  decreasing : freeS.Pairwise fun first second =>
    (page.blocks second).size ≤ (page.blocks first).size

theorem take_free (layout : Layout page (left ++ cell :: right))
    (free : cell.tag.free = true) :
    ∃ used freeS, Taken page
      ((page.removeFreeMList cell.tag.ptr).removeFreeSList cell.tag.ptr) left cell right
      used freeS := by
  rcases layout.lists with ⟨used, freeS, holds, usedPerm, freePerm, decreasing⟩
  simp only [freePtrs_append, usedPtrs_append, freePtrs_cons_free free, usedPtrs_cons_free free,
    List.nil_append] at holds usedPerm freePerm
  have listed : cell.tag.ptr ∈ freeS := freePerm.mem_iff.mpr (by simp)
  rcases List.append_of_mem listed with ⟨larger, smaller, split⟩
  subst split
  have withoutM := removeFreeMList_holds holds
  have withoutS := removeFreeSList_holds withoutM
  have rest : (larger ++ smaller).Perm (freePtrs left ++ freePtrs right) :=
    (List.perm_middle.symm.trans (freePerm.trans List.perm_middle)).cons_inv
  refine ⟨used, larger ++ smaller, ?_, withoutS, usedPerm, rest, ?_⟩
  · exact (removeFreeMList_data page cell.tag.ptr).trans (removeFreeSList_data _ cell.tag.ptr)
  · exact List.Pairwise.sublist (List.Sublist.append (List.Sublist.refl larger)
      (List.sublist_cons_self _ smaller)) decreasing

theorem Taken.not_mem_used {taken : Page} {used freeS : List Ptr}
    (layout : Layout page (left ++ cell :: right))
    (rest : Taken page taken left cell right used freeS) : cell.tag.ptr ∉ used := by
  intro member
  have listed := rest.usedPerm.mem_iff.mp member
  rw [← usedPtrs_append] at listed
  rcases mem_usedPtrs.mp listed with ⟨other, inside, _, same⟩
  exact layout.toArranged.ptr_not_mem inside same

theorem coalesced_set_used (chain : Coalesced (left ++ cell :: right)) :
    Coalesced (left ++ { cell with tag := { cell.tag with free := false } } :: right) := by
  unfold Coalesced at chain ⊢
  rw [List.isChain_append] at chain ⊢
  rcases chain with ⟨leftChain, tailChain, _⟩
  refine ⟨leftChain, ?_, ?_⟩
  · rw [List.isChain_cons] at tailChain ⊢
    exact ⟨by simp, tailChain.2⟩
  · intro first _ second secondMember
    simp only [List.head?_cons, Option.mem_def, Option.some.injEq] at secondMember
    subst secondMember
    simp

theorem allocate_whole {size : Nat} (layout : Layout page (left ++ cell :: right))
    (free : cell.tag.free = true) (fits : size ≤ cell.size)
    (noSplit : cell.size - size < page.blockAlign_) :
    Layout (page.allocate size cell.tag.ptr)
      (left ++ { cell with tag := { cell.tag with free := false } } :: right) := by
  rcases take_free layout free with ⟨used, freeS, rest⟩
  have notUsed := rest.not_mem_used layout
  have extent := layout.extents cell (by simp)
  have stopBound := (tiles_mem layout.tiles (show cell ∈ left ++ cell :: right by simp)).2.2
  have extraBytes : sub64 ((((page.removeFreeMList cell.tag.ptr).removeFreeSList
      cell.tag.ptr).blocks cell.tag.ptr).size) size = cell.size - size := by
    rw [rest.data.blockSize, extent.2]
    apply sub64_of_le fits
    have := layout.fits
    unfold Cell.stop at stopBound
    omega
  have unsplit : page.allocate size cell.tag.ptr = ((page.removeFreeMList
      cell.tag.ptr).removeFreeSList cell.tag.ptr).insertUsedList cell.tag.ptr := by
    simp only [allocate, extraBytes]
    rw [if_neg]
    rw [rest.data.blockAlign]
    omega
  rw [unsplit]
  have placed := insertUsedList_holds rest.holds notUsed
  have data := rest.data.trans (insertUsedList_data _ cell.tag.ptr)
  have old : Arranged page (left ++ [cell] ++ right) [] := by simpa using layout.toArranged
  have rebuilt : Arranged (((page.removeFreeMList cell.tag.ptr).removeFreeSList
      cell.tag.ptr).insertUsedList cell.tag.ptr)
      (left ++ [{ cell with tag := { cell.tag with free := false } }] ++ right) [] := by
    refine old.rebuild data.addr data.size (Nat.le_of_eq data.created.symm) ?_ ?_ ?_ ?_ ?_ ?_
    · simpa using tiles_retag _ layout.tiles
    · intro other _
      exact ⟨data.blockAddr _, data.blockSize _⟩
    · intro other member
      rw [List.mem_singleton.mp member, data.blockAddr, data.blockSize]
      exact extent
    · simpa using layout.distinct
    · intro other member
      rw [List.mem_singleton.mp member, data.created]
      exact layout.created cell (by simp)
    · refine ⟨cell.tag.ptr :: used, freeS, ?_, ?_, ?_, ?_⟩
      · simpa [freePtrs_cons_used] using placed
      · simpa [usedPtrs_cons_used] using (rest.usedPerm.cons _).trans List.perm_middle.symm
      · simpa [freePtrs_cons_used] using rest.freePerm
      · apply rest.decreasing.imp
        intro first second order
        rw [data.blockSize, data.blockSize]
        exact order
  constructor
  · simpa using rebuilt
  · exact coalesced_set_used layout.coalesced

def cutPage (taken : Page) (cell : BlockCell) (size : Nat) : Page :=
  ((taken.setSize cell.tag.ptr size).newBlock (cell.addr + size) (cell.size - size)).2

theorem splitRemainder_eq {taken : Page} {used freeS : List Ptr} {size : Nat}
    (layout : Layout page (left ++ cell :: right)) (smaller : size < cell.size)
    (rest : Taken page taken left cell right used freeS) :
    taken.splitRemainder size (cell.size - size) cell.tag.ptr =
      ((cutPage taken cell size).insertFreeMList page.created).insertFreeSList page.created := by
  have stopBound := (tiles_mem layout.tiles (show cell ∈ left ++ cell :: right by simp)).2.2
  have nextAddr : add64 ((taken.setSize cell.tag.ptr size).blocks cell.tag.ptr).addr size =
      cell.addr + size := by
    rw [setSize_blockAddr, rest.data.blockAddr, (layout.extents cell (by simp)).1]
    apply add64_of_lt
    have := layout.fits
    unfold Cell.stop at stopBound
    omega
  have fresh : (taken.setSize cell.tag.ptr size).created = page.created := rest.data.created
  simp only [splitRemainder, nextAddr, cutPage, newBlock, fresh]

section Cut

variable {taken : Page} {used freeS : List Ptr} {size : Nat}
  (layout : Layout page (left ++ cell :: right))
  (rest : Taken page taken left cell right used freeS)

include layout rest

theorem cut_blockAddr {other : BlockCell} (member : other ∈ left ++ cell :: right) :
    ((cutPage taken cell size).blocks other.tag.ptr).addr = other.addr := by
  have notFresh : other.tag.ptr ≠ (taken.setSize cell.tag.ptr size).created := by
    have bound := layout.created other member
    have fresh : (taken.setSize cell.tag.ptr size).created = page.created := rest.data.created
    rw [fresh]
    exact Nat.ne_of_lt bound
  rw [cutPage, newBlock_blockAddr, if_neg notFresh, setSize_blockAddr, rest.data.blockAddr]
  exact (layout.extents other member).1

omit layout in
theorem cut_blockSize {ptr : Ptr} (notFresh : ptr ≠ page.created) :
    ((cutPage taken cell size).blocks ptr).size =
      if ptr = cell.tag.ptr then size else (page.blocks ptr).size := by
  have fresh : (taken.setSize cell.tag.ptr size).created = page.created := rest.data.created
  rw [cutPage, newBlock_blockSize, if_neg (by rw [fresh]; exact notFresh), setSize_blockSize,
    rest.data.blockSize]

omit layout in
theorem cut_created :
    ((cutPage taken cell size).blocks page.created).addr = cell.addr + size ∧
      ((cutPage taken cell size).blocks page.created).size = cell.size - size := by
  have fresh : (taken.setSize cell.tag.ptr size).created = page.created := rest.data.created
  rw [cutPage, newBlock_blockAddr, newBlock_blockSize, if_pos fresh.symm, if_pos fresh.symm]
  exact ⟨rfl, rfl⟩

theorem fresh_not_listed : page.created ∉ used ∧
    page.created ∉ freePtrs left ++ freePtrs right ∧ page.created ∉ freeS := by
  have bound : ∀ other ∈ left ++ right, other.tag.ptr < page.created := by
    intro other member
    apply layout.created other
    simp only [List.mem_append, List.mem_cons] at member ⊢
    tauto
  have notFree : page.created ∉ freePtrs left ++ freePtrs right := by
    rw [← freePtrs_append]
    intro member
    rcases mem_freePtrs.mp member with ⟨other, inside, _, same⟩
    exact Nat.ne_of_lt (bound other inside) same
  refine ⟨?_, notFree, ?_⟩
  · intro member
    have listed := rest.usedPerm.mem_iff.mp member
    rw [← usedPtrs_append] at listed
    rcases mem_usedPtrs.mp listed with ⟨other, inside, _, same⟩
    exact Nat.ne_of_lt (bound other inside) same
  · intro member
    exact notFree (rest.freePerm.mem_iff.mp member)

/-- The remainder sits between the free blocks on its left and on its right. -/
theorem cut_order (positive : 0 < size) (smaller : size < cell.size) :
    ((freePtrs left ++ freePtrs right).takeWhile fun other =>
        ((cutPage taken cell size).blocks other).addr <
          ((cutPage taken cell size).blocks page.created).addr) = freePtrs left ∧
      ((freePtrs left ++ freePtrs right).dropWhile fun other =>
        ((cutPage taken cell size).blocks other).addr <
          ((cutPage taken cell size).blocks page.created).addr) = freePtrs right := by
  rw [(cut_created rest).1]
  apply cut_append
  · intro ptr member
    rcases mem_freePtrs.mp member with ⟨other, inside, _, same⟩
    have before := layout.toArranged.blockAddr_lt_of_mem inside
    rw [← same, cut_blockAddr layout rest (by simp [inside])]
    unfold Cell.stop at before
    simp only [decide_eq_true_eq]
    omega
  · intro ptr member
    rcases mem_freePtrs.mp member with ⟨other, inside, _, same⟩
    have after := layout.toArranged.stop_le_of_mem inside
    rw [← same, cut_blockAddr layout rest (by simp [inside])]
    unfold Cell.stop at after
    simp only [decide_eq_false_iff_not]
    omega

theorem cut_decreasing : freeS.Pairwise fun first second =>
    ((cutPage taken cell size).blocks second).size ≤
      ((cutPage taken cell size).blocks first).size := by
  have notCell : ∀ ptr ∈ freeS, ptr ≠ cell.tag.ptr := by
    intro ptr member
    have listed := rest.freePerm.mem_iff.mp member
    rw [← freePtrs_append] at listed
    rcases mem_freePtrs.mp listed with ⟨other, inside, _, same⟩
    rw [← same]
    exact layout.toArranged.ptr_not_mem inside
  have notFresh : ∀ ptr ∈ freeS, ptr ≠ page.created := by
    intro ptr member same
    exact (fresh_not_listed layout rest).2.2 (same ▸ member)
  apply rest.decreasing.imp_of_mem
  intro first second firstMember secondMember order
  rw [cut_blockSize rest (notFresh first firstMember),
    cut_blockSize rest (notFresh second secondMember),
    if_neg (notCell first firstMember), if_neg (notCell second secondMember)]
  exact order

/-- The lists after the remainder of a split has been inserted. -/
theorem splitRemainder_holds (positive : 0 < size) (smaller : size < cell.size) :
    ∃ listed, Holds (taken.splitRemainder size (cell.size - size) cell.tag.ptr) used
        (freePtrs left ++ page.created :: freePtrs right) listed ∧
      listed.Perm (page.created :: freeS) ∧
      listed.Pairwise fun first second => ((cutPage taken cell size).blocks second).size ≤
        ((cutPage taken cell size).blocks first).size := by
  have freshPtr : (taken.setSize cell.tag.ptr size).created = page.created := rest.data.created
  have grown : (cutPage taken cell size).created = page.created + 1 :=
    congrArg (· + 1) freshPtr
  have outside := fresh_not_listed layout rest
  have resized : Holds (taken.setSize cell.tag.ptr size) used (freePtrs left ++ freePtrs right)
      freeS := setSize_holds size rest.holds
  have cut : Holds (cutPage taken cell size) used (freePtrs left ++ freePtrs right) freeS :=
    newBlock_holds _ _ (by rw [freshPtr]; exact outside.1) (by rw [freshPtr]; exact outside.2.1)
      (by rw [freshPtr]; exact outside.2.2) resized
  have countBound := layout.toArranged.length_le
  have freeBound : (freePtrs left ++ freePtrs right).length ≤ (cutPage taken cell size).created := by
    have leftBound := freePtrs_length_le left
    have rightBound := freePtrs_length_le right
    simp only [List.length_append, List.length_cons] at countBound ⊢
    omega
  have inM := insertFreeMList_holds cut outside.2.1 freeBound
  rw [(cut_order layout rest positive smaller).1, (cut_order layout rest positive smaller).2] at inM
  have dataM := insertFreeMList_data (cutPage taken cell size) page.created
  have inS := insertFreeSList_holds inM outside.2.2 (by
    rw [rest.freePerm.length_eq, dataM.created]
    exact freeBound)
  rw [← splitRemainder_eq layout smaller rest] at inS
  simp only [dataM.blockSize] at inS
  exact ⟨_, inS, insert_perm _ _ _, insert_decreasing _ _ (cut_decreasing layout rest)⟩

end Cut

def splitCells (page : Page) (cell : BlockCell) (size : Nat) : List BlockCell :=
  [{ addr := cell.addr, size := size, tag := { ptr := cell.tag.ptr, free := false } },
    { addr := cell.addr + size, size := cell.size - size,
      tag := { ptr := page.created, free := true } }]

theorem coalesced_split {size : Nat} (chain : Coalesced (left ++ cell :: right))
    (free : cell.tag.free = true) : Coalesced (left ++ splitCells page cell size ++ right) := by
  have used := coalesced_set_used chain
  unfold Coalesced splitCells at *
  rw [List.append_assoc, List.isChain_append] at *
  rcases used with ⟨leftChain, tailChain, _⟩
  refine ⟨leftChain, ?_, ?_⟩
  · simp only [List.cons_append, List.nil_append, List.isChain_cons] at chain tailChain ⊢
    refine ⟨by simp, ?_, tailChain.2⟩
    intro second member
    have apart := chain.2.1.1 second member
    simpa [free] using apart
  · intro first _ second secondMember
    simp only [List.cons_append, List.head?_cons, Option.mem_def, Option.some.injEq]
      at secondMember
    subst secondMember
    simp

theorem allocate_split {size : Nat} (layout : Layout page (left ++ cell :: right))
    (free : cell.tag.free = true) (positive : 0 < size) (smaller : size < cell.size)
    (split : page.blockAlign_ ≤ cell.size - size) :
    Layout (page.allocate size cell.tag.ptr) (left ++ splitCells page cell size ++ right) := by
  rcases take_free layout free with ⟨used, freeS, rest⟩
  have extent := layout.extents cell (by simp)
  have stopBound := (tiles_mem layout.tiles (show cell ∈ left ++ cell :: right by simp)).2.2
  have pageFits := layout.fits
  unfold Cell.stop at stopBound
  have extraBytes : sub64 ((((page.removeFreeMList cell.tag.ptr).removeFreeSList
      cell.tag.ptr).blocks cell.tag.ptr).size) size = cell.size - size := by
    rw [rest.data.blockSize, extent.2]
    exact sub64_of_le (Nat.le_of_lt smaller) (by omega)
  rcases splitRemainder_holds layout rest positive smaller with
    ⟨listed, holds, listedPerm, decreasing⟩
  have cutData : SameData (cutPage ((page.removeFreeMList cell.tag.ptr).removeFreeSList
      cell.tag.ptr) cell size) (page.allocate size cell.tag.ptr) := by
    simp only [allocate, extraBytes]
    rw [if_pos (by rw [rest.data.blockAlign]; exact split), splitRemainder_eq layout smaller rest]
    exact ((insertFreeMList_data _ _).trans (insertFreeSList_data _ _)).trans
      (insertUsedList_data _ _)
  have placed : Holds (page.allocate size cell.tag.ptr) (cell.tag.ptr :: used)
      (freePtrs left ++ page.created :: freePtrs right) listed := by
    simp only [allocate, extraBytes]
    rw [if_pos (by rw [rest.data.blockAlign]; exact split)]
    exact insertUsedList_holds holds (rest.not_mem_used layout)
  have freshPtr : cell.tag.ptr ≠ page.created := Nat.ne_of_lt (layout.created cell (by simp))
  have grown : (page.allocate size cell.tag.ptr).created = page.created + 1 :=
    cutData.created.trans (congrArg (· + 1) rest.data.created)
  have old : Arranged page (left ++ [cell] ++ right) [] := by simpa using layout.toArranged
  constructor
  · refine old.rebuild (cutData.addr.trans rest.data.addr) (cutData.size.trans rest.data.size)
      (by omega) ?_ ?_ ?_ ?_ ?_ ?_
    · simpa [splitCells] using tiles_split size _ _ positive smaller layout.tiles
    · intro other member
      have inside : other ∈ left ++ cell :: right := by
        simp only [List.mem_append, List.mem_cons] at member ⊢
        tauto
      have notFresh : other.tag.ptr ≠ page.created := Nat.ne_of_lt (layout.created other inside)
      rw [cutData.blockAddr, cutData.blockSize, cut_blockAddr layout rest inside,
        cut_blockSize rest notFresh, if_neg (layout.toArranged.ptr_not_mem member)]
      exact ⟨(layout.extents other inside).1.symm, rfl⟩
    · intro other member
      rw [cutData.blockAddr, cutData.blockSize]
      rcases List.mem_cons.mp member with here | later
      · subst here
        rw [cut_blockSize rest freshPtr, if_pos rfl]
        have atCell : ((cutPage ((page.removeFreeMList cell.tag.ptr).removeFreeSList
            cell.tag.ptr) cell size).blocks cell.tag.ptr).addr = cell.addr :=
          cut_blockAddr layout rest (by simp)
        exact ⟨atCell, rfl⟩
      · rw [List.mem_singleton.mp later]
        exact cut_created rest
    · have distinct := layout.distinct
      have fresh : ∀ other ∈ left ++ cell :: right, other.tag.ptr ≠ page.created :=
        fun other inside => Nat.ne_of_lt (layout.created other inside)
      simp only [splitCells, List.map_append, List.map_cons, List.append_assoc,
        List.cons_append, List.nil_append] at distinct ⊢
      rw [List.append_cons, List.nodup_middle, ← List.append_cons]
      have notListed : page.created ∉ (left ++ cell :: right).map fun other => other.tag.ptr := by
        intro member
        rcases List.mem_map.mp member with ⟨other, inside, same⟩
        exact fresh other inside same
      rw [List.map_append, List.map_cons] at notListed
      exact List.nodup_cons.mpr ⟨notListed, distinct⟩
    · intro other member
      rw [grown]
      have bound := layout.created cell (by simp)
      rcases List.mem_cons.mp member with here | later
      · subst here
        exact Nat.lt_succ_of_lt bound
      · rw [List.mem_singleton.mp later]
        exact Nat.lt_succ_self _
    · refine ⟨cell.tag.ptr :: used, listed, ?_, ?_, ?_, ?_⟩
      · simpa [splitCells, freePtrs_cons_used, freePtrs_cons_free] using placed
      · simpa [splitCells, usedPtrs_cons_used, usedPtrs_cons_free] using
          (rest.usedPerm.cons _).trans List.perm_middle.symm
      · simpa [splitCells, freePtrs_cons_used, freePtrs_cons_free] using
          (listedPerm.trans (rest.freePerm.cons _)).trans List.perm_middle.symm
      · simpa only [cutData.blockSize] using decreasing
  · exact coalesced_split layout.coalesced free

end Allocate

end Page

end Espiral.VortexMemoryAllocator
