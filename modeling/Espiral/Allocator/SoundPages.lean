import Mathlib.Algebra.BigOperators.Group.List.Basic
import Espiral.Allocator.PageSearch

/-!
# Pages between two calls

A page that survives a call has a layout, holds a used block, and either all
its blocks are whole multiples of the block alignment or it is a single used
block, as a reservation leaves it. This is what makes every request an exact
cut: a block is handed out with the size that was asked for.
-/

namespace Espiral.VortexMemoryAllocator

set_option autoImplicit false

open IntrusiveLists MachineWords Tilings

/-- Every cell a multiple of `align`, or a single used cell. -/
def Granular (align : Nat) (cells : List BlockCell) : Prop :=
  (∀ cell ∈ cells, align ∣ cell.size) ∨ ∃ cell, cells = [cell] ∧ cell.tag.free = false

/-- The cells that take the place of a free one when `size` bytes are cut off it. -/
def allocatedCells (page : Page) (cell : BlockCell) (size : Nat) : List BlockCell :=
  if cell.size = size then [{ cell with tag := { cell.tag with free := false } }]
  else Page.splitCells page cell size

theorem usedCells_allocatedCells (page : Page) (cell : BlockCell) (size : Nat) :
    usedCells (allocatedCells page cell size) =
      [{ addr := cell.addr, size := size, tag := { ptr := cell.tag.ptr, free := false } }] := by
  unfold allocatedCells
  split
  · rename_i exact
    simp [usedCells, ← exact]
  · simp [usedCells, Page.splitCells]

namespace Page

section Allocate

variable {page : Page} {left right : List BlockCell} {cell : BlockCell} {size : Nat}

theorem allocate_layout (layout : Layout page (left ++ cell :: right))
    (free : cell.tag.free = true) (positive : 0 < size)
    (exact : cell.size = size ∨ size < cell.size ∧ page.blockAlign_ ≤ cell.size - size)
    (alignment : 0 < page.blockAlign_) :
    Layout (page.allocate size cell.tag.ptr) (left ++ allocatedCells page cell size ++ right) := by
  rcases exact with whole | ⟨smaller, split⟩
  · simp only [allocatedCells, if_pos whole, List.append_assoc, List.cons_append,
      List.nil_append]
    exact allocate_whole layout free (Nat.le_of_eq whole.symm) (by omega)
  · simp only [allocatedCells, if_neg (Nat.ne_of_gt smaller)]
    exact allocate_split layout free positive smaller split

theorem allocate_extent (page : Page) (size : Nat) (block : Ptr) :
    (page.allocate size block).addr = page.addr ∧ (page.allocate size block).size = page.size ∧
      (page.allocate size block).blockAlign_ = page.blockAlign_ := by
  unfold allocate
  simp only
  split <;> exact ⟨rfl, rfl, rfl⟩

theorem mergeLeft_extent (page : Page) (block : Ptr) :
    (page.mergeLeft block).2.addr = page.addr ∧ (page.mergeLeft block).2.size = page.size ∧
      (page.mergeLeft block).2.blockAlign_ = page.blockAlign_ := by
  unfold mergeLeft
  cases (page.blocks block).prevFreeM with
  | none => exact ⟨rfl, rfl, rfl⟩
  | some prevBlock =>
      simp only
      split <;> exact ⟨rfl, rfl, rfl⟩

theorem mergeRight_extent (page : Page) (block : Ptr) :
    (page.mergeRight block).addr = page.addr ∧ (page.mergeRight block).size = page.size ∧
      (page.mergeRight block).blockAlign_ = page.blockAlign_ := by
  unfold mergeRight
  cases (page.blocks block).nextFreeM with
  | none => exact ⟨rfl, rfl, rfl⟩
  | some nextBlock =>
      simp only
      split <;> exact ⟨rfl, rfl, rfl⟩

theorem release_extent (page : Page) (block : Ptr) :
    (page.release block).addr = page.addr ∧ (page.release block).size = page.size ∧
      (page.release block).blockAlign_ = page.blockAlign_ := by
  have merged := mergeLeft_extent ((page.removeUsedList block).insertFreeMList block) block
  have joined := mergeRight_extent
    (((page.removeUsedList block).insertFreeMList block).mergeLeft block).2
    (((page.removeUsedList block).insertFreeMList block).mergeLeft block).1
  exact ⟨joined.1.trans merged.1, joined.2.1.trans merged.2.1, joined.2.2.trans merged.2.2⟩

end Allocate

structure Sound (align : Nat) (page : Page) : Prop where
  blockAlign : page.blockAlign_ = align
  layout : ∃ cells, Layout page cells ∧ Granular align cells ∧ usedCells cells ≠ []

structure Granted (align : Nat) (page granted : Page) (addr size : Nat) : Prop where
  sound : Sound align granted
  extent : granted.addr = page.addr ∧ granted.size = page.size
  used : granted.usedBlocks.Perm ((addr, size) :: page.usedBlocks)
  inside : page.addr ≤ addr ∧ addr + size ≤ page.addr + page.size

section Grants

variable {align : Nat} {page : Page} {size : Nat}

theorem usedBlocks_of_layout {cells : List BlockCell} (layout : Layout page cells) :
    page.usedBlocks.Perm ((usedCells cells).map fun cell => (cell.addr, cell.size)) :=
  layout.toArranged.usedBlocks_perm

theorem allocatedCells_dvd {cells left right : List BlockCell} {cell : BlockCell}
    (split : cells = left ++ cell :: right) (multiples : ∀ other ∈ cells, align ∣ other.size)
    (aligned : align ∣ size) :
    ∀ other ∈ left ++ allocatedCells page cell size ++ right, align ∣ other.size := by
  subst split
  have cellAligned := multiples cell (by simp)
  intro other member
  simp only [List.mem_append, or_assoc] at member
  rcases member with before | here | after
  · exact multiples other (by simp [before])
  · unfold allocatedCells at here
    split at here
    · rw [List.mem_singleton.mp here]
      exact cellAligned
    · simp only [splitCells, List.mem_cons, List.not_mem_nil, or_false] at here
      rcases here with first | second
      · rw [first]
        exact aligned
      · rw [second]
        exact Nat.dvd_sub cellAligned aligned
  · exact multiples other (by simp [after])

theorem allocate_granted {left right : List BlockCell} {cell : BlockCell}
    (layout : Layout page (left ++ cell :: right)) (blockAlign : page.blockAlign_ = align)
    (alignment : 0 < align) (free : cell.tag.free = true) (positive : 0 < size)
    (exact : cell.size = size ∨ size < cell.size ∧ align ≤ cell.size - size)
    (grain : Granular align (left ++ allocatedCells page cell size ++ right)) :
    Granted align page (page.allocate size cell.tag.ptr) cell.addr size ∧
      ((page.allocate size cell.tag.ptr).blocks cell.tag.ptr).addr = cell.addr := by
  have placed := allocate_layout layout free positive (by rw [blockAlign]; exact exact)
    (by rw [blockAlign]; exact alignment)
  have extent := allocate_extent page size cell.tag.ptr
  have usedHere := usedCells_allocatedCells page cell size
  have used : usedCells (left ++ allocatedCells page cell size ++ right) =
      usedCells left ++
        [{ addr := cell.addr, size := size, tag := { ptr := cell.tag.ptr, free := false } }] ++
          usedCells right := by
    rw [usedCells_append, usedCells_append, usedHere]
  have range := tiles_mem layout.tiles (show cell ∈ left ++ cell :: right by simp)
  unfold Cell.stop at range
  constructor
  · constructor
    · exact ⟨extent.2.2.trans blockAlign, _, placed, grain, by rw [used]; simp⟩
    · exact ⟨extent.1, extent.2.1⟩
    · have before := usedBlocks_of_layout layout
      have after := usedBlocks_of_layout placed
      rw [usedCells_append, usedCells_cons_free free] at before
      rw [used, List.append_assoc] at after
      simp only [List.map_append, List.map_cons, List.cons_append, List.nil_append] at before after
      exact after.trans (List.perm_middle.trans (before.symm.cons _))
    · rcases exact with whole | ⟨smaller, _⟩ <;> omega
  · have member : (⟨cell.addr, size, ⟨cell.tag.ptr, false⟩⟩ : BlockCell) ∈
        left ++ allocatedCells page cell size ++ right := by
      have inside : (⟨cell.addr, size, ⟨cell.tag.ptr, false⟩⟩ : BlockCell) ∈
          usedCells (left ++ allocatedCells page cell size ++ right) := by
        rw [used]
        simp
      exact (List.mem_filter.mp inside).1
    exact (placed.extents _ member).1

theorem Sound.allocate (sound : Sound align page) (alignment : 0 < align) (positive : 0 < size)
    (aligned : align ∣ size) {block : Ptr} (found : page.findFreeBlock size = some block) :
    Granted align page (page.allocate size block)
        ((page.allocate size block).blocks block).addr size ∧
      page.BestFit size ((page.allocate size block).blocks block).addr := by
  rcases sound.layout with ⟨cells, layout, grain, _⟩
  rcases findFreeBlock_some layout found with ⟨left, cell, right, split, tag, large, smallest⟩
  have best := bestFit_of_cell layout (by rw [split]; simp) (by rw [tag]) large smallest
  subst split
  have free : cell.tag.free = true := by rw [tag]
  have multiples : ∀ other ∈ left ++ cell :: right, align ∣ other.size := by
    rcases grain with multiples | ⟨only, single, used⟩
    · exact multiples
    · have same : cell = only := by
        apply List.mem_singleton.mp
        rw [← single]
        simp
      rw [same, used] at free
      cases free
  have exact : cell.size = size ∨ size < cell.size ∧ align ≤ cell.size - size := by
    by_cases whole : cell.size = size
    · exact Or.inl whole
    · have remainder := Nat.dvd_sub (multiples cell (by simp)) aligned
      exact Or.inr ⟨by omega, Nat.le_of_dvd (by omega) remainder⟩
  have granted := allocate_granted layout sound.blockAlign alignment free positive exact
    (Or.inl (allocatedCells_dvd rfl multiples aligned))
  have ptr : cell.tag.ptr = block := by rw [tag]
  rw [ptr] at granted
  rw [granted.2]
  exact ⟨granted.1, best⟩

/-- The first block of a new page, which is either as large as the page or cut
from a page of whole multiples. -/
theorem new_allocate {addr pageSize : Nat} (alignment : 0 < align) (positive : 0 < size)
    (fits : addr + pageSize < 2 ^ 64)
    (grain : pageSize = size ∨ align ∣ size ∧ align ∣ pageSize ∧ size ≤ pageSize) :
    ∃ block, (Page.new addr pageSize align).findFreeBlock size = some block ∧
      ((((Page.new addr pageSize align).allocate size block).blocks block).addr = addr) ∧
      Granted align (Page.new addr pageSize align)
        ((Page.new addr pageSize align).allocate size block) addr size := by
  have large : size ≤ pageSize := by rcases grain with same | ⟨_, _, large⟩ <;> omega
  have layout := new_layout align (Nat.lt_of_lt_of_le positive large) fits
  have exact : pageSize = size ∨ size < pageSize ∧ align ≤ pageSize - size := by
    by_cases whole : pageSize = size
    · exact Or.inl whole
    · rcases grain with same | ⟨sizeAligned, pageAligned, _⟩
      · exact Or.inl same
      · have remainder := Nat.dvd_sub pageAligned sizeAligned
        exact Or.inr ⟨by omega, Nat.le_of_dvd (by omega) remainder⟩
  have cut : Granular align (([] : List BlockCell) ++ allocatedCells (Page.new addr pageSize align)
      { addr := addr, size := pageSize, tag := { ptr := 0, free := true } } size ++ []) := by
    by_cases whole : pageSize = size
    · right
      exact ⟨_, by simp only [allocatedCells, if_pos whole]; rfl, rfl⟩
    · rcases grain with same | ⟨sizeAligned, pageAligned, _⟩
      · exact absurd same whole
      · left
        apply allocatedCells_dvd rfl ?_ sizeAligned
        intro other member
        rw [List.mem_singleton.mp member]
        exact pageAligned
  have granted := @allocate_granted align _ size [] [] _ layout rfl alignment rfl positive
    exact cut
  refine ⟨0, ?_, granted.2, granted.1⟩
  simp [findFreeBlock, smallestFit, Page.new, Block.new, large]

theorem releaseCells_dvd {left right : List BlockCell} {cell : BlockCell}
    (multiples : ∀ other ∈ left ++ cell :: right, align ∣ other.size) :
    ∀ other ∈ releaseCells left cell right, align ∣ other.size := by
  have leftPart : (∀ other ∈ (absorbLeft left (freed cell)).1, align ∣ other.size) ∧
      align ∣ (absorbLeft left (freed cell)).2.size := by
    have cellAligned : align ∣ (freed cell).size := multiples cell (by simp)
    rcases List.eq_nil_or_concat left with empty | ⟨front, last, split⟩
    · subst empty
      exact ⟨by simp [absorbLeft_nil], cellAligned⟩
    · rw [List.concat_eq_append] at split
      subst split
      have lastAligned : align ∣ last.size := multiples last (by simp)
      by_cases lastFree : last.tag.free = true
      · rw [absorbLeft_free lastFree]
        exact ⟨fun other member => multiples other (by simp [member]),
          Nat.dvd_add lastAligned cellAligned⟩
      · rw [absorbLeft_used (Bool.eq_false_iff.mpr lastFree)]
        refine ⟨fun other member => multiples other ?_, cellAligned⟩
        exact List.mem_append_left _ member
  have rightPart : (∀ other ∈ (absorbRight (absorbLeft left (freed cell)).2 right).2,
      align ∣ other.size) ∧
      align ∣ (absorbRight (absorbLeft left (freed cell)).2 right).1.size := by
    cases right with
    | nil => exact ⟨by simp [absorbRight], leftPart.2⟩
    | cons next rest =>
        have nextAligned : align ∣ next.size := multiples next (by simp)
        by_cases nextFree : next.tag.free = true
        · rw [absorbRight_free nextFree]
          exact ⟨fun other member => multiples other (by simp [member]),
            Nat.dvd_add leftPart.2 nextAligned⟩
        · rw [absorbRight_used (Bool.eq_false_iff.mpr nextFree)]
          refine ⟨fun other member => multiples other ?_, leftPart.2⟩
          exact List.mem_append_right _ (List.mem_cons_of_mem _ member)
  intro other member
  simp only [releaseCells, List.mem_append, List.mem_cons] at member
  rcases member with before | here | after
  · exact leftPart.1 other before
  · rw [here]
    exact rightPart.2
  · exact rightPart.1 other after

structure TakenBack (align : Nat) (page released : Page) (addr size : Nat) : Prop where
  used : page.usedBlocks.Perm ((addr, size) :: released.usedBlocks)
  extent : released.addr = page.addr ∧ released.size = page.size
  kept : released.empty = true ∧ released.usedBlocks = [] ∨
    released.empty = false ∧ Sound align released

theorem Sound.release (sound : Sound align page) {addr : Nat} {block : Ptr}
    (found : page.findUsedBlock addr = some block) :
    TakenBack align page (page.release block) addr (page.blocks block).size := by
  rcases sound.layout with ⟨cells, layout, grain, _⟩
  rcases findUsedBlock_some layout found with ⟨left, cell, right, split, tag, here⟩
  subst split
  have usedCell : cell.tag.free = false := by rw [tag]
  have ptr : cell.tag.ptr = block := by rw [tag]
  have released := release_layout layout usedCell
  have extent := release_extent page cell.tag.ptr
  have cellSize := (layout.extents cell (by simp)).2
  rw [ptr] at released extent cellSize
  have remaining := usedCells_releaseCells left cell right
  constructor
  · have before := usedBlocks_of_layout layout
    have after := usedBlocks_of_layout released
    rw [usedCells_append, usedCells_cons_used usedCell] at before
    rw [remaining] at after
    simp only [List.map_append, List.map_cons] at before after
    rw [cellSize, ← here]
    exact before.trans (List.perm_middle.trans (after.symm.cons _))
  · exact ⟨extent.1, extent.2.1⟩
  · by_cases last : usedCells left ++ usedCells right = []
    · left
      refine ⟨(empty_iff released).mpr (by rw [remaining, last]), ?_⟩
      have after := usedBlocks_of_layout released
      rw [remaining, last] at after
      exact List.perm_nil.mp after
    · right
      constructor
      · rw [Bool.eq_false_iff]
        intro empty
        exact last (by rw [← remaining]; exact (empty_iff released).mp empty)
      · refine ⟨extent.2.2.trans sound.blockAlign, _, released, Or.inl ?_, ?_⟩
        · rcases grain with multiples | ⟨only, single, _⟩
          · exact releaseCells_dvd multiples
          · exfalso
            apply last
            have size := congrArg List.length single
            simp only [List.length_append, List.length_cons, List.length_nil] at size
            have leftNil : left = [] := List.length_eq_zero_iff.mp (by omega)
            have rightNil : right = [] := List.length_eq_zero_iff.mp (by omega)
            rw [leftNil, rightNil]
            rfl
        · rw [remaining]
          exact last

end Grants

theorem Sound.findUsedBlock_isSome {align : Nat} {page : Page} (sound : Sound align page)
    {addr : Nat} :
    (page.findUsedBlock addr).isSome = true ↔ ∃ size, (addr, size) ∈ page.usedBlocks := by
  rcases sound.layout with ⟨cells, layout, _, _⟩
  have used := usedBlocks_of_layout layout
  constructor
  · intro present
    rcases Option.isSome_iff_exists.mp present with ⟨block, found⟩
    rcases findUsedBlock_some layout found with ⟨left, cell, right, split, tag, here⟩
    refine ⟨cell.size, used.mem_iff.mpr (List.mem_map.mpr ⟨cell, ?_, by rw [here]⟩)⟩
    subst split
    exact List.mem_filter.mpr ⟨by simp, by simp [tag]⟩
  · rintro ⟨size, listed⟩
    rcases List.mem_map.mp (used.mem_iff.mp listed) with ⟨cell, inside, same⟩
    rcases List.mem_filter.mp inside with ⟨member, usedCell⟩
    cases found : page.findUsedBlock addr with
    | some block => rfl
    | none =>
        exfalso
        exact findUsedBlock_none layout found cell member (by simpa using usedCell)
          (congrArg Prod.fst same)

def Apart (first second : Nat × Nat) : Prop :=
  first.1 + first.2 ≤ second.1 ∨ second.1 + second.2 ≤ first.1

instance (first second : Nat × Nat) : Decidable (Apart first second) :=
  inferInstanceAs (Decidable (_ ∨ _))

theorem Apart.symm {first second : Nat × Nat} (apart : Apart first second) :
    Apart second first := Or.symm apart

theorem Sound.used_apart {align : Nat} {page : Page} (sound : Sound align page) :
    page.usedBlocks.Pairwise Apart := by
  rcases sound.layout with ⟨cells, layout, _, _⟩
  apply (usedBlocks_of_layout layout).symm.pairwise ?_ Apart.symm
  apply List.pairwise_map.mpr
  apply List.Pairwise.sublist List.filter_sublist
  exact (tiles_pairwise layout.tiles).imp Or.inl

theorem Sound.used_inside {align : Nat} {page : Page} (sound : Sound align page)
    {block : Nat × Nat} (member : block ∈ page.usedBlocks) :
    page.addr ≤ block.1 ∧ 0 < block.2 ∧ block.1 + block.2 ≤ page.addr + page.size := by
  rcases sound.layout with ⟨cells, layout, _, _⟩
  rcases List.mem_map.mp ((usedBlocks_of_layout layout).mem_iff.mp member) with
    ⟨cell, inside, same⟩
  rw [← same]
  exact tiles_mem layout.tiles (List.mem_filter.mp inside).1

theorem Sound.positive {align : Nat} {page : Page} (sound : Sound align page) : 0 < page.size := by
  rcases sound.layout with ⟨cells, layout, _, some⟩
  rcases List.exists_mem_of_ne_nil _ some with ⟨cell, member⟩
  have range := tiles_mem layout.tiles (List.mem_filter.mp member).1
  unfold Cell.stop at range
  omega

theorem Sound.fits {align : Nat} {page : Page} (sound : Sound align page) :
    page.addr + page.size < 2 ^ 64 := by
  rcases sound.layout with ⟨cells, layout, _, _⟩
  exact layout.fits

theorem sum_used_le {start stop : Nat} {cells : List BlockCell} (tiles : Tiles start cells stop) :
    start + ((usedCells cells).map fun cell => cell.size).sum ≤ stop := by
  induction cells generalizing start with
  | nil =>
      have same : start = stop := tiles
      simp [usedCells, same]
  | cons cell rest ih =>
      rcases tiles with ⟨here, _, tail⟩
      have later := ih tail
      unfold Cell.stop at later
      cases used : cell.tag.free with
      | true =>
          rw [usedCells_cons_free used]
          omega
      | false =>
          rw [usedCells_cons_used used, List.map_cons, List.sum_cons]
          omega

theorem Sound.sum_used_le {align : Nat} {page : Page} (sound : Sound align page) :
    (page.usedBlocks.map Prod.snd).sum ≤ page.size := by
  rcases sound.layout with ⟨cells, layout, _, _⟩
  have total := ((usedBlocks_of_layout layout).map Prod.snd).sum_eq
  have bound := Page.sum_used_le layout.tiles
  rw [List.map_map] at total
  have same : ((usedCells cells).map (Prod.snd ∘ fun cell => (cell.addr, cell.size))).sum =
      ((usedCells cells).map fun cell => cell.size).sum := rfl
  omega

end Page

end Espiral.VortexMemoryAllocator
