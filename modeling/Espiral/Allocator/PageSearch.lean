import Mathlib.Data.List.TakeWhile
import Espiral.Allocator.PageRelease

/-!
# Searching a page

What the two searches of a page find, and what the used list and the M-list say,
in terms of the layout.
-/

namespace Espiral.VortexMemoryAllocator

set_option autoImplicit false

open IntrusiveLists MachineWords Tilings

namespace Page

def freeBlocks (page : Page) : List (Nat × Nat) :=
  (collect freeMLink page.blocks page.created page.freeMList_).map fun block =>
    ((page.blocks block).addr, (page.blocks block).size)

def BestFit (page : Page) (size start : Nat) : Prop :=
  ∃ length, (start, length) ∈ page.freeBlocks ∧ size ≤ length ∧
    ∀ other ∈ page.freeBlocks, size ≤ other.2 → length ≤ other.2

section SmallestFit

variable {page : Page} {size : Nat}

theorem smallestFit_segment {fuel : Nat} {prev : Option Ptr} {freeBlock : Ptr} {rest : List Ptr}
    (chain : Segment freeSLink page.blocks prev (some freeBlock) (freeBlock :: rest) none)
    (enough : rest.length ≤ fuel) (large : size ≤ (page.blocks freeBlock).size) :
    ∃ larger smaller,
      freeBlock :: rest = larger ++ page.smallestFit size fuel freeBlock :: smaller ∧
        size ≤ (page.blocks (page.smallestFit size fuel freeBlock)).size ∧
        ∀ next, smaller.head? = some next → (page.blocks next).size < size := by
  induction rest generalizing fuel prev freeBlock with
  | nil =>
      have last : (page.blocks freeBlock).nextFreeS = none := chain.2.2
      have stay : page.smallestFit size fuel freeBlock = freeBlock := by
        cases fuel with
        | zero => rfl
        | succ fuel => simp [smallestFit, last]
      exact ⟨[], [], by simp [stay], by simpa [stay] using large, by simp⟩
  | cons next rest ih =>
      have nextChain := chain.2.2
      have link : (page.blocks freeBlock).nextFreeS = some next := nextChain.1
      cases fuel with
      | zero => simp at enough
      | succ fuel =>
          by_cases fits : size ≤ (page.blocks next).size
          · have forward : page.smallestFit size (fuel + 1) freeBlock =
                page.smallestFit size fuel next := by
              simp [smallestFit, link, fits]
            have advanced : Segment freeSLink page.blocks (some freeBlock) (some next)
                (next :: rest) none := by
              rw [← link]
              exact nextChain
            rcases ih advanced (by simpa using enough) fits with ⟨larger, smaller, split, found⟩
            rw [forward]
            exact ⟨freeBlock :: larger, smaller, by rw [split]; rfl, found⟩
          · have stay : page.smallestFit size (fuel + 1) freeBlock = freeBlock := by
              simp [smallestFit, link, fits]
            rw [stay]
            refine ⟨[], next :: rest, rfl, large, ?_⟩
            intro other first
            rw [← Option.some.inj first]
            exact Nat.not_le.mp fits

end SmallestFit

section Layout

variable {page : Page} {cells : List BlockCell} {size : Nat}

theorem findFreeBlock_some (layout : Layout page cells) {block : Ptr}
    (found : page.findFreeBlock size = some block) :
    ∃ left cell right, cells = left ++ cell :: right ∧ cell.tag = { ptr := block, free := true } ∧
      size ≤ cell.size ∧
      ∀ other ∈ cells, other.tag.free = true → size ≤ other.size → cell.size ≤ other.size := by
  rcases layout.lists with ⟨used, freeS, holds, _, freePerm, decreasing⟩
  simp only [List.nil_append] at freePerm
  cases freeS with
  | nil =>
      have empty : page.freeSList_ = none := holds.onFreeS.chain
      simp [findFreeBlock, empty] at found
  | cons first rest =>
      have head : page.freeSList_ = some first := holds.onFreeS.chain.1
      have chain := holds.onFreeS.chain
      rw [head] at chain
      by_cases large : size ≤ (page.blocks first).size
      · have enough : rest.length ≤ page.created := by
          have total := freePerm.length_eq
          have freeBound := freePtrs_length_le cells
          have bound := layout.toArranged.length_le
          simp only [List.length_cons] at total
          omega
        simp only [findFreeBlock, head, ge_iff_le, large, if_true, Option.some.injEq] at found
        rcases smallestFit_segment chain enough large with ⟨larger, smaller, split, fits, short⟩
        rw [found] at split fits
        have listed : block ∈ freePtrs cells := by
          apply freePerm.mem_iff.mp
          rw [split]
          simp
        rcases mem_freePtrs_extent layout.toArranged listed with
          ⟨cell, member, ptr, free, addrEq, sizeEq⟩
        rcases List.append_of_mem member with ⟨left, right, cut⟩
        refine ⟨left, cell, right, cut, ?_, by omega, ?_⟩
        · rw [← ptr, ← free]
        · intro other otherMember otherFree otherFits
          have otherListed : other.tag.ptr ∈ larger ++ block :: smaller := by
            rw [← split]
            exact freePerm.mem_iff.mpr (mem_freePtrs.mpr ⟨other, otherMember, otherFree, rfl⟩)
          have otherSize := (layout.extents other otherMember).2
          rw [split] at decreasing
          rcases List.pairwise_append.mp decreasing with ⟨_, tail, across⟩
          rcases List.mem_append.mp otherListed with inLarger | inTail
          · have order := across _ inLarger block (by simp)
            omega
          · rcases List.mem_cons.mp inTail with here | inSmaller
            · rw [here] at otherSize
              omega
            · exfalso
              cases smaller with
              | nil => simp at inSmaller
              | cons next after =>
                  have nextShort := short next rfl
                  rcases List.mem_cons.mp inSmaller with same | later
                  · rw [same] at otherSize
                    omega
                  · have order := (List.pairwise_cons.mp (List.pairwise_cons.mp tail).2).1 _ later
                    omega
      · simp [findFreeBlock, head, large] at found

theorem findFreeBlock_none (layout : Layout page cells)
    (missing : page.findFreeBlock size = none) :
    ∀ cell ∈ cells, cell.tag.free = true → cell.size < size := by
  intro cell member free
  rcases layout.lists with ⟨used, freeS, holds, _, freePerm, decreasing⟩
  simp only [List.nil_append] at freePerm
  have listed : cell.tag.ptr ∈ freeS :=
    freePerm.mem_iff.mpr (mem_freePtrs.mpr ⟨cell, member, free, rfl⟩)
  have cellSize := (layout.extents cell member).2
  cases freeS with
  | nil => simp at listed
  | cons first rest =>
      have head : page.freeSList_ = some first := holds.onFreeS.chain.1
      have short : (page.blocks first).size < size := by
        by_contra large
        simp [findFreeBlock, head, Nat.not_lt.mp large] at missing
      rcases List.mem_cons.mp listed with here | later
      · rw [← here] at short
        omega
      · have order := (List.pairwise_cons.mp decreasing).1 _ later
        omega

theorem Arranged.used_length_le {pending used : List Ptr}
    (arranged : Arranged page cells pending) (perm : used.Perm (usedPtrs cells)) :
    used.length ≤ page.created := by
  have total := perm.length_eq
  have bound := arranged.length_le
  have filtered : (usedPtrs cells).length ≤ cells.length := by
    simp only [usedPtrs, List.length_map]
    exact List.length_filter_le _ _
  omega

theorem Arranged.usedBlocks_perm {pending : List Ptr} (arranged : Arranged page cells pending) :
    page.usedBlocks.Perm ((usedCells cells).map fun cell => (cell.addr, cell.size)) := by
  rcases arranged.lists with ⟨used, freeS, holds, usedPerm, _⟩
  have collected : collect usedLink page.blocks page.created page.usedList_ = used :=
    collect_segment (arranged.used_length_le usedPerm) holds.onUsed.chain
  rw [usedBlocks, collected]
  have mapped := usedPerm.map fun block => ((page.blocks block).addr, (page.blocks block).size)
  have extents : (usedPtrs cells).map
      (fun block => ((page.blocks block).addr, (page.blocks block).size)) =
      (usedCells cells).map fun cell => (cell.addr, cell.size) := by
    rw [usedPtrs, List.map_map]
    apply List.map_congr_left
    intro cell member
    have extent := arranged.extents cell (List.mem_filter.mp member).1
    simp [extent.1, extent.2]
  rw [← extents]
  exact mapped

theorem Arranged.freeBlocks_eq {pending : List Ptr} (arranged : Arranged page cells pending) :
    page.freeBlocks = (freeCells cells).map fun cell => (cell.addr, cell.size) := by
  rcases arranged.lists with ⟨_, _, holds, _⟩
  have enough : (freePtrs cells).length ≤ page.created :=
    (freePtrs_length_le cells).trans arranged.length_le
  rw [freeBlocks, collect_segment enough holds.onFreeM.chain, freePtrs, List.map_map]
  apply List.map_congr_left
  intro cell member
  have extent := arranged.extents cell (List.mem_filter.mp member).1
  simp [extent.1, extent.2]

theorem mem_freeBlocks (layout : Layout page cells) {range : Nat × Nat} :
    range ∈ page.freeBlocks ↔ ExtentOf (fun role : Role => role.free = true) cells range := by
  rw [layout.toArranged.freeBlocks_eq, List.mem_map]
  simp only [freeCells, List.mem_filter, ExtentOf, and_assoc]

theorem mem_usedBlocks (layout : Layout page cells) {range : Nat × Nat} :
    range ∈ page.usedBlocks ↔ ExtentOf (fun role : Role => ¬role.free = true) cells range := by
  rw [layout.toArranged.usedBlocks_perm.mem_iff, List.mem_map]
  simp only [usedCells, List.mem_filter, ExtentOf, and_assoc, Bool.not_eq_true',
    Bool.not_eq_true]

/-- The used blocks determine the free ones. -/
theorem freeBlocks_iff_maximalGap (layout : Layout page cells) {range : Nat × Nat} :
    range ∈ page.freeBlocks ↔
      MaximalGap page.addr (page.addr + page.size) (fun block => block ∈ page.usedBlocks) range := by
  have taken : (fun block => block ∈ page.usedBlocks) =
      ExtentOf (fun role : Role => ¬role.free = true) cells := by
    funext block
    exact propext (mem_usedBlocks layout)
  have separated : Separated (fun role : Role => role.free = true) cells := layout.coalesced
  rw [mem_freeBlocks layout, taken]
  exact free_iff_maximalGap layout.tiles separated range

theorem bestFit_of_cell (layout : Layout page cells) {cell : BlockCell} (member : cell ∈ cells)
    (free : cell.tag.free = true) (large : size ≤ cell.size)
    (smallest : ∀ other ∈ cells, other.tag.free = true → size ≤ other.size →
      cell.size ≤ other.size) : page.BestFit size cell.addr := by
  refine ⟨cell.size, (mem_freeBlocks layout).mpr ⟨cell, member, free, rfl⟩, large, ?_⟩
  intro block listed fits
  rcases (mem_freeBlocks layout).mp listed with ⟨other, otherMember, otherFree, rfl⟩
  exact smallest other otherMember otherFree fits

theorem findFreeBlock_eq_none (layout : Layout page cells) :
    page.findFreeBlock size = none ↔ ∀ block ∈ page.freeBlocks, block.2 < size := by
  constructor
  · intro missing block listed
    rcases (mem_freeBlocks layout).mp listed with ⟨cell, member, free, rfl⟩
    exact findFreeBlock_none layout missing cell member free
  · intro small
    cases found : page.findFreeBlock size with
    | none => rfl
    | some block =>
        rcases findFreeBlock_some layout found with ⟨left, cell, right, split, tag, large, _⟩
        have listed := small _ ((mem_freeBlocks layout).mpr
          ⟨cell, by rw [split]; simp, by rw [tag], rfl⟩)
        exact absurd large (Nat.not_le.mpr listed)

theorem empty_iff (layout : Layout page cells) : page.empty = true ↔ usedCells cells = [] := by
  rcases layout.lists with ⟨used, freeS, holds, usedPerm, _⟩
  have count : (usedCells cells).length = used.length := by
    rw [usedPerm.length_eq, usedPtrs, List.length_map]
  cases used with
  | nil =>
      have none : page.usedList_ = none := holds.onUsed.chain
      have noCells : usedCells cells = [] := List.length_eq_zero_iff.mp count
      simp [empty, none, noCells]
  | cons first rest =>
      have head : page.usedList_ = some first := holds.onUsed.chain.1
      have someCells : usedCells cells ≠ [] := by
        intro noCells
        simp [noCells] at count
      simp [empty, head, someCells]

theorem findUsedBlock_some (layout : Layout page cells) {addr : Nat} {block : Ptr}
    (found : page.findUsedBlock addr = some block) :
    ∃ left cell right, cells = left ++ cell :: right ∧ cell.tag = { ptr := block, free := false } ∧
      cell.addr = addr := by
  rcases layout.lists with ⟨used, freeS, holds, usedPerm, _⟩
  unfold findUsedBlock at found
  split at found
  · rw [walk_segment (layout.toArranged.used_length_le usedPerm) holds.onUsed.chain] at found
    have stop := List.head?_eq_some_iff.mp found
    rcases stop with ⟨rest, dropped⟩
    have listed : block ∈ used := by
      have inside : block ∈ used.dropWhile fun ptr => decide ((page.blocks ptr).addr ≠ addr) := by
        rw [dropped]
        simp
      exact (List.dropWhile_sublist _).subset inside
    have failed := List.head?_dropWhile_not
      (fun ptr => decide ((page.blocks ptr).addr ≠ addr)) used
    rw [dropped] at failed
    have here : (page.blocks block).addr = addr := by simpa using failed
    rcases mem_usedPtrs.mp (usedPerm.mem_iff.mp listed) with ⟨cell, member, usedCell, ptr⟩
    rcases List.append_of_mem member with ⟨left, right, cut⟩
    have extent := layout.extents cell member
    refine ⟨left, cell, right, cut, ?_, ?_⟩
    · rw [← ptr, ← usedCell]
    · rw [← extent.1, ptr]
      exact here
  · simp at found

theorem findUsedBlock_none (layout : Layout page cells) {addr : Nat}
    (missing : page.findUsedBlock addr = none) :
    ∀ cell ∈ cells, cell.tag.free = false → cell.addr ≠ addr := by
  intro cell member usedCell same
  rcases layout.lists with ⟨used, freeS, holds, usedPerm, _⟩
  have listed : cell.tag.ptr ∈ used :=
    usedPerm.mem_iff.mpr (mem_usedPtrs.mpr ⟨cell, member, usedCell, rfl⟩)
  have inside := tiles_mem layout.tiles member
  have fits := layout.fits
  unfold Cell.stop at inside
  unfold findUsedBlock at missing
  rw [if_pos] at missing
  · rw [walk_segment (layout.toArranged.used_length_le usedPerm) holds.onUsed.chain] at missing
    have nothing := List.dropWhile_eq_nil_iff.mp (List.head?_eq_none_iff.mp missing)
    have apart := nothing cell.tag.ptr listed
    rw [(layout.extents cell member).1] at apart
    simp [same] at apart
  · rw [add64_of_lt fits]
    omega

end Layout

theorem new_layout {addr size : Nat} (blockAlign : Nat) (positive : 0 < size)
    (fits : addr + size < 2 ^ 64) :
    Layout (Page.new addr size blockAlign)
      [{ addr := addr, size := size, tag := { ptr := 0, free := true } }] := by
  constructor
  · refine ⟨⟨rfl, positive, rfl⟩, fits, ?_, by simp, ?_, [], [0], ?_, List.Perm.refl _,
      List.Perm.refl _, List.pairwise_singleton _ _⟩
    · intro cell member
      rw [List.mem_singleton.mp member]
      exact ⟨rfl, rfl⟩
    · intro cell member
      rw [List.mem_singleton.mp member]
      exact Nat.one_pos
    · refine ⟨⟨rfl, List.nodup_nil⟩, ⟨⟨rfl, rfl, rfl⟩, List.nodup_singleton 0⟩,
        ⟨⟨rfl, rfl, rfl⟩, List.nodup_singleton 0⟩, fun _ _ => rfl⟩
  · exact List.isChain_singleton _

end Page

end Espiral.VortexMemoryAllocator
