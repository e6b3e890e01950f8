import Espiral.Allocator.ExactAllocations

/-!
# The lists of a page agree

The M-list and the S-list hold the same free blocks, in address order and by
decreasing size, and with the used ones they tile the page. A page that a
release empties is one free block, which is what its destructor asserts.
-/

namespace Espiral.VortexMemoryAllocator

set_option autoImplicit false

open Contracts IntrusiveLists MachineWords Tilings Traces

namespace Page

def cellOf (page : Page) (block : Ptr) : Cell Ptr where
  addr := (page.blocks block).addr
  size := (page.blocks block).size
  tag := block

/-- What the three lists of a page say about its blocks. `IsList` covers the links in both
directions and that no block is listed twice. -/
structure Coherent (page : Page) (used freeM freeS : List Ptr) : Prop where
  usedList : IsList usedLink page.blocks page.usedList_ used
  freeMList : IsList freeMLink page.blocks page.freeMList_ freeM
  freeSList : IsList freeSLink page.blocks page.freeSList_ freeS
  same : freeS.Perm freeM
  ascending : freeM.Pairwise fun first second =>
    (page.blocks first).addr < (page.blocks second).addr
  coalesced : freeM.Pairwise fun first second =>
    (page.blocks first).addr + (page.blocks first).size ≠ (page.blocks second).addr
  decreasing : freeS.Pairwise fun first second =>
    (page.blocks second).size ≤ (page.blocks first).size
  tiles : ∃ order : List Ptr, order.Perm (used ++ freeM) ∧
    Tiles page.addr (order.map page.cellOf) (page.addr + page.size)
  occupied : used ≠ []

structure Emptied (page : Page) : Prop where
  covered : ∃ block, IsList freeMLink page.blocks page.freeMList_ [block] ∧
    (page.blocks block).addr = page.addr ∧ (page.blocks block).size = page.size
  asserts : page.destructorAsserts = true

section Lists

variable {page : Page} {cells : List BlockCell}

/-- What any two free cells say about each other, the M-list says about its blocks. -/
theorem Layout.freePtrs_pairwise (relation : Nat × Nat → Nat × Nat → Prop)
    (layout : Layout page cells)
    (related : (freeCells cells).Pairwise fun first second =>
      relation (first.addr, first.size) (second.addr, second.size)) :
    (freePtrs cells).Pairwise fun first second =>
      relation ((page.blocks first).addr, (page.blocks first).size)
        ((page.blocks second).addr, (page.blocks second).size) := by
  apply List.pairwise_map.mpr
  apply related.imp_of_mem
  intro first second firstMember secondMember relates
  have firstExtent := layout.extents first (List.mem_filter.mp firstMember).1
  have secondExtent := layout.extents second (List.mem_filter.mp secondMember).1
  rw [firstExtent.1, firstExtent.2, secondExtent.1, secondExtent.2]
  exact relates

theorem Layout.ascending (layout : Layout page cells) :
    (freePtrs cells).Pairwise fun first second =>
      (page.blocks first).addr < (page.blocks second).addr := by
  apply layout.freePtrs_pairwise fun first second => first.1 < second.1
  have inside : (freeCells cells).Sublist cells := List.filter_sublist
  have ordered := (tiles_pairwise layout.tiles).sublist inside
  apply ordered.imp_of_mem
  intro first second firstMember _ before
  have positive := (tiles_mem layout.tiles (List.mem_filter.mp firstMember).1).2.1
  unfold Cell.stop at before
  simp only
  omega

theorem Layout.notTouching (layout : Layout page cells) :
    (freePtrs cells).Pairwise fun first second =>
      (page.blocks first).addr + (page.blocks first).size ≠ (page.blocks second).addr := by
  apply layout.freePtrs_pairwise fun first second => first.1 + first.2 ≠ second.1
  have separated : Separated (fun role : Role => role.free = true) cells := layout.coalesced
  apply List.pairwise_of_forall_mem_list
  intro first firstMember second secondMember
  rcases List.mem_filter.mp firstMember with ⟨firstIn, firstFree⟩
  rcases List.mem_filter.mp secondMember with ⟨secondIn, secondFree⟩
  exact separated.not_touching layout.tiles firstIn secondIn firstFree secondFree

/-- In address order the blocks of the page are its used and its free ones. -/
theorem Layout.blockTiles (layout : Layout page cells) {used : List Ptr}
    (usedPerm : used.Perm (usedPtrs cells)) :
    ∃ order : List Ptr, order.Perm (used ++ freePtrs cells) ∧
      Tiles page.addr (order.map page.cellOf) (page.addr + page.size) := by
  refine ⟨cells.map fun cell => cell.tag.ptr, ?_, ?_⟩
  · have parts := (List.filter_append_perm (fun cell : BlockCell => cell.tag.free) cells).map
      fun cell => cell.tag.ptr
    rw [List.map_append] at parts
    apply parts.symm.trans
    apply List.perm_append_comm.trans
    exact usedPerm.symm.append_right _
  · rw [List.map_map]
    exact tiles_of_extents _ layout.extents layout.tiles

theorem Layout.coherent (layout : Layout page cells) (some : usedCells cells ≠ []) :
    ∃ used freeM freeS, page.Coherent used freeM freeS := by
  rcases layout.lists with ⟨used, freeS, holds, usedPerm, freePerm, decreasing⟩
  refine ⟨used, freePtrs cells, freeS, ?_⟩
  constructor
  · exact holds.onUsed
  · exact holds.onFreeM
  · exact holds.onFreeS
  · exact freePerm
  · exact layout.ascending
  · exact layout.notTouching
  · exact decreasing
  · exact layout.blockTiles usedPerm
  · intro none
    rw [none] at usedPerm
    apply some
    exact List.map_eq_nil_iff.mp usedPerm.symm.eq_nil

theorem Layout.emptied (layout : Layout page cells) (positive : 0 < page.size)
    (empty : page.empty = true) : page.Emptied := by
  have none := (empty_iff layout).mp empty
  have separated : Separated (fun role : Role => role.free = true) cells := layout.coalesced
  have allFree : ∀ cell ∈ cells, cell.tag.free = true := by
    intro cell member
    by_contra used
    have listed : cell ∈ usedCells cells := List.mem_filter.mpr ⟨member, by simpa using used⟩
    rw [none] at listed
    cases listed
  rcases separated.single layout.tiles allFree (Nat.lt_add_of_pos_right positive) with
    ⟨cell, single, begins, ends⟩
  subst single
  rcases layout.lists with ⟨used, freeS, holds, _⟩
  have listed : freePtrs [cell] = [cell.tag.ptr] :=
    freePtrs_cons_free (allFree cell List.mem_cons_self)
  have extent := layout.extents cell List.mem_cons_self
  have onFreeM := holds.onFreeM
  rw [listed] at onFreeM
  constructor
  · refine ⟨cell.tag.ptr, onFreeM, extent.1.trans begins, ?_⟩
    unfold Cell.stop at ends
    omega
  · have head : page.freeMList_ = Option.some cell.tag.ptr := onFreeM.chain.1
    have prev : (page.blocks cell.tag.ptr).prevFreeM = Option.none := onFreeM.chain.2.1
    have next : (page.blocks cell.tag.ptr).nextFreeM = Option.none := onFreeM.chain.2.2
    have noUsed : page.usedList_.isNone = true := empty
    rw [destructorAsserts, noUsed, head]
    simp only [prev, next, Option.isNone_none, Bool.and_self]

theorem Sound.coherent {align : Nat} (sound : Sound align page) :
    ∃ used freeM freeS, page.Coherent used freeM freeS := by
  rcases sound.layout with ⟨cells, layout, _, some⟩
  exact layout.coherent some

theorem Sound.release_emptied {align addr : Nat} {block : Ptr} (sound : Sound align page)
    (found : page.findUsedBlock addr = some block)
    (empty : (page.release block).empty = true) : (page.release block).Emptied := by
  rcases sound.layout with ⟨cells, layout, _, _⟩
  rcases findUsedBlock_some layout found with ⟨left, cell, right, split, tag, _⟩
  subst split
  have usedCell : cell.tag.free = false := by rw [tag]
  have released := release_layout layout usedCell
  rw [tag] at released
  apply released.emptied ?_ empty
  rw [(release_extent page block).2.1]
  exact sound.positive

end Lists

end Page

/-- The lists of every page agree, and the pages are in strict address order. -/
structure Coherent (state : VortexMemoryAllocator) : Prop where
  pages : ∀ page ∈ state.pages_, ∃ used freeM freeS, page.Coherent used freeM freeS
  ascending : state.pages_.Pairwise fun first second => first.addr < second.addr

theorem Sound.coherent {state : VortexMemoryAllocator} (sound : Sound state) :
    Coherent state where
  pages page member := (sound.pages page member).coherent
  ascending := by
    apply sound.ordered.imp_of_mem
    intro first second firstMember _ before
    have positive := (sound.pages first firstMember).positive
    unfold Page.stop at before
    omega

section Run

variable {base capacity pageAlign blockAlign : Nat}

/-- In every state of a run without wrap-around the lists agree, and a page that the next
release empties and deletes is one free block. -/
theorem free_lists_coherent (pagePower : ∃ bits < 32, pageAlign = 2 ^ bits)
    (blockPower : ∃ bits < 32, blockAlign = 2 ^ bits) (range : base + capacity < 2 ^ 64)
    {labels : List (Call × Outcome)} {state : VortexMemoryAllocator}
    (run : Trace ExactStep (initialised base capacity pageAlign blockAlign) labels state) :
    Coherent state ∧ ∀ addr position block currPage,
      findPage (fun page => page.findUsedBlock addr) state.pages_ = some (position, block) →
      state.pages_[position]? = some currPage → (currPage.release block).empty = true →
        (currPage.release block).Emptied := by
  have sound := run_sound pagePower blockPower range run
  refine ⟨sound.coherent, ?_⟩
  intro addr position block currPage found here empty
  rcases findPage_some found with ⟨before, page, after, split, length, success, _⟩
  have same : page = currPage := by
    rw [split, ← length] at here
    simpa using here
  subst same
  have member : page ∈ state.pages_ := by
    rw [split]
    simp
  exact (sound.pages page member).release_emptied success empty

theorem free_lists_coherent_first :
    ∃ state, perform (.allocate 100) (initialised 0x1000 0x10000 4096 64) =
      .ok (.allocated (some 0x1000)) state ∧ Coherent state := by
  have pagePower : ∃ bits < 32, 4096 = 2 ^ bits := ⟨12, by decide, rfl⟩
  have blockPower : ∃ bits < 32, 64 = 2 ^ bits := ⟨6, by decide, rfl⟩
  have range : 0x1000 + 0x10000 < 2 ^ 64 := by decide
  have sound := initialised_sound pagePower blockPower range
  rcases allocate_first sound rfl (by decide : 0 < 100) (by decide) with ⟨state, ran, _⟩
  have exact : Exact (initialised 0x1000 0x10000 4096 64) (.allocate 100) :=
    exact_of_noPages sound.toConfigured rfl (by decide)
  have step : ExactStep (initialised 0x1000 0x10000 4096 64)
      (.allocate 100, .allocated (some 0x1000)) state := ⟨exact, map_ok _ ran⟩
  exact ⟨state, step.2, (free_lists_coherent pagePower blockPower range
    (Trace.cons step (Trace.nil state))).1⟩

end Run

end Espiral.VortexMemoryAllocator
