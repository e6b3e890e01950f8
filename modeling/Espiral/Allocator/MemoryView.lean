import Espiral.Allocator.Coherence

/-!
# What the memory looks like

The pages, the used blocks and the free intervals of each, and the counter of
allocated bytes: everything but the order of the used list and of free blocks
of one size on the S-list. Between two calls the page extents and the used
blocks determine all of it, since no two free blocks touch.
-/

namespace Espiral.VortexMemoryAllocator

set_option autoImplicit false

open IntrusiveLists MachineWords Tilings

def Page.freeSizes (page : Page) : List Nat :=
  (collect freeSLink page.blocks page.created page.freeSList_).map fun block =>
    (page.blocks block).size

structure PageView where
  addr : Nat
  size : Nat
  used : Multiset (Nat × Nat)
  free : List (Nat × Nat)
  freeSizes : List Nat
  deriving DecidableEq

def Page.view (page : Page) : PageView where
  addr := page.addr
  size := page.size
  used := page.usedBlocks
  free := page.freeBlocks
  freeSizes := page.freeSizes

structure MemoryView where
  pages : List PageView
  allocated : Nat
  deriving DecidableEq

def view (self : VortexMemoryAllocator) : MemoryView where
  pages := self.pages_.map Page.view
  allocated := self.allocated_

section Order

theorem nodup_of_ascending {ranges : List (Nat × Nat)}
    (ascends : ranges.Pairwise fun one two => one.1 < two.1) : ranges.Nodup := by
  apply ascends.imp
  intro one two before same
  exact absurd (congrArg Prod.fst same) (Nat.ne_of_lt before)

theorem eq_of_ascending {first second : List (Nat × Nat)}
    (firstAscends : first.Pairwise fun one two => one.1 < two.1)
    (secondAscends : second.Pairwise fun one two => one.1 < two.1)
    (members : ∀ range, range ∈ first ↔ range ∈ second) : first = second := by
  have perm := (List.perm_ext_iff_of_nodup (nodup_of_ascending firstAscends)
    (nodup_of_ascending secondAscends)).mpr members
  apply perm.eq_of_pairwise ?_ firstAscends secondAscends
  intro one two _ _ before after
  exact absurd before (Nat.lt_asymm after)

end Order

namespace Page

section Views

variable {page : Page} {cells : List BlockCell}

theorem Layout.freeBlocks_ascending (layout : Layout page cells) :
    page.freeBlocks.Pairwise fun one two => one.1 < two.1 := by
  rcases layout.lists with ⟨_, _, holds, _⟩
  have enough : (freePtrs cells).length ≤ page.created :=
    (freePtrs_length_le cells).trans layout.length_le
  rw [freeBlocks, collect_segment enough holds.onFreeM.chain]
  exact List.pairwise_map.mpr layout.ascending

theorem Layout.freeSizes (layout : Layout page cells) :
    page.freeSizes.Perm (page.freeBlocks.map Prod.snd) ∧
      page.freeSizes.Pairwise fun one two => two ≤ one := by
  rcases layout.lists with ⟨_, freeS, holds, _, freePerm, decreasing⟩
  have enough : (freePtrs cells).length ≤ page.created :=
    (freePtrs_length_le cells).trans layout.length_le
  have listed : freeS.Perm (freePtrs cells) := freePerm
  have onS : collect freeSLink page.blocks page.created page.freeSList_ = freeS := by
    apply collect_segment ?_ holds.onFreeS.chain
    rw [listed.length_eq]
    exact enough
  constructor
  · rw [Page.freeSizes, onS, freeBlocks, collect_segment enough holds.onFreeM.chain, List.map_map]
    exact listed.map _
  · rw [Page.freeSizes, onS]
    exact List.pairwise_map.mpr decreasing

theorem view_eq {first second : Page} {firstAlign secondAlign : Nat}
    (firstSound : Sound firstAlign first) (secondSound : Sound secondAlign second)
    (addr : first.addr = second.addr) (size : first.size = second.size)
    (used : first.usedBlocks.Perm second.usedBlocks) : first.view = second.view := by
  rcases firstSound.layout with ⟨_, firstLayout, _, _⟩
  rcases secondSound.layout with ⟨_, secondLayout, _, _⟩
  have sameUsed : (fun block => block ∈ first.usedBlocks) =
      fun block => block ∈ second.usedBlocks := by
    funext block
    exact propext used.mem_iff
  have free : first.freeBlocks = second.freeBlocks := by
    apply eq_of_ascending firstLayout.freeBlocks_ascending secondLayout.freeBlocks_ascending
    intro range
    rw [freeBlocks_iff_maximalGap firstLayout, freeBlocks_iff_maximalGap secondLayout, addr, size,
      sameUsed]
  have sizes : first.freeSizes = second.freeSizes := by
    have perm := firstLayout.freeSizes.1
    rw [free] at perm
    apply (perm.trans secondLayout.freeSizes.1.symm).eq_of_pairwise ?_ firstLayout.freeSizes.2
      secondLayout.freeSizes.2
    intro one two _ _ below above
    exact Nat.le_antisymm above below
  rw [view, view, addr, size, free, sizes, Multiset.coe_eq_coe.mpr used]

theorem Sound.occupied {align : Nat} (sound : Sound align page) :
    ∃ block, block ∈ page.usedBlocks := by
  rcases sound.layout with ⟨cells, layout, _, some⟩
  rcases List.exists_mem_of_ne_nil _ some with ⟨cell, member⟩
  exact ⟨_, (usedBlocks_of_layout layout).mem_iff.mpr (List.mem_map_of_mem member)⟩

theorem Sound.usedBlocks_nodup {align : Nat} (sound : Sound align page) :
    page.usedBlocks.Nodup := by
  apply sound.used_apart.imp_of_mem
  intro one two oneMember _ apart same
  have positive := (sound.used_inside oneMember).2.1
  rw [← same] at apart
  unfold Apart at apart
  omega

end Views

end Page

section Memory

variable {whole first second : VortexMemoryAllocator}

theorem Sound.extent_unique (sound : Sound whole) {one two block : Nat × Nat}
    (oneMember : one ∈ whole.extents) (twoMember : two ∈ whole.extents) (positive : 0 < block.2)
    (inOne : one.1 ≤ block.1 ∧ block.1 + block.2 ≤ one.1 + one.2)
    (inTwo : two.1 ≤ block.1 ∧ block.1 + block.2 ≤ two.1 + two.2) : one = two := by
  by_contra different
  have symmetric : Std.Symm Page.Apart := ⟨fun _ _ => Page.Apart.symm⟩
  have ordered : whole.extents.Pairwise Page.Apart := by
    apply List.pairwise_map.mpr
    exact sound.ordered.imp Or.inl
  have apart := ordered.forall oneMember twoMember different
  unfold Page.Apart at apart
  omega

theorem Sound.extents_ascending (sound : Sound whole) :
    whole.extents.Pairwise fun one two => one.1 < two.1 :=
  List.pairwise_map.mpr sound.coherent.ascending

theorem Sound.mem_page_usedBlocks (sound : Sound whole) {page : Page}
    (member : page ∈ whole.pages_) (block : Nat × Nat) :
    block ∈ page.usedBlocks ↔ block ∈ whole.usedBlocks ∧
      page.addr ≤ block.1 ∧ block.1 + block.2 ≤ page.addr + page.size := by
  constructor
  · intro listed
    have inside := (sound.pages page member).used_inside listed
    exact ⟨List.mem_flatMap.mpr ⟨page, member, listed⟩, inside.1, inside.2.2⟩
  · rintro ⟨listed, within⟩
    rcases List.mem_flatMap.mp listed with ⟨other, otherMember, inOther⟩
    have inside := (sound.pages other otherMember).used_inside inOther
    have extent := sound.extent_unique (List.mem_map_of_mem otherMember)
      (List.mem_map_of_mem member) inside.2.1 ⟨inside.1, inside.2.2⟩ within
    have same : other = page := List.inj_on_of_nodup_map
      (nodup_of_ascending sound.extents_ascending) otherMember member extent
    rw [← same]
    exact inOther

theorem view_eq (firstSound : Sound first) (secondSound : Sound second)
    (extents : first.extents = second.extents)
    (used : first.usedBlocks.Perm second.usedBlocks) : first.view = second.view := by
  have count : first.pages_.length = second.pages_.length := by
    have lengths := congrArg List.length extents
    rw [VortexMemoryAllocator.extents, VortexMemoryAllocator.extents, List.length_map,
      List.length_map] at lengths
    exact lengths
  have pages : first.pages_.map Page.view = second.pages_.map Page.view := by
    apply List.ext_getElem (by rw [List.length_map, List.length_map, count])
    intro position low high
    rw [List.length_map] at low high
    rw [List.getElem_map, List.getElem_map]
    have firstMember := List.getElem_mem low
    have secondMember := List.getElem_mem high
    have extent : first.pages_[position].extent = second.pages_[position].extent := by
      have both := congrArg (fun ranges => ranges[position]?) extents
      simpa [VortexMemoryAllocator.extents, List.getElem?_map, low, high] using both
    have addr : first.pages_[position].addr = second.pages_[position].addr :=
      congrArg Prod.fst extent
    have size : first.pages_[position].size = second.pages_[position].size :=
      congrArg Prod.snd extent
    apply Page.view_eq (firstSound.pages _ firstMember) (secondSound.pages _ secondMember) addr
      size
    apply (List.perm_ext_iff_of_nodup (firstSound.pages _ firstMember).usedBlocks_nodup
      (secondSound.pages _ secondMember).usedBlocks_nodup).mpr
    intro block
    rw [firstSound.mem_page_usedBlocks firstMember, secondSound.mem_page_usedBlocks secondMember,
      used.mem_iff, addr, size]
  have counted : first.allocated_ = second.allocated_ := by
    rw [firstSound.accounted, secondSound.accounted]
    exact (used.map Prod.snd).sum_eq
  rw [view, view, pages, counted]

/-- Within the pages of one state the used blocks alone determine the memory: a page without
used blocks does not exist. -/
theorem view_eq_of_within (wholeSound : Sound whole) (firstSound : Sound first)
    (secondSound : Sound second) (firstWithin : ∀ extent ∈ first.extents, extent ∈ whole.extents)
    (secondWithin : ∀ extent ∈ second.extents, extent ∈ whole.extents)
    (used : first.usedBlocks.Perm second.usedBlocks) : first.view = second.view := by
  have included : ∀ {one two : VortexMemoryAllocator}, Sound one → Sound two →
      (∀ extent ∈ one.extents, extent ∈ whole.extents) →
      (∀ extent ∈ two.extents, extent ∈ whole.extents) →
      one.usedBlocks.Perm two.usedBlocks → ∀ extent ∈ one.extents, extent ∈ two.extents := by
    intro one two oneSound twoSound oneWithin twoWithin perm extent member
    rcases List.mem_map.mp member with ⟨page, pageMember, same⟩
    rcases (oneSound.pages page pageMember).occupied with ⟨block, listed⟩
    have inPage := (oneSound.pages page pageMember).used_inside listed
    have inOne : block ∈ one.usedBlocks := List.mem_flatMap.mpr ⟨page, pageMember, listed⟩
    rcases List.mem_flatMap.mp (perm.mem_iff.mp inOne) with ⟨other, otherMember, inOther⟩
    have inside := (twoSound.pages other otherMember).used_inside inOther
    have otherListed : other.extent ∈ two.extents := List.mem_map_of_mem otherMember
    have unique := wholeSound.extent_unique (oneWithin extent member)
      (twoWithin other.extent otherListed) inPage.2.1
      (by rw [← same]; exact ⟨inPage.1, inPage.2.2⟩) ⟨inside.1, inside.2.2⟩
    rw [unique]
    exact otherListed
  apply view_eq firstSound secondSound ?_ used
  apply eq_of_ascending firstSound.extents_ascending secondSound.extents_ascending
  intro extent
  constructor
  · exact included firstSound secondSound firstWithin secondWithin used extent
  · exact included secondSound firstSound secondWithin firstWithin used.symm extent

end Memory

end Espiral.VortexMemoryAllocator
