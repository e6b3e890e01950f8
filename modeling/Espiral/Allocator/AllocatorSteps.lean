import Espiral.Allocator.SoundAllocator

/-!
# What one call does

One lemma for each public operation lists everything a call can do to a sound
allocator. All invariants of runs are derived from these three.
-/

namespace Espiral.VortexMemoryAllocator

set_option autoImplicit false

open IntrusiveLists MachineWords

section Grants

variable {self : VortexMemoryAllocator}

theorem getElem?_middle (before after : List Page) (page : Page) :
    (before ++ page :: after)[before.length]? = some page := by
  simp

theorem set_middle (before after : List Page) (page other : Page) :
    (before ++ page :: after).set before.length other = before ++ other :: after := by
  simp

theorem eraseIdx_middle (before after : List Page) (page : Page) :
    (before ++ page :: after).eraseIdx before.length = before ++ after := by
  rw [List.eraseIdx_append_of_length_le (Nat.le_refl _)]
  simp

theorem allocateFrom_grant (sound : Sound self) {before after : List Page} {page : Page}
    {size : Nat} {block : Ptr} (split : self.pages_ = before ++ page :: after)
    (found : page.findFreeBlock size = some block) (positive : 0 < size)
    (aligned : self.blockAlign_ ∣ size) :
    ∃ addr next, allocateFrom before.length size (some block) self = .ok addr next ∧
      Grant self next addr size ∧ next.extents = self.extents ∧
      page.BestFit size addr ∧ page.addr ≤ addr ∧ addr + size ≤ page.stop := by
  have pageSound := sound.pages page (by rw [split]; simp)
  have picked := pageSound.allocate (alignment_pos sound.blockAlign) positive aligned found
  have granted := picked.1
  refine ⟨_, { self with
    pages_ := before ++ page.allocate size block :: after
    allocated_ := add64 self.allocated_ size }, ?_, ?_, ?_, picked.2, granted.inside⟩
  · simp only [allocateFrom, split, getElem?_middle, set_middle]
  · refine grant_of_page sound ⟨rfl, rfl, rfl, rfl⟩ rfl granted.sound ?_ ?_ rfl ?_
    · intro other member
      rw [split]
      simp only [List.mem_append, List.mem_cons] at member ⊢
      tauto
    · apply ordered_replace granted.extent.1 granted.extent.2
      rw [← split]
      exact sound.ordered
    · apply (usedBlocks_split rfl).trans
      apply (granted.used.append_right _).trans
      rw [List.cons_append]
      exact (usedBlocks_split split).symm.cons _
  · simp only [extents, split, List.map_append, List.map_cons, Page.extent, granted.extent.1,
      granted.extent.2]

theorem createPage_grant (sound : Sound self) {addr pageSize size : Nat} (positive : 0 < size)
    (fits : addr + pageSize < 2 ^ 64)
    (apart : ∀ page ∈ self.pages_, Page.Apart page.extent (addr, pageSize))
    (grain : pageSize = size ∨
      self.blockAlign_ ∣ size ∧ self.blockAlign_ ∣ pageSize ∧ size ≤ pageSize) :
    ∃ next, allocateFrom (self.createPage addr pageSize).1 size
        ((self.createPage addr pageSize).2.findFreeBlockAt (self.createPage addr pageSize).1 size)
        (self.createPage addr pageSize).2 = .ok addr next ∧
      Grant self next addr size ∧ next.extents.Perm ((addr, pageSize) :: self.extents) := by
  have large : size ≤ pageSize := by rcases grain with same | ⟨_, _, large⟩ <;> omega
  rcases Page.new_allocate (alignment_pos sound.blockAlign) positive fits grain with
    ⟨block, found, start, granted⟩
  have newPositive : 0 < (Page.new addr pageSize self.blockAlign_).size :=
    Nat.lt_of_lt_of_le positive large
  rcases insertAfter_split newPositive sound.pages sound.ordered apart with
    ⟨before, after, split, inserted, position, low, high⟩
  have entry := insertPage_eq newPositive sound.pages apart
  have created : self.createPage addr pageSize = (before.length, { self with
      pages_ := before ++ Page.new addr pageSize self.blockAlign_ :: after }) := by
    simp only [createPage, entry.1, entry.2, inserted, position]
  rw [created]
  refine ⟨{ self with
    pages_ := before ++ (Page.new addr pageSize self.blockAlign_).allocate size block :: after
    allocated_ := add64 self.allocated_ size }, ?_, ?_, ?_⟩
  · simp only [findFreeBlockAt, getElem?_middle, Option.bind_some, found, allocateFrom,
      set_middle, start]
  · have extent := granted.extent
    have stop : ((Page.new addr pageSize self.blockAlign_).allocate size block).stop =
        (Page.new addr pageSize self.blockAlign_).stop := by
      rw [Page.stop, Page.stop, extent.1, extent.2]
    refine grant_of_page sound ⟨rfl, rfl, rfl, rfl⟩ rfl granted.sound ?_ ?_ rfl ?_
    · intro other member
      rw [split]
      exact member
    · have ordered := sound.ordered
      rw [split] at ordered
      rcases ordered_append.mp ordered with ⟨left, right, across⟩
      apply ordered_append.mpr
      refine ⟨left, ordered_cons.mpr ⟨?_, right⟩, ?_⟩
      · intro q member
        rw [stop]
        exact high q member
      · intro p inLeft q inTail
        rcases List.mem_cons.mp inTail with same | inRight
        · rw [same, extent.1]
          exact low p inLeft
        · exact across p inLeft q inRight
    · have noneUsed : (Page.new addr pageSize self.blockAlign_).usedBlocks = [] := rfl
      have used := granted.used
      rw [noneUsed] at used
      apply (usedBlocks_split rfl).trans
      apply (used.append_right _).trans
      rw [List.cons_append, List.nil_append, ← split]
      exact List.Perm.refl _
  · have extent := granted.extent
    simp only [extents, split, List.map_append, List.map_cons]
    apply List.perm_middle.trans
    have same : ((Page.new addr pageSize self.blockAlign_).allocate size block).extent =
        (addr, pageSize) := by
      rw [Page.extent, extent.1, extent.2]
      rfl
    rw [same]

end Grants

/-- None of the gaps before these pages holds a page of this size. -/
def Tight (start pageSize : Nat) (pages : List Page) : Prop :=
  ∀ left page right, pages = left ++ page :: right → page.addr < endOfLast start left + pageSize

/-- Where `findNextAddress` puts a page of this size: the first place that holds it. -/
inductive Placed (state : VortexMemoryAllocator) (pageAddr pageSize : Nat) : Prop
  | first (none : state.pages_ = []) (atBase : pageAddr = state.baseAddress_)
  | gap (before : List Page) (next : Page) (after : List Page)
      (split : state.pages_ = before ++ next :: after)
      (start : pageAddr = endOfLast state.baseAddress_ before)
      (room : pageAddr + pageSize ≤ next.addr)
      (tight : Tight state.baseAddress_ pageSize before)
  | last (some : state.pages_ ≠ [])
      (start : pageAddr = endOfLast state.baseAddress_ state.pages_)
      (room : pageAddr + pageSize ≤ state.baseAddress_ + state.capacity_)
      (tight : Tight state.baseAddress_ pageSize state.pages_)

section Placement

variable {self : VortexMemoryAllocator}

def EndsFit (state : VortexMemoryAllocator) (pageSize : Nat) : Prop :=
  state.baseAddress_ + pageSize < 2 ^ 64 ∧
    ∀ page ∈ state.pages_, page.stop + pageSize < 2 ^ 64

/-- The page size fits in 64 bits and no end address wraps around on the way to its place. -/
structure PlaceFits (state : VortexMemoryAllocator) (pageSize : Nat) : Prop where
  narrow : pageSize < 2 ^ 64
  scan : ScanFits pageSize (state.baseAddress_ + state.capacity_) state.baseAddress_ state.pages_

theorem EndsFit.placeFits {pageSize : Nat} (ends : EndsFit self pageSize) :
    PlaceFits self pageSize :=
  ⟨Nat.lt_of_le_of_lt (Nat.le_add_left _ _) ends.1, scanFits_of_ends _ ends.1 ends.2⟩

/-- What the test past the last page comes down to. -/
theorem tail_test (sound : Sound self) {last pageSize : Nat} (narrow : pageSize < 2 ^ 64)
    (lastNarrow : last < 2 ^ 64)
    (fits : last + pageSize < 2 ^ 64 ∨
      self.baseAddress_ + self.capacity_ + 2 ^ 64 < last + pageSize) :
    add64 last pageSize ≤ add64 self.baseAddress_ self.capacity_ ↔
      last + pageSize ≤ self.baseAddress_ + self.capacity_ := by
  have limit := sound.fits
  rw [add64_of_lt limit]
  cases fits with
  | inl exact => rw [add64_of_lt exact]
  | inr wraps =>
      unfold add64 wrap64
      omega

theorem endOfLast_narrow (sound : Sound self) : endOfLast self.baseAddress_ self.pages_ < 2 ^ 64 := by
  rcases List.eq_nil_or_concat self.pages_ with empty | ⟨front, last, split⟩
  · have limit := sound.fits
    rw [empty]
    change self.baseAddress_ < 2 ^ 64
    omega
  · rw [List.concat_eq_append] at split
    rw [split, endOfLast_append]
    exact (sound.pages last (by rw [split]; simp)).fits

theorem findNextAddress_some (sound : Sound self) {pageAddr pageSize : Nat}
    (fits : PlaceFits self pageSize) (found : self.findNextAddress pageSize = some pageAddr) :
    Placed self pageAddr pageSize := by
  unfold findNextAddress at found
  cases pages : self.pages_ with
  | nil =>
      simp only [pages, Option.some.injEq] at found
      exact Placed.first pages found.symm
  | cons first rest =>
      simp only [pages] at found
      have scanned := scanGaps_spec sound.pages fits.scan
      rw [← pages] at found
      rcases scanned with ⟨before, next, after, split, gap, room, tight⟩ | ⟨last, tight, lastFits⟩
      · rw [gap] at found
        have start : pageAddr = endOfLast self.baseAddress_ before :=
          (Option.some.inj found).symm
        rw [← start] at room
        exact Placed.gap before next after split start room tight
      · have test := tail_test sound fits.narrow (endOfLast_narrow sound) lastFits
        simp only [last, test] at found
        by_cases room : endOfLast self.baseAddress_ self.pages_ + pageSize ≤
            self.baseAddress_ + self.capacity_
        · simp only [room, if_true, Option.some.injEq] at found
          exact Placed.last (by simp [pages]) found.symm (by rw [← found]; exact room) tight
        · simp [room] at found

theorem findNextAddress_none (sound : Sound self) {pageSize : Nat}
    (fits : PlaceFits self pageSize) (missing : self.findNextAddress pageSize = none) :
    self.pages_ ≠ [] ∧
      self.baseAddress_ + self.capacity_ < endOfLast self.baseAddress_ self.pages_ + pageSize ∧
      Tight self.baseAddress_ pageSize self.pages_ := by
  unfold findNextAddress at missing
  cases pages : self.pages_ with
  | nil => simp [pages] at missing
  | cons first rest =>
      simp only [pages] at missing
      have scanned := scanGaps_spec sound.pages fits.scan
      rw [← pages] at missing ⊢
      rcases scanned with ⟨before, next, after, split, gap, room, _⟩ | ⟨last, tight, lastFits⟩
      · rw [gap] at missing
        cases missing
      · have test := tail_test sound fits.narrow (endOfLast_narrow sound) lastFits
        simp only [last, test] at missing
        refine ⟨by simp [pages], ?_, tight⟩
        by_contra room
        simp [Nat.not_lt.mp room] at missing

theorem Placed.apart (sound : Sound self) {pageAddr pageSize : Nat}
    (placed : Placed self pageAddr pageSize) :
    ∀ page ∈ self.pages_, Page.Apart page.extent (pageAddr, pageSize) := by
  intro page member
  unfold Page.Apart Page.extent
  cases placed with
  | first none _ => simp [none] at member
  | gap before next after split start room _ =>
      have ordered := sound.ordered
      rw [split] at member ordered
      rcases List.mem_append.mp member with inBefore | inTail
      · left
        rw [start]
        exact stop_le_endOfLast (fun other inside => sound.pages other (by rw [split]; simp [inside]))
          (ordered_append.mp ordered).1 inBefore
      · right
        have here := (ordered_cons.mp (ordered_append.mp ordered).2.1).1
        rcases List.mem_cons.mp inTail with same | inAfter
        · rw [same]
          exact room
        · have beyond := here page inAfter
          unfold Page.stop at beyond
          exact Nat.le_trans room (by omega)
  | last _ start room _ =>
      left
      rw [start]
      exact stop_le_endOfLast sound.pages sound.ordered member

theorem Placed.fits (sound : Sound self) {pageAddr pageSize : Nat}
    (placeFits : PlaceFits self pageSize) (placed : Placed self pageAddr pageSize) :
    pageAddr + pageSize < 2 ^ 64 := by
  cases placed with
  | first none atBase =>
      have narrow := placeFits.narrow
      have scan := placeFits.scan
      rw [none] at scan
      rw [atBase]
      cases scan with
      | inl exact => exact exact
      | inr wraps => omega
  | gap before next after split start room _ =>
      have bound := (sound.pages next (by rw [split]; simp)).fits
      omega
  | last _ start room _ => exact Nat.lt_of_le_of_lt room sound.fits

end Placement

section Calls

variable {self : VortexMemoryAllocator} {size : Nat}

theorem allocate_zero : self.allocate 0 = .ok none self := rfl

theorem reserve_zero {addr : Nat} : self.reserve addr 0 = .ok (-1) self := rfl

def blockSize (self : VortexMemoryAllocator) (size : Nat) : Nat := roundUp size self.blockAlign_

def pageSize (self : VortexMemoryAllocator) (size : Nat) : Nat :=
  roundUp (self.blockSize size) self.pageAlign_

def pageWith (self : VortexMemoryAllocator) (size : Nat) : Option (Nat × Ptr) :=
  findPage (fun currPage => currPage.findFreeBlock (self.blockSize size)) self.pages_

/-- The start of a smallest free block of at least this size in the lowest page that has one. -/
def FirstFit (self : VortexMemoryAllocator) (size start : Nat) : Prop :=
  ∃ before page after, self.pages_ = before ++ page :: after ∧
    (∀ other ∈ before, ∀ block ∈ other.freeBlocks, block.2 < size) ∧ page.BestFit size start

theorem Page.Sound.findFreeBlock_eq_none {align : Nat} {page : Page} (sound : page.Sound align) :
    page.findFreeBlock size = none ↔ ∀ block ∈ page.freeBlocks, block.2 < size := by
  rcases sound.layout with ⟨cells, layout, _, _⟩
  exact Page.findFreeBlock_eq_none layout

theorem pageWith_eq_none (sound : Sound self) : self.pageWith size = none ↔
    ∀ page ∈ self.pages_, ∀ block ∈ page.freeBlocks, block.2 < self.blockSize size := by
  rw [pageWith, findPage_none]
  exact forall₂_congr fun page member => (sound.pages page member).findFreeBlock_eq_none

theorem blockSize_le_pageSize (configured : Configured self) (size : Nat) :
    self.blockSize size ≤ self.pageSize size :=
  le_roundUp (alignment_pos configured.pageAlign)

theorem allocate_cases (sound : Sound self) (nonempty : 0 < size)
    (rounded : self.blockSize size < 2 ^ 64)
    (fits : self.pageWith size = none → PlaceFits self (self.pageSize size)) :
    (∃ page block before currPage after next addr, self.pageWith size = some (page, block) ∧
      self.pages_ = before ++ currPage :: after ∧
      self.allocate size = .ok (some (wrap32 addr)) next ∧
      Grant self next addr (self.blockSize size) ∧ next.extents = self.extents ∧
      self.FirstFit (self.blockSize size) addr ∧
      currPage.addr ≤ addr ∧ addr + self.blockSize size ≤ currPage.stop) ∨
    (∃ next addr, self.pageWith size = none ∧ Placed self addr (self.pageSize size) ∧
      self.allocate size = .ok (some (wrap32 addr)) next ∧
      Grant self next addr (self.blockSize size) ∧
      next.extents.Perm ((addr, self.pageSize size) :: self.extents)) ∨
    (self.pageWith size = none ∧ self.findNextAddress (self.pageSize size) = none ∧
      self.allocate size = .ok none self) := by
  have notZero : size ≠ 0 := Nat.ne_of_gt nonempty
  have blockPos := alignment_pos sound.blockAlign
  have positive : 0 < self.blockSize size := roundUp_pos blockPos nonempty
  have large := blockSize_le_pageSize sound.toConfigured size
  have blockRounded : alignSize size self.blockAlign_ = self.blockSize size :=
    alignSize_roundUp sound.blockAlign rounded
  cases found : self.pageWith size with
  | some hit =>
      left
      unfold pageWith at found
      rcases hit with ⟨page, block⟩
      rcases findPage_some found with ⟨before, currPage, after, split, position, success, earlier⟩
      rcases allocateFrom_grant sound split success positive (dvd_roundUp _ _) with
        ⟨addr, next, ran, grant, same, best, inside⟩
      have firstFit : self.FirstFit (self.blockSize size) addr := by
        refine ⟨before, currPage, after, split, ?_, best⟩
        intro other member
        have otherSound := sound.pages other (by rw [split]; simp [member])
        exact otherSound.findFreeBlock_eq_none.mp (earlier other member)
      refine ⟨page, block, before, currPage, after, next, addr, rfl, split, ?_, grant, same,
        firstFit, inside⟩
      rw [position] at ran
      simp only [allocate, notZero, if_false, blockRounded, found, ran]
  | none =>
      right
      have placeFits := fits found
      have pageRounded : alignSize (self.blockSize size) self.pageAlign_ = self.pageSize size :=
        alignSize_roundUp sound.pageAlign placeFits.narrow
      cases nextAddress : self.findNextAddress (self.pageSize size) with
      | some addr =>
          left
          unfold pageWith at found
          have placed := findNextAddress_some sound placeFits nextAddress
          rcases createPage_grant sound positive (placed.fits sound placeFits) (placed.apart sound)
            (Or.inr ⟨dvd_roundUp _ _, dvd_roundUp_roundUp sound.blockAlign sound.pageAlign,
              large⟩) with ⟨next, ran, grant, grown⟩
          refine ⟨next, addr, rfl, placed, ?_, grant, grown⟩
          simp only [allocate, notZero, if_false, blockRounded, found, pageRounded, nextAddress,
            ran]
      | none =>
          right
          unfold pageWith at found
          refine ⟨rfl, rfl, ?_⟩
          simp only [allocate, notZero, if_false, blockRounded, found, pageRounded, nextAddress]

/-- The first page always starts at the base address, whatever the capacity. -/
theorem allocate_first (sound : Sound self) (none : self.pages_ = []) (nonempty : 0 < size)
    (fits : self.baseAddress_ + self.pageSize size < 2 ^ 64) :
    ∃ next, self.allocate size = .ok (some (wrap32 self.baseAddress_)) next ∧
      Grant self next self.baseAddress_ (self.blockSize size) := by
  have ends : EndsFit self (self.pageSize size) := ⟨fits, by simp [none]⟩
  have large := blockSize_le_pageSize sound.toConfigured size
  rcases allocate_cases sound nonempty (by omega) (fun _ => ends.placeFits) with
    ⟨_, _, before, currPage, after, _, _, _, split, _⟩ |
    ⟨next, addr, _, placed, ran, grant, _⟩ | ⟨_, missing, _⟩
  · rw [none] at split
    simp at split
  · have start : addr = self.baseAddress_ := by
      cases placed with
      | first _ atBase => exact atBase
      | gap before nextPage after split _ _ _ =>
          rw [none] at split
          simp at split
      | last some _ _ _ => exact absurd none some
    subst start
    exact ⟨next, ran, grant⟩
  · simp [findNextAddress, none] at missing

theorem hasPageOverlap_false {addr reserved : Nat} (sound : Sound self)
    (fits : addr + reserved < 2 ^ 64) (free : self.hasPageOverlap addr reserved = false) :
    ∀ page ∈ self.pages_, Page.Apart page.extent (addr, reserved) := by
  intro page member
  have clear := List.any_eq_false.mp free page member
  have pageFits := (sound.pages page member).fits
  simp only [add64_of_lt pageFits, add64_of_lt fits, ge_iff_le, Bool.and_eq_true,
    decide_eq_true_eq] at clear
  unfold Page.Apart Page.extent
  omega

theorem reserve_refused (configured : Configured self) {addr : Nat} (nonempty : 0 < size)
    (rounded : addr + roundUp size self.pageAlign_ < 2 ^ 64)
    (reason : self.baseAddress_ + self.capacity_ < addr + roundUp size self.pageAlign_ ∨
      self.hasPageOverlap addr (roundUp size self.pageAlign_) = true) :
    self.reserve addr size = .ok (-1) self := by
  have sizeRounded : alignSize size self.pageAlign_ = roundUp size self.pageAlign_ :=
    alignSize_roundUp configured.pageAlign (by omega)
  simp only [reserve, Nat.ne_of_gt nonempty, if_false, sizeRounded, add64_of_lt rounded,
    add64_of_lt configured.fits, gt_iff_lt]
  split
  · rfl
  · rename_i inside
    rw [if_pos (reason.resolve_left inside)]

theorem reserve_accepted (configured : Configured self) {addr : Nat} (nonempty : 0 < size)
    (rounded : addr + roundUp size self.pageAlign_ < 2 ^ 64)
    (inside : addr + roundUp size self.pageAlign_ ≤ self.baseAddress_ + self.capacity_)
    (free : self.hasPageOverlap addr (roundUp size self.pageAlign_) = false)
    {result : Nat} {next : VortexMemoryAllocator}
    (ran : allocateFrom (self.createPage addr (roundUp size self.pageAlign_)).1
      (roundUp size self.pageAlign_)
      ((self.createPage addr (roundUp size self.pageAlign_)).2.findFreeBlockAt
        (self.createPage addr (roundUp size self.pageAlign_)).1 (roundUp size self.pageAlign_))
      (self.createPage addr (roundUp size self.pageAlign_)).2 = .ok result next) :
    self.reserve addr size = .ok 0 next := by
  have sizeRounded : alignSize size self.pageAlign_ = roundUp size self.pageAlign_ :=
    alignSize_roundUp configured.pageAlign (by omega)
  simp only [reserve, Nat.ne_of_gt nonempty, if_false, sizeRounded, add64_of_lt rounded,
    add64_of_lt configured.fits, gt_iff_lt, Nat.not_lt.mpr inside, free, Bool.false_eq_true, ran]

theorem reserve_cases (sound : Sound self) {addr : Nat} (nonempty : 0 < size)
    (rounded : addr + roundUp size self.pageAlign_ < 2 ^ 64) :
    (∃ next, self.reserve addr size = .ok 0 next ∧
      addr + roundUp size self.pageAlign_ ≤ self.baseAddress_ + self.capacity_ ∧
      self.hasPageOverlap addr (roundUp size self.pageAlign_) = false ∧
      Grant self next addr (roundUp size self.pageAlign_) ∧
      next.extents.Perm ((addr, roundUp size self.pageAlign_) :: self.extents)) ∨
    self.reserve addr size = .ok (-1) self := by
  have positive : 0 < roundUp size self.pageAlign_ :=
    roundUp_pos (alignment_pos sound.pageAlign) nonempty
  rcases Nat.lt_or_ge (self.baseAddress_ + self.capacity_)
    (addr + roundUp size self.pageAlign_) with beyond | inside
  · exact Or.inr (reserve_refused sound.toConfigured nonempty rounded (Or.inl beyond))
  · cases overlap : self.hasPageOverlap addr (roundUp size self.pageAlign_) with
    | true => exact Or.inr (reserve_refused sound.toConfigured nonempty rounded (Or.inr overlap))
    | false =>
        left
        rcases createPage_grant sound positive rounded
          (hasPageOverlap_false sound rounded overlap) (Or.inl rfl) with
          ⟨next, ran, grant, grown⟩
        have accepted :=
          reserve_accepted sound.toConfigured nonempty rounded inside overlap ran
        exact ⟨next, accepted, inside, rfl, grant, grown⟩

structure Revoke (state next : VortexMemoryAllocator) (addr size : Nat) : Prop where
  sound : Sound next
  settings : SameSettings state next
  used : state.usedBlocks.Perm ((addr, size) :: next.usedBlocks)
  extents : ∀ extent ∈ next.extents, extent ∈ state.extents

def releasedFrom (self : VortexMemoryAllocator) (before : List Page) (currPage : Page)
    (after : List Page) (block : Ptr) : VortexMemoryAllocator :=
  { self with
    pages_ :=
      if (currPage.release block).empty then before ++ after
      else before ++ currPage.release block :: after
    allocated_ := sub64 self.allocated_ (currPage.blocks block).size }

theorem release_found {addr page : Nat} {block : Ptr} {before after : List Page} {currPage : Page}
    (found : findPage (fun currPage => currPage.findUsedBlock addr) self.pages_ =
      some (page, block))
    (split : self.pages_ = before ++ currPage :: after) (position : before.length = page) :
    self.release addr = .ok true (self.releasedFrom before currPage after block) := by
  simp only [release, found]
  subst position
  simp only [split, getElem?_middle, set_middle, releasedFrom]
  cases (currPage.release block).empty with
  | true => simp [deletePage, eraseIdx_middle]
  | false => simp

theorem releasedFrom_used {addr : Nat} {block : Ptr}
    {before after : List Page} {currPage : Page}
    (split : self.pages_ = before ++ currPage :: after)
    (taken : currPage.TakenBack self.blockAlign_ (currPage.release block) addr
      (currPage.blocks block).size) :
    self.usedBlocks.Perm ((addr, (currPage.blocks block).size) ::
      (self.releasedFrom before currPage after block).usedBlocks) := by
  have total : self.usedBlocks.Perm ((addr, (currPage.blocks block).size) ::
      ((currPage.release block).usedBlocks ++ (before ++ after).flatMap Page.usedBlocks)) :=
    (usedBlocks_split split).trans (taken.used.append_right _)
  apply total.trans
  apply List.Perm.cons
  rcases taken.kept with ⟨empty, noneUsed⟩ | ⟨occupied, _⟩
  · simp only [usedBlocks, releasedFrom, empty, if_true, noneUsed, List.nil_append]
    exact List.Perm.refl _
  · have pages : (self.releasedFrom before currPage after block).pages_ =
        before ++ currPage.release block :: after := by
      simp [releasedFrom, occupied]
    exact (usedBlocks_split pages).symm

theorem releasedFrom_pages {before after : List Page} {currPage : Page} {block : Ptr}
    {addr size : Nat}
    (taken : currPage.TakenBack self.blockAlign_ (currPage.release block) addr size)
    {page : Page} (member : page ∈ (self.releasedFrom before currPage after block).pages_) :
    page ∈ before ++ after ∨
      page = currPage.release block ∧ page.Sound self.blockAlign_ := by
  rcases taken.kept with ⟨empty, _⟩ | ⟨occupied, kept⟩
  · simp only [releasedFrom, empty, if_true] at member
    exact Or.inl member
  · simp only [releasedFrom, occupied, Bool.false_eq_true, if_false, List.mem_append,
      List.mem_cons] at member
    rcases member with inBefore | here | inAfter
    · exact Or.inl (by simp [inBefore])
    · exact Or.inr ⟨here, by rw [here]; exact kept⟩
    · exact Or.inl (by simp [inAfter])

theorem releasedFrom_ordered {before after : List Page} {currPage : Page} {block : Ptr}
    (ordered : Ordered (before ++ currPage :: after)) :
    Ordered (self.releasedFrom before currPage after block).pages_ := by
  have extent := Page.release_extent currPage block
  simp only [releasedFrom]
  cases (currPage.release block).empty with
  | true => exact ordered_remove ordered
  | false => exact ordered_replace extent.1 extent.2.1 ordered

theorem releasedFrom_revoke (sound : Sound self) {addr : Nat} {block : Ptr}
    {before after : List Page} {currPage : Page}
    (split : self.pages_ = before ++ currPage :: after)
    (success : currPage.findUsedBlock addr = some block) :
    Revoke self (self.releasedFrom before currPage after block) addr
      (currPage.blocks block).size := by
  have inside : currPage ∈ self.pages_ := by
    rw [split]
    simp
  have others : ∀ other ∈ before ++ after, other ∈ self.pages_ := by
    intro other member
    rw [split]
    simp only [List.mem_append, List.mem_cons] at member ⊢
    tauto
  have taken := (sound.pages currPage inside).release success
  have total := releasedFrom_used split taken
  have settings : SameSettings self (self.releasedFrom before currPage after block) :=
    ⟨rfl, rfl, rfl, rfl⟩
  constructor
  · refine ⟨sound.toConfigured.same settings, ?_, ?_, ?_⟩
    · intro page member
      rcases releasedFrom_pages taken member with kept | ⟨_, pageSound⟩
      · exact sound.pages page (others page kept)
      · exact pageSound
    · apply releasedFrom_ordered
      rw [← split]
      exact sound.ordered
    · have sum := sum_perm_cons total
      have bound := sum_used_lt sound
      have subtracted : (self.releasedFrom before currPage after block).allocated_ =
          sub64 (self.usedBlocks.map Prod.snd).sum (currPage.blocks block).size := by
        rw [← sound.accounted]
        rfl
      rw [subtracted, sub64_of_le (by omega) bound]
      omega
  · exact settings
  · exact total
  · intro extent member
    rcases List.mem_map.mp member with ⟨page, listed, same⟩
    rw [← same]
    rcases releasedFrom_pages taken listed with kept | ⟨here, _⟩
    · exact List.mem_map_of_mem (others page kept)
    · have unmoved : page.extent = currPage.extent := by
        rw [here, Page.extent, Page.extent, taken.extent.1, taken.extent.2]
      rw [unmoved]
      exact List.mem_map_of_mem inside

theorem release_cases (sound : Sound self) (addr : Nat) :
    (∃ next size, self.release addr = .ok true next ∧ Revoke self next addr size) ∨
      (self.release addr = .ok false self ∧ ∀ size, (addr, size) ∉ self.usedBlocks) := by
  cases found : findPage (fun currPage => currPage.findUsedBlock addr) self.pages_ with
  | none =>
      right
      refine ⟨by simp only [release, found], ?_⟩
      intro size listed
      rcases List.mem_flatMap.mp listed with ⟨page, member, inPage⟩
      have missing := findPage_none.mp found page member
      have present := (sound.pages page member).findUsedBlock_isSome.mpr ⟨size, inPage⟩
      simp [missing] at present
  | some hit =>
      left
      rcases findPage_some found with ⟨before, currPage, after, split, position, success, _⟩
      exact ⟨_, _, release_found found split position, releasedFrom_revoke sound split success⟩

end Calls

end Espiral.VortexMemoryAllocator
