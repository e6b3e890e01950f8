import Mathlib.Data.Finset.Insert
import Espiral.Allocator.LiveMap

/-!
# The block allocator as a pool of page frames

The address space manager asks for whole pages only. Then every page of the
allocator is one used block, no free block exists, and what is left of the
allocator is a set of frames: a request takes the lowest one that is not in
the set, a release takes its argument out of the set.
-/

namespace Espiral.VortexMemoryAllocator

set_option autoImplicit false

open IntrusiveLists MachineWords Tilings

/-- The allocator as the address space manager sets it up. -/
def ofPlatform (platform : Platform) : VortexMemoryAllocator :=
  initialised platform.ALLOC_BASE_ADDR (platform.GLOBAL_MEM_SIZE - platform.ALLOC_BASE_ADDR)
    platform.MEM_PAGE_SIZE platform.CACHE_BLOCK_SIZE

def frames (self : VortexMemoryAllocator) : Finset Nat :=
  (self.usedBlocks.map Prod.fst).toFinset

structure FramePool (platform : Platform) (state : VortexMemoryAllocator) : Prop where
  valid : platform.Valid
  sound : Sound state
  settings : SameSettings (ofPlatform platform) state
  blocks : ∀ block ∈ state.usedBlocks, block.2 = 4096
  pages : ∀ extent ∈ state.extents, extent.2 = 4096 ∧ platform.IsFrame extent.1

section Pool

variable {platform : Platform} {state : VortexMemoryAllocator}

theorem ofPlatform_pool (valid : platform.Valid) : FramePool platform (ofPlatform platform) := by
  rcases valid.cacheBlock with ⟨bits, small, cacheBlock⟩
  have room := valid.room
  have narrow := valid.narrow
  refine ⟨valid, initialised_sound ?_ ?_ (by omega), ⟨rfl, rfl, rfl, rfl⟩, ?_, ?_⟩
  · exact ⟨12, by decide, valid.pageSize⟩
  · exact ⟨bits, by omega, cacheBlock⟩
  · simp [usedBlocks, ofPlatform, initialised, initBlockAlignment, initPageAlignment,
      initCapacity, initBaseAddress, new]
  · simp [extents, ofPlatform, initialised, initBlockAlignment, initPageAlignment,
      initCapacity, initBaseAddress, new]

theorem FramePool.blockSize (pool : FramePool platform state) : state.blockSize 4096 = 4096 := by
  rcases pool.valid.cacheBlock with ⟨bits, small, cacheBlock⟩
  have align : state.blockAlign_ = 2 ^ bits := pool.settings.blockAlign.trans cacheBlock
  rw [VortexMemoryAllocator.blockSize, align]
  exact roundUp_of_dvd (by positivity) (Nat.pow_dvd_pow 2 small)

theorem FramePool.pageSize (pool : FramePool platform state) : state.pageSize 4096 = 4096 := by
  have align : state.pageAlign_ = 4096 := pool.settings.pageAlign.trans pool.valid.pageSize
  rw [VortexMemoryAllocator.pageSize, pool.blockSize, align]
  exact roundUp_of_dvd (by decide) (Nat.dvd_refl 4096)

theorem FramePool.page_frame (pool : FramePool platform state) {page : Page}
    (member : page ∈ state.pages_) : page.size = 4096 ∧ platform.IsFrame page.addr :=
  pool.pages page.extent (List.mem_map_of_mem member)

/-- The used block of a page fills it, so no block of the page is free. -/
theorem FramePool.page_full (pool : FramePool platform state) {page : Page}
    (member : page ∈ state.pages_) :
    (page.addr, 4096) ∈ page.usedBlocks ∧ page.findFreeBlock 4096 = none := by
  have size := (pool.page_frame member).1
  have pageSound := pool.sound.pages page member
  rcases pageSound.layout with ⟨cells, layout, _, someUsed⟩
  rcases List.exists_mem_of_ne_nil _ someUsed with ⟨cell, usedMember⟩
  rcases List.mem_filter.mp usedMember with ⟨inCells, usedCell⟩
  have listed : (cell.addr, cell.size) ∈ page.usedBlocks :=
    (Page.usedBlocks_of_layout layout).mem_iff.mpr (List.mem_map.mpr ⟨cell, usedMember, rfl⟩)
  have cellSize : cell.size = 4096 :=
    pool.blocks _ (List.mem_flatMap.mpr ⟨page, member, listed⟩)
  have range := tiles_mem layout.tiles inCells
  unfold Cell.stop at range
  have start : cell.addr = page.addr := by omega
  constructor
  · rw [← start, ← cellSize]
    exact listed
  · cases found : page.findFreeBlock 4096 with
    | none => rfl
    | some block =>
        exfalso
        rcases Page.findFreeBlock_some layout found with ⟨left, free, right, split, tag, large, _⟩
        subst split
        have freeRange := tiles_mem layout.tiles (show free ∈ left ++ free :: right by simp)
        unfold Cell.stop at freeRange
        rcases List.mem_append.mp inCells with inLeft | inTail
        · have before := layout.toArranged.blockAddr_lt_of_mem inLeft
          unfold Cell.stop at before
          omega
        · rcases List.mem_cons.mp inTail with here | inRight
          · rw [here, tag] at usedCell
            simp at usedCell
          · have after := layout.toArranged.stop_le_of_mem inRight
            unfold Cell.stop at after
            omega

theorem mem_frames {frame : Nat} :
    frame ∈ frames state ↔ ∃ size, (frame, size) ∈ state.usedBlocks := by
  rw [frames, List.mem_toFinset, List.mem_map]
  constructor
  · rintro ⟨block, member, rfl⟩
    exact ⟨block.2, member⟩
  · rintro ⟨size, member⟩
    exact ⟨(frame, size), member, rfl⟩

theorem FramePool.mem_frames (pool : FramePool platform state) {frame : Nat} :
    frame ∈ frames state ↔ ∃ page ∈ state.pages_, page.addr = frame := by
  rw [VortexMemoryAllocator.mem_frames]
  constructor
  · rintro ⟨size, listed⟩
    rcases List.mem_flatMap.mp listed with ⟨page, member, inPage⟩
    have length := pool.blocks _ listed
    have pageSize := (pool.page_frame member).1
    have range := (pool.sound.pages page member).used_inside inPage
    simp only at length range
    exact ⟨page, member, by omega⟩
  · rintro ⟨page, member, rfl⟩
    exact ⟨4096, List.mem_flatMap.mpr ⟨page, member, (pool.page_full member).1⟩⟩

theorem FramePool.mem_usedBlocks (pool : FramePool platform state) {block : Nat × Nat} :
    block ∈ state.usedBlocks ↔ block.1 ∈ frames state ∧ block.2 = 4096 := by
  rw [VortexMemoryAllocator.mem_frames]
  constructor
  · intro member
    exact ⟨⟨block.2, member⟩, pool.blocks block member⟩
  · intro found
    obtain ⟨⟨size, member⟩, length⟩ := found
    have same : block = (block.1, size) :=
      Prod.ext rfl (length.trans (pool.blocks _ member).symm)
    rw [same]
    exact member

theorem FramePool.isFrame (pool : FramePool platform state) {frame : Nat}
    (member : frame ∈ frames state) : platform.IsFrame frame := by
  rcases pool.mem_frames.mp member with ⟨page, inPages, rfl⟩
  exact (pool.page_frame inPages).2

theorem FramePool.pageWith_none (pool : FramePool platform state) :
    state.pageWith 4096 = none := by
  rw [pageWith, pool.blockSize]
  exact findPage_none.mpr fun page member => (pool.page_full member).2

/-- Pages of one frame each that leave no gap of a frame cover every frame up
to the end of the last one. -/
theorem covered_of_tight {pages : List Page} {start frame : Nat} (startAligned : 4096 ∣ start)
    (sizes : ∀ page ∈ pages, page.size = 4096 ∧ 4096 ∣ page.addr)
    (ordered : Ordered pages) (above : ∀ page ∈ pages, start ≤ page.addr)
    (tight : Tight start 4096 pages) (aligned : 4096 ∣ frame) (low : start ≤ frame)
    (high : frame < endOfLast start pages) : ∃ page ∈ pages, page.addr = frame := by
  induction pages generalizing start with
  | nil =>
      change frame < start at high
      omega
  | cons page rest ih =>
      rcases ordered_cons.mp ordered with ⟨later, tail⟩
      have here : page.addr < start + 4096 := tight [] page rest rfl
      have size := sizes page (by simp)
      have bound := above page (by simp)
      have first : page.addr = start := by
        rcases startAligned with ⟨startCount, rfl⟩
        rcases size.2 with ⟨pageCount, same⟩
        omega
      by_cases atFirst : frame = start
      · exact ⟨page, by simp, by rw [first, atFirst]⟩
      · have stop : page.stop = start + 4096 := by rw [Page.stop, first, size.1]
        have next : page.stop ≤ frame := by
          rcases startAligned with ⟨startCount, rfl⟩
          rcases aligned with ⟨frameCount, rfl⟩
          omega
        rcases ih (by rw [stop]; exact Nat.dvd_add startAligned (Nat.dvd_refl 4096))
          (fun other member => sizes other (by simp [member])) tail later
          (fun left other right split => tight (page :: left) other right (by rw [split]; rfl))
          next high with ⟨other, member, same⟩
        exact ⟨other, by simp [member], same⟩

theorem Placed.covers {addr frame : Nat} (pool : FramePool platform state)
    (placed : Placed state addr 4096) (isFrame : platform.IsFrame frame) (below : frame < addr) :
    frame ∈ frames state := by
  have base : state.baseAddress_ = platform.ALLOC_BASE_ADDR := pool.settings.baseAddress
  have cover : ∀ pages : List Page, (∀ page ∈ pages, page ∈ state.pages_) → Ordered pages →
      Tight state.baseAddress_ 4096 pages → frame < endOfLast state.baseAddress_ pages →
      frame ∈ frames state := by
    intro pages members ordered tight high
    rcases covered_of_tight (by rw [base]; exact pool.valid.baseAligned)
      (fun page member => ⟨(pool.page_frame (members page member)).1,
        (pool.page_frame (members page member)).2.1⟩) ordered
      (fun page member => by rw [base]; exact (pool.page_frame (members page member)).2.2.1)
      tight isFrame.1 (by rw [base]; exact isFrame.2.1) high with ⟨page, member, same⟩
    exact pool.mem_frames.mpr ⟨page, members page member, same⟩
  cases placed with
  | first _ atBase =>
      have low := isFrame.2.1
      omega
  | gap before next after split start _ tight =>
      apply cover before (fun page member => by rw [split]; simp [member]) ?_ tight
      · rw [← start]
        exact below
      · have ordered := pool.sound.ordered
        rw [split] at ordered
        exact (ordered_append.mp ordered).1
  | last _ start _ tight =>
      apply cover state.pages_ (fun _ member => member) pool.sound.ordered tight
      rw [← start]
      exact below

theorem Placed.isFrame {addr : Nat} (pool : FramePool platform state)
    (placed : Placed state addr 4096) : platform.IsFrame addr := by
  have base : state.baseAddress_ = platform.ALLOC_BASE_ADDR := pool.settings.baseAddress
  have capacity : state.capacity_ = platform.GLOBAL_MEM_SIZE - platform.ALLOC_BASE_ADDR :=
    pool.settings.capacity
  have room := pool.valid.room
  have endAligned : ∀ pages : List Page, (∀ page ∈ pages, page ∈ state.pages_) →
      4096 ∣ endOfLast state.baseAddress_ pages ∧
        state.baseAddress_ ≤ endOfLast state.baseAddress_ pages := by
    intro pages members
    rcases List.eq_nil_or_concat pages with empty | ⟨front, last, split⟩
    · rw [empty]
      exact ⟨by rw [base]; exact pool.valid.baseAligned, Nat.le_refl _⟩
    · rw [List.concat_eq_append] at split
      subst split
      have frame := pool.page_frame (members last (by simp))
      rw [endOfLast_append, Page.stop, frame.1]
      refine ⟨Nat.dvd_add frame.2.1 (Nat.dvd_refl 4096), ?_⟩
      have low := frame.2.2.1
      omega
  cases placed with
  | first _ atBase =>
      rw [atBase, base]
      exact ⟨pool.valid.baseAligned, Nat.le_refl _, room⟩
  | gap before next after split start fits _ =>
      have ends := endAligned before (fun page member => by rw [split]; simp [member])
      have frame := (pool.page_frame (show next ∈ state.pages_ by rw [split]; simp)).2
      refine ⟨by rw [start]; exact ends.1, by rw [start, ← base]; exact ends.2, ?_⟩
      have high := frame.2.2
      omega
  | last _ start fits _ =>
      have ends := endAligned state.pages_ (fun _ member => member)
      refine ⟨by rw [start]; exact ends.1, by rw [start, ← base]; exact ends.2, ?_⟩
      omega

theorem FramePool.endsFit (pool : FramePool platform state) : EndsFit state 4096 := by
  have base : state.baseAddress_ = platform.ALLOC_BASE_ADDR := pool.settings.baseAddress
  have room := pool.valid.room
  have narrow := pool.valid.narrow
  constructor
  · omega
  · intro page member
    have frame := pool.page_frame member
    have high := frame.2.2.2
    rw [Page.stop, frame.1]
    omega

theorem allocate_frame (pool : FramePool platform state) :
    (∃ frame next, state.allocate 4096 = .ok (some frame) next ∧ FramePool platform next ∧
      platform.IsFrame frame ∧ frame ∉ frames state ∧
      frames next = insert frame (frames state) ∧
      ∀ lower, platform.IsFrame lower → lower < frame → lower ∈ frames state) ∨
    (state.allocate 4096 = .ok none state ∧ ∀ frame, platform.IsFrame frame →
      frame ∈ frames state) := by
  have pageSize := pool.pageSize
  have blockSize := pool.blockSize
  rcases allocate_cases pool.sound (by decide : 0 < 4096) (by rw [pool.blockSize]; decide)
    (fun _ => by rw [pageSize]; exact pool.endsFit.placeFits) with
    ⟨_, _, _, _, _, _, _, found, _⟩ | ⟨next, addr, _, placed, ran, grant, grown⟩ |
    ⟨_, missing, ran⟩
  · rw [pool.pageWith_none] at found
    cases found
  · left
    rw [pageSize] at placed grown
    rw [blockSize] at grant
    have isFrame := placed.isFrame pool
    have narrow : wrap32 addr = addr := by
      have high := isFrame.2.2
      have bound := pool.valid.narrow
      exact wrap32_of_lt (by omega)
    rw [narrow] at ran
    have apart := placed.apart pool.sound
    refine ⟨addr, next, ran, ⟨pool.valid, grant.sound, pool.settings.trans grant.settings, ?_, ?_⟩,
      isFrame, ?_, ?_, fun lower => placed.covers pool⟩
    · intro block member
      rcases List.mem_cons.mp (grant.used.mem_iff.mp member) with here | old
      · rw [here]
      · exact pool.blocks block old
    · intro extent member
      rcases List.mem_cons.mp (grown.mem_iff.mp member) with here | old
      · rw [here]
        exact ⟨rfl, isFrame⟩
      · exact pool.pages extent old
    · intro member
      rcases pool.mem_frames.mp member with ⟨page, inPages, same⟩
      have disjoint := apart page inPages
      have size := (pool.page_frame inPages).1
      unfold Page.Apart Page.extent at disjoint
      simp only at disjoint
      omega
    · apply Finset.ext
      intro other
      rw [Finset.mem_insert, VortexMemoryAllocator.mem_frames, VortexMemoryAllocator.mem_frames]
      constructor
      · rintro ⟨size, member⟩
        rcases List.mem_cons.mp (grant.used.mem_iff.mp member) with here | old
        · exact Or.inl (congrArg Prod.fst here)
        · exact Or.inr ⟨size, old⟩
      · rintro (rfl | ⟨size, old⟩)
        · exact ⟨4096, grant.used.mem_iff.mpr List.mem_cons_self⟩
        · exact ⟨size, grant.used.mem_iff.mpr (List.mem_cons_of_mem _ old)⟩
  · right
    refine ⟨ran, ?_⟩
    intro frame isFrame
    rw [pageSize] at missing
    rcases findNextAddress_none pool.sound pool.endsFit.placeFits missing with ⟨_, full, tight⟩
    have base : state.baseAddress_ = platform.ALLOC_BASE_ADDR := pool.settings.baseAddress
    have capacity : state.capacity_ = platform.GLOBAL_MEM_SIZE - platform.ALLOC_BASE_ADDR :=
      pool.settings.capacity
    have high := isFrame.2.2
    have room := pool.valid.room
    rcases covered_of_tight (by rw [base]; exact pool.valid.baseAligned)
      (fun page member => ⟨(pool.page_frame member).1, (pool.page_frame member).2.1⟩)
      pool.sound.ordered
      (fun page member => by rw [base]; exact (pool.page_frame member).2.2.1)
      tight isFrame.1 (by rw [base]; exact isFrame.2.1) (by omega) with ⟨page, member, same⟩
    exact pool.mem_frames.mpr ⟨page, member, same⟩

theorem release_frame (pool : FramePool platform state) (frame : Nat) :
    (frame ∈ frames state ∧ ∃ next, state.release frame = .ok true next ∧
      FramePool platform next ∧ frames next = (frames state).erase frame) ∨
    (frame ∉ frames state ∧ state.release frame = .ok false state) := by
  rcases release_cases pool.sound frame with ⟨next, size, ran, revoke⟩ | ⟨ran, missing⟩
  · left
    have starts := pool.sound.starts_nodup
    rw [List.perm_nodupKeys (revoke.used.map entry), List.map_cons] at starts
    have fresh := (List.nodupKeys_cons.mp starts).1
    refine ⟨VortexMemoryAllocator.mem_frames.mpr
      ⟨size, revoke.used.mem_iff.mpr List.mem_cons_self⟩, next, ran,
      ⟨pool.valid, revoke.sound, pool.settings.trans revoke.settings, ?_, ?_⟩, ?_⟩
    · intro block member
      exact pool.blocks block (revoke.used.mem_iff.mpr (List.mem_cons_of_mem _ member))
    · intro extent member
      exact pool.pages extent (revoke.extents extent member)
    · apply Finset.ext
      intro other
      rw [Finset.mem_erase, VortexMemoryAllocator.mem_frames, VortexMemoryAllocator.mem_frames]
      constructor
      · rintro ⟨length, member⟩
        refine ⟨?_, length, revoke.used.mem_iff.mpr (List.mem_cons_of_mem _ member)⟩
        intro same
        subst same
        have listed := List.mem_keys_of_mem (List.mem_map_of_mem (f := entry) member)
        exact fresh listed
      · rintro ⟨different, length, member⟩
        rcases List.mem_cons.mp (revoke.used.mem_iff.mp member) with here | old
        · exact absurd (congrArg Prod.fst here) different
        · exact ⟨length, old⟩
  · right
    refine ⟨?_, ran⟩
    intro member
    rcases VortexMemoryAllocator.mem_frames.mp member with ⟨size, listed⟩
    exact missing size listed

end Pool

end Espiral.VortexMemoryAllocator
