import Espiral.Mm.FrameSupply
import Espiral.Spinner.Calls

/-!
# Segments of an image

The pages of an image are split between code and data in three ways. However
they are split, they are mapped one after another from the first to the last,
and the heap starts after them.
-/

namespace Espiral.Spinner

set_option autoImplicit false

open AddressSpaceManager Contracts MachineWords Traces

section Alignment

variable {value addr : Nat}

theorem pageAlignUp_eq (narrow : value + 4096 ≤ 2 ^ 64) :
    pageAlignUp value = roundUp value 4096 := by
  have mask := and_not64_low_bits (value + PAGE_SIZE - 1) 12
    (by change value + 4096 - 1 < 2 ^ 64; omega) (by decide)
  have sum : wrap64 (value + PAGE_SIZE - 1) = value + PAGE_SIZE - 1 := by
    apply wrap64_of_lt
    change value + 4096 - 1 < 2 ^ 64
    omega
  have ones : PAGE_SIZE - 1 = 2 ^ 12 - 1 := rfl
  rw [pageAlignUp, sum, ones, mask]
  rfl

theorem pageAlignUp_roundUp (narrow : value + 4096 ≤ 2 ^ 32) :
    wrap32 (pageAlignUp value) = roundUp value 4096 := by
  rw [pageAlignUp_eq (by omega)]
  apply wrap32_of_lt
  unfold roundUp
  omega

theorem pageAlignDown_frame (narrow : addr < 2 ^ 32) : pageAlignDown addr = addr / 4096 * 4096 :=
  and_not64_low_bits addr 12 (by omega) (by decide)

end Alignment

section Equations

variable {root min_vma max_vma bin_size : Nat}

/-- What is mapped where code and data share a page. -/
theorem mapVxbinSegments_shared (narrow : max_vma + 4096 ≤ 2 ^ 32)
    (inside : (min_vma + bin_size) % 4096 ≠ 0) (data : min_vma + bin_size < max_vma) :
    mapVxbinSegments root min_vma max_vma bin_size = (do
      if (min_vma + bin_size) / 4096 * 4096 > min_vma then
        allocateVmPages min_vma ((min_vma + bin_size) / 4096 * 4096 - min_vma) root sharedFlags
      allocateOneVmPage ((min_vma + bin_size) / 4096 * 4096) root sharedFlags
      if max_vma > ((min_vma + bin_size) / 4096 + 1) * 4096 then
        allocateVmPages (((min_vma + bin_size) / 4096 + 1) * 4096)
          (max_vma - ((min_vma + bin_size) / 4096 + 1) * 4096) root dataFlags) := by
  have codeEnd : wrap32 (min_vma + bin_size) = min_vma + bin_size := wrap32_of_lt (by omega)
  have before : wrap32 (min_vma + bin_size + (2 ^ 32 - 1)) = min_vma + bin_size - 1 := by
    unfold wrap32
    omega
  have lastIs : pageAlignDown (min_vma + bin_size - 1) = (min_vma + bin_size) / 4096 * 4096 := by
    rw [pageAlignDown_frame (by omega)]
    omega
  have endIs : pageAlignDown (min_vma + bin_size) = (min_vma + bin_size) / 4096 * 4096 :=
    pageAlignDown_frame (by omega)
  have hasData : max_vma > min_vma + bin_size := data
  have nextPage : wrap32 ((min_vma + bin_size) / 4096 * 4096 + PAGE_SIZE) =
      ((min_vma + bin_size) / 4096 + 1) * 4096 := by
    unfold PAGE_SIZE wrap32
    omega
  rw [mapVxbinSegments]
  simp only [codeEnd, before, lastIs, endIs, hasData, nextPage, decide_true, Bool.and_true, if_true]

/-- What is mapped where the code ends at the end of a page, or there is no data. -/
theorem mapVxbinSegments_apart (fits : min_vma + bin_size ≤ max_vma)
    (narrow : max_vma + 4096 ≤ 2 ^ 32)
    (apart : (min_vma + bin_size) % 4096 = 0 ∨ min_vma + bin_size = max_vma) :
    mapVxbinSegments root min_vma max_vma bin_size = (do
      allocateVmPages min_vma (roundUp bin_size 4096) root codeFlags
      if max_vma > min_vma + roundUp bin_size 4096 then
        allocateVmPages (min_vma + roundUp bin_size 4096)
          (max_vma - (min_vma + roundUp bin_size 4096)) root dataFlags) := by
  have codeEnd : wrap32 (min_vma + bin_size) = min_vma + bin_size := wrap32_of_lt (by omega)
  have endIs : pageAlignDown (min_vma + bin_size) = (min_vma + bin_size) / 4096 * 4096 :=
    pageAlignDown_frame (by omega)
  have sizeIs : wrap32 (pageAlignUp bin_size) = roundUp bin_size 4096 :=
    pageAlignUp_roundUp (by omega)
  have dataIs : wrap32 (min_vma + roundUp bin_size 4096) = min_vma + roundUp bin_size 4096 := by
    apply wrap32_of_lt
    unfold roundUp
    omega
  have notShared : ¬(decide (max_vma > min_vma + bin_size) && decide
      (pageAlignDown (wrap32 (min_vma + bin_size + (2 ^ 32 - 1))) =
        (min_vma + bin_size) / 4096 * 4096)) = true := by
    rw [Bool.and_eq_true, decide_eq_true_eq, decide_eq_true_eq, pageAlignDown_frame (wrap32_lt _)]
    unfold wrap32
    omega
  have onlyLater : (decide (max_vma > min_vma + bin_size) && decide
      (max_vma > min_vma + roundUp bin_size 4096)) =
      decide (max_vma > min_vma + roundUp bin_size 4096) := by
    rw [Bool.and_eq_right_iff_imp, decide_eq_true_eq, decide_eq_true_eq]
    unfold roundUp
    omega
  rw [mapVxbinSegments]
  simp only [codeEnd, endIs, sizeIs, dataIs, onlyLater, decide_eq_true_eq]
  rw [if_neg notShared]

end Equations

/-- What the pages of an image are mapped with: pages with a byte of the code for reading
and executing, pages with a byte of the data for reading and writing. -/
def segmentFlags (min_vma max_vma bin_size page : Nat) : Nat :=
  let code_end := min_vma + bin_size
  let shared := decide (code_end < max_vma) && decide (code_end % 4096 ≠ 0)
  if page * 4096 < code_end then if shared then sharedFlags else codeFlags else dataFlags

section Segments

variable {platform : Platform} {identity : Nat → Prop} {holes : HoleList}
  {state : AddressSpaceManager} {root min_vma max_vma bin_size : Nat}

theorem segmentFlags_readable (min_vma max_vma bin_size page : Nat) :
    segmentFlags min_vma max_vma bin_size page &&& PteFlags.R ≠ 0 := by
  unfold segmentFlags
  simp only
  split
  · split
    · decide
    · decide
  · decide

theorem roundUp_page (value : Nat) : roundUp value 4096 / 4096 = (value + 4095) / 4096 :=
  Nat.mul_div_cancel _ (by decide)

section Parts

variable {flagsOf : Nat → Nat} {first position addr : Nat} {start : AddressSpaceManager}

theorem lays_data (narrow : max_vma + 4096 ≤ 2 ^ 32) (here : addr = position * 4096)
    (low : addr ≤ roundUp max_vma 4096)
    (data : ∀ page, position ≤ page → flagsOf page = dataFlags)
    (laid : Laid platform identity holes root flagsOf first (roundUp max_vma 4096 / 4096) start
      position state) :
    ∃ next, (if max_vma > addr then allocateVmPages addr (max_vma - addr) root dataFlags
        else pure () : Action AddressSpaceManager Unit) state = .ok () next ∧
      Laid platform identity holes root flagsOf first (roundUp max_vma 4096 / 4096) start
        (roundUp max_vma 4096 / 4096) next := by
  have stop := roundUp_page max_vma
  unfold roundUp at low
  by_cases more : max_vma > addr
  · have count : position + loopPages (max_vma - addr) = roundUp max_vma 4096 / 4096 := by
      unfold loopPages
      omega
    rw [if_pos more]
    obtain ⟨next, ran, laidNext⟩ := laid.range here (Nat.le_of_eq count)
      (fun page above _ => data page above) (by decide)
    rw [count] at laidNext
    exact ⟨next, ran, laidNext⟩
  · have last : position = roundUp max_vma 4096 / 4096 := by omega
    rw [if_neg more]
    refine ⟨state, rfl, ?_⟩
    rw [last] at laid
    exact laid

end Parts

theorem lays_shared (aligned : 4096 ∣ min_vma) (narrow : max_vma + 4096 ≤ 2 ^ 32)
    (inside : (min_vma + bin_size) % 4096 ≠ 0) (data : min_vma + bin_size < max_vma)
    (laid : Laid platform identity holes root (segmentFlags min_vma max_vma bin_size)
      (min_vma / 4096) (roundUp max_vma 4096 / 4096) state (min_vma / 4096) state) :
    ∃ next, mapVxbinSegments root min_vma max_vma bin_size state = .ok () next ∧
      Laid platform identity holes root (segmentFlags min_vma max_vma bin_size)
        (min_vma / 4096) (roundUp max_vma 4096 / 4096) state (roundUp max_vma 4096 / 4096)
        next := by
  obtain ⟨first, start⟩ := aligned
  have stop := roundUp_page max_vma
  have shared : ∀ page, page * 4096 < min_vma + bin_size →
      segmentFlags min_vma max_vma bin_size page = sharedFlags := by
    intro page code
    simp [segmentFlags, code, data, inside]
  have dataPages : ∀ page, (min_vma + bin_size) / 4096 + 1 ≤ page →
      segmentFlags min_vma max_vma bin_size page = dataFlags := by
    intro page above
    have notCode : ¬page * 4096 < min_vma + bin_size := by omega
    simp [segmentFlags, notCode]
  have finish : ∀ now, Laid platform identity holes root (segmentFlags min_vma max_vma bin_size)
      (min_vma / 4096) (roundUp max_vma 4096 / 4096) state ((min_vma + bin_size) / 4096) now →
      ∃ next, (do
          allocateOneVmPage ((min_vma + bin_size) / 4096 * 4096) root sharedFlags
          if max_vma > ((min_vma + bin_size) / 4096 + 1) * 4096 then
            allocateVmPages (((min_vma + bin_size) / 4096 + 1) * 4096)
              (max_vma - ((min_vma + bin_size) / 4096 + 1) * 4096) root dataFlags
          else pure () : Action AddressSpaceManager Unit) now = .ok () next ∧
        Laid platform identity holes root (segmentFlags min_vma max_vma bin_size)
          (min_vma / 4096) (roundUp max_vma 4096 / 4096) state (roundUp max_vma 4096 / 4096)
          next := by
    intro now laidNow
    obtain ⟨middle, ran, laidMiddle⟩ := laidNow.page (by omega)
      (by omega : (min_vma + bin_size) / 4096 * 4096 < 2 ^ 32) (Nat.mul_div_cancel _ (by decide))
      (shared _ (by omega)) (by decide)
    rw [bind_ok ran]
    exact lays_data narrow rfl (by unfold roundUp; omega) dataPages laidMiddle
  rw [mapVxbinSegments_shared narrow inside data]
  by_cases more : (min_vma + bin_size) / 4096 * 4096 > min_vma
  · have count : min_vma / 4096 + loopPages ((min_vma + bin_size) / 4096 * 4096 - min_vma) =
        (min_vma + bin_size) / 4096 := by
      unfold loopPages
      omega
    have code : ∀ page, min_vma / 4096 ≤ page →
        page < min_vma / 4096 + loopPages ((min_vma + bin_size) / 4096 * 4096 - min_vma) →
        segmentFlags min_vma max_vma bin_size page = sharedFlags := by
      intro page _ below
      rw [count] at below
      exact shared page (by omega)
    rw [if_pos more]
    obtain ⟨middle, ran, laidMiddle⟩ :=
      laid.range (by omega : min_vma = min_vma / 4096 * 4096) (by rw [count]; omega) code (by decide)
    rw [count] at laidMiddle
    rw [bind_ok ran]
    exact finish middle laidMiddle
  · have same : min_vma / 4096 = (min_vma + bin_size) / 4096 := by omega
    rw [if_neg more]
    apply finish
    rw [← same]
    exact laid

theorem lays_apart (aligned : 4096 ∣ min_vma) (fits : min_vma + bin_size ≤ max_vma)
    (narrow : max_vma + 4096 ≤ 2 ^ 32)
    (apart : (min_vma + bin_size) % 4096 = 0 ∨ min_vma + bin_size = max_vma)
    (laid : Laid platform identity holes root (segmentFlags min_vma max_vma bin_size)
      (min_vma / 4096) (roundUp max_vma 4096 / 4096) state (min_vma / 4096) state) :
    ∃ next, mapVxbinSegments root min_vma max_vma bin_size state = .ok () next ∧
      Laid platform identity holes root (segmentFlags min_vma max_vma bin_size)
        (min_vma / 4096) (roundUp max_vma 4096 / 4096) state (roundUp max_vma 4096 / 4096)
        next := by
  obtain ⟨first, start⟩ := aligned
  have stop := roundUp_page max_vma
  have dataIs : min_vma + roundUp bin_size 4096 =
      (min_vma / 4096 + loopPages (roundUp bin_size 4096)) * 4096 := by
    unfold loopPages roundUp
    omega
  have codePages : ∀ page, min_vma / 4096 ≤ page →
      page < min_vma / 4096 + loopPages (roundUp bin_size 4096) →
      segmentFlags min_vma max_vma bin_size page = codeFlags := by
    intro page above below
    unfold loopPages roundUp at below
    have code : page * 4096 < min_vma + bin_size := by omega
    have notBoth : ¬(min_vma + bin_size < max_vma ∧ ¬(min_vma + bin_size) % 4096 = 0) := by omega
    simp [segmentFlags, code]
    omega
  have dataPages : ∀ page, min_vma / 4096 + loopPages (roundUp bin_size 4096) ≤ page →
      segmentFlags min_vma max_vma bin_size page = dataFlags := by
    intro page above
    unfold loopPages roundUp at above
    have notCode : ¬page * 4096 < min_vma + bin_size := by omega
    simp [segmentFlags, notCode]
  rw [mapVxbinSegments_apart fits narrow apart, dataIs]
  obtain ⟨middle, ran, laidMiddle⟩ :=
    laid.range (by omega : min_vma = min_vma / 4096 * 4096)
      (by unfold loopPages roundUp; omega) codePages (by decide)
  rw [bind_ok ran]
  exact lays_data narrow rfl (by unfold loopPages roundUp; omega) dataPages laidMiddle

theorem mapVxbinSegments_lays (aligned : 4096 ∣ min_vma) (fits : min_vma + bin_size ≤ max_vma)
    (narrow : max_vma + 4096 ≤ 2 ^ 32)
    (laid : Laid platform identity holes root (segmentFlags min_vma max_vma bin_size)
      (min_vma / 4096) (roundUp max_vma 4096 / 4096) state (min_vma / 4096) state) :
    ∃ next, mapVxbinSegments root min_vma max_vma bin_size state = .ok () next ∧
      Laid platform identity holes root (segmentFlags min_vma max_vma bin_size)
        (min_vma / 4096) (roundUp max_vma 4096 / 4096) state (roundUp max_vma 4096 / 4096)
        next := by
  by_cases shared : (min_vma + bin_size) % 4096 ≠ 0 ∧ min_vma + bin_size < max_vma
  · exact lays_shared aligned narrow shared.1 shared.2 laid
  · exact lays_apart aligned fits narrow (by omega) laid

end Segments

/-- The image tiles its pages: each page that meets it is mapped once and no other page,
the heap that starts at `heap_base` is clear of them, and the entries allow what the bytes
of the page are for. -/
structure Tiled (state next : AddressSpaceManager) (root min_vma max_vma bin_size heap_base : Nat) :
    Prop where
  once : ∃ newer, next.history = newer ++ state.history ∧
    (∀ event ∈ newer, ∃ va pa flags, event = .mapped root va pa flags) ∧
    (pagesOf root newer).Nodup ∧
    ∀ page, page ∈ pagesOf root newer ↔
      (∃ addr, min_vma ≤ addr ∧ addr < max_vma ∧ addr / 4096 = page)
  others : ∀ table page, state.Live table → page < 2 ^ 20 →
    (table = root → ∀ addr, min_vma ≤ addr → addr < max_vma → addr / 4096 ≠ page) →
    leafOf next.view table page = leafOf state.view table page
  heap : heap_base = roundUp max_vma 4096 ∧
    ∀ addr, addr < max_vma → (addr / 4096 + 1) * 4096 ≤ heap_base
  code : ∀ addr, min_vma ≤ addr → addr < min_vma + bin_size →
    ∃ pte, leafOf next.view root (addr / 4096) = some pte ∧
      pte &&& PteFlags.R ≠ 0 ∧ pte &&& PteFlags.X ≠ 0
  data : ∀ addr, min_vma + bin_size ≤ addr → addr < max_vma →
    ∃ pte, leafOf next.view root (addr / 4096) = some pte ∧
      pte &&& PteFlags.R ≠ 0 ∧ pte &&& PteFlags.W ≠ 0

section Tiling

variable {platform : Platform} {identity : Nat → Prop} {holes : HoleList}
  {state next : AddressSpaceManager} {root min_vma max_vma bin_size : Nat}

theorem mapVxbinSegments_tiles (reached : Reached platform identity holes state)
    (isLive : state.Live root) (aligned : 4096 ∣ min_vma) (fits : min_vma + bin_size ≤ max_vma)
    (narrow : max_vma + 4096 ≤ 2 ^ 32)
    (unmapped : ∀ page, min_vma / 4096 ≤ page → page < roundUp max_vma 4096 / 4096 →
      leafOf state.view root page = none)
    (enough : Supply platform (fun frame => state.hole_list_.addrInHole frame) state.frames
      (framesNeeded state.view root
        (Finset.Ico (min_vma / 4096) (roundUp max_vma 4096 / 4096)))) :
    ∃ next, mapVxbinSegments root min_vma max_vma bin_size state = .ok () next ∧
      Tiled state next root min_vma max_vma bin_size (roundUp max_vma 4096) := by
  obtain ⟨owner, owned⟩ := reached.owned
  have stop := roundUp_page max_vma
  have pageBound : roundUp max_vma 4096 / 4096 < 2 ^ 20 := by omega
  have start : Laid platform identity holes root (segmentFlags min_vma max_vma bin_size)
      (min_vma / 4096) (roundUp max_vma 4096 / 4096) state (min_vma / 4096) state := by
    constructor
    · exact reached
    · exact isLive
    · exact ⟨Nat.le_refl _, by omega, pageBound⟩
    · rw [← reached.holes]
      exact enough
    · intro page low high
      rw [← owned.maps root page isLive (by omega)]
      exact unmapped page low high
    · refine ⟨[], rfl, fun _ member => (by cases member), ?_⟩
      rw [Nat.sub_self]
      rfl
    · intro page low high
      omega
  obtain ⟨next, ran, laid⟩ := mapVxbinSegments_lays aligned fits narrow start
  obtain ⟨later, nextOwned⟩ := laid.reached.owned
  obtain ⟨newer, history, only, pages⟩ := laid.events
  have membership : ∀ page, page ∈ pagesOf root newer ↔
      ∃ addr, min_vma ≤ addr ∧ addr < max_vma ∧ addr / 4096 = page := by
    intro page
    rw [pages, List.mem_reverse, List.mem_range'_1]
    constructor
    · intro inside
      exact ⟨page * 4096, by omega, by omega, Nat.mul_div_cancel _ (by decide)⟩
    · intro met
      obtain ⟨addr, low, high, same⟩ := met
      omega
  refine ⟨next, ran, ⟨newer, history, only, ?_, membership⟩, ?_, ⟨rfl, ?_⟩, ?_, ?_⟩
  · rw [pages, List.nodup_reverse]
    exact List.nodup_range'
  · intro table page tableLive bound away
    have nextLive : next.Live table := by
      rw [Live, history]
      exact live_append (untouched_of_mapped only table).2 tableLive
    rw [owned.maps table page tableLive bound, nextOwned.maps table page nextLive bound, history]
    apply mapping_append_other only
    intro same member
    obtain ⟨addr, low, high, here⟩ := (membership page).mp member
    exact away same addr low high here
  · intro addr below
    unfold roundUp
    omega
  · intro addr low high
    apply laid.entry (by omega) (by omega) (by decide) ?_ (segmentFlags_readable _ _ _ _)
    have code : addr / 4096 * 4096 < min_vma + bin_size := by omega
    simp only [segmentFlags, code, if_true]
    split
    · decide
    · decide
  · intro addr low high
    apply laid.entry (by omega) (by omega) (by decide) ?_ (segmentFlags_readable _ _ _ _)
    by_cases code : addr / 4096 * 4096 < min_vma + bin_size
    · have shared : min_vma + bin_size < max_vma ∧ ¬(min_vma + bin_size) % 4096 = 0 := by omega
      simp only [segmentFlags, code, if_true, shared, ne_eq, not_false_eq_true, decide_true,
        Bool.and_true]
      decide
    · simp only [segmentFlags, code, if_false]
      decide

end Tiling

/-- For every header, on a table without any page of the image and with frames for them,
the segments are mapped, and they tile the image below the heap. -/
theorem segments_tile {Device : Type} {platform : Platform} (valid : platform.Valid)
    {localMemSize : Nat} {operations : List Operation} {state : Spinner Device}
    (run : Trace (Step platform) (AddressSpaceManager.new platform localMemSize) operations
      state.aspace_)
    {kid : Nat} {kcb : KernelControlBlock} (stored : state.kcbs_[kid]? = some (some kcb))
    (isLive : state.aspace_.Live kcb.top_pgtbl_pa) {min_vma max_vma : Nat}
    (startIs : kcb.kernel_start_va = wrap32 min_vma) (endIs : kcb.kernel_end_va = wrap32 max_vma)
    (aligned : PAGE_SIZE ∣ min_vma) (fits : min_vma + kcb.vxbin_size ≤ max_vma)
    (narrow : max_vma + PAGE_SIZE ≤ 2 ^ 32)
    (unmapped : ∀ page, min_vma / 4096 ≤ page → page < roundUp max_vma 4096 / 4096 →
      leafOf state.aspace_.view kcb.top_pgtbl_pa page = none)
    (enough : Supply platform (fun frame => state.aspace_.hole_list_.addrInHole frame)
      state.aspace_.frames (framesNeeded state.aspace_.view kcb.top_pgtbl_pa
        (Finset.Ico (min_vma / 4096) (roundUp max_vma 4096 / 4096)))) :
    ∃ aspace, allocateVxbinSegments kid state = .ok () { state with aspace_ := aspace } ∧
      Tiled state.aspace_ aspace kcb.top_pgtbl_pa min_vma max_vma kcb.vxbin_size
        (HeapManager.new kcb.top_pgtbl_pa (wrap32 (pageAlignUp max_vma))).vm_allocator_.baseAddress_
    := by
  rw [new_withHoles] at run
  have reached := run_reached valid run
  obtain ⟨aspace, ran, tiled⟩ := mapVxbinSegments_tiles reached isLive aligned fits narrow unmapped
    enough
  have small : min_vma < 2 ^ 32 ∧ max_vma < 2 ^ 32 := by
    unfold PAGE_SIZE at narrow
    omega
  have heapBase : (HeapManager.new kcb.top_pgtbl_pa
      (wrap32 (pageAlignUp max_vma))).vm_allocator_.baseAddress_ = roundUp max_vma 4096 :=
    pageAlignUp_roundUp narrow
  refine ⟨aspace, ?_, ?_⟩
  · rw [allocateVxbinSegments, bind_ok (kcbAt_run stored), startIs, endIs, wrap32_of_lt small.1,
      wrap32_of_lt small.2]
    exact onAddressSpace_run ran
  · rw [heapBase]
    exact tiled

section Small

/-- An image with sixteen bytes of code and sixteen bytes of data in one page. -/
theorem segments_tile_small : ∃ state : Spinner Unit,
    state.kcbs_ = [some (newKcb 0x1000 "kernel" 32 0x10000 0x10020)] ∧
      ∃ aspace, allocateVxbinSegments 0 state = .ok () { state with aspace_ := aspace } ∧
        Tiled state.aspace_ aspace 0x1000 0x10000 0x10020 16
          (HeapManager.new 0x1000 (wrap32 (pageAlignUp 0x10020))).vm_allocator_.baseAddress_ := by
  obtain ⟨created, run, _, history, _, isLive, spare⟩ := smallPlatform_table
  obtain ⟨owner, owned⟩ := (run_reached smallPlatform_valid run).owned
  refine ⟨{ kcbs_ := [some (newKcb 0x1000 "kernel" 32 0x10000 0x10020)]
            aspace_ := created
            device := () }, rfl, ?_⟩
  refine @segments_tile Unit smallPlatform smallPlatform_valid 0 [.allocatePageTable] _ run 0
    (newKcb 0x1000 "kernel" 32 0x10000 0x10020) rfl isLive 0x10000 0x10020 rfl rfl (by decide)
    (by decide) (by decide) ?_ ?_
  · intro page low high
    have bound : page < 2 ^ 20 := Nat.lt_trans high (by decide)
    have mapped := owned.maps 0x1000 page isLive bound
    rw [history] at mapped
    exact mapped
  · exact spare.supply.fewer ((framesNeeded_le _ _ _).trans (by decide))

end Small

end Espiral.Spinner
