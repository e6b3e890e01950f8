import Espiral.Spinner.FailedAllocations
import Espiral.Spinner.Segments

/-!
# Headers of untrusted files

The two words in front of an image are taken as they are, cut to 32 bits. What
the later steps compute from them stays inside the image exactly when the words
and the length of the file fit together, which nothing checks.
-/

namespace Espiral.Spinner

set_option autoImplicit false

open AddressSpaceManager ByteMemory Contracts MachineWords Traces

def imageEnd (content : List UInt8) : Nat := ofLittleEndian ((content.drop 8).take 8)

/-- The block says what the file says: both words as they are, the length of the image,
which ends before the second word, and a heap on the first page after it. -/
structure Loaded (content : List UInt8) (kcb : KernelControlBlock) : Prop where
  first : kcb.kernel_start_va = imageStart content
  last : kcb.kernel_end_va = imageEnd content
  size : kcb.vxbin_size + 2 * 8 = content.length
  inside : kcb.kernel_start_va + kcb.vxbin_size ≤ kcb.kernel_end_va
  heap : ∃ heap, kcb.heap = some heap ∧
    heap.vm_allocator_.baseAddress_ = roundUp kcb.kernel_end_va PAGE_SIZE

/-- An allocation from this file throws, or it returns and has stored such a block. -/
def Validated (files : Files) (vxbin_path : String) (content : List UInt8)
    (state : Spinner FlatDevice) : Prop :=
  (∃ fault next, Spinner.allocateKernel files vxbin_path state = .error fault next ∧
      Thrown fault) ∨
    ∃ kid next kcb, Spinner.allocateKernel files vxbin_path state = .ok kid next ∧
      next.kcbs_[kid]? = some (some kcb) ∧ Loaded content kcb

/-- A header whose words are 32-bit addresses, with the image between them, and with a
page behind it. -/
structure WellFormed (content : List UInt8) : Prop where
  header : 2 * 8 ≤ content.length
  first : imageStart content < 2 ^ 32
  inside : imageStart content + (content.length - 2 * 8) ≤ imageEnd content
  last : imageEnd content + PAGE_SIZE ≤ 2 ^ 32

def Meets (kcb : KernelControlBlock) (va : Nat) : Prop :=
  ∃ addr, kcb.kernel_start_va ≤ addr ∧ addr < kcb.kernel_end_va ∧ addr / 4096 = va / 4096

def MapsOnly (root : Nat) (Condition : Nat → Prop) (start state : AddressSpaceManager) : Prop :=
  ∃ newer, state.history = newer ++ start.history ∧
    ∀ event ∈ newer, ∃ va pa flags, event = .mapped root va pa flags ∧ Condition va

/-- No live table translates an address differently, but for the pages of the image. -/
def SameOutside (kcb : KernelControlBlock) (state next : AddressSpaceManager) : Prop :=
  ∀ table va, state.Live table → va < 2 ^ 32 → (table = kcb.top_pgtbl_pa → ¬Meets kcb va) →
    next.translated table va = state.translated table va

/-- The segments of the block are mapped on pages of its image only, whether the call returns
or throws; where tables are kept apart, nothing else is translated differently. -/
structure SegmentsInside (kid : Nat) (kcb : KernelControlBlock) (state : Spinner FlatDevice) :
    Prop where
  pages : Ensures (allocateVxbinSegments kid) state
    (fun _ next => MapsOnly kcb.top_pgtbl_pa (Meets kcb) state.aspace_ next.aspace_)
    (fun _ next => MapsOnly kcb.top_pgtbl_pa (Meets kcb) state.aspace_ next.aspace_)
  translations : ∀ platform identity holes, Reached platform identity holes state.aspace_ →
    state.aspace_.Live kcb.top_pgtbl_pa →
    Ensures (allocateVxbinSegments kid) state
      (fun _ next => SameOutside kcb state.aspace_ next.aspace_)
      (fun _ next => SameOutside kcb state.aspace_ next.aspace_)

def UploadedInside (kcb : KernelControlBlock) (state next : Spinner FlatDevice) : Prop :=
  ∀ addr, next.device.memory addr ≠ state.device.memory addr →
    ∃ va, kcb.kernel_start_va ≤ va ∧ va < kcb.kernel_end_va ∧
      state.aspace_.translated kcb.top_pgtbl_pa va = some addr

section Segments

variable {Invariant : AddressSpaceManager → Prop} {root min_vma max_vma bin_size : Nat}

theorem allocateVmPages_of_pages {va size flags : Nat}
    (keeps : ∀ offset, offset < size → 4096 ∣ offset →
      Keeps Invariant (allocateOneVmPage (wrap32 (va + offset)) root flags)) :
    Keeps Invariant (allocateVmPages va size root flags) := by
  intro state kept
  exact forPages_keeps (fun offset now inside aligned => keeps offset inside aligned now)
    (Nat.dvd_zero 4096) kept

def KeepsImage (Invariant : AddressSpaceManager → Prop) (root min_vma max_vma : Nat) : Prop :=
  ∀ va flags, va < 2 ^ 32 → flags &&& PteFlags.R ≠ 0 →
    (∃ addr, min_vma ≤ addr ∧ addr < max_vma ∧ addr / 4096 = va / 4096) →
    Keeps Invariant (allocateOneVmPage va root flags)

theorem KeepsImage.range (keeps : KeepsImage Invariant root min_vma max_vma)
    (narrow : max_vma + 4096 ≤ 2 ^ 32) {first size flags : Nat} (low : min_vma ≤ first)
    (inside : ∀ offset, offset < size → 4096 ∣ offset → first + offset < max_vma)
    (readable : flags &&& PteFlags.R ≠ 0) :
    Keeps Invariant (allocateVmPages first size root flags) := by
  apply allocateVmPages_of_pages
  intro offset below aligned
  have before := inside offset below aligned
  rw [wrap32_of_lt (by omega)]
  exact keeps _ flags (by omega) readable ⟨first + offset, by omega, before, rfl⟩

theorem KeepsImage.data (keeps : KeepsImage Invariant root min_vma max_vma)
    (narrow : max_vma + 4096 ≤ 2 ^ 32) {first : Nat} (low : min_vma ≤ first) :
    Keeps Invariant (if max_vma > first then
      allocateVmPages first (max_vma - first) root dataFlags else pure ()) := by
  apply keeps_ite
  · intro more
    exact keeps.range narrow low (fun offset below _ => by omega) (by decide)
  · intro _
    exact keeps_pure _

theorem KeepsImage.shared (keeps : KeepsImage Invariant root min_vma max_vma)
    (narrow : max_vma + 4096 ≤ 2 ^ 32) (inside : (min_vma + bin_size) % 4096 ≠ 0)
    (more : min_vma + bin_size < max_vma) :
    Keeps Invariant (mapVxbinSegments root min_vma max_vma bin_size) := by
  rw [mapVxbinSegments_shared narrow inside more]
  have rest : Keeps Invariant
      (allocateOneVmPage ((min_vma + bin_size) / 4096 * 4096) root sharedFlags >>= fun _ =>
        if max_vma > ((min_vma + bin_size) / 4096 + 1) * 4096 then
          allocateVmPages (((min_vma + bin_size) / 4096 + 1) * 4096)
            (max_vma - ((min_vma + bin_size) / 4096 + 1) * 4096) root dataFlags
        else pure ()) := by
    apply Keeps.bind
    · apply keeps _ sharedFlags (by omega) (by decide)
      exact ⟨min_vma + bin_size, by omega, more, by omega⟩
    · intro _
      exact keeps.data narrow (by omega)
  apply keeps_ite
  · intro code
    apply Keeps.bind
    · exact keeps.range narrow (Nat.le_refl _) (fun offset below _ => by omega) (by decide)
    · intro _
      exact rest
  · intro _
    exact rest

theorem KeepsImage.apart (keeps : KeepsImage Invariant root min_vma max_vma)
    (fits : min_vma + bin_size ≤ max_vma) (narrow : max_vma + 4096 ≤ 2 ^ 32)
    (apart : (min_vma + bin_size) % 4096 = 0 ∨ min_vma + bin_size = max_vma) :
    Keeps Invariant (mapVxbinSegments root min_vma max_vma bin_size) := by
  rw [mapVxbinSegments_apart fits narrow apart]
  apply Keeps.bind
  · apply keeps.range narrow (Nat.le_refl _) ?_ (by decide)
    intro offset below aligned
    unfold roundUp at below
    omega
  · intro _
    exact keeps.data narrow (Nat.le_add_right _ _)

theorem mapVxbinSegments_inside (fits : min_vma + bin_size ≤ max_vma)
    (narrow : max_vma + 4096 ≤ 2 ^ 32) (keeps : KeepsImage Invariant root min_vma max_vma) :
    Keeps Invariant (mapVxbinSegments root min_vma max_vma bin_size) := by
  by_cases shared : (min_vma + bin_size) % 4096 ≠ 0 ∧ min_vma + bin_size < max_vma
  · exact keeps.shared narrow shared.1 shared.2
  · exact keeps.apart fits narrow (by omega)

end Segments

section Pages

variable {kid : Nat} {kcb : KernelControlBlock} {state : Spinner FlatDevice} {root va flags : Nat}
  {Condition : Nat → Prop} {start aspace : AddressSpaceManager}

theorem MapsOnly.refl (root : Nat) (Condition : Nat → Prop) (start : AddressSpaceManager) :
    MapsOnly root Condition start start :=
  ⟨[], rfl, fun _ member => by cases member⟩

theorem allocateOneVmPage_mapsOnly (holds : Condition va) :
    Keeps (MapsOnly root Condition start) (allocateOneVmPage va root flags) := by
  have shielded : Shielded (MapsOnly root Condition start) :=
    ⟨allocateOnePage_keeps fun _ _ kept => kept, fun _ _ kept => kept⟩
  apply allocateOneVmPage_shielded shielded
  intro pa state kept
  obtain ⟨newer, split, only⟩ := kept
  apply ensures_of_run (record_run _)
  refine ⟨.mapped root va pa flags :: newer, by rw [split]; rfl, ?_⟩
  intro event member
  cases List.mem_cons.mp member with
  | inl here => exact ⟨va, pa, flags, here, holds⟩
  | inr before => exact only event before

theorem MapsOnly.sameOutside {platform : Platform} {identity : Nat → Prop}
    {owner later : Nat → Option Role} (owned : WellOwned platform identity owner start)
    (laterOwned : WellOwned platform identity later aspace)
    (only : MapsOnly kcb.top_pgtbl_pa (Meets kcb) start aspace) :
    SameOutside kcb start aspace := by
  obtain ⟨newer, split, events⟩ := only
  have mapped : ∀ event ∈ newer, ∃ va pa flags, event = .mapped kcb.top_pgtbl_pa va pa flags := by
    intro event member
    obtain ⟨va, pa, flags, same, _⟩ := events event member
    exact ⟨va, pa, flags, same⟩
  intro table va isLive bound away
  have liveNow : aspace.Live table := by
    rw [Live, split]
    exact live_append (untouched_of_mapped mapped table).2 isLive
  rw [laterOwned.translated_mapping liveNow bound, owned.translated_mapping isLive bound, split,
    mapping_append_other mapped]
  intro same member
  obtain ⟨event, inNewer, page⟩ := List.mem_filterMap.mp member
  obtain ⟨other, pa, flags, eventIs, meets⟩ := events event inNewer
  rw [eventIs] at page
  simp only [if_true, Option.some.injEq] at page
  obtain ⟨addr, low, high, here⟩ := meets
  exact away same ⟨addr, low, high, here.trans page⟩

theorem allocateVxbinSegments_inside (stored : state.kcbs_[kid]? = some (some kcb))
    (inside : kcb.kernel_start_va + kcb.vxbin_size ≤ kcb.kernel_end_va)
    (narrow : kcb.kernel_end_va + 4096 ≤ 2 ^ 32) : SegmentsInside kid kcb state := by
  have pages := mapVxbinSegments_inside inside narrow
    (fun va flags _ _ meets => @allocateOneVmPage_mapsOnly kcb.top_pgtbl_pa va flags (Meets kcb)
      state.aspace_ meets) state.aspace_ (MapsOnly.refl _ _ _)
  constructor
  · apply ensures_bind_of_run (kcbAt_run stored)
    apply (onAddressSpace_ensures pages).weaken
    · intro _ next outcome
      exact outcome.1
    · intro _ next outcome
      exact outcome.1
  · intro platform identity holes reached isLive
    obtain ⟨owner, owned⟩ := reached.owned
    have kept := mapVxbinSegments_inside inside narrow
      (fun va flags bound readable _ => allocateOneVmPage_keeps readable bound) state.aspace_
      (reached.progress owned isLive)
    have same : ∀ now, MapsOnly kcb.top_pgtbl_pa (Meets kcb) state.aspace_ now ∧
        Progress platform identity holes kcb.top_pgtbl_pa owner state.aspace_ now →
        SameOutside kcb state.aspace_ now := by
      intro now outcome
      obtain ⟨later, laterOwned, _⟩ := outcome.2.owned
      exact outcome.1.sameOutside owned laterOwned
    apply ensures_bind_of_run (kcbAt_run stored)
    apply (onAddressSpace_ensures (pages.both kept)).weaken
    · intro _ next outcome
      exact same _ outcome.1
    · intro _ next outcome
      exact same _ outcome.1

end Pages

section Uploads

variable {kid : Nat} {kcb : KernelControlBlock} {state : Spinner FlatDevice}
  {caps : Caps → Option Nat} {files : Files} {root va : Nat} {content : List UInt8}

/-- Only reads, and writes to bytes that the range is translated to. -/
structure Elsewhere (root va : Nat) (content : List UInt8) (start state : Spinner FlatDevice) :
    Prop where
  aspace : ReadOnly start.aspace_ state.aspace_
  memory : ∀ addr, (∀ index < content.length, byteAddress start.aspace_ root va index ≠ some addr) →
    state.device.memory addr = start.device.memory addr

theorem copyChunksToDev_elsewhere (start : Spinner FlatDevice) (fuel offset : Nat) :
    Keeps (Elsewhere root va content start)
      (copyChunksToDev (flatAccelerator caps) root content fuel (wrap32 (va + offset)) offset) := by
  induction fuel generalizing offset with
  | zero => exact keeps_throw _
  | succ fuel ih =>
      intro state elsewhere
      by_cases more : offset < content.length
      · obtain ⟨aspace, read, unmapped, mapped⟩ :=
          @copyChunksToDev_chunk FlatDevice (flatAccelerator caps) root va fuel offset content state
            more
        have readOn := elsewhere.aspace.trans read
        rw [byteAddress_kept elsewhere.aspace root va] at unmapped mapped
        cases found : byteAddress start.aspace_ root va offset with
        | none => exact ensures_of_throw (unmapped found) ⟨readOn, elsewhere.memory⟩
        | some pa =>
            have inside := @chunkSize_le va content.length offset more
            apply (ih (offset + chunkSize va content.length offset) _ ?_).of_eq (mapped pa found)
            refine ⟨readOn, ?_⟩
            intro addr away
            rw [← elsewhere.memory addr away]
            apply store_outside
            rw [List.length_take, List.length_drop]
            by_contra hit
            apply away (offset + (addr - pa)) (by omega)
            rw [@byteAddress_chunk va content.length offset (offset + (addr - pa)) start.aspace_ root pa
              found (by omega) (by omega), Option.some.injEq]
            omega
      · rw [copyChunksToDev, if_neg more]
        exact ensures_pure elsewhere

theorem uploadVxbin_inside (stored : state.kcbs_[kid]? = some (some kcb))
    (onDisk : files kcb.vxbin_path = some content) (loaded : Loaded content kcb)
    (narrow : kcb.kernel_end_va < 2 ^ 32) :
    Ensures (uploadVxbin (flatAccelerator caps) files kid) state
      (fun _ next => UploadedInside kcb state next) (fun _ next => UploadedInside kcb state next) := by
  have size := loaded.size
  have fits := loaded.inside
  have whole : 16 ≤ content.length := by omega
  have firstIs : wrap32 (imageStart content) = kcb.kernel_start_va := by
    rw [loaded.first]
    apply wrap32_of_lt
    rw [← loaded.first]
    omega
  have finish : ∀ next, Elsewhere kcb.top_pgtbl_pa kcb.kernel_start_va (imageBytes content) state
      next → UploadedInside kcb state next := by
    intro next elsewhere addr changed
    by_contra missed
    apply changed
    apply elsewhere.memory addr
    intro index inside found
    rw [imageBytes, List.length_drop] at inside
    rw [byteAddress, wrap32_of_lt (by omega)] at found
    exact missed ⟨_, Nat.le_add_right _ _, by omega, found⟩
  have copied := @copyChunksToDev_elsewhere caps kcb.top_pgtbl_pa kcb.kernel_start_va
    (imageBytes content) state ((imageBytes content).length + 1) 0 state
    ⟨ReadOnly.refl _, fun _ _ => rfl⟩
  rw [Nat.add_zero, wrap32_of_lt (by omega)] at copied
  rw [uploadVxbin]
  apply ensures_bind_of_run (kcbAt_run stored)
  apply ensures_bind_of_run (readVxbin_run onDisk)
  apply ensures_bind_of_run (vxbinHeader_run whole)
  change Ensures (copyHostToDev _ kid (wrap32 (imageStart content)) (imageBytes content)) state _ _
  rw [firstIs, copyHostToDev]
  apply ensures_bind_of_run (kcbAt_run stored)
  apply copied.weaken
  · intro _ next elsewhere
    exact finish next elsewhere
  · intro _ next elsewhere
    exact finish next elsewhere

end Uploads

section Headers

variable {platform : Platform} {state : Spinner FlatDevice} {files : Files} {vxbin_path : String}
  {content : List UInt8} {root : Nat} {aspace : AddressSpaceManager}

theorem newKcb_heap {base : Nat} : (∃ heap,
    (newKcb root vxbin_path content.length (imageStart content) (imageEnd content)).heap =
        some heap ∧ heap.vm_allocator_.baseAddress_ = base) ↔
      wrap32 (pageAlignUp (imageEnd content)) = base := by
  constructor
  · intro stored
    obtain ⟨heap, has, same⟩ := stored
    cases has
    exact same
  · intro same
    exact ⟨_, rfl, same⟩

theorem newKcb_loaded_iff (whole : 2 * 8 ≤ content.length) :
    Loaded content (newKcb root vxbin_path content.length (imageStart content)
      (imageEnd content)) ↔ WellFormed content := by
  constructor
  · intro loaded
    have first : wrap32 (imageStart content) = imageStart content := loaded.first
    have last : wrap32 (imageEnd content) = imageEnd content := loaded.last
    have inside : wrap32 (imageStart content) + (content.length - 2 * 8) ≤
        wrap32 (imageEnd content) := loaded.inside
    have firstNarrow := wrap32_lt (imageStart content)
    have lastNarrow := wrap32_lt (imageEnd content)
    have base : wrap32 (pageAlignUp (imageEnd content)) =
        roundUp (wrap32 (imageEnd content)) PAGE_SIZE := newKcb_heap.mp loaded.heap
    have baseNarrow := wrap32_lt (pageAlignUp (imageEnd content))
    rw [last] at lastNarrow inside
    rw [first] at firstNarrow inside
    refine ⟨whole, firstNarrow, inside, ?_⟩
    rw [base, last] at baseNarrow
    unfold roundUp PAGE_SIZE at baseNarrow
    unfold PAGE_SIZE
    omega
  · intro wellFormed
    have room := wellFormed.last
    unfold PAGE_SIZE at room
    have first : wrap32 (imageStart content) = imageStart content := wrap32_of_lt wellFormed.first
    have last : wrap32 (imageEnd content) = imageEnd content := wrap32_of_lt (by omega)
    constructor
    · exact first
    · exact last
    · exact Nat.sub_add_cancel whole
    · change wrap32 _ + (content.length - 2 * 8) ≤ wrap32 _
      rw [first, last]
      exact wellFormed.inside
    · rw [newKcb_heap, pageAlignUp_roundUp room]
      change _ = roundUp (wrap32 _) _
      rw [last]
      rfl

/-- Without a root frame nothing is read; with one everything depends on the file. -/
theorem Pooled.validated_iff (pooled : Pooled platform state)
    (onDisk : files vxbin_path = some content) :
    Validated files vxbin_path content state ↔
      (∃ last, PageOutcome platform (fun frame => state.aspace_.hole_list_.addrInHole frame)
        state.aspace_.frames none last) ∨ WellFormed content := by
  obtain ⟨result, aspace, asked⟩ := pooled.asked
  have outcome := asked.outcome
  cases result with
  | none =>
      constructor
      · intro _
        exact Or.inl ⟨_, outcome⟩
      · intro _
        exact Or.inl ⟨_, _, allocateKernel_noRoot asked.ran, thrown_runtimeError _⟩
  | some root =>
      have granted : ¬∃ last, PageOutcome platform
          (fun frame => state.aspace_.hole_list_.addrInHole frame) state.aspace_.frames none
          last := by
        intro refused
        obtain ⟨last, other⟩ := refused
        cases (other.unique outcome).1
      rw [or_iff_right granted]
      by_cases whole : 2 * 8 ≤ content.length
      · have ran := allocateKernel_run asked.ran onDisk whole
        rw [← @newKcb_loaded_iff vxbin_path content root whole]
        have stored : (state.kcbs_.allocate.2.set state.kcbs_.allocate.1
            (some (newKcb root vxbin_path content.length (imageStart content)
              (imageEnd content))))[state.kcbs_.allocate.1]? = some (some _) :=
          List.getElem?_set_self (Kcbs.allocate_inside state.kcbs_)
        constructor
        · intro validated
          cases validated with
          | inl thrown =>
              obtain ⟨fault, next, failed, _⟩ := thrown
              rw [ran] at failed
              cases failed
          | inr returned =>
              obtain ⟨kid, next, kcb, done, storedNow, loaded⟩ := returned
              rw [ran] at done
              cases done
              have same := stored.symm.trans storedNow
              cases same
              exact loaded
        · intro loaded
          exact Or.inr ⟨_, _, _, ran, stored, loaded⟩
      · have ran := allocateKernel_short asked.ran onDisk (Nat.lt_of_not_le whole)
        constructor
        · intro validated
          cases validated with
          | inl thrown =>
              obtain ⟨fault, next, failed, defined⟩ := thrown
              rw [ran] at failed
              cases failed
              exact absurd rfl defined.1
          | inr returned =>
              obtain ⟨kid, next, kcb, done, _⟩ := returned
              rw [ran] at done
              cases done
        · intro wellFormed
          exact absurd wellFormed.header whole

end Headers

/-- In every state that any calls lead to, a file is as good as validated exactly if there is
no frame for a table, or its header is well formed; and then whatever state the block is
started in, its segments and its upload stay inside the image. -/
theorem headers_validated_iff {platform : Platform} (valid : platform.Valid)
    {caps : Caps → Option Nat} {device : FlatDevice} {calls : List (Files × SpinnerCall)}
    {state : Spinner FlatDevice}
    (run : Trace (AnyStep platform caps) (Spinner.new platform (flatAccelerator caps) device) calls
      state)
    {files : Files} {vxbin_path : String} {content : List UInt8}
    (onDisk : files vxbin_path = some content) :
    (Validated files vxbin_path content state ↔
      (∃ last, PageOutcome platform (fun frame => state.aspace_.hole_list_.addrInHole frame)
        state.aspace_.frames none last) ∨ WellFormed content) ∧
    (WellFormed content → ∀ kcb, Loaded content kcb →
      ∀ (kid : Nat) (later : Spinner FlatDevice), later.kcbs_[kid]? = some (some kcb) →
        SegmentsInside kid kcb later ∧
        ∀ laterCaps laterFiles, laterFiles kcb.vxbin_path = some content →
          Ensures (uploadVxbin (flatAccelerator laterCaps) laterFiles kid) later
            (fun _ next => UploadedInside kcb later next)
            (fun _ next => UploadedInside kcb later next)) := by
  constructor
  · exact (run_pooled valid run).validated_iff onDisk
  · intro wellFormed kcb loaded kid later stored
    have room := wellFormed.last
    rw [← loaded.last] at room
    unfold PAGE_SIZE at room
    constructor
    · exact allocateVxbinSegments_inside stored loaded.inside room
    · intro laterCaps laterFiles still
      exact uploadVxbin_inside stored still loaded (by omega)

section Small

def smallImage (first last : Nat) : List UInt8 :=
  littleEndian 8 first ++ littleEndian 8 last ++ List.replicate 16 0

/-- An image with sixteen bytes of code and sixteen bytes of data. -/
theorem headers_validated_iff_small : ∃ next kcb,
    Spinner.allocateKernel (fun _ => some (smallImage 0x10000 0x10020)) "kernel"
        (Spinner.new smallPlatform (flatAccelerator fun _ => none) ⟨fun _ => 0, []⟩) =
      .ok 0 next ∧
    next.kcbs_[0]? = some (some kcb) ∧ Loaded (smallImage 0x10000 0x10020) kcb ∧
    SegmentsInside 0 kcb next := by
  obtain ⟨created, ran, _⟩ := smallPlatform_created
  have obtained := @allocateKernel_first FlatDevice smallPlatform (flatAccelerator fun _ => none)
    ⟨fun _ => 0, []⟩ (fun _ => some (smallImage 0x10000 0x10020)) "kernel"
    (smallImage 0x10000 0x10020) 0x1000 created rfl (by decide) ran
  have wellFormed : WellFormed (smallImage 0x10000 0x10020) :=
    ⟨by decide, by decide, by decide, by decide⟩
  have start : Trace (AnyStep smallPlatform fun _ => none)
      (Spinner.new smallPlatform (flatAccelerator fun _ => none) ⟨fun _ => 0, []⟩) []
      (Spinner.new smallPlatform (flatAccelerator fun _ => none) ⟨fun _ => 0, []⟩) := Trace.nil _
  obtain ⟨validated, inside⟩ := @headers_validated_iff smallPlatform smallPlatform_valid
    (fun _ => none) ⟨fun _ => 0, []⟩ [] _ start (fun _ => some (smallImage 0x10000 0x10020)) "kernel"
    (smallImage 0x10000 0x10020) rfl
  cases validated.mpr (Or.inr wellFormed) with
  | inl thrown =>
      obtain ⟨fault, next, failed, _⟩ := thrown
      rw [obtained] at failed
      cases failed
  | inr returned =>
      obtain ⟨kid, next, kcb, done, stored, loaded⟩ := returned
      rw [obtained] at done
      cases done
      exact ⟨_, kcb, obtained, stored, loaded, (inside wellFormed kcb loaded 0 _ stored).1⟩

/-- Words above the 32-bit addresses are cut, an end below the start is stored, and a file
of eight bytes is read past its end. -/
theorem headers_not_checked : (∃ next kcb,
    Spinner.allocateKernel (fun _ => some (smallImage 0x100010000 0x100010020)) "kernel"
        (Spinner.new smallPlatform (flatAccelerator fun _ => none) ⟨fun _ => 0, []⟩) =
      .ok 0 next ∧
    next.kcbs_[0]? = some (some kcb) ∧ kcb.kernel_start_va = 0x10000 ∧
    imageStart (smallImage 0x100010000 0x100010020) = 0x100010000) ∧
    ∀ content ∈ [smallImage 0x100010000 0x100010020, smallImage 0x10000 0x8000,
        List.replicate 8 0],
      ¬Validated (fun _ => some content) "kernel" content
        (Spinner.new smallPlatform (flatAccelerator fun _ => none) ⟨fun _ => 0, []⟩) := by
  obtain ⟨created, ran, _⟩ := smallPlatform_created
  have pooled : Pooled smallPlatform
      (Spinner.new smallPlatform (flatAccelerator fun _ => none) ⟨fun _ => 0, []⟩) :=
    new_pooled smallPlatform_valid 0
  constructor
  · have obtained := @allocateKernel_first FlatDevice smallPlatform (flatAccelerator fun _ => none)
      ⟨fun _ => 0, []⟩ (fun _ => some (smallImage 0x100010000 0x100010020)) "kernel"
      (smallImage 0x100010000 0x100010020) 0x1000 created rfl (by decide) ran
    exact ⟨_, _, obtained, rfl, by decide, by decide⟩
  · intro content member validated
    cases (pooled.validated_iff rfl).mp validated with
    | inl refused =>
        obtain ⟨last, noFrame⟩ := refused
        obtain ⟨result, aspace, asked⟩ := pooled.asked
        have same := asked.ran.symm.trans ran
        cases same
        cases (noFrame.unique asked.outcome).1
    | inr wellFormed =>
        have ill : ∀ content ∈ [smallImage 0x100010000 0x100010020, smallImage 0x10000 0x8000,
            List.replicate 8 0], ¬(2 * 8 ≤ content.length ∧ imageStart content < 2 ^ 32 ∧
              imageStart content + (content.length - 2 * 8) ≤ imageEnd content) := by decide
        exact ill content member ⟨wellFormed.header, wellFormed.first, wellFormed.inside⟩

end Small

end Espiral.Spinner
