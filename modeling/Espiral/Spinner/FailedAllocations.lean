import Espiral.Mm.MappingFailures
import Espiral.Spinner.PooledCalls

/-!
# Kernels that are not allocated

An allocation takes a slot, then a root frame, then reads its file, and may
throw after each of the last two. The slot is given back only where the frame
is missing, and the frame is never given back.
-/

namespace Espiral.Spinner

set_option autoImplicit false

open AddressSpaceManager Contracts MachineWords Traces VortexMemoryAllocator

def Occupied (kcbs : Kcbs) (kid : Nat) : Prop := ∃ kcb, kcbs[kid]? = some (some kcb)

def freeSlot (kcbs : Kcbs) : Nat := (kcbs.findIdx? Option.isNone).getD kcbs.length

/-- An exception, and not an outcome that is not defined. -/
def Thrown (fault : Fault) : Prop := fault ≠ .undefinedBehaviour ∧ fault ≠ .nonTermination

/-- The occupied slots, the used blocks outside holes and what live kernels see are the same. -/
structure AsBefore (state next : Spinner FlatDevice) : Prop where
  slots : ∀ kid, Occupied next.kcbs_ kid ↔ Occupied state.kcbs_ kid
  blocks : ∀ block, state.aspace_.hole_list_.addrInHole block.1 = false →
    (block ∈ next.aspace_.page_allocator_.usedBlocks ↔
      block ∈ state.aspace_.page_allocator_.usedBlocks)
  translations : ∀ kid kcb heap, HasHeap state.kcbs_ kid kcb heap → ∀ va < 2 ^ 32,
    next.aspace_.translated kcb.top_pgtbl_pa va = state.aspace_.translated kcb.top_pgtbl_pa va

def AllOrNothing (files : Files) (vxbin_path : String) (state : Spinner FlatDevice) : Prop :=
  ∀ fault next, Spinner.allocateKernel files vxbin_path state = .error fault next →
    Thrown fault → AsBefore state next

/-- No live kernel would see it if the frame were filled with zeros. -/
def Unread (state : Spinner FlatDevice) (root : Nat) : Prop :=
  ∀ kid kcb heap, HasHeap state.kcbs_ kid kcb heap → ∀ va < 2 ^ 32,
    AddressSpaceManager.translated
        { state.aspace_ with scratchpad_ := state.aspace_.scratchpad_.write root zeroNode }
        kcb.top_pgtbl_pa va =
      state.aspace_.translated kcb.top_pgtbl_pa va

/-- When an allocation that throws leaves nothing behind. The file can be opened, so
nothing is thrown; or there is no frame for the root, and the index of the slot is an id;
or the root is in a hole, as the frame before it, and the slot is one that has been empty. -/
inductive NothingKept (platform : Platform) (files : Files) (vxbin_path : String)
    (state : Spinner FlatDevice) : Prop
  | opened {root : Nat} {last : Finset Nat}
      (found : PageOutcome platform (fun frame => state.aspace_.hole_list_.addrInHole frame)
        state.aspace_.frames (some root) last)
      (onDisk : files vxbin_path ≠ none)
  | noRoot {last : Finset Nat}
      (missing : PageOutcome platform (fun frame => state.aspace_.hole_list_.addrInHole frame)
        state.aspace_.frames none last)
      (narrow : freeSlot state.kcbs_ < 2 ^ 32)
  | inHoles {root : Nat} {last : Finset Nat}
      (found : PageOutcome platform (fun frame => state.aspace_.hole_list_.addrInHole frame)
        state.aspace_.frames (some root) last)
      (inside : NothingToTake platform (fun frame => state.aspace_.hole_list_.addrInHole frame)
        state.aspace_.frames)
      (empty : none ∈ state.kcbs_)
      (unread : Unread state root)

section Slots

variable {kcbs : Kcbs} {kid : Nat} {kcb : KernelControlBlock}

theorem allocate_slot (kcbs : Kcbs) : kcbs.allocate.1 = wrap32 (freeSlot kcbs) := by
  unfold Kcbs.allocate freeSlot
  cases kcbs.findIdx? Option.isNone with
  | none => rfl
  | some slot => rfl

theorem freeSlot_vacant : ¬Occupied kcbs (freeSlot kcbs) := by
  intro occupied
  obtain ⟨kcb, stored⟩ := occupied
  unfold freeSlot at stored
  cases empty : kcbs.findIdx? Option.isNone with
  | none =>
      rw [empty, Option.getD_none, List.getElem?_eq_none (Nat.le_refl _)] at stored
      cases stored
  | some slot =>
      obtain ⟨inside, isNone, _⟩ := List.findIdx?_eq_some_iff_getElem.mp empty
      rw [empty, Option.getD_some, List.getElem?_eq_getElem inside, Option.some.injEq] at stored
      rw [stored] at isNone
      cases isNone

theorem occupied_below (below : kid < freeSlot kcbs) : Occupied kcbs kid := by
  have filled : ∀ inside : kid < kcbs.length, ¬(kcbs[kid]).isNone → Occupied kcbs kid := by
    intro inside isSome
    cases stored : kcbs[kid] with
    | none =>
        rw [stored] at isSome
        exact absurd rfl isSome
    | some kcb => exact ⟨kcb, by rw [List.getElem?_eq_getElem inside, stored]⟩
  unfold freeSlot at below
  cases empty : kcbs.findIdx? Option.isNone with
  | none =>
      rw [empty, Option.getD_none] at below
      apply filled below
      rw [List.findIdx?_eq_none_iff.mp empty _ (List.getElem_mem below)]
      exact Bool.false_ne_true
  | some slot =>
      rw [empty, Option.getD_some] at below
      obtain ⟨inside, _, before⟩ := List.findIdx?_eq_some_iff_getElem.mp empty
      exact filled (Nat.lt_trans below inside) (before kid below)

theorem allocate_ne (different : kid ≠ freeSlot kcbs) :
    kcbs.allocate.2[kid]? = kcbs[kid]? := by
  unfold Kcbs.allocate
  unfold freeSlot at different
  cases empty : kcbs.findIdx? Option.isNone with
  | some slot => rfl
  | none =>
      rw [empty, Option.getD_none] at different
      change (kcbs ++ [some KernelControlBlock.empty])[kid]? = _
      rw [List.getElem?_append]
      split
      · rfl
      · next outside =>
          rw [List.getElem?_eq_none (by simp only [List.length_singleton]; omega),
            List.getElem?_eq_none (by omega)]

theorem allocate_empty (empty : none ∈ kcbs) : kcbs.allocate.2 = kcbs := by
  unfold Kcbs.allocate
  cases found : kcbs.findIdx? Option.isNone with
  | some slot => rfl
  | none => cases List.findIdx?_eq_none_iff.mp found none empty

theorem allocate_full (full : none ∉ kcbs) : Occupied kcbs.allocate.2 (freeSlot kcbs) := by
  have noneEmpty : kcbs.findIdx? Option.isNone = none := by
    rw [List.findIdx?_eq_none_iff]
    intro slot member
    cases slot with
    | none => exact absurd member full
    | some kcb => rfl
  unfold Kcbs.allocate freeSlot
  rw [noneEmpty]
  exact ⟨KernelControlBlock.empty, by
    rw [Option.getD_none, List.getElem?_append_right (Nat.le_refl _), Nat.sub_self]
    rfl⟩

/-- A slot that is given back is empty, as it was before or as if it did not exist. -/
theorem slot_given_back (narrow : freeSlot kcbs < 2 ^ 32) :
    (kcbs.allocate.2.set kcbs.allocate.1 none)[kid]? = some (some kcb) ↔
      kcbs[kid]? = some (some kcb) := by
  rw [allocate_slot, wrap32_of_lt narrow]
  by_cases here : kid = freeSlot kcbs
  · rw [here]
    constructor
    · intro stored
      rw [List.getElem?_set, if_pos rfl] at stored
      split at stored
      · cases stored
      · cases stored
    · intro stored
      exact absurd ⟨kcb, stored⟩ freeSlot_vacant
  · rw [List.getElem?_set_ne (Ne.symm here), allocate_ne here]

/-- An index that is no id is cut to the id of another slot, and that one is emptied. -/
theorem slot_lost (wide : 2 ^ 32 ≤ freeSlot kcbs) : Occupied kcbs kcbs.allocate.1 ∧
    ¬Occupied (kcbs.allocate.2.set kcbs.allocate.1 none) kcbs.allocate.1 := by
  constructor
  · apply occupied_below
    rw [allocate_slot]
    exact Nat.lt_of_lt_of_le (wrap32_lt _) wide
  · intro occupied
    obtain ⟨kcb, stored⟩ := occupied
    rw [List.getElem?_set_self (Kcbs.allocate_inside kcbs)] at stored
    cases stored

theorem slots_given_back_iff :
    (∀ kid, Occupied (kcbs.allocate.2.set kcbs.allocate.1 none) kid ↔ Occupied kcbs kid) ↔
      freeSlot kcbs < 2 ^ 32 := by
  constructor
  · intro same
    by_contra wide
    obtain ⟨before, after⟩ := slot_lost (Nat.le_of_not_lt wide)
    exact after ((same _).mpr before)
  · intro narrow kid
    exact exists_congr fun _ => slot_given_back narrow

theorem slots_taken_iff :
    (∀ kid, Occupied kcbs.allocate.2 kid ↔ Occupied kcbs kid) ↔ none ∈ kcbs := by
  constructor
  · intro same
    by_contra full
    exact freeSlot_vacant ((same _).mp (allocate_full full))
  · intro empty kid
    rw [allocate_empty empty]

end Slots

structure Asked (platform : Platform) (state : Spinner FlatDevice) (result : Option Nat)
    (aspace : AddressSpaceManager) : Prop where
  ran : allocatePageTable state.aspace_ = .ok result aspace
  pooled : AddressSpaceManager.Pooled platform aspace
  holes : aspace.hole_list_ = state.aspace_.hole_list_
  scratchpad : aspace.scratchpad_ = cleared result state.aspace_.scratchpad_
  outcome : PageOutcome platform (fun frame => state.aspace_.hole_list_.addrInHole frame)
    state.aspace_.frames result aspace.frames

def FailedStep (platform : Platform) (state : Spinner FlatDevice) (call : Files × String)
    (next : Spinner FlatDevice) : Prop :=
  ∃ fault, Spinner.allocateKernel call.1 call.2 state = .error fault next ∧ Thrown fault ∧
    NothingKept platform call.1 call.2 state

structure Kept (state next : Spinner FlatDevice) : Prop where
  asBefore : AsBefore state next
  stored : ∀ (kid : Nat) (kcb : KernelControlBlock),
    next.kcbs_[kid]? = some (some kcb) ↔ state.kcbs_[kid]? = some (some kcb)
  holes : next.aspace_.hole_list_ = state.aspace_.hole_list_

section Failures

variable {platform : Platform} {state next : Spinner FlatDevice} {files : Files}
  {vxbin_path : String} {result : Option Nat} {aspace : AddressSpaceManager} {kcbs : Kcbs}

theorem Pooled.asked (pooled : Pooled platform state) :
    ∃ result aspace, Asked platform state result aspace := by
  obtain ⟨result, aspace, ran, later, holes, scratchpad, outcome⟩ :=
    AddressSpaceManager.Pooled.allocatePageTable pooled
  exact ⟨result, aspace, ran, later, holes, scratchpad, outcome⟩

/-- Every block is a page, so used blocks are compared by their frames. -/
theorem Asked.blocks_iff (asked : Asked platform state result aspace)
    (pooled : Pooled platform state) :
    (∀ block, state.aspace_.hole_list_.addrInHole block.1 = false →
      (block ∈ aspace.page_allocator_.usedBlocks ↔
        block ∈ state.aspace_.page_allocator_.usedBlocks)) ↔
      NothingToTake platform (fun frame => state.aspace_.hole_list_.addrInHole frame)
        state.aspace_.frames := by
  have once : TakenOnce platform (fun frame => state.aspace_.hole_list_.addrInHole frame)
      state.aspace_.frames aspace.frames :=
    ⟨result, _, asked.outcome, Finset.Subset.refl _, fun _ member away => absurd member away⟩
  rw [← once.inside_iff]
  constructor
  · intro same frame outside
    have page := same (frame, 4096) outside
    rw [FramePool.mem_usedBlocks asked.pooled, FramePool.mem_usedBlocks pooled,
      and_iff_left rfl, and_iff_left rfl] at page
    exact page
  · intro same block outside
    rw [FramePool.mem_usedBlocks asked.pooled, FramePool.mem_usedBlocks pooled]
    exact and_congr_left fun _ => same block.1 outside

theorem Asked.translated_iff (asked : Asked platform state result aspace) :
    (∀ kid kcb heap, HasHeap state.kcbs_ kid kcb heap → ∀ va < 2 ^ 32,
      aspace.translated kcb.top_pgtbl_pa va = state.aspace_.translated kcb.top_pgtbl_pa va) ↔
      ∀ root, result = some root → Unread state root := by
  have scratchpad := asked.scratchpad
  cases result with
  | none =>
      constructor
      · intro _ root impossible
        cases impossible
      · intro _ kid kcb heap _ va _
        apply translated_bytes
        intro addr
        rw [scratchpad, cleared]
  | some root =>
      have same : ∀ top va, aspace.translated top va = AddressSpaceManager.translated
          { state.aspace_ with scratchpad_ := state.aspace_.scratchpad_.write root zeroNode }
          top va := by
        intro top va
        apply translated_bytes
        intro addr
        rw [scratchpad, cleared]
      constructor
      · intro translations other here
        cases here
        intro kid kcb heap found va bound
        rw [← same]
        exact translations kid kcb heap found va bound
      · intro unread kid kcb heap found va bound
        rw [same]
        exact unread root rfl kid kcb heap found va bound

theorem Asked.asBefore_iff (asked : Asked platform state result aspace)
    (pooled : Pooled platform state) :
    AsBefore state { state with kcbs_ := kcbs, aspace_ := aspace } ↔
      (∀ kid, Occupied kcbs kid ↔ Occupied state.kcbs_ kid) ∧
        NothingToTake platform (fun frame => state.aspace_.hole_list_.addrInHole frame)
          state.aspace_.frames ∧
        ∀ root, result = some root → Unread state root := by
  rw [← asked.blocks_iff pooled, ← asked.translated_iff]
  constructor
  · intro same
    exact ⟨same.slots, same.blocks, same.translations⟩
  · intro same
    exact ⟨same.1, same.2.1, same.2.2⟩

theorem thrown_runtimeError (message : String) : Thrown (.runtimeError message) := by
  constructor
  · intro same
    cases same
  · intro same
    cases same

theorem nothingKept_none {last : Finset Nat}
    (missing : PageOutcome platform (fun frame => state.aspace_.hole_list_.addrInHole frame)
      state.aspace_.frames none last) :
    NothingKept platform files vxbin_path state ↔ freeSlot state.kcbs_ < 2 ^ 32 := by
  constructor
  · intro nothing
    cases nothing with
    | opened found _ => cases (found.unique missing).1
    | noRoot _ narrow => exact narrow
    | inHoles found _ _ _ => cases (found.unique missing).1
  · intro narrow
    exact NothingKept.noRoot missing narrow

theorem nothingKept_some {root : Nat} {last : Finset Nat}
    (found : PageOutcome platform (fun frame => state.aspace_.hole_list_.addrInHole frame)
      state.aspace_.frames (some root) last) (missing : files vxbin_path = none) :
    NothingKept platform files vxbin_path state ↔
      NothingToTake platform (fun frame => state.aspace_.hole_list_.addrInHole frame)
          state.aspace_.frames ∧
        none ∈ state.kcbs_ ∧ Unread state root := by
  constructor
  · intro nothing
    cases nothing with
    | opened _ onDisk => exact absurd missing onDisk
    | noRoot refused _ => cases (refused.unique found).1
    | inHoles other inside empty unread =>
        have same := (other.unique found).1
        cases same
        exact ⟨inside, empty, unread⟩
  · intro nothing
    exact NothingKept.inHoles found nothing.1 nothing.2.1 nothing.2.2

theorem Asked.opened {root : Nat} (asked : Asked platform state (some root) aspace)
    (onDisk : files vxbin_path ≠ none) {fault : Fault}
    (failed : Spinner.allocateKernel files vxbin_path state = .error fault next) : ¬Thrown fault := by
  obtain ⟨content, opened⟩ := Option.ne_none_iff_exists'.mp onDisk
  intro thrown
  by_cases whole : 16 ≤ content.length
  · rw [allocateKernel_run asked.ran opened whole] at failed
    cases failed
  · rw [allocateKernel_short asked.ran opened (Nat.lt_of_not_le whole)] at failed
    cases failed
    exact thrown.1 rfl

theorem Pooled.allOrNothing_iff (pooled : Pooled platform state) :
    AllOrNothing files vxbin_path state ↔ NothingKept platform files vxbin_path state := by
  obtain ⟨result, aspace, asked⟩ := pooled.asked
  have outcome := asked.outcome
  cases result with
  | none =>
      have ran := @allocateKernel_noRoot _ state files vxbin_path aspace asked.ran
      have inside : NothingToTake platform
          (fun frame => state.aspace_.hole_list_.addrInHole frame) state.aspace_.frames :=
        outcome.inside_iff.mp fun _ member unused => outcome.none_inside member unused
      rw [nothingKept_none outcome, ← slots_given_back_iff]
      constructor
      · intro whole
        exact ((asked.asBefore_iff pooled).mp (whole _ _ ran (thrown_runtimeError _))).1
      · intro slots fault next failed _
        rw [ran] at failed
        cases failed
        exact (asked.asBefore_iff pooled).mpr
          ⟨slots, inside, fun _ impossible => by cases impossible⟩
  | some root =>
      by_cases onDisk : files vxbin_path = none
      · have ran := allocateKernel_noFile asked.ran onDisk
        rw [nothingKept_some outcome onDisk, ← slots_taken_iff]
        constructor
        · intro whole
          obtain ⟨slots, inside, unread⟩ :=
            (asked.asBefore_iff pooled).mp (whole _ _ ran (thrown_runtimeError _))
          exact ⟨inside, slots, unread root rfl⟩
        · intro nothing fault next failed _
          obtain ⟨inside, slots, unread⟩ := nothing
          rw [ran] at failed
          cases failed
          apply (asked.asBefore_iff pooled).mpr
          refine ⟨slots, inside, ?_⟩
          intro other same
          cases same
          exact unread
      · constructor
        · intro _
          exact NothingKept.opened outcome onDisk
        · intro _ fault next failed thrown
          exact absurd thrown (asked.opened onDisk failed)

theorem Kept.refl (state : Spinner FlatDevice) : Kept state state where
  asBefore := ⟨fun _ => Iff.rfl, fun _ _ => Iff.rfl, fun _ _ _ _ _ _ => rfl⟩
  stored _ _ := Iff.rfl
  holes := rfl

theorem Kept.trans {middle : Spinner FlatDevice} (left : Kept state middle)
    (right : Kept middle next) : Kept state next where
  asBefore := by
    constructor
    · intro kid
      exact (right.asBefore.slots kid).trans (left.asBefore.slots kid)
    · intro block outside
      rw [← left.holes] at outside
      have later := right.asBefore.blocks block outside
      rw [left.holes] at outside
      exact later.trans (left.asBefore.blocks block outside)
    · intro kid kcb heap found va bound
      have still : HasHeap middle.kcbs_ kid kcb heap :=
        ⟨(left.stored kid kcb).mpr found.stored, found.has⟩
      rw [right.asBefore.translations kid kcb heap still va bound]
      exact left.asBefore.translations kid kcb heap found va bound
  stored kid kcb := (right.stored kid kcb).trans (left.stored kid kcb)
  holes := right.holes.trans left.holes

/-- One failure that meets the condition; the blocks themselves are the same. -/
theorem FailedStep.kept {call : Files × String} (step : FailedStep platform state call next)
    (pooled : Pooled platform state) : Kept state next ∧ Pooled platform next := by
  obtain ⟨fault, failed, thrown, nothing⟩ := step
  have asBefore := pooled.allOrNothing_iff.mpr nothing fault next failed thrown
  obtain ⟨result, aspace, asked⟩ := pooled.asked
  cases result with
  | none =>
      rw [allocateKernel_noRoot asked.ran] at failed
      cases failed
      have narrow := (nothingKept_none asked.outcome).mp nothing
      exact ⟨⟨asBefore, fun _ _ => slot_given_back narrow, asked.holes⟩, asked.pooled⟩
  | some root =>
      by_cases onDisk : call.1 call.2 = none
      · rw [allocateKernel_noFile asked.ran onDisk] at failed
        cases failed
        have empty := ((nothingKept_some asked.outcome onDisk).mp nothing).2.1
        refine ⟨⟨asBefore, ?_, asked.holes⟩, asked.pooled⟩
        intro kid kcb
        rw [allocate_empty empty]
      · exact absurd thrown (asked.opened onDisk failed)

theorem failures_kept {calls : List (Files × String)} (pooled : Pooled platform state)
    (run : Trace (FailedStep platform) state calls next) : Kept state next := by
  have start : Kept state state ∧ Pooled platform state := ⟨Kept.refl state, pooled⟩
  apply And.left
  apply run.invariant (fun now => Kept state now ∧ Pooled platform now) ?_ start
  intro middle call last kept step
  obtain ⟨one, later⟩ := step.kept kept.2
  exact ⟨kept.1.trans one, later⟩

end Failures

/-- In every state that any calls lead to, an allocation that throws leaves everything as it
was exactly under the condition, and so does any number of failures that meet it. -/
theorem allocations_whole_iff {platform : Platform} (valid : platform.Valid)
    {caps : Caps → Option Nat} {device : FlatDevice} {calls : List (Files × SpinnerCall)}
    {state : Spinner FlatDevice}
    (run : Trace (AnyStep platform caps) (Spinner.new platform (flatAccelerator caps) device) calls
      state) :
    (∀ files vxbin_path, AllOrNothing files vxbin_path state ↔
      NothingKept platform files vxbin_path state) ∧
    ∀ failures last, Trace (FailedStep platform) state failures last → AsBefore state last := by
  have pooled := run_pooled valid run
  constructor
  · intro files vxbin_path
    exact pooled.allOrNothing_iff
  · intro failures last failed
    exact (failures_kept pooled failed).asBefore

def onePagePlatform : Platform := { smallPlatform with GLOBAL_MEM_SIZE := 0x2000 }

/-- A kernel for which no frame is left. -/
theorem allocations_whole_iff_full : ∃ state next,
    Trace (AnyStep onePagePlatform fun _ => none)
        (Spinner.new onePagePlatform (flatAccelerator fun _ => none) ⟨fun _ => 0, []⟩)
        [(fun _ => some emptyImage, .allocateKernel "kernel")] state ∧
      Spinner.allocateKernel (fun _ => some emptyImage) "kernel" state =
        .error (.runtimeError "Failed to allocate page table for kernel") next ∧
      AsBefore state next := by
  have valid : onePagePlatform.Valid :=
    ⟨by decide, by decide, rfl, ⟨6, by decide, rfl⟩, by decide, by decide⟩
  have first : ∃ created, allocatePageTable (AddressSpaceManager.new onePagePlatform 0) =
      .ok (some 0x1000) created ∧ created.frames = {0x1000} := ⟨_, rfl, rfl⟩
  obtain ⟨created, ran, frames⟩ := first
  have obtained := @allocateKernel_first FlatDevice onePagePlatform (flatAccelerator fun _ => none)
    ⟨fun _ => 0, []⟩ (fun _ => some emptyImage) "kernel" emptyImage 0x1000 created rfl (by decide) ran
  have step : AnyStep onePagePlatform (fun _ => none)
      (Spinner.new onePagePlatform (flatAccelerator fun _ => none) ⟨fun _ => 0, []⟩)
      (fun _ => some emptyImage, .allocateKernel "kernel") _ :=
    Or.inl ⟨(), bind_ok obtained⟩
  have run := Trace.cons step (Trace.nil _)
  have full : Full onePagePlatform created.frames := by
    intro frame isFrame
    obtain ⟨aligned, low, high⟩ := isFrame
    change 0x1000 ≤ frame at low
    change frame + 4096 ≤ 0x2000 at high
    rw [frames, Finset.mem_singleton]
    omega
  obtain ⟨result, aspace, asked⟩ := (run_pooled valid run).asked
  obtain ⟨noFrame, _⟩ := asked.outcome.unique (PageOutcome.full full)
  rw [noFrame] at asked
  have refused := @allocateKernel_noRoot _ _ (fun _ => some emptyImage) "kernel" _ asked.ran
  refine ⟨_, _, run, refused, ?_⟩
  apply ((allocations_whole_iff valid run).1 _ _).mpr ?_ _ _ refused (thrown_runtimeError _)
  exact NothingKept.noRoot (PageOutcome.full full) (by change 1 < 2 ^ 32; decide)

/-- The first allocation names a file that does not exist, and its slot and its frame
stay taken. -/
theorem missing_file_keeps_slot : ∃ next : Spinner FlatDevice,
    Spinner.allocateKernel (fun _ => none) "kernel"
        (Spinner.new smallPlatform (flatAccelerator fun _ => none) ⟨fun _ => 0, []⟩) =
      .error (.runtimeError "Error: kernel not found") next ∧
    Occupied next.kcbs_ 0 ∧ next.aspace_.frames = {0x1000} ∧
    ¬AllOrNothing (fun _ => none) "kernel"
      (Spinner.new smallPlatform (flatAccelerator fun _ => none) ⟨fun _ => 0, []⟩) := by
  obtain ⟨created, ran, _, frames⟩ := smallPlatform_created
  have failed := @allocateKernel_noFile FlatDevice
    (Spinner.new smallPlatform (flatAccelerator fun _ => none) ⟨fun _ => 0, []⟩) (fun _ => none)
    "kernel" 0x1000 created ran rfl
  refine ⟨_, failed, ⟨KernelControlBlock.empty, rfl⟩, frames, ?_⟩
  intro whole
  have same := whole _ _ failed (thrown_runtimeError _)
  obtain ⟨kcb, stored⟩ := (same.slots 0).mp ⟨KernelControlBlock.empty, rfl⟩
  cases stored

end Espiral.Spinner
