import Espiral.Mm.HeapRuns
import Espiral.Mm.Translation

/-!
# The pool of frames under any call

Whatever tables and addresses a call is given, the page allocator is asked for
whole pages and given back single addresses only. So it stays a pool of frames
also where nothing is known about the tables.
-/

namespace Espiral.AddressSpaceManager

set_option autoImplicit false

open Contracts MachineWords VortexMemoryAllocator

def Pooled (platform : Platform) (state : AddressSpaceManager) : Prop :=
  FramePool platform state.page_allocator_

theorem new_pooled {platform : Platform} (valid : platform.Valid) (localMemSize : Nat) :
    Pooled platform (new platform localMemSize) := ofPlatform_pool valid

/-- Neither the bytes of the tables nor a request for a page makes a difference. -/
structure Shielded (Invariant : AddressSpaceManager → Prop) : Prop where
  page : Keeps Invariant allocateOnePage
  scratchpad : ∀ state scratchpad, Invariant state →
    Invariant { state with scratchpad_ := scratchpad }

section Shields

variable {Invariant : AddressSpaceManager → Prop}

/-- What does not depend on the allocator is kept by a request for a page. -/
theorem allocateOnePage_keeps
    (ignores : ∀ state allocator, Invariant state →
      Invariant { state with page_allocator_ := allocator }) :
    Keeps Invariant allocateOnePage := by
  have asked : Keeps Invariant (onAllocator (VortexMemoryAllocator.allocate PAGE_SIZE)) := by
    intro state kept
    rw [ensures_iff]
    unfold onAllocator
    cases state.page_allocator_.allocate PAGE_SIZE with
    | ok value next => exact Or.inl ⟨value, _, rfl, ignores state next kept⟩
    | error fault next => exact Or.inr ⟨fault, _, rfl, ignores state next kept⟩
  have tested : ∀ addr, Keeps Invariant (addrInHole addr) :=
    fun _ _ kept => ensures_of_run rfl kept
  apply asked.bind
  intro result
  cases result with
  | none => exact keeps_pure _
  | some pa =>
      apply (tested pa).bind
      intro inside
      exact keeps_ite (fun _ => asked) (fun _ => keeps_pure _)

section Tables

variable (shielded : Shielded Invariant)

include shielded

theorem readScratchpad_shielded (addr size : Nat) : Keeps Invariant (readScratchpad addr size) :=
  fun state kept => ensures_of_run rfl (shielded.scratchpad state _ kept)

theorem writeScratchpad_shielded (addr : Nat) (data : List UInt8) :
    Keeps Invariant (writeScratchpad addr data) :=
  fun state kept => ensures_of_run rfl (shielded.scratchpad state _ kept)

theorem readPte_shielded (addr : Nat) : Keeps Invariant (readPte addr) :=
  (readScratchpad_shielded shielded addr PTE_SIZE).bind fun _ => keeps_pure _

theorem translate_shielded (va root : Nat) : Keeps Invariant (translate va root) := by
  intro state kept
  obtain ⟨next, ran, read⟩ := translate_returns state root va
  apply ensures_of_run ran
  have same : next = { state with scratchpad_ := next.scratchpad_ } := by
    rw [← read.allocator, ← read.holes, ← read.history]
  rw [same]
  exact shielded.scratchpad state _ kept

theorem allocatePageTableNode_shielded : Keeps Invariant allocatePageTableNode :=
  shielded.page.bind fun _ => keeps_pure _

theorem descend_shielded (va level current_pa : Nat) :
    Keeps Invariant (descend va level current_pa) := by
  induction level generalizing current_pa with
  | zero => exact keeps_pure _
  | succ level ih =>
      apply (readPte_shielded shielded _).bind
      intro pte
      apply keeps_ite
      · intro _
        apply (allocatePageTableNode_shielded shielded).bind
        intro result
        cases result with
        | none => exact keeps_throw _
        | some new_pa =>
            apply (writeScratchpad_shielded shielded new_pa zeroNode).bind
            intro _
            exact (writeScratchpad_shielded shielded _ _).bind fun _ => ih _
      · intro _
        exact ih _

theorem mapAddrInner_shielded {va pa root flags : Nat}
    (records : Keeps Invariant (record (.mapped root va pa flags))) :
    Keeps Invariant (mapAddrInner va pa root flags) := by
  apply (descend_shielded shielded va (PT_LEVELS - 1) root).bind
  intro current_pa
  apply (readPte_shielded shielded _).bind
  intro existing
  apply keeps_ite
  · intro _
    apply (readPte_shielded shielded _).bind
    intro _
    exact (translate_shielded shielded va root).bind fun _ => keeps_throw _
  · intro _
    exact (writeScratchpad_shielded shielded _ _).bind fun _ => records

theorem allocateOneVmPage_shielded {va root flags : Nat}
    (records : ∀ pa, Keeps Invariant (record (.mapped root va pa flags))) :
    Keeps Invariant (allocateOneVmPage va root flags) := by
  apply shielded.page.bind
  intro found
  apply keeps_ite
  · intro _
    exact keeps_throw _
  · intro _
    exact mapAddrInner_shielded shielded (records _)

end Tables

end Shields

section Calls

variable {platform : Platform}

theorem record_pooled (event : MappingEvent) : Keeps (Pooled platform) (record event) :=
  fun _ pooled => ensures_of_run rfl pooled

theorem pooled_shielded : Shielded (Pooled platform) where
  page := by
    intro state pooled
    obtain ⟨_, _, ran, pool, _⟩ := allocateOnePage_run pooled
    exact ensures_of_run ran pool
  scratchpad _ _ pooled := pooled

theorem releaseOnePage_pooled (addr : Nat) : Keeps (Pooled platform) (releaseOnePage addr) := by
  intro state pooled
  obtain ⟨_, ran, pool, _⟩ := releaseOnePage_run pooled addr
  exact ensures_of_run ran pool

theorem allocatePageTable_pooled : Keeps (Pooled platform) allocatePageTable := by
  apply (allocatePageTableNode_shielded pooled_shielded).bind
  intro result
  cases result with
  | none => exact keeps_pure _
  | some pgtbl_pa =>
      apply (writeScratchpad_shielded pooled_shielded pgtbl_pa zeroNode).bind
      intro _
      exact (record_pooled _).bind fun _ => keeps_pure _

theorem mapAddrInner_pooled (va pa root flags : Nat) :
    Keeps (Pooled platform) (mapAddrInner va pa root flags) :=
  mapAddrInner_shielded pooled_shielded (record_pooled _)

theorem allocateOneVmPage_pooled (va root flags : Nat) :
    Keeps (Pooled platform) (allocateOneVmPage va root flags) :=
  allocateOneVmPage_shielded pooled_shielded fun _ => record_pooled _

theorem forPages_pooled {size : Nat} {body : Nat → Action AddressSpaceManager Unit}
    (keeps : ∀ offset, Keeps (Pooled platform) (body offset)) (fuel : Nat) :
    Keeps (Pooled platform) (forPages size body fuel 0) := by
  intro state pooled
  exact forPages_keeps (fun offset current _ _ kept => keeps offset current kept)
    (Nat.dvd_zero 4096) pooled

theorem freePageTableInner_pooled (level pa : Nat) :
    Keeps (Pooled platform) (freePageTableInner level pa) := by
  induction level generalizing pa with
  | zero => exact keeps_pure _
  | succ level ih =>
      intro state pooled
      have read : ∀ size, readScratchpad pa size state =
          .ok (state.scratchpad_.read pa size).1
            { state with scratchpad_ := (state.scratchpad_.read pa size).2 } := fun _ => rfl
      apply freePageTableInner_keeps (read PAGE_SIZE)
      · exact pooled_shielded.scratchpad state _ pooled
      · intro index _ _ current kept
        apply keeps_ite ?_ ?_ current kept
        · intro _
          exact ih _
        · intro _
          exact releaseOnePage_pooled _
      · intro current kept
        exact releaseOnePage_pooled pa current kept

theorem freePageTable_pooled (root : Nat) : Keeps (Pooled platform) (freePageTable root) :=
  (freePageTableInner_pooled PT_LEVELS root).bind fun _ => record_pooled _

theorem foldlM_pooled {Result : Type} {body : Result → Nat → Action AddressSpaceManager Result}
    (keeps : ∀ result index, Keeps (Pooled platform) (body result index)) (indices : List Nat)
    (result : Result) : Keeps (Pooled platform) (indices.foldlM body result) := by
  induction indices generalizing result with
  | nil => exact keeps_pure _
  | cons index rest ih => exact (keeps result index).bind fun next => ih next

theorem dumpPageTableInner_pooled (depth node : Nat) (dump : SparseScratchpad) :
    Keeps (Pooled platform) (dumpPageTableInner depth node dump) := by
  induction depth generalizing node dump with
  | zero => exact keeps_throw _
  | succ depth ih =>
      apply (readScratchpad_shielded pooled_shielded node PAGE_SIZE).bind
      intro current_node
      apply foldlM_pooled
      intro found index
      apply keeps_ite
      · intro _
        exact ih _ found
      · intro _
        exact keeps_pure _

theorem dumpAddressMappingInner_pooled (level node va_prefix : Nat) (mapping : List (Nat × Nat)) :
    Keeps (Pooled platform) (dumpAddressMappingInner level node va_prefix mapping) := by
  induction level generalizing node va_prefix mapping with
  | zero =>
      apply (readScratchpad_shielded pooled_shielded node PAGE_SIZE).bind
      intro current_node
      apply keeps_ite
      · intro _
        exact keeps_throw _
      · intro _
        exact keeps_pure _
  | succ level ih =>
      apply (readScratchpad_shielded pooled_shielded node PAGE_SIZE).bind
      intro current_node
      apply foldlM_pooled
      intro found index
      apply keeps_ite
      · intro _
        apply keeps_ite
        · intro _
          exact keeps_pure _
        · intro _
          exact ih _ _ found
      · intro _
        exact keeps_pure _

end Calls

section Tables

def cleared (result : Option Nat) (scratchpad : ScratchpadMemory) : ScratchpadMemory :=
  match result with
  | none => scratchpad
  | some root => scratchpad.write root zeroNode

theorem Pooled.allocatePageTable {platform : Platform} {state : AddressSpaceManager}
    (pooled : Pooled platform state) :
    ∃ result next, AddressSpaceManager.allocatePageTable state = .ok result next ∧
      Pooled platform next ∧ next.hole_list_ = state.hole_list_ ∧
      next.scratchpad_ = cleared result state.scratchpad_ ∧
      PageOutcome platform (fun frame => state.hole_list_.addrInHole frame) state.frames result
        next.frames := by
  obtain ⟨result, grown, ran, pool, tables, outcome⟩ := allocatePageTableNode_run pooled
  have keeps : Keeps (fun now => now.scratchpad_ = state.scratchpad_) allocatePageTableNode :=
    (allocateOnePage_keeps fun _ _ same => same).bind fun _ => keeps_pure _
  have scratchpad := (keeps state rfl).of_ok ran
  rw [AddressSpaceManager.allocatePageTable, bind_ok ran]
  cases result with
  | none => exact ⟨none, grown, rfl, pool, tables.holes, scratchpad, outcome⟩
  | some root =>
      have wrote : ∀ data, writeScratchpad root data grown =
          .ok () { grown with scratchpad_ := grown.scratchpad_.write root data } := fun _ => rfl
      simp only
      rw [bind_ok (wrote zeroNode), bind_ok (record_run _), scratchpad]
      refine ⟨some root, _, rfl, pool, tables.holes, by rw [cleared], ?_⟩
      rw [AddressSpaceManager.frames, AddressSpaceManager.frames] at outcome ⊢
      exact outcome

end Tables

end Espiral.AddressSpaceManager
