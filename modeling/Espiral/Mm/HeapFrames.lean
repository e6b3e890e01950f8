import Espiral.Mm.HeapRuns
import Espiral.Mm.RetriedFrames
import Espiral.Mm.TableWork

/-!
# Frames of a heap

A heap grows by pages that it asks for one at a time, so each of them is in a
frame that has been handed out for it. Where second attempts meet no hole, none
of these frames is one that may be mapped to itself.
-/

namespace Espiral

set_option autoImplicit false

open Contracts MachineWords

namespace AddressSpaceManager

variable {platform : Platform} {identity : Nat → Prop} {holes : HoleList} {root page va flags : Nat}
  {owner : Nat → Option Role} {start : AddressSpaceManager} {newer earlier : List MappingEvent}

/-- Pages that are asked for one by one are mapped to frames that have been handed out. -/
theorem allocateOneVmPage_installed (vaBound : va < 2 ^ 32) (readable : flags &&& PteFlags.R ≠ 0) :
    Keeps (fun now => Progress platform identity holes root owner start now ∧
        Installed platform holes start.frames start.history now)
      (allocateOneVmPage va root flags) := by
  rintro state ⟨progress, newer, history, handed⟩
  obtain ⟨middle, owned, taken⟩ := progress.owned
  have spec := allocateOneVmPage_spec owned progress.isLive vaBound readable
  rw [progress.holes] at spec
  apply spec.weaken
  · rintro _ next ⟨later, pa, advanced, grown, unmapped, isFrame, ⟨between, fresh, withNode⟩, takes⟩
    refine ⟨progress.mapped taken advanced grown unmapped (isFrame.narrow owned.pool.valid) takes,
      _ :: newer, by rw [grown, history]; rfl, ?_⟩
    intro table mappedVa mappedPa mappedFlags member
    rcases List.mem_cons.mp member with same | before
    · cases same
      exact (fresh.handedOut withNode.requests).before taken.requests
    · exact (handed _ _ _ _ before).after takes.requests
  · rintro _ next ⟨later, advanced, same, takes, _⟩
    exact ⟨progress.failed taken advanced same takes, newer, by rw [same, history],
      fun _ _ _ _ member => (handed _ _ _ _ member).after takes.requests⟩

theorem OnlyMaps.mapping (only : OnlyMaps root flags newer) (member : page ∈ pagesOf root newer) :
    ∃ va pa, .mapped root va pa flags ∈ newer ∧
      AddressSpaceManager.mapping (newer ++ earlier) root page =
        some (makePte pa (leafFlags flags)) := by
  induction newer with
  | nil => cases member
  | cons event rest ih =>
      obtain ⟨va, pa, same⟩ := only event List.mem_cons_self
      by_cases here : va / 4096 = page
      · refine ⟨va, pa, by rw [same]; exact List.mem_cons_self, ?_⟩
        rw [same, List.cons_append, AddressSpaceManager.mapping, if_pos ⟨rfl, here⟩]
      · rw [same, pagesOf_cons, List.mem_append] at member
        have notHere : page ∉ pagesOf root [.mapped root va pa flags] := by
          simpa [pagesOf, eq_comm] using here
        obtain ⟨otherVa, otherPa, inRest, mapped⟩ := ih
          (fun other isIn => only other (List.mem_cons_of_mem event isIn))
          (member.resolve_left notHere)
        refine ⟨otherVa, otherPa, List.mem_cons_of_mem event inRest, ?_⟩
        rw [same, List.cons_append, AddressSpaceManager.mapping, if_neg fun both => here both.2,
          mapped]

end AddressSpaceManager

namespace HeapManager

open AddressSpaceManager

/-- The books of a heap agree with its pages, and these are in frames that may not be mapped to
themselves. -/
structure Housed (platform : Platform) (holes : HoleList) (heap : HeapManager)
    (history : List MappingEvent) : Prop where
  sound : heap.vm_allocator_.Sound
  pages : ∀ position < heap.pageCount, ∃ pa,
    mapping history heap.top_pgtbl_pa_ (heapPage heap position) =
        some (makePte pa (leafFlags heapFlags)) ∧
      pa < 2 ^ 32 ∧ ¬MayMapItself platform holes (frameOf pa)

section Housing

variable {platform : Platform} {holes : HoleList} {heap : HeapManager}
  {history later : List MappingEvent}

theorem heapPage_lt (heap : HeapManager) (position : Nat) : heapPage heap position < 2 ^ 20 :=
  Nat.mod_lt _ (by decide)

theorem Housed.mapped (housed : Housed platform holes heap history) : Mapped heap history := by
  intro position inside
  obtain ⟨pa, mapped, _⟩ := housed.pages position inside
  exact ⟨pa, mapped⟩

theorem Housed.kept (housed : Housed platform holes heap history)
    (stays : ∀ page < 2 ^ 20, ∀ pte, mapping history heap.top_pgtbl_pa_ page = some pte →
      mapping later heap.top_pgtbl_pa_ page = some pte) : Housed platform holes heap later where
  sound := housed.sound
  pages position inside := by
    obtain ⟨pa, mapped, apart⟩ := housed.pages position inside
    exact ⟨pa, stays _ (heapPage_lt heap position) _ mapped, apart⟩

theorem new_housed (platform : Platform) (holes : HoleList) (top_pgtbl_pa : Nat) {base_va : Nat}
    (narrow : base_va < 2 ^ 32) (aligned : 4096 ∣ base_va) (history : List MappingEvent) :
    Housed platform holes (new top_pgtbl_pa base_va) history where
  sound := ⟨rfl, aligned, Nat.dvd_zero 4096, Nat.le_refl base_va, Nat.le_refl base_va, narrow,
    Nat.zero_le _⟩
  pages position inside := by
    have none : (new top_pgtbl_pa base_va).pageCount = 0 := Nat.zero_div 4096
    omega

end Housing

section Growing

variable {platform : Platform} {identity : Nat → Prop} {holes : HoleList}
  {owner : Nat → Option Role} {context : HeapContext} {size : Nat}

theorem allocate_installed (reached : Reached platform identity holes context.aspace_)
    (owned : WellOwned platform identity owner context.aspace_)
    (isLive : context.aspace_.Live context.heap.top_pgtbl_pa_) :
    Ensures (allocate size) context
      (fun _ next => Installed platform holes context.aspace_.frames context.aspace_.history
        next.aspace_)
      (fun _ next => Installed platform holes context.aspace_.frames context.aspace_.history
        next.aspace_) := by
  have start : Progress platform identity holes context.heap.top_pgtbl_pa_ owner context.aspace_
      context.aspace_ ∧ Installed platform holes context.aspace_.frames context.aspace_.history
      context.aspace_ :=
    ⟨reached.progress owned isLive, [], rfl, fun _ _ _ _ member => by cases member⟩
  have keeps := @allocateWithin_keeps context _ context.heap.top_pgtbl_pa_ allocateDepth size
    (fun va state bound kept => allocateOneVmPage_installed bound (by decide) state kept) rfl start
  exact keeps.weaken (fun _ _ kept => kept.1.2.2) fun _ _ kept => kept.2.2

theorem Housed.allocate (housed : Housed platform holes context.heap context.aspace_.history)
    (reached : Reached platform identity holes context.aspace_)
    (isLive : context.aspace_.Live context.heap.top_pgtbl_pa_) (positive : 0 < size)
    (small : size < 2 ^ 63) :
    Ensures (allocate size) context
      (fun result next => result = some (wrap32 context.heap.vm_allocator_.nextAddress_) ∧
        next.heap.vm_allocator_.nextAddress_ = context.heap.vm_allocator_.nextAddress_ + size ∧
        next.heap.vm_allocator_.baseAddress_ = context.heap.vm_allocator_.baseAddress_ ∧
        (RetriesMet platform holes context.aspace_.frames next.aspace_.frames →
          Housed platform holes next.heap next.aspace_.history))
      (fun _ next => next.heap = context.heap ∧
        Housed platform holes next.heap next.aspace_.history) := by
  obtain ⟨owner, owned⟩ := reached.owned
  have spec := allocate_spec reached isLive housed.sound housed.mapped positive small
  -- pages that have been mapped before stay mapped
  have stays : ∀ newer, Consistent (newer ++ context.aspace_.history) →
      OnlyMaps context.heap.top_pgtbl_pa_ heapFlags newer → ∀ page pte,
      mapping context.aspace_.history context.heap.top_pgtbl_pa_ page = some pte →
      mapping (newer ++ context.aspace_.history) context.heap.top_pgtbl_pa_ page = some pte := by
    intro newer consistent only page pte mapped
    have neither := untouched_of_mapped only.events context.heap.top_pgtbl_pa_
    exact mapping_append consistent neither.1 neither.2 mapped
  apply (spec.both (allocate_installed reached owned isLive)).weaken
  · rintro result next ⟨⟨value, allocated⟩, installed, same, handed⟩
    obtain ⟨newer, history, only, pages⟩ := allocated.events
    have consistent := allocated.reached.consistent
    rw [history] at consistent
    rw [history] at same
    have sameEvents := List.append_cancel_right same
    refine ⟨value, allocated.advanced, allocated.base, fun met => ⟨allocated.sound, ?_⟩⟩
    intro position inside
    have samePage : heapPage next.heap position = heapPage context.heap position := by
      rw [heapPage, heapPage, allocated.base]
    rw [allocated.root, samePage, history]
    by_cases before : position < context.heap.pageCount
    · obtain ⟨pa, mapped, apart⟩ := housed.pages position before
      exact ⟨pa, stays newer consistent only _ _ mapped, apart⟩
    · have member : heapPage context.heap position ∈
          pagesOf context.heap.top_pgtbl_pa_ newer := by
        rw [pages, List.mem_reverse]
        exact List.mem_map_of_mem (List.mem_range'_1.mpr (by omega))
      obtain ⟨va, pa, isIn, mapped⟩ := @OnlyMaps.mapping _ _ _ newer context.aspace_.history only member
      have out := handed _ va pa _ (sameEvents ▸ isIn)
      obtain ⟨_, _, _, outcome, _⟩ := id out
      have isFrame := outcome.fresh.2.2
      refine ⟨pa, mapped, isFrame.narrow owned.pool.valid, ?_⟩
      rw [frameOf_of_aligned isFrame.1]
      rintro (inHole | noFrame)
      · rw [out.unreported met] at inHole
        cases inHole
      · exact noFrame isFrame
  · rintro _ next ⟨⟨count, growth⟩, _⟩
    obtain ⟨newer, history, only, _⟩ := growth.events
    have consistent := growth.reached.consistent
    rw [history] at consistent
    refine ⟨growth.heap, ?_⟩
    rw [growth.heap, history]
    exact housed.kept fun page _ pte mapped => stays newer consistent only page pte mapped

end Growing

end HeapManager

end Espiral
