import Espiral.Spinner.Calls

/-!
# Kernels and their tables

Every finished kernel has a heap and a live page table, and no two kernels have
the same one. This is kept by what the calls of the spinner do to the table of
control blocks and to the address space manager.
-/

namespace Espiral.Spinner

set_option autoImplicit false

open AddressSpaceManager Contracts MachineWords

structure HasHeap (kcbs : Kcbs) (kid : Nat) (kcb : KernelControlBlock) (heap : HeapManager) :
    Prop where
  stored : kcbs[kid]? = some (some kcb)
  has : kcb.heap = some heap

section Blocks

variable {kcbs : Kcbs} {kid other : Nat} {kcb otherKcb : KernelControlBlock}
  {heap otherHeap : HeapManager}

theorem HasHeap.unique (first : HasHeap kcbs kid kcb heap)
    (second : HasHeap kcbs kid otherKcb otherHeap) : kcb = otherKcb ∧ heap = otherHeap := by
  have stored := first.stored.symm.trans second.stored
  cases stored
  have has := first.has.symm.trans second.has
  cases has
  exact ⟨rfl, rfl⟩

theorem HasHeap.of_set (found : HasHeap (kcbs.set kid (some kcb)) other otherKcb otherHeap) :
    other = kid ∧ otherKcb = kcb ∨ other ≠ kid ∧ HasHeap kcbs other otherKcb otherHeap := by
  obtain ⟨stored, has⟩ := found
  by_cases same : kid = other
  · rw [same, List.getElem?_set_self'] at stored
    cases present : kcbs[other]? with
    | none =>
        rw [present] at stored
        cases stored
    | some slot =>
        rw [present] at stored
        cases stored
        exact Or.inl ⟨same.symm, rfl⟩
  · rw [List.getElem?_set_ne same] at stored
    exact Or.inr ⟨fun here => same here.symm, stored, has⟩

theorem HasHeap.of_set_none (found : HasHeap (kcbs.set kid none) other otherKcb otherHeap) :
    other ≠ kid ∧ HasHeap kcbs other otherKcb otherHeap := by
  obtain ⟨stored, has⟩ := found
  by_cases same : kid = other
  · rw [same, List.getElem?_set_self'] at stored
    cases present : kcbs[other]? with
    | none =>
        rw [present] at stored
        cases stored
    | some slot =>
        rw [present] at stored
        cases stored
  · rw [List.getElem?_set_ne same] at stored
    exact ⟨fun here => same here.symm, stored, has⟩

theorem HasHeap.set_self (found : HasHeap kcbs kid otherKcb otherHeap) (has : kcb.heap = some heap) :
    HasHeap (kcbs.set kid (some kcb)) kid kcb heap :=
  ⟨List.getElem?_set_self (List.getElem?_eq_some_iff.mp found.stored).1, has⟩

theorem HasHeap.set_ne {slot : Option KernelControlBlock}
    (found : HasHeap kcbs other otherKcb otherHeap) (different : other ≠ kid) :
    HasHeap (kcbs.set kid slot) other otherKcb otherHeap :=
  ⟨by rw [List.getElem?_set_ne (Ne.symm different)]; exact found.stored, found.has⟩

theorem HasHeap.of_allocate (found : HasHeap kcbs.allocate.2 other otherKcb otherHeap) :
    HasHeap kcbs other otherKcb otherHeap := by
  obtain ⟨stored, has⟩ := found
  unfold Kcbs.allocate at stored
  split at stored
  · exact ⟨stored, has⟩
  · change (kcbs ++ [some KernelControlBlock.empty])[other]? = _ at stored
    rw [List.getElem?_append] at stored
    split at stored
    · exact ⟨stored, has⟩
    · cases position : other - kcbs.length with
      | zero =>
          rw [position] at stored
          cases stored
          cases has
      | succ position' =>
          rw [position] at stored
          cases stored

theorem HasHeap.allocate (found : HasHeap kcbs other otherKcb otherHeap) :
    HasHeap kcbs.allocate.2 other otherKcb otherHeap := by
  refine ⟨?_, found.has⟩
  unfold Kcbs.allocate
  split
  · exact found.stored
  · change (kcbs ++ [some KernelControlBlock.empty])[other]? = _
    rw [List.getElem?_append_left (List.getElem?_eq_some_iff.mp found.stored).1]
    exact found.stored

theorem Kcbs.allocate_vacant (few : kcbs.length < 2 ^ 32) (kcb : KernelControlBlock) :
    kcbs[kcbs.allocate.1]? ≠ some (some kcb) := by
  intro stored
  unfold Kcbs.allocate at stored
  cases empty : kcbs.findIdx? Option.isNone with
  | some slot =>
      rw [empty] at stored
      obtain ⟨inside, none, _⟩ := List.findIdx?_eq_some_iff_getElem.mp empty
      change kcbs[wrap32 slot]? = _ at stored
      rw [wrap32_of_lt (by omega), List.getElem?_eq_getElem inside, Option.some.injEq] at stored
      rw [stored] at none
      cases none
  | none =>
      rw [empty] at stored
      change kcbs[wrap32 kcbs.length]? = _ at stored
      rw [wrap32_of_lt few, List.getElem?_eq_none (Nat.le_refl _)] at stored
      cases stored

theorem Kcbs.stored_of_allocate (few : kcbs.length < 2 ^ 32) (different : kcbs.allocate.1 ≠ other)
    (stored : kcbs.allocate.2[other]? = some (some kcb)) : kcbs[other]? = some (some kcb) := by
  unfold Kcbs.allocate at stored different
  cases empty : kcbs.findIdx? Option.isNone with
  | some slot =>
      rw [empty] at stored
      exact stored
  | none =>
      rw [empty] at stored different
      change wrap32 kcbs.length ≠ other at different
      rw [wrap32_of_lt few] at different
      change (kcbs ++ [some KernelControlBlock.empty])[other]? = _ at stored
      have inside := (List.getElem?_eq_some_iff.mp stored).1
      rw [List.length_append, List.length_singleton] at inside
      rw [List.getElem?_append_left (by omega)] at stored
      exact stored

end Blocks

/-- The finished kernels have live tables, each its own. -/
structure Kernels (platform : Platform) (identity : Nat → Prop) (holes : HoleList)
    (kcbs : Kcbs) (aspace : AddressSpaceManager) : Prop where
  reached : Reached platform identity holes aspace
  rooted : ∀ kid kcb heap, HasHeap kcbs kid kcb heap →
    heap.top_pgtbl_pa_ = kcb.top_pgtbl_pa ∧ aspace.Live kcb.top_pgtbl_pa
  apart : ∀ kid other kcb otherKcb heap otherHeap, HasHeap kcbs kid kcb heap →
    HasHeap kcbs other otherKcb otherHeap → kcb.top_pgtbl_pa = otherKcb.top_pgtbl_pa → kid = other

section Invariant

variable {platform : Platform} {identity : Nat → Prop} {holes : HoleList} {kcbs : Kcbs}
  {aspace next : AddressSpaceManager} {kid : Nat} {kcb old : KernelControlBlock}
  {heap oldHeap : HeapManager}

theorem Kernels.nothing (reached : Reached platform identity holes aspace) :
    Kernels platform identity holes [] aspace where
  reached := reached
  rooted _ _ _ found := by cases found.stored
  apart _ _ _ _ _ _ found := by cases found.stored

theorem Kernels.kept (kernels : Kernels platform identity holes kcbs aspace)
    (reached : Reached platform identity holes next)
    (lives : ∀ table, aspace.Live table → next.Live table) :
    Kernels platform identity holes kcbs next where
  reached := reached
  rooted kid kcb heap found :=
    ⟨(kernels.rooted kid kcb heap found).1, lives _ (kernels.rooted kid kcb heap found).2⟩
  apart := kernels.apart

theorem Kernels.read (kernels : Kernels platform identity holes kcbs aspace)
    (same : SameView aspace next) : Kernels platform identity holes kcbs next := by
  apply kernels.kept (kernels.reached.of_sameView same)
  intro table isLive
  exact live_of_same same.history isLive

theorem Kernels.put (kernels : Kernels platform identity holes kcbs aspace)
    (isLive : aspace.Live kcb.top_pgtbl_pa)
    (heapRoot : ∀ heap, kcb.heap = some heap → heap.top_pgtbl_pa_ = kcb.top_pgtbl_pa)
    (own : ∀ other otherKcb otherHeap, HasHeap kcbs other otherKcb otherHeap →
      otherKcb.top_pgtbl_pa = kcb.top_pgtbl_pa → other = kid) :
    Kernels platform identity holes (kcbs.set kid (some kcb)) aspace := by
  refine ⟨kernels.reached, ?_, ?_⟩
  · intro other otherKcb otherHeap now
    cases now.of_set with
    | inl here =>
        have has := now.has
        rw [here.2] at has ⊢
        exact ⟨heapRoot _ has, isLive⟩
    | inr away => exact kernels.rooted _ _ _ away.2
  · intro first second firstKcb secondKcb firstHeap secondHeap firstNow secondNow same
    cases firstNow.of_set with
    | inl firstHere =>
        cases secondNow.of_set with
        | inl secondHere => rw [firstHere.1, secondHere.1]
        | inr secondAway =>
            rw [firstHere.2] at same
            rw [firstHere.1]
            exact (own _ _ _ secondAway.2 same.symm).symm
    | inr firstAway =>
        cases secondNow.of_set with
        | inl secondHere =>
            rw [secondHere.2] at same
            rw [secondHere.1]
            exact own _ _ _ firstAway.2 same
        | inr secondAway => exact kernels.apart _ _ _ _ _ _ firstAway.2 secondAway.2 same

theorem Kernels.store (kernels : Kernels platform identity holes kcbs aspace)
    (found : HasHeap kcbs kid old oldHeap) (rootIs : kcb.top_pgtbl_pa = old.top_pgtbl_pa)
    (heapRoot : ∀ heap, kcb.heap = some heap → heap.top_pgtbl_pa_ = old.top_pgtbl_pa) :
    Kernels platform identity holes (kcbs.set kid (some kcb)) aspace := by
  apply kernels.put
  · rw [rootIs]
    exact (kernels.rooted _ _ _ found).2
  · rw [rootIs]
    exact heapRoot
  · intro other otherKcb otherHeap before same
    rw [rootIs] at same
    exact kernels.apart _ _ _ _ _ _ before found same

theorem Kernels.obtained (kernels : Kernels platform identity holes kcbs aspace) :
    Kernels platform identity holes kcbs.allocate.2 aspace where
  reached := kernels.reached
  rooted kid kcb heap found := kernels.rooted kid kcb heap found.of_allocate
  apart kid other kcb otherKcb heap otherHeap found otherFound :=
    kernels.apart kid other kcb otherKcb heap otherHeap found.of_allocate otherFound.of_allocate

theorem Kernels.vacate (kernels : Kernels platform identity holes kcbs aspace) :
    Kernels platform identity holes (kcbs.set kid none) aspace where
  reached := kernels.reached
  rooted _ _ _ found := kernels.rooted _ _ _ found.of_set_none.2
  apart _ _ _ _ _ _ found otherFound :=
    kernels.apart _ _ _ _ _ _ found.of_set_none.2 otherFound.of_set_none.2

theorem Kernels.create (kernels : Kernels platform identity holes kcbs aspace)
    (reached : Reached platform identity holes next)
    (lives : ∀ table, aspace.Live table → next.Live table)
    (fresh : ¬aspace.Live kcb.top_pgtbl_pa) (isLive : next.Live kcb.top_pgtbl_pa)
    (heapRoot : ∀ heap, kcb.heap = some heap → heap.top_pgtbl_pa_ = kcb.top_pgtbl_pa) :
    Kernels platform identity holes (kcbs.set kid (some kcb)) next := by
  apply (kernels.kept reached lives).put isLive heapRoot
  intro other otherKcb otherHeap before same
  have oldLive := (kernels.rooted _ _ _ before).2
  rw [same] at oldLive
  exact absurd oldLive fresh

/-- A table and the block that has it are gone; the other kernels have other tables. -/
theorem Kernels.remove (kernels : Kernels platform identity holes kcbs aspace)
    (found : HasHeap kcbs kid old oldHeap) (reached : Reached platform identity holes next)
    (history : next.history = .freed old.top_pgtbl_pa :: aspace.history) :
    Kernels platform identity holes (kcbs.set kid none) next := by
  refine ⟨reached, ?_, ?_⟩
  · intro other otherKcb otherHeap now
    obtain ⟨different, before⟩ := now.of_set_none
    obtain ⟨rootIs, isLive⟩ := kernels.rooted _ _ _ before
    refine ⟨rootIs, ?_⟩
    have otherTable : old.top_pgtbl_pa ≠ otherKcb.top_pgtbl_pa := by
      intro same
      exact different (kernels.apart _ _ _ _ _ _ found before same).symm
    rw [Live, history, live, bne_iff_ne.mpr otherTable, Bool.true_and]
    exact isLive
  · intro first second firstKcb secondKcb firstHeap secondHeap firstNow secondNow same
    exact kernels.apart _ _ _ _ _ _ firstNow.of_set_none.2 secondNow.of_set_none.2 same

end Invariant

end Espiral.Spinner
