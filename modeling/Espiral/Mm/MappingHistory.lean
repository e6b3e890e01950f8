import Espiral.Mm.AddressSpaceManager

/-!
# What a history of events says

The purpose of the address space manager is a family of page maps, one for
each live root, and the history of events determines it.
-/

namespace Espiral.AddressSpaceManager

set_option autoImplicit false

def live : List MappingEvent → Nat → Bool
  | [], _ => false
  | .created root :: earlier, table => root == table || live earlier table
  | .freed root :: earlier, table => root != table && live earlier table
  | .mapped _ _ _ _ :: earlier, table => live earlier table

/-- The page map of a root: the entry each page is mapped by. -/
def mapping : List MappingEvent → Nat → Nat → Option Nat
  | [], _, _ => none
  | .created root :: earlier, table, page =>
      if root = table then none else mapping earlier table page
  | .freed root :: earlier, table, page =>
      if root = table then none else mapping earlier table page
  | .mapped root va pa flags :: earlier, table, page =>
      if root = table ∧ va / 4096 = page then some (makePte pa (leafFlags flags))
      else mapping earlier table page

def Succeeded (history : List MappingEvent) (root va pa flags : Nat) : Prop :=
  ∃ later earlier, history = later ++ .mapped root va pa flags :: earlier ∧
    .created root ∉ later ∧ .freed root ∉ later

/-- An event is a success of this call, or it leaves the earlier ones standing
unless it creates or frees the root. -/
theorem succeeded_cons {event : MappingEvent} {earlier : List MappingEvent}
    {root va pa flags : Nat} :
    Succeeded (event :: earlier) root va pa flags ↔
      event = .mapped root va pa flags ∨
        (event ≠ .created root ∧ event ≠ .freed root ∧ Succeeded earlier root va pa flags) := by
  constructor
  · rintro ⟨later, rest, split, notCreated, notFreed⟩
    cases later with
    | nil =>
        rw [List.nil_append, List.cons.injEq] at split
        exact Or.inl split.1
    | cons first later =>
        rw [List.cons_append, List.cons.injEq] at split
        rw [← split.1, List.mem_cons, not_or] at notCreated notFreed
        exact Or.inr ⟨fun same => notCreated.1 same.symm, fun same => notFreed.1 same.symm,
          later, rest, split.2, notCreated.2, notFreed.2⟩
  · rintro (same | ⟨notCreated, notFreed, later, rest, split, laterCreated, laterFreed⟩)
    · exact ⟨[], earlier, by rw [same]; rfl, by simp, by simp⟩
    · refine ⟨event :: later, rest, by rw [split]; rfl, ?_, ?_⟩
      · rw [List.mem_cons, not_or]
        exact ⟨fun same => notCreated same.symm, laterCreated⟩
      · rw [List.mem_cons, not_or]
        exact ⟨fun same => notFreed same.symm, laterFreed⟩

/-- What a page is mapped by, it was mapped by in a successful call. -/
theorem succeeded_of_mapping {history : List MappingEvent} {root page pte : Nat}
    (found : mapping history root page = some pte) :
    ∃ va pa flags, Succeeded history root va pa flags ∧ va / 4096 = page ∧
      pte = makePte pa (leafFlags flags) := by
  induction history with
  | nil => simp [mapping] at found
  | cons event earlier ih =>
      cases event with
      | created other =>
          by_cases same : other = root
          · simp [mapping, same] at found
          · simp only [mapping, same, if_false] at found
            rcases ih found with ⟨va, pa, flags, success, inPage, target⟩
            exact ⟨va, pa, flags,
              succeeded_cons.mpr (Or.inr ⟨by simpa using same, by simp, success⟩), inPage, target⟩
      | freed other =>
          by_cases same : other = root
          · simp [mapping, same] at found
          · simp only [mapping, same, if_false] at found
            rcases ih found with ⟨va, pa, flags, success, inPage, target⟩
            exact ⟨va, pa, flags,
              succeeded_cons.mpr (Or.inr ⟨by simp, by simpa using same, success⟩), inPage, target⟩
      | mapped other va pa flags =>
          by_cases here : other = root ∧ va / 4096 = page
          · simp only [mapping, here, and_self, if_true, Option.some.injEq] at found
            exact ⟨va, pa, flags, succeeded_cons.mpr (Or.inl (by rw [here.1])), here.2, found.symm⟩
          · simp only [mapping, here, if_false] at found
            rcases ih found with ⟨otherVa, otherPa, otherFlags, success, inPage, target⟩
            exact ⟨otherVa, otherPa, otherFlags,
              succeeded_cons.mpr (Or.inr ⟨by simp, by simp, success⟩), inPage, target⟩

/-- No page is mapped twice, and what is mapped are 32-bit addresses. -/
def Consistent : List MappingEvent → Prop
  | [] => True
  | .created _ :: earlier => Consistent earlier
  | .freed _ :: earlier => Consistent earlier
  | .mapped root va pa _ :: earlier =>
      mapping earlier root (va / 4096) = none ∧ pa < 2 ^ 32 ∧ Consistent earlier

/-- In a consistent history the only success for a page is the one it is mapped by. -/
theorem mapping_of_succeeded {history : List MappingEvent} (consistent : Consistent history)
    {root va pa flags : Nat} (success : Succeeded history root va pa flags) :
    mapping history root (va / 4096) = some (makePte pa (leafFlags flags)) ∧ pa < 2 ^ 32 := by
  induction history with
  | nil =>
      rcases success with ⟨later, earlier, split, _⟩
      exact absurd split.symm (by simp)
  | cons event earlier ih =>
      rcases succeeded_cons.mp success with same | ⟨notCreated, notFreed, before⟩
      · rw [same] at consistent ⊢
        simp only [mapping, and_self, if_true, true_and]
        exact consistent.2.1
      · cases event with
        | created other =>
            have different : other ≠ root := by simpa using notCreated
            simp only [mapping, different, if_false]
            exact ih consistent before
        | freed other =>
            have different : other ≠ root := by simpa using notFreed
            simp only [mapping, different, if_false]
            exact ih consistent before
        | mapped other otherVa otherPa otherFlags =>
            have found := ih consistent.2.2 before
            have different : ¬(other = root ∧ otherVa / 4096 = va / 4096) := by
              rintro ⟨sameRoot, samePage⟩
              have unmapped := consistent.1
              rw [sameRoot, samePage, found.1] at unmapped
              cases unmapped
            simp only [mapping, different, if_false]
            exact found

section Extension

variable {root table page flags pte : Nat} {newer earlier : List MappingEvent}

def pagesOf (root : Nat) (events : List MappingEvent) : List Nat :=
  events.filterMap fun
    | .mapped table va _ _ => if table = root then some (va / 4096) else none
    | _ => none

def OnlyMaps (root flags : Nat) (events : List MappingEvent) : Prop :=
  ∀ event ∈ events, ∃ va pa, event = .mapped root va pa flags

theorem OnlyMaps.events (only : OnlyMaps root flags newer) :
    ∀ event ∈ newer, ∃ va pa flags, event = .mapped root va pa flags := by
  intro event member
  obtain ⟨va, pa, same⟩ := only event member
  exact ⟨va, pa, flags, same⟩

theorem untouched_of_mapped
    (only : ∀ event ∈ newer, ∃ va pa flags, event = .mapped root va pa flags) (table : Nat) :
    .created table ∉ newer ∧ .freed table ∉ newer := by
  constructor
  · intro created
    obtain ⟨_, _, _, impossible⟩ := only _ created
    cases impossible
  · intro freed
    obtain ⟨_, _, _, impossible⟩ := only _ freed
    cases impossible

theorem live_append_of_onlyMaps (only : OnlyMaps root flags newer) :
    live (newer ++ earlier) table = live earlier table := by
  induction newer with
  | nil => rfl
  | cons event rest ih =>
      obtain ⟨va, pa, same⟩ := only event (by simp)
      rw [same]
      exact ih fun other member => only other (by simp [member])

theorem pagesOf_cons (root : Nat) (event : MappingEvent) (events : List MappingEvent) :
    pagesOf root (event :: events) = pagesOf root [event] ++ pagesOf root events := by
  rw [pagesOf, pagesOf, pagesOf, ← List.filterMap_append]
  rfl

theorem mapping_cons {event : MappingEvent} (notCreated : .created root ≠ event)
    (notFreed : .freed root ≠ event) :
    mapping (event :: earlier) root page ≠ none ∧ page ∈ pagesOf root [event] ∨
      mapping (event :: earlier) root page = mapping earlier root page ∧
        page ∉ pagesOf root [event] := by
  cases event with
  | created other =>
      right
      have different : other ≠ root := fun same => notCreated (by rw [same])
      rw [mapping, if_neg different]
      exact ⟨rfl, List.not_mem_nil⟩
  | freed other =>
      right
      have different : other ≠ root := fun same => notFreed (by rw [same])
      rw [mapping, if_neg different]
      exact ⟨rfl, List.not_mem_nil⟩
  | mapped other va pa flags =>
      by_cases here : other = root ∧ va / 4096 = page
      · left
        rw [mapping, if_pos here]
        exact ⟨Option.some_ne_none _, by simp [pagesOf, here]⟩
      · right
        rw [mapping, if_neg here]
        refine ⟨rfl, ?_⟩
        intro member
        by_cases same : other = root
        · exact here ⟨same, by simpa [pagesOf, same, eq_comm] using member⟩
        · simp [pagesOf, same] at member

theorem Consistent.tail {event : MappingEvent} (consistent : Consistent (event :: earlier)) :
    Consistent earlier := by
  cases event with
  | created _ => exact consistent
  | freed _ => exact consistent
  | mapped _ _ _ _ => exact consistent.2.2

theorem Consistent.unmapped {event : MappingEvent} (consistent : Consistent (event :: earlier))
    (member : page ∈ pagesOf root [event]) : mapping earlier root page = none := by
  cases event with
  | created _ => cases member
  | freed _ => cases member
  | mapped other va pa flags =>
      by_cases same : other = root
      · have here : va / 4096 = page := by simpa [pagesOf, same, eq_comm] using member
        rw [← same, ← here]
        exact consistent.1
      · simp [pagesOf, same] at member

theorem mapping_append (consistent : Consistent (newer ++ earlier))
    (notCreated : .created root ∉ newer) (notFreed : .freed root ∉ newer)
    (mapped : mapping earlier root page = some pte) :
    mapping (newer ++ earlier) root page = some pte := by
  induction newer with
  | nil => exact mapped
  | cons event rest ih =>
      rw [List.mem_cons, not_or] at notCreated notFreed
      have before := ih consistent.tail notCreated.2 notFreed.2
      rw [List.cons_append]
      cases @mapping_cons root page (rest ++ earlier) event notCreated.1 notFreed.1 with
      | inl again =>
          have unmapped : mapping (rest ++ earlier) root page = none :=
            consistent.unmapped again.2
          rw [before] at unmapped
          cases unmapped
      | inr same => rw [same.1, before]

theorem mapping_of_mem_append (notCreated : .created root ∉ newer) (notFreed : .freed root ∉ newer)
    (member : page ∈ pagesOf root newer) : mapping (newer ++ earlier) root page ≠ none := by
  induction newer with
  | nil => cases member
  | cons event rest ih =>
      rw [List.mem_cons, not_or] at notCreated notFreed
      rw [pagesOf_cons, List.mem_append] at member
      rw [List.cons_append]
      cases @mapping_cons root page (rest ++ earlier) event notCreated.1 notFreed.1 with
      | inl mapped => exact mapped.1
      | inr away =>
          rw [away.1]
          exact ih notCreated.2 notFreed.2 (member.resolve_left away.2)

theorem unmapped_before (consistent : Consistent (newer ++ earlier))
    (notCreated : .created root ∉ newer) (notFreed : .freed root ∉ newer)
    (member : page ∈ pagesOf root newer) : mapping earlier root page = none := by
  induction newer with
  | nil => cases member
  | cons event rest ih =>
      rw [List.mem_cons, not_or] at notCreated notFreed
      rw [pagesOf_cons, List.mem_append] at member
      cases member with
      | inl here =>
          by_contra mapped
          obtain ⟨pte, found⟩ := Option.ne_none_iff_exists'.mp mapped
          have still := mapping_append consistent.tail notCreated.2 notFreed.2 found
          have unmapped : mapping (rest ++ earlier) root page = none := consistent.unmapped here
          rw [still] at unmapped
          cases unmapped
      | inr later => exact ih consistent.tail notCreated.2 notFreed.2 later

theorem mapping_append_unmapped (notCreated : .created root ∉ newer)
    (notFreed : .freed root ∉ newer) (away : page ∉ pagesOf root newer) :
    mapping (newer ++ earlier) root page = mapping earlier root page := by
  induction newer with
  | nil => rfl
  | cons event rest ih =>
      rw [List.mem_cons, not_or] at notCreated notFreed
      rw [pagesOf_cons, List.mem_append, not_or] at away
      rw [List.cons_append]
      cases @mapping_cons root page (rest ++ earlier) event notCreated.1 notFreed.1 with
      | inl mapped => exact absurd mapped.2 away.1
      | inr same => rw [same.1, ih notCreated.2 notFreed.2 away.2]

theorem mapping_append_other
    (only : ∀ event ∈ newer, ∃ va pa flags, event = .mapped root va pa flags)
    (away : table = root → page ∉ pagesOf root newer) :
    mapping (newer ++ earlier) table page = mapping earlier table page := by
  have untouched := untouched_of_mapped only table
  apply mapping_append_unmapped untouched.1 untouched.2
  intro member
  obtain ⟨event, inNewer, found⟩ := List.mem_filterMap.mp member
  obtain ⟨va, pa, flags, same⟩ := only event inNewer
  by_cases here : root = table
  · rw [← here] at member
    exact away here.symm member
  · simp [same, here] at found

theorem live_append (notFreed : .freed root ∉ newer) (isLive : live earlier root = true) :
    live (newer ++ earlier) root = true := by
  induction newer with
  | nil => exact isLive
  | cons event rest ih =>
      rw [List.mem_cons, not_or] at notFreed
      cases event with
      | created other => rw [List.cons_append, live, ih notFreed.2, Bool.or_true]
      | freed other =>
          have different : other ≠ root := fun same => notFreed.1 (by rw [same])
          rw [List.cons_append, live, ih notFreed.2, Bool.and_true, bne_iff_ne]
          exact different
      | mapped other va pa flags => exact ih notFreed.2

end Extension

end Espiral.AddressSpaceManager
