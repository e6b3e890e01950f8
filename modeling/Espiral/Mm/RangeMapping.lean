import Espiral.Mm.AddressSpaceRuns
import Espiral.Mm.Translation

/-!
# Mapping ranges of pages

The page loops step a 32-bit offset from an arbitrary start. What they have
done when they return is known exactly: the pages at the offsets of the loop,
one event for each, and nothing else.
-/

namespace Espiral.AddressSpaceManager

set_option autoImplicit false

open ByteMemory Contracts MachineWords Traces

def loopPages (size : Nat) : Nat := (size + 4095) / 4096

/-- The page at an offset of a loop; virtual addresses wrap around. -/
def rangePage (va position : Nat) : Nat := (va / 4096 + position) % 2 ^ 20

def rangeEvents (root va flags : Nat) (pas : Nat → Nat) : Nat → List MappingEvent
  | 0 => []
  | count + 1 =>
      .mapped root (wrap32 (va + count * 4096)) (pas count) flags ::
        rangeEvents root va flags pas count

section Loop

variable {size : Nat} {body : Nat → Action AddressSpaceManager Unit}
  {Invariant : Nat → AddressSpaceManager → Prop} {throws : Fault → AddressSpaceManager → Prop}

/-- A page loop visits each of its offsets once. When the offset has gone around, it
starts again at the first page. -/
theorem forPages_counts
    (step : ∀ position state, position * 4096 < size → position < 2 ^ 20 →
      Invariant position state →
      Ensures (body (position * 4096)) state (fun _ next => Invariant (position + 1) next) throws)
    (around : ∀ state, Invariant (2 ^ 20) state →
      Ensures (body 0) state (fun _ _ => False) throws)
    {fuel position : Nat} {state : AddressSpaceManager} (start : Invariant position state)
    (visited : position * 4096 < size + 4096) (few : position ≤ 2 ^ 20)
    (enough : 2 ^ 20 + 1 < fuel + position) :
    Ensures (forPages size body fuel (wrap32 (position * 4096))) state
      (fun _ next => Invariant (loopPages size) next) throws := by
  induction fuel generalizing position state with
  | zero => omega
  | succ fuel ih =>
      rw [forPages]
      by_cases last : position = 2 ^ 20
      · have first : wrap32 (position * 4096) = 0 := by
          unfold wrap32
          omega
        rw [first, if_pos (by omega)]
        apply Ensures.bind
        rw [last] at start
        apply (around state start).weaken
        · intro _ _ impossible
          exact impossible.elim
        · intro _ _ thrown
          exact thrown
      · have below : position < 2 ^ 20 := Nat.lt_of_le_of_ne few last
        have offset : wrap32 (position * 4096) = position * 4096 := by
          clear enough
          exact wrap32_of_lt (by omega)
        rw [offset]
        by_cases more : position * 4096 < size
        · rw [if_pos more]
          apply Ensures.bind
          apply (step position state more below start).weaken
          · intro _ next kept
            have following : position * 4096 + PAGE_SIZE = (position + 1) * 4096 :=
              (Nat.succ_mul position 4096).symm
            have visitedNext : (position + 1) * 4096 < size + 4096 := by
              rw [← following]
              exact Nat.add_lt_add_right more 4096
            have enoughNext : 2 ^ 20 + 1 < fuel + (position + 1) := by
              rw [← Nat.add_assoc, Nat.add_right_comm]
              exact enough
            rw [following]
            exact ih kept visitedNext below enoughNext
          · intro _ _ thrown
            exact thrown
        · rw [if_neg more]
          apply ensures_pure
          have done : position = loopPages size := by
            clear enough
            unfold loopPages
            omega
          rw [← done]
          exact start

end Loop

section Events

variable {root table va flags position count page : Nat} {pas other : Nat → Nat}
  {earlier : List MappingEvent}

theorem rangePage_eq (va position : Nat) :
    wrap32 (va + position * 4096) / 4096 = rangePage va position := by
  unfold wrap32 rangePage
  omega

theorem rangePage_injective {first second : Nat} (firstSmall : first < 2 ^ 20)
    (secondSmall : second < 2 ^ 20) (same : rangePage va first = rangePage va second) :
    first = second := by
  unfold rangePage at same
  omega

theorem rangeEvents_congr (same : ∀ position < count, other position = pas position) :
    rangeEvents root va flags other count = rangeEvents root va flags pas count := by
  induction count with
  | zero => rfl
  | succ count ih =>
      rw [rangeEvents, rangeEvents, same count (Nat.lt_succ_self count),
        ih fun position inside => same position (Nat.lt_succ_of_lt inside)]

theorem rangeEvents_onlyMaps (root va flags : Nat) (pas : Nat → Nat) (count : Nat) :
    OnlyMaps root flags (rangeEvents root va flags pas count) := by
  induction count with
  | zero =>
      intro event member
      cases member
  | succ count ih =>
      intro event member
      cases List.mem_cons.mp member with
      | inl same => exact ⟨_, _, same⟩
      | inr before => exact ih event before

theorem mapping_rangeEvents_other
    (away : table ≠ root ∨ ∀ position < count, rangePage va position ≠ page) :
    mapping (rangeEvents root va flags pas count ++ earlier) table page =
      mapping earlier table page := by
  induction count with
  | zero => rfl
  | succ count ih =>
      have here : ¬(root = table ∧ wrap32 (va + count * 4096) / 4096 = page) := by
        intro both
        cases away with
        | inl different => exact different both.1.symm
        | inr unvisited =>
            rw [rangePage_eq] at both
            exact unvisited count (Nat.lt_succ_self count) both.2
      rw [rangeEvents, List.cons_append, mapping, if_neg here]
      apply ih
      cases away with
      | inl different => exact Or.inl different
      | inr unvisited =>
          exact Or.inr fun position inside => unvisited position (Nat.lt_succ_of_lt inside)

theorem mapping_rangeEvents_page (inside : position < count) (narrow : count ≤ 2 ^ 20) :
    mapping (rangeEvents root va flags pas count ++ earlier) root (rangePage va position) =
      some (makePte (pas position) (leafFlags flags)) := by
  induction count with
  | zero => omega
  | succ count ih =>
      rw [rangeEvents, List.cons_append, mapping, rangePage_eq]
      by_cases here : position = count
      · rw [if_pos ⟨rfl, by rw [here]⟩, here]
      · have apart : ¬(root = root ∧ rangePage va count = rangePage va position) := by
          intro both
          exact here (rangePage_injective (by omega) (by omega) both.2).symm
        rw [if_neg apart]
        exact ih (by omega) (by omega)

end Events

structure RangeMapped (platform : Platform) (identity : Nat → Prop) (holes : HoleList)
    (start : AddressSpaceManager) (root va flags count : Nat) (target : Nat → Nat → Prop)
    (state : AddressSpaceManager) : Prop where
  reached : Reached platform identity holes state
  isLive : state.Live root
  events : ∃ pas, (∀ position < count, target position (pas position)) ∧
    state.history = rangeEvents root va flags pas count ++ start.history
  unmapped : ∀ position < count, mapping start.history root (rangePage va position) = none

section Ranges

variable {platform : Platform} {identity : Nat → Prop} {holes : HoleList}
  {start state next : AddressSpaceManager} {root va flags count : Nat} {target : Nat → Nat → Prop}

theorem Reached.rangeMapped (reached : Reached platform identity holes state)
    (isLive : state.Live root) :
    RangeMapped platform identity holes state root va flags 0 target state := by
  refine ⟨reached, isLive, ⟨id, ?_, rfl⟩, ?_⟩
  · intro position inside
    omega
  · intro position inside
    omega

theorem RangeMapped.succ
    (mapped : RangeMapped platform identity holes start root va flags count target state)
    (few : count < 2 ^ 20) (reached : Reached platform identity holes next) {pa : Nat}
    (history : next.history =
      .mapped root (wrap32 (va + count * 4096)) pa flags :: state.history)
    (unmapped : mapping state.history root (wrap32 (va + count * 4096) / 4096) = none)
    (isTarget : target count pa) :
    RangeMapped platform identity holes start root va flags (count + 1) target next := by
  obtain ⟨pas, targets, before⟩ := mapped.events
  refine ⟨reached, live_of_mapped history mapped.isLive, ⟨Function.update pas count pa, ?_, ?_⟩, ?_⟩
  · intro position inside
    by_cases here : position = count
    · rw [here, Function.update_self]
      exact isTarget
    · rw [Function.update_of_ne here]
      exact targets position (by omega)
  · have same : rangeEvents root va flags (Function.update pas count pa) count =
        rangeEvents root va flags pas count := by
      apply rangeEvents_congr
      intro position inside
      exact Function.update_of_ne (Nat.ne_of_lt inside) _ _
    rw [history, before, rangeEvents, Function.update_self, same]
    rfl
  · intro position inside
    by_cases here : position = count
    · rw [rangePage_eq, before, mapping_rangeEvents_other] at unmapped
      · rw [here]
        exact unmapped
      · right
        intro earlier earlierInside same
        have equal := rangePage_injective (by omega) few same
        omega
    · exact mapped.unmapped position (by omega)

/-- After a whole turn the first page of the range is mapped. -/
theorem RangeMapped.around
    (mapped : RangeMapped platform identity holes start root va flags (2 ^ 20) target state) :
    mapping state.history root (wrap32 (va + 0) / 4096) ≠ none := by
  obtain ⟨pas, _, history⟩ := mapped.events
  have page := rangePage_eq va 0
  rw [Nat.zero_mul] at page
  rw [history, page, mapping_rangeEvents_page (by decide) (Nat.le_refl _)]
  exact Option.some_ne_none _

theorem allocateVmPages_range {size : Nat} (reached : Reached platform identity holes state)
    (isLive : state.Live root) (readable : flags &&& PteFlags.R ≠ 0) :
    Ensures (allocateVmPages va size root flags) state
      (fun _ next => RangeMapped platform identity holes state root va flags (loopPages size)
        (fun _ pa => platform.IsFrame pa) next)
      (fun _ _ => True) := by
  have spec : ∀ offset now, Reached platform identity holes now → now.Live root →
      Ensures (allocateOneVmPage (wrap32 (va + offset)) root flags) now
        (fun _ next => ∃ pa, Reached platform identity holes next ∧
          next.history = .mapped root (wrap32 (va + offset)) pa flags :: now.history ∧
          mapping now.history root (wrap32 (va + offset) / 4096) = none ∧ platform.IsFrame pa)
        (fun _ _ => True) := by
    intro offset now nowReached nowLive
    obtain ⟨owner, owned⟩ := nowReached.owned
    apply (allocateOneVmPage_spec owned nowLive (wrap32_lt (va + offset)) readable).weaken
    · intro _ next outcome
      obtain ⟨later, pa, advanced, history, unmapped, isFrame, _⟩ := outcome
      exact ⟨pa, nowReached.of_mapped advanced history unmapped (isFrame.narrow owned.pool.valid),
        history, unmapped, isFrame⟩
    · intro _ _ _
      trivial
  have loop := @forPages_counts size
    (fun offset => allocateOneVmPage (wrap32 (va + offset)) root flags)
    (fun position now => RangeMapped platform identity holes state root va flags position
      (fun _ pa => platform.IsFrame pa) now) (fun _ _ => True) ?_ ?_ pageLoopFuel 0 state
    (reached.rangeMapped isLive) (by omega) (by omega) (by decide)
  · exact loop
  · intro position now _ few mapped
    apply (spec (position * 4096) now mapped.reached mapped.isLive).weaken
    · intro _ next outcome
      obtain ⟨pa, nextReached, history, unmapped, isFrame⟩ := outcome
      exact mapped.succ few nextReached history unmapped isFrame
    · intro _ _ _
      trivial
  · intro now mapped
    apply (spec 0 now mapped.reached mapped.isLive).weaken
    · intro _ next outcome
      obtain ⟨_, _, _, unmapped, _⟩ := outcome
      exact mapped.around unmapped
    · intro _ _ _
      trivial

theorem unsafeMapIdentity_range {size : Nat} (reached : Reached platform identity holes state)
    (isLive : state.Live root) (readable : flags &&& PteFlags.R ≠ 0)
    (allowed : ∀ offset < size, 4096 ∣ offset → identity (frameOf (wrap32 (va + offset)))) :
    Ensures (unsafeMapIdentity va size root flags) state
      (fun _ next => RangeMapped platform identity holes state root va flags (loopPages size)
        (fun position pa => pa = wrap32 (va + position * 4096)) next)
      (fun _ _ => True) := by
  by_cases empty : size = 0
  · rw [empty]
    exact ensures_of_run rfl (reached.rangeMapped isLive)
  · have spec : ∀ offset now, offset < size → 4096 ∣ offset → Reached platform identity holes now →
        now.Live root →
        Ensures (mapAddrInner (wrap32 (va + offset)) (wrap32 (va + offset)) root flags) now
          (fun _ next => Reached platform identity holes next ∧
            next.history =
              .mapped root (wrap32 (va + offset)) (wrap32 (va + offset)) flags :: now.history ∧
            mapping now.history root (wrap32 (va + offset) / 4096) = none)
          (fun _ _ => True) := by
      intro offset now inside aligned nowReached nowLive
      obtain ⟨owner, owned⟩ := nowReached.owned
      apply (@mapAddrInner_spec platform identity owner now root (wrap32 (va + offset)) owned
        nowLive (wrap32_lt _) (wrap32 (va + offset)) flags (wrap32_lt _) readable none
        (Or.inr ⟨allowed offset inside aligned, rfl⟩)).weaken
      · intro _ next outcome
        obtain ⟨later, advanced, history, unmapped, _⟩ := outcome
        exact ⟨nowReached.of_mapped advanced history unmapped (wrap32_lt _), history, unmapped⟩
      · intro _ _ _
        trivial
    have loop := @forPages_counts size
      (fun offset => mapAddrInner (wrap32 (va + offset)) (wrap32 (va + offset)) root flags)
      (fun position now => RangeMapped platform identity holes state root va flags position
        (fun position pa => pa = wrap32 (va + position * 4096)) now) (fun _ _ => True) ?_ ?_
      pageLoopFuel 0 state (reached.rangeMapped isLive) (by omega) (by omega) (by decide)
    · exact loop
    · intro position now inside few mapped
      apply (spec (position * 4096) now inside (Nat.dvd_mul_left 4096 position) mapped.reached
        mapped.isLive).weaken
      · intro _ next outcome
        obtain ⟨nextReached, history, unmapped⟩ := outcome
        exact mapped.succ few nextReached history unmapped rfl
      · intro _ _ _
        trivial
    · intro now mapped
      apply (spec 0 now (by omega) (Nat.dvd_zero 4096) mapped.reached mapped.isLive).weaken
      · intro _ next outcome
        exact mapped.around outcome.2.2
      · intro _ _ _
        trivial

end Ranges

end Espiral.AddressSpaceManager
