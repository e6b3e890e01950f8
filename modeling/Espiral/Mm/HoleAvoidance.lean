import Espiral.Mm.FrameOwnership
import Espiral.Mm.SpareFrames

/-!
# Which requests respect the holes

A request tests the first frame it gets and nothing else: not the frame of the
second attempt, and a frame only by its first address. The registered ranges
are respected exactly when that test happens to be right.
-/

namespace Espiral.AddressSpaceManager

set_option autoImplicit false

open Contracts MachineWords Traces VortexMemoryAllocator

/-- The next free frame is in a hole just if it is reported as one, and the free
frame after a reported one is in no hole. -/
def HolesMet (platform : Platform) (holes : HoleList) (used : Finset Nat) : Prop :=
  ∀ first, NextFrame platform used first →
    (holes.addrInHole first = true ↔ holes.Intersects first) ∧
      (holes.Intersects first →
        ∀ second, NextFrame platform (insert first used) second → ¬holes.Intersects second)

/-- A request returns no frame that meets a hole, and it keeps back only frames
that do. -/
def RespectsHoles (state : AddressSpaceManager) : Prop :=
  ∃ result next, allocateOnePage state = .ok result next ∧
    (∀ frame, result = some frame → ¬state.hole_list_.Intersects frame) ∧
      ∀ frame ∈ next.frames, frame ∉ state.frames → result ≠ some frame →
        state.hole_list_.Intersects frame

section Requests

variable {platform : Platform} {holes : HoleList} {used last : Finset Nat}

theorem Full.no_next (full : Full platform used) {frame : Nat}
    (next : NextFrame platform used frame) : False :=
  next.unused (full frame next.isFrame)

/-- One request does what the claim on holes asks of it just if the test was right. -/
theorem outcome_respects_iff {result : Option Nat}
    (outcome : PageOutcome platform (fun frame => holes.addrInHole frame) used result last) :
    ((∀ frame, result = some frame → ¬holes.Intersects frame) ∧
        ∀ frame ∈ last, frame ∉ used → result ≠ some frame → holes.Intersects frame) ↔
      HolesMet platform holes used := by
  cases outcome with
  | full full =>
      constructor
      · intro _ first next
        exact absurd next full.no_next
      · intro _
        exact ⟨fun _ impossible => (by cases impossible),
          fun frame member unused => absurd member unused⟩
  | direct next outside =>
      constructor
      · intro respects first other
        rw [← next.unique other]
        have apart := respects.1 _ rfl
        refine ⟨⟨fun inside => ?_, fun meets => absurd meets apart⟩, fun meets => absurd meets apart⟩
        rw [outside] at inside
        cases inside
      · intro met
        have exactTest := (met _ next).1
        rw [outside] at exactTest
        refine ⟨fun frame same => ?_, fun frame member unused different => ?_⟩
        · cases same
          exact fun meets => Bool.false_ne_true (exactTest.mpr meets)
        · cases Finset.mem_insert.mp member with
          | inl same => exact absurd (by rw [same]) different
          | inr old => exact absurd old unused
  | discarded next inside full =>
      constructor
      · intro respects first other
        rw [← next.unique other]
        have meets := respects.2 _ (Finset.mem_insert_self _ _) next.unused (by simp)
        exact ⟨⟨fun _ => meets, fun _ => inside⟩, fun _ second after => absurd after full.no_next⟩
      · intro met
        refine ⟨fun _ impossible => (by cases impossible), fun frame member unused _ => ?_⟩
        cases Finset.mem_insert.mp member with
        | inl same =>
            rw [same]
            exact (met _ next).1.mp inside
        | inr old => exact absurd old unused
  | retried next inside after =>
      have different := after.unused
      rw [Finset.mem_insert, not_or] at different
      constructor
      · intro respects first other
        rw [← next.unique other]
        have meets := respects.2 _ (Finset.mem_insert_of_mem (Finset.mem_insert_self _ _))
          next.unused (fun same => different.1 (Option.some.inj same))
        refine ⟨⟨fun _ => meets, fun _ => inside⟩, fun _ second again => ?_⟩
        rw [← after.unique again]
        exact respects.1 _ rfl
      · intro met
        have meets := (met _ next).1.mp inside
        refine ⟨fun frame same => ?_, fun frame member unused notReturned => ?_⟩
        · cases same
          exact (met _ next).2 meets _ after
        · cases Finset.mem_insert.mp member with
          | inl same => exact absurd (by rw [same]) notReturned
          | inr rest =>
              cases Finset.mem_insert.mp rest with
              | inl same =>
                  rw [same]
                  exact meets
              | inr old => exact absurd old unused

theorem respectsHoles_iff {state : AddressSpaceManager}
    (pool : FramePool platform state.page_allocator_) :
    RespectsHoles state ↔ HolesMet platform state.hole_list_ state.frames := by
  obtain ⟨result, next, ran, _, _, outcome⟩ := allocateOnePage_run pool
  rw [← outcome_respects_iff outcome]
  constructor
  · intro respects
    obtain ⟨otherResult, other, again, holds⟩ := respects
    rw [ran] at again
    cases again
    exact holds
  · intro holds
    exact ⟨result, next, ran, holds⟩

theorem PageOutcome.strict {result : Option Nat} {hole : Nat → Bool} {frame : Nat}
    (outcome : PageOutcome platform hole used result last) (member : frame ∈ last)
    (unused : frame ∉ used) : used ⊂ last :=
  Finset.ssubset_iff_subset_ne.mpr ⟨outcome.grows, fun same => unused (by rw [same]; exact member)⟩

def MetBetween (platform : Platform) (holes : HoleList) (used last : Finset Nat) : Prop :=
  ∀ before, Requests platform (fun frame => holes.addrInHole frame) used before →
    before ⊂ last → HolesMet platform holes before

theorem HandedOut.avoids {frame : Nat} (met : MetBetween platform holes used last)
    (handed : HandedOut platform (fun frame => holes.addrInHole frame) used last frame) :
    ¬holes.Intersects frame := by
  obtain ⟨before, after, earlier, outcome, rest⟩ := handed
  have fresh := outcome.fresh
  have strict := (outcome.strict fresh.1 fresh.2.1).trans_subset rest.grows
  exact ((outcome_respects_iff outcome).mpr (met before earlier strict)).1 frame rfl

theorem Requests.accounted (met : MetBetween platform holes used last)
    (requests : Requests platform (fun frame => holes.addrInHole frame) used last) {frame : Nat}
    (member : frame ∈ last) (unused : frame ∉ used) :
    holes.Intersects frame ∨
      HandedOut platform (fun frame => holes.addrInHole frame) used last frame := by
  induction requests with
  | refl => exact absurd member unused
  | tail earlier outcome ih =>
      obtain ⟨result, outcome⟩ := outcome
      rename_i middle later
      by_cases before : frame ∈ middle
      · have metBefore : MetBetween platform holes used middle := fun set reached strict =>
          met set reached (strict.trans_subset outcome.grows)
        rcases ih metBefore before with meets | handed
        · exact Or.inl meets
        · exact Or.inr (handed.after (Relation.ReflTransGen.single ⟨result, outcome⟩))
      · by_cases returned : result = some frame
        · rw [returned] at outcome
          exact Or.inr ⟨middle, later, earlier, outcome, Relation.ReflTransGen.refl⟩
        · have holds := (outcome_respects_iff outcome).mpr
            (met middle earlier (outcome.strict member before))
          exact Or.inl (holds.2 frame member before returned)

end Requests

def MetStep (platform : Platform) (holes : HoleList) (state : AddressSpaceManager)
    (operation : Operation) (next : AddressSpaceManager) : Prop :=
  Step platform state operation next ∧ MetBetween platform holes state.frames next.frames

structure Avoiding (platform : Platform) (holes : HoleList) (state : AddressSpaceManager) :
    Prop where
  reached : Reached platform (MayMapItself platform holes) holes state
  avoids : ∃ owner, WellOwned platform (MayMapItself platform holes) owner state ∧
    ∀ frame role, owner frame = some role → ¬holes.Intersects frame

section Runs

variable {platform : Platform} {holes : HoleList} {state next : AddressSpaceManager}
  {operation : Operation}

theorem Avoiding.step (avoiding : Avoiding platform holes state)
    (step : MetStep platform holes state operation next) : Avoiding platform holes next := by
  obtain ⟨owner, owned, avoids⟩ := avoiding.avoids
  obtain ⟨later, effect⟩ := step_effect avoiding.reached owned step.1
  refine ⟨effect.reached, later, effect.owned, ?_⟩
  intro frame role has
  rcases effect.taken with taken | ⟨_, extended⟩
  · rcases taken.roles frame role has with before | impossible | handed
    · exact avoids frame role before
    · cases impossible
    · exact handed.avoids step.2
  · exact avoids frame role (extended frame role has)

/-- No table of the state meets a hole; leaves may be pages mapped to themselves. -/
theorem Avoiding.tables (avoiding : Avoiding platform holes state) {frame : Nat} {role : Role}
    (has : HasRole state frame role) (inner : ∀ table page, role ≠ .leaf table page) :
    ¬holes.Intersects frame := by
  obtain ⟨owner, owned, avoids⟩ := avoiding.avoids
  cases has with
  | root isLive => exact avoids frame _ (owned.roots frame isLive)
  | node isLive small valid target =>
      rw [← target]
      exact avoids _ _ (owned.nodes _ _ isLive small valid).2
  | leaf => exact absurd rfl (inner _ _)

theorem Avoiding.mapped (avoiding : Avoiding platform holes state)
    (step : MetStep platform holes state operation next) (allocates : operation.allocates = true)
    {newer : List MappingEvent} (history : next.history = newer ++ state.history)
    {table va pa flags : Nat} (member : .mapped table va pa flags ∈ newer) :
    ¬holes.Intersects pa := by
  obtain ⟨owner, owned, _⟩ := avoiding.avoids
  obtain ⟨later, effect⟩ := step_effect avoiding.reached owned step.1
  obtain ⟨same, split, handed⟩ := effect.installed allocates
  rw [split] at history
  rw [← List.append_cancel_right history] at member
  exact (handed table va pa flags member).avoids step.2

theorem Avoiding.kept (avoiding : Avoiding platform holes state)
    (step : MetStep platform holes state operation next) {frame : Nat}
    (member : frame ∈ next.frames) (unused : frame ∉ state.frames) :
    holes.Intersects frame ∨ HandedOut platform (fun frame => holes.addrInHole frame) state.frames
      next.frames frame := by
  obtain ⟨owner, owned, _⟩ := avoiding.avoids
  obtain ⟨later, effect⟩ := step_effect avoiding.reached owned step.1
  rcases effect.taken with taken | ⟨shrunk, _⟩
  · exact taken.requests.accounted step.2 member unused
  · exact absurd (shrunk member) unused

theorem run_avoiding (valid : platform.Valid) {operations : List Operation}
    (run : Trace (MetStep platform holes) (withHoles platform holes) operations state) :
    Avoiding platform holes state := by
  apply run.invariant _ (fun _ _ _ kept step => kept.step step)
  refine ⟨withHoles_reached valid _ holes, fun _ => none, ?_, fun _ _ has => by cases has⟩
  exact withHoles_owned valid _ holes

end Runs

/-- A request respects the holes exactly when they are met in the state before it;
and in a run in which they are met at every request, no table and no page that
is mapped by an allocation meets a hole, and no other frame is kept back. -/
theorem holes_respected {platform : Platform} (valid : platform.Valid) (holes : HoleList) :
    (∀ operations state, Trace (Step platform) (withHoles platform holes) operations state →
        (RespectsHoles state ↔ HolesMet platform holes state.frames)) ∧
      ∀ operations state, Trace (MetStep platform holes) (withHoles platform holes) operations state →
        (∀ frame role, HasRole state frame role → (∀ table page, role ≠ .leaf table page) →
            ¬holes.Intersects frame) ∧
          ∀ operation next, MetStep platform holes state operation next →
            (operation.allocates = true → ∀ newer, next.history = newer ++ state.history →
                ∀ table va pa flags, .mapped table va pa flags ∈ newer → ¬holes.Intersects pa) ∧
              ∀ frame ∈ next.frames, frame ∉ state.frames → holes.Intersects frame ∨
                HandedOut platform (fun frame => holes.addrInHole frame) state.frames next.frames
                  frame := by
  constructor
  · intro operations state run
    have reached := run_reached valid run
    obtain ⟨owner, owned⟩ := reached.owned
    rw [respectsHoles_iff owned.pool, reached.holes]
  · intro operations state run
    have avoiding := run_avoiding valid run
    refine ⟨fun frame role has inner => avoiding.tables has inner, ?_⟩
    intro operation next step
    refine ⟨?_, fun frame member unused => avoiding.kept step member unused⟩
    intro allocates newer history table va pa flags member
    exact avoiding.mapped step allocates history member

section Small

def overlaidPlatform : Platform := { smallPlatform with LMEM_BASE_ADDR := 0x1000 }

/-- The first frame is rejected, and the second one is returned from the same hole. -/
theorem second_frame_in_hole :
    (∃ next, allocateOnePage (new overlaidPlatform 0x2000) = .ok (some 0x2000) next) ∧
      (new overlaidPlatform 0x2000).hole_list_.Intersects 0x2000 ∧
      ¬RespectsHoles (new overlaidPlatform 0x2000) := by
  have inHole : (new overlaidPlatform 0x2000).hole_list_.Intersects 0x2000 :=
    ⟨(0x1000, 0x2000), by decide, 0x2000, by decide, by decide, by decide, by decide⟩
  have ran : ∃ next, allocateOnePage (new overlaidPlatform 0x2000) = .ok (some 0x2000) next :=
    ⟨_, rfl⟩
  refine ⟨ran, inHole, ?_⟩
  intro respects
  obtain ⟨next, ran⟩ := ran
  obtain ⟨result, other, again, avoids, _⟩ := respects
  rw [ran] at again
  cases again
  exact avoids 0x2000 rfl inHole

/-- Local memory over the first half of the first frame, as the address space manager
registers it. -/
def halfFrameHoles : HoleList := (new overlaidPlatform 0x800).hole_list_

theorem halfFrameHoles_iff {frame : Nat} (isFrame : overlaidPlatform.IsFrame frame) :
    (halfFrameHoles.addrInHole frame = true ↔ frame = 0x1000) ∧
      (halfFrameHoles.Intersects frame ↔ frame = 0x1000) := by
  have holes : halfFrameHoles.hole_list_ = [(0x1000, 0x800), (0x40, 0x40)] := rfl
  have stop : add64 0x1000 0x800 = 0x1800 := rfl
  have low : add64 0x40 0x40 = 0x80 := rfl
  obtain ⟨⟨index, position⟩, above, _⟩ := isFrame
  change 0x1000 ≤ frame at above
  constructor
  · rw [HoleList.addrInHole, holes]
    simp only [List.any_cons, List.any_nil, stop, low, Bool.or_false, Bool.or_eq_true,
      Bool.and_eq_true, decide_eq_true_eq]
    omega
  · rw [HoleList.Intersects, holes]
    simp only [List.mem_cons, List.not_mem_nil, or_false, exists_eq_or_imp, exists_eq_left]
    constructor
    · rintro (⟨addr, _, _, _, _⟩ | ⟨addr, _, _, _, _⟩) <;> omega
    · intro first
      exact Or.inl ⟨0x1000, by omega, by omega, by omega, by omega⟩

theorem halfFrameHoles_met (used : Finset Nat) : HolesMet overlaidPlatform halfFrameHoles used := by
  intro first next
  obtain ⟨reported, meets⟩ := halfFrameHoles_iff next.isFrame
  refine ⟨reported.trans meets.symm, fun inside second after again => ?_⟩
  have same := (halfFrameHoles_iff after.isFrame).2.mp again
  apply after.unused
  rw [same, meets.mp inside]
  exact Finset.mem_insert_self _ _

theorem overlaidPlatform_created : ∃ created,
    allocatePageTable (withHoles overlaidPlatform halfFrameHoles) = .ok (some 0x2000) created ∧
      created.history = [.created 0x2000] ∧ created.frames = {0x1000, 0x2000} :=
  ⟨_, rfl, rfl, rfl⟩

theorem overlaidPlatform_valid : overlaidPlatform.Valid where
  basePositive := by decide
  baseAligned := by decide
  pageSize := rfl
  cacheBlock := smallPlatform_valid.cacheBlock
  room := by decide
  narrow := by decide

/-- The first frame meets a hole: it is kept back, and the table is put into the next one.
The page of the second call is put into the frame after it. -/
theorem holes_respected_overlaid : ∃ created mapped,
    Trace (MetStep overlaidPlatform halfFrameHoles) (withHoles overlaidPlatform halfFrameHoles)
        [.allocatePageTable] created ∧
      MetStep overlaidPlatform halfFrameHoles created (.allocateOneVmPage 0x5000 0x2000 PteFlags.R)
        mapped ∧
      halfFrameHoles.Intersects 0x1000 ∧ created.frames = {0x1000, 0x2000} ∧
      mapped.history = [.mapped 0x2000 0x5000 0x3000 PteFlags.R, .created 0x2000] ∧
      RespectsHoles (withHoles overlaidPlatform halfFrameHoles) ∧ RespectsHoles created ∧
      (∀ frame role, HasRole created frame role → (∀ table page, role ≠ .leaf table page) →
        ¬halfFrameHoles.Intersects frame) ∧
      ¬halfFrameHoles.Intersects 0x3000 ∧
      ∀ frame ∈ mapped.frames, frame ∉ created.frames → halfFrameHoles.Intersects frame ∨
        HandedOut overlaidPlatform (fun frame => halfFrameHoles.addrInHole frame) created.frames
          mapped.frames frame := by
  obtain ⟨created, ran, history, frames⟩ := overlaidPlatform_created
  have first : Step overlaidPlatform (withHoles overlaidPlatform halfFrameHoles)
      .allocatePageTable created := ⟨trivial, Or.inl ⟨_, ran⟩⟩
  have setup := Trace.cons first (Trace.nil created)
  have isLive : created.Live 0x2000 := by
    rw [Live, history]
    rfl
  have reached := run_reached overlaidPlatform_valid setup
  obtain ⟨owner, owned⟩ := reached.owned
  have spare : Spare overlaidPlatform (fun frame => created.hole_list_.addrInHole frame)
      created.frames 2 := by
    refine ⟨fun frame isFrame unused => ?_, {0x3000, 0x4000}, by decide, by rw [frames]; decide⟩
    rw [reached.holes, Bool.eq_false_iff]
    intro inHole
    rw [(halfFrameHoles_iff isFrame).1.mp inHole, frames] at unused
    exact unused (by decide)
  obtain ⟨mapped, later, pa, again, _, grown, next, _⟩ :=
    @allocateOneVmPage_returns overlaidPlatform _ owner created 0x2000 0x5000 PteFlags.R 0 owned
      isLive (by decide) (by decide) (by rw [history]; rfl) (@Spare.forNode _ _ _ 0 _ _ _ spare)
  have third : pa = 0x3000 := by
    obtain ⟨isFrame, unused, lowest⟩ := @smallPlatform_next created.frames 2 (by decide)
      (by rw [frames]; decide)
    exact next.unique ⟨isFrame, unused, lowest⟩
  rw [third, history] at grown
  have creates : MetStep overlaidPlatform halfFrameHoles
      (withHoles overlaidPlatform halfFrameHoles) .allocatePageTable created :=
    ⟨first, fun before _ _ => halfFrameHoles_met before⟩
  have steps := Trace.cons creates (Trace.nil created)
  have second : MetStep overlaidPlatform halfFrameHoles created
      (.allocateOneVmPage 0x5000 0x2000 PteFlags.R) mapped :=
    ⟨⟨⟨isLive, by decide, by decide⟩, Or.inl ⟨_, map_ok _ again⟩⟩,
      fun before _ _ => halfFrameHoles_met before⟩
  obtain ⟨requests, runs⟩ := holes_respected overlaidPlatform_valid halfFrameHoles
  obtain ⟨tables, calls⟩ := runs _ _ steps
  obtain ⟨pages, kept⟩ := calls _ _ second
  refine ⟨created, mapped, steps, second, ⟨(0x1000, 0x800), by decide, 0x1000, by decide, by decide,
    by decide, by decide⟩, frames, grown, ?_, ?_, tables, ?_, kept⟩
  · exact (requests _ _ (Trace.nil _)).mpr (halfFrameHoles_met _)
  · exact (requests _ _ setup).mpr (halfFrameHoles_met _)
  · exact pages rfl _ (by rw [grown, history]; rfl) _ _ _ _ (List.mem_singleton_self _)

end Small

end Espiral.AddressSpaceManager
