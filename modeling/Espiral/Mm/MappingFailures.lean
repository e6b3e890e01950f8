import Espiral.Mm.HoleAvoidance
import Espiral.Mm.SpareFrames
import Espiral.Mm.Translation

/-!
# What a failed mapping leaves behind

A call takes the frame for its page before it looks whether the page can be
mapped, and the range version maps its pages one after another. A failure gives
nothing back.
-/

namespace Espiral.AddressSpaceManager

set_option autoImplicit false

open ByteMemory Contracts MachineWords Traces VortexMemoryAllocator

structure Unchanged (state next : AddressSpaceManager) : Prop where
  frames : ∀ frame, state.hole_list_.addrInHole frame = false →
    (frame ∈ next.frames ↔ frame ∈ state.frames)
  translations : ∀ table va, state.Live table → va < 2 ^ 32 →
    next.translated table va = state.translated table va

/-- Neither of the two frames that a request looks at, if there are any, is outside holes. -/
def NothingToTake (platform : Platform) (hole : Nat → Bool) (used : Finset Nat) : Prop :=
  ∀ first, NextFrame platform used first → hole first = true ∧
    ∀ second, NextFrame platform (insert first used) second → hole second = true

/-- One request has taken what it returned, and afterwards only frames in holes were taken. -/
def TakenOnce (platform : Platform) (hole : Nat → Bool) (used last : Finset Nat) : Prop :=
  ∃ result between, PageOutcome platform hole used result between ∧ between ⊆ last ∧
    ∀ frame ∈ last, frame ∉ between → hole frame = true

def OutOfFrames (fault : Fault) : Prop :=
  fault = .runtimeError "Failed to allocate physical page for VM" ∨
    fault = .runtimeError "Failed to allocate page table node"

def MappingFault (fault : Fault) : Prop :=
  OutOfFrames fault ∨ fault = .runtimeError "Virtual address already mapped"

theorem MappingFault.ended {fault : Fault} (failed : MappingFault fault) :
    fault ≠ .nonTermination := by
  intro endless
  rw [endless] at failed
  rcases failed with (impossible | impossible) | impossible <;> cases impossible

section Requests

variable {platform : Platform} {hole : Nat → Bool} {used last otherLast : Finset Nat}
  {result other : Option Nat}

theorem PageOutcome.unique (left : PageOutcome platform hole used result last)
    (right : PageOutcome platform hole used other otherLast) :
    result = other ∧ last = otherLast := by
  cases left with
  | full full =>
      cases right with
      | full _ => exact ⟨rfl, rfl⟩
      | direct next _ => exact absurd next full.no_next
      | discarded next _ _ => exact absurd next full.no_next
      | retried next _ _ => exact absurd next full.no_next
  | direct first outside =>
      cases right with
      | full full => exact absurd first full.no_next
      | direct next _ => exact ⟨congrArg some (first.unique next), by rw [first.unique next]⟩
      | discarded next inside _ =>
          rw [← first.unique next, outside] at inside
          cases inside
      | retried next inside _ =>
          rw [← first.unique next, outside] at inside
          cases inside
  | discarded first inside full =>
      cases right with
      | full full => exact absurd first full.no_next
      | direct next outside =>
          rw [← first.unique next, inside] at outside
          cases outside
      | discarded next _ _ => exact ⟨rfl, by rw [first.unique next]⟩
      | retried next _ after =>
          rw [← first.unique next] at after
          exact absurd after full.no_next
  | retried first inside second =>
      cases right with
      | full full => exact absurd first full.no_next
      | direct next outside =>
          rw [← first.unique next, inside] at outside
          cases outside
      | discarded next _ full =>
          rw [← first.unique next] at full
          exact absurd second full.no_next
      | retried next _ after =>
          rw [← first.unique next] at after ⊢
          exact ⟨congrArg some (second.unique after), by rw [second.unique after]⟩

theorem PageOutcome.none_inside (outcome : PageOutcome platform hole used none last) {frame : Nat}
    (member : frame ∈ last) (unused : frame ∉ used) : hole frame = true := by
  cases outcome with
  | full _ => exact absurd member unused
  | discarded _ inside _ =>
      cases Finset.mem_insert.mp member with
      | inl same =>
          rw [same]
          exact inside
      | inr before => exact absurd before unused

theorem PageOutcome.inside_iff (outcome : PageOutcome platform hole used result last) :
    (∀ frame ∈ last, frame ∉ used → hole frame = true) ↔ NothingToTake platform hole used := by
  cases outcome with
  | full full =>
      constructor
      · intro _ first next
        exact absurd next full.no_next
      · intro _ frame member unused
        exact absurd member unused
  | direct next outside =>
      constructor
      · intro inside
        have impossible := inside _ (Finset.mem_insert_self _ _) next.unused
        rw [outside] at impossible
        cases impossible
      · intro nothing
        have impossible := (nothing _ next).1
        rw [outside] at impossible
        cases impossible
  | discarded next inside full =>
      constructor
      · intro _ first other
        rw [← next.unique other]
        exact ⟨inside, fun second after => absurd after full.no_next⟩
      · intro _ frame member unused
        cases Finset.mem_insert.mp member with
        | inl same =>
            rw [same]
            exact inside
        | inr before => exact absurd before unused
  | retried next inside after =>
      constructor
      · intro allInside first other
        rw [← next.unique other]
        refine ⟨inside, ?_⟩
        intro second again
        rw [← after.unique again]
        apply allInside _ (Finset.mem_insert_self _ _)
        intro before
        exact after.unused (Finset.mem_insert_of_mem before)
      · intro nothing frame member unused
        cases Finset.mem_insert.mp member with
        | inl same =>
            rw [same]
            exact (nothing _ next).2 _ after
        | inr rest =>
            cases Finset.mem_insert.mp rest with
            | inl same =>
                rw [same]
                exact inside
            | inr before => exact absurd before unused

theorem TakenOnce.inside_iff (taken : TakenOnce platform hole used last) :
    (∀ frame, hole frame = false → (frame ∈ last ↔ frame ∈ used)) ↔
      NothingToTake platform hole used := by
  obtain ⟨result, between, outcome, grown, later⟩ := taken
  rw [← outcome.inside_iff]
  constructor
  · intro same frame member unused
    by_contra outside
    exact unused ((same frame (Bool.eq_false_of_not_eq_true outside)).mp (grown member))
  · intro inside frame outside
    constructor
    · intro member
      by_contra unused
      by_cases early : frame ∈ between
      · exact Bool.false_ne_true (outside.symm.trans (inside frame early unused))
      · exact Bool.false_ne_true (outside.symm.trans (later frame member early))
    · intro before
      exact grown (outcome.grows before)

end Requests

section Calls

variable {platform : Platform} {identity : Nat → Prop} {holes : HoleList}
  {owner : Nat → Option Role} {state next : AddressSpaceManager} {root va flags : Nat}
  {fault : Fault}

/-- A page that is mapped already is not mapped again, and no node is created for it. -/
theorem mapAddrInner_mapped (owned : WellOwned platform identity owner state)
    (isLive : state.Live root) (vaBound : va < 2 ^ 32) {pa : Nat}
    (mapped : mapping state.history root (va / 4096) ≠ none) :
    Ensures (mapAddrInner va pa root flags) state (fun _ _ => False)
      (fun _ next => next.frames = state.frames) := by
  have page : leafOf state.view root (va / 4096) ≠ none := by
    rw [owned.maps root (va / 4096) isLive (by omega)]
    exact mapped
  have upper : pteValid (entryAt state.view root (va / 4096 / 1024)) = true := by
    by_contra missing
    rw [leafOf, if_neg missing] at page
    exact page rfl
  unfold mapAddrInner
  apply Ensures.bind
  apply (descend_spec owned isLive vaBound).weaken
  · intro node reached descended
    obtain ⟨later, advanced, history, _, _, withNode, nodeValid, nodeIs⟩ := descended
    rw [WithNode, if_pos upper] at withNode
    have liveNow : reached.Live root := live_of_same history isLive
    have role := (advanced.owned.nodes root _ liveNow (by omega) nodeValid).2
    rw [nodeIs] at role
    have narrow := advanced.owned.narrow (advanced.owned.used node _ role).1
    have lowerSmall : va / 4096 % 1024 < 1024 := Nat.mod_lt _ (by decide)
    rw [vaVpn_zero, entry_address (by omega) lowerSmall]
    obtain ⟨read, ran, same⟩ := @readEntry_run reached node _ (by omega) lowerSmall
    have valid : pteValid (entryAt reached.view node (va / 4096 % 1024)) = true := by
      by_contra invalid
      apply mapped
      rw [← history, ← advanced.owned.maps root (va / 4096) liveNow (by omega), leafOf,
        if_pos nodeValid, nodeIs]
      exact if_neg invalid
    apply ensures_bind_of_run ran
    rw [if_pos valid]
    obtain ⟨reread, ranAgain, sameAgain⟩ := @readEntry_run read node _ (by omega) lowerSmall
    apply ensures_bind_of_run ranAgain
    have rereading := (advanced.owned.sameView same).sameView sameAgain
    have liveThen : reread.Live root :=
      live_of_same (sameAgain.history.trans same.history) liveNow
    obtain ⟨final, walked, sameFinal⟩ := translate_mapping rereading liveThen vaBound
    apply ensures_bind_of_run walked
    apply ensures_throw
    rw [sameFinal.frames, sameAgain.frames, same.frames, withNode]
  · intro _ _ thrown
    rw [upper] at thrown
    cases thrown.2.2.1

theorem allocateOneVmPage_taken (owned : WellOwned platform identity owner state)
    (isLive : state.Live root) (vaBound : va < 2 ^ 32) (readable : flags &&& PteFlags.R ≠ 0)
    (failed : allocateOneVmPage va root flags state = .error fault next) :
    TakenOnce platform (fun frame => state.hole_list_.addrInHole frame) state.frames
      next.frames := by
  have spec := (allocateOneVmPage_spec owned isLive vaBound readable).of_error failed
  obtain ⟨_, _, _, _, refused⟩ := spec
  cases refused with
  | noFrame outcome =>
      exact ⟨none, next.frames, outcome, Finset.Subset.refl _,
        fun frame member away => absurd member away⟩
  | noNode first _ outcome =>
      exact ⟨_, _, first, outcome.grows, fun frame member away => outcome.none_inside member away⟩
  | alreadyMapped mapped =>
      obtain ⟨result, grown, ran, pool, tables, outcome⟩ := allocateOnePage_run owned.pool
      refine ⟨result, grown.frames, outcome, ?_⟩
      rw [allocateOneVmPage, bind_ok ran] at failed
      have same : next.frames = grown.frames := by
        split at failed
        · cases failed
          rfl
        · have growing := owned.allocated pool tables outcome.grows
          rw [← tables.history] at mapped
          exact (mapAddrInner_mapped growing.owned (live_of_same tables.history isLive) vaBound
            mapped).of_error failed
      rw [same]
      exact ⟨Finset.Subset.refl _, fun frame member away => absurd member away⟩

theorem WellOwned.translated_history {later : Nat → Option Role}
    (owned : WellOwned platform identity owner state)
    (nextOwned : WellOwned platform identity later next) (history : next.history = state.history)
    {table addr : Nat} (tableLive : state.Live table) (addrBound : addr < 2 ^ 32) :
    next.translated table addr = state.translated table addr := by
  rw [nextOwned.translated_mapping (live_of_same history tableLive) addrBound,
    owned.translated_mapping tableLive addrBound, history]

theorem allocateOneVmPage_unchanged_iff (owned : WellOwned platform identity owner state)
    (isLive : state.Live root) (vaBound : va < 2 ^ 32) (readable : flags &&& PteFlags.R ≠ 0)
    (failed : allocateOneVmPage va root flags state = .error fault next) :
    Unchanged state next ↔
      NothingToTake platform (fun frame => state.hole_list_.addrInHole frame) state.frames := by
  have taken := allocateOneVmPage_taken owned isLive vaBound readable failed
  obtain ⟨_, advanced, history, _⟩ :=
    (allocateOneVmPage_spec owned isLive vaBound readable).of_error failed
  rw [← taken.inside_iff]
  constructor
  · intro unchanged
    exact unchanged.frames
  · intro frames
    refine ⟨frames, ?_⟩
    intro table addr tableLive addrBound
    exact owned.translated_history advanced.owned history tableLive addrBound

theorem allocateOneVmPage_not_refused (owned : WellOwned platform identity owner state)
    (isLive : state.Live root) (vaBound : va < 2 ^ 32) (readable : flags &&& PteFlags.R ≠ 0)
    (ran : allocateOneVmPage va root flags state = .ok () next) :
    ¬∃ last, Refused platform state root va last := by
  obtain ⟨_, pa, _, _, unmapped, _, ⟨between, outcome, withNode⟩, _⟩ :=
    (allocateOneVmPage_spec owned isLive vaBound readable).of_ok ran
  intro refused
  obtain ⟨last, refused⟩ := refused
  cases refused with
  | noFrame without => cases (outcome.unique without).1
  | noNode first missing without =>
      rw [← (outcome.unique first).2] at without
      rw [WithNode, if_neg (ne_of_eq_of_ne missing Bool.false_ne_true)] at withNode
      obtain ⟨node, created⟩ := withNode
      cases (created.unique without).1
  | alreadyMapped mapped => exact mapped unmapped

structure StillMapped (platform : Platform) (identity : Nat → Prop) (root page : Nat)
    (state : AddressSpaceManager) : Prop where
  owned : ∃ owner, WellOwned platform identity owner state
  isLive : state.Live root
  mapped : mapping state.history root page ≠ none

theorem StillMapped.call {page : Nat} (still : StillMapped platform identity root page state)
    (vaBound : va < 2 ^ 32) (readable : flags &&& PteFlags.R ≠ 0) :
    Ensures (allocateOneVmPage va root flags) state
      (fun _ next => StillMapped platform identity root page next)
      (fun _ next => StillMapped platform identity root page next) := by
  obtain ⟨owner, owned⟩ := still.owned
  apply (allocateOneVmPage_spec owned still.isLive vaBound readable).weaken
  · intro _ next outcome
    obtain ⟨later, pa, advanced, history, _⟩ := outcome
    refine ⟨⟨later, advanced.owned⟩, live_of_mapped history still.isLive, ?_⟩
    rw [history, mapping]
    split
    · exact Option.some_ne_none _
    · exact still.mapped
  · intro _ next outcome
    obtain ⟨later, advanced, history, _⟩ := outcome
    refine ⟨⟨later, advanced.owned⟩, live_of_same history still.isLive, ?_⟩
    rw [history]
    exact still.mapped

theorem allocateVmPages_unchanged_iff {size : Nat} (owned : WellOwned platform identity owner state)
    (isLive : state.Live root) (vaBound : va < 2 ^ 32) (readable : flags &&& PteFlags.R ≠ 0)
    (failed : allocateVmPages va size root flags state = .error fault next) :
    Unchanged state next ↔ (∃ last, Refused platform state root va last) ∧
      NothingToTake platform (fun frame => state.hole_list_.addrInHole frame) state.frames := by
  have fuel : pageLoopFuel = 2 ^ 20 + 1 + 1 := rfl
  have here : wrap32 (va + 0) = va := wrap32_of_lt vaBound
  rw [allocateVmPages, fuel, forPages] at failed
  by_cases some : 0 < size
  · rw [if_pos some, here] at failed
    cases first : allocateOneVmPage va root flags state with
    | error firstFault firstNext =>
        rw [bind_error first] at failed
        cases failed
        obtain ⟨_, _, _, _, refused⟩ :=
          (allocateOneVmPage_spec owned isLive vaBound readable).of_error first
        rw [allocateOneVmPage_unchanged_iff owned isLive vaBound readable first]
        exact ⟨fun nothing => ⟨⟨_, refused⟩, nothing⟩, fun both => both.2⟩
    | ok value firstNext =>
        rw [bind_ok first] at failed
        obtain ⟨later, pa, advanced, history, unmapped, _⟩ :=
          (allocateOneVmPage_spec owned isLive vaBound readable).of_ok first
        have start : StillMapped platform identity root (va / 4096) firstNext := by
          refine ⟨⟨later, advanced.owned⟩, live_of_mapped history isLive, ?_⟩
          rw [history, mapping, if_pos ⟨rfl, rfl⟩]
          exact Option.some_ne_none _
        have still := (@forPages_keeps (StillMapped platform identity root (va / 4096)) size
          (fun offset => allocateOneVmPage (wrap32 (va + offset)) root flags)
          (fun offset now _ _ kept => kept.call (wrap32_lt _) readable) (2 ^ 20 + 1)
          (wrap32 (0 + PAGE_SIZE)) firstNext (wrap32_page_aligned (Nat.dvd_zero 4096))
          start).of_error failed
        constructor
        · intro unchanged
          exfalso
          obtain ⟨lastOwner, lastOwned⟩ := still.owned
          have same := unchanged.translations root va isLive vaBound
          rw [owned.translated_mapping isLive vaBound, unmapped,
            lastOwned.translated_mapping still.isLive vaBound, Option.map_none,
            Option.map_eq_none_iff] at same
          exact still.mapped same
        · intro refused
          exact absurd refused.1
            (allocateOneVmPage_not_refused owned isLive vaBound readable first)
  · rw [if_neg some] at failed
    cases failed

end Calls

section Faults

variable {platform : Platform} {state : AddressSpaceManager} {root va flags : Nat}

theorem descend_faults (pool : FramePool platform state.page_allocator_) :
    Ensures (descend va (PT_LEVELS - 1) root) state (fun _ _ => True)
      (fun fault _ => OutOfFrames fault) := by
  have levels : PT_LEVELS - 1 = 0 + 1 := rfl
  obtain ⟨pte, read, _, ran, _, kept, _⟩ := @readPte_bytes state state (fun _ => rfl)
    (wrap32 (root + vaVpn va (0 + 1) * PTE_SIZE))
  rw [levels, descend]
  apply ensures_bind_of_run ran
  split
  · have readPool : FramePool platform read.page_allocator_ := by
      rw [kept.allocator]
      exact pool
    obtain ⟨result, grown, allocated, _⟩ := allocatePageTableNode_run readPool
    apply ensures_bind_of_run allocated
    cases result with
    | none => exact ensures_throw (Or.inr rfl)
    | some node => exact ensures_of_run rfl trivial
  · exact ensures_pure trivial

/-- There is no other exception than these three. -/
theorem allocateOneVmPage_faults (pool : FramePool platform state.page_allocator_) :
    Ensures (allocateOneVmPage va root flags) state (fun _ _ => True)
      (fun fault _ => MappingFault fault) := by
  obtain ⟨result, grown, ran, grownPool, _⟩ := allocateOnePage_run pool
  rw [allocateOneVmPage]
  apply ensures_bind_of_run ran
  change Ensures (if result.getD 0 = 0 then _ else _) grown _ _
  split
  · exact ensures_throw (Or.inl (Or.inl rfl))
  · unfold mapAddrInner
    apply Ensures.bind
    apply (descend_faults grownPool).weaken
    · intro node reached _
      obtain ⟨pte, read, _, readRan, _⟩ := @readPte_bytes reached reached (fun _ => rfl)
        (wrap32 (node + vaVpn va 0 * PTE_SIZE))
      apply ensures_bind_of_run readRan
      split
      · obtain ⟨_, reread, _, rereadRan, _⟩ := @readPte_bytes read read (fun _ => rfl)
          (wrap32 (node + vaVpn va 0 * PTE_SIZE))
        apply ensures_bind_of_run rereadRan
        obtain ⟨_, translatedRan, _⟩ := translate_returns reread root va
        apply ensures_bind_of_run translatedRan
        exact ensures_throw (Or.inr rfl)
      · exact ensures_of_run rfl trivial
    · intro _ _ outOfFrames
      exact Or.inl outOfFrames

end Faults

/-- After any run, a failed call leaves everything as it was exactly when it had no frame
to take for its page, and a failed range exactly when that was so for its first page. -/
theorem failures_unchanged_iff {platform : Platform} (valid : platform.Valid) (localMemSize : Nat)
    {operations : List Operation} {state : AddressSpaceManager}
    (run : Trace (Step platform) (new platform localMemSize) operations state)
    {root va flags : Nat} (isLive : state.Live root) (vaBound : va < 2 ^ 32)
    (readable : flags &&& PteFlags.R ≠ 0) :
    (∀ fault next, allocateOneVmPage va root flags state = .error fault next →
        (Unchanged state next ↔
          NothingToTake platform (fun frame => state.hole_list_.addrInHole frame)
            state.frames)) ∧
      ∀ size fault next, allocateVmPages va size root flags state = .error fault next →
        (Unchanged state next ↔ (∃ last, Refused platform state root va last) ∧
          NothingToTake platform (fun frame => state.hole_list_.addrInHole frame)
            state.frames) := by
  rw [new_withHoles] at run
  obtain ⟨owner, owned⟩ := (run_reached valid run).owned
  constructor
  · intro fault next failed
    exact allocateOneVmPage_unchanged_iff owned isLive vaBound readable failed
  · intro size fault next failed
    exact allocateVmPages_unchanged_iff owned isLive vaBound readable failed

section Small

theorem smallPlatform_again : ∃ state : AddressSpaceManager,
    Trace (Step smallPlatform) (new smallPlatform 0)
        [.allocatePageTable, .allocateOneVmPage 0x5000 0x1000 PteFlags.R] state ∧
      state.Live 0x1000 ∧ mapping state.history 0x1000 (0x5000 / 4096) ≠ none ∧
      Spare smallPlatform (fun frame => state.hole_list_.addrInHole frame) state.frames 1 := by
  obtain ⟨created, run, _, history, _, isLive, spare⟩ := smallPlatform_table
  obtain ⟨owner, owned⟩ := (run_reached smallPlatform_valid run).owned
  obtain ⟨state, later, pa, ran, advanced, grown, _, _, left⟩ := @allocateOneVmPage_returns _ _
    owner created 0x1000 0x5000 PteFlags.R 1 owned isLive (by decide) (by decide)
    (by rw [history]; rfl) spare.forNode
  have step : Step smallPlatform created (.allocateOneVmPage 0x5000 0x1000 PteFlags.R) state :=
    ⟨⟨isLive, by decide, by decide⟩, Or.inl ⟨_, map_ok _ ran⟩⟩
  refine ⟨state, run.snoc step, live_of_mapped grown isLive, ?_, ?_⟩
  · rw [grown, mapping, if_pos ⟨rfl, rfl⟩]
    exact Option.some_ne_none _
  · rw [advanced.holes]
    exact left

/-- The second call throws and keeps the frame that it took for its page. -/
theorem frame_lost : ∃ state next : AddressSpaceManager, ∃ fault,
    Trace (Step smallPlatform) (new smallPlatform 0)
        [.allocatePageTable, .allocateOneVmPage 0x5000 0x1000 PteFlags.R] state ∧
      state.Live 0x1000 ∧
      allocateOneVmPage 0x5000 0x1000 PteFlags.R state = .error fault next ∧
      (∃ frame ∈ next.frames, frame ∉ state.frames ∧
        state.hole_list_.addrInHole frame = false) ∧ ¬Unchanged state next := by
  obtain ⟨state, run, isLive, mapped, spare⟩ := smallPlatform_again
  obtain ⟨owner, owned⟩ := (run_reached smallPlatform_valid run).owned
  have spec := @allocateOneVmPage_spec _ _ owner state 0x1000 0x5000 owned isLive (by decide)
    PteFlags.R (by decide)
  cases ensures_iff.mp spec with
  | inl returned =>
      obtain ⟨_, _, _, _, _, _, _, unmapped, _⟩ := returned
      exact absurd unmapped mapped
  | inr thrown =>
      obtain ⟨fault, next, failed, _⟩ := thrown
      obtain ⟨result, between, outcome, grown, _⟩ :=
        @allocateOneVmPage_taken _ _ owner state next 0x1000 0x5000 PteFlags.R fault owned isLive
          (by decide) (by decide) failed
      obtain ⟨⟨frame, _, first, taken⟩, _⟩ := spare.request outcome
      have member : frame ∈ next.frames := by
        apply grown
        rw [taken]
        exact Finset.mem_insert_self _ _
      have outside := spare.outside frame first.isFrame first.unused
      refine ⟨state, next, fault, run, isLive, failed, ⟨frame, member, first.unused, outside⟩, ?_⟩
      intro unchanged
      exact first.unused ((unchanged.frames frame outside).mp member)

theorem failures_unchanged_iff_again : ∃ state : AddressSpaceManager,
    Trace (Step smallPlatform) (new smallPlatform 0)
        [.allocatePageTable, .allocateOneVmPage 0x5000 0x1000 PteFlags.R] state ∧
      (∀ fault next, allocateOneVmPage 0x5000 0x1000 PteFlags.R state = .error fault next →
          (Unchanged state next ↔
            NothingToTake smallPlatform (fun frame => state.hole_list_.addrInHole frame)
              state.frames)) ∧
        ∀ size fault next,
          allocateVmPages 0x5000 size 0x1000 PteFlags.R state = .error fault next →
            (Unchanged state next ↔ (∃ last, Refused smallPlatform state 0x1000 0x5000 last) ∧
              NothingToTake smallPlatform (fun frame => state.hole_list_.addrInHole frame)
                state.frames) := by
  obtain ⟨state, run, isLive, _⟩ := smallPlatform_again
  exact ⟨state, run,
    failures_unchanged_iff smallPlatform_valid 0 run isLive (by decide) (by decide)⟩

end Small

end Espiral.AddressSpaceManager
