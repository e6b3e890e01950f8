import Mathlib.Logic.Relation
import Espiral.Mm.AddressSpaceRuns
import Espiral.Mm.LockedCalls
import Espiral.Mm.Translation

/-!
# Calls that nobody interrupts

The steps of one call, taken one after the other, are the call of the source.
This is what connects the interleaved calls to the operations they are cut from.
-/

namespace Espiral.AddressSpaceManager

set_option autoImplicit false

open ByteMemory Contracts Interleavings MachineWords Traces VortexMemoryAllocator

section Alone

def Alone (point : Point) (state : AddressSpaceManager) (after : Point)
    (next : AddressSpaceManager) : Prop :=
  Relation.ReflTransGen
    (fun first second : Point × AddressSpaceManager =>
      advance first.1 first.2 = .ok (.to second.1) second.2) (point, state) (after, next)

def Finishes (point : Point) (state : AddressSpaceManager)
    (outcome : Except Fault (Option Nat)) (next : AddressSpaceManager) : Prop :=
  ∃ last before, Alone point state last before ∧ advance last before = .ok (.ended outcome) next

variable {platform : Platform} {state middle next : AddressSpaceManager} {point after last : Point}
  {outcome : Except Fault (Option Nat)}

theorem Alone.refl (point : Point) (state : AddressSpaceManager) : Alone point state point state :=
  Relation.ReflTransGen.refl

theorem Alone.trans (left : Alone point state after middle) (right : Alone after middle last next) :
    Alone point state last next := Relation.ReflTransGen.trans left right

theorem alone_step (moved : advance point state = .ok (.to after) next) :
    Alone point state after next := Relation.ReflTransGen.single moved

theorem Alone.finishes (left : Alone point state after middle)
    (right : Finishes after middle outcome next) : Finishes point state outcome next := by
  obtain ⟨last, before, steps, ended⟩ := right
  exact ⟨last, before, left.trans steps, ended⟩

theorem finishes_step (moved : advance point state = .ok (.ended outcome) next) :
    Finishes point state outcome next := ⟨point, state, Alone.refl point state, moved⟩

theorem alone_asking (pool : FramePool platform state.page_allocator_) (request : Request) :
    ∃ result next, allocateOnePage state = .ok result next ∧
      FramePool platform next.page_allocator_ ∧
      Alone (.asking request) state (.granted request (result.getD 0)) next := by
  obtain ⟨result, first, ran, firstPool, same, outcome⟩ := allocate_run pool
  rcases outcome with ⟨frame, resultIs, _, _⟩ | ⟨resultIs, _, _⟩
  · rw [resultIs] at ran
    cases inHole : state.hole_list_.addrInHole frame with
    | false =>
        have test : addrInHole frame first = .ok false first := by
          rw [addrInHole, same.holes, inHole]
        refine ⟨some frame, first, ?_, firstPool, alone_step ?_⟩
        · rw [allocateOnePage, bind_ok ran]
          simp only
          rw [bind_ok test]
          rfl
        · rw [advance, bind_ok ran]
          simp only
          rw [bind_ok test]
          rfl
    | true =>
        have test : addrInHole frame first = .ok true first := by
          rw [addrInHole, same.holes, inHole]
        obtain ⟨again, second, reran, secondPool, _, _⟩ := allocate_run firstPool
        have moved : advance (.asking request) state = .ok (.to (.askingAgain request)) first := by
          rw [advance, bind_ok ran]
          simp only
          rw [bind_ok test]
          rfl
        have movedAgain : advance (.askingAgain request) first =
            .ok (.to (.granted request (again.getD 0))) second := by
          rw [advance, bind_ok reran]
          rfl
        refine ⟨again, second, ?_, secondPool, (alone_step moved).trans (alone_step movedAgain)⟩
        rw [allocateOnePage, bind_ok ran]
        simp only
        rw [bind_ok test]
        exact reran
  · rw [resultIs] at ran
    refine ⟨none, first, ?_, firstPool, alone_step ?_⟩
    · rw [allocateOnePage, bind_ok ran]
      rfl
    · rw [advance, bind_ok ran]
      rfl

theorem alone_pageTable (pool : FramePool platform state.page_allocator_) :
    ∃ result next, allocatePageTable state = .ok result next ∧
      Finishes (.asking .pageTable) state (.ok result) next := by
  obtain ⟨result, granted, ran, _, steps⟩ := alone_asking pool .pageTable
  have asked : allocatePageTableNode state =
      .ok (if result.getD 0 ≠ 0 then some (result.getD 0) else none) granted := by
    rw [allocatePageTableNode, bind_ok ran]
    rfl
  by_cases found : result.getD 0 ≠ 0
  · rw [if_pos found] at asked
    have zeroed : ∃ next, writeScratchpad (result.getD 0) zeroNode granted = .ok () next := ⟨_, rfl⟩
    obtain ⟨next, wrote⟩ := zeroed
    refine ⟨some (result.getD 0),
      { next with history := .created (result.getD 0) :: next.history }, ?_,
      steps.finishes (finishes_step ?_)⟩
    · rw [allocatePageTable, bind_ok asked]
      simp only
      rw [bind_ok wrote]
      rfl
    · rw [advance, if_pos found, bind_ok wrote]
      rfl
  · rw [if_neg found] at asked
    refine ⟨none, granted, ?_, steps.finishes (finishes_step ?_)⟩
    · rw [allocatePageTable, bind_ok asked]
      rfl
    · rw [advance, if_neg found]
      rfl

theorem readPte_pool (addr : Nat) : ∃ pte read, readPte addr state = .ok pte read ∧
    read.page_allocator_ = state.page_allocator_ := by
  obtain ⟨data, read, ran, same⟩ := @readScratchpad_only state addr PTE_SIZE
  refine ⟨ofLittleEndian data, read, ?_, same.allocator⟩
  rw [readPte, bind_ok ran]
  rfl

theorem alone_descending (map : Mapping) {level current_pa : Nat}
    (pool : FramePool platform state.page_allocator_) :
    Ensures (descend map.va level current_pa) state
      (fun node next => Alone (.descending map level current_pa) state (.descending map 0 node) next)
      (fun fault next => Finishes (.descending map level current_pa) state (.error fault) next) := by
  induction level generalizing current_pa state with
  | zero => exact ensures_pure (Alone.refl _ _)
  | succ level ih =>
      obtain ⟨pte, read, ran, same⟩ := @readPte_pool state
        (wrap32 (current_pa + vaVpn map.va (level + 1) * PTE_SIZE))
      have readPool : FramePool platform read.page_allocator_ := by
        rw [same]
        exact pool
      rw [descend]
      apply ensures_bind_of_run ran
      cases valid : pteValid pte with
      | true =>
          have moved : advance (.descending map (level + 1) current_pa) state =
              .ok (.to (.descending map level (ptePa pte))) read := by
            rw [advance, bind_ok ran, valid]
            rfl
          apply (ih readPool).weaken
          · intro _ _ steps
            exact (alone_step moved).trans steps
          · intro _ _ finishes
            exact (alone_step moved).finishes finishes
      | false =>
          have moved : advance (.descending map (level + 1) current_pa) state =
              .ok (.to (.asking (.node map level current_pa))) read := by
            rw [advance, bind_ok ran, valid]
            rfl
          obtain ⟨result, granted, asked, grantedPool, steps⟩ :=
            alone_asking readPool (.node map level current_pa)
          have node : allocatePageTableNode read =
              .ok (if result.getD 0 ≠ 0 then some (result.getD 0) else none) granted := by
            rw [allocatePageTableNode, bind_ok asked]
            rfl
          apply ensures_bind_of_run node
          by_cases found : result.getD 0 ≠ 0
          · rw [if_pos found]
            have linked : ∃ zeroed written,
                writeScratchpad (result.getD 0) zeroNode granted = .ok () zeroed ∧
                  writePte (wrap32 (current_pa + vaVpn map.va (level + 1) * PTE_SIZE))
                    (makePte (result.getD 0) PteFlags.V) zeroed = .ok () written ∧
                  written.page_allocator_ = granted.page_allocator_ := ⟨_, _, rfl, rfl, rfl⟩
            obtain ⟨zeroed, written, wroteZeros, wroteLink, sameAllocator⟩ := linked
            have writtenPool : FramePool platform written.page_allocator_ := by
              rw [sameAllocator]
              exact grantedPool
            have links : advance (.granted (.node map level current_pa) (result.getD 0)) granted =
                .ok (.to (.descending map level (ptePa (makePte (result.getD 0) PteFlags.V))))
                  written := by
              rw [advance, if_pos found, bind_ok wroteZeros]
              exact bind_ok wroteLink
            have lead := ((alone_step moved).trans steps).trans (alone_step links)
            apply ensures_bind_of_run wroteZeros
            apply ensures_bind_of_run wroteLink
            apply (ih writtenPool).weaken
            · intro _ _ rest
              exact lead.trans rest
            · intro _ _ finishes
              exact lead.finishes finishes
          · rw [if_neg found]
            apply ensures_throw
            refine ((alone_step moved).trans steps).finishes (finishes_step ?_)
            rw [advance, if_neg found]
            rfl

theorem alone_mapping (map : Mapping) (pool : FramePool platform state.page_allocator_) :
    Ensures (mapAddrInner map.va map.pa map.root map.flags) state
      (fun _ next => Finishes (.mapping map) state (.ok none) next)
      (fun fault next => Finishes (.mapping map) state (.error fault) next) := by
  have begun : Alone (.mapping map) state (.descending map (PT_LEVELS - 1) map.root) state :=
    alone_step rfl
  rw [mapAddrInner]
  apply Ensures.bind
  apply (alone_descending map pool).weaken
  · intro node reached steps
    obtain ⟨existing, read, ran, _⟩ := @readPte_pool reached (wrap32 (node + vaVpn map.va 0 * PTE_SIZE))
    apply ensures_bind_of_run ran
    cases valid : pteValid existing with
    | true =>
        have reports : advance (.descending map 0 node) reached =
            .ok (.to (.reporting map (wrap32 (node + vaVpn map.va 0 * PTE_SIZE)))) read := by
          rw [advance, bind_ok ran, valid]
          rfl
        obtain ⟨again, reread, ranAgain, _⟩ :=
          @readPte_pool read (wrap32 (node + vaVpn map.va 0 * PTE_SIZE))
        obtain ⟨translated, ranTranslate, _⟩ := translate_returns reread map.root map.va
        apply ensures_bind_of_run ranAgain
        apply ensures_bind_of_run ranTranslate
        apply ensures_throw
        have looksUp : advance (.reporting map (wrap32 (node + vaVpn map.va 0 * PTE_SIZE))) read =
            .ok (.to (.translating map)) reread := by
          rw [advance, bind_ok ranAgain]
          rfl
        refine (((begun.trans steps).trans (alone_step reports)).trans (alone_step looksUp)).finishes
          (finishes_step ?_)
        rw [advance, bind_ok ranTranslate]
        rfl
    | false =>
        have written : ∃ written, writePte (wrap32 (node + vaVpn map.va 0 * PTE_SIZE))
            (makePte map.pa (map.flags ||| PteFlags.V ||| PteFlags.A ||| PteFlags.D)) read =
              .ok () written := ⟨_, rfl⟩
        obtain ⟨written, wrote⟩ := written
        apply ensures_bind_of_run wrote
        apply ensures_of_run (record_run _)
        refine (begun.trans steps).finishes (finishes_step ?_)
        rw [advance, bind_ok ran, valid]
        exact bind_ok wrote
  · intro _ _ finishes
    exact begun.finishes finishes

theorem alone_vmPage {va root flags : Nat} (pool : FramePool platform state.page_allocator_) :
    Ensures (allocateOneVmPage va root flags) state
      (fun _ next => Finishes (.asking (.vmPage va root flags)) state (.ok none) next)
      (fun fault next => Finishes (.asking (.vmPage va root flags)) state (.error fault) next) := by
  obtain ⟨result, granted, ran, grantedPool, steps⟩ := alone_asking pool (.vmPage va root flags)
  rw [allocateOneVmPage]
  apply ensures_bind_of_run ran
  by_cases missing : result.getD 0 = 0
  · rw [if_pos missing]
    apply ensures_throw
    refine steps.finishes (finishes_step ?_)
    rw [advance, if_pos missing]
    rfl
  · rw [if_neg missing]
    have begins : advance (.granted (.vmPage va root flags) (result.getD 0)) granted =
        .ok (.to (.mapping ⟨va, result.getD 0, root, flags⟩)) granted := by
      rw [advance, if_neg missing]
      rfl
    apply (alone_mapping ⟨va, result.getD 0, root, flags⟩ grantedPool).weaken
    · intro _ _ finishes
      exact (steps.trans (alone_step begins)).finishes finishes
    · intro _ _ finishes
      exact (steps.trans (alone_step begins)).finishes finishes

/-- The loop over the entries of a node, if each entry leads past what it stands for. -/
theorem alone_entries {level : Nat} {page_data : List UInt8} (rest : List Pending)
    (entry : ∀ index current, FramePool platform current.page_allocator_ →
      pteValid (pteIn page_data index) = true → ∀ later,
        Ensures (if !pteIsLeaf (pteIn page_data index) then
            freePageTableInner level (ptePa (pteIn page_data index))
          else releaseOnePage (ptePa (pteIn page_data index))) current
          (fun _ next => FramePool platform next.page_allocator_ ∧
            Alone (.freeing (entryPending level (pteIn page_data index) :: later)) current
              (.freeing later) next)
          (fun _ _ => False))
    (indices : List Nat) {current : AddressSpaceManager}
    (pool : FramePool platform current.page_allocator_) :
    Ensures (indices.forM fun index => do
        let pte := pteIn page_data index
        if pteValid pte then
          if !pteIsLeaf pte then freePageTableInner level (ptePa pte)
          else releaseOnePage (ptePa pte)
        else pure ()) current
      (fun _ next => FramePool platform next.page_allocator_ ∧
        Alone (.freeing (entriesPending level page_data indices ++ rest)) current (.freeing rest) next)
      (fun _ _ => False) := by
  induction indices generalizing current with
  | nil => exact ensures_pure ⟨pool, Alone.refl _ _⟩
  | cons index indices ih =>
      apply Ensures.bind
      cases valid : pteValid (pteIn page_data index) with
      | false =>
          simp only [valid, Bool.false_eq_true, if_false]
          apply ensures_pure
          have pending : entriesPending level page_data (index :: indices) =
              entriesPending level page_data indices := by
            simp only [entriesPending, List.filterMap_cons, valid, Bool.false_eq_true, if_false]
          rw [pending]
          exact ih pool
      | true =>
          simp only [valid, if_true]
          apply (entry index current pool valid (entriesPending level page_data indices ++ rest)).weaken
          · intro _ next done
            have pending : entriesPending level page_data (index :: indices) =
                entryPending level (pteIn page_data index) ::
                  entriesPending level page_data indices := by
              simp only [entriesPending, List.filterMap_cons, valid, if_true]
            rw [pending]
            apply (ih done.1).weaken
            · intro _ _ last
              exact ⟨last.1, done.2.trans last.2⟩
            · intro _ _ impossible
              exact impossible
          · intro _ _ impossible
            exact impossible

theorem alone_page (addr : Nat) (rest : List Pending)
    (pool : FramePool platform state.page_allocator_) :
    Ensures (releaseOnePage addr) state
      (fun _ next => FramePool platform next.page_allocator_ ∧
        Alone (.freeing (.page addr :: rest)) state (.freeing rest) next) (fun _ _ => False) := by
  obtain ⟨next, ran, nextPool, _, _⟩ := releaseOnePage_run pool addr
  apply ensures_of_run ran
  refine ⟨nextPool, alone_step ?_⟩
  rw [advance, bind_ok ran]
  rfl

theorem alone_freeing {level pa : Nat} (rest : List Pending)
    (pool : FramePool platform state.page_allocator_) :
    Ensures (freePageTableInner level pa) state
      (fun _ next => FramePool platform next.page_allocator_ ∧
        Alone (.freeing (.node level pa :: rest)) state (.freeing rest) next) (fun _ _ => False) := by
  induction level generalizing pa rest state with
  | zero => exact ensures_pure ⟨pool, alone_step rfl⟩
  | succ level ih =>
      obtain ⟨page_data, read, ran, same⟩ := @readScratchpad_only state pa PAGE_SIZE
      have readPool : FramePool platform read.page_allocator_ := by
        rw [same.allocator]
        exact pool
      have opens : advance (.freeing (.node (level + 1) pa :: rest)) state =
          .ok (.to (.freeing (entriesPending level page_data entryIndices ++ .page pa :: rest)))
            read := by
        rw [advance, bind_ok ran]
        rfl
      rw [freePageTableInner]
      apply ensures_bind_of_run ran
      apply Ensures.bind
      have entry : ∀ index current, FramePool platform current.page_allocator_ →
          pteValid (pteIn page_data index) = true → ∀ later,
            Ensures (if !pteIsLeaf (pteIn page_data index) then
                freePageTableInner level (ptePa (pteIn page_data index))
              else releaseOnePage (ptePa (pteIn page_data index))) current
              (fun _ next => FramePool platform next.page_allocator_ ∧
                Alone (.freeing (entryPending level (pteIn page_data index) :: later)) current
                  (.freeing later) next)
              (fun _ _ => False) := by
        intro index current currentPool _ later
        cases isLeaf : pteIsLeaf (pteIn page_data index) with
        | false =>
            simp only [entryPending, isLeaf, Bool.not_false, if_true]
            exact ih later currentPool
        | true =>
            simp only [entryPending, isLeaf, Bool.not_true, Bool.false_eq_true, if_false]
            exact alone_page _ later currentPool
      apply (alone_entries (.page pa :: rest) entry entryIndices readPool).weaken
      · intro _ emptied done
        apply (alone_page pa rest done.1).weaken
        · intro _ _ last
          exact ⟨last.1, ((alone_step opens).trans done.2).trans last.2⟩
        · intro _ _ impossible
          exact impossible
      · intro _ _ impossible
        exact impossible

def OffHistory {Value : Type} (action : Action AddressSpaceManager Value) : Prop :=
  ∀ state history, action { state with history := history } =
    match action state with
    | .ok value next => .ok value { next with history := history }
    | .error fault next => .error fault { next with history := history }

section History

variable {Value Result : Type} {action : Action AddressSpaceManager Value}

theorem OffHistory.run (off : OffHistory action) {value : Value}
    (ran : action state = .ok value next) (history : List MappingEvent) :
    action { state with history := history } = .ok value { next with history := history } := by
  rw [off state history, ran]

theorem OffHistory.kept (off : OffHistory action) {value : Value}
    (ran : action state = .ok value next) : next.history = state.history := by
  have again := off.run ran state.history
  rw [show ({ state with history := state.history } : AddressSpaceManager) = state from rfl, ran]
    at again
  injection again with _ same
  rw [same]

theorem offHistory_bind {continuation : Value → Action AddressSpaceManager Result}
    (first : OffHistory action) (rest : ∀ value, OffHistory (continuation value)) :
    OffHistory (action >>= continuation) := by
  intro state history
  simp only [bind, EStateM.bind, first state history]
  cases action state with
  | ok value next => exact rest value next history
  | error fault next => rfl

theorem offHistory_forM {Item : Type} {body : Item → Action AddressSpaceManager PUnit}
    (each : ∀ item, OffHistory (body item)) (items : List Item) : OffHistory (items.forM body) := by
  induction items with
  | nil => exact fun _ _ => rfl
  | cons item rest ih => exact offHistory_bind (each item) fun _ => ih

theorem readScratchpad_offHistory (addr size : Nat) : OffHistory (readScratchpad addr size) := by
  intro state history
  simp only [readScratchpad]

theorem releaseOnePage_offHistory (addr : Nat) : OffHistory (releaseOnePage addr) := by
  apply offHistory_bind
  · exact fun _ _ => rfl
  · intro inHole
    split
    · exact fun _ _ => rfl
    · apply offHistory_bind
      · intro state history
        simp only [onAllocator]
        cases VortexMemoryAllocator.release addr state.page_allocator_ with
        | ok _ _ => rfl
        | error _ _ => rfl
      · exact fun _ _ _ => rfl

theorem freePageTableInner_offHistory (level pa : Nat) : OffHistory (freePageTableInner level pa) := by
  induction level generalizing pa with
  | zero => exact fun _ _ => rfl
  | succ level ih =>
      apply offHistory_bind
      · exact readScratchpad_offHistory pa PAGE_SIZE
      · intro page_data
        apply offHistory_bind
        · apply offHistory_forM
          intro index
          simp only
          split
          · split
            · exact ih _
            · exact releaseOnePage_offHistory _
          · exact fun _ _ => rfl
        · exact fun _ => releaseOnePage_offHistory pa

/-- What the history is makes no difference to a release, so it can be recorded first. -/
theorem alone_freePageTable {root : Nat} (pool : FramePool platform state.page_allocator_) :
    ∃ next, freePageTable root state = .ok () next ∧
      Finishes (.freeing [.node PT_LEVELS root])
        { state with history := .freed root :: state.history } (.ok none) next := by
  have released := @alone_freeing platform state PT_LEVELS root [] pool
  rcases ensures_iff.mp released with ⟨_, last, ran, _, _⟩ | ⟨_, _, _, impossible⟩
  · have off := freePageTableInner_offHistory PT_LEVELS root
    have same := off.kept ran
    have recorded := off.run ran (.freed root :: state.history)
    have again := @alone_freeing platform { state with history := .freed root :: state.history }
      PT_LEVELS root [] pool
    have steps := (again.of_ok recorded).2
    refine ⟨{ last with history := .freed root :: state.history }, ?_, steps.finishes (finishes_step rfl)⟩
    rw [freePageTable, bind_ok ran, record_run, same]
  · exact impossible.elim

end History

section Worlds

variable {Thread : Type} [DecidableEq Thread] {thread : Thread} {world : Threads Thread}

def ownLock (thread : Thread) (point : Point) : Option Thread :=
  if point.locks then some thread else none

omit [DecidableEq Thread] in
theorem ownLock_ready (thread : Thread) (point : Point) :
    Ready thread (ownLock thread point) point := by
  intro _
  unfold ownLock
  split
  · exact Or.inr rfl
  · exact Or.inl rfl

theorem lockAfter_ownLock (thread : Thread) (point after : Point) :
    lockAfter thread (ownLock thread point) after = ownLock thread after := by
  unfold lockAfter ownLock
  cases after.locks with
  | true => rfl
  | false => cases point.locks <;> simp

/-- Steps that nobody interrupts are steps of the thread in the world. -/
theorem alone_run (alone : Alone point state after next) (here : world.points thread = point)
    (shared : world.shared = ⟨state, ownLock thread point⟩) :
    ∃ events, (∀ event ∈ events, event = (thread, .move)) ∧
      Trace (Interleavings.Step (Act platform)) world events
        (world.move thread ⟨next, ownLock thread after⟩ after) := by
  unfold Alone at alone
  generalize start : (point, state) = first at alone
  generalize stop : (after, next) = second at alone
  induction alone generalizing after next with
  | refl =>
      cases start
      cases stop
      refine ⟨[], by simp, ?_⟩
      rw [← shared, World.move_self here]
      exact Trace.nil world
  | @tail before final steps last ih =>
      cases stop
      obtain ⟨events, moves, run⟩ := ih rfl
      refine ⟨events ++ [(thread, .move)], ?_, run.snoc ?_⟩
      · intro event member
        rcases List.mem_append.mp member with early | late
        · exact moves event early
        · exact List.mem_singleton.mp late
      have moved : Act platform thread (world.move thread ⟨before.2, ownLock thread before.1⟩ before.1)
          .move ⟨next, lockAfter thread (ownLock thread before.1) after⟩ after := by
        have points := world.move_points thread (⟨before.2, ownLock thread before.1⟩ :
          LockedManager Thread) before.1
        apply Act.move
        · rw [points]
          exact ownLock_ready thread before.1
        · rw [points]
          exact last
      rw [lockAfter_ownLock] at moved
      have step := step_of_act moved
      rw [World.move_move] at step
      exact step

theorem finishes_rest (finishes : Finishes point state outcome next)
    (here : world.points thread = point) (shared : world.shared = ⟨state, ownLock thread point⟩) :
    ∃ events, (∀ event ∈ events, event = (thread, .move)) ∧
      Trace (Interleavings.Step (Act platform)) world (events ++ [(thread, .ended outcome)])
        (world.move thread ⟨next, none⟩ .idle) := by
  obtain ⟨last, before, alone, ends⟩ := finishes
  obtain ⟨events, moves, run⟩ := @alone_run platform _ _ _ _ _ _ _ _ alone here shared
  have ended : Act platform thread (world.move thread ⟨before, ownLock thread last⟩ last)
      (.ended outcome) ⟨next, lockAfter thread (ownLock thread last) .idle⟩ .idle := by
    have points := world.move_points thread (⟨before, ownLock thread last⟩ :
      LockedManager Thread) last
    apply Act.ended
    · rw [points]
      exact ownLock_ready thread last
    · rw [points]
      exact ends
  rw [lockAfter_ownLock] at ended
  have step := step_of_act ended
  rw [World.move_move] at step
  exact ⟨events, moves, run.snoc step⟩

theorem finishes_run {request : TableRequest} (idle : world.points thread = .idle)
    (unlocked : world.shared.lock = none) (permitted : MayStart platform thread world request)
    (entered : request.entry world.shared.manager = .ok point state) (free : point.locks = false)
    (finishes : Finishes point state outcome next) :
    ∃ events, (∀ event ∈ events, event = (thread, .move)) ∧
      Trace (Interleavings.Step (Act platform)) world
        ((thread, .call request) :: events ++ [(thread, .ended outcome)])
        (world.move thread ⟨next, none⟩ .idle) := by
  have called := step_of_act (Act.call idle permitted entered)
  rw [unlocked] at called
  have own : ownLock thread point = none := by
    rw [ownLock, free]
    rfl
  obtain ⟨events, moves, run⟩ := @finishes_rest platform _ _ _ _ _ _ _ _ finishes
    (world.move_points thread ⟨state, none⟩ point) (by rw [own]; rfl)
  rw [World.move_move] at run
  exact ⟨events, moves, Trace.cons called run⟩

/-- In a world where no lock is taken, a call can run from its start to its end and is then the
call of the source. -/
theorem uninterrupted_call {request : TableRequest}
    (pool : FramePool platform world.shared.manager.page_allocator_)
    (idle : world.points thread = .idle) (unlocked : world.shared.lock = none)
    (permitted : MayStart platform thread world request) :
    Ensures request.whole world.shared.manager
      (fun result next => ∃ events, (∀ event ∈ events, event = (thread, .move)) ∧
        Trace (Interleavings.Step (Act platform)) world
          ((thread, .call request) :: events ++ [(thread, .ended (.ok result))])
          (world.move thread ⟨next, none⟩ .idle))
      (fun fault next => ∃ events, (∀ event ∈ events, event = (thread, .move)) ∧
        Trace (Interleavings.Step (Act platform)) world
          ((thread, .call request) :: events ++ [(thread, .ended (.error fault))])
          (world.move thread ⟨next, none⟩ .idle)) := by
  cases request with
  | allocatePageTable =>
      obtain ⟨result, next, ran, finishes⟩ := alone_pageTable pool
      exact ensures_of_run ran (finishes_run idle unlocked permitted rfl rfl finishes)
  | allocateOneVmPage va root flags =>
      rcases ensures_iff.mp (@alone_vmPage platform _ va root flags pool) with
        ⟨_, next, ran, finishes⟩ | ⟨fault, next, ran, finishes⟩
      · exact ensures_of_run (map_ok _ ran) (finishes_run idle unlocked permitted rfl rfl finishes)
      · exact ensures_of_throw (map_error _ ran)
          (finishes_run idle unlocked permitted rfl rfl finishes)
  | mapIdentity addr root flags =>
      rcases ensures_iff.mp (alone_mapping ⟨addr, addr, root, flags⟩ pool) with
        ⟨_, next, ran, finishes⟩ | ⟨fault, next, ran, finishes⟩
      · exact ensures_of_run (map_ok _ ran) (finishes_run idle unlocked permitted rfl rfl finishes)
      · exact ensures_of_throw (map_error _ ran)
          (finishes_run idle unlocked permitted rfl rfl finishes)
  | freePageTable root =>
      obtain ⟨next, ran, finishes⟩ := @alone_freePageTable platform _ root pool
      exact ensures_of_run (map_ok _ ran) (finishes_run idle unlocked permitted rfl rfl finishes)

end Worlds

end Alone

end Espiral.AddressSpaceManager
