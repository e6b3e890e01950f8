import Espiral.Mm.SpareFrames
import Espiral.Mm.TableCalls

/-!
# Walks among mappings

A walk takes the scratchpad lock once for each level, a mapping once for its
whole body. Between two reads of a walk any number of calls may complete. Valid
entries of live tables never change, so a walk behaves as if all of its reads
had been made together with the last one.
-/

namespace Espiral.AddressSpaceManager

set_option autoImplicit false

open ByteMemory Contracts MachineWords Traces

/-- Where a walk stands: before the atomic read of one level, or at its end. -/
inductive WalkPoint where
  | reading (level current_pa : Nat)
  | done (result : Except Fault Nat)

def walkOn (va level pte : Nat) : WalkPoint :=
  if !pteValid pte then .done (.error (.pageFault "Invalid PTE: valid bit not set"))
  else if !pteReadable pte && pteWritable pte then
    .done (.error (.pageFault "Invalid PTE: W set without R"))
  else if pteIsLeaf pte then
    if !pteReadable pte then .done (.error (.pageFault "Leaf PTE not readable"))
    else if level > 0 then
      let ppn_low_mask := 1 <<< (level * VPN_BITS) - 1
      if ptePpn pte &&& ppn_low_mask ≠ 0 then .done (.error (.pageFault "Misaligned superpage"))
      else
        let offset_mask := 1 <<< (12 + level * VPN_BITS) - 1
        .done (.ok ((ptePa pte &&& (2 ^ 32 - 1 - offset_mask)) ||| (va &&& offset_mask)))
    else .done (.ok (ptePa pte ||| vaPgoff va))
  else
    match level with
    | 0 => .done (.error (.pageFault "No leaf PTE found after walking all levels"))
    | next + 1 => .reading next (ptePa pte)

def walkRead (va level current_pa : Nat) : Action AddressSpaceManager WalkPoint := do
  let pte ← readPte (wrap32 (current_pa + vaVpn va level * PTE_SIZE))
  pure (walkOn va level pte)

def resume (va : Nat) : WalkPoint → Action AddressSpaceManager Nat
  | .reading level current_pa => walkFrom va (level + 1) current_pa
  | .done (.ok pa) => pure pa
  | .done (.error fault) => throw fault

def WalkPoint.start (root : Nat) : WalkPoint := .reading (PT_LEVELS - 1) root

inductive TableCall where
  | allocateOnePage
  | allocatePageTable
  | mapAddrInner (va pa root flags : Nat)
  | freePageTable (root : Nat)
  deriving DecidableEq, Repr

def performTableCall : TableCall → Action AddressSpaceManager (Option Nat)
  | .allocateOnePage => allocateOnePage
  | .allocatePageTable => allocatePageTable
  | .mapAddrInner va pa root flags => (fun _ => none) <$> mapAddrInner va pa root flags
  | .freePageTable root => (fun _ => none) <$> freePageTable root

/-- Mappings are made in live tables with the readable flag, whatever they map to, and
nodes are made of frames that are no nodes. -/
def TableCallAllowed (state : AddressSpaceManager) : TableCall → Prop
  | .allocateOnePage => True
  | .allocatePageTable => HandsOutUnlinked state
  | .mapAddrInner va pa root flags =>
      state.Live root ∧ va < 2 ^ 32 ∧ pa < 2 ^ 32 ∧ flags &&& PteFlags.R ≠ 0 ∧
        HandsOutUnlinked state
  | .freePageTable _ => True

structure TableStep (state : AddressSpaceManager) (call : TableCall) (next : AddressSpaceManager) :
    Prop where
  allowed : TableCallAllowed state call
  outcome : (∃ result, performTableCall call state = .ok result next) ∨
    ∃ fault, performTableCall call state = .error fault next

inductive WalkEvent where
  | read
  | call (call : TableCall)
  deriving DecidableEq, Repr

structure Walking where
  point : WalkPoint
  manager : AddressSpaceManager

/-- The walk makes its next read, or a call of another thread completes. No table is
freed meanwhile. -/
inductive WalkStep (va : Nat) : Walking → WalkEvent → Walking → Prop
  | read {level current_pa : Nat} {point : WalkPoint} {state next : AddressSpaceManager}
      (ran : walkRead va level current_pa state = .ok point next) :
      WalkStep va ⟨.reading level current_pa, state⟩ .read ⟨point, next⟩
  | call {point : WalkPoint} {state next : AddressSpaceManager} {call : TableCall}
      (notFree : ∀ root, call ≠ .freePageTable root) (step : TableStep state call next) :
      WalkStep va ⟨point, state⟩ (.call call) ⟨point, next⟩

def resultOf {State Value : Type} : EStateM.Result Fault State Value → Except Fault Value
  | .ok value _ => .ok value
  | .error fault _ => .error fault

section Reads

variable {va level current_pa root : Nat} {state next : AddressSpaceManager}

theorem walkFrom_read (va level current_pa : Nat) :
    walkFrom va (level + 1) current_pa = walkRead va level current_pa >>= resume va := by
  rw [walkFrom, walkRead, bind_assoc]
  congr 1
  funext pte
  rw [pure_bind]
  unfold walkOn
  simp only
  split
  · rfl
  · split
    · rfl
    · split
      · split
        · rfl
        · split
          · split
            · rfl
            · rfl
          · rfl
      · cases level with
        | zero => rfl
        | succ level => rfl

theorem walkRead_run (narrow : current_pa + 4096 ≤ 2 ^ 32) (small : vaVpn va level < 1024) :
    ∃ read, walkRead va level current_pa state =
        .ok (walkOn va level (entryAt state.view current_pa (vaVpn va level))) read ∧
      SameView state read := by
  obtain ⟨read, ran, same⟩ := @readEntry_run state current_pa (vaVpn va level) narrow small
  refine ⟨read, ?_, same⟩
  rw [walkRead, entry_address narrow small, bind_ok ran]
  rfl

theorem walkOn_zero (va pte : Nat) : ∃ result, walkOn va 0 pte = .done result := by
  unfold walkOn
  simp only
  split
  · exact ⟨_, rfl⟩
  · split
    · exact ⟨_, rfl⟩
    · split
      · split
        · exact ⟨_, rfl⟩
        · exact ⟨_, rfl⟩
      · exact ⟨_, rfl⟩

theorem walkOn_pointer {pte : Nat} (valid : pteValid pte = true) (notLeaf : pteIsLeaf pte = false) :
    walkOn va (level + 1) pte = .reading level (ptePa pte) := by
  obtain ⟨notReadable, notWritable⟩ := pteFlags_of_not_leaf notLeaf
  simp [walkOn, valid, notLeaf, notReadable, notWritable]

theorem walkOn_invalid {pte : Nat} (invalid : pteValid pte = false) :
    walkOn va level pte = .done (.error (.pageFault "Invalid PTE: valid bit not set")) := by
  simp [walkOn, invalid]

end Reads

def OnPath (va root : Nat) (state : AddressSpaceManager) : WalkPoint → Prop
  | .reading level current_pa =>
      level = 1 ∧ current_pa = root ∨
        level = 0 ∧ pteValid (entryAt state.view root (vaVpn va 1)) = true ∧
          current_pa = ptePa (entryAt state.view root (vaVpn va 1))
  | .done _ => False

section Walks

variable {va root : Nat} {state next : AddressSpaceManager} {point : WalkPoint}

theorem vaVpn_small (vaBound : va < 2 ^ 32) : vaVpn va 1 < 1024 ∧ vaVpn va 0 < 1024 := by
  have upper := vaVpn_one vaBound
  have lower := vaVpn_zero va
  omega

theorem pageTableWalk_result (separated : Separated state) (isLive : state.Live root)
    (vaBound : va < 2 ^ 32) {result : Except Fault Nat} :
    resultOf (pageTableWalk va root state) = result ↔
      pteValid (entryAt state.view root (vaVpn va 1)) = false ∧
          result = .error (.pageFault "Invalid PTE: valid bit not set") ∨
        pteValid (entryAt state.view root (vaVpn va 1)) = true ∧
          walkOn va 0 (entryAt state.view (ptePa (entryAt state.view root (vaVpn va 1)))
            (vaVpn va 0)) = .done result := by
  obtain ⟨upperSmall, lowerSmall⟩ := vaVpn_small vaBound
  have bounds := separated.aligned root isLive
  obtain ⟨first, ranFirst, sameFirst⟩ :=
    @walkRead_run va 1 root state (by omega) upperSmall
  rw [pageTableWalk, PT_LEVELS, walkFrom_read, bind_ok ranFirst]
  cases upper : pteValid (entryAt state.view root (vaVpn va 1)) with
  | false =>
      rw [walkOn_invalid upper]
      constructor
      · intro same
        exact Or.inl ⟨rfl, same.symm⟩
      · intro either
        cases either with
        | inl here => exact here.2.symm
        | inr other => cases other.1
  | true =>
      have notLeaf := separated.pointers root _ isLive upperSmall upper
      rw [walkOn_pointer upper notLeaf, resume, walkFrom_read]
      obtain ⟨second, ranSecond, _⟩ :=
        @walkRead_run va 0 (ptePa (entryAt state.view root (vaVpn va 1))) first (ptePa_lt _)
          lowerSmall
      rw [sameFirst.view] at ranSecond
      rw [bind_ok ranSecond]
      obtain ⟨final, ends⟩ := walkOn_zero va
        (entryAt state.view (ptePa (entryAt state.view root (vaVpn va 1))) (vaVpn va 0))
      rw [ends]
      have resumed : resultOf (resume va (.done final) second) = final := by
        cases final with
        | ok pa => rfl
        | error fault => rfl
      rw [resumed]
      constructor
      · intro same
        exact Or.inr ⟨rfl, by rw [same]⟩
      · intro either
        cases either with
        | inl other => cases other.1
        | inr here =>
            cases here.2
            rfl

theorem TableStep.keeps {call : TableCall} (step : TableStep state call next)
    (separated : Separated state) :
    Separated next ∧ ((∀ root, call ≠ .freePageTable root) → EntriesKept state next) := by
  have both : ∀ {action : Action AddressSpaceManager (Option Nat)}
      {Property : AddressSpaceManager → Prop},
      Ensures action state (fun _ after => Property after) (fun _ after => Property after) →
      ((∃ result, action state = .ok result next) ∨ ∃ fault, action state = .error fault next) →
      Property next := by
    intro action Property ensures outcome
    cases outcome with
    | inl returned =>
        obtain ⟨result, ran⟩ := returned
        exact ensures.of_ok ran
    | inr thrown =>
        obtain ⟨fault, ran⟩ := thrown
        exact ensures.of_error ran
  have outcome := step.outcome
  cases call with
  | allocateOnePage =>
      have kept := separated.same (both allocateOnePage_tables outcome)
      exact ⟨kept.separated, fun _ => kept.entries⟩
  | allocatePageTable =>
      have kept := both (allocatePageTable_keeps separated step.allowed) outcome
      exact ⟨kept.separated, fun _ => kept.entries⟩
  | mapAddrInner otherVa pa table flags =>
      obtain ⟨isLive, vaBound, paBound, readable, unlinked⟩ := step.allowed
      have kept := keeps_of_ensures
        (mapAddrInner_keeps separated isLive vaBound paBound readable unlinked) outcome
      exact ⟨kept.separated, fun _ => kept.entries⟩
  | freePageTable table =>
      exact ⟨keeps_of_ensures (freePageTable_keeps separated) outcome,
        fun notFree => absurd rfl (notFree table)⟩

theorem walkOn_ok {level pte pa : Nat} (found : walkOn va level pte = .done (.ok pa)) :
    pteValid pte = true := by
  cases valid : pteValid pte with
  | true => rfl
  | false =>
      rw [walkOn_invalid valid] at found
      cases found

theorem EntriesKept.walk_ok (kept : EntriesKept state next) (separated : Separated state)
    (nextSeparated : Separated next) (isLive : state.Live root) (vaBound : va < 2 ^ 32) {pa : Nat}
    (found : resultOf (pageTableWalk va root state) = .ok pa) :
    resultOf (pageTableWalk va root next) = .ok pa := by
  obtain ⟨upperSmall, lowerSmall⟩ := vaVpn_small vaBound
  rw [pageTableWalk_result separated isLive vaBound] at found
  rw [pageTableWalk_result nextSeparated (kept.live root isLive) vaBound]
  cases found with
  | inl invalid => cases invalid.2
  | inr valid =>
      obtain ⟨upper, ends⟩ := valid
      right
      rw [kept.upper root _ isLive upperSmall upper,
        kept.lower root _ _ isLive upperSmall lowerSmall upper (walkOn_ok ends)]
      exact ⟨upper, ends⟩

theorem OnPath.kept (onPath : OnPath va root state point) (kept : EntriesKept state next)
    (isLive : state.Live root) (vaBound : va < 2 ^ 32) : OnPath va root next point := by
  cases point with
  | done result => exact onPath
  | reading level current_pa =>
      cases onPath with
      | inl first => exact Or.inl first
      | inr second =>
          obtain ⟨lowest, upper, pointer⟩ := second
          right
          rw [kept.upper root _ isLive (vaVpn_small vaBound).1 upper]
          exact ⟨lowest, upper, pointer⟩

/-- A read of a walk ends it as an uninterrupted walk would end now, or leads to the node. -/
theorem OnPath.read {level current_pa : Nat} {read : AddressSpaceManager}
    (onPath : OnPath va root state (.reading level current_pa)) (separated : Separated state)
    (isLive : state.Live root) (vaBound : va < 2 ^ 32)
    (ran : walkRead va level current_pa state = .ok point read) :
    SameView state read ∧ ((∃ result, point = .done result ∧
        resultOf (pageTableWalk va root state) = result) ∨ OnPath va root read point) := by
  obtain ⟨upperSmall, lowerSmall⟩ := vaVpn_small vaBound
  have bounds := separated.aligned root isLive
  cases onPath with
  | inl first =>
      obtain ⟨top, atRoot⟩ := first
      rw [top, atRoot] at ran
      obtain ⟨after, again, same⟩ := @walkRead_run va 1 root state (by omega) upperSmall
      rw [again] at ran
      cases ran
      refine ⟨same, ?_⟩
      cases upper : pteValid (entryAt state.view root (vaVpn va 1)) with
      | false =>
          rw [walkOn_invalid upper]
          exact Or.inl ⟨_, rfl, (pageTableWalk_result separated isLive vaBound).mpr
            (Or.inl ⟨upper, rfl⟩)⟩
      | true =>
          rw [walkOn_pointer upper (separated.pointers root _ isLive upperSmall upper)]
          right
          right
          rw [same.view]
          exact ⟨rfl, upper, rfl⟩
  | inr second =>
      obtain ⟨lowest, upper, pointer⟩ := second
      rw [lowest, pointer] at ran
      obtain ⟨after, again, same⟩ :=
        @walkRead_run va 0 (ptePa (entryAt state.view root (vaVpn va 1))) state (ptePa_lt _)
          lowerSmall
      rw [again] at ran
      cases ran
      refine ⟨same, Or.inl ?_⟩
      obtain ⟨result, ends⟩ := walkOn_zero va
        (entryAt state.view (ptePa (entryAt state.view root (vaVpn va 1))) (vaVpn va 0))
      exact ⟨result, ends, (pageTableWalk_result separated isLive vaBound).mpr
        (Or.inr ⟨upper, ends⟩)⟩

end Walks

section Runs

variable {va root : Nat} {start final : Walking} {labels : List WalkEvent}
  {result : Except Fault Nat}

/-- A walk that has ended has ended; calls go on. -/
theorem ended_keeps (run : Trace (WalkStep va) start labels final)
    (ended : start.point = .done result) (separated : Separated start.manager) :
    final.point = .done result ∧ Separated final.manager ∧
      EntriesKept start.manager final.manager := by
  induction run with
  | nil start => exact ⟨ended, separated, EntriesKept.refl _⟩
  | cons head _ ih =>
      cases head with
      | read ran => cases ended
      | call notFree step =>
          have kept := step.keeps separated
          obtain ⟨last, lastSeparated, later⟩ := ih ended kept.1
          exact ⟨last, lastSeparated, (kept.2 notFree).trans later⟩

/-- The last read decides: there the result is that of an uninterrupted walk. -/
theorem last_read_decides (run : Trace (WalkStep va) start labels final)
    (separated : Separated start.manager) (isLive : start.manager.Live root)
    (vaBound : va < 2 ^ 32) (onPath : OnPath va root start.manager start.point)
    (ended : final.point = .done result) :
    ∃ before after level current_pa moment next, labels = before ++ .read :: after ∧
      Trace (WalkStep va) start before ⟨.reading level current_pa, moment⟩ ∧
      WalkStep va ⟨.reading level current_pa, moment⟩ .read ⟨.done result, next⟩ ∧
      Trace (WalkStep va) ⟨.done result, next⟩ after final ∧
      resultOf (pageTableWalk va root moment) = result ∧
      ∀ pa, result = .ok pa → resultOf (pageTableWalk va root final.manager) = .ok pa := by
  induction run with
  | nil start =>
      rw [ended] at onPath
      exact onPath.elim
  | cons head tail ih =>
      cases head with
      | @call point state next call notFree step =>
          have kept := step.keeps separated
          have entries := kept.2 notFree
          obtain ⟨before, after, level, current_pa, moment, last, split, first, read, rest, outcome⟩ :=
            ih kept.1 (entries.live root isLive) (onPath.kept entries isLive vaBound) ended
          exact ⟨.call call :: before, after, level, current_pa, moment, last, by rw [split]; rfl,
            Trace.cons (WalkStep.call notFree step) first, read, rest, outcome⟩
      | @read level current_pa point state next ran =>
          obtain ⟨same, ends⟩ := OnPath.read onPath separated isLive vaBound ran
          have kept := separated.read same
          cases ends with
          | inr onward =>
              obtain ⟨before, after, lastLevel, lastPa, moment, last, split, first, read, rest,
                outcome⟩ := ih kept.separated (kept.entries.live root isLive) onward ended
              exact ⟨.read :: before, after, lastLevel, lastPa, moment, last, by rw [split]; rfl,
                Trace.cons (WalkStep.read ran) first, read, rest, outcome⟩
          | inl here =>
              obtain ⟨found, isDone, walked⟩ := here
              obtain ⟨last, lastSeparated, later⟩ := ended_keeps tail isDone kept.separated
              rw [ended] at last
              cases last
              rw [isDone] at ran tail
              refine ⟨[], _, level, current_pa, state, next, rfl, Trace.nil _, WalkStep.read ran,
                tail, walked, ?_⟩
              intro pa same
              rw [same] at walked
              exact (kept.entries.trans later).walk_ok separated lastSeparated isLive vaBound walked

theorem separated_of_no_tables {state : AddressSpaceManager} (empty : state.history = []) :
    Separated state := by
  have dead : ∀ table, ¬state.Live table := by
    intro table isLive
    rw [Live, empty] at isLive
    cases isLive
  constructor
  · intro table isLive
    exact absurd isLive (dead table)
  · intro frame first second left _
    cases left with
    | root isLive => exact absurd isLive (dead _)
    | node isLive _ _ => exact absurd isLive (dead _)
  · intro table index isLive
    exact absurd isLive (dead table)
  · intro table index slot isLive
    exact absurd isLive (dead table)

end Runs

/-- A walk of a live table, interleaved with any number of complete calls, ends with the
result of an uninterrupted walk at the moment of its last read; an address it returns is
still the translation at the end. -/
theorem walk_linearizable {initial state final : AddressSpaceManager} {calls : List TableCall}
    {labels : List WalkEvent} {va root : Nat} {result : Except Fault Nat}
    (empty : initial.history = []) (setup : Trace TableStep initial calls state)
    (isLive : state.Live root) (vaBound : va < 2 ^ 32)
    (run : Trace (WalkStep va) ⟨.start root, state⟩ labels ⟨.done result, final⟩) :
    ∃ before after level current_pa moment next, labels = before ++ .read :: after ∧
      Trace (WalkStep va) ⟨.start root, state⟩ before ⟨.reading level current_pa, moment⟩ ∧
      WalkStep va ⟨.reading level current_pa, moment⟩ .read ⟨.done result, next⟩ ∧
      Trace (WalkStep va) ⟨.done result, next⟩ after ⟨.done result, final⟩ ∧
      resultOf (pageTableWalk va root moment) = result ∧
      ∀ pa, result = .ok pa → resultOf (pageTableWalk va root final) = .ok pa := by
  have separated : Separated state :=
    setup.invariant Separated (fun _ _ _ kept step => (step.keeps kept).1)
      (separated_of_no_tables empty)
  exact last_read_decides run separated isLive vaBound (Or.inl ⟨rfl, rfl⟩) rfl

section Small

theorem tableStep_of_allowed {state : AddressSpaceManager} {call : TableCall}
    (allowed : TableCallAllowed state call) : ∃ next, TableStep state call next := by
  cases ran : performTableCall call state with
  | ok result next => exact ⟨next, allowed, Or.inl ⟨result, ran⟩⟩
  | error fault next => exact ⟨next, allowed, Or.inr ⟨fault, ran⟩⟩

/-- Without interruption a walk ends after two reads at most. -/
theorem walk_finishes {state : AddressSpaceManager} {va root : Nat} (separated : Separated state)
    (isLive : state.Live root) (vaBound : va < 2 ^ 32) :
    ∃ labels result final,
      Trace (WalkStep va) ⟨.start root, state⟩ labels ⟨.done result, final⟩ := by
  obtain ⟨upperSmall, lowerSmall⟩ := vaVpn_small vaBound
  have bounds := separated.aligned root isLive
  obtain ⟨first, ranFirst, _⟩ := @walkRead_run va 1 root state (by omega) upperSmall
  cases upper : pteValid (entryAt state.view root (vaVpn va 1)) with
  | false =>
      rw [walkOn_invalid upper] at ranFirst
      exact ⟨[.read], _, first, Trace.cons (WalkStep.read ranFirst) (Trace.nil _)⟩
  | true =>
      rw [walkOn_pointer upper (separated.pointers root _ isLive upperSmall upper)] at ranFirst
      obtain ⟨second, ranSecond, _⟩ :=
        @walkRead_run va 0 (ptePa (entryAt state.view root (vaVpn va 1))) first (ptePa_lt _)
          lowerSmall
      obtain ⟨result, ends⟩ := walkOn_zero va
        (entryAt first.view (ptePa (entryAt state.view root (vaVpn va 1))) (vaVpn va 0))
      rw [ends] at ranSecond
      exact ⟨[.read, .read], result, second, Trace.cons (WalkStep.read ranFirst)
        (Trace.cons (WalkStep.read ranSecond) (Trace.nil _))⟩

/-- A table is created; then a page of it is mapped while another page is looked up. -/
theorem walk_linearizable_small : ∃ state final labels result,
    Trace TableStep (new smallPlatform 0) [.allocatePageTable] state ∧ state.Live 0x1000 ∧
      Trace (WalkStep 0x6004) ⟨.start 0x1000, state⟩
        (.call (.mapAddrInner 0x5000 0x3000 0x1000 PteFlags.R) :: labels)
        ⟨.done result, final⟩ ∧
      ∃ before after level current_pa moment next,
        .call (.mapAddrInner 0x5000 0x3000 0x1000 PteFlags.R) :: labels =
            before ++ .read :: after ∧
          Trace (WalkStep 0x6004) ⟨.start 0x1000, state⟩ before
            ⟨.reading level current_pa, moment⟩ ∧
          WalkStep 0x6004 ⟨.reading level current_pa, moment⟩ .read ⟨.done result, next⟩ ∧
          Trace (WalkStep 0x6004) ⟨.done result, next⟩ after ⟨.done result, final⟩ ∧
          resultOf (pageTableWalk 0x6004 0x1000 moment) = result ∧
          ∀ pa, result = .ok pa → resultOf (pageTableWalk 0x6004 0x1000 final) = .ok pa := by
  obtain ⟨state, run, ran, _, _, isLive, _⟩ := smallPlatform_table
  have fresh := withHoles_owned smallPlatform_valid (fun _ => False) (new smallPlatform 0).hole_list_
  have setup : Trace TableStep (new smallPlatform 0) [.allocatePageTable] state :=
    Trace.cons ⟨fresh.handsOutUnlinked, Or.inl ⟨_, ran⟩⟩ (Trace.nil state)
  obtain ⟨owner, owned⟩ := (run_reached smallPlatform_valid run).owned
  obtain ⟨mapped, step⟩ := @tableStep_of_allowed state
    (.mapAddrInner 0x5000 0x3000 0x1000 PteFlags.R)
    ⟨isLive, by decide, by decide, by decide, owned.handsOutUnlinked⟩
  have kept := step.keeps owned.separated
  have entries := kept.2 fun root => by simp
  obtain ⟨labels, result, final, rest⟩ := walk_finishes kept.1 (entries.live _ isLive)
    (by decide : 0x6004 < 2 ^ 32)
  have walked := Trace.cons (WalkStep.call (fun root => by simp) step) rest
  exact ⟨state, final, labels, result, setup, isLive, walked,
    walk_linearizable rfl setup isLive (by decide) walked⟩

end Small

end Espiral.AddressSpaceManager
