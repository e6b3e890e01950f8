import Espiral.Mm.InterleavedCalls
import Espiral.Mm.PageMapRefinement
import Espiral.Mm.SpareFrames
import Espiral.Mm.UninterruptedCalls

/-!
# What holds in every interleaving

No interleaving of calls gives a frame to two users, loses a mapping or shows one
that was never made, and none gets stuck: whatever the schedule is, the calls in
progress end after a bounded number of steps.
-/

namespace Espiral.AddressSpaceManager

set_option autoImplicit false

open Interleavings MachineWords Traces VortexMemoryAllocator

def Request.hands : Request → List Nat
  | .node map _ _ => [frameOf map.pa]
  | _ => []

def Point.hands (memory : ByteMemory.Memory) : Point → List Nat
  | .asking request => request.hands
  | .askingAgain request => request.hands
  | .granted request pa => pa :: request.hands
  | .mapping map => [frameOf map.pa]
  | .descending map _ _ => [frameOf map.pa]
  | .freeing pending => pending.flatMap (Pending.releases memory)
  | _ => []

def Threads.start (Thread : Type) (platform : Platform) (localMemSize : Nat) : Threads Thread where
  shared := ⟨new platform localMemSize, none⟩
  points _ := .idle

def CallEvent.inside : CallEvent → Prop
  | .call _ => False
  | _ => True

section Runs

variable {Thread : Type} [DecidableEq Thread] {platform : Platform} {localMemSize : Nat}
  {holes : HoleList} {tenure : Tenure Thread} {events : List (Thread × CallEvent)}
  {world next : Threads Thread}

omit [DecidableEq Thread] in
theorem start_holds (valid : platform.Valid) : ∃ tenure, Holds
    (Sound platform (new platform localMemSize).hole_list_)
    (Knows platform (new platform localMemSize).hole_list_) tenure
    (Threads.start Thread platform localMemSize) := by
  refine ⟨⟨fun _ => none, fun _ => ∅, fun _ => none⟩, ⟨?_, rfl, trivial, ?_, ?_⟩, ?_⟩
  · exact withHoles_owned valid _ _
  · intro thread frame member
    cases Finset.notMem_empty frame member
  · intro first second _ frame member
    cases Finset.notMem_empty frame member
  · intro thread
    refine ⟨?_, rfl, trivial⟩
    simp [Threads.start, Point.locks]

theorem interleaved_holds (valid : platform.Valid)
    (run : Trace (Interleavings.Step (Act platform)) (Threads.start Thread platform localMemSize)
      events world) :
    ∃ tenure, Holds (Sound platform (new platform localMemSize).hole_list_)
      (Knows platform (new platform localMemSize).hole_list_) tenure world :=
  (outline platform _).run run (start_holds valid)

theorem RequestClaim.hands {state : AddressSpaceManager} {held : Finset Nat} {request : Request}
    (claim : RequestClaim platform holes state held request) {frame : Nat}
    (member : frame ∈ request.hands) : frame ∈ held ∨ MayMapItself platform holes frame := by
  cases request with
  | node map level current_pa =>
      rw [List.mem_singleton.mp member]
      exact claim.1.target.imp_right And.left
  | pageTable => cases member
  | vmPage va root flags => cases member

/-- What a point names is in the hands of the call, or may be mapped to itself. -/
theorem Claim.hands {state : AddressSpaceManager} {held : Finset Nat} {point : Point}
    (claim : Claim platform holes state held point) {frame : Nat} (outside : holes.addrInHole frame = false)
    (positive : frame ≠ 0) (member : frame ∈ point.hands state.view) :
    frame ∈ held ∨ MayMapItself platform holes frame := by
  cases point with
  | idle => cases member
  | asking request => exact RequestClaim.hands claim member
  | askingAgain request => exact RequestClaim.hands claim member
  | granted request pa =>
      rw [Claim] at claim
      split at claim
      · rename_i missing
        rcases List.mem_cons.mp member with here | wanted
        · exact absurd (here.trans missing) positive
        · exact claim.hands wanted
      · rcases List.mem_cons.mp member with here | wanted
        · rw [here]
          exact Or.inl claim.1
        · exact (claim.2.hands wanted).imp_left Finset.mem_of_mem_erase
  | mapping map =>
      rw [List.mem_singleton.mp member]
      exact MappingClaim.target claim |>.imp_right And.left
  | descending map level current_pa =>
      rw [List.mem_singleton.mp member]
      exact claim.1.target.imp_right And.left
  | reporting map pte_addr => cases member
  | translating map => cases member
  | freeing pending => exact (ReleaseClaim.pages claim frame member outside).imp_right Or.inr

theorem Point.weight_pos {point : Point} (busy : point ≠ .idle) : 0 < point.weight := by
  cases point with
  | idle => exact absurd rfl busy
  | mapping map => exact (by decide : 0 < 8)
  | reporting map pte_addr => exact (by decide : 0 < 2)
  | translating map => exact (by decide : 0 < 1)
  | freeing pending =>
      rw [Point.weight]
      omega
  | asking request | askingAgain request | granted request pa | descending map level pa =>
      simp only [Point.weight]
      omega

theorem inside_nearer (holds : Holds (Sound platform holes) (Knows platform holes) tenure world)
    {event : Thread × CallEvent} (moved : Interleavings.Step (Act platform) world event next)
    (inside : event.2.inside) :
    (next.points event.1).weight < (world.points event.1).weight := by
  obtain ⟨thread, label⟩ := event
  obtain ⟨acted, _⟩ := moved
  revert acted inside
  generalize next.shared = shared
  generalize next.points thread = after
  intro inside acted
  cases acted with
  | call => exact inside.elim
  | move ready ran =>
      obtain ⟨_, _, _, _, steps, _, _, leadsTo⟩ :=
        leads holds.holds (holds.at_ thread) (busy_of_moved ran)
      rw [ran] at steps
      cases steps
      exact leadsTo.2.2.2
  | ended ready ran => exact Point.weight_pos (busy_of_moved ran)

theorem ready_moves (holds : Holds (Sound platform holes) (Knows platform holes) tenure world)
    {thread : Thread} (busy : world.points thread ≠ .idle)
    (ready : Ready thread world.shared.lock (world.points thread)) :
    ∃ event next, Interleavings.Step (Act platform) world event next ∧ event.2.inside := by
  obtain ⟨moved, manager, _, _, ran, _⟩ := leads holds.holds (holds.at_ thread) busy
  match moved, ran with
  | .to after, ran => exact ⟨_, _, step_of_act (Act.move ready ran), trivial⟩
  | .ended outcome, ran => exact ⟨_, _, step_of_act (Act.ended ready ran), trivial⟩

/-- The thread with the lock can move on, and if nobody has it all can. -/
theorem somebody_moves (holds : Holds (Sound platform holes) (Knows platform holes) tenure world)
    {thread : Thread} (busy : world.points thread ≠ .idle) :
    ∃ event next, Interleavings.Step (Act platform) world event next ∧ event.2.inside := by
  cases lock : world.shared.lock with
  | none =>
      apply ready_moves holds busy
      intro _
      exact Or.inl lock
  | some owner =>
      have locks := (holds.at_ owner).locked.mp lock
      have ownerBusy : world.points owner ≠ .idle := by
        intro idle
        rw [idle] at locks
        cases locks
      apply ready_moves holds ownerBusy
      intro _
      exact Or.inr lock

end Runs

/-- In every interleaving a frame outside the holes has at most one role, and none as long as a
call has it in its hands; and then no other call has it there. -/
theorem interleaved_frames {Thread : Type} [DecidableEq Thread] {platform : Platform}
    (valid : platform.Valid) (localMemSize : Nat) {events : List (Thread × CallEvent)}
    {world : Threads Thread}
    (run : Trace (Interleavings.Step (Act platform)) (Threads.start Thread platform localMemSize)
      events world) {frame : Nat} (isFrame : platform.IsFrame frame)
    (outside : world.shared.manager.hole_list_.addrInHole frame = false) :
    (∀ first second, HasRole world.shared.manager frame first →
        HasRole world.shared.manager frame second → first = second) ∧
      (∀ role, HasRole world.shared.manager frame role → frame ∈ world.shared.manager.frames) ∧
      ∀ thread, frame ∈ (world.points thread).hands world.shared.manager.view →
        frame ∈ world.shared.manager.frames ∧
          (∀ role, ¬HasRole world.shared.manager frame role) ∧
          ∀ other, other ≠ thread →
            frame ∉ (world.points other).hands world.shared.manager.view := by
  obtain ⟨tenure, sound, knows⟩ := interleaved_holds valid run
  rw [sound.holes] at outside
  have owns : ∀ role, HasRole world.shared.manager frame role → tenure.owner frame = some role :=
    fun role has => owner_of_role sound.owned isFrame outside has
  have positive : frame ≠ 0 := by
    have low := isFrame.2.1
    have base := valid.basePositive
    omega
  have inHand : ∀ thread, frame ∈ (world.points thread).hands world.shared.manager.view →
      frame ∈ tenure.held thread := by
    intro thread member
    rcases (knows thread).claim.hands outside positive member with held | inHole | notFrame
    · exact held
    · rw [outside] at inHole
      cases inHole
    · exact absurd isFrame notFrame
  refine ⟨?_, ?_, ?_⟩
  · intro first second firstHas secondHas
    have secondOwns := owns second secondHas
    rw [owns first firstHas, Option.some.injEq] at secondOwns
    exact secondOwns
  · intro role has
    exact (sound.owned.used frame role (owns role has)).1
  · intro thread member
    obtain ⟨used, free⟩ := sound.hands thread frame (inHand thread member)
    refine ⟨used, ?_, ?_⟩
    · intro role has
      rw [owns role has] at free
      cases free
    · intro other different theirs
      exact sound.apart other thread different frame (inHand other theirs) (inHand thread member)

theorem smallPlatform_interleaving : ∃ world : Threads Bool,
    Trace (Interleavings.Step (Act smallPlatform)) (Threads.start Bool smallPlatform 0)
        [(false, .call .allocatePageTable), (true, .call .allocatePageTable), (false, .move),
          (true, .move)] world ∧
      world.points false = .granted .pageTable 0x1000 ∧
      world.points true = .granted .pageTable 0x2000 ∧ world.shared.lock = none := by
  refine ⟨_, Trace.cons (step_of_act (Act.call rfl trivial rfl))
    (Trace.cons (step_of_act (Act.call rfl trivial rfl))
      (Trace.cons (step_of_act (Act.move (fun touches => by cases touches) rfl))
        (Trace.cons (step_of_act (Act.move (fun touches => by cases touches) rfl))
          (Trace.nil _)))), rfl, rfl, rfl⟩

theorem interleaved_frames_two : ∃ world : Threads Bool,
    Trace (Interleavings.Step (Act smallPlatform)) (Threads.start Bool smallPlatform 0)
        [(false, .call .allocatePageTable), (true, .call .allocatePageTable), (false, .move),
          (true, .move)] world ∧
      0x1000 ∈ (world.points false).hands world.shared.manager.view ∧
      (∀ first second, HasRole world.shared.manager 0x1000 first →
        HasRole world.shared.manager 0x1000 second → first = second) ∧
      (∀ role, HasRole world.shared.manager 0x1000 role → 0x1000 ∈ world.shared.manager.frames) ∧
      ∀ thread, 0x1000 ∈ (world.points thread).hands world.shared.manager.view →
        0x1000 ∈ world.shared.manager.frames ∧
          (∀ role, ¬HasRole world.shared.manager 0x1000 role) ∧
          ∀ other, other ≠ thread →
            0x1000 ∉ (world.points other).hands world.shared.manager.view := by
  obtain ⟨world, run, first, _, _⟩ := smallPlatform_interleaving
  have isFrame : smallPlatform.IsFrame 0x1000 := ⟨by decide, by decide, by decide⟩
  have outside : world.shared.manager.hole_list_.addrInHole 0x1000 = false := by
    obtain ⟨_, sound, _⟩ := interleaved_holds smallPlatform_valid run
    rw [sound.holes]
    exact smallPlatform_noHoles 0x1000 isFrame
  refine ⟨world, run, ?_, interleaved_frames smallPlatform_valid 0 run isFrame outside⟩
  rw [first]
  exact List.mem_cons_self

/-- In every interleaving a lookup on a live root finds what the one successful mapping of the
page has put there: no mapping of any thread is lost, and none appears that was not made. -/
theorem interleaved_translate {Thread : Type} [DecidableEq Thread] {platform : Platform}
    (valid : platform.Valid) (localMemSize : Nat) {events : List (Thread × CallEvent)}
    {world : Threads Thread}
    (run : Trace (Interleavings.Step (Act platform)) (Threads.start Thread platform localMemSize)
      events world) {root va : Nat} (isLive : world.shared.manager.Live root)
    (vaBound : va < 2 ^ 32) :
    ∃ result next, translate va root world.shared.manager = .ok result next ∧
      SameView world.shared.manager next ∧ ∀ found, result = some found ↔
        ∃ mappedVa mappedPa flags,
          Succeeded world.shared.manager.history root mappedVa mappedPa flags ∧
          mappedVa / 4096 = va / 4096 ∧ found = frameOf mappedPa ||| (va &&& 0xFFF) := by
  obtain ⟨tenure, sound, _⟩ := interleaved_holds valid run
  have reached : Reached platform (MayMapItself platform _) _ world.shared.manager :=
    ⟨sound.holes, ⟨tenure.owner, sound.owned⟩, sound.consistent⟩
  exact reached.translate_succeeded isLive vaBound

theorem smallPlatform_halfway : ∃ world : Threads Bool,
    Trace (Interleavings.Step (Act smallPlatform)) (Threads.start Bool smallPlatform 0)
        [(false, .call .allocatePageTable), (false, .move), (false, .ended (.ok (some 0x1000))),
          (true, .call (.allocateOneVmPage 0x6000 0x1000 PteFlags.R)), (true, .move)] world ∧
      world.points true = .granted (.vmPage 0x6000 0x1000 PteFlags.R) 0x2000 ∧
      world.points false = .idle ∧ world.shared.lock = none ∧
      world.shared.manager.history = [.created 0x1000] ∧
      world.shared.manager.frames = {0x1000, 0x2000} := by
  refine ⟨_, Trace.cons (step_of_act (Act.call rfl trivial rfl))
    (Trace.cons (step_of_act (Act.move (fun touches => by cases touches) rfl))
      (Trace.cons (step_of_act (Act.ended (fun _ => Or.inl rfl) rfl))
        (Trace.cons (step_of_act (Act.call rfl ⟨rfl, by decide, by decide⟩ rfl))
          (Trace.cons (step_of_act (Act.move (fun touches => by cases touches) rfl))
            (Trace.nil _))))), rfl, rfl, rfl, rfl, rfl⟩

theorem smallPlatform_mapped : ∃ (world : Threads Bool) (first second : List (Bool × CallEvent)),
    Trace (Interleavings.Step (Act smallPlatform)) (Threads.start Bool smallPlatform 0)
        ([(false, .call .allocatePageTable), (false, .move), (false, .ended (.ok (some 0x1000))),
            (true, .call (.allocateOneVmPage 0x6000 0x1000 PteFlags.R)), (true, .move)] ++
          ((false, .call (.allocateOneVmPage 0x5000 0x1000 PteFlags.R)) :: first ++
            [(false, .ended (.ok none))]) ++ (second ++ [(true, .ended (.ok none))])) world ∧
      world.shared.manager.history = [.mapped 0x1000 0x6000 0x2000 PteFlags.R,
        .mapped 0x1000 0x5000 0x3000 PteFlags.R, .created 0x1000] := by
  obtain ⟨world, run, stands, idle, lock, history, frames⟩ := smallPlatform_halfway
  obtain ⟨tenure, sound, _⟩ := interleaved_holds smallPlatform_valid run
  have isLive : world.shared.manager.Live 0x1000 := by
    rw [Live, history]
    rfl
  have spare : Spare smallPlatform
      (fun frame => world.shared.manager.hole_list_.addrInHole frame) world.shared.manager.frames 2 := by
    refine ⟨fun frame isFrame _ => ?_, {0x3000, 0x4000}, by decide, by rw [frames]; decide⟩
    rw [sound.holes]
    exact smallPlatform_noHoles frame isFrame
  -- the whole call of the first thread
  obtain ⟨manager, owner, pa, ran, advanced, grown, next, _, left⟩ :=
    @allocateOneVmPage_returns smallPlatform _ tenure.owner world.shared.manager 0x1000 0x5000
      PteFlags.R 0 sound.owned isLive (by decide) (by decide) (by rw [history]; rfl)
      (@Spare.forNode _ _ _ 0 _ _ _ spare)
  have third : pa = 0x3000 := next.unique (@smallPlatform_next world.shared.manager.frames 2
    (by decide) (by rw [frames]; decide))
  rw [third] at grown
  have liveNow : manager.Live 0x1000 := live_of_mapped grown isLive
  rw [history] at grown
  have calls := @uninterrupted_call smallPlatform Bool _ false world
    (.allocateOneVmPage 0x5000 0x1000 PteFlags.R) sound.owned.pool idle lock
    ⟨isLive, by decide, by decide⟩
  obtain ⟨first, _, mapped⟩ := calls.of_ok (Contracts.map_ok _ ran)
  have longer := run.append mapped
  -- the rest of the call of the second
  obtain ⟨between, soundNow, knows⟩ := interleaved_holds smallPlatform_valid longer
  have points : (world.move false ⟨manager, none⟩ .idle).points true =
      .granted (.vmPage 0x6000 0x1000 PteFlags.R) 0x2000 := stands
  have claim := (knows true).claim
  rw [points] at claim
  have held := soundNow.hands true 0x2000 claim.1
  have owned : WellOwned smallPlatform _ between.owner manager := soundNow.owned
  have node : nodesNeeded manager.view 0x1000 0x6000 = 0 :=
    nodesNeeded_mapped owned liveNow (by decide : 5 < 2 ^ 20) (by rw [grown]; rfl) (by decide)
  have spareNow : Spare smallPlatform (fun frame => manager.hole_list_.addrInHole frame)
      manager.frames (0 + nodesNeeded manager.view 0x1000 0x6000) := by
    rw [node, advanced.holes]
    exact left
  obtain ⟨final, _, again, _, added, _⟩ := @mapAddrInner_returns smallPlatform _ between.owner
    manager 0x1000 0x6000 PteFlags.R 0 owned liveNow (by decide) (by decide)
    (by rw [grown]; rfl) 0x2000 (by decide) (some 0x2000) (Or.inl ⟨rfl, held⟩) spareNow
  have moves : advance (.granted (.vmPage 0x6000 0x1000 PteFlags.R) 0x2000) manager =
      .ok (.to (.mapping ⟨0x6000, 0x2000, 0x1000, PteFlags.R⟩)) manager := rfl
  have finishes := (alone_step moves).finishes
    ((alone_mapping ⟨0x6000, 0x2000, 0x1000, PteFlags.R⟩ owned.pool).of_ok again)
  obtain ⟨second, _, rest⟩ := @finishes_rest smallPlatform _ _ _ _ _ _ true _ finishes points rfl
  refine ⟨_, first, second, longer.append rest, ?_⟩
  change final.history = _
  rw [added, grown]

/-- Two threads map pages of one table, the second while the first is in its call. -/
theorem interleaved_translate_two : ∃ (world : Threads Bool) (first second : List (Bool × CallEvent)),
    Trace (Interleavings.Step (Act smallPlatform)) (Threads.start Bool smallPlatform 0)
        ([(false, .call .allocatePageTable), (false, .move), (false, .ended (.ok (some 0x1000))),
            (true, .call (.allocateOneVmPage 0x6000 0x1000 PteFlags.R)), (true, .move)] ++
          ((false, .call (.allocateOneVmPage 0x5000 0x1000 PteFlags.R)) :: first ++
            [(false, .ended (.ok none))]) ++ (second ++ [(true, .ended (.ok none))])) world ∧
      (∃ next, translate 0x5004 0x1000 world.shared.manager = .ok (some 0x3004) next) ∧
      (∃ next, translate 0x6008 0x1000 world.shared.manager = .ok (some 0x2008) next) ∧
      ∃ next, translate 0x7000 0x1000 world.shared.manager = .ok none next := by
  obtain ⟨world, first, second, run, history⟩ := smallPlatform_mapped
  have isLive : world.shared.manager.Live 0x1000 := by
    rw [Live, history]
    rfl
  refine ⟨world, first, second, run, ?_, ?_, ?_⟩
  · obtain ⟨result, next, ran, _, found⟩ :=
      interleaved_translate smallPlatform_valid 0 run isLive (by decide : 0x5004 < 2 ^ 32)
    have here := (found 0x3004).mpr ⟨0x5000, 0x3000, PteFlags.R,
      ⟨[_], _, history, by simp, by simp⟩, by decide, by decide⟩
    rw [here] at ran
    exact ⟨next, ran⟩
  · obtain ⟨result, next, ran, _, found⟩ :=
      interleaved_translate smallPlatform_valid 0 run isLive (by decide : 0x6008 < 2 ^ 32)
    have here := (found 0x2008).mpr ⟨0x6000, 0x2000, PteFlags.R,
      ⟨[], _, history, by simp, by simp⟩, by decide, by decide⟩
    rw [here] at ran
    exact ⟨next, ran⟩
  · obtain ⟨result, next, ran, _, found⟩ :=
      interleaved_translate smallPlatform_valid 0 run isLive (by decide : 0x7000 < 2 ^ 32)
    cases result with
    | none => exact ⟨next, ran⟩
    | some pa =>
        obtain ⟨va, target, flags, success, samePage, _⟩ := (found pa).mp rfl
        rw [history] at success
        rcases succeeded_cons.mp success with same | ⟨_, _, earlier⟩
        · cases same
          exact absurd samePage (by decide)
        · rcases succeeded_cons.mp earlier with same | ⟨_, _, first⟩
          · cases same
            exact absurd samePage (by decide)
          · rcases succeeded_cons.mp first with same | ⟨notCreated, _⟩
            · cases same
            · exact absurd rfl notCreated

/-- Once no new calls are made, every schedule is of bounded length, and where it stops no call
is left: there is neither a deadlock nor an endless call. -/
theorem interleaved_calls_end {Thread : Type} [DecidableEq Thread] [Fintype Thread]
    {platform : Platform} (valid : platform.Valid) (localMemSize : Nat)
    {events : List (Thread × CallEvent)} {world : Threads Thread}
    (run : Trace (Interleavings.Step (Act platform)) (Threads.start Thread platform localMemSize)
      events world) :
    ∃ bound, ∀ more last, Trace (Interleavings.Step (Act platform)) world more last →
      (∀ event ∈ more, event.2.inside) → more.length ≤ bound ∧
        ((∀ event next, Interleavings.Step (Act platform) last event next → ¬event.2.inside) →
          ∀ thread, last.points thread = .idle) := by
  refine ⟨world.weigh Point.weight, ?_⟩
  intro more last finishing inside
  constructor
  · have bounded := finishing.bounded (fun world => ∃ tenure, Holds
        (Sound platform (new platform localMemSize).hole_list_)
        (Knows platform (new platform localMemSize).hole_list_) tenure world)
      (fun event => event.2.inside) (World.weigh Point.weight) ?_ ?_ (interleaved_holds valid run)
      inside
    · omega
    · rintro _ _ _ ⟨_, holds⟩ moved
      exact (outline platform _).keeps holds moved
    · rintro _ _ _ ⟨_, holds⟩ moved counted
      exact moved.weigh_lt (inside_nearer holds moved counted)
  · intro stuck thread
    by_contra busy
    obtain ⟨tenure, holds⟩ := interleaved_holds valid (run.append finishing)
    obtain ⟨event, next, moved, counted⟩ := somebody_moves holds busy
    exact stuck event next moved counted

theorem interleaved_calls_end_two : ∃ world : Threads Bool,
    Trace (Interleavings.Step (Act smallPlatform)) (Threads.start Bool smallPlatform 0)
        [(false, .call .allocatePageTable), (true, .call .allocatePageTable), (false, .move),
          (true, .move)] world ∧
      world.points true = .granted .pageTable 0x2000 ∧
      ∃ bound, ∀ more last, Trace (Interleavings.Step (Act smallPlatform)) world more last →
        (∀ event ∈ more, event.2.inside) → more.length ≤ bound ∧
          ((∀ event next, Interleavings.Step (Act smallPlatform) last event next →
              ¬event.2.inside) →
            ∀ thread, last.points thread = .idle) := by
  obtain ⟨world, run, _, second, _⟩ := smallPlatform_interleaving
  exact ⟨world, run, second, interleaved_calls_end smallPlatform_valid 0 run⟩

/-- Wherever the other threads stand, a call that nobody interrupts does what the call of the
source does, and fails as that does. -/
theorem interleaved_call_alone {Thread : Type} [DecidableEq Thread] {platform : Platform}
    (valid : platform.Valid) (localMemSize : Nat) {events : List (Thread × CallEvent)}
    {world : Threads Thread}
    (run : Trace (Interleavings.Step (Act platform)) (Threads.start Thread platform localMemSize)
      events world) {thread : Thread} {request : TableRequest}
    (idle : world.points thread = .idle) (unlocked : world.shared.lock = none)
    (permitted : MayStart platform thread world request) :
    Contracts.Ensures request.whole world.shared.manager
      (fun result next => ∃ inside, (∀ event ∈ inside, event = (thread, .move)) ∧
        Trace (Interleavings.Step (Act platform)) world
          ((thread, .call request) :: inside ++ [(thread, .ended (.ok result))])
          (world.move thread ⟨next, none⟩ .idle))
      (fun fault next => ∃ inside, (∀ event ∈ inside, event = (thread, .move)) ∧
        Trace (Interleavings.Step (Act platform)) world
          ((thread, .call request) :: inside ++ [(thread, .ended (.error fault))])
          (world.move thread ⟨next, none⟩ .idle)) := by
  obtain ⟨_, sound, _⟩ := interleaved_holds valid run
  exact uninterrupted_call sound.owned.pool idle unlocked permitted

/-- Another thread has its frame in hand all the while. -/
theorem interleaved_call_alone_between : ∃ world : Threads Bool,
    Trace (Interleavings.Step (Act smallPlatform)) (Threads.start Bool smallPlatform 0)
        [(true, .call .allocatePageTable), (true, .move)] world ∧
      world.points true = .granted .pageTable 0x1000 ∧
      Contracts.Ensures TableRequest.allocatePageTable.whole world.shared.manager
        (fun result next => ∃ inside, (∀ event ∈ inside, event = (false, .move)) ∧
          Trace (Interleavings.Step (Act smallPlatform)) world
            ((false, .call .allocatePageTable) :: inside ++ [(false, .ended (.ok result))])
            (world.move false ⟨next, none⟩ .idle))
        (fun fault next => ∃ inside, (∀ event ∈ inside, event = (false, .move)) ∧
          Trace (Interleavings.Step (Act smallPlatform)) world
            ((false, .call .allocatePageTable) :: inside ++ [(false, .ended (.error fault))])
            (world.move false ⟨next, none⟩ .idle)) := by
  obtain ⟨world, run, stands, idle, lock⟩ : ∃ world : Threads Bool,
      Trace (Interleavings.Step (Act smallPlatform)) (Threads.start Bool smallPlatform 0)
          [(true, .call .allocatePageTable), (true, .move)] world ∧
        world.points true = .granted .pageTable 0x1000 ∧ world.points false = .idle ∧
        world.shared.lock = none := by
    refine ⟨_, Trace.cons (step_of_act (Act.call rfl trivial rfl))
      (Trace.cons (step_of_act (Act.move (fun touches => by cases touches) rfl)) (Trace.nil _)),
      rfl, rfl, rfl⟩
  exact ⟨world, run, stands, interleaved_call_alone smallPlatform_valid 0 run idle lock trivial⟩

end Espiral.AddressSpaceManager
