import Espiral.Mm.FreeingCalls

/-!
# Interleaved calls

Any number of threads call the address space manager, and what is proved of calls
one after the other is proved of their interleavings: frames are owned by one use,
or by one call that works on them, and the tables stay what the history of the
mappings says.
-/

namespace Espiral.AddressSpaceManager

set_option autoImplicit false

open Contracts Interleavings MachineWords Traces VortexMemoryAllocator

/-- Who has which frames: the tables by their roles, the calls in progress in their hands. -/
structure Tenure (Thread : Type) where
  owner : Nat → Option Role
  held : Thread → Finset Nat
  /-- The root of the table that the call works on. -/
  works : Thread → Option Nat

section Outline

variable {Thread : Type}

structure Sound (platform : Platform) (holes : HoleList) (tenure : Tenure Thread)
    (shared : LockedManager Thread) : Prop where
  owned : WellOwned platform (MayMapItself platform holes) tenure.owner shared.manager
  holes : shared.manager.hole_list_ = holes
  consistent : Consistent shared.manager.history
  hands : ∀ thread, ∀ frame ∈ tenure.held thread,
    frame ∈ shared.manager.frames ∧ tenure.owner frame = none
  apart : ∀ first second, first ≠ second → ∀ frame ∈ tenure.held first,
    frame ∉ tenure.held second

structure Knows (platform : Platform) (holes : HoleList) (tenure : Tenure Thread)
    (shared : LockedManager Thread) (thread : Thread) (point : Point) : Prop where
  locked : shared.lock = some thread ↔ point.locks = true
  root : tenure.works thread = point.root
  claim : Claim platform holes shared.manager (tenure.held thread) point

structure Relies (thread : Thread) (tenure : Tenure Thread) (shared : LockedManager Thread)
    (later : Tenure Thread) (next : LockedManager Thread) : Prop where
  held : later.held thread = tenure.held thread
  works : later.works thread = tenure.works thread
  locked : next.lock = some thread ↔ shared.lock = some thread
  view : shared.lock = some thread → next.manager.view = shared.manager.view
  entries : ∀ frame ∈ tenure.held thread, ∀ index < 1024,
    entryAt next.manager.view frame index = entryAt shared.manager.view frame index
  live : ∀ root, tenure.works thread = some root → shared.manager.Live root →
    next.manager.Live root

variable {platform : Platform} {holes : HoleList} {tenure later : Tenure Thread}
  {shared next : LockedManager Thread} {thread : Thread} {point : Point}

theorem Sound.inProgress (sound : Sound platform holes tenure shared) (thread : Thread) :
    InProgress platform holes tenure.owner (tenure.held thread) shared.manager where
  owned := sound.owned
  holes := sound.holes
  consistent := sound.consistent
  mine := sound.hands thread

theorem MappingClaim.kept {state after : AddressSpaceManager} {held : Finset Nat} {map : Mapping}
    (claim : MappingClaim platform holes state held map)
    (live : state.Live map.root → after.Live map.root) :
    MappingClaim platform holes after held map :=
  { claim with isLive := live claim.isLive }

theorem Knows.stable (knows : Knows platform holes tenure shared thread point)
    (relies : Relies thread tenure shared later next) :
    Knows platform holes later next thread point := by
  obtain ⟨locked, root, claim⟩ := knows
  refine ⟨relies.locked.trans locked, relies.works.trans root, ?_⟩
  have live : ∀ table, point.root = some table → shared.manager.Live table →
      next.manager.Live table := by
    rw [← root]
    exact relies.live
  have view : point.locks = true → next.manager.view = shared.manager.view :=
    fun locks => relies.view (locked.mpr locks)
  rw [relies.held]
  cases point with
  | idle => trivial
  | asking request => exact claim.kept live view
  | askingAgain request => exact claim.kept live view
  | granted request pa =>
      rw [Claim] at claim ⊢
      split at claim
      · rename_i missing
        rw [if_pos missing]
        exact claim.kept live view
      · rename_i present
        rw [if_neg present]
        exact ⟨claim.1, claim.2.kept live view⟩
  | mapping map => exact MappingClaim.kept claim (live _ rfl)
  | descending map level current_pa =>
      obtain ⟨mapClaim, stands⟩ := claim
      refine ⟨mapClaim.kept (live _ rfl), ?_⟩
      rw [view rfl]
      exact stands
  | reporting map pte_addr => exact live _ rfl claim
  | translating map => exact live _ rfl claim
  | freeing pending => exact ReleaseClaim.kept claim relies.entries

theorem leads (sound : Sound platform holes tenure shared)
    (knows : Knows platform holes tenure shared thread point) (busy : point ≠ .idle) :
    Leads platform holes tenure.owner (tenure.held thread) shared.manager point := by
  have progress := sound.inProgress thread
  have claim := knows.claim
  cases point with
  | idle => exact absurd rfl busy
  | asking request => exact leads_asking progress claim
  | askingAgain request => exact leads_askingAgain progress claim
  | granted request pa =>
      cases request with
      | pageTable => exact leads_granted_pageTable progress claim
      | vmPage va root flags => exact leads_granted_vmPage progress claim
      | node map level current_pa => exact leads_granted_node progress claim
  | mapping map => exact leads_mapping progress claim
  | descending map level current_pa =>
      obtain ⟨mapClaim, ⟨levelIs, currentIs⟩ | ⟨levelIs, upper, currentIs⟩⟩ := claim
      · rw [levelIs, currentIs]
        exact leads_descending_upper progress mapClaim
      · rw [levelIs, currentIs]
        exact leads_descending_lower progress mapClaim upper
  | reporting map pte_addr => exact leads_reporting progress claim
  | translating map => exact leads_translating progress
  | freeing pending => exact leads_freeing progress claim

section Turns

variable [DecidableEq Thread]

def Tenure.pass (tenure : Tenure Thread) (thread : Thread) (owner : Nat → Option Role)
    (inHand : Finset Nat) (root : Option Nat) : Tenure Thread where
  owner := owner
  held := Function.update tenure.held thread inHand
  works := Function.update tenure.works thread root

@[simp]
theorem Tenure.pass_held (tenure : Tenure Thread) (thread : Thread) (owner : Nat → Option Role)
    (inHand : Finset Nat) (root : Option Nat) :
    (tenure.pass thread owner inHand root).held = Function.update tenure.held thread inHand := rfl

@[simp]
theorem Tenure.pass_works (tenure : Tenure Thread) (thread : Thread) (owner : Nat → Option Role)
    (inHand : Finset Nat) (root : Option Nat) :
    (tenure.pass thread owner inHand root).works = Function.update tenure.works thread root := rfl

theorem lockAfter_self {lock : Option Thread} :
    lockAfter thread lock point = some thread ↔ point.locks = true := by
  rw [lockAfter]
  cases point.locks with
  | true => simp only [if_true]
  | false =>
      simp only [Bool.false_eq_true, if_false, iff_false]
      by_cases mine : lock = some thread
      · rw [if_pos mine]
        exact Option.some_ne_none thread ∘ Eq.symm
      · rw [if_neg mine]
        exact mine

theorem lockAfter_other {lock : Option Thread} {other : Thread} (different : other ≠ thread)
    (free : point.locks = true → lock = none ∨ lock = some thread) :
    lockAfter thread lock point = some other ↔ lock = some other := by
  have apart : some thread ≠ some other := fun same => different (Option.some.inj same).symm
  rw [lockAfter]
  cases locks : point.locks with
  | true =>
      rw [if_pos rfl, iff_false_left apart]
      rcases free locks with none | mine
      · rw [none]
        exact Option.some_ne_none other ∘ Eq.symm
      · rw [mine]
        exact apart
  | false =>
      rw [if_neg (by simp)]
      by_cases mine : lock = some thread
      · rw [if_pos mine, mine, iff_false_right apart]
        exact Option.some_ne_none other ∘ Eq.symm
      · rw [if_neg mine]

variable {owner : Nat → Option Role} {inHand : Finset Nat} {manager : AddressSpaceManager}

theorem Sound.pass (sound : Sound platform holes tenure shared)
    (handed : Handed platform holes tenure.owner (tenure.held thread) shared.manager owner inHand
      manager) (root : Option Nat) (lock : Option Thread) :
    Sound platform holes (tenure.pass thread owner inHand root) ⟨manager, lock⟩ := by
  refine ⟨handed.owned, handed.holes, handed.consistent, ?_, ?_⟩
  · intro other frame member
    by_cases same : other = thread
    · rw [Tenure.pass_held, same, Function.update_self] at member
      exact handed.mine frame member
    · rw [Tenure.pass_held, Function.update_of_ne same] at member
      obtain ⟨used, free⟩ := sound.hands other frame member
      obtain ⟨kept, unowned, _⟩ :=
        handed.others frame used free (sound.apart other thread same frame member)
      exact ⟨kept, unowned⟩
  · have apart : ∀ other, other ≠ thread → ∀ frame ∈ inHand, frame ∉ tenure.held other := by
      intro other different frame mine theirs
      rcases handed.fresh frame mine with before | unused
      · exact sound.apart thread other (Ne.symm different) frame before theirs
      · exact unused (sound.hands other frame theirs)
    intro first second different frame member
    rw [Tenure.pass_held] at member ⊢
    by_cases isFirst : first = thread
    · rw [isFirst] at different member
      rw [Function.update_self] at member
      rw [Function.update_of_ne (Ne.symm different)]
      exact apart second (Ne.symm different) frame member
    · rw [Function.update_of_ne isFirst] at member
      by_cases isSecond : second = thread
      · rw [isSecond, Function.update_self]
        exact fun mine => apart first isFirst frame mine member
      · rw [Function.update_of_ne isSecond]
        exact sound.apart first second different frame member

theorem Sound.relies (sound : Sound platform holes tenure shared)
    (handed : Handed platform holes tenure.owner (tenure.held thread) shared.manager owner inHand
      manager) {root : Option Nat} {lock : Option Thread} {other : Thread} (different : other ≠ thread)
    (locked : lock = some other ↔ shared.lock = some other)
    (view : shared.lock = some other → manager.view = shared.manager.view)
    (live : ∀ table, tenure.works other = some table → shared.manager.Live table →
      manager.Live table) :
    Relies other tenure shared (tenure.pass thread owner inHand root) ⟨manager, lock⟩ where
  held := Function.update_of_ne different _ _
  works := Function.update_of_ne different _ _
  locked := locked
  view := view
  entries frame member := by
    obtain ⟨used, free⟩ := sound.hands other frame member
    exact (handed.others frame used free (sound.apart other thread different frame member)).2.2
  live := live

theorem Sound.call {world : Threads Thread} (holds : Holds (Sound platform holes)
      (Knows platform holes) tenure world) {request : TableRequest} {after : Point}
    (idle : world.points thread = .idle) (permitted : MayStart platform thread world request)
    (entered : request.entry world.shared.manager = .ok after manager) :
    ∃ later, Sound platform holes later ⟨manager, world.shared.lock⟩ ∧
      Knows platform holes later ⟨manager, world.shared.lock⟩ thread after ∧
      ∀ other, other ≠ thread →
        Relies other tenure world.shared later ⟨manager, world.shared.lock⟩ := by
  have sound := holds.holds
  have progress := sound.inProgress thread
  have unlocked : ¬world.shared.lock = some thread := by
    rw [(holds.at_ thread).locked, idle]
    simp [Point.locks]
  have begins : ∀ later inHand, Handed platform holes tenure.owner (tenure.held thread)
        world.shared.manager later inHand manager →
      manager.view = world.shared.manager.view → after.locks = false →
      Claim platform holes manager inHand after →
      (∀ other, other ≠ thread → ∀ table, tenure.works other = some table →
        world.shared.manager.Live table → manager.Live table) →
      ∃ later, Sound platform holes later ⟨manager, world.shared.lock⟩ ∧
        Knows platform holes later ⟨manager, world.shared.lock⟩ thread after ∧
        ∀ other, other ≠ thread →
          Relies other tenure world.shared later ⟨manager, world.shared.lock⟩ := by
    intro later inHand handed view locks claim live
    refine ⟨tenure.pass thread later inHand after.root, sound.pass handed _ _, ⟨?_, ?_, ?_⟩, ?_⟩
    · rw [locks]
      simp only [unlocked, Bool.false_eq_true]
    · rw [Tenure.pass_works, Function.update_self]
    · rw [Tenure.pass_held, Function.update_self]
      exact claim
    · intro other different
      exact sound.relies handed different Iff.rfl (fun _ => view) (live other different)
  have looked := progress.looked (SameView.refl _) (Finset.Subset.refl (tenure.held thread))
  cases request with
  | allocatePageTable =>
      cases entered
      exact begins _ _ looked.toHanded rfl rfl trivial fun _ _ _ _ isLive => isLive
  | allocateOneVmPage va root flags =>
      cases entered
      exact begins _ _ looked.toHanded rfl rfl permitted fun _ _ _ _ isLive => isLive
  | mapIdentity addr root flags =>
      cases entered
      obtain ⟨isLive, bound, readable, itself⟩ := permitted
      rw [sound.holes] at itself
      exact begins _ _ looked.toHanded rfl rfl
        ⟨isLive, bound, bound, readable, Or.inr ⟨itself, rfl⟩⟩ fun _ _ _ _ isLive => isLive
  | freePageTable root =>
      cases entered
      obtain ⟨isLive, alone⟩ := permitted
      obtain ⟨handed, claim⟩ := progress.begins isLive rfl
      refine begins _ _ handed rfl rfl claim ?_
      intro other different table works before
      rw [(holds.at_ other).root] at works
      apply (live_freed rfl table).mpr ⟨_, before⟩
      intro same
      rw [same] at works
      exact alone other different works

/-- A thread that moves on uses the scratchpad only if no other thread has its lock. -/
theorem Sound.turn (sound : Sound platform holes tenure shared) {after : Point}
    (stepped : Stepped platform holes tenure.owner (tenure.held thread) shared.manager owner inHand
      manager) (ready : Ready thread shared.lock point)
    (view : point.touches = false → manager.view = shared.manager.view)
    (locks : after.locks = true → point.touches = true)
    (claim : Claim platform holes manager inHand after) :
    ∃ later, Sound platform holes later ⟨manager, lockAfter thread shared.lock after⟩ ∧
      Knows platform holes later ⟨manager, lockAfter thread shared.lock after⟩ thread after ∧
      ∀ other, other ≠ thread →
        Relies other tenure shared later ⟨manager, lockAfter thread shared.lock after⟩ := by
  refine ⟨tenure.pass thread owner inHand after.root, sound.pass stepped.toHanded _ _,
    ⟨lockAfter_self, ?_, ?_⟩, ?_⟩
  · rw [Tenure.pass_works, Function.update_self]
  · rw [Tenure.pass_held, Function.update_self]
    exact claim
  · intro other different
    apply sound.relies stepped.toHanded different
    · exact lockAfter_other different fun locked => ready (locks locked)
    · intro theirs
      apply view
      cases touches : point.touches with
      | false => rfl
      | true =>
          rw [theirs] at ready
          rcases ready touches with none | mine
          · cases none
          · exact absurd (Option.some.inj mine) different
    · exact fun table _ => stepped.live table

theorem busy_of_moved {moved : Moved} {state : AddressSpaceManager}
    (ran : advance point state = .ok moved manager) : point ≠ .idle := by
  intro idle
  rw [idle] at ran
  cases ran

theorem outline (platform : Platform) (holes : HoleList) :
    Outline (Act platform) (@Sound Thread platform holes) (@Knows Thread platform holes) Relies where
  step := by
    intro tenure world thread label next after holds acted
    have sound := holds.holds
    have knows := holds.at_ thread
    cases acted with
    | call idle permitted entered => exact Sound.call holds idle permitted entered
    | move ready moved =>
        obtain ⟨_, _, _, _, ran, stepped, view, leadsTo⟩ :=
          leads sound knows (busy_of_moved moved)
        rw [moved] at ran
        cases ran
        obtain ⟨claim, _, locks, _⟩ := leadsTo
        exact sound.turn stepped ready view locks claim
    | ended ready moved =>
        obtain ⟨_, _, _, _, ran, stepped, view, _⟩ := leads sound knows (busy_of_moved moved)
        rw [moved] at ran
        cases ran
        exact sound.turn stepped ready view (fun locked => by cases locked) trivial
  stable _ knows relies _ := knows.stable relies

end Turns

end Outline

end Espiral.AddressSpaceManager
