import Espiral.Mm.AddressSpaceRuns
import Espiral.Mm.TableDumps
import Espiral.Mm.Translation

/-!
# Frames of second attempts

A request that rejects its first frame takes the second one untested. Where no
second frame is reported as a hole, pages that are mapped to themselves share no
byte with the tables and with the other pages.
-/

namespace Espiral.AddressSpaceManager

set_option autoImplicit false

open ByteMemory Contracts MachineWords VortexMemoryAllocator

/-- The free frame after a reported one is not reported. -/
def RetryMet (platform : Platform) (holes : HoleList) (used : Finset Nat) : Prop :=
  ∀ first, NextFrame platform used first → holes.addrInHole first = true →
    ∀ second, NextFrame platform (insert first used) second → holes.addrInHole second = false

def RetriesMet (platform : Platform) (holes : HoleList) (used last : Finset Nat) : Prop :=
  ∀ before, Requests platform (fun frame => holes.addrInHole frame) used before →
    before ⊂ last → RetryMet platform holes before

/-- No frame with a role is reported as a hole. -/
def Unreported (holes : HoleList) (owner : Nat → Option Role) : Prop :=
  ∀ frame role, owner frame = some role → holes.addrInHole frame = false

section Requests

variable {platform : Platform} {holes : HoleList} {owner later : Nat → Option Role}
  {used last : Finset Nat} {frame : Nat}

theorem HandedOut.unreported (met : RetriesMet platform holes used last)
    (handed : HandedOut platform (fun frame => holes.addrInHole frame) used last frame) :
    holes.addrInHole frame = false := by
  obtain ⟨before, after, earlier, outcome, rest⟩ := handed
  have fresh := outcome.fresh
  have strict : before ⊂ after :=
    Finset.ssubset_iff_subset_ne.mpr ⟨outcome.grows, fun same => fresh.2.1 (by
      rw [same]
      exact fresh.1)⟩
  cases outcome with
  | direct _ outside => exact outside
  | retried first inside next =>
      exact met before earlier (strict.trans_subset rest.grows) _ first inside _ next

theorem Unreported.taken (unreported : Unreported holes owner)
    (taken : Taken platform (fun frame => holes.addrInHole frame) none owner later used last)
    (met : RetriesMet platform holes used last) : Unreported holes later := by
  intro frame role has
  rcases taken.roles frame role has with before | impossible | handed
  · exact unreported frame role before
  · cases impossible
  · exact handed.unreported met

end Requests

section Bytes

variable {platform : Platform} {holes : HoleList} {owner : Nat → Option Role}
  {state : AddressSpaceManager} {root : Nat}
  (owned : WellOwned platform (MayMapItself platform holes) owner state)
  (unreported : Unreported holes owner) (isLive : state.Live root)

include owned unreported

theorem WellOwned.itself_free {frame : Nat} (itself : MayMapItself platform holes frame) :
    owner frame = none := by
  cases has : owner frame with
  | none => rfl
  | some role =>
      exfalso
      cases itself with
      | inl inHole =>
          rw [unreported frame role has] at inHole
          cases inHole
      | inr outside => exact outside (owned.pool.isFrame (owned.used frame role has).1)

include isLive

theorem WellOwned.translated_apart {first second pa : Nat} (firstBound : first < 2 ^ 32)
    (secondBound : second < 2 ^ 32) (firstFound : state.translated root first = some pa)
    (secondFound : state.translated root second = some pa) : first = second := by
  obtain ⟨firstOffset, firstPlace⟩ := owned.translated_owner isLive firstBound firstFound
  obtain ⟨secondOffset, secondPlace⟩ := owned.translated_owner isLive secondBound secondFound
  cases firstPlace with
  | inl firstMine =>
      cases secondPlace with
      | inl secondMine =>
          rw [firstMine, Option.some.injEq, Role.leaf.injEq] at secondMine
          omega
      | inr secondItself =>
          rw [owned.itself_free unreported secondItself.1] at firstMine
          cases firstMine
  | inr firstItself =>
      cases secondPlace with
      | inl secondMine =>
          rw [owned.itself_free unreported firstItself.1] at secondMine
          cases secondMine
      | inr secondItself =>
          have same := firstItself.2.symm.trans secondItself.2
          unfold frameOf at same
          omega

omit unreported in
theorem WellOwned.node_owner {node : Nat} (isNode : IsNode state.view root node) :
    ∃ role, owner node = some role ∧ ∀ page, role ≠ .leaf root page := by
  cases isNode with
  | inl isRoot =>
      rw [isRoot]
      exact ⟨_, owned.roots root isLive, fun _ => by simp⟩
  | inr below =>
      obtain ⟨index, small, valid, target⟩ := below
      rw [← target]
      exact ⟨_, (owned.nodes root index isLive small valid).2, fun _ => by simp⟩

theorem WellOwned.translated_outside {va pa node : Nat} (bound : va < 2 ^ 32)
    (found : state.translated root va = some pa) (isNode : IsNode state.view root node) :
    pa < node ∨ node + 4096 ≤ pa := by
  by_contra inside
  obtain ⟨role, has, inner⟩ := owned.node_owner isLive isNode
  have aligned := owned.aligned has
  have frame : frameOf pa = node := by
    unfold frameOf
    omega
  obtain ⟨_, place⟩ := owned.translated_owner isLive bound found
  rw [frame] at place
  cases place with
  | inl mine =>
      rw [has, Option.some.injEq] at mine
      exact inner _ mine
  | inr itself =>
      rw [owned.itself_free unreported itself.1] at has
      cases has

end Bytes

section Calls

variable {platform : Platform} {identity : Nat → Prop} {holes : HoleList} {root : Nat}
  {owner : Nat → Option Role} {start state next : AddressSpaceManager}

theorem Progress.of_sameView (progress : Progress platform identity holes root owner start state)
    (same : SameView state next) : Progress platform identity holes root owner start next where
  owned := by
    obtain ⟨later, owned, taken⟩ := progress.owned
    refine ⟨later, owned.sameView same, ?_⟩
    rw [same.frames]
    exact taken
  holes := same.holes.trans progress.holes
  consistent := by
    rw [same.history]
    exact progress.consistent
  isLive := live_of_same same.history progress.isLive
  onlyMaps := by
    rw [same.history]
    exact progress.onlyMaps

theorem Progress.lives (progress : Progress platform identity holes root owner start state)
    (table : Nat) (isLive : start.Live table) : state.Live table := by
  obtain ⟨newer, history, only⟩ := progress.onlyMaps
  rw [Live, history]
  exact live_append (only table).2 isLive

theorem Progress.trans {middle : Nat → Option Role}
    (progress : Progress platform identity holes root owner start state)
    (taken : Taken platform (fun frame => holes.addrInHole frame) none owner middle start.frames
      state.frames)
    (more : Progress platform identity holes root middle state next) :
    Progress platform identity holes root owner start next where
  owned := by
    obtain ⟨later, owned, takes⟩ := more.owned
    exact ⟨later, owned, taken.trans takes⟩
  holes := more.holes
  consistent := more.consistent
  isLive := more.isLive
  onlyMaps := by
    obtain ⟨newer, split, only⟩ := progress.onlyMaps
    obtain ⟨newest, resplit, onlyAgain⟩ := more.onlyMaps
    refine ⟨newest ++ newer, by rw [resplit, split, List.append_assoc], ?_⟩
    intro table
    simp [only table, onlyAgain table]

variable {va size flags : Nat} (readable : flags &&& PteFlags.R ≠ 0)

include readable

theorem allocateVmPages_keeps :
    Keeps (Progress platform identity holes root owner start)
      (allocateVmPages va size root flags) := by
  intro state progress
  obtain ⟨middle, owned, taken⟩ := progress.owned
  apply (allocateVmPages_spec progress.reached owned progress.isLive readable).weaken
  · intro _ next outcome
    exact progress.trans taken outcome.1
  · intro _ next outcome
    exact progress.trans taken outcome.1

theorem allocateOneVmPage_keeps (vaBound : va < 2 ^ 32) :
    Keeps (Progress platform identity holes root owner start) (allocateOneVmPage va root flags) := by
  intro state progress
  obtain ⟨middle, owned, taken⟩ := progress.owned
  have spec := allocateOneVmPage_spec owned progress.isLive vaBound readable
  rw [progress.holes] at spec
  apply spec.weaken
  · intro _ next outcome
    obtain ⟨later, pa, advanced, history, unmapped, isFrame, _, takes⟩ := outcome
    exact progress.mapped taken advanced history unmapped (isFrame.narrow owned.pool.valid) takes
  · intro _ next outcome
    obtain ⟨later, advanced, same, takes, _⟩ := outcome
    exact progress.failed taken advanced same takes

theorem unsafeMapIdentity_keeps {addr : Nat}
    (allowed : ∀ offset < size, 4096 ∣ offset → identity (frameOf (wrap32 (addr + offset)))) :
    Keeps (Progress platform identity holes root owner start)
      (unsafeMapIdentity addr size root flags) := by
  intro state progress
  obtain ⟨middle, owned, taken⟩ := progress.owned
  apply (unsafeMapIdentity_spec progress.reached owned progress.isLive readable allowed).weaken
  · intro _ next outcome
    exact progress.trans taken outcome
  · intro _ next outcome
    exact progress.trans taken outcome

end Calls

end Espiral.AddressSpaceManager
