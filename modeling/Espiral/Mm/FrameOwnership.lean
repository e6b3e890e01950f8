import Espiral.Mm.AddressSpaceRuns

/-!
# Exclusive ownership of frames

What a frame is used for can be read off the bytes of the live tables. No frame
of the page allocator outside the holes is used for two things at once.
-/

namespace Espiral.AddressSpaceManager

set_option autoImplicit false

open MachineWords Traces

/-- The uses of a frame that the entries of the live tables show. -/
inductive HasRole (state : AddressSpaceManager) (frame : Nat) : Role → Prop
  | root (isLive : state.Live frame) : HasRole state frame (.root frame)
  | node {table index : Nat} (isLive : state.Live table) (small : index < 1024)
      (valid : pteValid (entryAt state.view table index) = true)
      (target : ptePa (entryAt state.view table index) = frame) :
      HasRole state frame (.node table index)
  | leaf {table index slot : Nat} (isLive : state.Live table) (small : index < 1024)
      (slotSmall : slot < 1024) (upper : pteValid (entryAt state.view table index) = true)
      (lower : pteValid
        (entryAt state.view (ptePa (entryAt state.view table index)) slot) = true)
      (target : ptePa
        (entryAt state.view (ptePa (entryAt state.view table index)) slot) = frame) :
      HasRole state frame (.leaf table (index * 1024 + slot))

section Roles

variable {platform : Platform} {holes : HoleList} {identity : Nat → Prop}
  {owner : Nat → Option Role} {state : AddressSpaceManager} {frame : Nat} {role : Role}

theorem WellOwned.owns (owned : WellOwned platform identity owner state)
    (has : HasRole state frame role) : owner frame = some role ∨ identity frame := by
  cases has with
  | root isLive => exact Or.inl (owned.roots frame isLive)
  | node isLive small valid target =>
      left
      rw [← target]
      exact (owned.nodes _ _ isLive small valid).2
  | leaf isLive small slotSmall upper lower target =>
      rw [← target]
      rcases (owned.leaves _ _ _ isLive small slotSmall upper lower).2 with mine | ⟨itself, _⟩
      · exact Or.inl mine
      · exact Or.inr itself

theorem owner_of_role (owned : WellOwned platform (MayMapItself platform holes) owner state)
    (isFrame : platform.IsFrame frame) (outside : holes.addrInHole frame = false)
    (has : HasRole state frame role) : owner frame = some role := by
  rcases owned.owns has with mine | inHole | notFrame
  · exact mine
  · rw [outside] at inHole
    cases inHole
  · exact absurd isFrame notFrame

end Roles

/-- After any run, what is in use are frames, and a frame outside the holes has at
most one role; if it has one, it is in use. -/
theorem frames_have_one_role {platform : Platform} (valid : platform.Valid) (localMemSize : Nat)
    {operations : List Operation} {state : AddressSpaceManager}
    (run : Trace (Step platform) (new platform localMemSize) operations state) :
    (∀ frame ∈ state.frames, platform.IsFrame frame) ∧
      ∀ frame, platform.IsFrame frame → state.hole_list_.addrInHole frame = false →
        (∀ first second, HasRole state frame first → HasRole state frame second →
            first = second) ∧
          ∀ role, HasRole state frame role → frame ∈ state.frames := by
  rw [new_withHoles] at run
  have reached := run_reached valid run
  rcases reached.owned with ⟨owner, owned⟩
  constructor
  · intro frame used
    exact owned.pool.isFrame used
  · intro frame isFrame outside
    rw [reached.holes] at outside
    constructor
    · intro first second firstHas secondHas
      have firstOwns := owner_of_role owned isFrame outside firstHas
      have secondOwns := owner_of_role owned isFrame outside secondHas
      rw [firstOwns, Option.some.injEq] at secondOwns
      exact secondOwns
    · intro role has
      exact (owned.used frame role (owner_of_role owned isFrame outside has)).1

theorem frames_have_one_role_small : ∃ state : AddressSpaceManager,
    Trace (Step smallPlatform) (new smallPlatform 0)
        [.allocatePageTable, .allocateOneVmPage 0x5000 0x1000 PteFlags.R] state ∧
      (∀ frame ∈ state.frames, smallPlatform.IsFrame frame) ∧
      ∀ frame, smallPlatform.IsFrame frame → state.hole_list_.addrInHole frame = false →
        (∀ first second, HasRole state frame first → HasRole state frame second →
            first = second) ∧
          ∀ role, HasRole state frame role → frame ∈ state.frames := by
  rcases smallPlatform_run with ⟨state, run, _⟩
  exact ⟨state, run, frames_have_one_role smallPlatform_valid 0 run⟩

end Espiral.AddressSpaceManager
