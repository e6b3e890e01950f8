import Espiral.Mm.TableDumps
import Espiral.Mm.UncheckedFlags

/-!
# Dumped address mappings

After any run, whatever flags the mappings of the other tables were made with,
the dump of a table with readable pages lists what a translation finds: each
mapped page once, in the order of the addresses.
-/

namespace Espiral.AddressSpaceManager

set_option autoImplicit false

open Contracts MachineWords Traces

section Reads

variable {start : AddressSpaceManager}

theorem readScratchpad_keeps (addr size : Nat) :
    Keeps (ReadOnly start) (readScratchpad addr size) := by
  intro state kept
  obtain ⟨bytes, next, ran, read⟩ := @readScratchpad_only state addr size
  exact ensures_of_run ran (kept.trans read)

theorem dumpPageTableInner_keeps (depth root : Nat) (dump : SparseScratchpad) :
    Keeps (ReadOnly start) (dumpPageTableInner depth root dump) := by
  induction depth generalizing root dump with
  | zero => exact keeps_throw _
  | succ depth ih =>
      rw [dumpPageTableInner]
      apply (readScratchpad_keeps root PAGE_SIZE).bind
      intro node
      apply keeps_foldlM
      intro found index
      exact keeps_ite (fun _ => ih _ _) fun _ => keeps_pure _

theorem dumpAddressMappingInner_keeps (level node va_prefix : Nat) (mapping : List (Nat × Nat)) :
    Keeps (ReadOnly start) (dumpAddressMappingInner level node va_prefix mapping) := by
  induction level generalizing node va_prefix mapping with
  | zero =>
      rw [dumpAddressMappingInner]
      apply (readScratchpad_keeps node PAGE_SIZE).bind
      intro bytes
      exact keeps_ite (fun _ => keeps_throw _) fun _ => keeps_pure _
  | succ level ih =>
      rw [dumpAddressMappingInner]
      apply (readScratchpad_keeps node PAGE_SIZE).bind
      intro bytes
      apply keeps_foldlM
      intro found index
      apply keeps_ite
      · intro _
        exact keeps_ite (fun _ => keeps_pure _) fun _ => ih _ _ _
      · intro _
        exact keeps_pure _

end Reads

inductive ManagerCall where
  | update (operation : Operation)
  | translate (va top_pgtbl_pa : Nat)
  | dumpPageTable (top_pgtbl_pa : Nat)
  | dumpAddressMapping (top_pgtbl_pa : Nat)
  deriving DecidableEq, Repr

def runCall : ManagerCall → Action AddressSpaceManager Unit
  | .update operation => do discard (perform operation)
  | .translate va top_pgtbl_pa => do discard (translate va top_pgtbl_pa)
  | .dumpPageTable top_pgtbl_pa => do discard (dumpPageTable top_pgtbl_pa)
  | .dumpAddressMapping top_pgtbl_pa => do discard (dumpAddressMapping top_pgtbl_pa)

/-- The conditions on a call, none of them on its flags. -/
def Permitted (platform : Platform) (state : AddressSpaceManager) : ManagerCall → Prop
  | .update .allocatePageTable => True
  | .update (.allocateOneVmPage va root _) => state.Live root ∧ va < 2 ^ 32
  | .update (.allocateVmPages _ _ root _) => state.Live root
  | .update (.unsafeMapIdentity addr size root _) => state.Live root ∧
      ∀ offset < size, 4096 ∣ offset →
        MayMapItself platform state.hole_list_ (frameOf (wrap32 (addr + offset)))
  | .update (.freePageTable root) => state.Live root
  | _ => True

def UncheckedStep (platform : Platform) (state : AddressSpaceManager) (call : ManagerCall)
    (next : AddressSpaceManager) : Prop :=
  Permitted platform state call ∧
    ((∃ result, runCall call state = .ok result next) ∨
      ∃ fault, runCall call state = .error fault next)

section Runs

variable {platform : Platform} {holes : HoleList} {state next : AddressSpaceManager}
  {owner : Nat → Option Role} {twin : AddressSpaceManager}

theorem Paired.readOnly (paired : Paired platform holes state) (kept : ReadOnly state next) :
    Paired platform holes next := by
  obtain ⟨owner, twin, holds⟩ := paired.twin
  exact ⟨⟨owner, twin, holds.read kept.sameView⟩, kept.holes.trans paired.holes⟩

theorem forPages_paired {size root : Nat} {body : Nat → Action AddressSpaceManager Unit}
    (keeps : ∀ offset state, offset < size → 4096 ∣ offset → Paired platform holes state →
      state.Live root → Ensures (body offset) state
        (fun _ next => StaysPaired platform (MayMapItself platform holes) state next)
        (fun _ next => StaysPaired platform (MayMapItself platform holes) state next))
    (paired : Paired platform holes state) (isLive : state.Live root) :
    Ensures (forPages size body pageLoopFuel 0) state (fun _ next => Paired platform holes next)
      (fun _ next => Paired platform holes next) := by
  have loop : Ensures (forPages size body pageLoopFuel 0) state
      (fun _ next => Paired platform holes next ∧ next.Live root)
      (fun _ next => Paired platform holes next ∧ next.Live root) := by
    apply forPages_keeps ?_ (Nat.dvd_zero 4096) ⟨paired, isLive⟩
    rintro offset current inside aligned ⟨now, liveNow⟩
    apply (keeps offset current inside aligned now liveNow).weaken
    · intro _ after stays
      exact ⟨now.stays stays, stays.live root liveNow⟩
    · intro _ after stays
      exact ⟨now.stays stays, stays.live root liveNow⟩
  exact loop.weaken (fun _ _ => And.left) (fun _ _ => And.left)

theorem perform_paired (paired : Paired platform holes state) {operation : Operation}
    (permitted : Permitted platform state (.update operation)) :
    Ensures (perform operation) state (fun _ next => Paired platform holes next)
      (fun _ next => Paired platform holes next) := by
  obtain ⟨owner, twin, holds⟩ := paired.twin
  cases operation with
  | allocatePageTable =>
      obtain ⟨result, next, ran, stays⟩ := holds.allocatePageTable
      exact ensures_of_run ran (paired.stays stays)
  | allocateOneVmPage va root flags =>
      apply ensures_map
      exact (holds.allocateOneVmPage permitted.1 permitted.2 flags).weaken
        (fun _ _ => paired.stays) (fun _ _ => paired.stays)
  | allocateVmPages va size root flags =>
      apply ensures_map
      apply forPages_paired ?_ paired permitted
      intro offset current _ _ now liveNow
      obtain ⟨middle, other, pair⟩ := now.twin
      exact pair.allocateOneVmPage liveNow (wrap32_lt _) flags
  | unsafeMapIdentity addr size root flags =>
      apply ensures_map
      apply forPages_paired ?_ paired permitted.1
      intro offset current inside aligned now liveNow
      obtain ⟨middle, other, pair⟩ := now.twin
      have itself := permitted.2 offset inside aligned
      rw [paired.holes] at itself
      exact pair.mapAddrInner liveNow (wrap32_lt _) flags (wrap32_lt _) (Or.inr ⟨itself, rfl⟩)
  | freePageTable root =>
      have mayMapItself : ∀ frame, MayMapItself platform holes frame →
          MayMapItself platform state.hole_list_ frame := by
        rw [paired.holes]
        exact fun _ itself => itself
      obtain ⟨next, ran, sameHoles, nextTwin, gone⟩ := holds.freePageTable mayMapItself permitted
      exact ensures_of_run (map_ok _ ran) ⟨⟨_, nextTwin, gone⟩, sameHoles.trans paired.holes⟩

theorem call_paired (paired : Paired platform holes state) {call : ManagerCall}
    (step : UncheckedStep platform state call next) : Paired platform holes next := by
  obtain ⟨permitted, outcome⟩ := step
  have reads : ∀ {Value : Type} {action : Action AddressSpaceManager Value},
      Keeps (ReadOnly state) action → Ensures (discard action) state
        (fun _ next => Paired platform holes next) (fun _ next => Paired platform holes next) := by
    intro Value action keeps
    apply ensures_map
    exact (keeps state (ReadOnly.refl state)).weaken (fun _ _ => paired.readOnly)
      (fun _ _ => paired.readOnly)
  cases call with
  | update operation => exact (ensures_map (perform_paired paired permitted)).either outcome
  | translate va root =>
      obtain ⟨after, ran, kept⟩ := translate_returns state root va
      exact (ensures_map (ensures_of_run ran (paired.readOnly kept))).either outcome
  | dumpPageTable root => exact (reads (dumpPageTableInner_keeps _ _ _)).either outcome
  | dumpAddressMapping root =>
      exact (reads (dumpAddressMappingInner_keeps _ _ _ _)).either outcome

/-- The first address of a page is translated to the frame of its entry. -/
theorem translate_aligned {root va : Nat} (shaped : Shaped state.view root) (rootAligned : 4 ∣ root)
    (bound : va < 2 ^ 32) (aligned : 4096 ∣ va) : ∃ after,
    translate va root state = .ok ((leafOf state.view root (va / 4096)).map ptePa) after := by
  obtain ⟨after, ran, _⟩ := @translate_run state va root rootAligned
  refine ⟨after, ?_⟩
  have offset : vaPgoff va = 0 := by
    rw [vaPgoff_eq]
    exact Nat.mod_eq_zero_of_dvd aligned
  rw [ran, walkRoot_leafOf shaped bound, offset]
  simp only [Nat.or_zero]

theorem new_paired (valid : platform.Valid) (localMemSize : Nat) :
    Paired platform (new platform localMemSize).hole_list_ (new platform localMemSize) := by
  have owned := withHoles_owned valid
    (MayMapItself platform (new platform localMemSize).hole_list_)
    (new platform localMemSize).hole_list_
  refine ⟨⟨fun _ => none, new platform localMemSize, owned, rfl, rfl, fun _ => Iff.rfl, ?_, ?_⟩, rfl⟩
  · intro root isLive
    exact fun _ _ => rfl
  · intro node table position has
    cases has

end Runs

/-- After any run the dump of a live table with readable pages lists each aligned address that
is translated, with its frame and in ascending order. -/
theorem dumpAddressMapping_exact {platform : Platform} (valid : platform.Valid) (localMemSize : Nat)
    {calls : List ManagerCall} {state : AddressSpaceManager}
    (run : Trace (UncheckedStep platform) (new platform localMemSize) calls state) {root : Nat}
    (isLive : state.Live root) (readable : AllReadable state.history root) :
    ∃ listed next, dumpAddressMapping root state = .ok listed next ∧
      (∀ va pa, (va, pa) ∈ listed ↔ va < 2 ^ 32 ∧ 4096 ∣ va ∧
        ∃ after, translate va root state = .ok (some pa) after) ∧
      listed.Nodup ∧ listed.Pairwise fun first second => first.1 < second.1 := by
  have paired := run.invariant (Paired platform (new platform localMemSize).hole_list_)
    (fun _ _ _ now step => call_paired now step) (new_paired valid localMemSize)
  obtain ⟨owner, twin, holds⟩ := paired.twin
  have shaped := holds.shaped isLive readable
  have rootAligned : 4 ∣ root :=
    (by decide : 4 ∣ 4096).trans (holds.owned.aligned (holds.root_owner isLive))
  have ascending := pageListing_ascending state.view root
  rcases ensures_iff.mp (dumpAddressMapping_spec shaped) with
    ⟨listed, next, ran, isListing, _⟩ | ⟨_, _, _, impossible⟩
  · rw [isListing] at ran
    refine ⟨_, next, ran, ?_, ascending.imp fun order same => ?_, ascending⟩
    · intro va pa
      rw [mem_pageListing]
      refine and_congr_right fun bound => and_congr_right fun aligned => ?_
      obtain ⟨after, walked⟩ := translate_aligned shaped rootAligned bound aligned
      rw [walked]
      constructor
      · intro found
        exact ⟨after, by rw [found]⟩
      · rintro ⟨last, same⟩
        rw [EStateM.Result.ok.injEq] at same
        exact same.1
    · rw [same] at order
      exact Nat.lt_irrefl _ order
  · exact impossible.elim

theorem dumpAddressMapping_exact_one : ∃ state : AddressSpaceManager,
    Trace (UncheckedStep smallPlatform) (new smallPlatform 0)
        [.update .allocatePageTable, .update (.allocateOneVmPage 0x5000 0x1000 PteFlags.R)] state ∧
      ∃ listed next, dumpAddressMapping 0x1000 state = .ok listed next ∧
        (∀ va pa, (va, pa) ∈ listed ↔ va < 2 ^ 32 ∧ 4096 ∣ va ∧
          ∃ after, translate va 0x1000 state = .ok (some pa) after) ∧
        listed.Nodup ∧ listed.Pairwise fun first second => first.1 < second.1 := by
  obtain ⟨created, ran, history, _⟩ := smallPlatform_created
  have isLive : created.Live 0x1000 := by
    rw [Live, history]
    rfl
  have fresh : AllReadable created.history 0x1000 := by
    rw [history]
    exact allReadable_created [] 0x1000
  have first : Step smallPlatform (new smallPlatform 0) .allocatePageTable created :=
    ⟨trivial, Or.inl ⟨_, ran⟩⟩
  obtain ⟨owner, owned⟩ :=
    (run_reached smallPlatform_valid (Trace.cons first (Trace.nil created))).owned
  obtain ⟨state, outcome, liveNow, readable⟩ : ∃ state,
      ((∃ result, runCall (.update (.allocateOneVmPage 0x5000 0x1000 PteFlags.R)) created =
          .ok result state) ∨
        ∃ fault, runCall (.update (.allocateOneVmPage 0x5000 0x1000 PteFlags.R)) created =
          .error fault state) ∧ state.Live 0x1000 ∧ AllReadable state.history 0x1000 := by
    rcases ensures_iff.mp (allocateOneVmPage_spec owned isLive (by decide : 0x5000 < 2 ^ 32)
      (by decide : PteFlags.R &&& PteFlags.R ≠ 0)) with
      ⟨_, state, mapped, _, _, _, grown, _⟩ | ⟨_, state, refused, _, _, same, _⟩
    · refine ⟨state, Or.inl ⟨(), map_ok _ (map_ok _ mapped)⟩, live_of_mapped grown isLive, ?_⟩
      rw [grown]
      exact allReadable_mapped fresh (by decide)
    · refine ⟨state, Or.inr ⟨_, map_error _ (map_error _ refused)⟩, live_of_same same isLive, ?_⟩
      rw [same]
      exact fresh
  have run : Trace (UncheckedStep smallPlatform) (new smallPlatform 0)
      [.update .allocatePageTable, .update (.allocateOneVmPage 0x5000 0x1000 PteFlags.R)] state :=
    Trace.cons ⟨trivial, Or.inl ⟨(), map_ok _ ran⟩⟩
      (Trace.cons ⟨⟨isLive, by decide⟩, outcome⟩ (Trace.nil state))
  exact ⟨state, run, dumpAddressMapping_exact smallPlatform_valid 0 run liveNow readable⟩

end Espiral.AddressSpaceManager
