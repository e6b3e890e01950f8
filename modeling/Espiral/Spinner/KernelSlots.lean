import Espiral.Spinner.FailedAllocations
import Espiral.Spinner.Footprints
import Espiral.Spinner.Isolation

/-!
# Slots of kernels

What a call has done is said once: it has created a table for a new kernel, or
freed the table of one, or worked on it. Every occupied slot has a live table of
its own, so there are never more slots than frames, and ids are never cut.
-/

namespace Espiral.Spinner

set_option autoImplicit false

open AddressSpaceManager Contracts MachineWords Traces

def SpinnerCall.kernel : SpinnerCall → Option Nat
  | .allocateKernel _ => none
  | .allocateHeap kid _ => some kid
  | .uploadArgs kid _ => some kid
  | .upload kid _ _ => some kid
  | .download kid _ _ => some kid
  | .startKernel kid _ => some kid
  | .freeKernel kid => some kid

def SpinnerCall.starts : SpinnerCall → Bool
  | .startKernel _ _ => true
  | _ => false

def SpinnerCall.frees : SpinnerCall → Bool
  | .freeKernel _ => true
  | _ => false

/-- The addresses of its kernel that a call may write to, as far as it gets. -/
def SpinnerCall.writes (files : Files) (kcbs : Kcbs) : SpinnerCall → Nat → Prop
  | .uploadArgs kid args => fun addr => ∃ kcb heap, HasHeap kcbs kid kcb heap ∧
      Spans heap.vm_allocator_.nextAddress_ args.length addr
  | .upload _ va content => Spans va content.length
  | .startKernel kid _ => fun addr => ∃ kcb content, kcbs[kid]? = some (some kcb) ∧
      files kcb.vxbin_path = some content ∧
      Spans (imageStart content) (imageBytes content).length addr
  | _ => fun _ => False

inductive Done (platform : Platform) (holes : HoleList) (files : Files)
    (state : Spinner FlatDevice) : SpinnerCall → Spinner FlatDevice → Prop
  /-- There is no frame for the table, and the slot is given back. -/
  | refused {vxbin_path : String} {aspace : AddressSpaceManager}
      (ran : AddressSpaceManager.allocatePageTable state.aspace_ = .ok none aspace) :
      Done platform holes files state (.allocateKernel vxbin_path) { state with
        kcbs_ := state.kcbs_.allocate.2.set state.kcbs_.allocate.1 none
        aspace_ := aspace }
  /-- The file is not there or too short, and the slot and the table are kept. -/
  | abandoned {vxbin_path : String} {root : Nat} {aspace : AddressSpaceManager}
      (ran : AddressSpaceManager.allocatePageTable state.aspace_ = .ok (some root) aspace) :
      Done platform holes files state (.allocateKernel vxbin_path) { state with
        kcbs_ := state.kcbs_.allocate.2
        aspace_ := aspace }
  | stored {vxbin_path : String} {root : Nat} {aspace : AddressSpaceManager}
      (ran : AddressSpaceManager.allocatePageTable state.aspace_ = .ok (some root) aspace)
      {kcb : KernelControlBlock} (rootIs : kcb.top_pgtbl_pa = root)
      (fresh : ∃ base_va, kcb.heap = some (HeapManager.new root base_va) ∧ base_va < 2 ^ 32 ∧
        4096 ∣ base_va) :
      Done platform holes files state (.allocateKernel vxbin_path) { state with
        kcbs_ := state.kcbs_.allocate.2.set state.kcbs_.allocate.1 (some kcb)
        aspace_ := aspace }
  | served {call : SpinnerCall} {next : Spinner FlatDevice} {kid : Nat} {kcb : KernelControlBlock}
      {heap : HeapManager} (kernel : call.kernel = some kid) (keeps : call.frees = false)
      (found : HasHeap state.kcbs_ kid kcb heap)
      (served : Served platform holes kid kcb.top_pgtbl_pa (call.writes files state.kcbs_)
        call.starts state next) :
      Done platform holes files state call next
  | freed {kid : Nat} {kcb : KernelControlBlock} {heap : HeapManager}
      {aspace : AddressSpaceManager} (found : HasHeap state.kcbs_ kid kcb heap)
      (ran : AddressSpaceManager.freePageTable kcb.top_pgtbl_pa state.aspace_ = .ok () aspace) :
      Done platform holes files state (.freeKernel kid) { state with
        kcbs_ := state.kcbs_.set kid none
        aspace_ := aspace }

section Calls

variable {platform : Platform} {holes : HoleList} {caps : Caps → Option Nat} {files : Files}
  {state next : Spinner FlatDevice} {kid : Nat} {kcb : KernelControlBlock} {heap : HeapManager}

theorem Serving.owns (serving : Serving platform holes files state)
    (found : HasHeap state.kcbs_ kid kcb heap) :
    Owns platform holes kid kcb.top_pgtbl_pa state := by
  obtain ⟨rootIs, isLive⟩ := serving.kernels.rooted _ _ _ found
  exact ⟨serving.kernels.reached, isLive, kcb, heap, found, rfl, rootIs⟩

theorem allocateKernel_done (serving : Serving platform holes files state) (vxbin_path : String) :
    Ensures (Spinner.allocateKernel files vxbin_path) state
      (fun _ next => Done platform holes files state (.allocateKernel vxbin_path) next)
      (fun _ next => Done platform holes files state (.allocateKernel vxbin_path) next) := by
  obtain ⟨owner, owned⟩ := serving.kernels.reached.owned
  obtain ⟨result, aspace, _, ran, _⟩ := serving.kernels.reached.allocatePageTable owned
  cases result with
  | none => exact ensures_iff.mpr (Or.inr ⟨_, _, allocateKernel_noRoot ran, .refused ran⟩)
  | some root =>
      cases onDisk : files vxbin_path with
      | none =>
          exact ensures_iff.mpr (Or.inr ⟨_, _, allocateKernel_noFile ran onDisk, .abandoned ran⟩)
      | some content =>
          by_cases whole : 16 ≤ content.length
          · exact ensures_of_run (allocateKernel_run ran onDisk whole)
              (.stored ran rfl ⟨_, rfl, wrap32_lt _, pageAlignUp_aligned _⟩)
          · have short := allocateKernel_short ran onDisk (Nat.lt_of_not_le whole)
            exact ensures_iff.mpr (Or.inr ⟨_, _, short, .abandoned ran⟩)

theorem freeKernel_done (serving : Serving platform holes files state)
    (found : HasHeap state.kcbs_ kid kcb heap) :
    Ensures (Spinner.freeKernel kid) state
      (fun _ next => Done platform holes files state (.freeKernel kid) next)
      (fun _ next => Done platform holes files state (.freeKernel kid) next) := by
  obtain ⟨owner, owned⟩ := serving.kernels.reached.owned
  obtain ⟨aspace, ran, _⟩ := freePageTable_spec owned
    (fun _ itself => by rw [serving.kernels.reached.holes]; exact itself)
    (serving.kernels.rooted _ _ _ found).2
  have removed : freeKcb kid { state with aspace_ := aspace } =
      .ok () { state with kcbs_ := state.kcbs_.set kid none, aspace_ := aspace } := by
    rw [freeKcb, setKcb, if_pos (List.getElem?_eq_some_iff.mp found.stored).1]
  rw [Spinner.freeKernel]
  apply ensures_bind_of_run (kcbAt_run found.stored)
  apply ensures_bind_of_run (onAddressSpace_run ran)
  exact ensures_of_run removed (.freed found ran)

theorem upload_served {root : Nat} {nodes : Bool} {start : Spinner FlatDevice} (va : Nat)
    (content : List UInt8) : Keeps
      (Served platform holes kid root (Spans va content.length) nodes start)
      (Spinner.upload (flatAccelerator caps) kid va content) := by
  apply copyHostToDev_served content (wrap32_lt va)
  rintro addr ⟨index, inside, addrIs⟩
  refine ⟨index, inside, ?_⟩
  rw [addrIs]
  unfold wrap32
  omega

theorem performCall_done (serving : Serving platform holes files state)
    (itself : ∀ page, MapsItself platform ((caps .localMemSize).getD 0) page →
      MayMapItself platform holes page)
    {call : SpinnerCall} (admissible : Admissible state.kcbs_ call) :
    Ensures (performCall platform caps files call) state
      (fun _ next => Done platform holes files state call next)
      (fun _ next => Done platform holes files state call next) := by
  have works : ∀ {kid : Nat}, Finished state.kcbs_ kid → call.kernel = some kid →
      call.frees = false →
      (∀ root, Owns platform holes kid root state →
        Ensures (performCall platform caps files call) state
          (fun _ next => Served platform holes kid root (call.writes files state.kcbs_) call.starts
            state next)
          (fun _ next => Served platform holes kid root (call.writes files state.kcbs_) call.starts
            state next)) →
      Ensures (performCall platform caps files call) state
        (fun _ next => Done platform holes files state call next)
        (fun _ next => Done platform holes files state call next) := by
    intro kid finished kernel keeps serves
    obtain ⟨kcb, heap, found⟩ := finished
    apply (serves kcb.top_pgtbl_pa (serving.owns found)).weaken
    · exact fun _ _ served => .served kernel keeps found served
    · exact fun _ _ served => .served kernel keeps found served
  cases call with
  | allocateKernel vxbin_path =>
      apply Ensures.bind
      apply (allocateKernel_done serving vxbin_path).weaken
      · exact fun _ _ done => ensures_pure done
      · exact fun _ _ done => done
  | allocateHeap kid size =>
      exact works admissible rfl rfl fun _ owns =>
        ((allocateHeap_served size).bind fun _ => keeps_pure _) state (Served.refl owns)
  | uploadArgs kid args =>
      exact works admissible rfl rfl fun _ owns => uploadArgs_served args owns
        fun kcb heap found _ spanned => ⟨kcb, heap, found, spanned⟩
  | upload kid va content =>
      exact works admissible rfl rfl fun _ owns => upload_served va content state (Served.refl owns)
  | download kid va dest =>
      exact works admissible rfl rfl fun _ owns =>
        ((download_served va dest).bind fun _ => keeps_pure _) state (Served.refl owns)
  | startKernel kid order =>
      exact works admissible.1 rfl rfl fun _ owns => startKernel_served admissible.2 itself
        (fun kcb content stored onDisk _ spanned => ⟨kcb, content, stored, onDisk, spanned⟩)
        state (Served.refl owns)
  | freeKernel kid =>
      obtain ⟨kcb, heap, found⟩ := admissible
      exact freeKernel_done serving found

theorem CallStep.done {call : SpinnerCall} (step : CallStep platform caps files state call next)
    (serving : Serving platform holes files state)
    (itself : ∀ page, MapsItself platform ((caps .localMemSize).getD 0) page →
      MayMapItself platform holes page) : Done platform holes files state call next :=
  (performCall_done serving itself step.1).either step.2

end Calls

/-- Occupied slots have live tables, each its own. A block that was never filled does not
name its table, so `table` does. -/
structure Tabled (table : Nat → Nat) (kcbs : Kcbs) (aspace : AddressSpaceManager) : Prop where
  live : ∀ kid, Occupied kcbs kid → aspace.Live (table kid)
  apart : ∀ kid other, Occupied kcbs kid → Occupied kcbs other → table kid = table other →
    kid = other
  rooted : ∀ kid kcb heap, HasHeap kcbs kid kcb heap → table kid = kcb.top_pgtbl_pa
  few : kcbs.length ≤ 2 ^ 20

section Slots

variable {platform : Platform} {identity : Nat → Prop} {owner : Nat → Option Role}
  {table : Nat → Nat} {kcbs : Kcbs} {aspace next : AddressSpaceManager} {kid root : Nat}
  {kcb old : KernelControlBlock} {heap oldHeap : HeapManager}

theorem Occupied.inside (occupied : Occupied kcbs kid) : kid < kcbs.length := by
  obtain ⟨kcb, stored⟩ := occupied
  exact (List.getElem?_eq_some_iff.mp stored).1

/-- The slots before the first empty one have different tables, and these are different frames. -/
theorem Tabled.freeSlot_lt (tabled : Tabled table kcbs aspace)
    (owned : WellOwned platform identity owner aspace) : freeSlot kcbs < 2 ^ 20 := by
  apply owned.assigned_few
  · intro kid below
    exact (owned.used _ _ (owned.roots _ (tabled.live kid (occupied_below below)))).1
  · intro first firstBelow second secondBelow same
    exact tabled.apart _ _ (occupied_below firstBelow) (occupied_below secondBelow) same

theorem allocate_length (kcbs : Kcbs) :
    kcbs.allocate.2.length = max kcbs.length (freeSlot kcbs + 1) := by
  unfold Kcbs.allocate freeSlot
  cases empty : kcbs.findIdx? Option.isNone with
  | some slot =>
      obtain ⟨inside, _, _⟩ := List.findIdx?_eq_some_iff_getElem.mp empty
      exact (Nat.max_eq_left inside).symm
  | none =>
      change (kcbs ++ [_]).length = max kcbs.length (kcbs.length + 1)
      rw [List.length_append, List.length_singleton]
      omega

theorem Tabled.kept (tabled : Tabled table kcbs aspace)
    (lives : ∀ table, aspace.Live table → next.Live table) : Tabled table kcbs next where
  live kid occupied := lives _ (tabled.live kid occupied)
  apart := tabled.apart
  rooted := tabled.rooted
  few := tabled.few

/-- Slots that are occupied in one table of blocks are so in the other, with the same tables. -/
theorem Tabled.within (tabled : Tabled table kcbs aspace) {fewer : Kcbs}
    (occupied : ∀ kid, Occupied fewer kid → Occupied kcbs kid)
    (roots : ∀ kid kcb heap, HasHeap fewer kid kcb heap → table kid = kcb.top_pgtbl_pa)
    (few : fewer.length ≤ 2 ^ 20) : Tabled table fewer aspace where
  live kid isOccupied := tabled.live kid (occupied kid isOccupied)
  apart kid other isOccupied otherOccupied :=
    tabled.apart kid other (occupied kid isOccupied) (occupied other otherOccupied)
  rooted := roots
  few := few

theorem Tabled.give (tabled : Tabled table kcbs aspace) (fresh : ¬aspace.Live root)
    (lives : ∀ table, next.Live table ↔ table = root ∨ aspace.Live table) {more : Kcbs}
    (others : ∀ kid, kid ≠ freeSlot kcbs → more[kid]? = kcbs[kid]?)
    (block : ∀ kcb heap, HasHeap more (freeSlot kcbs) kcb heap → root = kcb.top_pgtbl_pa)
    (few : more.length ≤ 2 ^ 20) :
    Tabled (Function.update table (freeSlot kcbs) root) more next := by
  have before : ∀ {kid}, kid ≠ freeSlot kcbs → Occupied more kid → Occupied kcbs kid := by
    intro kid away occupied
    obtain ⟨kcb, stored⟩ := occupied
    exact ⟨kcb, by rw [← others kid away]; exact stored⟩
  have notRoot : ∀ {kid}, kid ≠ freeSlot kcbs → Occupied more kid → table kid ≠ root := by
    intro kid away occupied same
    exact fresh (same ▸ tabled.live kid (before away occupied))
  refine ⟨?_, ?_, ?_, few⟩
  · intro kid occupied
    by_cases here : kid = freeSlot kcbs
    · rw [here, Function.update_self]
      exact (lives root).mpr (Or.inl rfl)
    · rw [Function.update_of_ne here]
      exact (lives _).mpr (Or.inr (tabled.live kid (before here occupied)))
  · intro kid other occupied otherOccupied same
    by_cases here : kid = freeSlot kcbs
    · by_cases there : other = freeSlot kcbs
      · rw [here, there]
      · rw [here, Function.update_self, Function.update_of_ne there] at same
        exact absurd same.symm (notRoot there otherOccupied)
    · by_cases there : other = freeSlot kcbs
      · rw [there, Function.update_self, Function.update_of_ne here] at same
        exact absurd same (notRoot here occupied)
      · rw [Function.update_of_ne here, Function.update_of_ne there] at same
        exact tabled.apart _ _ (before here occupied) (before there otherOccupied) same
  · intro kid kcb heap found
    by_cases here : kid = freeSlot kcbs
    · rw [here, Function.update_self]
      rw [here] at found
      exact block kcb heap found
    · rw [Function.update_of_ne here]
      apply tabled.rooted kid kcb heap ⟨?_, found.has⟩
      rw [← others kid here]
      exact found.stored

end Slots

section Steps

variable {platform : Platform} {holes : HoleList} {caps : Caps → Option Nat} {files : Files}
  {table : Nat → Nat} {state next : Spinner FlatDevice} {call : SpinnerCall} {kid : Nat}
  {kcb : KernelControlBlock} {heap : HeapManager}

theorem Tabled.slot (tabled : Tabled table state.kcbs_ state.aspace_)
    (serving : Serving platform holes files state) :
    freeSlot state.kcbs_ < 2 ^ 20 ∧ state.kcbs_.allocate.1 = freeSlot state.kcbs_ ∧
      state.kcbs_.allocate.2.length ≤ 2 ^ 20 := by
  obtain ⟨owner, owned⟩ := serving.kernels.reached.owned
  have few := tabled.few
  have slot := tabled.freeSlot_lt owned
  have length := allocate_length state.kcbs_
  refine ⟨slot, ?_, by omega⟩
  rw [allocate_slot, wrap32_of_lt (by omega)]

theorem Done.tabled (done : Done platform holes files state call next)
    (serving : Serving platform holes files state)
    (tabled : Tabled table state.kcbs_ state.aspace_) :
    ∃ later, Tabled later next.kcbs_ next.aspace_ := by
  obtain ⟨owner, owned⟩ := serving.kernels.reached.owned
  obtain ⟨slot, taken, length⟩ := tabled.slot serving
  have narrow : freeSlot state.kcbs_ < 2 ^ 32 := by omega
  have given : ∀ {root : Nat} {aspace : AddressSpaceManager},
      AddressSpaceManager.allocatePageTable state.aspace_ = .ok (some root) aspace →
      ¬state.aspace_.Live root ∧ ∀ table, aspace.Live table ↔ table = root ∨ state.aspace_.Live table := by
    intro root aspace ran
    obtain ⟨result, after, again, later, advanced, _, outcome⟩ := allocatePageTable_spec owned
    rw [ran] at again
    cases again
    rcases outcome with impossible | ⟨created, same, fresh, history⟩
    · cases impossible.1
    · cases same
      refine ⟨fun isLive => ?_, live_created history⟩
      exact fresh (owned.used _ _ (owned.roots _ isLive)).1
  cases done with
  | refused ran =>
      obtain ⟨result, after, _, again, _, _, _, lives, _⟩ :=
        serving.kernels.reached.allocatePageTable owned
      rw [ran] at again
      cases again
      refine ⟨table, (tabled.kept lives).within ?_ ?_ ?_⟩
      · intro kid occupied
        obtain ⟨kcb, stored⟩ := occupied
        exact ⟨kcb, (slot_given_back narrow).mp stored⟩
      · intro kid kcb heap found
        exact tabled.rooted kid kcb heap ⟨(slot_given_back narrow).mp found.stored, found.has⟩
      · rw [List.length_set]
        exact length
  | abandoned ran =>
      obtain ⟨fresh, lives⟩ := given ran
      refine ⟨_, tabled.give fresh lives (fun kid away => allocate_ne away) ?_ length⟩
      intro kcb heap found
      exact absurd ⟨kcb, found.of_allocate.stored⟩ freeSlot_vacant
  | stored ran rootIs _ =>
      obtain ⟨fresh, lives⟩ := given ran
      rw [taken]
      refine ⟨_, tabled.give fresh lives ?_ ?_ (by rw [List.length_set]; exact length)⟩
      · intro kid away
        rw [List.getElem?_set_ne (Ne.symm away), allocate_ne away]
      · intro kcb heap found
        cases found.of_set with
        | inl here => rw [here.2, rootIs]
        | inr away => exact absurd rfl away.1
  | @served call next kid kcb heap _ _ found served =>
      obtain ⟨block, blockHeap, blockFound, blockRoot, _⟩ := served.owns.found
      have kidInside := Occupied.inside ⟨kcb, found.stored⟩
      have length : next.kcbs_.length ≤ 2 ^ 20 := by
        by_contra longer
        have few := tabled.few
        have same := served.slots state.kcbs_.length (by omega)
        rw [List.getElem?_eq_none (Nat.le_refl _), List.getElem?_eq_none_iff] at same
        omega
      refine ⟨table, (tabled.kept served.work.entries.live).within ?_ ?_ length⟩
      · intro other occupied
        by_cases here : other = kid
        · rw [here]
          exact ⟨kcb, found.stored⟩
        · obtain ⟨otherKcb, stored⟩ := occupied
          rw [served.slots other here] at stored
          exact ⟨otherKcb, stored⟩
      · intro other otherKcb otherHeap otherFound
        by_cases here : other = kid
        · rw [here] at otherFound ⊢
          rw [(otherFound.unique blockFound).1, blockRoot]
          exact tabled.rooted kid kcb heap found
        · apply tabled.rooted other otherKcb otherHeap ⟨?_, otherFound.has⟩
          rw [← served.slots other here]
          exact otherFound.stored
  | @freed kid kcb heap aspace found ran =>
      obtain ⟨after, again, _, _, history, _⟩ := freePageTable_spec owned
        (fun _ itself => by rw [serving.kernels.reached.holes]; exact itself)
        (serving.kernels.rooted _ _ _ found).2
      rw [ran] at again
      cases again
      have occupied : ∀ other, Occupied (state.kcbs_.set kid none) other →
          other ≠ kid ∧ Occupied state.kcbs_ other := by
        intro other stillOccupied
        obtain ⟨otherKcb, stored⟩ := stillOccupied
        by_cases here : kid = other
        · rw [here, List.getElem?_set, if_pos rfl] at stored
          split at stored <;> cases stored
        · rw [List.getElem?_set_ne here] at stored
          exact ⟨Ne.symm here, otherKcb, stored⟩
      refine ⟨table, ?_, ?_, ?_, by rw [List.length_set]; exact tabled.few⟩
      · intro other stillOccupied
        obtain ⟨different, before⟩ := occupied other stillOccupied
        refine (live_freed history _).mpr ⟨?_, tabled.live other before⟩
        rw [← tabled.rooted kid kcb heap found]
        exact fun same => different (tabled.apart _ _ before ⟨kcb, found.stored⟩ same)
      · intro first second firstOccupied secondOccupied
        exact tabled.apart _ _ (occupied first firstOccupied).2 (occupied second secondOccupied).2
      · intro other otherKcb otherHeap otherFound
        exact tabled.rooted _ _ _ otherFound.of_set_none.2

end Steps

structure Settled (platform : Platform) (holes : HoleList) (files : Files)
    (state : Spinner FlatDevice) : Prop where
  serving : Serving platform holes files state
  tabled : ∃ table, Tabled table state.kcbs_ state.aspace_

section Runs

variable {platform : Platform} {holes : HoleList} {caps : Caps → Option Nat} {files : Files}
  {state next : Spinner FlatDevice} {call : SpinnerCall}

theorem new_settled (valid : platform.Valid) (accelerator : HostAccelerator FlatDevice)
    (device : FlatDevice) :
    Settled platform (AddressSpaceManager.new platform
      ((accelerator.getCaps .localMemSize).getD 0)).hole_list_ files
      (Spinner.new platform accelerator device) where
  serving := new_serving valid accelerator device
  tabled := by
    refine ⟨fun _ => 0, ?_, ?_, ?_, Nat.zero_le _⟩
    · rintro kid ⟨kcb, stored⟩
      cases stored
    · rintro kid other ⟨kcb, stored⟩
      cases stored
    · intro kid kcb heap found
      cases found.stored

theorem Settled.step (settled : Settled platform holes files state)
    (itself : ∀ page, MapsItself platform ((caps .localMemSize).getD 0) page →
      MayMapItself platform holes page)
    (step : CallStep platform caps files state call next) : Settled platform holes files next := by
  obtain ⟨owner, owned⟩ := settled.serving.kernels.reached.owned
  obtain ⟨table, tabled⟩ := settled.tabled
  exact ⟨(step.effect settled.serving owned itself).serving,
    (step.done settled.serving itself).tabled settled.serving tabled⟩

theorem run_settled (valid : platform.Valid) {device : FlatDevice} {calls : List SpinnerCall}
    (itself : ∀ page, MapsItself platform ((caps .localMemSize).getD 0) page →
      MayMapItself platform
        (AddressSpaceManager.new platform ((caps .localMemSize).getD 0)).hole_list_ page)
    (run : Trace (CallStep platform caps files)
      (Spinner.new platform (flatAccelerator caps) device) calls state) :
    Settled platform (AddressSpaceManager.new platform
      ((caps .localMemSize).getD 0)).hole_list_ files state :=
  run.invariant (Settled platform _ files) (fun _ _ _ settled step => settled.step itself step)
    (new_settled valid (flatAccelerator caps) device)

end Runs

/-- In every run there are at most `2 ^ 20` slots, and the occupied ones have live tables, each its
own; so an id that is returned is the index of its slot, no kernel had it, and no other slot has
changed. -/
theorem kernel_ids_fresh {platform : Platform} (valid : platform.Valid) {caps : Caps → Option Nat}
    (itself : ∀ page, MapsItself platform ((caps .localMemSize).getD 0) page →
      MayMapItself platform
        (AddressSpaceManager.new platform ((caps .localMemSize).getD 0)).hole_list_ page)
    (files : Files) (device : FlatDevice) {calls : List SpinnerCall} {state : Spinner FlatDevice}
    (run : Trace (CallStep platform caps files)
      (Spinner.new platform (flatAccelerator caps) device) calls state) :
    state.kcbs_.length ≤ 2 ^ 20 ∧
      (∃ table : Nat → Nat,
        (∀ kid, Occupied state.kcbs_ kid → state.aspace_.Live (table kid)) ∧
        ∀ kid other, Occupied state.kcbs_ kid → Occupied state.kcbs_ other →
          table kid = table other → kid = other) ∧
      ∀ vxbin_path kid after, Spinner.allocateKernel files vxbin_path state = .ok kid after →
        ¬Occupied state.kcbs_ kid ∧ Finished after.kcbs_ kid ∧
          ∀ other, other ≠ kid → after.kcbs_[other]? = state.kcbs_[other]? := by
  have settled := run_settled valid itself run
  obtain ⟨table, tabled⟩ := settled.tabled
  obtain ⟨slot, taken, length⟩ := tabled.slot settled.serving
  refine ⟨tabled.few, ⟨table, tabled.live, tabled.apart⟩, ?_⟩
  intro vxbin_path kid after ran
  obtain ⟨owner, owned⟩ := settled.serving.kernels.reached.owned
  obtain ⟨result, aspace, _, asked, _⟩ := settled.serving.kernels.reached.allocatePageTable owned
  cases result with
  | none =>
      rw [allocateKernel_noRoot asked] at ran
      cases ran
  | some root =>
      cases onDisk : files vxbin_path with
      | none =>
          rw [allocateKernel_noFile asked onDisk] at ran
          cases ran
      | some content =>
          by_cases whole : 16 ≤ content.length
          · rw [allocateKernel_run asked onDisk whole] at ran
            cases ran
            rw [taken]
            have inside := Kcbs.allocate_inside state.kcbs_
            rw [taken] at inside
            refine ⟨freeSlot_vacant, ⟨_, _, List.getElem?_set_self inside, rfl⟩, ?_⟩
            intro other different
            rw [List.getElem?_set_ne (Ne.symm different), allocate_ne different]
          · rw [allocateKernel_short asked onDisk (Nat.lt_of_not_le whole)] at ran
            cases ran

section Small

theorem smallPlatform_itself (page : Nat) (mapped : MapsItself smallPlatform 0 page) :
    MayMapItself smallPlatform (AddressSpaceManager.new smallPlatform 0).hole_list_ page := by
  obtain ⟨offset, aligned, place⟩ := mapped
  have size : wrap32 (smallPlatform.IO_END_ADDR - smallPlatform.IO_BASE_ADDR) = 0x40 := rfl
  have none : wrap32 0 = 0 := rfl
  rw [size, none] at place
  right
  intro isFrame
  have low : 0x1000 ≤ page := isFrame.2.1
  cases place with
  | inl here => omega
  | inr here =>
      have start : offset = 0 := by omega
      rw [here.2, start] at low
      exact absurd low (by decide)

section Steps

variable {platform : Platform} {caps : Caps → Option Nat} {files : Files}
  {state next : Spinner FlatDevice}

theorem allocateKernel_step {vxbin_path : String} {kid : Nat}
    (ran : Spinner.allocateKernel files vxbin_path state = .ok kid next) :
    CallStep platform caps files state (.allocateKernel vxbin_path) next := by
  refine ⟨trivial, Or.inl ⟨(), ?_⟩⟩
  rw [performCall, bind_ok ran]
  rfl

theorem allocateHeap_step {kid size va : Nat} (finished : Finished state.kcbs_ kid)
    (ran : Spinner.allocateHeap kid size state = .ok va next) :
    CallStep platform caps files state (.allocateHeap kid size) next := by
  refine ⟨finished, Or.inl ⟨(), ?_⟩⟩
  rw [performCall, bind_ok ran]
  rfl

theorem callStep_exists {call : SpinnerCall} (admissible : Admissible state.kcbs_ call) :
    ∃ next, CallStep platform caps files state call next := by
  cases ran : performCall platform caps files call state with
  | ok value next => exact ⟨next, admissible, Or.inl ⟨value, ran⟩⟩
  | error fault next => exact ⟨next, admissible, Or.inr ⟨fault, ran⟩⟩

end Steps

theorem smallPlatform_heapCalls : ∃ (begun state : Spinner FlatDevice) (kcb : KernelControlBlock)
    (heap : HeapManager),
    Spinner.allocateKernel (fun _ => some emptyImage) "kernel"
        (Spinner.new smallPlatform (flatAccelerator fun _ => none) smallDevice) = .ok 0 begun ∧
      Finished begun.kcbs_ 0 ∧ Spinner.allocateHeap 0 16 begun = .ok 0x10000 state ∧
      HasHeap state.kcbs_ 0 kcb heap ∧
      ∀ index < 16, ∃ pa, state.aspace_.translated kcb.top_pgtbl_pa (0x10000 + index) = some pa ∧
        ¬MayMapItself smallPlatform (AddressSpaceManager.new smallPlatform 0).hole_list_
          (frameOf pa) := by
  obtain ⟨created, aspace, ran, _, allocated, _⟩ :=
    @HeapManager.smallPlatform_heap 0x10000 (by decide) (by decide)
  let kcb := newKcb 0x1000 "kernel" 16 0x10000 0x10000
  have kernel := smallPlatform_kernel (flatAccelerator fun _ => none) rfl smallDevice ran
  have grown := @allocateHeap_run _
    { kcbs_ := [some kcb], aspace_ := created, device := smallDevice } 0 16 0x10000 kcb
    (HeapManager.new 0x1000 0x10000) { heap := _, aspace_ := aspace } rfl rfl allocated
  have found : HasHeap [some kcb] 0 kcb (HeapManager.new 0x1000 0x10000) := ⟨rfl, rfl⟩
  have bounded : ∀ (block : KernelControlBlock) (heap : HeapManager),
      HasHeap [some kcb] 0 block heap → heap.vm_allocator_.nextAddress_ + 16 < 2 ^ 32 := by
    intro block heap here
    rw [(here.unique found).2]
    decide
  obtain ⟨holes, start⟩ := @new_bufferReached smallPlatform smallPlatform_valid
    (flatAccelerator fun _ => none) smallDevice
  let begun : BufferRun :=
    { spinner := Spinner.new smallPlatform (flatAccelerator fun _ => none) smallDevice
      buffers := [] }
  let stored : BufferRun :=
    { spinner := { kcbs_ := [some kcb], aspace_ := created, device := smallDevice }
      buffers := [] }
  have kernelStep : BufferStep (fun _ => none) begun _ stored := BufferStep.allocateKernel kernel
  have heapStep : BufferStep (fun _ => none) stored _ _ :=
    BufferStep.allocateHeap (by decide) bounded grown
  have second := (start.step kernelStep).step heapStep
  obtain ⟨owner, owned⟩ := second.kernels.reached.owned
  obtain ⟨block, heap, blockFound, bytes⟩ := second.owns (List.mem_cons_self) owned
  refine ⟨_, _, block, heap, kernel, ⟨kcb, _, found⟩, grown, blockFound, ?_⟩
  intro index inside
  obtain ⟨pa, translated, _, mine⟩ := bytes (0x10000 + index) (Nat.le_add_right _ _)
    (Nat.add_lt_add_left inside _)
  refine ⟨pa, translated, ?_⟩
  have isFrame := owned.pool.isFrame (owned.used _ _ mine).1
  rintro (inHole | outside)
  · rw [smallPlatform_noHoles _ isFrame] at inHole
    cases inHole
  · exact outside isFrame

theorem smallPlatform_heapKernel : ∃ (state : Spinner FlatDevice) (kcb : KernelControlBlock)
    (heap : HeapManager),
    Trace (CallStep smallPlatform (fun _ => none) (fun _ => some emptyImage))
        (Spinner.new smallPlatform (flatAccelerator fun _ => none) smallDevice)
        [.allocateKernel "kernel", .allocateHeap 0 16] state ∧
      HasHeap state.kcbs_ 0 kcb heap ∧
      ∀ index < 16, ∃ pa, state.aspace_.translated kcb.top_pgtbl_pa (0x10000 + index) = some pa ∧
        ¬MayMapItself smallPlatform (AddressSpaceManager.new smallPlatform 0).hole_list_
          (frameOf pa) := by
  obtain ⟨begun, state, kcb, heap, kernel, finished, grown, found, mapped⟩ := smallPlatform_heapCalls
  exact ⟨state, kcb, heap, Trace.cons (allocateKernel_step kernel)
    (Trace.cons (allocateHeap_step finished grown) (Trace.nil _)), found, mapped⟩

theorem kernel_ids_fresh_second : ∃ state : Spinner FlatDevice,
    Trace (CallStep smallPlatform (fun _ => none) (fun _ => some emptyImage))
        (Spinner.new smallPlatform (flatAccelerator fun _ => none) smallDevice)
        [.allocateKernel "kernel", .allocateHeap 0 16] state ∧
      state.kcbs_.length ≤ 2 ^ 20 ∧
      ∀ vxbin_path kid after,
        Spinner.allocateKernel (fun _ => some emptyImage) vxbin_path state = .ok kid after →
          kid ≠ 0 ∧ after.kcbs_[0]? = state.kcbs_[0]? := by
  obtain ⟨state, kcb, heap, run, found, _⟩ := smallPlatform_heapKernel
  obtain ⟨few, _, fresh⟩ := @kernel_ids_fresh smallPlatform smallPlatform_valid (fun _ => none)
    smallPlatform_itself (fun _ => some emptyImage) smallDevice _ state run
  refine ⟨state, run, few, ?_⟩
  intro vxbin_path kid after ran
  obtain ⟨vacant, _, others⟩ := fresh vxbin_path kid after ran
  have different : kid ≠ 0 := fun same => vacant (same ▸ ⟨kcb, found.stored⟩)
  exact ⟨different, others 0 (Ne.symm different)⟩

end Small

end Espiral.Spinner
