import Espiral.Api.ProgramCalls
import Espiral.Spinner.HeapMemory

/-!
# Buffers over whole programs

A program that uploads every buffer for the kernel it asked it for has a memory
in each of them. What an upload has put there is found by a download, whatever
else the program has done in between with other buffers and other kernels.
-/

namespace Espiral

set_option autoImplicit false

open AddressSpaceManager ByteMemory Contracts MachineWords Spinner Traces

/-- A program, and the kernel that each of its buffers was asked for, as long as it lives. -/
structure Session where
  program : Program FlatDevice
  owners : Nat → Option Nat

namespace Session

def new (platform : Platform) (caps : Caps → Option Nat) (device : FlatDevice) (host : Memory) :
    Session where
  program := .new platform (flatAccelerator caps) device host
  owners _ := none

/-- The owners after a call: buffers that are handed out get one, and a freed kernel owns nothing. -/
def ownersAfter (platform : Platform) (caps : Caps → Option Nat) (files : Files)
    (session : Session) : ApiCall → Nat → Option Nat
  | .allocateUploadBuffer kid size flags =>
      match Program.perform platform (flatAccelerator caps) files
          (.allocateUploadBuffer kid size flags) session.program with
      | .ok (.buffer index) _ => Function.update session.owners index (some kid)
      | _ => session.owners
  | .freeKernel kid => fun index =>
      if session.owners index = some kid then none else session.owners index
  | _ => session.owners

def Proper (session : Session) : ApiCall → Prop
  | .upload kid index => session.owners index = some kid
  | _ => True

/-- A call that returns or throws, with requests of some size, and in which no second frame of a
request is reported as a hole. -/
structure Step (platform : Platform) (caps : Caps → Option Nat) (files : Files)
    (session : Session) (call : ApiCall) (next : Session) : Prop where
  api : Program.ApiStep platform caps files session.program call next.program
  sized : ∀ made, call.spinnerCall session.program = some made → made.Sized
  met : RetriesMet platform session.program.spinner_.aspace_.hole_list_
    session.program.spinner_.aspace_.frames next.program.spinner_.aspace_.frames
  proper : session.Proper call
  owners : next.owners = session.ownersAfter platform caps files call

structure HasRange (session : Session) (index : Nat) (range : Buffer) : Prop where
  owner : session.owners index = some range.kid
  place : ∃ buffer : UploadBuffer, session.program.buffers[index]? = some buffer ∧
    range.va = buffer.va_ ∧ range.size = buffer.device_max_size_

/-- The program neither frees the owner of a buffer nor uploads the buffer again, and no image that it
uploads reaches into it. -/
def LeavesAlone (files : Files) (index : Nat) (range : Buffer) (session : Session) : ApiCall → Prop
  | .freeKernel kid => kid ≠ range.kid
  | .upload _ other => other ≠ index
  | .startKernel kid order => kid = range.kid → ∀ addr, Spans range.va range.size addr →
      ¬SpinnerCall.writes files session.program.spinner_.kcbs_ (.startKernel kid order) addr
  | _ => True

structure Kept (platform : Platform) (holes : HoleList) (files : Files) (session : Session) :
    Prop where
  settled : Settled platform holes files session.program.spinner_
  housed : HeapsHoused platform holes session.program.spinner_
  named : ∀ index kid, session.owners index = some kid → index < session.program.buffers.length
  handed : ∀ index range, session.HasRange index range → ∃ kcb heap start,
    HasHeap session.program.spinner_.kcbs_ range.kid kcb heap ∧ HandedAt heap range start
  apart : ∀ index other range another, index ≠ other → session.HasRange index range →
    session.HasRange other another → range.Disjoint another

section Steps

variable {platform : Platform} {holes : HoleList} {caps : Caps → Option Nat} {files : Files}
  {session next : Session} {call : ApiCall} {index : Nat} {range : Buffer}

theorem new_kept (valid : platform.Valid) (caps : Caps → Option Nat) (files : Files)
    (device : FlatDevice) (host : Memory) :
    Kept platform (AddressSpaceManager.new platform ((caps .localMemSize).getD 0)).hole_list_ files
      (Session.new platform caps device host) where
  settled := new_settled valid (flatAccelerator caps) device
  housed := new_housed platform _ (flatAccelerator caps) device
  named _ _ impossible := by cases impossible
  handed _ _ has := by cases has.owner
  apart _ _ _ _ _ has := by cases has.owner

theorem Step.spun (step : Step platform caps files session call next) :
    (call.spinnerCall session.program = none ∧
        next.program.spinner_ = session.program.spinner_) ∨
      ∃ made, call.spinnerCall session.program = some made ∧
        SizedCallStep platform caps files session.program.spinner_ made next.program.spinner_ := by
  rcases step.api.spins with still | ⟨made, spins, moved⟩
  · exact Or.inl still
  · exact Or.inr ⟨made, spins, ⟨moved, step.met⟩, step.sized made spins⟩

theorem Step.buffers (step : Step platform caps files session call next) :
    Program.KeepsBuffers session.program call next.program :=
  (Program.perform_buffers call).either step.api.2

theorem HasRange.before (now : next.HasRange index range)
    (keeps : Program.KeepsBuffers session.program call next.program)
    (owner : session.owners index = some range.kid)
    (inside : index < session.program.buffers.length) : session.HasRange index range := by
  obtain ⟨_, buffer, stored, va, size⟩ := now
  obtain ⟨later, laterStored, sameVa, sameMax⟩ :=
    keeps.stay index _ (List.getElem?_eq_getElem inside)
  rw [stored, Option.some.injEq] at laterStored
  rw [laterStored] at va size
  exact ⟨owner, _, List.getElem?_eq_getElem inside, va.trans sameVa, size.trans sameMax⟩

/-- An owner after a step is one from before, or it has just been given a buffer. -/
theorem Step.owner_before (step : Step platform caps files session call next) {kid : Nat}
    (owner : next.owners index = some kid) :
    (session.owners index = some kid ∧ call ≠ .freeKernel kid) ∨
      ∃ size flags va spinner, call = .allocateUploadBuffer kid size flags ∧
        Spinner.allocateHeap kid size session.program.spinner_ = .ok va spinner ∧
        index = session.program.buffers.length ∧
        next.program.buffers = session.program.buffers ++ [.new va (wrap32 size) flags] := by
  rw [step.owners] at owner
  cases call with
  | allocateUploadBuffer other size flags =>
      cases ran : Spinner.allocateHeap other size session.program.spinner_ with
      | error fault spinner =>
          rw [ownersAfter, Program.allocateUploadBuffer_error ran] at owner
          exact Or.inl ⟨owner, ApiCall.noConfusion⟩
      | ok va spinner =>
          have whole := @Program.allocateUploadBuffer_ok platform caps files session.program other
            size flags va spinner ran
          rw [ownersAfter, whole] at owner
          change Function.update session.owners session.program.buffers.length (some other) index =
            some kid at owner
          by_cases here : index = session.program.buffers.length
          · rw [here, Function.update_self, Option.some.injEq] at owner
            refine Or.inr ⟨size, flags, va, spinner, by rw [owner], owner ▸ ran, here, ?_⟩
            have outcome := step.api.2
            rw [whole] at outcome
            rcases outcome with ⟨_, same⟩ | ⟨_, impossible⟩
            · injection same with _ programIs
              rw [← programIs]
            · cases impossible
          · rw [Function.update_of_ne here] at owner
            exact Or.inl ⟨owner, ApiCall.noConfusion⟩
  | freeKernel other =>
      change (if session.owners index = some other then none else session.owners index) = _ at owner
      split at owner
      · cases owner
      · next others =>
          refine Or.inl ⟨owner, fun same => others ?_⟩
          rw [owner, ApiCall.freeKernel.inj same]
  | allocateKernel vxbin_path => exact Or.inl ⟨owner, ApiCall.noConfusion⟩
  | startKernel kid order => exact Or.inl ⟨owner, ApiCall.noConfusion⟩
  | waitKernel kid timeout => exact Or.inl ⟨owner, ApiCall.noConfusion⟩
  | allocateDevBuffer kid size => exact Or.inl ⟨owner, ApiCall.noConfusion⟩
  | setContent other data data_size => exact Or.inl ⟨owner, ApiCall.noConfusion⟩
  | uploadArgs kid args size => exact Or.inl ⟨owner, ApiCall.noConfusion⟩
  | upload kid other => exact Or.inl ⟨owner, ApiCall.noConfusion⟩
  | download kid buffer => exact Or.inl ⟨owner, ApiCall.noConfusion⟩
  | getCaps caps_id => exact Or.inl ⟨owner, ApiCall.noConfusion⟩
  | store addr bytes => exact Or.inl ⟨owner, ApiCall.noConfusion⟩

theorem Step.range_before (step : Step platform caps files session call next)
    (kept : Kept platform holes files session) (now : next.HasRange index range) :
    (session.HasRange index range ∧ call ≠ .freeKernel range.kid) ∨
      ∃ size flags spinner, call = .allocateUploadBuffer range.kid size flags ∧
        Spinner.allocateHeap range.kid size session.program.spinner_ = .ok range.va spinner ∧
        range.size = wrap32 size ∧ index = session.program.buffers.length := by
  rcases step.owner_before now.owner with ⟨owner, notFreed⟩ | ⟨size, flags, va, spinner, same, ran,
    here, buffers⟩
  · exact Or.inl ⟨now.before step.buffers owner (kept.named _ _ owner), notFreed⟩
  · obtain ⟨_, buffer, stored, vaIs, sizeIs⟩ := now
    rw [buffers, here, List.getElem?_concat_length, Option.some.injEq] at stored
    rw [← stored] at vaIs sizeIs
    have vaSame : range.va = va := vaIs
    exact Or.inr ⟨size, flags, spinner, same, vaSame ▸ ran, sizeIs, here⟩

theorem Step.length_le (step : Step platform caps files session call next) :
    session.program.buffers.length ≤ next.program.buffers.length := by
  by_contra fewer
  obtain ⟨_, stored, _⟩ := step.buffers.stay (session.program.buffers.length - 1) _
    (List.getElem?_eq_getElem (by omega))
  have inside := (List.getElem?_eq_some_iff.mp stored).1
  omega

theorem Step.named (step : Step platform caps files session call next)
    (kept : Kept platform holes files session) {kid : Nat} (owner : next.owners index = some kid) :
    index < next.program.buffers.length := by
  rcases step.owner_before owner with ⟨before, _⟩ | ⟨_, _, _, _, _, _, here, buffers⟩
  · exact Nat.lt_of_lt_of_le (kept.named index kid before) step.length_le
  · rw [here, buffers, List.length_append, List.length_singleton]
    exact Nat.lt_succ_self _

theorem Step.handed_out (step : Step platform caps files session call next)
    (kept : Kept platform holes files session) {size flags : Nat} {spinner : Spinner FlatDevice}
    (asked : call = .allocateUploadBuffer range.kid size flags)
    (ran : Spinner.allocateHeap range.kid size session.program.spinner_ = .ok range.va spinner)
    (sizeIs : range.size = wrap32 size) :
    ∃ kcb heap block later, HasHeap session.program.spinner_.kcbs_ range.kid kcb heap ∧
      HasHeap next.program.spinner_.kcbs_ range.kid block later ∧ Continues heap later ∧
      HandedAt later range heap.vm_allocator_.nextAddress_ := by
  have spins : call.spinnerCall session.program = some (.allocateHeap range.kid size) := by rw [asked]; rfl
  rcases step.spun with ⟨nothing, _⟩ | ⟨made, same, moved⟩
  · rw [spins] at nothing
    cases nothing
  · rw [spins, Option.some.injEq] at same
    rw [← same] at moved
    obtain ⟨kcb, heap, block, later, found, now, continued, handed⟩ :=
      moved.hands kept.housed kept.settled ran
    have less : range.size ≤ size := by
      rw [sizeIs]
      exact Nat.mod_le _ _
    exact ⟨kcb, heap, block, later, found, now, continued, handed.shorter less⟩

theorem Kept.step (kept : Kept platform holes files session)
    (itself : ∀ page, MapsItself platform ((caps .localMemSize).getD 0) page →
      MayMapItself platform holes page)
    (step : Step platform caps files session call next) : Kept platform holes files next := by
  have spinner : Settled platform holes files next.program.spinner_ ∧
      HeapsHoused platform holes next.program.spinner_ := by
    rcases step.spun with ⟨_, same⟩ | ⟨made, _, moved⟩
    · rw [same]
      exact ⟨kept.settled, kept.housed⟩
    · exact ⟨kept.settled.step itself moved.1.1, kept.housed.step kept.settled itself moved⟩
  obtain ⟨settled, housed⟩ := spinner
  -- the heap of a range that stays
  have goesOn : ∀ {index : Nat} {range : Buffer}, session.HasRange index range →
      call ≠ .freeKernel range.kid → ∃ kcb heap block later start,
      HasHeap session.program.spinner_.kcbs_ range.kid kcb heap ∧
      HasHeap next.program.spinner_.kcbs_ range.kid block later ∧ Continues heap later ∧
      HandedAt heap range start := by
    intro index range has notFreed
    obtain ⟨kcb, heap, start, found, handed⟩ := kept.handed index range has
    rcases step.spun with ⟨_, same⟩ | ⟨made, spins, moved⟩
    · exact ⟨kcb, heap, kcb, heap, start, found, same ▸ found, ⟨rfl, Nat.le_refl _⟩, handed⟩
    · have stays : made ≠ .freeKernel range.kid := by
        intro frees
        rw [frees] at spins
        exact notFreed (ApiCall.spinnerCall_frees spins)
      obtain ⟨block, later, now, continued⟩ :=
        moved.continues kept.housed kept.settled itself found stays
      exact ⟨kcb, heap, block, later, start, found, now, continued, handed⟩
  refine ⟨settled, housed, fun index kid owner => step.named kept owner, ?_, ?_⟩
  · intro index range has
    rcases step.range_before kept has with ⟨before, notFreed⟩ | ⟨size, flags, spinner, asked, ran,
      sizeIs, _⟩
    · obtain ⟨_, _, block, later, start, _, now, continued, handed⟩ := goesOn before notFreed
      exact ⟨block, later, start, now, handed.continues continued⟩
    · obtain ⟨_, heap, block, later, _, now, _, handed⟩ := step.handed_out kept asked ran sizeIs
      exact ⟨block, later, _, now, handed⟩
  · have newer : ∀ {index other : Nat} {range another : Buffer}, index ≠ other →
        next.HasRange index range → session.HasRange other another →
        (∃ size flags spinner, call = .allocateUploadBuffer range.kid size flags ∧
          Spinner.allocateHeap range.kid size session.program.spinner_ = .ok range.va spinner ∧
          range.size = wrap32 size ∧ index = session.program.buffers.length) →
        range.Disjoint another := by
      rintro index other range another different has before ⟨size, flags, spinner, asked, ran, sizeIs, _⟩ same
      obtain ⟨_, heap, block, later, found, now, continued, handed⟩ :=
        step.handed_out kept asked ran sizeIs
      obtain ⟨_, otherHeap, start, otherFound, otherHanded⟩ := kept.handed other another before
      rw [← same] at otherFound
      rw [(otherFound.unique found).2] at otherHanded
      exact handed.disjoint (housed _ _ _ now).sound (otherHanded.continues continued)
        otherHanded.2.2 same
    intro index other range another different has otherHas
    rcases step.range_before kept has with ⟨before, _⟩ | new
    · rcases step.range_before kept otherHas with ⟨otherBefore, _⟩ | otherNew
      · exact kept.apart index other range another different before otherBefore
      · exact (newer (Ne.symm different) otherHas before otherNew).symm
    · rcases step.range_before kept otherHas with ⟨otherBefore, _⟩ | otherNew
      · exact newer different has otherBefore new
      · obtain ⟨_, _, _, _, _, _, here⟩ := new
        obtain ⟨_, _, _, _, _, _, there⟩ := otherNew
        exact absurd (here.trans there.symm) different

theorem Step.range_stays (step : Step platform caps files session call next)
    (kept : Kept platform holes files session) (has : session.HasRange index range)
    (notFreed : call ≠ .freeKernel range.kid) : next.HasRange index range := by
  obtain ⟨buffer, stored, va, size⟩ := has.place
  obtain ⟨now, nowStored, sameVa, sameMax⟩ := step.buffers.stay index buffer stored
  refine ⟨?_, now, nowStored, va.trans sameVa.symm, size.trans sameMax.symm⟩
  rw [step.owners]
  cases call with
  | allocateUploadBuffer kid size flags =>
      cases ran : Spinner.allocateHeap kid size session.program.spinner_ with
      | error fault spinner =>
          rw [ownersAfter, Program.allocateUploadBuffer_error ran]
          exact has.owner
      | ok va spinner =>
          have whole := @Program.allocateUploadBuffer_ok platform caps files session.program kid
            size flags va spinner ran
          have inside := kept.named index _ has.owner
          rw [ownersAfter, whole]
          change Function.update session.owners session.program.buffers.length (some kid) index = _
          rw [Function.update_of_ne (Nat.ne_of_lt inside)]
          exact has.owner
  | freeKernel kid =>
      change (if session.owners index = some kid then none else session.owners index) = _
      rw [has.owner, if_neg]
      intro same
      exact notFreed (congrArg ApiCall.freeKernel (Option.some.inj same).symm)
  | allocateKernel vxbin_path => exact has.owner
  | startKernel kid order => exact has.owner
  | waitKernel kid timeout => exact has.owner
  | allocateDevBuffer kid size => exact has.owner
  | setContent other data data_size => exact has.owner
  | uploadArgs kid args size => exact has.owner
  | upload kid other => exact has.owner
  | download kid buffer => exact has.owner
  | getCaps caps_id => exact has.owner
  | store addr bytes => exact has.owner

theorem LeavesAlone.notFreed (leaves : LeavesAlone files index range session call) :
    call ≠ .freeKernel range.kid := by
  intro same
  rw [same] at leaves
  exact leaves rfl

/-- Other buffers, arguments and images go elsewhere. -/
theorem Step.bytes_stay (step : Step platform caps files session call next)
    (kept : Kept platform holes files session)
    (itself : ∀ page, MapsItself platform ((caps .localMemSize).getD 0) page →
      MayMapItself platform holes page) (has : session.HasRange index range)
    (leaves : LeavesAlone files index range session call) {root : Nat}
    (table : HasTable session.program.spinner_.kcbs_ range.kid root) :
    HasTable next.program.spinner_.kcbs_ range.kid root ∧ ∀ addr pa,
      Spans range.va range.size addr →
      PrivateAt platform holes session.program.spinner_.aspace_ root addr pa →
      ByteStays platform holes root addr pa session.program.spinner_ next.program.spinner_ := by
  have notFreed := leaves.notFreed
  rcases step.spun with ⟨_, same⟩ | ⟨made, spins, moved⟩
  · rw [same]
    exact ⟨table, fun _ _ _ mine => ⟨mine, rfl⟩⟩
  obtain ⟨tables, tabled⟩ := kept.settled.tabled
  have done := moved.1.1.done kept.settled.serving itself
  have stays : made ≠ .freeKernel range.kid := by
    intro frees
    rw [frees] at spins
    exact notFreed (ApiCall.spinnerCall_frees spins)
  obtain ⟨still, bytes⟩ := done.byteStays kept.settled.serving tabled table stays
  refine ⟨still, fun addr pa inside mine => ?_⟩
  have quiet : (∀ addr, ¬made.writes files session.program.spinner_.kcbs_ addr) →
      ByteStays platform holes root addr pa session.program.spinner_ next.program.spinner_ :=
    fun nothing => bytes addr pa (fun _ => nothing addr) mine
  cases call with
  | upload kid other =>
      rw [ApiCall.spinnerCall, Option.map_eq_some_iff] at spins
      obtain ⟨buffer, stored, same⟩ := spins
      refine bytes addr pa (fun kernel => ?_) mine
      rw [← same] at kernel ⊢
      rintro ⟨place, within, addrIs⟩
      obtain ⟨position, below, addrIsToo⟩ := inside
      have there : session.HasRange other ⟨kid, buffer.va_, buffer.device_max_size_⟩ :=
        ⟨step.proper, buffer, stored, rfl, rfl⟩
      rw [load_length] at within
      exact kept.apart index other _ _ (Ne.symm leaves) has there (Option.some.inj kernel).symm
        position below place (Nat.lt_of_lt_of_le within buffer.fits) (addrIsToo.symm.trans addrIs)
  | startKernel kid order =>
      cases spins
      exact bytes addr pa (fun kernel => leaves (Option.some.inj kernel) addr inside) mine
  | uploadArgs kid args size =>
      cases spins
      by_cases here : range.kid = kid
      · obtain ⟨kcb, heap, start, found, handed⟩ := kept.handed index range has
        obtain ⟨block, blockHeap, blockFound, rootIs⟩ := table
        rw [(blockFound.unique found).1] at rootIs
        rw [← rootIs] at mine ⊢
        rw [here] at found
        exact moved.args_behind kept.housed kept.settled itself found handed here inside mine
      · exact bytes addr pa (fun kernel => absurd (Option.some.inj kernel).symm here) mine
  | allocateKernel vxbin_path =>
      cases spins
      exact quiet fun _ => id
  | freeKernel kid =>
      cases spins
      exact quiet fun _ => id
  | allocateUploadBuffer kid size flags =>
      cases spins
      exact quiet fun _ => id
  | allocateDevBuffer kid size =>
      cases spins
      exact quiet fun _ => id
  | download kid buffer =>
      cases spins
      exact quiet fun _ => id
  | waitKernel kid timeout => cases spins
  | setContent other data data_size => cases spins
  | getCaps caps_id => cases spins
  | store addr bytes => cases spins

theorem run_bytes_stay {root : Nat} {calls : List ApiCall} {last : Session}
    (kept : Kept platform holes files session)
    (itself : ∀ page, MapsItself platform ((caps .localMemSize).getD 0) page →
      MayMapItself platform holes page)
    (run : Trace (fun session call next => Step platform caps files session call next ∧
      LeavesAlone files index range session call) session calls last)
    (has : session.HasRange index range)
    (table : HasTable session.program.spinner_.kcbs_ range.kid root) :
    HasTable last.program.spinner_.kcbs_ range.kid root ∧ ∀ addr pa,
      Spans range.va range.size addr →
      PrivateAt platform holes session.program.spinner_.aspace_ root addr pa →
      ByteStays platform holes root addr pa session.program.spinner_ last.program.spinner_ := by
  induction run with
  | nil session => exact ⟨table, fun _ _ _ mine => ⟨mine, rfl⟩⟩
  | @cons first second third call calls head tail ih =>
      obtain ⟨step, leaves⟩ := head
      obtain ⟨tableNext, bytes⟩ := step.bytes_stay kept itself has leaves table
      obtain ⟨tableLast, later⟩ := ih (kept.step itself step)
        (step.range_stays kept has leaves.notFreed) tableNext
      refine ⟨tableLast, fun addr pa inside mine => ?_⟩
      have now := bytes addr pa inside mine
      have rest := later addr pa inside now.mine
      exact ⟨rest.mine, rest.same.trans now.same⟩

end Steps

/-- Buffers work. In any state of any run of a program that uploads its buffers for their owners,
an upload of a buffer returns. Whatever the program does then, returning or not, to other buffers,
to other kernels and to this one, as long as it neither frees the owner nor uploads the buffer
again and starts no image that reaches into it: a download returns, and it stores in the memory of
the program the bytes that were there at the upload. -/
theorem buffer_round_trip {platform : Platform} (valid : platform.Valid)
    {caps : Caps → Option Nat}
    (itself : ∀ page, MapsItself platform ((caps .localMemSize).getD 0) page →
      MayMapItself platform
        (AddressSpaceManager.new platform ((caps .localMemSize).getD 0)).hole_list_ page)
    (files : Files) (device : FlatDevice) (host : Memory) {before calls : List ApiCall}
    {session after last : Session}
    (setup : Trace (Step platform caps files) (Session.new platform caps device host) before session)
    {kid index : Nat} {buffer : UploadBuffer}
    (stored : session.program.buffers[index]? = some buffer)
    (narrow : buffer.va_ + buffer.size_ ≤ 2 ^ 32)
    (uploads : Step platform caps files session (.upload kid index) after)
    (run : Trace (fun session call next => Step platform caps files session call next ∧
      LeavesAlone files index ⟨kid, buffer.va_, buffer.device_max_size_⟩ session call)
      after calls last) (host_ptr : Nat) :
    Program.perform platform (flatAccelerator caps) files (.upload kid index) session.program =
        .ok .done after.program ∧
      ∃ next, Program.perform platform (flatAccelerator caps) files
          (.download kid ⟨buffer.va_, buffer.size_, host_ptr⟩) last.program = .ok .done next ∧
        next.host = ByteMemory.store last.program.host host_ptr
          (load session.program.host buffer.host_ptr_ buffer.size_) := by
  have kept := setup.invariant (Kept platform _ files) (fun _ _ _ kept step => kept.step itself step)
    (new_kept valid caps files device host)
  have has : session.HasRange index ⟨kid, buffer.va_, buffer.device_max_size_⟩ :=
    ⟨uploads.proper, buffer, stored, rfl, rfl⟩
  obtain ⟨kcb, heap, start, found, handed⟩ := kept.handed index _ has
  have serving := kept.settled.serving
  obtain ⟨owner, owned⟩ := serving.kernels.reached.owned
  have isLive := (serving.kernels.rooted _ _ _ found).2
  have length := load_length session.program.host buffer.host_ptr_ buffer.size_
  have narrowContent : buffer.va_ +
      (load session.program.host buffer.host_ptr_ buffer.size_).length ≤ 2 ^ 32 := by
    rw [length]
    exact narrow
  have range : PrivateRange platform (AddressSpaceManager.new platform
      ((caps .localMemSize).getD 0)).hole_list_ session.program.spinner_.aspace_ kcb.top_pgtbl_pa
      buffer.va_ (load session.program.host buffer.host_ptr_ buffer.size_).length := by
    intro place inside
    rw [length] at inside
    have fits := buffer.fits
    have top := (kept.housed _ _ _ found).sound.high
    have high := handed.2.2
    have low := handed.2.1
    obtain ⟨pa, mine⟩ := kept.housed.privateAt serving found
      (by omega : heap.vm_allocator_.baseAddress_ ≤ start + place) (by simp only at high; omega)
    rw [← handed.address place, wrap32_of_lt (by simp only; omega)] at mine
    exact ⟨pa, mine⟩
  obtain ⟨spinner, uploaded, kcbs⟩ := upload_exists caps serving found narrowContent range
  have returned := @Program.upload_ok platform caps files session.program kid index buffer spinner
    stored uploaded
  have afterIs : after.program = { session.program with spinner_ := spinner } := by
    have outcome := uploads.api.2
    rw [returned] at outcome
    rcases outcome with ⟨_, same⟩ | ⟨_, impossible⟩
    · injection same with _ programIs
      exact programIs.symm
    · cases impossible
  refine ⟨by rw [afterIs]; exact returned, ?_⟩
  obtain ⟨_, bytes⟩ := upload_private caps owned isLive found.stored narrowContent range uploaded
  have hasAfter : after.HasRange index ⟨kid, buffer.va_, buffer.device_max_size_⟩ :=
    uploads.range_stays kept has ApiCall.noConfusion
  have table : HasTable after.program.spinner_.kcbs_ kid kcb.top_pgtbl_pa := by
    rw [afterIs]
    exact ⟨kcb, heap, ⟨kcbs ▸ found.stored, found.has⟩, rfl⟩
  obtain ⟨⟨block, blockHeap, blockFound, rootIs⟩, stays⟩ :=
    run_bytes_stay (kept.step itself uploads) itself run hasAfter table
  have finds : ∀ place < (load session.program.host buffer.host_ptr_ buffer.size_).length, ∃ pa,
      last.program.spinner_.aspace_.translated block.top_pgtbl_pa (buffer.va_ + place) = some pa ∧
        (load session.program.host buffer.host_ptr_ buffer.size_)[place]? =
          some (last.program.spinner_.device.memory pa) := by
    intro place inside
    obtain ⟨pa, mine, byte⟩ := bytes place inside
    rw [afterIs] at stays
    rw [length] at inside
    have within : Spans buffer.va_ buffer.device_max_size_ (buffer.va_ + place) :=
      ⟨place, Nat.lt_of_lt_of_le inside buffer.fits, (wrap32_of_lt (by omega)).symm⟩
    have still := stays (buffer.va_ + place) pa within mine
    rw [← still.same] at byte
    exact ⟨pa, rootIs ▸ still.mine.found, byte⟩
  obtain ⟨next, downloaded⟩ := @download_finds caps last.program.spinner_ kid buffer.va_ block _
    narrowContent blockFound.stored finds
    (load last.program.host host_ptr buffer.size_) (by rw [load_length, length])
  exact ⟨_, @Program.download_ok platform caps files last.program kid
    ⟨buffer.va_, buffer.size_, host_ptr⟩ _ next downloaded, rfl⟩

section Small

theorem smallPlatform_step {files : Files} {session : Session} {call : ApiCall}
    {program : Program FlatDevice}
    (kept : Kept smallPlatform (AddressSpaceManager.new smallPlatform 0).hole_list_ files session)
    (api : Program.ApiStep smallPlatform (fun _ => none) files session.program call program)
    (sized : ∀ made, call.spinnerCall session.program = some made → made.Sized)
    (proper : session.Proper call) : ∃ next : Session, next.program = program ∧
      next.owners = session.ownersAfter smallPlatform (fun _ => none) files call ∧
      Step smallPlatform (fun _ => none) files session call next ∧
      Kept smallPlatform (AddressSpaceManager.new smallPlatform 0).hole_list_ files next := by
  let next : Session :=
    { program := program
      owners := session.ownersAfter smallPlatform (fun _ => none) files call }
  have step : Step smallPlatform (fun _ => none) files session call next := by
    refine ⟨api, sized, ?_, proper, rfl⟩
    intro before _ _ first asked inHole
    rw [kept.settled.serving.kernels.reached.holes, smallPlatform_noHoles first asked.isFrame] at inHole
    cases inHole
  exact ⟨next, rfl, rfl, step,
    @Kept.step smallPlatform _ (fun _ => none) files session next call kept smallPlatform_itself step⟩

theorem apiStep_exists {platform : Platform} {caps : Caps → Option Nat} {files : Files}
    {program : Program FlatDevice} {call : ApiCall}
    (admissible : ∀ made, call.spinnerCall program = some made →
      Admissible program.spinner_.kcbs_ made) :
    ∃ next, Program.ApiStep platform caps files program call next := by
  cases ran : Program.perform platform (flatAccelerator caps) files call program with
  | ok answer next => exact ⟨next, admissible, Or.inl ⟨answer, ran⟩⟩
  | error fault next => exact ⟨next, admissible, Or.inr ⟨fault, ran⟩⟩

def smallBuffer : UploadBuffer where
  va_ := 0x10000
  device_max_size_ := 16
  flags_ := 3
  host_ptr_ := 100
  size_ := 3
  fits := by decide

theorem smallPlatform_session (host : Memory) : ∃ session : Session,
    Trace (Step smallPlatform (fun _ => none) (fun _ => some emptyImage))
        (Session.new smallPlatform (fun _ => none) smallDevice host)
        [.allocateKernel "kernel", .allocateUploadBuffer 0 16 3, .setContent 0 100 3] session ∧
      session.program.buffers = [smallBuffer] ∧ session.program.host = host ∧
      session.owners 0 = some 0 ∧ Finished session.program.spinner_.kcbs_ 0 := by
  obtain ⟨begun, state, kcb, heap, kernel, finished, grown, found, _⟩ := smallPlatform_heapCalls
  let created : Program FlatDevice := { spinner_ := begun, host := host, buffers := [] }
  let given : Program FlatDevice :=
    { spinner_ := state, host := host, buffers := [.new 0x10000 16 3] }
  let filled : Program FlatDevice := { spinner_ := state, host := host, buffers := [smallBuffer] }
  have creates : Program.perform smallPlatform (flatAccelerator fun _ => none)
      (fun _ => some emptyImage) (.allocateKernel "kernel")
      (.new smallPlatform (flatAccelerator fun _ => none) smallDevice host) = .ok (.kernel 0) created :=
    bind_ok (Program.onSpinner_ok kernel)
  have gives : Program.perform smallPlatform (flatAccelerator fun _ => none)
      (fun _ => some emptyImage) (.allocateUploadBuffer 0 16 3) created = .ok (.buffer 0) given :=
    Program.allocateUploadBuffer_ok grown
  have fills : Program.perform smallPlatform (flatAccelerator fun _ => none)
      (fun _ => some emptyImage) (.setContent 0 100 3) given = .ok .done filled := rfl
  obtain ⟨first, firstIs, firstOwners, firstStep, firstKept⟩ := smallPlatform_step
    (new_kept smallPlatform_valid (fun _ => none) (fun _ => some emptyImage) smallDevice host)
    ⟨fun made same => by cases same; trivial, Or.inl ⟨_, creates⟩⟩
    (fun made same => by cases same; exact fun _ _ request => by cases request) trivial
  have giving : Program.ApiStep smallPlatform (fun _ => none) (fun _ => some emptyImage)
      first.program (.allocateUploadBuffer 0 16 3) given := by
    rw [firstIs]
    exact ⟨fun made same => by cases same; exact finished, Or.inl ⟨_, gives⟩⟩
  obtain ⟨second, secondIs, secondOwners, secondStep, secondKept⟩ := smallPlatform_step firstKept
    giving (fun made same => by cases same; exact fun _ _ request => by cases request; decide) trivial
  have filling : Program.ApiStep smallPlatform (fun _ => none) (fun _ => some emptyImage)
      second.program (.setContent 0 100 3) filled := by
    rw [secondIs]
    exact ⟨fun _ same => (by cases same), Or.inl ⟨_, fills⟩⟩
  obtain ⟨third, thirdIs, thirdOwners, thirdStep, _⟩ := smallPlatform_step secondKept
    filling (fun made same => by cases same) trivial
  refine ⟨third, Trace.cons firstStep (Trace.cons secondStep (Trace.cons thirdStep (Trace.nil _))), ?_,
    ?_, ?_, kcb, heap, ?_⟩
  · rw [thirdIs]
  · rw [thirdIs]
  · rw [thirdOwners]
    change second.owners 0 = some 0
    rw [secondOwners, ownersAfter, firstIs, gives]
    rfl
  · rw [thirdIs]
    exact found

/-- Three bytes are uploaded, the program overwrites its own and asks for another kernel. -/
theorem buffer_round_trip_three : ∃ (session after last : Session) (next : Program FlatDevice),
    session.program.buffers = [smallBuffer] ∧ session.program.host = UInt8.ofNat ∧
      Program.perform smallPlatform (flatAccelerator fun _ => none) (fun _ => some emptyImage)
        (.upload 0 0) session.program = .ok .done after.program ∧
      Trace (Step smallPlatform (fun _ => none) (fun _ => some emptyImage)) after
        [.store 100 [9, 9, 9], .allocateKernel "other"] last ∧
      Program.perform smallPlatform (flatAccelerator fun _ => none) (fun _ => some emptyImage)
        (.download 0 ⟨0x10000, 3, 200⟩) last.program = .ok .done next ∧
      next.host = ByteMemory.store last.program.host 200 [100, 101, 102] := by
  obtain ⟨session, setup, buffers, sameHost, owner, finished⟩ := smallPlatform_session UInt8.ofNat
  have kept : Kept smallPlatform (AddressSpaceManager.new smallPlatform 0).hole_list_
      (fun _ => some emptyImage) session :=
    setup.invariant (Kept smallPlatform _ _)
      (fun state label next kept step => @Kept.step smallPlatform _ (fun _ => none) _ state next label
        kept smallPlatform_itself step)
      (new_kept smallPlatform_valid (fun _ => none) (fun _ => some emptyImage) smallDevice UInt8.ofNat)
  have stored : session.program.buffers[0]? = some smallBuffer := by rw [buffers]; rfl
  have spins : ApiCall.spinnerCall session.program (.upload 0 0) =
      some (.upload 0 0x10000 (load session.program.host 100 3)) := by
    rw [ApiCall.spinnerCall, stored]
    rfl
  obtain ⟨uploaded, uploading⟩ := @apiStep_exists smallPlatform (fun _ => none)
    (fun _ => some emptyImage) session.program (.upload 0 0) (by
      intro made same
      rw [spins, Option.some.injEq] at same
      rw [← same]
      exact finished)
  obtain ⟨after, _, _, uploads, afterKept⟩ := smallPlatform_step kept uploading (by
    intro made same
    rw [spins, Option.some.injEq] at same
    rw [← same]
    exact fun _ _ impossible => by cases impossible) owner
  obtain ⟨overwritten, storing⟩ := @apiStep_exists smallPlatform (fun _ => none)
    (fun _ => some emptyImage) after.program (.store 100 [9, 9, 9]) (fun _ same => by cases same)
  obtain ⟨between, _, _, stores, betweenKept⟩ := smallPlatform_step afterKept storing
    (fun _ same => by cases same) trivial
  obtain ⟨allocated, allocating⟩ := @apiStep_exists smallPlatform (fun _ => none)
    (fun _ => some emptyImage) between.program (.allocateKernel "other")
    (fun _ same => by cases same; trivial)
  obtain ⟨last, _, _, allocates, _⟩ := smallPlatform_step betweenKept allocating
    (fun _ same => by cases same; exact fun _ _ impossible => by cases impossible) trivial
  obtain ⟨returned, next, downloads, memory⟩ := @buffer_round_trip smallPlatform
    smallPlatform_valid (fun _ => none) smallPlatform_itself (fun _ => some emptyImage) smallDevice
    UInt8.ofNat _ _ session after last setup 0 0 smallBuffer stored (by decide) uploads
    (Trace.cons ⟨stores, trivial⟩ (Trace.cons ⟨allocates, trivial⟩ (Trace.nil last))) 200
  refine ⟨session, after, last, next, buffers, sameHost, returned,
    Trace.cons stores (Trace.cons allocates (Trace.nil last)), downloads, ?_⟩
  rw [memory, sameHost]
  rfl

end Small

end Session

end Espiral
