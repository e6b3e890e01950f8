import Espiral.Api.Espiral
import Espiral.Spinner.SpinnerRuns

/-!
# What the calls of a program do

To the spinner a call of a program is one call of its own, or none; in the
program it loses no buffer and moves none. What is uploaded are the bytes that
the program's memory has at that moment.
-/

namespace Espiral

set_option autoImplicit false

open ByteMemory Contracts MachineWords Spinner

/-- The call of the spinner that a call of the program makes. -/
def ApiCall.spinnerCall (program : Program FlatDevice) : ApiCall → Option SpinnerCall
  | .allocateKernel vxbin_path => some (.allocateKernel vxbin_path)
  | .startKernel kid order => some (.startKernel kid order)
  | .freeKernel kid => some (.freeKernel kid)
  | .allocateUploadBuffer kid size _ => some (.allocateHeap kid size)
  | .allocateDevBuffer kid size => some (.allocateHeap kid size)
  | .uploadArgs kid args size => some (.uploadArgs kid (load program.host args size))
  | .upload kid index => program.buffers[index]?.map fun buffer =>
      .upload kid buffer.va_ (load program.host buffer.host_ptr_ buffer.size_)
  | .download kid buffer =>
      some (.download kid buffer.va (load program.host buffer.host_ptr buffer.read_size))
  | .waitKernel _ _ => none
  | .setContent _ _ _ => none
  | .getCaps _ => none
  | .store _ _ => none

theorem ApiCall.spinnerCall_frees {program : Program FlatDevice} {call : ApiCall} {kid : Nat}
    (spins : call.spinnerCall program = some (.freeKernel kid)) : call = .freeKernel kid := by
  cases call with
  | freeKernel other =>
      cases spins
      rfl
  | upload other index =>
      rw [ApiCall.spinnerCall, Option.map_eq_some_iff] at spins
      obtain ⟨_, _, impossible⟩ := spins
      cases impossible
  | allocateKernel _ => cases spins
  | startKernel _ _ => cases spins
  | waitKernel _ _ => cases spins
  | allocateUploadBuffer _ _ _ => cases spins
  | allocateDevBuffer _ _ => cases spins
  | setContent _ _ _ => cases spins
  | uploadArgs _ _ _ => cases spins
  | download _ _ => cases spins
  | getCaps _ => cases spins
  | store _ _ => cases spins

namespace Program

/-- A call that returns or throws; it names a finished kernel. -/
def ApiStep (platform : Platform) (caps : Caps → Option Nat) (files : Files)
    (state : Program FlatDevice) (call : ApiCall) (next : Program FlatDevice) : Prop :=
  (∀ made, call.spinnerCall state = some made → Admissible state.spinner_.kcbs_ made) ∧
    ((∃ answer, perform platform (flatAccelerator caps) files call state = .ok answer next) ∨
      ∃ fault, perform platform (flatAccelerator caps) files call state = .error fault next)

section Steps

variable {platform : Platform} {caps : Caps → Option Nat} {files : Files}
  {state next : Program FlatDevice} {call : ApiCall}

def Moved (platform : Platform) (caps : Caps → Option Nat) (files : Files)
    (state : Program FlatDevice) (call : ApiCall) (spinner : Spinner FlatDevice) : Prop :=
  match call.spinnerCall state with
  | none => spinner = state.spinner_
  | some made =>
      (∃ value, performCall platform caps files made state.spinner_ = .ok value spinner) ∨
        ∃ fault, performCall platform caps files made state.spinner_ = .error fault spinner

theorem Moved.spun {made : SpinnerCall} {spinner : Spinner FlatDevice}
    (spins : call.spinnerCall state = some made)
    (outcome : (∃ value, performCall platform caps files made state.spinner_ = .ok value spinner) ∨
      ∃ fault, performCall platform caps files made state.spinner_ = .error fault spinner) :
    Moved platform caps files state call spinner := by
  unfold Moved
  rw [spins]
  exact outcome

theorem Moved.still (spins : call.spinnerCall state = none) :
    Moved platform caps files state call state.spinner_ := by
  unfold Moved
  rw [spins]

def Moves {Value : Type} (platform : Platform) (caps : Caps → Option Nat) (files : Files)
    (state : Program FlatDevice) (call : ApiCall) (action : Action (Program FlatDevice) Value) :
    Prop :=
  Ensures action state (fun _ next => Moved platform caps files state call next.spinner_)
    (fun _ next => Moved platform caps files state call next.spinner_)

theorem Moves.andThen {Value Result : Type} {action : Action (Program FlatDevice) Value}
    {continuation : Value → Action (Program FlatDevice) Result}
    (moves : Moves platform caps files state call action)
    (quiet : ∀ value state, ∃ result next,
      continuation value state = .ok result next ∧ next.spinner_ = state.spinner_) :
    Moves platform caps files state call (action >>= continuation) := by
  refine Ensures.bind (moves.weaken ?_ fun _ _ moved => moved)
  intro value next moved
  obtain ⟨result, last, ran, same⟩ := quiet value next
  exact ensures_of_run ran (same ▸ moved)

/-- The part of a call that is the spinner's ends as the whole call of the spinner does. -/
theorem onSpinner_moves {Value : Type} {action : Action (Spinner FlatDevice) Value}
    {made : SpinnerCall} (spins : call.spinnerCall state = some made)
    (performs : performCall platform caps files made =
      (do
        let _ ← action
        pure ())) :
    Moves platform caps files state call (onSpinner action) := by
  unfold Moves Ensures onSpinner
  cases ran : action state.spinner_ with
  | ok value spinner => exact Moved.spun spins (Or.inl ⟨(), by rw [performs, bind_ok ran]; rfl⟩)
  | error fault spinner => exact Moved.spun spins (Or.inr ⟨fault, by rw [performs, bind_error ran]⟩)

theorem discards (action : Action (Spinner FlatDevice) Unit) :
    action = (do
      let _ ← action
      pure ()) := bind_pure_unit.symm

theorem bufferAt_of_some {index : Nat} {buffer : UploadBuffer}
    (stored : state.buffers[index]? = some buffer) : bufferAt index state = .ok buffer state := by
  unfold bufferAt
  rw [stored]

theorem bufferAt_of_none {index : Nat} (missing : state.buffers[index]? = none) :
    bufferAt index state = .error .undefinedBehaviour state := by
  unfold bufferAt
  rw [missing]

theorem setContent_moves (index data data_size : Nat) :
    Moves platform caps files state (.setContent index data data_size)
      (setContent index data data_size) := by
  have still : Moved platform caps files state (.setContent index data data_size) state.spinner_ :=
    Moved.still rfl
  unfold setContent
  cases stored : state.buffers[index]? with
  | none => exact ensures_of_throw (bind_error (bufferAt_of_none stored)) still
  | some buffer =>
      refine ensures_bind_of_run (bufferAt_of_some stored) ?_
      cases buffer.setContent data data_size with
      | ok filled => exact ensures_of_run rfl still
      | error fault => exact ensures_throw still

theorem waitKernel_moves (kid timeout : Nat) :
    Moves platform caps files state (.waitKernel kid timeout) (waitKernel kid) := by
  have still : Moved platform caps files state (.waitKernel kid timeout) state.spinner_ :=
    Moved.still rfl
  refine Moves.andThen ?_ fun _ next => ⟨(), next, rfl, rfl⟩
  unfold Moves Ensures onSpinner Spinner.kcbAt
  cases stored : state.spinner_.kcbs_[kid]? with
  | none => exact still
  | some slot =>
      cases slot with
      | none => exact still
      | some kcb => exact still

theorem onSpinner_ok {Value : Type} {action : Action (Spinner FlatDevice) Value} {value : Value}
    {spinner : Spinner FlatDevice} (ran : action state.spinner_ = .ok value spinner) :
    onSpinner action state = .ok value { state with spinner_ := spinner } := by
  unfold onSpinner
  rw [ran]

theorem onSpinner_error {Value : Type} {action : Action (Spinner FlatDevice) Value} {fault : Fault}
    {spinner : Spinner FlatDevice} (ran : action state.spinner_ = .error fault spinner) :
    onSpinner action state = .error fault { state with spinner_ := spinner } := by
  unfold onSpinner
  rw [ran]

/-- A copy to the host ends as the copy of the spinner does, with the memory of the host in the place
of a list of bytes. After a throw other bytes than those of the destination are what they were. -/
inductive Landed (host_ptr size : Nat) (state : Program FlatDevice) :
    EStateM.Result Fault (Spinner FlatDevice) (List UInt8) →
      EStateM.Result Fault (Program FlatDevice) Unit → Prop
  | returned {bytes : List UInt8} {spinner : Spinner FlatDevice} (length : bytes.length = size) :
      Landed host_ptr size state (.ok bytes spinner) (.ok () { state with
        spinner_ := spinner
        host := ByteMemory.store state.host host_ptr bytes })
  | thrown {fault : Fault} {spinner : Spinner FlatDevice} {host : Memory}
      (kept : ∀ position, position < host_ptr ∨ host_ptr + size ≤ position →
        host position = state.host position) :
      Landed host_ptr size state (.error fault spinner) (.error fault { state with
        spinner_ := spinner
        host := host })

/-- A chunk that has been stored is hidden by the whole destination. -/
theorem Landed.afterChunk {host_ptr size offset : Nat} {chunk : List UInt8}
    {spinner : Spinner FlatDevice}
    {copied : EStateM.Result Fault (Spinner FlatDevice) (List UInt8)}
    {ended : EStateM.Result Fault (Program FlatDevice) Unit} (inside : offset + chunk.length ≤ size)
    (landed : Landed host_ptr size { state with
      spinner_ := spinner
      host := ByteMemory.store state.host (host_ptr + offset) chunk } copied ended) :
    Landed host_ptr size state copied ended := by
  cases landed with
  | @returned bytes last length =>
      rw [store_store_within (by omega)]
      exact .returned length
  | thrown kept =>
      refine .thrown fun position outside => ?_
      exact (kept position outside).trans (store_outside (by omega))

theorem accelDownload_flat {dest : List UInt8} {width : Nat} (length : dest.length = width) (pa : Nat)
    (spinner : Spinner FlatDevice) : accelDownload (flatAccelerator caps) dest pa spinner =
      .ok (load spinner.device.memory pa width) spinner := by
  rw [← length]
  rfl

/-- The loops go together: the destination is what the host has in its place. -/
theorem copyChunksToHost_lands (top_pgtbl_pa host_ptr size fuel va offset : Nat)
    (state : Program FlatDevice) :
    Landed host_ptr size state
      (Spinner.copyChunksToHost (flatAccelerator caps) top_pgtbl_pa fuel va offset
        (load state.host host_ptr size) state.spinner_)
      (copyChunksToHost (flatAccelerator caps) top_pgtbl_pa host_ptr size fuel va offset state) := by
  induction fuel generalizing va offset state with
  | zero => exact .thrown fun _ _ => rfl
  | succ fuel ih =>
      rw [Spinner.copyChunksToHost, copyChunksToHost, load_length]
      by_cases more : offset < size
      · rw [if_pos more, if_pos more]
        generalize widthIs : min (PAGE_SIZE - (va &&& (PAGE_SIZE - 1))) (size - offset) = width
        have inside : offset + width ≤ size := by omega
        cases translated : onAddressSpace (AddressSpaceManager.translate va top_pgtbl_pa)
            state.spinner_ with
        | error fault spinner =>
            rw [bind_error translated, bind_error (onSpinner_error translated)]
            exact .thrown fun _ _ => rfl
        | ok found spinner =>
            rw [bind_ok translated, bind_ok (onSpinner_ok translated)]
            cases found with
            | none => exact .thrown fun _ _ => rfl
            | some pa =>
                -- both read the same chunk, into the slice of the destination and into the host
                have value : (valueOf (some pa) : Action (Spinner FlatDevice) Nat) spinner =
                    .ok pa spinner := rfl
                have loaded : hostLoad (host_ptr + offset) width { state with spinner_ := spinner } =
                    .ok (load state.host (host_ptr + offset) width)
                      { state with spinner_ := spinner } := rfl
                have slice : ((load state.host host_ptr size).drop offset).take width =
                    load state.host (host_ptr + offset) width := load_slice _ _ inside
                rw [bind_ok value, slice, bind_ok (accelDownload_flat (load_length ..) pa spinner),
                  bind_ok (onSpinner_ok value), bind_ok loaded,
                  bind_ok (onSpinner_ok (accelDownload_flat (load_length ..) pa spinner))]
                have length := load_length spinner.device.memory pa width
                have rest := ih (wrap32 (va + width)) (offset + width) { state with
                  spinner_ := spinner
                  host := ByteMemory.store state.host (host_ptr + offset)
                    (load spinner.device.memory pa width) }
                rw [load_store_within (length.symm ▸ inside), length] at rest
                exact rest.afterChunk (length.symm ▸ inside)
      · rw [if_neg more, if_neg more]
        have whole := @Landed.returned host_ptr size state _ state.spinner_
          (load_length state.host host_ptr size)
        rw [store_load] at whole
        exact whole

theorem download_lands (kid : Nat) (buf : DownloadBuffer) (state : Program FlatDevice) :
    Landed buf.host_ptr buf.read_size state
      (Spinner.download (flatAccelerator caps) kid buf.va (load state.host buf.host_ptr buf.read_size)
        state.spinner_)
      (download (flatAccelerator caps) kid buf state) := by
  rw [Spinner.download, Spinner.copyDevToHost, download, copyDevToHost, load_length]
  cases stored : state.spinner_.kcbs_[kid]? with
  | none =>
      have missing : kcbAt kid state.spinner_ = .error .outOfRange state.spinner_ := by
        rw [kcbAt, stored]
      rw [bind_error missing, bind_error (onSpinner_error missing)]
      exact .thrown fun _ _ => rfl
  | some slot =>
      cases slot with
      | none =>
          have freed : kcbAt kid state.spinner_ = .error .badOptionalAccess state.spinner_ := by
            rw [kcbAt, stored]
          rw [bind_error freed, bind_error (onSpinner_error freed)]
          exact .thrown fun _ _ => rfl
      | some kcb =>
          rw [bind_ok (kcbAt_run stored), bind_ok (onSpinner_ok (kcbAt_run stored))]
          exact copyChunksToHost_lands ..

theorem download_moves (kid : Nat) (buf : DownloadBuffer) :
    Moves platform caps files state (.download kid buf) (download (flatAccelerator caps) kid buf) := by
  have landed := @download_lands caps kid buf state
  have performs : performCall platform caps files (.download kid buf.va
      (load state.host buf.host_ptr buf.read_size)) = (do
        let _ ← Spinner.download (flatAccelerator caps) kid buf.va
          (load state.host buf.host_ptr buf.read_size)
        pure ()) := rfl
  unfold Moves Ensures
  generalize download (flatAccelerator caps) kid buf state = ended at landed
  cases copied : Spinner.download (flatAccelerator caps) kid buf.va
      (load state.host buf.host_ptr buf.read_size) state.spinner_ with
  | ok bytes spinner =>
      rw [copied] at landed
      cases landed
      exact Moved.spun rfl (Or.inl ⟨(), by rw [performs, bind_ok copied]; rfl⟩)
  | error fault spinner =>
      rw [copied] at landed
      cases landed
      exact Moved.spun rfl (Or.inr ⟨fault, by rw [performs, bind_error copied]⟩)

/-- A call that is one call of the spinner moves it as that call does, and no other call does. -/
theorem perform_moves (call : ApiCall) :
    Moves platform caps files state call (perform platform (flatAccelerator caps) files call) := by
  have done : ∀ (answer : Answer) (next : Program FlatDevice), ∃ result last,
      (pure answer : Action (Program FlatDevice) Answer) next = .ok result last ∧
        last.spinner_ = next.spinner_ := fun answer next => ⟨answer, next, rfl, rfl⟩
  cases call with
  | allocateKernel vxbin_path => exact (onSpinner_moves rfl rfl).andThen fun _ => done _
  | startKernel kid order =>
      refine Moves.andThen ?_ fun _ => done _
      exact onSpinner_moves rfl (discards _)
  | freeKernel kid =>
      refine Moves.andThen ?_ fun _ => done _
      exact onSpinner_moves rfl (discards _)
  | allocateDevBuffer kid size => exact (onSpinner_moves rfl rfl).andThen fun _ => done _
  | allocateUploadBuffer kid size flags =>
      refine Moves.andThen ?_ fun _ => done _
      exact (onSpinner_moves rfl rfl).andThen fun _ next => ⟨_, _, rfl, rfl⟩
  | uploadArgs kid args size =>
      refine Moves.andThen ?_ fun _ => done _
      exact ensures_bind_of_run rfl (onSpinner_moves rfl (discards _))
  | upload kid index =>
      refine Moves.andThen ?_ fun _ => done _
      unfold upload
      cases stored : state.buffers[index]? with
      | none =>
          refine ensures_of_throw (bind_error (bufferAt_of_none stored)) (Moved.still ?_)
          rw [ApiCall.spinnerCall, stored, Option.map_none]
      | some buffer =>
          have spins : ApiCall.spinnerCall state (.upload kid index) = some (.upload kid buffer.va_
              (load state.host buffer.host_ptr_ buffer.size_)) := by
            rw [ApiCall.spinnerCall, stored, Option.map_some]
          refine ensures_bind_of_run (bufferAt_of_some stored) (ensures_bind_of_run rfl ?_)
          exact onSpinner_moves spins (discards _)
  | download kid buffer => exact (download_moves kid buffer).andThen fun _ => done _
  | waitKernel kid timeout => exact (waitKernel_moves kid timeout).andThen fun _ => done _
  | setContent index data data_size =>
      exact (setContent_moves index data data_size).andThen fun _ => done _
  | getCaps caps_id => exact ensures_pure (Moved.still rfl)
  | store addr bytes => exact ensures_of_run rfl (Moved.still rfl)

theorem ApiStep.spins (step : ApiStep platform caps files state call next) :
    (call.spinnerCall state = none ∧ next.spinner_ = state.spinner_) ∨
      ∃ made, call.spinnerCall state = some made ∧
        CallStep platform caps files state.spinner_ made next.spinner_ := by
  obtain ⟨admissible, outcome⟩ := step
  have moved := (perform_moves call).either outcome
  unfold Moved at moved
  cases spins : call.spinnerCall state with
  | none =>
      rw [spins] at moved
      exact Or.inl ⟨rfl, moved⟩
  | some made =>
      rw [spins] at moved
      exact Or.inr ⟨made, rfl, admissible made spins, moved⟩

theorem allocateUploadBuffer_ok {kid size flags va : Nat} {spinner : Spinner FlatDevice}
    (ran : Spinner.allocateHeap kid size state.spinner_ = .ok va spinner) :
    perform platform (flatAccelerator caps) files (.allocateUploadBuffer kid size flags) state =
      .ok (.buffer state.buffers.length)
        { state with
          spinner_ := spinner
          buffers := state.buffers ++ [.new va (wrap32 size) flags] } := by
  have added : allocateUploadBuffer kid size flags state = .ok state.buffers.length
      { state with
        spinner_ := spinner
        buffers := state.buffers ++ [.new va (wrap32 size) flags] } := bind_ok (onSpinner_ok ran)
  exact bind_ok added

theorem allocateUploadBuffer_error {kid size flags : Nat} {fault : Fault}
    {spinner : Spinner FlatDevice}
    (ran : Spinner.allocateHeap kid size state.spinner_ = .error fault spinner) :
    perform platform (flatAccelerator caps) files (.allocateUploadBuffer kid size flags) state =
      .error fault { state with spinner_ := spinner } := by
  have refused : allocateUploadBuffer kid size flags state =
      .error fault { state with spinner_ := spinner } := bind_error (onSpinner_error ran)
  exact bind_error refused

theorem upload_ok {kid index : Nat} {buffer : UploadBuffer} {spinner : Spinner FlatDevice}
    (stored : state.buffers[index]? = some buffer)
    (ran : Spinner.upload (flatAccelerator caps) kid buffer.va_
      (load state.host buffer.host_ptr_ buffer.size_) state.spinner_ = .ok () spinner) :
    perform platform (flatAccelerator caps) files (.upload kid index) state =
      .ok .done { state with spinner_ := spinner } := by
  have read : hostLoad buffer.host_ptr_ buffer.size_ state =
      .ok (load state.host buffer.host_ptr_ buffer.size_) state := rfl
  have whole : upload (flatAccelerator caps) kid index state =
      .ok () { state with spinner_ := spinner } := by
    rw [upload, bind_ok (bufferAt_of_some stored), bind_ok read, onSpinner_ok ran]
  exact bind_ok whole

theorem download_ok {kid : Nat} {buffer : DownloadBuffer} {bytes : List UInt8}
    {spinner : Spinner FlatDevice}
    (ran : Spinner.download (flatAccelerator caps) kid buffer.va
      (load state.host buffer.host_ptr buffer.read_size) state.spinner_ = .ok bytes spinner) :
    perform platform (flatAccelerator caps) files (.download kid buffer) state =
      .ok .done { state with
        spinner_ := spinner
        host := ByteMemory.store state.host buffer.host_ptr bytes } := by
  have landed := @download_lands caps kid buffer state
  rw [ran] at landed
  have whole : download (flatAccelerator caps) kid buffer state = .ok () { state with
      spinner_ := spinner
      host := ByteMemory.store state.host buffer.host_ptr bytes } := by
    generalize download (flatAccelerator caps) kid buffer state = ended at landed
    cases landed
    rfl
  exact bind_ok whole

/-- No buffer is lost or moved, and there are more of them only after such a request. -/
structure KeepsBuffers (state : Program FlatDevice) (call : ApiCall) (next : Program FlatDevice) :
    Prop where
  stay : ∀ (index : Nat) (buffer : UploadBuffer), state.buffers[index]? = some buffer →
    ∃ now : UploadBuffer, next.buffers[index]? = some now ∧ now.va_ = buffer.va_ ∧
      now.device_max_size_ = buffer.device_max_size_
  few : (∀ kid size flags, call ≠ .allocateUploadBuffer kid size flags) →
    next.buffers.length = state.buffers.length

theorem KeepsBuffers.of_eq (same : next.buffers = state.buffers) : KeepsBuffers state call next where
  stay index buffer stored := ⟨buffer, same ▸ stored, rfl, rfl⟩
  few _ := by rw [same]

theorem onSpinner_buffers {Value : Type} (action : Action (Spinner FlatDevice) Value)
    (state : Program FlatDevice) :
    Ensures (onSpinner action) state (fun _ next => next.buffers = state.buffers)
      (fun _ next => next.buffers = state.buffers) := by
  unfold Ensures onSpinner
  cases action state.spinner_ with
  | ok value spinner => rfl
  | error fault spinner => rfl

theorem download_buffers (kid : Nat) (buf : DownloadBuffer) :
    Ensures (download (flatAccelerator caps) kid buf) state
      (fun _ next => next.buffers = state.buffers) (fun _ next => next.buffers = state.buffers) := by
  have landed := @download_lands caps kid buf state
  unfold Ensures
  generalize Spinner.download (flatAccelerator caps) kid buf.va _ _ = copied at landed
  generalize download (flatAccelerator caps) kid buf state = ended at landed
  cases landed with
  | returned length => rfl
  | thrown kept => rfl

theorem setContent_keeps {buffer filled : UploadBuffer} {data data_size : Nat}
    (set : buffer.setContent data data_size = .ok filled) :
    filled.va_ = buffer.va_ ∧ filled.device_max_size_ = buffer.device_max_size_ := by
  unfold UploadBuffer.setContent at set
  split at set
  · cases set
  · cases set
    exact ⟨rfl, rfl⟩

theorem setContent_buffers (index data data_size : Nat) :
    Ensures (setContent index data data_size) state
      (fun _ next => KeepsBuffers state (.setContent index data data_size) next)
      (fun _ next => KeepsBuffers state (.setContent index data data_size) next) := by
  unfold setContent
  cases stored : state.buffers[index]? with
  | none => exact ensures_of_throw (bind_error (bufferAt_of_none stored)) (.of_eq rfl)
  | some buffer =>
      refine ensures_bind_of_run (bufferAt_of_some stored) ?_
      cases set : buffer.setContent data data_size with
      | error fault => exact ensures_throw (.of_eq rfl)
      | ok filled =>
          obtain ⟨sameVa, sameMax⟩ := setContent_keeps set
          refine ensures_of_run rfl ⟨?_, fun _ => List.length_set⟩
          intro other found here
          by_cases same : index = other
          · rw [same] at stored
            rw [stored, Option.some.injEq] at here
            refine ⟨filled, ?_, here ▸ sameVa, here ▸ sameMax⟩
            rw [same]
            exact List.getElem?_set_self (List.getElem?_eq_some_iff.mp stored).1
          · exact ⟨found, (List.getElem?_set_ne same).trans here, rfl, rfl⟩

theorem perform_buffers (call : ApiCall) :
    Ensures (perform platform (flatAccelerator caps) files call) state
      (fun _ next => KeepsBuffers state call next) (fun _ next => KeepsBuffers state call next) := by
  have spun : ∀ {Value Result : Type} {action : Action (Spinner FlatDevice) Value}
      {continuation : Value → Action (Program FlatDevice) Result},
      (∀ value state, ∃ result next, continuation value state = .ok result next ∧
        next.buffers = state.buffers) →
      Ensures (onSpinner action >>= continuation) state
        (fun _ next => KeepsBuffers state call next)
        (fun _ next => KeepsBuffers state call next) := by
    intro Value Result action continuation quiet
    apply Ensures.bind
    apply (onSpinner_buffers action state).weaken
    · intro value next same
      obtain ⟨result, last, ran, still⟩ := quiet value next
      exact ensures_of_run ran (.of_eq (still.trans same))
    · exact fun _ _ same => .of_eq same
  have done : ∀ (answer : Answer) (next : Program FlatDevice), ∃ result last,
      (pure answer : Action (Program FlatDevice) Answer) next = .ok result last ∧
        last.buffers = next.buffers := fun answer next => ⟨answer, next, rfl, rfl⟩
  cases call with
  | allocateKernel vxbin_path => exact spun fun _ => done _
  | startKernel kid order => exact spun fun _ => done _
  | freeKernel kid => exact spun fun _ => done _
  | allocateDevBuffer kid size => exact spun fun _ => done _
  | getCaps caps_id => exact ensures_pure (.of_eq rfl)
  | store addr bytes => exact ensures_of_run rfl (.of_eq rfl)
  | setContent index data data_size =>
      refine Ensures.bind ?_
      exact (setContent_buffers index data data_size).weaken (fun _ _ kept => ensures_pure kept)
        fun _ _ kept => kept
  | allocateUploadBuffer kid size flags =>
      cases ran : Spinner.allocateHeap kid size state.spinner_ with
      | error fault spinner => exact ensures_of_throw (allocateUploadBuffer_error ran) (.of_eq rfl)
      | ok va spinner =>
          refine ensures_of_run (allocateUploadBuffer_ok ran) ⟨?_, fun other => ?_⟩
          · intro index buffer stored
            have inside := (List.getElem?_eq_some_iff.mp stored).1
            exact ⟨buffer, (List.getElem?_append_left inside).trans stored, rfl, rfl⟩
          · exact absurd rfl (other kid size flags)
  | uploadArgs kid args size =>
      refine Ensures.bind (ensures_bind_of_run rfl ?_)
      exact (onSpinner_buffers _ state).weaken (fun _ _ same => ensures_pure (.of_eq same))
        fun _ _ same => .of_eq same
  | upload kid index =>
      refine Ensures.bind ?_
      unfold upload
      cases stored : state.buffers[index]? with
      | none => exact ensures_of_throw (bind_error (bufferAt_of_none stored)) (.of_eq rfl)
      | some buffer =>
          refine ensures_bind_of_run (bufferAt_of_some stored) (ensures_bind_of_run rfl ?_)
          exact (onSpinner_buffers _ state).weaken (fun _ _ same => ensures_pure (.of_eq same))
            fun _ _ same => .of_eq same
  | download kid buffer =>
      refine Ensures.bind ?_
      exact (download_buffers kid buffer).weaken (fun _ _ same => ensures_pure (.of_eq same))
        fun _ _ same => .of_eq same
  | waitKernel kid timeout =>
      refine Ensures.bind (Ensures.bind ?_)
      exact (onSpinner_buffers _ state).weaken (fun _ _ same => ensures_pure (ensures_pure (KeepsBuffers.of_eq same)))
        fun _ _ same => KeepsBuffers.of_eq same

end Steps

end Program

end Espiral
