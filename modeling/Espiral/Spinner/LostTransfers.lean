import Espiral.Accelerator.Backends
import Espiral.Spinner.Transfers

/-!
# Which transfers arrive

The copy loops do not look at return codes, so a chunk that a backend rejects is
lost without notice. A backend rejects a chunk when its start plus its size in
whole cache lines is past the end of memory.
-/

namespace Espiral.Spinner

set_option autoImplicit false

open AddressSpaceManager ByteMemory Contracts MachineWords

section Arrival

variable {Device : Type} {accelerator : HostAccelerator Device} {ram : Device → Memory}
  {accepts : Nat → Nat → Bool} {state : Spinner Device} {kid root va size : Nat}

/-- After a returning upload of this size, whatever its content, every byte is in memory. -/
def UploadsArrive (accelerator : HostAccelerator Device) (ram : Device → Memory)
    (state : Spinner Device) (kid root va size : Nat) : Prop :=
  ∀ content : List UInt8, content.length = size → ∀ next,
    upload accelerator kid va content state = .ok () next →
      ∀ index addr, byteAddress state.aspace_ root va index = some addr →
        ∀ inside : index < content.length, ram next.device addr = content[index]

/-- A returning download of this size, whatever the destination held, fills every byte. -/
def DownloadsFill (accelerator : HostAccelerator Device) (ram : Device → Memory)
    (state : Spinner Device) (kid root va size : Nat) : Prop :=
  ∀ dest : List UInt8, dest.length = size → ∀ result next,
    download accelerator kid va dest state = .ok result next →
      result.length = size ∧ ∀ index < size, ∀ addr,
        byteAddress state.aspace_ root va index = some addr →
          result[index]? = some (ram state.device addr)

def ChunksAccepted (accepts : Nat → Nat → Bool) (aspace : AddressSpaceManager)
    (root va size : Nat) : Prop :=
  ∀ index < size, chunkAccepted accepts (byteAddress aspace root va) va size index = true

def BytesApart (aspace : AddressSpaceManager) (root va size : Nat) : Prop :=
  ∀ first < size, ∀ second < size,
    byteAddress aspace root va first = byteAddress aspace root va second → first = second

variable {kcb : KernelControlBlock} (backed : accelerator.Backed ram accepts)
  (stored : state.kcbs_[kid]? = some (some kcb))
  (mapped : ∀ index < size, (byteAddress state.aspace_ kcb.top_pgtbl_pa va index).isSome)

include backed stored mapped

/-- A rejected chunk keeps the old byte: an upload that differs from it there, and
repeats it everywhere else, is not found. -/
theorem chunksAccepted_of_uploadsArrive
    (arrive : UploadsArrive accelerator ram state kid kcb.top_pgtbl_pa va size) :
    ChunksAccepted accepts state.aspace_ kcb.top_pgtbl_pa va size := by
  intro index inside
  by_contra refused
  obtain ⟨addr, found⟩ := Option.isSome_iff_exists.mp (mapped index inside)
  let old := ram state.device addr
  let content := (List.replicate size old).set index (old + 1)
  have length : content.length = size := by
    rw [List.length_set, List.length_replicate]
  obtain ⟨next, ran, _, uploaded⟩ := @upload_returns _ _ _ _ _ _ va _ backed stored content
    (by rw [length]; exact mapped)
  have within : index < content.length := by omega
  have here := arrive content length next ran index addr found within
  rw [List.getElem_set_self] at here
  have kept : ram next.device addr = old := by
    rw [length] at uploaded
    cases uploaded addr with
    | inl written =>
        obtain ⟨other, otherInside, _, isAccepted, _, value⟩ := written
        have different : index ≠ other := by
          intro same
          rw [same] at refused
          exact refused isAccepted
        rw [value, List.getElem_set_ne different, List.getElem_replicate]
    | inr untouched => exact untouched.2
  rw [kept] at here
  have step := congrArg UInt8.toBitVec here
  simp at step

theorem bytesApart_of_uploadsArrive
    (arrive : UploadsArrive accelerator ram state kid kcb.top_pgtbl_pa va size) :
    BytesApart state.aspace_ kcb.top_pgtbl_pa va size := by
  intro first firstInside second secondInside same
  by_contra different
  obtain ⟨addr, found⟩ := Option.isSome_iff_exists.mp (mapped first firstInside)
  let content := (List.replicate size (0 : UInt8)).set first 1
  have length : content.length = size := by
    rw [List.length_set, List.length_replicate]
  obtain ⟨next, ran, _⟩ := @upload_returns _ _ _ _ _ _ va _ backed stored content
    (by rw [length]; exact mapped)
  have one := arrive content length next ran first addr found (by omega)
  have other := arrive content length next ran second addr (same.symm.trans found) (by omega)
  rw [one, List.getElem_set_self, List.getElem_set_ne different, List.getElem_replicate] at other
  cases other

theorem uploadsArrive_iff :
    UploadsArrive accelerator ram state kid kcb.top_pgtbl_pa va size ↔
      ChunksAccepted accepts state.aspace_ kcb.top_pgtbl_pa va size ∧
        BytesApart state.aspace_ kcb.top_pgtbl_pa va size := by
  constructor
  · intro arrive
    exact ⟨chunksAccepted_of_uploadsArrive backed stored mapped arrive,
      bytesApart_of_uploadsArrive backed stored mapped arrive⟩
  · intro condition content length next ran index addr found inside
    obtain ⟨accepted, apart⟩ := condition
    obtain ⟨_, uploaded, _⟩ := (@upload_spec _ _ _ _ backed _ _ va _ stored content).of_ok ran
    rw [length] at uploaded
    apply uploaded.arrives ?_ inside found (accepted index (by omega))
    intro first firstInside second secondInside same
    exact apart first (by omega) second (by omega) same

theorem downloadsFill_iff :
    DownloadsFill accelerator ram state kid kcb.top_pgtbl_pa va size ↔
      ChunksAccepted accepts state.aspace_ kcb.top_pgtbl_pa va size := by
  constructor
  · intro fill index inside
    by_contra refused
    obtain ⟨addr, found⟩ := Option.isSome_iff_exists.mp (mapped index inside)
    let dest := List.replicate size (ram state.device addr + 1)
    have length : dest.length = size := List.length_replicate
    obtain ⟨result, next, ran, _, _, filled⟩ := @download_returns _ _ _ _ _ _ va _ backed stored dest
      (by rw [length]; exact mapped)
    have here := (fill dest length result next ran).2 index inside addr found
    rw [length] at filled
    have kept := filled.kept index (Or.inr (by simpa using refused))
    rw [here, List.getElem?_replicate, if_pos inside, Option.some.injEq] at kept
    have step := congrArg UInt8.toBitVec kept
    simp at step
  · intro accepted dest length result next ran
    obtain ⟨_, _, filled, _⟩ := (@download_spec _ _ _ _ backed _ _ va _ stored dest).of_ok ran
    rw [length] at filled
    refine ⟨filled.length.trans length, ?_⟩
    intro index inside addr found
    obtain ⟨other, otherFound, value⟩ := filled.loaded index (Nat.zero_le _) (by omega)
      (accepted index inside)
    rw [found, Option.some.injEq] at otherFound
    rw [otherFound]
    exact value

end Arrival

/-- On either simulator the uploads of a mapped range arrive just if every chunk of it
passes the bound check and no two bytes share an address; the downloads fill their
destination just if every chunk passes. -/
theorem transfers_arrive_iff (platform : Platform) (caps : Caps → Option Nat)
    (simulator : Simulator) {state : Spinner simulator.Device} {kid va size : Nat}
    {kcb : KernelControlBlock} (stored : state.kcbs_[kid]? = some (some kcb))
    (mapped : ∀ index < size, (byteAddress state.aspace_ kcb.top_pgtbl_pa va index).isSome) :
    (UploadsArrive (simulator.accelerator platform caps) simulator.ram state kid
          kcb.top_pgtbl_pa va size ↔
        ChunksAccepted (transferFits platform) state.aspace_ kcb.top_pgtbl_pa va size ∧
          BytesApart state.aspace_ kcb.top_pgtbl_pa va size) ∧
      (DownloadsFill (simulator.accelerator platform caps) simulator.ram state kid
          kcb.top_pgtbl_pa va size ↔
        ChunksAccepted (transferFits platform) state.aspace_ kcb.top_pgtbl_pa va size) := by
  have backed := simulator.accelerator_backed platform caps
  exact ⟨uploadsArrive_iff backed stored mapped, downloadsFill_iff backed stored mapped⟩

section Small

def blankDevice : SimXDevice where
  ram_ := fun _ => 0
  dcrs_ := fun _ => none
  satp_ := none

def smallAccelerator : HostAccelerator SimXDevice := simXAccelerator smallPlatform fun _ => none

theorem smallPlatform_lastFrame : ∃ first second state kcb,
    allocateKernel (fun _ => some emptyImage) "kernel"
        (Spinner.new smallPlatform smallAccelerator blankDevice) = .ok 0 first ∧
      allocateHeap 0 4096 first = .ok 0x10000 second ∧
      allocateHeap 0 4096 second = .ok 0x11000 state ∧
      state.kcbs_[0]? = some (some kcb) ∧ kcb.top_pgtbl_pa = 0x1000 ∧
      state.device = blankDevice ∧
      ∀ index < 4095, byteAddress state.aspace_ 0x1000 0x11001 index = some (0x4001 + index) := by
  obtain ⟨created, aspace, final, table, _, firstRan, _, secondRan, _, _, lookup⟩ :=
    HeapManager.smallPlatform_twoPages
  have kernel := smallPlatform_kernel smallAccelerator rfl blankDevice table
  have base : wrap32 (pageAlignUp 0x10000) = 0x10000 := by decide
  have heapIs : (newKcb 0x1000 "kernel" 16 0x10000 0x10000).heap =
      some (HeapManager.new 0x1000 0x10000) := by
    rw [newKcb, base]
  have firstPage := @allocateHeap_run SimXDevice
    { kcbs_ := [some (newKcb 0x1000 "kernel" 16 0x10000 0x10000)]
      aspace_ := created
      device := blankDevice } 0 4096 0x10000 _ _ _ rfl heapIs firstRan
  have secondPage := @allocateHeap_run SimXDevice
    { kcbs_ := [some { newKcb 0x1000 "kernel" 16 0x10000 0x10000 with
      heap := some HeapManager.onePageHeap }]
      aspace_ := aspace
      device := blankDevice } 0 4096 0x11000 _ _ _ rfl rfl secondRan
  refine ⟨_, _, _, _, kernel, firstPage, secondPage, rfl, rfl, rfl, ?_⟩
  intro index inside
  have address : wrap32 (0x11001 + index) = 0x11001 + index := wrap32_of_lt (by omega)
  change final.translated 0x1000 (wrap32 (0x11001 + index)) = _
  rw [address, lookup (0x11001 + index) (by omega)]
  simp only [Option.some.injEq]
  omega

theorem lastFrame_rejected {address : Nat → Option Nat}
    (addresses : ∀ index < 4095, address index = some (0x4001 + index)) {index : Nat}
    (inside : index < 4095) :
    chunkAccepted (transferFits smallPlatform) address 0x11001 4095 index = false := by
  have start : chunkStart 0x11001 index = 0 := by
    unfold chunkStart PAGE_SIZE
    omega
  rw [chunkAccepted, start, addresses 0 (by decide)]
  decide

/-- An upload and a download of 4095 bytes in the last frame return and move nothing. -/
theorem last_frame_transfers_lost : ∃ first second state kcb,
    allocateKernel (fun _ => some emptyImage) "kernel"
        (Spinner.new smallPlatform smallAccelerator blankDevice) = .ok 0 first ∧
      allocateHeap 0 4096 first = .ok 0x10000 second ∧
      allocateHeap 0 4096 second = .ok 0x11000 state ∧
      state.kcbs_[0]? = some (some kcb) ∧
      (∀ index < 4095, byteAddress state.aspace_ kcb.top_pgtbl_pa 0x11001 index =
        some (0x4001 + index)) ∧
      0x4001 + 4095 ≤ smallPlatform.GLOBAL_MEM_SIZE ∧
      (∃ next, upload smallAccelerator 0 0x11001 (List.replicate 4095 1) state = .ok () next ∧
        next.device.ram_ 0x4001 = 0) ∧
      (∃ result next, download smallAccelerator 0 0x11001 (List.replicate 4095 1) state =
        .ok result next ∧ result[0]? = some 1 ∧ state.device.ram_ 0x4001 = 0) ∧
      ¬UploadsArrive smallAccelerator SimXDevice.ram_ state 0 kcb.top_pgtbl_pa 0x11001 4095 ∧
      ¬DownloadsFill smallAccelerator SimXDevice.ram_ state 0 kcb.top_pgtbl_pa 0x11001 4095 := by
  obtain ⟨first, second, state, kcb, kernel, firstPage, secondPage, stored, root, device,
    addresses⟩ := smallPlatform_lastFrame
  rw [← root] at addresses
  have backed : smallAccelerator.Backed SimXDevice.ram_ (transferFits smallPlatform) :=
    simXAccelerator_backed smallPlatform _
  have length : (List.replicate 4095 (1 : UInt8)).length = 4095 := List.length_replicate
  have mapped : ∀ index < (List.replicate 4095 (1 : UInt8)).length,
      (byteAddress state.aspace_ kcb.top_pgtbl_pa 0x11001 index).isSome := by
    intro index inside
    rw [addresses index (by omega)]
    rfl
  have blank : state.device.ram_ 0x4001 = 0 := by
    rw [device]
    rfl
  have refused := fun index inside => @lastFrame_rejected _ addresses index inside
  obtain ⟨next, uploaded, _, untouched⟩ := upload_returns backed stored _ mapped
  have kept : next.device.ram_ 0x4001 = 0 := by
    rw [length] at untouched
    cases untouched 0x4001 with
    | inl written =>
        obtain ⟨index, inside, _, accepted, _⟩ := written
        rw [refused index (by omega)] at accepted
        cases accepted
    | inr same => rw [same.2, blank]
  obtain ⟨result, after, downloaded, _, _, filled⟩ := download_returns backed stored _ mapped
  have unfilled : result[0]? = some 1 := by
    rw [length] at filled
    rw [filled.kept 0 (Or.inr (refused 0 (by decide))), List.getElem?_replicate]
    rfl
  refine ⟨first, second, state, kcb, kernel, firstPage, secondPage, stored, addresses, by decide,
    ⟨next, uploaded, kept⟩, ⟨result, after, downloaded, unfilled, blank⟩, ?_, ?_⟩
  · intro arrive
    have found := arrive _ length next uploaded 0 0x4001 (addresses 0 (by decide)) (by omega)
    rw [kept, List.getElem_replicate] at found
    cases found
  · intro fill
    have found := (fill _ length result after downloaded).2 0 (by decide) 0x4001
      (addresses 0 (by decide))
    rw [unfilled, blank] at found
    cases found

/-- Of the same bytes a transfer of the first 64 arrives. -/
theorem transfers_arrive_iff_line : ∃ state : Spinner (Simulator.Device .simX), ∃ kcb,
    state.kcbs_[0]? = some (some kcb) ∧
      UploadsArrive (Simulator.accelerator smallPlatform (fun _ => none) .simX)
        (Simulator.ram .simX) state 0 kcb.top_pgtbl_pa 0x11001 64 ∧
      DownloadsFill (Simulator.accelerator smallPlatform (fun _ => none) .simX)
        (Simulator.ram .simX) state 0 kcb.top_pgtbl_pa 0x11001 64 := by
  obtain ⟨_, _, state, kcb, _, _, _, stored, root, _, addresses⟩ := smallPlatform_lastFrame
  rw [← root] at addresses
  have mapped : ∀ index < 64,
      (byteAddress state.aspace_ kcb.top_pgtbl_pa 0x11001 index).isSome := by
    intro index inside
    rw [addresses index (by omega)]
    rfl
  have accepted : ChunksAccepted (transferFits smallPlatform) state.aspace_ kcb.top_pgtbl_pa
      0x11001 64 := by
    intro index inside
    have start : chunkStart 0x11001 index = 0 := by
      unfold chunkStart PAGE_SIZE
      omega
    rw [chunkAccepted, start, addresses 0 (by decide)]
    decide
  have apart : BytesApart state.aspace_ kcb.top_pgtbl_pa 0x11001 64 := by
    intro first firstInside second secondInside same
    rw [addresses first (by omega), addresses second (by omega), Option.some.injEq] at same
    omega
  obtain ⟨uploads, downloads⟩ := @transfers_arrive_iff smallPlatform (fun _ => none) .simX state 0
    0x11001 64 kcb stored mapped
  exact ⟨state, kcb, stored, uploads.mpr ⟨accepted, apart⟩, downloads.mpr accepted⟩

end Small

end Espiral.Spinner
