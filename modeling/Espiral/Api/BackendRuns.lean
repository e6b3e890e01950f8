import Espiral.Api.Espiral
import Espiral.Spinner.RelatedDevices

/-!
# The two backends

A program chooses a backend by its number, and from then on it cannot tell which
one it has. The simulators differ in how a start tells the processor where the
page table is: one is given the address, the other a value for its register, out
of which it reads the same address.
-/

namespace Espiral

set_option autoImplicit false

open ByteMemory MachineWords Simulations

section Satp

/-- The page table address in a value for the satp register. -/
def fromSatpSv32 (satp : Nat) : Nat := wrap32 ((satp &&& 0x3FFFFF) <<< 12)

theorem makeSatpSv32_eq (pgtbl_pa : Nat) :
    makeSatpSv32 pgtbl_pa = 2 ^ 31 + pgtbl_pa / 4096 % 2 ^ 22 := by
  have low : pgtbl_pa / 4096 % 2 ^ 22 < 2 ^ 31 := by omega
  have mask : (0x3FFFFF : Nat) = 2 ^ 22 - 1 := by decide
  rw [makeSatpSv32, mask, Nat.and_two_pow_sub_one_eq_mod, Nat.shiftRight_eq_div_pow,
    ← Nat.shiftLeft_add_eq_or_of_lt low, Nat.shiftLeft_eq, Nat.one_mul]

theorem fromSatpSv32_makeSatpSv32 (pgtbl_pa : Nat) :
    fromSatpSv32 (makeSatpSv32 pgtbl_pa) = wrap32 pgtbl_pa / 4096 * 4096 := by
  have mask : (0x3FFFFF : Nat) = 2 ^ 22 - 1 := by decide
  rw [fromSatpSv32, makeSatpSv32_eq, mask, Nat.and_two_pow_sub_one_eq_mod, Nat.shiftLeft_eq]
  unfold wrap32
  omega

end Satp

namespace Program

/-- The programs differ in the devices of their spinners only, and these are related. -/
structure SameProgram {Device Twin : Type} (relation : Device → Twin → Prop)
    (state : Program Device) (twin : Program Twin) : Prop where
  spinner_ : Spinner.SameSpinner relation state.spinner_ twin.spinner_
  host : state.host = twin.host
  buffers : state.buffers = twin.buffers

section Calls

variable {Device Twin Value : Type} {relation : Device → Twin → Prop}

theorem onSpinner_matches {action : Action (Spinner Device) Value}
    {other : Action (Spinner Twin) Value}
    (same : Matches (Spinner.SameSpinner relation) action other) :
    Matches (SameProgram relation) (onSpinner action) (onSpinner other) := by
  intro state twin related
  have ends := same state.spinner_ twin.spinner_ related.spinner_
  unfold onSpinner
  generalize action state.spinner_ = left at ends
  generalize other twin.spinner_ = right at ends
  cases ends with
  | returned relatedNext => exact .returned ⟨relatedNext, related.host, related.buffers⟩
  | thrown relatedNext => exact .thrown ⟨relatedNext, related.host, related.buffers⟩

theorem hostLoad_matches (addr size : Nat) :
    Matches (SameProgram relation) (hostLoad addr size) (hostLoad addr size) := by
  intro state twin related
  unfold hostLoad
  rw [related.host]
  exact .returned related

theorem hostStore_matches (addr : Nat) (bytes : List UInt8) :
    Matches (SameProgram relation) (hostStore addr bytes) (hostStore addr bytes) := by
  intro state twin related
  exact .returned ⟨related.spinner_, by simp only [related.host], related.buffers⟩

theorem bufferAt_matches (index : Nat) :
    Matches (SameProgram relation) (bufferAt index) (bufferAt index) := by
  intro state twin related
  unfold bufferAt
  rw [related.buffers]
  split
  · exact .returned related
  · exact .thrown related

theorem addBuffer_matches (buffer : UploadBuffer) :
    Matches (SameProgram relation) (addBuffer buffer) (addBuffer buffer) := by
  intro state twin related
  unfold addBuffer
  rw [related.buffers]
  exact .returned ⟨related.spinner_, related.host, rfl⟩

theorem setBuffer_matches (index : Nat) (buffer : UploadBuffer) :
    Matches (SameProgram relation) (setBuffer index buffer) (setBuffer index buffer) := by
  intro state twin related
  exact .returned ⟨related.spinner_, related.host, by simp only [related.buffers]⟩

theorem setContent_matches (index data data_size : Nat) :
    Matches (SameProgram relation) (setContent index data data_size)
      (setContent index data data_size) := by
  refine (bufferAt_matches index).bind fun buffer => ?_
  cases buffer.setContent data data_size with
  | ok filled => exact setBuffer_matches index filled
  | error fault => exact matches_throw fault

variable {accelerator : HostAccelerator Device} {other : HostAccelerator Twin}
  (drives : accelerator.Drives relation other)

include drives

theorem copyChunksToHost_matches (top_pgtbl_pa host_ptr size fuel va offset : Nat) :
    Matches (SameProgram relation)
      (copyChunksToHost accelerator top_pgtbl_pa host_ptr size fuel va offset)
      (copyChunksToHost other top_pgtbl_pa host_ptr size fuel va offset) := by
  induction fuel generalizing va offset with
  | zero => exact matches_throw _
  | succ fuel ih =>
      refine matches_ite (fun _ => ?_) fun _ => matches_pure _
      exact (onSpinner_matches (Spinner.onAddressSpace_matches _)).bind fun found =>
        (onSpinner_matches (Spinner.valueOf_matches found)).bind fun pa =>
          (hostLoad_matches _ _).bind fun dest =>
            (onSpinner_matches (Spinner.accelDownload_matches drives dest pa)).bind fun chunk =>
              (hostStore_matches _ chunk).bind fun _ => ih _ _

theorem download_matches (kid : Nat) (buf : DownloadBuffer) :
    Matches (SameProgram relation) (download accelerator kid buf) (download other kid buf) :=
  (onSpinner_matches (Spinner.kcbAt_matches kid)).bind fun _ =>
    copyChunksToHost_matches drives _ _ _ _ _ 0

theorem perform_matches (platform : Platform) (files : Files) (call : ApiCall) :
    Matches (SameProgram relation) (perform platform accelerator files call)
      (perform platform other files call) := by
  cases call with
  | allocateKernel vxbin_path =>
      exact (onSpinner_matches (Spinner.allocateKernel_matches files vxbin_path)).bind fun _ =>
        matches_pure _
  | startKernel kid order =>
      exact (onSpinner_matches (Spinner.startKernel_matches drives platform order files kid)).bind
        fun _ => matches_pure _
  | waitKernel kid timeout =>
      exact ((onSpinner_matches (Spinner.kcbAt_matches kid)).bind fun _ => matches_pure _).bind
        fun _ => matches_pure _
  | freeKernel kid =>
      exact (onSpinner_matches (Spinner.freeKernel_matches kid)).bind fun _ => matches_pure _
  | allocateUploadBuffer kid size flags =>
      exact ((onSpinner_matches (Spinner.allocateHeap_matches kid size)).bind fun _ =>
        addBuffer_matches _).bind fun _ => matches_pure _
  | allocateDevBuffer kid size =>
      exact (onSpinner_matches (Spinner.allocateHeap_matches kid size)).bind fun _ => matches_pure _
  | setContent index data data_size =>
      exact (setContent_matches index data data_size).bind fun _ => matches_pure _
  | uploadArgs kid args size =>
      exact ((hostLoad_matches args size).bind fun content =>
        onSpinner_matches (Spinner.uploadArgs_matches drives kid content)).bind fun _ =>
          matches_pure _
  | upload kid index =>
      exact ((bufferAt_matches index).bind fun buf => (hostLoad_matches _ _).bind fun content =>
        onSpinner_matches (Spinner.copyHostToDev_matches drives kid _ content)).bind fun _ =>
          matches_pure _
  | download kid buf =>
      exact (download_matches drives kid buf).bind fun _ => matches_pure _
  | getCaps caps_id =>
      unfold perform
      rw [drives.caps]
      exact matches_pure _
  | store addr bytes => exact (hostStore_matches addr bytes).bind fun _ => matches_pure _

end Calls

end Program

section Simulators

/-- The memories are the same, and the processors have been told the same. -/
structure SameSimulator (simX : SimXDevice) (rtlSim : RtlSimDevice) : Prop where
  ram_ : simX.ram_ = rtlSim.ram_
  startup : ∀ register ≠ Dcr.satpBaseAddr0, simX.dcrs_ register = rtlSim.dcrs_ register
  satp : rtlSim.dcrs_ .satpBaseAddr0 = simX.satp_.map makeSatpSv32

theorem simulators_drive (platform : Platform) (caps : Caps → Option Nat) :
    HostAccelerator.Drives SameSimulator (simXAccelerator platform caps)
      (rtlSimAccelerator platform caps) where
  caps := rfl
  uploads {simX rtlSim} same addr bytes := by
    simp only [simXAccelerator, rtlSimAccelerator, same.ram_]
    exact ⟨rfl, same.startup, same.satp⟩
  downloads {simX rtlSim} same dest addr := by
    simp only [simXAccelerator, rtlSimAccelerator, same.ram_]
    exact ⟨trivial, same⟩
  starts {simX rtlSim} same krnl_addr args_addr top_pgtbl_pa := by
    have written : Function.update (startupRegisters krnl_addr args_addr rtlSim.dcrs_)
        Dcr.satpBaseAddr0 (some (makeSatpSv32 top_pgtbl_pa)) Dcr.satpBaseAddr0 =
          some (makeSatpSv32 top_pgtbl_pa) := Function.update_self _ _ _
    refine ⟨same.ram_, fun register other => ?_, written⟩
    change startupRegisters krnl_addr args_addr simX.dcrs_ register = Function.update
      (startupRegisters krnl_addr args_addr rtlSim.dcrs_) .satpBaseAddr0 _ register
    rw [Function.update_of_ne other]
    cases register with
    | satpBaseAddr0 => exact absurd rfl other
    | startupAddr0 => rfl
    | startupAddr1 => rfl
    | startupArg0 => rfl
    | startupArg1 => rfl

def Simulator.fresh (ram : Memory) : (simulator : Simulator) → simulator.Device
  | .simX => SimXDevice.mk ram (fun _ => none) none
  | .rtlSim => RtlSimDevice.mk ram fun _ => none

def programRun (platform : Platform) (caps : Caps → Option Nat) (files : Files) (ram host : Memory)
    (calls : List ApiCall) (simulator : Simulator) :
    List (Except Fault Answer) × Program simulator.Device :=
  converse (Program.perform platform (simulator.accelerator platform caps) files) calls
    (.new platform (simulator.accelerator platform caps) (simulator.fresh ram) host)

/-- A program that asks for a backend by its number: what its calls return, and the memory of the
host after them. -/
def runOn (platform : Platform) (caps : Caps → Option Nat) (files : Files) (ram host : Memory)
    (calls : List ApiCall) (backend_type : Int) :
    Except String (List (Except Fault Answer) × Memory) := do
  let simulator ← backendOf backend_type
  let (answers, last) := programRun platform caps files ram host calls simulator
  pure (answers, last.host)

theorem programRun_same (platform : Platform) (caps : Caps → Option Nat) (files : Files)
    (ram host : Memory) (calls : List ApiCall) :
    (programRun platform caps files ram host calls .simX).1 =
        (programRun platform caps files ram host calls .rtlSim).1 ∧
      Program.SameProgram SameSimulator (programRun platform caps files ram host calls .simX).2
        (programRun platform caps files ram host calls .rtlSim).2 :=
  converse_matches (Program.perform_matches (simulators_drive platform caps) platform files) calls
    ⟨⟨rfl, rfl, rfl, fun _ _ => rfl, rfl⟩, rfl, rfl⟩

/-- No program can tell the backends apart: whatever it calls, and whatever it does to its own
memory in between, it gets the same answers and the same bytes from both; every other backend is
refused. The devices have the same memory, control blocks and tables, their last start has set the
same startup registers, and the page table that the one processor is given is the one that the other
reads out of its register. -/
theorem backends_agree (platform : Platform) (caps : Caps → Option Nat) (files : Files)
    (ram host : Memory) (calls : List ApiCall) :
    runOn platform caps files ram host calls Backend.SIMX =
        runOn platform caps files ram host calls Backend.VERILATOR ∧
      (∀ backend_type, backend_type ≠ Backend.SIMX → backend_type ≠ Backend.VERILATOR →
        runOn platform caps files ram host calls backend_type = .error "Unknown backend type") ∧
      let simX : Spinner SimXDevice :=
        (programRun platform caps files ram host calls .simX).2.spinner_
      let rtlSim : Spinner RtlSimDevice :=
        (programRun platform caps files ram host calls .rtlSim).2.spinner_
      simX.kcbs_ = rtlSim.kcbs_ ∧ simX.aspace_ = rtlSim.aspace_ ∧
        simX.device.ram_ = rtlSim.device.ram_ ∧
        (∀ register ≠ Dcr.satpBaseAddr0,
          simX.device.dcrs_ register = rtlSim.device.dcrs_ register) ∧
        (rtlSim.device.dcrs_ .satpBaseAddr0).map fromSatpSv32 =
          simX.device.satp_.map fun top_pgtbl_pa => wrap32 top_pgtbl_pa / 4096 * 4096 := by
  obtain ⟨answers, same⟩ := programRun_same platform caps files ram host calls
  have ran : ∀ backend_type simulator, backendOf backend_type = .ok simulator →
      runOn platform caps files ram host calls backend_type =
        .ok ((programRun platform caps files ram host calls simulator).1,
          (programRun platform caps files ram host calls simulator).2.host) := by
    intro backend_type simulator chosen
    rw [runOn, chosen]
    rfl
  refine ⟨?_, ?_, same.spinner_.kcbs_, same.spinner_.aspace_, same.spinner_.device.ram_,
    same.spinner_.device.startup, ?_⟩
  · rw [ran Backend.SIMX .simX rfl, ran Backend.VERILATOR .rtlSim rfl, answers, same.host]
  · intro backend_type notSimX notVerilator
    rw [runOn, backendOf, if_neg notSimX, if_neg notVerilator]
    rfl
  · have decoded : fromSatpSv32 ∘ makeSatpSv32 =
        fun top_pgtbl_pa => wrap32 top_pgtbl_pa / 4096 * 4096 := funext fromSatpSv32_makeSatpSv32
    rw [same.spinner_.device.satp, Option.map_map, decoded]

end Simulators

end Espiral
