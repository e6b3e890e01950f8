import Espiral.Accelerator.Backends
import Espiral.Spinner.Spinner

/-!
# The interface of the runtime

What a program on the host has in hands: a runtime on one of the two backends,
and buffers. An upload buffer points to data in the memory of the host, which is
read when the buffer is uploaded, not when its content is set.
-/

namespace Espiral

set_option autoImplicit false

open ByteMemory MachineWords

/-- A buffer on the device and the data for it, which is never more than the buffer holds. -/
structure UploadBuffer where
  va_ : Nat
  device_max_size_ : Nat
  flags_ : Nat
  host_ptr_ : Nat
  size_ : Nat
  fits : size_ ≤ device_max_size_

namespace UploadBuffer

def new (va max_size flags : Nat) : UploadBuffer where
  va_ := va
  device_max_size_ := max_size
  flags_ := flags
  host_ptr_ := 0
  size_ := 0
  fits := Nat.zero_le max_size

def getVa (self : UploadBuffer) : Nat := self.va_

def setContent (data data_size : Nat) (self : UploadBuffer) : Except Fault UploadBuffer :=
  if exceeds : data_size > self.device_max_size_ then
    .error (.runtimeError "Data size exceeds buffer capacity")
  else .ok { self with
    host_ptr_ := data
    size_ := data_size
    fits := Nat.le_of_not_lt exceeds }

end UploadBuffer

structure DownloadBuffer where
  va : Nat
  read_size : Nat
  host_ptr : Nat
  deriving DecidableEq, Repr

namespace Backend

def SIMX : Int := 0
def VERILATOR : Int := 1

end Backend

/-- The switch of the constructor; any other number is an invalid argument. -/
def backendOf (backend_type : Int) : Except String Simulator :=
  if backend_type = Backend.SIMX then .ok .simX
  else if backend_type = Backend.VERILATOR then .ok .rtlSim
  else .error "Unknown backend type"

/-- The state of a program: the spinner of its runtime, the memory of the host, and the upload
buffers it has been given, in their order. -/
structure Program (Device : Type) where
  spinner_ : Spinner Device
  host : Memory
  buffers : List UploadBuffer

inductive Answer where
  | done
  | kernel (kid : Nat)
  | buffer (index : Nat)
  | address (va : Nat)
  | caps (value : Option Nat)
  deriving DecidableEq, Repr

/-- The calls of a program. Upload buffers go by their index; `store` is what the program does to
its own memory. -/
inductive ApiCall where
  | allocateKernel (vxbin_path : String)
  | startKernel (kid : Nat) (order : SparseScratchpad → SparseScratchpad)
  | waitKernel (kid timeout : Nat)
  | freeKernel (kid : Nat)
  | allocateUploadBuffer (kid size flags : Nat)
  | allocateDevBuffer (kid size : Nat)
  | setContent (index data data_size : Nat)
  | uploadArgs (kid args size : Nat)
  | upload (kid index : Nat)
  | download (kid : Nat) (buffer : DownloadBuffer)
  | getCaps (caps_id : Caps)
  | store (addr : Nat) (bytes : List UInt8)

namespace Program

variable {Device : Type}

section Parts

def onSpinner {Value : Type} (action : Action (Spinner Device) Value) :
    Action (Program Device) Value := fun self =>
  match action self.spinner_ with
  | .ok value spinner => .ok value { self with spinner_ := spinner }
  | .error fault spinner => .error fault { self with spinner_ := spinner }

def hostLoad (addr size : Nat) : Action (Program Device) (List UInt8) := fun self =>
  .ok (load self.host addr size) self

def hostStore (addr : Nat) (bytes : List UInt8) : Action (Program Device) Unit := fun self =>
  .ok () { self with host := ByteMemory.store self.host addr bytes }

/-- A buffer that was never handed out is nothing a program can name. -/
def bufferAt (index : Nat) : Action (Program Device) UploadBuffer := fun self =>
  match self.buffers[index]? with
  | some buffer => .ok buffer self
  | none => .error .undefinedBehaviour self

def addBuffer (buffer : UploadBuffer) : Action (Program Device) Nat := fun self =>
  .ok self.buffers.length { self with buffers := self.buffers ++ [buffer] }

def setBuffer (index : Nat) (buffer : UploadBuffer) : Action (Program Device) Unit := fun self =>
  .ok () { self with buffers := self.buffers.set index buffer }

end Parts

section Transfers

/-- The loop of `copy_dev_to_host_` on the memory of the host: chunks that have been copied stay
there when the translation of a later one throws. -/
def copyChunksToHost (accelerator : HostAccelerator Device) (top_pgtbl_pa host_ptr size : Nat) :
    Nat → Nat → Nat → Action (Program Device) Unit
  | 0, _, _ => throw .nonTermination
  | fuel + 1, va, offset =>
      if offset < size then do
        let page_off := va &&& (PAGE_SIZE - 1)
        let chunk_size := min (PAGE_SIZE - page_off) (size - offset)
        let found ← onSpinner
          (Spinner.onAddressSpace (AddressSpaceManager.translate va top_pgtbl_pa))
        let pa ← onSpinner (Spinner.valueOf found)
        let dest ← hostLoad (host_ptr + offset) chunk_size
        let chunk ← onSpinner (Spinner.accelDownload accelerator dest pa)
        hostStore (host_ptr + offset) chunk
        copyChunksToHost accelerator top_pgtbl_pa host_ptr size fuel (wrap32 (va + chunk_size))
          (offset + chunk_size)
      else pure ()

def copyDevToHost (accelerator : HostAccelerator Device) (kid va host_ptr size : Nat) :
    Action (Program Device) Unit := do
  let kcb ← onSpinner (Spinner.kcbAt kid)
  copyChunksToHost accelerator kcb.top_pgtbl_pa host_ptr size (size + 1) va 0

end Transfers

section Calls

def allocateUploadBuffer (kid size flags : Nat) : Action (Program Device) Nat := do
  let va ← onSpinner (Spinner.allocateHeap kid size)
  addBuffer (.new va (wrap32 size) flags)

def setContent (index data data_size : Nat) : Action (Program Device) Unit := do
  let buffer ← bufferAt index
  match buffer.setContent data data_size with
  | .ok filled => setBuffer index filled
  | .error fault => throw fault

def uploadArgs (accelerator : HostAccelerator Device) (kid args size : Nat) :
    Action (Program Device) Unit := do
  let content ← hostLoad args size
  onSpinner (Spinner.uploadArgs accelerator kid content)

def upload (accelerator : HostAccelerator Device) (kid index : Nat) :
    Action (Program Device) Unit := do
  let buf ← bufferAt index
  let content ← hostLoad buf.host_ptr_ buf.size_
  onSpinner (Spinner.upload accelerator kid buf.va_ content)

def download (accelerator : HostAccelerator Device) (kid : Nat) (buf : DownloadBuffer) :
    Action (Program Device) Unit :=
  copyDevToHost accelerator kid (wrap32 buf.va) buf.host_ptr buf.read_size

/-- The code that the wait returns is not looked at. -/
def waitKernel (kid : Nat) : Action (Program Device) Unit := do
  let _ ← onSpinner (Spinner.kcbAt kid)
  pure ()

def perform (platform : Platform) (accelerator : HostAccelerator Device) (files : Files) :
    ApiCall → Action (Program Device) Answer
  | .allocateKernel vxbin_path => do
      let kid ← onSpinner (Spinner.allocateKernel files vxbin_path)
      pure (.kernel kid)
  | .startKernel kid order => do
      onSpinner (Spinner.startKernel platform accelerator order files kid)
      pure .done
  | .waitKernel kid _ => do
      waitKernel kid
      pure .done
  | .freeKernel kid => do
      onSpinner (Spinner.freeKernel kid)
      pure .done
  | .allocateUploadBuffer kid size flags => do
      let index ← allocateUploadBuffer kid size flags
      pure (.buffer index)
  | .allocateDevBuffer kid size => do
      let va ← onSpinner (Spinner.allocateHeap kid size)
      pure (.address va)
  | .setContent index data data_size => do
      setContent index data data_size
      pure .done
  | .uploadArgs kid args size => do
      uploadArgs accelerator kid args size
      pure .done
  | .upload kid index => do
      upload accelerator kid index
      pure .done
  | .download kid buffer => do
      download accelerator kid buffer
      pure .done
  | .getCaps caps_id => pure (.caps (accelerator.getCaps caps_id))
  | .store addr bytes => do
      hostStore addr bytes
      pure .done

end Calls

def new (platform : Platform) (accelerator : HostAccelerator Device) (device : Device)
    (host : Memory) : Program Device where
  spinner_ := .new platform accelerator device
  host := host
  buffers := []

end Program

end Espiral
