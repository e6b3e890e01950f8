import Espiral.Library.ByteMemory

/-!
# Accelerators

What the host uses of a device. A call gives a return code; a download gets the
bytes of its destination and returns what they are afterwards.
-/

namespace Espiral

set_option autoImplicit false

open ByteMemory

/-- The capabilities the host asks for; the number of cores only in a comment. -/
inductive Caps where
  | numCores
  | numThreads
  | numWarps
  | localMemSize
  deriving DecidableEq, Repr

structure HostAccelerator (Device : Type) where
  getCaps : Caps → Option Nat
  upload : (dest_addr : Nat) → (src : List UInt8) → Device → Int × Device
  download : (dest : List UInt8) → (src_addr : Nat) → Device → Int × List UInt8 × Device
  start : (krnl_addr args_addr top_pgtbl_pa : Nat) → Device → Int × Device

/-- The transfers of an accelerator are loads and stores of a flat memory, except for those
that are not accepted, which do nothing. -/
structure HostAccelerator.Backed {Device : Type} (accelerator : HostAccelerator Device)
    (ram : Device → Memory) (accepts : Nat → Nat → Bool) : Prop where
  uploads : ∀ addr src device, ram (accelerator.upload addr src device).2 =
    if accepts addr src.length then store (ram device) addr src else ram device
  downloads : ∀ dest addr device, (accelerator.download dest addr device).2.1 =
    if accepts addr dest.length then load (ram device) addr dest.length else dest
  keeps : ∀ dest addr device, ram (accelerator.download dest addr device).2.2 = ram device

structure Launch where
  krnl_addr : Nat
  args_addr : Nat
  top_pgtbl_pa : Nat
  memory : Memory

structure FlatDevice where
  memory : Memory
  launches : List Launch

/-- The flat device; its memory changes through uploads only. -/
def flatAccelerator (caps : Caps → Option Nat) : HostAccelerator FlatDevice where
  getCaps := caps
  upload dest_addr src device :=
    (0, { device with memory := store device.memory dest_addr src })
  download dest src_addr device := (0, load device.memory src_addr dest.length, device)
  start krnl_addr args_addr top_pgtbl_pa device :=
    (0, { device with
      launches := ⟨krnl_addr, args_addr, top_pgtbl_pa, device.memory⟩ :: device.launches })

theorem flatAccelerator_backed (caps : Caps → Option Nat) :
    (flatAccelerator caps).Backed FlatDevice.memory fun _ _ => true where
  uploads _ _ _ := rfl
  downloads _ _ _ := rfl
  keeps _ _ _ := rfl

end Espiral
