import Espiral.Accelerator.HostAccelerator
import Espiral.Common
import Espiral.Library.MachineWords

/-!
# Simulator backends

The two devices of the source. Their memory is a flat byte memory behind the
same bound check, which counts whole cache lines from the start of the
transfer. The processors are not part of the source; what `start` writes into
their registers is kept.
-/

namespace Espiral

set_option autoImplicit false

open ByteMemory MachineWords

inductive Dcr where
  | startupAddr0
  | startupAddr1
  | startupArg0
  | startupArg1
  | satpBaseAddr0
  deriving DecidableEq, Repr

structure SimXDevice where
  ram_ : Memory
  dcrs_ : Dcr → Option Nat
  satp_ : Option Nat

structure RtlSimDevice where
  ram_ : Memory
  dcrs_ : Dcr → Option Nat

/-- The bound check of every transfer, on the length rounded up to cache lines. -/
def transferFits (platform : Platform) (addr size : Nat) : Bool :=
  !decide (add64 addr (roundUp size platform.CACHE_BLOCK_SIZE) > platform.GLOBAL_MEM_SIZE)

def ramUpload (platform : Platform) (dest_addr : Nat) (src : List UInt8) (ram : Memory) :
    Int × Memory :=
  if transferFits platform dest_addr src.length then (0, store ram dest_addr src) else (-1, ram)

def ramDownload (platform : Platform) (dest : List UInt8) (src_addr : Nat) (ram : Memory) :
    Int × List UInt8 :=
  if transferFits platform src_addr dest.length then (0, load ram src_addr dest.length)
  else (-1, dest)

def startupRegisters (krnl_addr args_addr : Nat) (dcrs : Dcr → Option Nat) : Dcr → Option Nat
  | .startupAddr0 => some (krnl_addr % 2 ^ 32)
  | .startupAddr1 => some (krnl_addr >>> 32)
  | .startupArg0 => some (args_addr % 2 ^ 32)
  | .startupArg1 => some (args_addr >>> 32)
  | register => dcrs register

def makeSatpSv32 (pgtbl_pa : Nat) : Nat := (1 <<< 31) ||| ((pgtbl_pa >>> 12) &&& 0x3FFFFF)

def simXAccelerator (platform : Platform) (caps : Caps → Option Nat) :
    HostAccelerator SimXDevice where
  getCaps := caps
  upload dest_addr src self :=
    let (code, ram) := ramUpload platform dest_addr src self.ram_
    (code, { self with ram_ := ram })
  download dest src_addr self :=
    let (code, bytes) := ramDownload platform dest src_addr self.ram_
    (code, bytes, self)
  start krnl_addr args_addr top_pgtbl_pa self :=
    (0, { self with
      dcrs_ := startupRegisters krnl_addr args_addr self.dcrs_
      satp_ := some top_pgtbl_pa })

def rtlSimAccelerator (platform : Platform) (caps : Caps → Option Nat) :
    HostAccelerator RtlSimDevice where
  getCaps := caps
  upload dest_addr src self :=
    let (code, ram) := ramUpload platform dest_addr src self.ram_
    (code, { self with ram_ := ram })
  download dest src_addr self :=
    let (code, bytes) := ramDownload platform dest src_addr self.ram_
    (code, bytes, self)
  start krnl_addr args_addr top_pgtbl_pa self :=
    (0, { self with
      dcrs_ := Function.update (startupRegisters krnl_addr args_addr self.dcrs_) .satpBaseAddr0
        (some (makeSatpSv32 top_pgtbl_pa)) })

theorem simXAccelerator_backed (platform : Platform) (caps : Caps → Option Nat) :
    (simXAccelerator platform caps).Backed SimXDevice.ram_ (transferFits platform) where
  uploads addr src device := by
    simp only [simXAccelerator, ramUpload]
    split
    · rfl
    · rfl
  downloads dest addr device := by
    simp only [simXAccelerator, ramDownload]
    split
    · rfl
    · rfl
  keeps _ _ _ := rfl

theorem rtlSimAccelerator_backed (platform : Platform) (caps : Caps → Option Nat) :
    (rtlSimAccelerator platform caps).Backed RtlSimDevice.ram_ (transferFits platform) where
  uploads addr src device := by
    simp only [rtlSimAccelerator, ramUpload]
    split
    · rfl
    · rfl
  downloads dest addr device := by
    simp only [rtlSimAccelerator, ramDownload]
    split
    · rfl
    · rfl
  keeps _ _ _ := rfl

inductive Simulator where
  | simX
  | rtlSim
  deriving DecidableEq, Repr

namespace Simulator

def Device : Simulator → Type
  | simX => SimXDevice
  | rtlSim => RtlSimDevice

def accelerator (platform : Platform) (caps : Caps → Option Nat) :
    (simulator : Simulator) → HostAccelerator simulator.Device
  | simX => simXAccelerator platform caps
  | rtlSim => rtlSimAccelerator platform caps

def ram : (simulator : Simulator) → simulator.Device → Memory
  | simX => SimXDevice.ram_
  | rtlSim => RtlSimDevice.ram_

theorem accelerator_backed (platform : Platform) (caps : Caps → Option Nat)
    (simulator : Simulator) :
    (simulator.accelerator platform caps).Backed simulator.ram (transferFits platform) := by
  cases simulator with
  | simX => exact simXAccelerator_backed platform caps
  | rtlSim => exact rtlSimAccelerator_backed platform caps

end Simulator

end Espiral
