import Mathlib.Data.Nat.Bitwise
import Espiral.Common
import Espiral.Library.MachineWords

/-!
# Page-table entries

The entry and address fields as the source computes them with shifts and
masks, and their reading as quotients and remainders.
-/

namespace Espiral

set_option autoImplicit false

open MachineWords

def makePte (pa flags : Nat) : Nat := ((pa >>> 12) <<< 10) ||| (flags &&& 0x3FF)

def ptePa (pte : Nat) : Nat := wrap32 (((pte >>> 10) &&& 0x3FFFFF) <<< 12)

def ptePpn (pte : Nat) : Nat := (pte >>> 10) &&& 0x3FFFFF

def pteValid (pte : Nat) : Bool := pte &&& PteFlags.V != 0

def pteReadable (pte : Nat) : Bool := pte &&& PteFlags.R != 0

def pteWritable (pte : Nat) : Bool := pte &&& PteFlags.W != 0

def pteIsLeaf (pte : Nat) : Bool := pte &&& (PteFlags.R ||| PteFlags.W ||| PteFlags.X) != 0

def vaVpn (va level : Nat) : Nat := (va >>> (12 + level * VPN_BITS)) &&& VPN_MASK

def vaPgoff (va : Nat) : Nat := va &&& 0xFFF

def frameOf (pa : Nat) : Nat := pa / 4096 * 4096

section Fields

variable {pa flags : Nat}

theorem frameOf_of_aligned (aligned : 4096 ∣ pa) : frameOf pa = pa := Nat.div_mul_cancel aligned

theorem makePte_eq (pa flags : Nat) : makePte pa flags = pa / 4096 * 1024 + flags % 1024 := by
  have low : flags &&& 0x3FF = flags % 1024 := Nat.and_two_pow_sub_one_eq_mod flags 10
  have small : flags % 1024 < 2 ^ 10 := Nat.mod_lt flags (by decide)
  rw [makePte, low, ← Nat.shiftLeft_add_eq_or_of_lt small, Nat.shiftLeft_eq,
    Nat.shiftRight_eq_div_pow]

theorem makePte_lt (bound : pa < 2 ^ 32) : makePte pa flags < 2 ^ 32 := by
  rw [makePte_eq]
  omega

theorem ptePpn_eq (pte : Nat) : ptePpn pte = pte / 1024 % 2 ^ 22 := by
  rw [ptePpn, Nat.shiftRight_eq_div_pow]
  exact Nat.and_two_pow_sub_one_eq_mod _ 22

theorem ptePa_eq (pte : Nat) : ptePa pte = pte / 1024 % 2 ^ 20 * 4096 := by
  have ppn : (pte >>> 10) &&& 0x3FFFFF = pte / 1024 % 2 ^ 22 := ptePpn_eq pte
  rw [ptePa, ppn, Nat.shiftLeft_eq, wrap32]
  omega

theorem ptePa_lt (pte : Nat) : ptePa pte + 4096 ≤ 2 ^ 32 := by
  rw [ptePa_eq]
  omega

theorem ptePa_aligned (pte : Nat) : 4096 ∣ ptePa pte := by
  rw [ptePa_eq]
  exact Nat.dvd_mul_left 4096 _

theorem ptePa_makePte (bound : pa < 2 ^ 32) : ptePa (makePte pa flags) = frameOf pa := by
  rw [ptePa_eq, makePte_eq, frameOf]
  omega

theorem makePte_and {mask : Nat} (small : mask < 1024) :
    makePte pa flags &&& mask = flags &&& mask := by
  have value : makePte pa flags % 2 ^ 10 = flags % 2 ^ 10 := by
    rw [makePte_eq]
    omega
  have cut : ∀ number : Nat, number &&& mask = number % 2 ^ 10 &&& mask := by
    intro number
    apply Nat.eq_of_testBit_eq
    intro bit
    rw [Nat.testBit_and, Nat.testBit_and, Nat.testBit_mod_two_pow]
    by_cases low : bit < 10
    · simp [low]
    · have clear : mask.testBit bit = false :=
        Nat.testBit_lt_two_pow (small.trans_le
          (Nat.pow_le_pow_right (by decide) (Nat.not_lt.mp low) : 2 ^ 10 ≤ 2 ^ bit))
      simp [clear]
  rw [cut (makePte pa flags), cut flags, value]

theorem pteValid_zero : pteValid 0 = false := rfl

theorem node_pte (pa : Nat) :
    pteValid (makePte pa PteFlags.V) = true ∧ pteIsLeaf (makePte pa PteFlags.V) = false := by
  constructor
  · rw [pteValid, makePte_and (by decide)]
    decide
  · rw [pteIsLeaf, makePte_and (by decide)]
    decide

/-- The flags that `map_addr_inner` adds to those of the caller. -/
def leafFlags (flags : Nat) : Nat := flags ||| PteFlags.V ||| PteFlags.A ||| PteFlags.D

theorem or_and_ne_zero {left right mask : Nat} (some : left &&& mask ≠ 0) :
    (left ||| right) &&& mask ≠ 0 := by
  intro none
  rw [Nat.and_or_distrib_right] at none
  exact some (Nat.or_eq_zero_iff.mp none).1

theorem leafFlags_and {mask : Nat} (some : flags &&& mask ≠ 0) : leafFlags flags &&& mask ≠ 0 :=
  or_and_ne_zero (or_and_ne_zero (or_and_ne_zero some))

/-- An entry that maps a page is valid, whatever the flags of the caller are. -/
theorem pteValid_leaf (pa flags : Nat) : pteValid (makePte pa (leafFlags flags)) = true := by
  have valid : leafFlags flags &&& PteFlags.V ≠ 0 := by
    apply or_and_ne_zero
    apply or_and_ne_zero
    intro none
    rw [Nat.and_or_distrib_right] at none
    exact absurd (Nat.or_eq_zero_iff.mp none).2 (by decide)
  rw [pteValid, makePte_and (by decide)]
  simpa using valid

theorem leaf_pte (pa : Nat) (readable : flags &&& PteFlags.R ≠ 0) :
    pteValid (makePte pa (leafFlags flags)) = true ∧
      pteReadable (makePte pa (leafFlags flags)) = true ∧
      pteIsLeaf (makePte pa (leafFlags flags)) = true := by
  have leaf : leafFlags flags &&& (PteFlags.R ||| PteFlags.W ||| PteFlags.X) ≠ 0 := by
    intro none
    rw [Nat.and_or_distrib_left, Nat.and_or_distrib_left] at none
    exact leafFlags_and readable (Nat.or_eq_zero_iff.mp (Nat.or_eq_zero_iff.mp none).1).1
  refine ⟨pteValid_leaf pa flags, ?_, ?_⟩
  · rw [pteReadable, makePte_and (by decide)]
    simpa using leafFlags_and readable
  · rw [pteIsLeaf, makePte_and (by decide)]
    simpa using leaf

theorem pteIsLeaf_of_readable {pte : Nat} (readable : pteReadable pte = true) :
    pteIsLeaf pte = true := by
  have some : pte &&& PteFlags.R ≠ 0 := by simpa [pteReadable] using readable
  have leaf : pte &&& (PteFlags.R ||| PteFlags.W ||| PteFlags.X) ≠ 0 := by
    intro none
    rw [Nat.and_or_distrib_left, Nat.and_or_distrib_left] at none
    exact some (Nat.or_eq_zero_iff.mp (Nat.or_eq_zero_iff.mp none).1).1
  simpa [pteIsLeaf] using leaf

end Fields

section Addresses

variable {va : Nat}

theorem vaVpn_zero (va : Nat) : vaVpn va 0 = va / 4096 % 1024 := by
  have mask : VPN_MASK = 2 ^ 10 - 1 := rfl
  rw [vaVpn, Nat.shiftRight_eq_div_pow, mask, Nat.and_two_pow_sub_one_eq_mod]
  rfl

theorem vaVpn_one (bound : va < 2 ^ 32) : vaVpn va 1 = va / 4096 / 1024 := by
  have mask : VPN_MASK = 2 ^ 10 - 1 := rfl
  have shift : 12 + 1 * VPN_BITS = 22 := rfl
  rw [vaVpn, Nat.shiftRight_eq_div_pow, mask, Nat.and_two_pow_sub_one_eq_mod, shift]
  omega

theorem entry_address {node index : Nat} (narrow : node + 4096 ≤ 2 ^ 32) (small : index < 1024) :
    wrap32 (node + index * PTE_SIZE) = node + index * 4 := by
  apply wrap32_of_lt
  change node + index * 4 < 2 ^ 32
  omega

theorem vaPgoff_eq (va : Nat) : vaPgoff va = va % 4096 := Nat.and_two_pow_sub_one_eq_mod va 12

theorem frame_or_pgoff {frame : Nat} (aligned : 4096 ∣ frame) (va : Nat) :
    frame ||| vaPgoff va = frame + va % 4096 := by
  rcases aligned with ⟨count, rfl⟩
  have small : va % 4096 < 2 ^ 12 := Nat.mod_lt va (by decide)
  have scaled : 4096 * count = count <<< 12 := by rw [Nat.shiftLeft_eq, Nat.mul_comm]
  rw [vaPgoff_eq, scaled, ← Nat.shiftLeft_add_eq_or_of_lt small]

end Addresses

end Espiral
