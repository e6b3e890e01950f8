import Espiral.Library.Contracts
import Espiral.Mm.PageMaps

/-!
# Walks of a page table

`walk` is the SV32 walk with the entry rules of `page_table_walk`, over any
flat memory. The address space manager walks the scratchpad; the device walks
its own memory. On a well-formed table the walk is the two-level lookup.
-/

namespace Espiral.AddressSpaceManager

set_option autoImplicit false

open ByteMemory Contracts MachineWords

def walk (memory : Memory) (va : Nat) : Nat → Nat → Except String Nat
  | 0, _ => .error "No leaf PTE found after walking all levels"
  | level + 1, current_pa =>
      let pte := loadWord memory (wrap32 (current_pa + vaVpn va level * PTE_SIZE)) PTE_SIZE
      if !pteValid pte then .error "Invalid PTE: valid bit not set"
      else if !pteReadable pte && pteWritable pte then .error "Invalid PTE: W set without R"
      else if pteIsLeaf pte then
        if !pteReadable pte then .error "Leaf PTE not readable"
        else if level > 0 then
          let ppn_low_mask := 1 <<< (level * VPN_BITS) - 1
          if ptePpn pte &&& ppn_low_mask ≠ 0 then .error "Misaligned superpage"
          else
            let offset_mask := 1 <<< (12 + level * VPN_BITS) - 1
            .ok ((ptePa pte &&& (2 ^ 32 - 1 - offset_mask)) ||| (va &&& offset_mask))
        else .ok (ptePa pte ||| vaPgoff va)
      else walk memory va level (ptePa pte)

/-- What a walk from the root of a table yields, page faults being no result. -/
def walkRoot (memory : Memory) (va root : Nat) : Option Nat := (walk memory va PT_LEVELS root).toOption

section Scratchpad

variable {state : AddressSpaceManager}

theorem readScratchpad_run {addr size : Nat} (inside : addr + size ≤ 2 ^ 32) :
    ∃ next, readScratchpad addr size state = .ok (load state.view addr size) next ∧
      SameView state next := by
  have read := @ScratchpadMemory.view_read state.scratchpad_ addr size inside
  refine ⟨{ state with scratchpad_ := (state.scratchpad_.read addr size).2 }, ?_,
    ⟨rfl, rfl, rfl, read.2⟩⟩
  rw [AddressSpaceManager.view, ← read.1]
  rfl

theorem readPte_run {addr : Nat} (inside : addr + 4 ≤ 2 ^ 32) :
    ∃ next, readPte addr state = .ok (loadWord state.view addr 4) next ∧ SameView state next := by
  rcases @readScratchpad_run state addr PTE_SIZE inside with ⟨next, ran, same⟩
  refine ⟨next, ?_, same⟩
  rw [readPte, bind_ok ran]
  rfl

theorem readEntry_run {node index : Nat} (narrow : node + 4096 ≤ 2 ^ 32) (small : index < 1024) :
    ∃ next, readPte (node + index * 4) state = .ok (entryAt state.view node index) next ∧
      SameView state next :=
  readPte_run (by omega)

theorem walkFrom_run (va : Nat) {level current_pa : Nat} (aligned : 4 ∣ current_pa) :
    ∃ next, SameView state next ∧ walkFrom va level current_pa state =
      match walk state.view va level current_pa with
      | .ok pa => .ok pa next
      | .error message => .error (.pageFault message) next := by
  induction level generalizing current_pa state with
  | zero => exact ⟨state, SameView.refl state, rfl⟩
  | succ level ih =>
      have inside : wrap32 (current_pa + vaVpn va level * PTE_SIZE) + 4 ≤ 2 ^ 32 := by
        have bound := wrap32_lt (current_pa + vaVpn va level * PTE_SIZE)
        have multiple : 4 ∣ wrap32 (current_pa + vaVpn va level * PTE_SIZE) := by
          unfold wrap32
          exact (Nat.dvd_mod_iff (by decide)).mpr
            (Nat.dvd_add aligned (Nat.dvd_mul_left PTE_SIZE _))
        omega
      rcases @readPte_run state _ inside with ⟨read, ran, same⟩
      rw [walkFrom, bind_ok ran, walk]
      rcases @ih read (ptePa (loadWord state.view (wrap32 (current_pa + vaVpn va level * PTE_SIZE))
        PTE_SIZE)) ((by decide : 4 ∣ 4096).trans (ptePa_aligned _)) with ⟨next, later, rest⟩
      rw [same.view] at rest
      generalize entry : loadWord state.view (wrap32 (current_pa + vaVpn va level * PTE_SIZE))
        PTE_SIZE = pte at rest
      have read : loadWord state.view (wrap32 (current_pa + vaVpn va level * PTE_SIZE)) 4 = pte :=
        entry
      simp only [read]
      split
      · exact ⟨_, same, rfl⟩
      · split
        · exact ⟨_, same, rfl⟩
        · split
          · split
            · exact ⟨_, same, rfl⟩
            · split
              · split
                · exact ⟨_, same, rfl⟩
                · exact ⟨_, same, rfl⟩
              · exact ⟨_, same, rfl⟩
          · exact ⟨next, same.trans later, rest⟩

theorem translate_run (va : Nat) {root : Nat} (aligned : 4 ∣ root) :
    ∃ next, translate va root state = .ok (walkRoot state.view va root) next ∧
      SameView state next := by
  rcases @walkFrom_run state va PT_LEVELS root aligned with ⟨next, same, ran⟩
  refine ⟨next, ?_, same⟩
  rw [translate, pageTableWalk, ran, walkRoot]
  cases walk state.view va PT_LEVELS root with
  | ok pa => rfl
  | error message => rfl

/-- A mapping is rejected after reading the entry again and translating the address. -/
theorem alreadyMapped_throws {node slot root : Nat} (narrow : node + 4096 ≤ 2 ^ 32)
    (small : slot < 1024) (aligned : 4096 ∣ root) (va : Nat) : ∃ next, SameView state next ∧
      (do
        let _ ← readPte (node + slot * 4)
        let _ ← translate va root
        throw (.runtimeError "Virtual address already mapped") :
          Action AddressSpaceManager Unit) state =
        .error (.runtimeError "Virtual address already mapped") next := by
  obtain ⟨read, ran, same⟩ := @readEntry_run state node slot narrow small
  obtain ⟨next, walked, kept⟩ :=
    @translate_run read va root ((by decide : 4 ∣ 4096).trans aligned)
  refine ⟨next, same.trans kept, ?_⟩
  rw [bind_ok ran, bind_ok walked]
  rfl

end Scratchpad

/-- The shape of a two-level table: valid entries of the root point to nodes,
valid entries of a node are readable leaves. -/
structure Shaped (memory : Memory) (root : Nat) : Prop where
  narrow : root + 4096 ≤ 2 ^ 32
  upper : ∀ index < 1024, pteValid (entryAt memory root index) = true →
    pteIsLeaf (entryAt memory root index) = false
  lower : ∀ index < 1024, ∀ slot < 1024, pteValid (entryAt memory root index) = true →
    pteValid (entryAt memory (ptePa (entryAt memory root index)) slot) = true →
    pteReadable (entryAt memory (ptePa (entryAt memory root index)) slot) = true

theorem pteFlags_of_not_leaf {pte : Nat} (notLeaf : pteIsLeaf pte = false) :
    pteReadable pte = false ∧ pteWritable pte = false := by
  have none : pte &&& (PteFlags.R ||| PteFlags.W ||| PteFlags.X) = 0 := by
    simpa [pteIsLeaf] using notLeaf
  rw [Nat.and_or_distrib_left, Nat.and_or_distrib_left] at none
  have parts := Nat.or_eq_zero_iff.mp (Nat.or_eq_zero_iff.mp none).1
  simp [pteReadable, pteWritable, parts.1, parts.2]

theorem walk_entry (memory : Memory) {node va level : Nat} (narrow : node + 4096 ≤ 2 ^ 32)
    (small : vaVpn va level < 1024) :
    loadWord memory (wrap32 (node + vaVpn va level * PTE_SIZE)) PTE_SIZE =
      entryAt memory node (vaVpn va level) := by
  rw [entry_address narrow small]
  rfl

theorem walkRoot_leafOf {memory : Memory} {root va : Nat} (shaped : Shaped memory root)
    (bound : va < 2 ^ 32) :
    walkRoot memory va root = (leafOf memory root (va / 4096)).map fun pte =>
      ptePa pte ||| vaPgoff va := by
  have upperIs := vaVpn_one bound
  have lowerIs := vaVpn_zero va
  have upperSmall : vaVpn va 1 < 1024 := by omega
  have lowerSmall : vaVpn va 0 < 1024 := by omega
  rw [walkRoot, PT_LEVELS, walk, walk_entry memory shaped.narrow upperSmall, leafOf]
  simp only [← upperIs, ← lowerIs]
  by_cases upper : pteValid (entryAt memory root (vaVpn va 1)) = true
  · have notLeaf := shaped.upper _ upperSmall upper
    have clear := pteFlags_of_not_leaf notLeaf
    simp only [upper, notLeaf, clear.1, clear.2, Bool.not_true, Bool.and_false,
      Bool.false_eq_true, if_false, if_true, walk]
    rw [walk_entry memory (ptePa_lt _) lowerSmall]
    by_cases lower : pteValid (entryAt memory (ptePa (entryAt memory root (vaVpn va 1)))
        (vaVpn va 0)) = true
    · have readable := shaped.lower _ upperSmall _ lowerSmall upper lower
      simp [lower, readable, pteIsLeaf_of_readable readable, Except.toOption]
    · simp [lower, Except.toOption]
  · simp [upper, Except.toOption]

/-- A root whose first entry is used does not start with a zero byte. -/
theorem walkRoot_first {memory : Memory} {root va pa : Nat} (small : va < 0x400000)
    (narrow : root < 2 ^ 32) (found : walkRoot memory va root = some pa) : memory root ≠ 0 := by
  intro zero
  have upper : vaVpn va 1 = 0 := by
    have upperIs := vaVpn_one (by omega : va < 2 ^ 32)
    omega
  have even : pteValid (loadWord memory root 4) = false := by
    have word : loadWord memory root 4 % 2 = 0 := by
      rw [loadWord, load, ofLittleEndian, zero]
      have nothing : (0 : UInt8).toNat = 0 := rfl
      omega
    have flag : PteFlags.V = 1 := rfl
    rw [pteValid, flag, Nat.and_one_is_mod, word]
    rfl
  have start : wrap32 (root + vaVpn va 1 * PTE_SIZE) = root := by
    rw [upper, Nat.zero_mul, Nat.add_zero, wrap32_of_lt narrow]
  have size : PTE_SIZE = 4 := rfl
  rw [walkRoot, PT_LEVELS, walk, start, size, even] at found
  cases found

theorem leafOf_congr {first second : Memory} {root : Nat}
    (same : ∀ index < 1024, entryAt second root index = entryAt first root index)
    (below : ∀ index < 1024, pteValid (entryAt first root index) = true → ∀ slot < 1024,
      entryAt second (ptePa (entryAt first root index)) slot =
        entryAt first (ptePa (entryAt first root index)) slot)
    {page : Nat} (bound : page < 2 ^ 20) : leafOf second root page = leafOf first root page := by
  have upperSmall : page / 1024 < 1024 := by omega
  have lowerSmall : page % 1024 < 1024 := Nat.mod_lt page (by decide)
  exact leafOf_kept (same _ upperSmall) fun valid => below _ upperSmall valid _ lowerSmall

end Espiral.AddressSpaceManager
