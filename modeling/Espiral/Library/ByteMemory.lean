import Mathlib.Data.Nat.Basic
import Mathlib.Data.UInt

/-!
# Flat byte memories

A memory gives every address a byte. Loads and stores are of byte lists, and
words are their little-endian reading. The rules say what a load sees of a
store: the stored bytes, or what was there before when the two ranges are apart.
-/

namespace ByteMemory

set_option autoImplicit false

abbrev Memory := Nat → UInt8

def littleEndian : Nat → Nat → List UInt8
  | 0, _ => []
  | width + 1, value => UInt8.ofNat (value % 256) :: littleEndian width (value / 256)

def ofLittleEndian : List UInt8 → Nat
  | [] => 0
  | byte :: rest => byte.toNat + 256 * ofLittleEndian rest

@[simp] theorem littleEndian_length (width value : Nat) :
    (littleEndian width value).length = width := by
  induction width generalizing value with
  | zero => rfl
  | succ width ih => rw [littleEndian, List.length_cons, ih]

theorem ofLittleEndian_littleEndian {width value : Nat} (fits : value < 256 ^ width) :
    ofLittleEndian (littleEndian width value) = value := by
  induction width generalizing value with
  | zero =>
      have zero : value = 0 := by simpa using fits
      rw [zero]
      rfl
  | succ width ih =>
      have rest : value / 256 < 256 ^ width :=
        Nat.div_lt_of_lt_mul (by rw [← Nat.pow_succ']; exact fits)
      have low : (UInt8.ofNat (value % 256)).toNat = value % 256 := by
        rw [UInt8.toNat_ofNat']
        exact Nat.mod_eq_of_lt (Nat.mod_lt value (by decide))
      rw [littleEndian, ofLittleEndian, ih rest, low]
      exact Nat.mod_add_div value 256

theorem ofLittleEndian_zeros (width : Nat) : ofLittleEndian (List.replicate width 0) = 0 := by
  induction width with
  | zero => rfl
  | succ width ih => simp [List.replicate_succ, ofLittleEndian, ih]

def load (memory : Memory) : Nat → Nat → List UInt8
  | _, 0 => []
  | addr, size + 1 => memory addr :: load memory (addr + 1) size

def store (memory : Memory) : Nat → List UInt8 → Memory
  | _, [] => memory
  | addr, byte :: rest => store (Function.update memory addr byte) (addr + 1) rest

def loadWord (memory : Memory) (addr width : Nat) : Nat := ofLittleEndian (load memory addr width)

section Loads

variable {memory other : Memory} {addr size : Nat}

@[simp] theorem load_length (memory : Memory) (addr size : Nat) :
    (load memory addr size).length = size := by
  induction size generalizing addr with
  | zero => rfl
  | succ size ih => rw [load, List.length_cons, ih]

theorem load_congr (same : ∀ position, addr ≤ position → position < addr + size →
    other position = memory position) : load other addr size = load memory addr size := by
  induction size generalizing addr with
  | zero => rfl
  | succ size ih =>
      rw [load, load, same addr (Nat.le_refl _) (by omega),
        ih fun position low high => same position (by omega) (by omega)]

theorem load_append (memory : Memory) (addr first second : Nat) :
    load memory addr (first + second) =
      load memory addr first ++ load memory (addr + first) second := by
  induction first generalizing addr with
  | zero => simp [load]
  | succ first ih =>
      rw [Nat.succ_add, load, load, ih, List.cons_append, Nat.add_right_comm, Nat.add_assoc]

theorem load_slice (memory : Memory) (addr : Nat) {size start width : Nat}
    (inside : start + width ≤ size) :
    ((load memory addr size).drop start).take width = load memory (addr + start) width := by
  have split : size = start + (width + (size - start - width)) := by omega
  rw [split, load_append, load_append]
  rw [List.drop_left' (load_length memory addr start)]
  exact List.take_left' (load_length memory (addr + start) width)

theorem load_getElem? (memory : Memory) (addr : Nat) {size index : Nat} (inside : index < size) :
    (load memory addr size)[index]? = some (memory (addr + index)) := by
  induction size generalizing addr index with
  | zero => omega
  | succ size ih =>
      cases index with
      | zero => rfl
      | succ index =>
          rw [load, List.getElem?_cons_succ, ih (addr + 1) (by omega)]
          congr 2
          omega

end Loads

section Stores

variable {memory : Memory} {addr : Nat} {bytes : List UInt8}

theorem store_outside {position : Nat}
    (outside : position < addr ∨ addr + bytes.length ≤ position) :
    store memory addr bytes position = memory position := by
  induction bytes generalizing memory addr with
  | nil => rfl
  | cons byte rest ih =>
      simp only [List.length_cons] at outside
      rw [store, ih (by omega), Function.update_of_ne (by omega)]

theorem load_store_same (memory : Memory) (addr : Nat) (bytes : List UInt8) :
    load (store memory addr bytes) addr bytes.length = bytes := by
  induction bytes generalizing memory addr with
  | nil => rfl
  | cons byte rest ih =>
      rw [List.length_cons, load, store, ih,
        store_outside (Or.inl (Nat.lt_succ_self addr)), Function.update_self]

theorem load_store_apart {start size : Nat}
    (apart : start + size ≤ addr ∨ addr + bytes.length ≤ start) :
    load (store memory addr bytes) start size = load memory start size := by
  apply load_congr
  intro position low high
  exact store_outside (by omega)

theorem store_inside {index : Nat} (inside : index < bytes.length) :
    store memory addr bytes (addr + index) = bytes[index] := by
  have found := load_getElem? (store memory addr bytes) addr inside
  rw [load_store_same, List.getElem?_eq_getElem inside] at found
  exact (Option.some.inj found).symm

theorem store_load (memory : Memory) (addr size : Nat) :
    store memory addr (load memory addr size) = memory := by
  induction size generalizing addr with
  | zero => rfl
  | succ size ih =>
      rw [load, store, Function.update_eq_self]
      exact ih (addr + 1)

/-- A load sees a store within its range as a replaced slice. -/
theorem load_store_within {offset size : Nat} (inside : offset + bytes.length ≤ size) :
    load (store memory (addr + offset) bytes) addr size =
      (load memory addr size).take offset ++ bytes ++
        (load memory addr size).drop (offset + bytes.length) := by
  obtain ⟨rest, total⟩ := Nat.exists_eq_add_of_le inside
  have front : (load memory addr size).take offset = load memory addr offset := by
    rw [total, Nat.add_assoc, load_append]
    exact List.take_left' (load_length memory addr offset)
  have back : (load memory addr size).drop (offset + bytes.length) =
      load memory (addr + (offset + bytes.length)) rest := by
    rw [total, load_append]
    exact List.drop_left' (load_length memory addr (offset + bytes.length))
  rw [front, back, total, load_append, load_append, load_store_same,
    load_store_apart (Or.inl (Nat.le_refl _)), load_store_apart (Or.inr (by omega))]

/-- What is stored over all of an earlier store hides it. -/
theorem store_store_within {offset : Nat} {whole : List UInt8}
    (inside : offset + bytes.length ≤ whole.length) :
    store (store memory (addr + offset) bytes) addr whole = store memory addr whole := by
  funext position
  by_cases outside : position < addr ∨ addr + whole.length ≤ position
  · rw [store_outside outside, store_outside outside, store_outside (by omega)]
  · obtain ⟨index, rfl⟩ := Nat.exists_eq_add_of_le (Nat.le_of_not_lt (not_or.mp outside).1)
    have within : index < whole.length := by omega
    rw [store_inside within, store_inside within]

theorem loadWord_store_apart {start width : Nat}
    (apart : start + width ≤ addr ∨ addr + bytes.length ≤ start) :
    loadWord (store memory addr bytes) start width = loadWord memory start width := by
  rw [loadWord, loadWord, load_store_apart apart]

theorem loadWord_store_same {width value : Nat} (fits : value < 256 ^ width) :
    loadWord (store memory addr (littleEndian width value)) addr width = value := by
  have stored := load_store_same memory addr (littleEndian width value)
  rw [littleEndian_length] at stored
  rw [loadWord, stored, ofLittleEndian_littleEndian fits]

theorem loadWord_store_zeros {start width size : Nat} (low : addr ≤ start)
    (high : start + width ≤ addr + size) :
    loadWord (store memory addr (List.replicate size 0)) start width = 0 := by
  have zeros : load (store memory addr (List.replicate size 0)) start width =
      List.replicate width 0 := by
    apply List.ext_getElem?
    intro index
    by_cases inside : index < width
    · have within : start - addr + index < (List.replicate size (0 : UInt8)).length := by
        rw [List.length_replicate]
        omega
      have byte := @store_inside memory addr _ _ within
      rw [load_getElem? _ _ inside, List.getElem?_replicate, if_pos inside,
        show start + index = addr + (start - addr + index) by omega, byte, List.getElem_replicate]
    · rw [List.getElem?_eq_none (by rw [load_length]; omega),
        List.getElem?_eq_none (by rw [List.length_replicate]; omega)]
  rw [loadWord, zeros, ofLittleEndian_zeros]

end Stores

def storeAll (memory : Memory) (writes : List (Nat × List UInt8)) : Memory :=
  writes.foldl (fun memory write => store memory write.1 write.2) memory

section Sequences

variable {memory : Memory} {writes : List (Nat × List UInt8)} {addr : Nat}

theorem storeAll_cons (write : Nat × List UInt8) :
    storeAll memory (write :: writes) = storeAll (store memory write.1 write.2) writes := rfl

theorem storeAll_outside
    (outside : ∀ write ∈ writes, addr < write.1 ∨ write.1 + write.2.length ≤ addr) :
    storeAll memory writes addr = memory addr := by
  induction writes generalizing memory with
  | nil => rfl
  | cons write rest ih =>
      rw [storeAll_cons, ih fun other member => outside other (by simp [member])]
      exact store_outside (outside write (by simp))

theorem storeAll_byte (memory : Memory) (writes : List (Nat × List UInt8)) (addr : Nat) :
    (∃ write ∈ writes, ∃ index, ∃ inside : index < write.2.length,
        write.1 + index = addr ∧ storeAll memory writes addr = write.2[index]) ∨
      ((∀ write ∈ writes, addr < write.1 ∨ write.1 + write.2.length ≤ addr) ∧
        storeAll memory writes addr = memory addr) := by
  induction writes generalizing memory with
  | nil => exact Or.inr ⟨fun _ member => by simp at member, rfl⟩
  | cons write rest ih =>
      rcases ih (store memory write.1 write.2) with ⟨other, member, hit⟩ | ⟨missed, kept⟩
      · exact Or.inl ⟨other, by simp [member], hit⟩
      · by_cases outside : addr < write.1 ∨ write.1 + write.2.length ≤ addr
        · right
          constructor
          · intro other member
            cases List.mem_cons.mp member with
            | inl same =>
                rw [same]
                exact outside
            | inr later => exact missed other later
          · rw [storeAll_cons, kept, store_outside outside]
        · left
          have inside : addr - write.1 < write.2.length := by omega
          refine ⟨write, by simp, addr - write.1, inside, by omega, ?_⟩
          have here := @store_inside memory write.1 write.2 (addr - write.1) inside
          rw [show write.1 + (addr - write.1) = addr by omega] at here
          rw [storeAll_cons, kept, here]

/-- Stores that copy ranges of another memory: what they cover is what it has there. -/
theorem storeAll_copies {source : Memory}
    (copies : ∀ write ∈ writes, write.2 = load source write.1 write.2.length)
    (covered : ∃ write ∈ writes, write.1 ≤ addr ∧ addr < write.1 + write.2.length) :
    storeAll memory writes addr = source addr := by
  cases storeAll_byte memory writes addr with
  | inl hit =>
      obtain ⟨write, member, index, inside, place, value⟩ := hit
      have copied := load_getElem? source write.1 inside
      rw [← copies write member, List.getElem?_eq_getElem inside, Option.some.injEq] at copied
      rw [value, copied, place]
  | inr missed =>
      obtain ⟨write, member, low, high⟩ := covered
      have outside := missed.1 write member
      omega

end Sequences

end ByteMemory
