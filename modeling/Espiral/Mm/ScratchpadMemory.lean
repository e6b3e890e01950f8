import Espiral.Common
import Espiral.Library.ByteMemory
import Espiral.Library.MachineWords

/-!
# Scratchpad memory

Host memory for page-table nodes: pages created on demand, keyed by a 32-bit
page base although addresses have 64 bits. A read of an absent page creates it.
-/

namespace Espiral

set_option autoImplicit false

open ByteMemory MachineWords

abbrev ScratchpadMemory.Page := Vector UInt8 4096

structure ScratchpadMemory where
  page_content_ : Nat → Option ScratchpadMemory.Page

namespace ScratchpadMemory

def empty : ScratchpadMemory := { page_content_ := fun _ => none }

def zeroPage : Page := Vector.replicate 4096 0

def pageBase (addr : Nat) : Nat := wrap32 (addr - addr % PAGE_SIZE)

def pageOffset (addr : Nat) : Fin 4096 := ⟨addr % PAGE_SIZE, Nat.mod_lt addr (by decide)⟩

def getPageOrElseCreate (base : Nat) (self : ScratchpadMemory) : Page × ScratchpadMemory :=
  match self.page_content_ base with
  | some page => (page, self)
  | none =>
      (zeroPage, { page_content_ := Function.update self.page_content_ base (some zeroPage) })

def writeByte (addr : Nat) (byte : UInt8) (self : ScratchpadMemory) : ScratchpadMemory :=
  let (page, self) := self.getPageOrElseCreate (pageBase addr)
  { page_content_ := Function.update self.page_content_ (pageBase addr)
      (some (page.set (pageOffset addr) byte (pageOffset addr).isLt)) }

def readByte (addr : Nat) (self : ScratchpadMemory) : UInt8 × ScratchpadMemory :=
  let (page, self) := self.getPageOrElseCreate (pageBase addr)
  (page[pageOffset addr], self)

def write : Nat → List UInt8 → ScratchpadMemory → ScratchpadMemory
  | _, [], self => self
  | addr, byte :: rest, self => write (add64 addr 1) rest (self.writeByte addr byte)

def read : Nat → Nat → ScratchpadMemory → List UInt8 × ScratchpadMemory
  | _, 0, self => ([], self)
  | addr, size + 1, self =>
      let (byte, self) := self.readByte addr
      let (rest, self) := read (add64 addr 1) size self
      (byte :: rest, self)

def byteAt (self : ScratchpadMemory) (addr : Nat) : UInt8 :=
  (self.readByte addr).1

/-- The scratchpad as a flat memory of 32-bit addresses. -/
def view (self : ScratchpadMemory) : Memory := fun addr =>
  if addr < 2 ^ 32 then self.byteAt addr else 0

section Bytes

variable {self : ScratchpadMemory} {addr : Nat}

theorem byteAt_some {page : Page} (present : self.page_content_ (pageBase addr) = some page) :
    self.byteAt addr = page[pageOffset addr] := by
  simp only [byteAt, readByte, getPageOrElseCreate, present]

theorem byteAt_none (absent : self.page_content_ (pageBase addr) = none) :
    self.byteAt addr = 0 := by
  simp [byteAt, readByte, getPageOrElseCreate, absent, zeroPage]

theorem byteAt_congr {other : ScratchpadMemory}
    (same : other.page_content_ (pageBase addr) = self.page_content_ (pageBase addr)) :
    other.byteAt addr = self.byteAt addr := by
  cases content : self.page_content_ (pageBase addr) with
  | some page => rw [byteAt_some content, byteAt_some (same.trans content)]
  | none => rw [byteAt_none content, byteAt_none (same.trans content)]

theorem getPageOrElseCreate_content (self : ScratchpadMemory) (base : Nat) :
    (self.getPageOrElseCreate base).2.page_content_ base =
      some (self.getPageOrElseCreate base).1 := by
  cases present : self.page_content_ base with
  | some page => simp only [getPageOrElseCreate, present]
  | none => simp [getPageOrElseCreate, present]

theorem getPageOrElseCreate_other (self : ScratchpadMemory) {base other : Nat}
    (different : other ≠ base) :
    (self.getPageOrElseCreate base).2.page_content_ other = self.page_content_ other := by
  cases present : self.page_content_ base with
  | some page => simp only [getPageOrElseCreate, present]
  | none => simp [getPageOrElseCreate, present, different]

theorem byteAt_getPageOrElseCreate (base : Nat) :
    (self.getPageOrElseCreate base).2.byteAt addr = self.byteAt addr := by
  by_cases here : pageBase addr = base
  · have created := getPageOrElseCreate_content self base
    rw [← here] at created ⊢
    rw [byteAt_some created]
    rfl
  · exact byteAt_congr (getPageOrElseCreate_other self here)

/-- Pages are found by the low 32 bits of an address, so a byte is written for every
address with these bits. -/
theorem byteAt_writeByte (byte : UInt8) (addr other : Nat) :
    (self.writeByte addr byte).byteAt other =
      if other % 2 ^ 32 = addr % 2 ^ 32 then byte else self.byteAt other := by
  have kept := @byteAt_getPageOrElseCreate self other (pageBase addr)
  by_cases samePage : pageBase other = pageBase addr
  · have opened := getPageOrElseCreate_content self (pageBase addr)
    have written : (self.writeByte addr byte).page_content_ (pageBase other) =
        some ((self.getPageOrElseCreate (pageBase addr)).1.set (pageOffset addr) byte
          (pageOffset addr).isLt) := by
      simp only [writeByte, samePage, Function.update_self]
    rw [byteAt_some written, ← kept, byteAt_some (by rw [samePage]; exact opened)]
    unfold pageBase wrap32 PAGE_SIZE at samePage
    simp only [Fin.getElem_fin, Vector.getElem_set]
    by_cases here : other % 2 ^ 32 = addr % 2 ^ 32
    · have offset : (pageOffset addr).val = (pageOffset other).val := by
        change addr % PAGE_SIZE = other % PAGE_SIZE
        unfold PAGE_SIZE
        omega
      rw [if_pos here, if_pos offset]
    · have apart : (pageOffset addr).val ≠ (pageOffset other).val := by
        intro same
        change addr % PAGE_SIZE = other % PAGE_SIZE at same
        unfold PAGE_SIZE at same
        omega
      rw [if_neg here, if_neg apart]
  · have different : other % 2 ^ 32 ≠ addr % 2 ^ 32 := by
      intro same
      apply samePage
      unfold pageBase wrap32 PAGE_SIZE
      omega
    rw [if_neg different, ← kept]
    apply byteAt_congr
    simp only [writeByte]
    exact Function.update_of_ne samePage _ _

theorem view_writeByte (byte : UInt8) (bound : addr < 2 ^ 32) :
    (self.writeByte addr byte).view = Function.update self.view addr byte := by
  funext other
  by_cases otherBound : other < 2 ^ 32
  · rw [view, if_pos otherBound, byteAt_writeByte, Nat.mod_eq_of_lt bound,
      Nat.mod_eq_of_lt otherBound]
    by_cases here : other = addr
    · rw [if_pos here, here, Function.update_self]
    · rw [if_neg here, Function.update_of_ne here, view, if_pos otherBound]
  · have different : other ≠ addr := by omega
    rw [Function.update_of_ne different, view, view, if_neg otherBound, if_neg otherBound]

theorem view_readByte : (self.readByte addr).2.view = self.view := by
  funext other
  simp only [view, readByte, byteAt_getPageOrElseCreate]

end Bytes

theorem view_write {self : ScratchpadMemory} {addr : Nat} {data : List UInt8}
    (inside : addr + data.length ≤ 2 ^ 32) :
    (self.write addr data).view = store self.view addr data := by
  induction data generalizing addr self with
  | nil => rfl
  | cons byte rest ih =>
      simp only [List.length_cons] at inside
      have next : add64 addr 1 = addr + 1 := add64_of_lt (by omega)
      rw [write, next, ih (by omega), store, view_writeByte byte (by omega)]

theorem view_read {self : ScratchpadMemory} {addr size : Nat} (inside : addr + size ≤ 2 ^ 32) :
    (self.read addr size).1 = load self.view addr size ∧
      (self.read addr size).2.view = self.view := by
  induction size generalizing addr self with
  | zero => exact ⟨rfl, rfl⟩
  | succ size ih =>
      have next : add64 addr 1 = addr + 1 := add64_of_lt (by omega)
      have rest := @ih (self.readByte addr).2 (addr + 1) (by omega)
      have here : (self.readByte addr).1 = self.view addr := by
        simp only [view, byteAt, show addr < 2 ^ 32 by omega, if_true]
      rw [view_readByte] at rest
      simp only [read, next, load]
      exact ⟨by rw [rest.1, here], rest.2⟩

end ScratchpadMemory

end Espiral
