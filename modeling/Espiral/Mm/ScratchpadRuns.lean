import Espiral.Mm.ScratchpadMemory

/-!
# Runs of the scratchpad

What the scratchpad is meant to be is a flat memory of 64-bit addresses. The
page map is keyed by the low 32 bits of an address, so two addresses that agree
there share a byte. A history of calls says when that can be noticed.
-/

namespace Espiral.ScratchpadMemory

set_option autoImplicit false

open ByteMemory MachineWords

inductive ScratchpadCall where
  | write (addr : Nat) (data : List UInt8)
  | read (addr size : Nat)
  deriving DecidableEq, Repr

/-- A call does not run past the last 64-bit address. -/
def ScratchpadCall.InRange : ScratchpadCall → Prop
  | .write addr data => addr + data.length ≤ 2 ^ 64
  | .read addr size => addr + size ≤ 2 ^ 64

/-- What a fresh scratchpad has become after these calls, the last one first. -/
def after : List ScratchpadCall → ScratchpadMemory
  | [] => empty
  | .write addr data :: earlier => (after earlier).write addr data
  | .read addr size :: earlier => ((after earlier).read addr size).2

def flat : List ScratchpadCall → Memory
  | [] => fun _ => 0
  | .write addr data :: earlier => store (flat earlier) addr data
  | .read _ _ :: earlier => flat earlier

def byteWrites : Nat → List UInt8 → List (Nat × UInt8)
  | _, [] => []
  | addr, byte :: rest => byteWrites (addr + 1) rest ++ [(addr, byte)]

def written : List ScratchpadCall → List (Nat × UInt8)
  | [] => []
  | .write addr data :: earlier => byteWrites addr data ++ written earlier
  | .read _ _ :: earlier => written earlier

def lastWrite (writes : List (Nat × UInt8)) (addr : Nat) : Option (Nat × UInt8) :=
  writes.find? fun write => write.1 = addr

def lastAlias (writes : List (Nat × UInt8)) (addr : Nat) : Option (Nat × UInt8) :=
  writes.find? fun write => write.1 % 2 ^ 32 = addr % 2 ^ 32

def byteOr (default : UInt8) (found : Option (Nat × UInt8)) : UInt8 :=
  (found.map Prod.snd).getD default

/-- The last write to an address with the same low 32 bits was to this very address, or
it has written the byte that this address has anyway. -/
def Unaliased (calls : List ScratchpadCall) (addr : Nat) : Prop :=
  ∀ write, lastAlias (written calls) addr = some write → write.1 = addr ∨ write.2 = flat calls addr

section Lookups

variable {writes earlier : List (Nat × UInt8)} {addr : Nat} {default : UInt8}

theorem byteOr_or (first second : Option (Nat × UInt8)) :
    byteOr default (first.or second) = byteOr (byteOr default second) first := by
  cases first with
  | none => rfl
  | some write => rfl

theorem lastWrite_append (addr : Nat) : lastWrite (writes ++ earlier) addr =
    (lastWrite writes addr).or (lastWrite earlier addr) := List.find?_append

theorem lastAlias_append (addr : Nat) : lastAlias (writes ++ earlier) addr =
    (lastAlias writes addr).or (lastAlias earlier addr) := List.find?_append

/-- If the last write to an alias is to the address itself, it is the last one to it. -/
theorem lastWrite_of_lastAlias {write : Nat × UInt8} (found : lastAlias writes addr = some write)
    (here : write.1 = addr) : lastWrite writes addr = some write := by
  induction writes with
  | nil => cases found
  | cons first rest ih =>
      rw [lastAlias, List.find?_cons] at found
      rw [lastWrite, List.find?_cons]
      by_cases same : first.1 = addr
      · rw [same, decide_eq_true rfl] at found
        rw [decide_eq_true same]
        exact found
      · rw [decide_eq_false same]
        by_cases hit : first.1 % 2 ^ 32 = addr % 2 ^ 32
        · rw [decide_eq_true hit, Option.some.injEq] at found
          rw [found] at same
          exact absurd here same
        · rw [decide_eq_false hit] at found
          exact ih found

theorem lastWrite_of_no_alias (missing : lastAlias writes addr = none) :
    lastWrite writes addr = none := by
  rw [lastAlias, List.find?_eq_none] at missing
  rw [lastWrite, List.find?_eq_none]
  intro write member hit
  have same : write.1 = addr := of_decide_eq_true hit
  exact missing write member (decide_eq_true (by rw [same]))

end Lookups

section Bytes

variable {self : ScratchpadMemory} {memory : Memory} {addr : Nat}

theorem store_byte (data : List UInt8) (other : Nat) :
    store memory addr data other = byteOr (memory other) (lastWrite (byteWrites addr data) other) := by
  induction data generalizing memory addr with
  | nil => rfl
  | cons byte rest ih =>
      rw [byteWrites, lastWrite_append, byteOr_or, store, ih]
      congr 1
      rw [lastWrite, List.find?_singleton]
      by_cases here : other = addr
      · rw [here, Function.update_self, decide_eq_true rfl]
        rfl
      · rw [Function.update_of_ne here, decide_eq_false (Ne.symm here)]
        rfl

theorem write_byte {data : List UInt8} (inRange : addr + data.length ≤ 2 ^ 64) (other : Nat) :
    (self.write addr data).byteAt other =
      byteOr (self.byteAt other) (lastAlias (byteWrites addr data) other) := by
  induction data generalizing self addr with
  | nil => rfl
  | cons byte rest ih =>
      rw [List.length_cons] at inRange
      rw [byteWrites, lastAlias_append, byteOr_or, write]
      cases rest with
      | nil =>
          rw [write, byteAt_writeByte, lastAlias, List.find?_singleton]
          by_cases here : other % 2 ^ 32 = addr % 2 ^ 32
          · rw [if_pos here, decide_eq_true here.symm]
            rfl
          · rw [if_neg here, decide_eq_false (Ne.symm here)]
            rfl
      | cons second rest =>
          rw [List.length_cons] at inRange
          rw [add64_of_lt (by omega), ih (by rw [List.length_cons]; omega), byteAt_writeByte]
          congr 1
          rw [lastAlias, List.find?_singleton]
          by_cases here : other % 2 ^ 32 = addr % 2 ^ 32
          · rw [if_pos here, decide_eq_true here.symm]
            rfl
          · rw [if_neg here, decide_eq_false (Ne.symm here)]
            rfl

theorem read_byte (size : Nat) (other : Nat) :
    (self.read addr size).2.byteAt other = self.byteAt other := by
  induction size generalizing self addr with
  | zero => rfl
  | succ size ih =>
      rw [read]
      exact ih.trans (byteAt_getPageOrElseCreate _)

theorem read_bytesAt {size : Nat} (inRange : addr + size ≤ 2 ^ 64) :
    (self.read addr size).1 = load self.byteAt addr size := by
  induction size generalizing self addr with
  | zero => rfl
  | succ size ih =>
      have kept : (self.readByte addr).2.byteAt = self.byteAt := by
        funext other
        exact byteAt_getPageOrElseCreate _
      rw [read, load]
      cases size with
      | zero => rfl
      | succ size =>
          simp only
          rw [add64_of_lt (by omega), ih (by omega), kept]
          rfl

end Bytes

section Runs

variable {calls : List ScratchpadCall} {addr : Nat}

theorem flat_byte (calls : List ScratchpadCall) (addr : Nat) :
    flat calls addr = byteOr 0 (lastWrite (written calls) addr) := by
  induction calls with
  | nil => rfl
  | cons call earlier ih =>
      cases call with
      | write start data =>
          rw [flat, written, store_byte, ih, lastWrite_append, byteOr_or]
      | read start size => exact ih

theorem after_byte (inRange : ∀ call ∈ calls, call.InRange) (addr : Nat) :
    (after calls).byteAt addr = byteOr 0 (lastAlias (written calls) addr) := by
  induction calls with
  | nil => exact byteAt_none rfl
  | cons call earlier ih =>
      have before := ih fun other member => inRange other (List.mem_cons_of_mem _ member)
      cases call with
      | write start data =>
          have inside : start + data.length ≤ 2 ^ 64 := inRange _ List.mem_cons_self
          rw [after, written, write_byte inside, before, lastAlias_append, byteOr_or]
      | read start size =>
          rw [after, read_byte]
          exact before

theorem after_flat_iff (inRange : ∀ call ∈ calls, call.InRange) (addr : Nat) :
    (after calls).byteAt addr = flat calls addr ↔ Unaliased calls addr := by
  rw [after_byte inRange]
  unfold Unaliased
  cases found : lastAlias (written calls) addr with
  | none =>
      rw [flat_byte, lastWrite_of_no_alias found]
      constructor
      · intro _ write impossible
        cases impossible
      · intro _
        rfl
  | some write =>
      constructor
      · intro same other isOther
        cases isOther
        exact Or.inr same
      · intro unaliased
        cases unaliased write rfl with
        | inl here =>
            rw [flat_byte, lastWrite_of_lastAlias found here]
        | inr same => exact same

end Runs

/-- After every history of calls: a read returns the bytes of the flat memory just if
none of them is aliased; a read changes no byte; and a write leaves a byte outside its
range alone just if it has not written another byte to an address with the same low 32
bits. -/
theorem scratchpad_flat_iff {calls : List ScratchpadCall}
    (inRange : ∀ call ∈ calls, call.InRange) :
    (∀ addr size, addr + size ≤ 2 ^ 64 →
        (((after calls).read addr size).1 = load (flat calls) addr size ↔
          ∀ index < size, Unaliased calls (addr + index))) ∧
      (∀ addr size other, ((after calls).read addr size).2.byteAt other =
        (after calls).byteAt other) ∧
      ∀ addr (data : List UInt8), addr + data.length ≤ 2 ^ 64 → ∀ other < 2 ^ 64,
        (other < addr ∨ addr + data.length ≤ other) →
          (((after calls).write addr data).byteAt other = (after calls).byteAt other ↔
            ∀ write, lastAlias (byteWrites addr data) other = some write →
              write.2 = (after calls).byteAt other) := by
  refine ⟨?_, fun addr size other => read_byte size other, ?_⟩
  · intro addr size inside
    rw [read_bytesAt inside]
    constructor
    · intro same index within
      have byte := congrArg (fun bytes => bytes[index]?) same
      simp only [load_getElem? _ _ within, Option.some.injEq] at byte
      exact (after_flat_iff inRange (addr + index)).mp byte
    · intro unaliased
      apply load_congr
      intro position low high
      have place : addr + (position - addr) = position := by omega
      rw [← place]
      exact (after_flat_iff inRange _).mpr (unaliased (position - addr) (by omega))
  · intro addr data inside other _ _
    rw [write_byte inside]
    cases lastAlias (byteWrites addr data) other with
    | none =>
        constructor
        · intro _ write impossible
          cases impossible
        · intro _
          rfl
    | some write =>
        constructor
        · intro same found isFound
          cases isFound
          exact same
        · intro same
          exact same write rfl

section Small

/-- A byte written above the 32-bit addresses is read below them. -/
theorem written_byte_aliased :
    ((after [.write (2 ^ 32) [7]]).read 0 1).1 = [7] ∧
      load (flat [.write (2 ^ 32) [7]]) 0 1 = [0] ∧
      ((after [.write (2 ^ 32) [7]]).byteAt 0 ≠ (after []).byteAt 0) := by
  have byte : (after [.write (2 ^ 32) [7]]).byteAt 0 = 7 := by
    rw [after, after, write, write, byteAt_writeByte, if_pos (by decide)]
  have zero : (after []).byteAt 0 = 0 := byteAt_none rfl
  refine ⟨?_, ?_, ?_⟩
  · rw [read_bytesAt (by decide), load, load, byte]
  · rw [load, load, flat, flat, store, store, Function.update_of_ne (by decide)]
  · rw [byte, zero]
    decide

def boundaryCalls : List ScratchpadCall :=
  [.write 0x1000 [9], .read 0x1000 4, .write 0xFFE [1, 2, 3, 4]]

theorem scratchpad_flat_iff_boundary :
    ((after boundaryCalls).read 0xFFE 4).1 = load (flat boundaryCalls) 0xFFE 4 ∧
      load (flat boundaryCalls) 0xFFE 4 = [1, 2, 9, 4] := by
  have inRange : ∀ call ∈ boundaryCalls, call.InRange := by
    intro call member
    simp only [boundaryCalls, List.mem_cons, List.not_mem_nil, or_false] at member
    rcases member with rfl | rfl | rfl <;> unfold ScratchpadCall.InRange <;> decide
  constructor
  · apply ((scratchpad_flat_iff inRange).1 0xFFE 4 (by decide)).mpr
    intro index inside write found
    have place : index = 0 ∨ index = 1 ∨ index = 2 ∨ index = 3 := by omega
    left
    rcases place with rfl | rfl | rfl | rfl <;> cases found <;> rfl
  · decide

end Small

end Espiral.ScratchpadMemory
