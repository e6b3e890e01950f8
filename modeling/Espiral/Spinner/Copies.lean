import Espiral.Spinner.Transfers

/-!
# Copies through a translation

With a flat memory that accepts every transfer the two copy loops are copies of
the bytes of a range, each through the translation of its own address.
-/

namespace Espiral.Spinner

set_option autoImplicit false

open AddressSpaceManager ByteMemory Contracts MachineWords

/-- Every byte of a range is translated, and no two bytes to one address. -/
structure MappedApart (aspace : AddressSpaceManager) (root va size : Nat) : Prop where
  mapped : ∀ addr, va ≤ addr → addr < va + size → (aspace.translated root addr).isSome
  apart : ∀ first second, va ≤ first → first < va + size → va ≤ second → second < va + size →
    aspace.translated root first = aspace.translated root second → first = second

def copied (aspace : AddressSpaceManager) (root va : Nat) (content : List UInt8)
    (before after : Memory) : Prop :=
  (∀ index, ∀ inside : index < content.length, ∀ pa,
      aspace.translated root (va + index) = some pa → after pa = content[index]) ∧
    ∀ pa, (∀ index < content.length, aspace.translated root (va + index) ≠ some pa) →
      after pa = before pa

def bytesOf (aspace : AddressSpaceManager) (root va size : Nat) (memory : Memory) : List UInt8 :=
  (List.range size).map fun index => memory ((aspace.translated root (va + index)).getD 0)

def uploadParts {Device : Type} (accelerator : HostAccelerator Device) (kid : Nat) :
    Nat → List (List UInt8) → Action (Spinner Device) Unit
  | _, [] => pure ()
  | va, part :: rest => do
      upload accelerator kid va part
      uploadParts accelerator kid (va + part.length) rest

section Ranges

variable {aspace next : AddressSpaceManager} {root va size : Nat} {content : List UInt8}
  {before after : Memory}

theorem byteAddress_narrow (narrow : va + size ≤ 2 ^ 32) {index : Nat} (inside : index < size) :
    byteAddress aspace root va index = aspace.translated root (va + index) := by
  rw [byteAddress, wrap32_of_lt (by omega)]

theorem MappedApart.byteAddress_isSome (range : MappedApart aspace root va size)
    (narrow : va + size ≤ 2 ^ 32) :
    ∀ index < size, (byteAddress aspace root va index).isSome := by
  intro index inside
  rw [byteAddress_narrow narrow inside]
  exact range.mapped (va + index) (Nat.le_add_right _ _) (Nat.add_lt_add_left inside va)

theorem MappedApart.byteAddress_apart (range : MappedApart aspace root va size)
    (narrow : va + size ≤ 2 ^ 32) : ∀ first < size, ∀ second < size,
      byteAddress aspace root va first = byteAddress aspace root va second → first = second := by
  intro first firstInside second secondInside same
  rw [byteAddress_narrow narrow firstInside, byteAddress_narrow narrow secondInside] at same
  have equal := range.apart (va + first) (va + second) (by omega) (by omega) (by omega) (by omega)
    same
  omega

theorem MappedApart.kept (range : MappedApart aspace root va size) (kept : ReadOnly aspace next) :
    MappedApart next root va size where
  mapped addr low high := by
    rw [translated_bytes kept.bytes]
    exact range.mapped addr low high
  apart first second firstLow firstHigh secondLow secondHigh same := by
    rw [translated_bytes kept.bytes, translated_bytes kept.bytes] at same
    exact range.apart first second firstLow firstHigh secondLow secondHigh same

theorem MappedApart.part (range : MappedApart aspace root va size) {start length : Nat}
    (low : va ≤ start) (high : start + length ≤ va + size) :
    MappedApart aspace root start length where
  mapped addr addrLow addrHigh := range.mapped addr (by omega) (by omega)
  apart first second firstLow firstHigh secondLow secondHigh :=
    range.apart first second (by omega) (by omega) (by omega) (by omega)

theorem copied.unique {other : Memory} (left : copied aspace root va content before after)
    (right : copied aspace root va content before other) : after = other := by
  funext pa
  by_cases hit : ∃ index, ∃ inside : index < content.length,
      aspace.translated root (va + index) = some pa
  · obtain ⟨index, inside, found⟩ := hit
    rw [left.1 index inside pa found, right.1 index inside pa found]
  · have away : ∀ index < content.length, aspace.translated root (va + index) ≠ some pa :=
      fun index inside found => hit ⟨index, inside, found⟩
    rw [left.2 pa away, right.2 pa away]

theorem copied.append {first second : List UInt8} {between : Memory}
    (range : MappedApart aspace root va (first ++ second).length)
    (left : copied aspace root va first before between)
    (right : copied aspace root (va + first.length) second between after) :
    copied aspace root va (first ++ second) before after := by
  rw [List.length_append] at range
  constructor
  · intro index inside pa found
    rw [List.length_append] at inside
    by_cases early : index < first.length
    · have away : ∀ later < second.length,
          aspace.translated root (va + first.length + later) ≠ some pa := by
        intro later laterInside same
        have equal := range.apart (va + index) (va + first.length + later) (by omega) (by omega)
          (by omega) (by omega) (found.trans same.symm)
        omega
      rw [right.2 pa away, List.getElem_append_left early]
      exact left.1 index early pa found
    · have within : index - first.length < second.length := by omega
      have place : va + first.length + (index - first.length) = va + index := by omega
      rw [List.getElem_append_right (by omega)]
      exact right.1 (index - first.length) within pa (by rw [place]; exact found)
  · intro pa away
    rw [List.length_append] at away
    have later : ∀ index < second.length,
        aspace.translated root (va + first.length + index) ≠ some pa := by
      intro index inside
      have apart := away (first.length + index) (by omega)
      rw [← Nat.add_assoc] at apart
      exact apart
    rw [right.2 pa later]
    exact left.2 pa fun index inside => away index (by omega)

theorem bytesOf_getElem? {memory : Memory} {index : Nat} (inside : index < size) {pa : Nat}
    (found : aspace.translated root (va + index) = some pa) :
    (bytesOf aspace root va size memory)[index]? = some (memory pa) := by
  rw [bytesOf, List.getElem?_map, List.getElem?_range inside, Option.map_some, found,
    Option.getD_some]

theorem bytesOf_length (aspace : AddressSpaceManager) (root va size : Nat) (memory : Memory) :
    (bytesOf aspace root va size memory).length = size := by
  rw [bytesOf, List.length_map, List.length_range]

theorem bytesOf_kept (kept : ReadOnly aspace next) (memory : Memory) :
    bytesOf next root va size memory = bytesOf aspace root va size memory := by
  unfold bytesOf
  apply List.map_congr_left
  intro index _
  rw [translated_bytes kept.bytes]

theorem copied.bytesOf (range : MappedApart aspace root va content.length)
    (done : copied aspace root va content before after) :
    bytesOf aspace root va content.length after = content := by
  apply List.ext_getElem?
  intro index
  by_cases inside : index < content.length
  · obtain ⟨pa, found⟩ := Option.isSome_iff_exists.mp
      (range.mapped (va + index) (Nat.le_add_right _ _) (Nat.add_lt_add_left inside va))
    rw [bytesOf_getElem? inside found, done.1 index inside pa found,
      List.getElem?_eq_getElem inside]
  · have length := bytesOf_length aspace root va content.length after
    rw [List.getElem?_eq_none (by omega), List.getElem?_eq_none (by omega)]

end Ranges

section Flat

variable {state : Spinner FlatDevice} {kid va : Nat} {kcb : KernelControlBlock}
  {content : List UInt8}

theorem chunkAccepted_flat {address : Nat → Option Nat} {size : Nat}
    (mapped : ∀ index < size, (address index).isSome) (index : Nat) (inside : index < size) :
    chunkAccepted (fun _ _ => true) address va size index = true := by
  have before : chunkStart va index < size := Nat.lt_of_le_of_lt (Nat.sub_le _ _) inside
  obtain ⟨pa, found⟩ := Option.isSome_iff_exists.mp (mapped _ before)
  rw [chunkAccepted, found, Option.any_some]

theorem upload_copies (caps : Caps → Option Nat) (stored : state.kcbs_[kid]? = some (some kcb))
    (narrow : va + content.length ≤ 2 ^ 32)
    (range : MappedApart state.aspace_ kcb.top_pgtbl_pa va content.length) :
    ∃ after, upload (flatAccelerator caps) kid va content state = .ok () after ∧
      Transferred state after ∧
      copied state.aspace_ kcb.top_pgtbl_pa va content state.device.memory after.device.memory := by
  have mapped := range.byteAddress_isSome narrow
  have backed := flatAccelerator_backed caps
  obtain ⟨after, ran, transferred, uploaded⟩ := upload_returns backed stored content mapped
  refine ⟨after, ran, transferred, ?_, ?_⟩
  · intro index inside pa found
    rw [← byteAddress_narrow narrow inside] at found
    exact uploaded.arrives (range.byteAddress_apart narrow) inside found
      (chunkAccepted_flat mapped index inside)
  · intro pa away
    apply uploaded.untouched
    intro index inside found
    rw [byteAddress_narrow narrow inside] at found
    exact away index inside found

theorem download_copies (caps : Caps → Option Nat) (stored : state.kcbs_[kid]? = some (some kcb))
    {size : Nat} (narrow : va + size ≤ 2 ^ 32)
    (mapped : ∀ addr, va ≤ addr → addr < va + size →
      (state.aspace_.translated kcb.top_pgtbl_pa addr).isSome)
    {dest : List UInt8} (sizeIs : dest.length = size) :
    ∃ after, download (flatAccelerator caps) kid va dest state =
        .ok (bytesOf state.aspace_ kcb.top_pgtbl_pa va size state.device.memory) after ∧
      Transferred state after ∧ after.device.memory = state.device.memory := by
  have bytes : ∀ index < dest.length,
      (byteAddress state.aspace_ kcb.top_pgtbl_pa va index).isSome := by
    intro index inside
    rw [byteAddress_narrow narrow (by omega)]
    exact mapped (va + index) (by omega) (by omega)
  obtain ⟨result, after, ran, transferred, memory, filled⟩ :=
    download_returns (flatAccelerator_backed caps) stored dest bytes
  refine ⟨after, ?_, transferred, memory⟩
  rw [ran]
  congr 1
  apply List.ext_getElem?
  intro index
  by_cases inside : index < size
  · obtain ⟨pa, found, value⟩ := filled.loaded index (Nat.zero_le _) (by omega)
      (chunkAccepted_flat bytes index (by omega))
    rw [byteAddress_narrow narrow inside] at found
    rw [value, bytesOf_getElem? inside found]
  · have length := filled.length
    have whole := bytesOf_length state.aspace_ kcb.top_pgtbl_pa va size state.device.memory
    rw [List.getElem?_eq_none (by omega), List.getElem?_eq_none (by omega)]

theorem uploadParts_copies (caps : Caps → Option Nat) {parts : List (List UInt8)}
    (stored : state.kcbs_[kid]? = some (some kcb))
    (narrow : va + parts.flatten.length ≤ 2 ^ 32)
    (range : MappedApart state.aspace_ kcb.top_pgtbl_pa va parts.flatten.length) :
    ∃ after, uploadParts (flatAccelerator caps) kid va parts state = .ok () after ∧
      Transferred state after ∧
      copied state.aspace_ kcb.top_pgtbl_pa va parts.flatten state.device.memory
        after.device.memory := by
  induction parts generalizing va state with
  | nil => exact ⟨state, rfl, ⟨rfl, ReadOnly.refl _⟩, fun _ inside => absurd inside (Nat.not_lt_zero _),
      fun _ _ => rfl⟩
  | cons part rest ih =>
      rw [List.flatten_cons] at range narrow ⊢
      have whole := range
      rw [List.length_append] at range narrow
      have firstRange : MappedApart state.aspace_ kcb.top_pgtbl_pa va part.length :=
        range.part (Nat.le_refl va) (by omega)
      obtain ⟨between, ran, first, firstCopied⟩ :=
        upload_copies caps stored (by omega) firstRange
      have storedNow : between.kcbs_[kid]? = some (some kcb) := by
        rw [first.kcbs]
        exact stored
      have rangeNow := (range.part (Nat.le_add_right va part.length)
        (by omega : va + part.length + rest.flatten.length ≤ _)).kept first.aspace
      obtain ⟨after, ranRest, second, secondCopied⟩ := ih storedNow (by omega) rangeNow
      refine ⟨after, ?_, first.trans second, ?_⟩
      · rw [uploadParts, bind_ok ran]
        exact ranRest
      · apply firstCopied.append whole
        obtain ⟨values, untouched⟩ := secondCopied
        constructor
        · intro index inside pa found
          exact values index inside pa (by rw [translated_bytes first.aspace.bytes]; exact found)
        · intro pa away
          apply untouched
          intro index inside
          rw [translated_bytes first.aspace.bytes]
          exact away index inside

/-- The copy loops of a kernel on a range whose bytes are translated to addresses of
their own: an upload puts each byte at its address and changes no other one, a
download returns the bytes at these addresses, a download after an upload returns
what was uploaded, and pieces uploaded in turn do what one upload does. -/
theorem copies_translated (caps : Caps → Option Nat)
    (stored : state.kcbs_[kid]? = some (some kcb)) (vaBound : va < 2 ^ 32)
    (narrow : va + content.length ≤ 2 ^ 32)
    (range : MappedApart state.aspace_ kcb.top_pgtbl_pa va content.length) :
    (∀ dest : List UInt8, dest.length = content.length →
        ∃ after, copyDevToHost (flatAccelerator caps) kid va dest state = .ok
          (bytesOf state.aspace_ kcb.top_pgtbl_pa va content.length state.device.memory) after) ∧
      ∃ after, copyHostToDev (flatAccelerator caps) kid va content state = .ok () after ∧
        copied state.aspace_ kcb.top_pgtbl_pa va content state.device.memory after.device.memory ∧
        (∀ dest : List UInt8, dest.length = content.length →
          ∃ last, copyDevToHost (flatAccelerator caps) kid va dest after = .ok content last) ∧
        ∀ parts : List (List UInt8), parts.flatten = content →
          ∃ last, uploadParts (flatAccelerator caps) kid va parts state = .ok () last ∧
            last.device.memory = after.device.memory := by
  have sameDownload : ∀ dest, copyDevToHost (flatAccelerator caps) kid va dest =
      download (flatAccelerator caps) kid va dest := by
    intro dest
    rw [download, wrap32_of_lt vaBound]
  have sameUpload : copyHostToDev (flatAccelerator caps) kid va content =
      upload (flatAccelerator caps) kid va content := by
    rw [upload, wrap32_of_lt vaBound]
  obtain ⟨after, ran, transferred, done⟩ := upload_copies caps stored narrow range
  rw [sameUpload]
  constructor
  · intro dest sizeIs
    obtain ⟨last, ranDownload, _⟩ := download_copies caps stored narrow range.mapped sizeIs
    rw [sameDownload]
    exact ⟨last, ranDownload⟩
  · refine ⟨after, ran, done, ?_, ?_⟩
    · intro dest sizeIs
      have storedNow : after.kcbs_[kid]? = some (some kcb) := by
        rw [transferred.kcbs]
        exact stored
      obtain ⟨last, ranDownload, _⟩ := download_copies caps storedNow narrow
        (range.kept transferred.aspace).mapped sizeIs
      rw [bytesOf_kept transferred.aspace, done.bytesOf range] at ranDownload
      rw [sameDownload]
      exact ⟨last, ranDownload⟩
    · intro parts whole
      subst whole
      obtain ⟨last, ranParts, _, partsDone⟩ := uploadParts_copies caps stored narrow range
      exact ⟨last, ranParts, partsDone.unique done⟩

end Flat

/-- Five bytes over the end of the first page of a heap; the pages are in frames apart. -/
theorem copies_translated_five : ∃ (state after last : Spinner FlatDevice),
    copyHostToDev (flatAccelerator fun _ => none) 0 0x10FFE [1, 2, 3, 4, 5] state = .ok () after ∧
      after.device.memory 0x2FFF = 2 ∧ after.device.memory 0x4000 = 3 ∧
      copyDevToHost (flatAccelerator fun _ => none) 0 0x10FFE [0, 0, 0, 0, 0] after =
        .ok [1, 2, 3, 4, 5] last := by
  obtain ⟨_, _, final, _, _, _, _, _, _, first, second⟩ := HeapManager.smallPlatform_twoPages
  let state : Spinner FlatDevice :=
    { kcbs_ := [some (newKcb 0x1000 "kernel" 16 0x10000 0x10000)]
      aspace_ := final
      device := { memory := fun _ => 0, launches := [] } }
  have address : ∀ addr, 0x10FFE ≤ addr → addr < 0x10FFE + 5 →
      state.aspace_.translated 0x1000 addr =
        some (if addr < 0x11000 then addr - 0xE000 else addr - 0xD000) := by
    intro addr low high
    change final.translated 0x1000 addr = _
    by_cases before : addr < 0x11000
    · rw [first addr (by omega), if_pos before, Option.some.injEq]
      omega
    · rw [second addr (by omega), if_neg before, Option.some.injEq]
      omega
  have range : MappedApart state.aspace_ 0x1000 0x10FFE 5 := by
    constructor
    · intro addr low high
      rw [address addr low high]
      rfl
    · intro one other oneLow oneHigh otherLow otherHigh same
      rw [address one oneLow oneHigh, address other otherLow otherHigh, Option.some.injEq] at same
      split at same <;> split at same <;> omega
  obtain ⟨_, after, ran, done, downloads, _⟩ :=
    @copies_translated state 0 0x10FFE (newKcb 0x1000 "kernel" 16 0x10000 0x10000) [1, 2, 3, 4, 5]
      (fun _ => none) rfl (by decide) (by decide) range
  obtain ⟨last, ranDownload⟩ := downloads [0, 0, 0, 0, 0] rfl
  refine ⟨state, after, last, ran, ?_, ?_, ranDownload⟩
  · exact done.1 1 (by decide) 0x2FFF (address 0x10FFF (by decide) (by decide))
  · exact done.1 2 (by decide) 0x4000 (address 0x11000 (by decide) (by decide))

end Espiral.Spinner
