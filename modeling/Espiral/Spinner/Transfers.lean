import Espiral.Mm.Translation
import Espiral.Spinner.Calls

/-!
# Transfers in chunks

The copy loops cut a range at page boundaries and move one chunk at a time.
For a device with a flat memory the loops are described byte by byte: which
chunk has a byte, whether that chunk is accepted, and where the byte goes.
-/

namespace Espiral.Spinner

set_option autoImplicit false

open AddressSpaceManager ByteMemory Contracts MachineWords

section Chunks

/-- The index of the first byte in the chunk of this byte. -/
def chunkStart (va index : Nat) : Nat := index - min index ((va + index) % PAGE_SIZE)

def chunkSize (va size start : Nat) : Nat := min (PAGE_SIZE - (va + start) % PAGE_SIZE) (size - start)

def chunkAccepted (accepts : Nat → Nat → Bool) (address : Nat → Option Nat) (va size index : Nat) :
    Bool :=
  (address (chunkStart va index)).any fun pa => accepts pa (chunkSize va size (chunkStart va index))

def byteAddress (aspace : AddressSpaceManager) (top_pgtbl_pa va index : Nat) : Option Nat :=
  aspace.translated top_pgtbl_pa (wrap32 (va + index))

/-- A chunk starts where the range does or at the start of a page. -/
def ChunkBoundary (va start : Nat) : Prop := start = 0 ∨ (va + start) % PAGE_SIZE = 0

variable {va size start index : Nat}

theorem chunkSize_pos (inside : start < size) : 0 < chunkSize va size start := by
  have offset := Nat.mod_lt (va + start) (by decide : 0 < PAGE_SIZE)
  unfold chunkSize
  omega

theorem chunkSize_le (inside : start < size) : start + chunkSize va size start ≤ size := by
  unfold chunkSize
  omega

theorem chunkStart_of (boundary : ChunkBoundary va start) (low : start ≤ index)
    (high : index < start + chunkSize va size start) : chunkStart va index = start := by
  unfold ChunkBoundary PAGE_SIZE at boundary
  unfold chunkSize PAGE_SIZE at high
  unfold chunkStart PAGE_SIZE
  omega

/-- The next chunk starts a page, unless this one was the last. -/
theorem nextBoundary (more : start + chunkSize va size start < size) :
    ChunkBoundary va (start + chunkSize va size start) := by
  right
  unfold chunkSize PAGE_SIZE at more ⊢
  omega

theorem byteAddress_chunk {aspace : AddressSpaceManager} {root pa : Nat}
    (found : byteAddress aspace root va start = some pa) (low : start ≤ index)
    (high : index < start + chunkSize va size start) :
    byteAddress aspace root va index = some (pa + (index - start)) := by
  unfold chunkSize PAGE_SIZE at high
  have same : wrap32 (va + index) / 4096 = wrap32 (va + start) / 4096 := by
    unfold wrap32
    omega
  obtain ⟨offset, others⟩ := translated_page found same
  rw [byteAddress, others, Option.some.injEq]
  unfold wrap32 at offset ⊢
  omega

theorem wrap32_wrap32_add (base start size : Nat) :
    wrap32 (wrap32 (base + start) + size) = wrap32 (base + (start + size)) := by
  unfold wrap32
  omega

theorem chunk_addresses {accepts : Nat → Nat → Bool} {address : Nat → Option Nat}
    {aspace : AddressSpaceManager} {root pa : Nat}
    (addressIs : byteAddress aspace root va = address) (boundary : ChunkBoundary va start)
    (found : address start = some pa) (index : Nat) (low : start ≤ index)
    (high : index < start + chunkSize va size start) :
    address index = some (pa + (index - start)) ∧
      chunkAccepted accepts address va size index = accepts pa (chunkSize va size start) := by
  rw [← addressIs] at found ⊢
  refine ⟨byteAddress_chunk found low high, ?_⟩
  rw [chunkAccepted, chunkStart_of boundary low high, found]
  rfl

theorem byteAddress_kept {aspace next : AddressSpaceManager} (kept : ReadOnly aspace next)
    (root va : Nat) : byteAddress next root va = byteAddress aspace root va := by
  funext index
  exact translated_bytes kept.bytes root (wrap32 (va + index))

end Chunks

section Uploads

def Uploaded (address : Nat → Option Nat) (accepted : Nat → Bool) (content : List UInt8)
    (start : Nat) (before after : Memory) : Prop :=
  ∀ addr, (∃ index, ∃ inside : index < content.length, start ≤ index ∧ accepted index = true ∧
      address index = some addr ∧ after addr = content[index]) ∨
    ((∀ index, start ≤ index → index < content.length → accepted index = true →
      address index ≠ some addr) ∧ after addr = before addr)

theorem Uploaded.nothing {address : Nat → Option Nat} {accepted : Nat → Bool}
    {content : List UInt8} {start : Nat} (memory : Memory) (done : content.length ≤ start) :
    Uploaded address accepted content start memory memory := by
  intro addr
  right
  refine ⟨?_, rfl⟩
  intro index low inside
  omega

theorem Uploaded.chunk {address : Nat → Option Nat} {accepted : Nat → Bool}
    {content : List UInt8} {start size pa : Nat} {before between after : Memory} {taken : Bool}
    (inside : start + size ≤ content.length)
    (addresses : ∀ index, start ≤ index → index < start + size →
      address index = some (pa + (index - start)) ∧ accepted index = taken)
    (stored : between =
      if taken then store before pa ((content.drop start).take size) else before)
    (rest : Uploaded address accepted content (start + size) between after) :
    Uploaded address accepted content start before after := by
  have length : ((content.drop start).take size).length = size := by
    rw [List.length_take, List.length_drop]
    omega
  intro addr
  cases rest addr with
  | inl later =>
      obtain ⟨index, within, low, isAccepted, found, value⟩ := later
      exact Or.inl ⟨index, within, by omega, isAccepted, found, value⟩
  | inr untouched =>
      obtain ⟨missed, kept⟩ := untouched
      cases taken with
      | false =>
          right
          refine ⟨?_, by rw [kept, stored]; rfl⟩
          intro index low within isAccepted
          by_cases here : index < start + size
          · rw [(addresses index low here).2] at isAccepted
            cases isAccepted
          · exact missed index (by omega) within isAccepted
      | true =>
          rw [if_pos rfl] at stored
          by_cases hit : pa ≤ addr ∧ addr < pa + size
          · left
            have within : start + (addr - pa) < content.length := by omega
            obtain ⟨found, isAccepted⟩ := addresses (start + (addr - pa)) (by omega) (by omega)
            refine ⟨start + (addr - pa), within, by omega, isAccepted, ?_, ?_⟩
            · rw [found]
              congr 1
              omega
            · have byte := @store_inside before pa ((content.drop start).take size) (addr - pa)
                (by omega)
              rw [show pa + (addr - pa) = addr by omega, List.getElem_take, List.getElem_drop] at byte
              rw [kept, stored, byte]
          · right
            constructor
            · intro index low within isAccepted
              by_cases here : index < start + size
              · rw [(addresses index low here).1]
                intro same
                rw [Option.some.injEq] at same
                omega
              · exact missed index (by omega) within isAccepted
            · rw [kept, stored]
              exact store_outside (by omega)

theorem Uploaded.arrives {address : Nat → Option Nat} {accepted : Nat → Bool}
    {content : List UInt8} {before after : Memory}
    (uploaded : Uploaded address accepted content 0 before after)
    (apart : ∀ first < content.length, ∀ second < content.length,
      address first = address second → first = second) {index addr : Nat}
    (inside : index < content.length) (found : address index = some addr)
    (isAccepted : accepted index = true) : after addr = content[index] := by
  cases uploaded addr with
  | inl written =>
      obtain ⟨other, otherInside, _, _, otherFound, value⟩ := written
      have same := apart other otherInside index inside (otherFound.trans found.symm)
      subst same
      exact value
  | inr untouched =>
      exact absurd found (untouched.1 index (Nat.zero_le _) inside isAccepted)

theorem Uploaded.untouched {address : Nat → Option Nat} {accepted : Nat → Bool}
    {content : List UInt8} {start addr : Nat} {before after : Memory}
    (uploaded : Uploaded address accepted content start before after)
    (away : ∀ index < content.length, address index ≠ some addr) : after addr = before addr := by
  cases uploaded addr with
  | inl written =>
      obtain ⟨index, inside, _, _, found, _⟩ := written
      exact absurd found (away index inside)
  | inr kept => exact kept.2

variable {Device : Type} {accelerator : HostAccelerator Device} {ram : Device → Memory}
  {accepts : Nat → Nat → Bool}

structure Transferred (state next : Spinner Device) : Prop where
  kcbs : next.kcbs_ = state.kcbs_
  aspace : ReadOnly state.aspace_ next.aspace_

theorem Transferred.trans {first second third : Spinner Device} (left : Transferred first second)
    (right : Transferred second third) : Transferred first third where
  kcbs := right.kcbs.trans left.kcbs
  aspace := left.aspace.trans right.aspace

theorem translate_lifted (state : Spinner Device) (root va : Nat) :
    ∃ aspace, onAddressSpace (AddressSpaceManager.translate va root) state =
        .ok (state.aspace_.translated root va) { state with aspace_ := aspace } ∧
      ReadOnly state.aspace_ aspace := by
  obtain ⟨aspace, ran, kept⟩ := translate_returns state.aspace_ root va
  exact ⟨aspace, onAddressSpace_run ran, kept⟩

theorem pageOffset_wrap32 (va start : Nat) :
    wrap32 (va + start) &&& (PAGE_SIZE - 1) = (va + start) % PAGE_SIZE := by
  have mask : PAGE_SIZE - 1 = 2 ^ 12 - 1 := rfl
  rw [mask, Nat.and_two_pow_sub_one_eq_mod]
  unfold wrap32 PAGE_SIZE
  omega

theorem copyChunksToDev_chunk {root va fuel start : Nat} {content : List UInt8}
    (state : Spinner Device) (more : start < content.length) :
    ∃ aspace, ReadOnly state.aspace_ aspace ∧
      (byteAddress state.aspace_ root va start = none →
        copyChunksToDev accelerator root content (fuel + 1) (wrap32 (va + start)) start state =
          .error .badOptionalAccess { state with aspace_ := aspace }) ∧
      ∀ pa, byteAddress state.aspace_ root va start = some pa →
        copyChunksToDev accelerator root content (fuel + 1) (wrap32 (va + start)) start state =
          copyChunksToDev accelerator root content fuel
            (wrap32 (va + (start + chunkSize va content.length start)))
            (start + chunkSize va content.length start)
            { state with
              aspace_ := aspace
              device := (accelerator.upload pa
                ((content.drop start).take (chunkSize va content.length start)) state.device).2 } := by
  obtain ⟨aspace, lifted, kept⟩ := translate_lifted state root (wrap32 (va + start))
  have sizeIs : min (PAGE_SIZE - (va + start) % PAGE_SIZE) (content.length - start) =
      chunkSize va content.length start := rfl
  refine ⟨aspace, kept, ?_, ?_⟩
  · intro found
    rw [byteAddress] at found
    rw [copyChunksToDev, if_pos more, bind_ok lifted, found]
    rfl
  · intro pa found
    rw [byteAddress] at found
    rw [copyChunksToDev, if_pos more, bind_ok lifted, found, pageOffset_wrap32, sizeIs,
      wrap32_wrap32_add]
    rfl

theorem isSome_chunk {address : Nat → Option Nat} {start size total pa : Nat}
    (addresses : ∀ index, start ≤ index → index < start + size →
      address index = some (pa + (index - start)))
    (later : ∀ index, start + size ≤ index → index < total → (address index).isSome) (index : Nat)
    (low : start ≤ index) (inside : index < total) : (address index).isSome := by
  by_cases here : index < start + size
  · rw [addresses index low here]
    rfl
  · exact later index (by omega) inside

/-- The loop from a chunk boundary on. -/
theorem copyChunksToDev_spec (backed : accelerator.Backed ram accepts) {root va : Nat}
    {content : List UInt8} {address : Nat → Option Nat} {fuel start : Nat} {state : Spinner Device}
    (addressIs : byteAddress state.aspace_ root va = address)
    (boundary : start < content.length → ChunkBoundary va start)
    (low : start ≤ content.length) (enough : content.length < start + fuel) :
    Ensures (copyChunksToDev accelerator root content fuel (wrap32 (va + start)) start) state
      (fun _ next => Transferred state next ∧
        Uploaded address (chunkAccepted accepts address va content.length) content start
          (ram state.device) (ram next.device) ∧
        ∀ index, start ≤ index → index < content.length → (address index).isSome)
      (fun _ next => Transferred state next ∧
        ∃ index, start ≤ index ∧ index < content.length ∧ address index = none) := by
  induction fuel generalizing start state with
  | zero => omega
  | succ fuel ih =>
      by_cases more : start < content.length
      · obtain ⟨aspace, kept, unmapped, mapped⟩ :=
          @copyChunksToDev_chunk Device accelerator root va fuel start content state more
        rw [addressIs] at unmapped mapped
        cases found : address start with
        | none =>
            exact ensures_of_throw (unmapped found)
              ⟨⟨rfl, kept⟩, start, Nat.le_refl _, more, found⟩
        | some pa =>
            have positive := @chunkSize_pos va content.length start more
            have inside := @chunkSize_le va content.length start more
            have addresses := @chunk_addresses va content.length start accepts address
              state.aspace_ root pa addressIs (boundary more) found
            have length : ((content.drop start).take
                (chunkSize va content.length start)).length = chunkSize va content.length start := by
              rw [List.length_take, List.length_drop]
              omega
            have stored := backed.uploads pa
              ((content.drop start).take (chunkSize va content.length start)) state.device
            rw [length] at stored
            have later := @ih (start + chunkSize va content.length start)
              { state with
                aspace_ := aspace
                device := (accelerator.upload pa
                  ((content.drop start).take (chunkSize va content.length start))
                  state.device).2 }
              (by rw [← addressIs]; exact byteAddress_kept kept root va) nextBoundary inside
              (by omega)
            apply (later.of_eq (mapped pa found)).weaken
            · intro _ next outcome
              obtain ⟨transferred, uploaded, rest⟩ := outcome
              exact ⟨⟨transferred.kcbs, kept.trans transferred.aspace⟩,
                Uploaded.chunk inside addresses stored uploaded,
                isSome_chunk (fun index low high => (addresses index low high).1) rest⟩
            · intro _ next outcome
              obtain ⟨transferred, index, after, within, missing⟩ := outcome
              exact ⟨⟨transferred.kcbs, kept.trans transferred.aspace⟩, index, by omega, within,
                missing⟩
      · rw [copyChunksToDev, if_neg more]
        apply ensures_pure
        refine ⟨⟨rfl, ReadOnly.refl _⟩, Uploaded.nothing _ (by omega), ?_⟩
        intro index after inside
        omega

theorem upload_spec (backed : accelerator.Backed ram accepts) {state : Spinner Device}
    {kid va : Nat} {kcb : KernelControlBlock} (stored : state.kcbs_[kid]? = some (some kcb))
    (content : List UInt8) :
    Ensures (upload accelerator kid va content) state
      (fun _ next => Transferred state next ∧
        Uploaded (byteAddress state.aspace_ kcb.top_pgtbl_pa va)
          (chunkAccepted accepts (byteAddress state.aspace_ kcb.top_pgtbl_pa va) va content.length)
          content 0 (ram state.device) (ram next.device) ∧
        ∀ index < content.length, (byteAddress state.aspace_ kcb.top_pgtbl_pa va index).isSome)
      (fun _ next => Transferred state next ∧
        ∃ index < content.length, byteAddress state.aspace_ kcb.top_pgtbl_pa va index = none) := by
  apply ensures_bind_of_run (kcbAt_run stored)
  apply (copyChunksToDev_spec backed rfl (fun _ => Or.inl rfl) (Nat.zero_le _)
    (by omega : content.length < 0 + (content.length + 1))).weaken
  · intro _ next outcome
    obtain ⟨transferred, uploaded, mapped⟩ := outcome
    exact ⟨transferred, uploaded, fun index inside => mapped index (Nat.zero_le _) inside⟩
  · intro _ next outcome
    obtain ⟨transferred, index, _, inside, unmapped⟩ := outcome
    exact ⟨transferred, index, inside, unmapped⟩

end Uploads

section Downloads

structure Filled (address : Nat → Option Nat) (accepted : Nat → Bool) (memory : Memory)
    (start : Nat) (dest result : List UInt8) : Prop where
  length : result.length = dest.length
  loaded : ∀ index, start ≤ index → index < dest.length → accepted index = true →
    ∃ addr, address index = some addr ∧ result[index]? = some (memory addr)
  kept : ∀ index, index < start ∨ accepted index = false → result[index]? = dest[index]?

theorem splice_getElem? {dest chunk : List UInt8} {start : Nat}
    (inside : start + chunk.length ≤ dest.length) (index : Nat) :
    (dest.take start ++ chunk ++ dest.drop (start + chunk.length))[index]? =
      if start ≤ index ∧ index < start + chunk.length then chunk[index - start]?
      else dest[index]? := by
  have front : (dest.take start).length = start := by
    rw [List.length_take]
    omega
  rw [List.append_assoc, List.getElem?_append, front]
  by_cases before : index < start
  · rw [if_pos before, if_neg (by omega), List.getElem?_take_of_lt before]
  · rw [if_neg before, List.getElem?_append]
    by_cases within : index - start < chunk.length
    · rw [if_pos within, if_pos (by omega)]
    · rw [if_neg within, if_neg (by omega), List.getElem?_drop]
      congr 1
      omega

theorem Filled.chunk {address : Nat → Option Nat} {accepted : Nat → Bool} {memory : Memory}
    {dest chunk result : List UInt8} {start size pa : Nat} {taken : Bool}
    (inside : start + size ≤ dest.length)
    (addresses : ∀ index, start ≤ index → index < start + size →
      address index = some (pa + (index - start)) ∧ accepted index = taken)
    (loaded : chunk = if taken then load memory pa size else (dest.drop start).take size)
    (rest : Filled address accepted memory (start + size)
      (dest.take start ++ chunk ++ dest.drop (start + size)) result) :
    Filled address accepted memory start dest result := by
  have chunkLength : chunk.length = size := by
    rw [loaded]
    cases taken with
    | true => exact load_length memory pa size
    | false =>
        rw [if_neg Bool.false_ne_true, List.length_take, List.length_drop]
        omega
  have spliced : ∀ index, (dest.take start ++ chunk ++ dest.drop (start + size))[index]? =
      if start ≤ index ∧ index < start + size then chunk[index - start]? else dest[index]? := by
    intro index
    have found := @splice_getElem? dest chunk start (by omega) index
    rw [chunkLength] at found
    exact found
  have length : (dest.take start ++ chunk ++ dest.drop (start + size)).length = dest.length := by
    rw [List.length_append, List.length_append, List.length_take, List.length_drop, chunkLength]
    omega
  refine ⟨rest.length.trans length, ?_, ?_⟩
  · intro index low within isAccepted
    by_cases here : index < start + size
    · obtain ⟨found, accepts⟩ := addresses index low here
      rw [isAccepted] at accepts
      refine ⟨_, found, ?_⟩
      rw [rest.kept index (Or.inl here), spliced, if_pos ⟨low, here⟩, loaded, ← accepts,
        if_pos rfl, load_getElem? memory pa (by omega)]
    · exact rest.loaded index (by omega) (by omega) isAccepted
  · intro index untouched
    have same : (dest.take start ++ chunk ++ dest.drop (start + size))[index]? =
        dest[index]? := by
      rw [spliced]
      by_cases here : start ≤ index ∧ index < start + size
      · obtain ⟨_, accepts⟩ := addresses index here.1 here.2
        have refused : taken = false := by
          cases untouched with
          | inl before => omega
          | inr refused => rw [← accepts, refused]
        rw [if_pos here, loaded, refused, if_neg Bool.false_ne_true,
          List.getElem?_take_of_lt (by omega), List.getElem?_drop]
        congr 1
        omega
      · rw [if_neg here]
    rw [← same]
    apply rest.kept
    cases untouched with
    | inl before => exact Or.inl (by omega)
    | inr refused => exact Or.inr refused

variable {Device : Type} {accelerator : HostAccelerator Device} {ram : Device → Memory}
  {accepts : Nat → Nat → Bool}

theorem copyChunksToHost_chunk {root va fuel start : Nat} {dest : List UInt8}
    (state : Spinner Device) (more : start < dest.length) :
    ∃ aspace, ReadOnly state.aspace_ aspace ∧
      (byteAddress state.aspace_ root va start = none →
        copyChunksToHost accelerator root (fuel + 1) (wrap32 (va + start)) start dest state =
          .error .badOptionalAccess { state with aspace_ := aspace }) ∧
      ∀ pa code chunk device, byteAddress state.aspace_ root va start = some pa →
        accelerator.download ((dest.drop start).take (chunkSize va dest.length start)) pa
          state.device = (code, chunk, device) →
        copyChunksToHost accelerator root (fuel + 1) (wrap32 (va + start)) start dest state =
          copyChunksToHost accelerator root fuel
            (wrap32 (va + (start + chunkSize va dest.length start)))
            (start + chunkSize va dest.length start)
            (dest.take start ++ chunk ++ dest.drop (start + chunkSize va dest.length start))
            { state with aspace_ := aspace, device := device } := by
  obtain ⟨aspace, lifted, kept⟩ := translate_lifted state root (wrap32 (va + start))
  have sizeIs : min (PAGE_SIZE - (va + start) % PAGE_SIZE) (dest.length - start) =
      chunkSize va dest.length start := rfl
  refine ⟨aspace, kept, ?_, ?_⟩
  · intro found
    rw [byteAddress] at found
    rw [copyChunksToHost, if_pos more, bind_ok lifted, found]
    rfl
  · intro pa code chunk device found answered
    rw [byteAddress] at found
    have downloaded : accelDownload accelerator
        ((dest.drop start).take (chunkSize va dest.length start)) pa
        { state with aspace_ := aspace } =
        .ok chunk { state with aspace_ := aspace, device := device } := by
      simp only [accelDownload, answered]
    have valued : (valueOf (some pa) : Action (Spinner Device) Nat)
      { state with aspace_ := aspace } = .ok pa { state with aspace_ := aspace } := rfl
    rw [copyChunksToHost, if_pos more, bind_ok lifted, found, pageOffset_wrap32, sizeIs,
      wrap32_wrap32_add, bind_ok valued, bind_ok downloaded]

/-- The loop from a chunk boundary on. -/
theorem copyChunksToHost_spec (backed : accelerator.Backed ram accepts) {root va size : Nat}
    {dest : List UInt8} {address : Nat → Option Nat} {fuel start : Nat} {state : Spinner Device}
    (sizeIs : dest.length = size) (addressIs : byteAddress state.aspace_ root va = address)
    (boundary : start < size → ChunkBoundary va start) (low : start ≤ size)
    (enough : size < start + fuel) :
    Ensures (copyChunksToHost accelerator root fuel (wrap32 (va + start)) start dest) state
      (fun result next => Transferred state next ∧ ram next.device = ram state.device ∧
        Filled address (chunkAccepted accepts address va size) (ram state.device) start dest
          result ∧
        ∀ index, start ≤ index → index < size → (address index).isSome)
      (fun _ next => Transferred state next ∧
        ∃ index, start ≤ index ∧ index < size ∧ address index = none) := by
  induction fuel generalizing start state dest with
  | zero => omega
  | succ fuel ih =>
      by_cases more : start < dest.length
      · obtain ⟨aspace, kept, unmapped, mapped⟩ :=
          @copyChunksToHost_chunk Device accelerator root va fuel start dest state more
        rw [addressIs] at unmapped mapped
        rw [sizeIs] at more mapped
        cases found : address start with
        | none =>
            exact ensures_of_throw (unmapped found)
              ⟨⟨rfl, kept⟩, start, Nat.le_refl _, more, found⟩
        | some pa =>
            have positive := @chunkSize_pos va size start more
            have inside := @chunkSize_le va size start more
            have addresses := @chunk_addresses va size start accepts address state.aspace_ root pa
              addressIs (boundary more) found
            have length : ((dest.drop start).take (chunkSize va size start)).length =
                chunkSize va size start := by
              rw [List.length_take, List.length_drop]
              omega
            generalize answered : accelerator.download
              ((dest.drop start).take (chunkSize va size start)) pa state.device = answer
            have loaded := backed.downloads ((dest.drop start).take (chunkSize va size start)) pa
              state.device
            have sameRam := backed.keeps ((dest.drop start).take (chunkSize va size start)) pa
              state.device
            rw [answered, length] at loaded
            rw [answered] at sameRam
            obtain ⟨code, chunk, device⟩ := answer
            change chunk = _ at loaded
            change ram device = ram state.device at sameRam
            have chunkLength : chunk.length = chunkSize va size start := by
              rw [loaded]
              split
              · exact load_length _ _ _
              · exact length
            have later := @ih (dest.take start ++ chunk ++ dest.drop (start + chunkSize va size start))
              (start + chunkSize va size start) { state with aspace_ := aspace, device := device }
              (by
                rw [List.length_append, List.length_append, List.length_take, List.length_drop,
                  chunkLength]
                omega)
              (by rw [← addressIs]; exact byteAddress_kept kept root va) nextBoundary inside
              (by omega)
            apply (later.of_eq (mapped pa code chunk device found answered)).weaken
            · intro result next outcome
              obtain ⟨transferred, memory, filled, rest⟩ := outcome
              change ram next.device = ram device at memory
              change Filled _ _ (ram device) _ _ _ at filled
              rw [sameRam] at memory filled
              exact ⟨⟨transferred.kcbs, kept.trans transferred.aspace⟩, memory,
                filled.chunk (by omega) addresses loaded,
                isSome_chunk (fun index low high => (addresses index low high).1) rest⟩
            · intro _ next outcome
              obtain ⟨transferred, index, after, within, missing⟩ := outcome
              exact ⟨⟨transferred.kcbs, kept.trans transferred.aspace⟩, index, by omega, within,
                missing⟩
      · rw [copyChunksToHost, if_neg more]
        apply ensures_pure
        refine ⟨⟨rfl, ReadOnly.refl _⟩, rfl, ⟨rfl, ?_, fun _ _ => rfl⟩, ?_⟩
        · intro index after within
          omega
        · intro index after within
          omega

theorem download_spec (backed : accelerator.Backed ram accepts) {state : Spinner Device}
    {kid va : Nat} {kcb : KernelControlBlock} (stored : state.kcbs_[kid]? = some (some kcb))
    (dest : List UInt8) :
    Ensures (download accelerator kid va dest) state
      (fun result next => Transferred state next ∧ ram next.device = ram state.device ∧
        Filled (byteAddress state.aspace_ kcb.top_pgtbl_pa va)
          (chunkAccepted accepts (byteAddress state.aspace_ kcb.top_pgtbl_pa va) va dest.length)
          (ram state.device) 0 dest result ∧
        ∀ index < dest.length, (byteAddress state.aspace_ kcb.top_pgtbl_pa va index).isSome)
      (fun _ next => Transferred state next ∧
        ∃ index < dest.length, byteAddress state.aspace_ kcb.top_pgtbl_pa va index = none) := by
  apply ensures_bind_of_run (kcbAt_run stored)
  apply (copyChunksToHost_spec backed rfl rfl (fun _ => Or.inl rfl) (Nat.zero_le _)
    (by omega : dest.length < 0 + (dest.length + 1))).weaken
  · intro result next outcome
    obtain ⟨transferred, memory, filled, mapped⟩ := outcome
    exact ⟨transferred, memory, filled, fun index inside => mapped index (Nat.zero_le _) inside⟩
  · intro _ next outcome
    obtain ⟨transferred, index, _, inside, unmapped⟩ := outcome
    exact ⟨transferred, index, inside, unmapped⟩

end Downloads

section Returning

variable {Device : Type} {accelerator : HostAccelerator Device} {ram : Device → Memory}
  {accepts : Nat → Nat → Bool} {state : Spinner Device} {kid va : Nat} {kcb : KernelControlBlock}
  (backed : accelerator.Backed ram accepts) (stored : state.kcbs_[kid]? = some (some kcb))

include backed stored

theorem upload_returns (content : List UInt8)
    (mapped : ∀ index < content.length,
      (byteAddress state.aspace_ kcb.top_pgtbl_pa va index).isSome) :
    ∃ next, upload accelerator kid va content state = .ok () next ∧ Transferred state next ∧
      Uploaded (byteAddress state.aspace_ kcb.top_pgtbl_pa va)
        (chunkAccepted accepts (byteAddress state.aspace_ kcb.top_pgtbl_pa va) va content.length)
        content 0 (ram state.device) (ram next.device) := by
  cases ensures_iff.mp (@upload_spec _ _ _ _ backed _ _ va _ stored content) with
  | inl returned =>
      obtain ⟨_, next, ran, transferred, uploaded, _⟩ := returned
      exact ⟨next, ran, transferred, uploaded⟩
  | inr thrown =>
      obtain ⟨_, _, _, _, index, inside, unmapped⟩ := thrown
      have found := mapped index inside
      rw [unmapped] at found
      cases found

theorem download_returns (dest : List UInt8)
    (mapped : ∀ index < dest.length,
      (byteAddress state.aspace_ kcb.top_pgtbl_pa va index).isSome) :
    ∃ result next, download accelerator kid va dest state = .ok result next ∧
      Transferred state next ∧ ram next.device = ram state.device ∧
      Filled (byteAddress state.aspace_ kcb.top_pgtbl_pa va)
        (chunkAccepted accepts (byteAddress state.aspace_ kcb.top_pgtbl_pa va) va dest.length)
        (ram state.device) 0 dest result := by
  cases ensures_iff.mp (@download_spec _ _ _ _ backed _ _ va _ stored dest) with
  | inl returned =>
      obtain ⟨result, next, ran, transferred, memory, filled, _⟩ := returned
      exact ⟨result, next, ran, transferred, memory, filled⟩
  | inr thrown =>
      obtain ⟨_, _, _, _, index, inside, unmapped⟩ := thrown
      have found := mapped index inside
      rw [unmapped] at found
      cases found

end Returning

end Espiral.Spinner
