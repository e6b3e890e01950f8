import Espiral.Mm.TableWork
import Espiral.Spinner.Launches

/-!
# Footprints of calls

A call for one kernel works on the table of that kernel. The bytes of the device
that it changes are those it is to write, each through the translation of its own
address, and a start also changes the nodes of the table, which it uploads.
-/

namespace Espiral.Spinner

set_option autoImplicit false

open AddressSpaceManager ByteMemory Contracts MachineWords

/-- The byte is in a frame that the table maps, or in one of its nodes. -/
inductive Touched (aspace : AddressSpaceManager) (root : Nat) (nodes : Bool) (addr : Nat) : Prop
  | page {va pa : Nat} (bound : va < 2 ^ 32) (found : aspace.translated root va = some pa)
      (frame : frameOf pa = frameOf addr) : Touched aspace root nodes addr
  | node {role : Role} (allowed : nodes = true) (node : NodeAt aspace (frameOf addr) role)
      (mine : role.table = root) : Touched aspace root nodes addr

/-- The byte has been written through the translation of its address, or it is in a node. -/
inductive Written (aspace : AddressSpaceManager) (root : Nat) (writes : Nat → Prop) (nodes : Bool)
    (addr : Nat) : Prop
  | byte {va : Nat} (bound : va < 2 ^ 32) (meant : writes va)
      (found : aspace.translated root va = some addr) : Written aspace root writes nodes addr
  | node {role : Role} (allowed : nodes = true) (node : NodeAt aspace (frameOf addr) role)
      (mine : role.table = root) : Written aspace root writes nodes addr

/-- The addresses from `va` on, which go on at zero after the last one. -/
def Spans (va size addr : Nat) : Prop := ∃ index < size, addr = wrap32 (va + index)

structure Owns (platform : Platform) (holes : HoleList) (kid root : Nat)
    (state : Spinner FlatDevice) : Prop where
  reached : Reached platform (MayMapItself platform holes) holes state.aspace_
  isLive : state.aspace_.Live root
  found : ∃ kcb heap, HasHeap state.kcbs_ kid kcb heap ∧ kcb.top_pgtbl_pa = root ∧
    heap.top_pgtbl_pa_ = root

structure Served (platform : Platform) (holes : HoleList) (kid root : Nat) (writes : Nat → Prop)
    (nodes : Bool) (start state : Spinner FlatDevice) : Prop where
  owns : Owns platform holes kid root state
  work : Worked platform (MayMapItself platform holes) holes root start.aspace_ state.aspace_
  slots : ∀ other, other ≠ kid → state.kcbs_[other]? = start.kcbs_[other]?
  path : ∀ block, state.kcbs_[kid]? = some (some block) →
    ∃ kcb, start.kcbs_[kid]? = some (some kcb) ∧ block.vxbin_path = kcb.vxbin_path
  bytes : ∀ addr, state.device.memory addr ≠ start.device.memory addr →
    Written state.aspace_ root writes nodes addr

/-- The bytes of the image of a kernel are among those that are to be written. -/
def WritesImage (files : Files) (kcbs : Kcbs) (kid : Nat) (writes : Nat → Prop) : Prop :=
  ∀ kcb content, kcbs[kid]? = some (some kcb) → files kcb.vxbin_path = some content →
    ∀ addr, Spans (imageStart content) (imageBytes content).length addr → writes addr

section Relation

variable {platform : Platform} {holes : HoleList} {kid root : Nat} {writes : Nat → Prop}
  {nodes : Bool}
  {start state next : Spinner FlatDevice} {aspace : AddressSpaceManager}

/-- What has been touched is in the table as long as it is there. -/
theorem Touched.kept {earlier : AddressSpaceManager} {identity : Nat → Prop} {table addr : Nat}
    (touched : Touched earlier root nodes addr) (reached : Reached platform identity holes earlier)
    (isLive : earlier.Live root) (work : Worked platform identity holes table earlier aspace) :
    Touched aspace root nodes addr := by
  cases touched with
  | page bound found frame => exact .page bound (work.translated reached isLive bound found) frame
  | node allowed node mine => exact .node allowed (node.kept work.entries) mine

theorem Written.kept {earlier : AddressSpaceManager} {identity : Nat → Prop} {table addr : Nat}
    (written : Written earlier root writes nodes addr)
    (reached : Reached platform identity holes earlier) (isLive : earlier.Live root)
    (work : Worked platform identity holes table earlier aspace) :
    Written aspace root writes nodes addr := by
  cases written with
  | byte bound meant found => exact .byte bound meant (work.translated reached isLive bound found)
  | node allowed node mine => exact .node allowed (node.kept work.entries) mine

theorem Written.touched {addr : Nat} (written : Written aspace root writes nodes addr) :
    Touched aspace root nodes addr := by
  cases written with
  | byte bound _ found => exact .page bound found rfl
  | node allowed node mine => exact .node allowed node mine

theorem Owns.served (owns : Owns platform holes kid root state)
    (work : Worked platform (MayMapItself platform holes) holes root start.aspace_ state.aspace_)
    (kcbs : state.kcbs_ = start.kcbs_) (memory : state.device.memory = start.device.memory) :
    Served platform holes kid root writes nodes start state where
  owns := owns
  work := work
  slots _ _ := by rw [kcbs]
  path block stored := ⟨block, kcbs ▸ stored, rfl⟩
  bytes addr changed := absurd (congrFun memory addr) changed

theorem Served.refl (owns : Owns platform holes kid root state) :
    Served platform holes kid root writes nodes state state :=
  owns.served (Worked.refl owns.reached) rfl rfl

theorem Served.trans (left : Served platform holes kid root writes nodes start state)
    (right : Served platform holes kid root writes nodes state next) :
    Served platform holes kid root writes nodes start next where
  owns := right.owns
  work := left.work.trans right.work
  slots other different := (right.slots other different).trans (left.slots other different)
  path block stored := by
    obtain ⟨between, middle, same⟩ := right.path block stored
    obtain ⟨kcb, first, sameFirst⟩ := left.path between middle
    exact ⟨kcb, first, same.trans sameFirst⟩
  bytes addr changed := by
    by_cases now : next.device.memory addr = state.device.memory addr
    · rw [now] at changed
      exact (left.bytes addr changed).kept left.owns.reached left.owns.isLive right.work
    · exact right.bytes addr now

theorem Owns.works (owns : Owns platform holes kid root state)
    (work : Worked platform (MayMapItself platform holes) holes root state.aspace_ aspace)
    (same : next = { state with aspace_ := aspace }) :
    Served platform holes kid root writes nodes state next := by
  rw [same]
  exact Owns.served ⟨work.reached, work.entries.live root owns.isLive, owns.found⟩ work rfl rfl

theorem Owns.reads (owns : Owns platform holes kid root state)
    (same : SameView state.aspace_ aspace) :
    Served platform holes kid root writes nodes state { state with aspace_ := aspace } :=
  owns.works (owns.reached.worked same) rfl

theorem keeps_served {Value : Type} {action : Action (Spinner FlatDevice) Value}
    (serves : ∀ state, Owns platform holes kid root state →
      Ensures action state (fun _ next => Served platform holes kid root writes nodes state next)
        (fun _ next => Served platform holes kid root writes nodes state next)) :
    Keeps (Served platform holes kid root writes nodes start) action := by
  intro state served
  apply (serves state served.owns).weaken
  · exact fun _ _ more => served.trans more
  · exact fun _ _ more => served.trans more

theorem kcbAt_served {Value : Type}
    {continuation : KernelControlBlock → Action (Spinner FlatDevice) Value}
    (keeps : ∀ kcb, kcb.top_pgtbl_pa = root →
      (∃ heap, kcb.heap = some heap ∧ heap.top_pgtbl_pa_ = root) →
      (∃ first, start.kcbs_[kid]? = some (some first) ∧ kcb.vxbin_path = first.vxbin_path) →
      Keeps (Served platform holes kid root writes nodes start) (continuation kcb)) :
    Keeps (Served platform holes kid root writes nodes start) (kcbAt kid >>= continuation) := by
  intro state served
  obtain ⟨kcb, heap, found, rootIs, heapRoot⟩ := served.owns.found
  exact ensures_bind_of_run (kcbAt_run found.stored)
    (keeps kcb rootIs ⟨heap, found.has, heapRoot⟩ (served.path kcb found.stored) state served)

theorem onAddressSpace_served {Value : Type} {action : Action AddressSpaceManager Value}
    (keeps : ∀ start : AddressSpaceManager, start.Live root →
      Keeps (Worked platform (MayMapItself platform holes) holes root start) action) :
    Keeps (Served platform holes kid root writes nodes start) (onAddressSpace action) := by
  apply keeps_served
  intro state owns
  apply (onAddressSpace_ensures (keeps _ owns.isLive _ (Worked.refl owns.reached))).weaken
  · exact fun _ _ outcome => owns.works outcome.1 outcome.2
  · exact fun _ _ outcome => owns.works outcome.1 outcome.2

end Relation

section Copying

variable {platform : Platform} {holes : HoleList} {kid root : Nat} {writes : Nat → Prop}
  {nodes : Bool}
  {start state next : Spinner FlatDevice} {caps : Caps → Option Nat}

theorem translated_chunk {aspace : AddressSpaceManager} {va pa index : Nat}
    (found : aspace.translated root va = some pa) (inside : va % 4096 + index < 4096) :
    aspace.translated root (va + index) = some (pa + index) := by
  obtain ⟨offset, others⟩ := translated_page found (by omega : (va + index) / 4096 = va / 4096)
  rw [others, Option.some.injEq]
  omega

theorem Owns.uploads (owns : Owns platform holes kid root state) {va pa : Nat} (bound : va < 2 ^ 32)
    (found : state.aspace_.translated root va = some pa) {chunk : List UInt8}
    (inside : va % 4096 + chunk.length ≤ 4096)
    (meant : ∀ index < chunk.length, writes (va + index)) :
    Served platform holes kid root writes nodes state
      { state with device := { state.device with memory := store state.device.memory pa chunk } } := by
  refine ⟨⟨owns.reached, owns.isLive, owns.found⟩, Worked.refl owns.reached, fun _ _ => rfl,
    fun block stored => ⟨block, stored, rfl⟩, ?_⟩
  intro addr changed
  by_cases outside : addr < pa ∨ pa + chunk.length ≤ addr
  · exact absurd (store_outside outside) changed
  · have here : addr - pa < chunk.length := by omega
    have address := translated_chunk found (by omega : va % 4096 + (addr - pa) < 4096)
    rw [show pa + (addr - pa) = addr by omega] at address
    exact .byte (by omega) (meant _ here) address

theorem page_offset (va : Nat) : va &&& (PAGE_SIZE - 1) = va % 4096 :=
  Nat.and_two_pow_sub_one_eq_mod va 12

theorem copyChunksToDev_served (content : List UInt8) {fuel va offset : Nat} (bound : va < 2 ^ 32)
    (meant : ∀ addr, Spans va (content.length - offset) addr → writes addr) :
    Keeps (Served platform holes kid root writes nodes start)
      (copyChunksToDev (flatAccelerator caps) root content fuel va offset) := by
  induction fuel generalizing va offset with
  | zero => exact keeps_throw _
  | succ fuel ih =>
      intro state served
      rw [copyChunksToDev]
      by_cases more : offset < content.length
      · rw [if_pos more]
        obtain ⟨aspace, lifted, kept⟩ := translate_lifted state root va
        have read := served.trans (served.owns.reads kept.sameView)
        apply ensures_bind_of_run lifted
        cases found : state.aspace_.translated root va with
        | none => exact Ensures.bind (ensures_throw read)
        | some pa =>
            have valued : (valueOf (some pa) : Action (Spinner FlatDevice) Nat)
              { state with aspace_ := aspace } = .ok pa { state with aspace_ := aspace } := rfl
            apply ensures_bind_of_run valued
            have foundNow : aspace.translated root va = some pa :=
              (translated_bytes kept.bytes root va).trans found
            have small : va % 4096 < 4096 := Nat.mod_lt _ (by decide)
            have length : ((content.drop offset).take
                (min (PAGE_SIZE - (va &&& (PAGE_SIZE - 1))) (content.length - offset))).length =
                min (4096 - va % 4096) (content.length - offset) := by
              rw [List.length_take, List.length_drop, page_offset]
              unfold PAGE_SIZE
              omega
            have uploaded := read.trans (@Owns.uploads _ _ _ _ writes nodes
              { state with aspace_ := aspace } read.owns va pa bound foundNow
              ((content.drop offset).take
                (min (PAGE_SIZE - (va &&& (PAGE_SIZE - 1))) (content.length - offset)))
              (by omega) (by
                intro index inside
                refine meant _ ⟨index, by omega, ?_⟩
                rw [wrap32_of_lt (by omega)]))
            have ran : accelUpload (flatAccelerator caps) pa ((content.drop offset).take
                  (min (PAGE_SIZE - (va &&& (PAGE_SIZE - 1))) (content.length - offset)))
                { state with aspace_ := aspace } = .ok () _ := rfl
            apply ensures_bind_of_run ran
            apply ih (wrap32_lt _) _ _ uploaded
            -- the chunks that are left are the end of the range
            rintro addr ⟨index, inside, rfl⟩
            rw [page_offset] at inside ⊢
            refine meant _ ⟨min (PAGE_SIZE - va % 4096) (content.length - offset) + index, ?_, ?_⟩
            · unfold PAGE_SIZE at inside ⊢
              omega
            · unfold wrap32
              omega
      · rw [if_neg more]
        exact ensures_pure served

theorem copyHostToDev_served (content : List UInt8) {va : Nat} (bound : va < 2 ^ 32)
    (meant : ∀ addr, Spans va content.length addr → writes addr) :
    Keeps (Served platform holes kid root writes nodes start)
      (copyHostToDev (flatAccelerator caps) kid va content) := by
  apply kcbAt_served
  intro kcb rootIs _ _
  rw [rootIs]
  exact copyChunksToDev_served content bound meant

theorem copyChunksToHost_served {fuel va offset : Nat} {dest : List UInt8} :
    Keeps (Served platform holes kid root writes nodes start)
      (copyChunksToHost (flatAccelerator caps) root fuel va offset dest) := by
  induction fuel generalizing va offset dest with
  | zero => exact keeps_throw _
  | succ fuel ih =>
      intro state served
      rw [copyChunksToHost]
      by_cases more : offset < dest.length
      · rw [if_pos more]
        obtain ⟨aspace, lifted, kept⟩ := translate_lifted state root va
        have read := served.trans (served.owns.reads kept.sameView)
        apply ensures_bind_of_run lifted
        cases state.aspace_.translated root va with
        | none => exact Ensures.bind (ensures_throw read)
        | some pa =>
            have valued : (valueOf (some pa) : Action (Spinner FlatDevice) Nat)
              { state with aspace_ := aspace } = .ok pa { state with aspace_ := aspace } := rfl
            apply ensures_bind_of_run valued
            have ran : accelDownload (flatAccelerator caps) ((dest.drop offset).take
                  (min (PAGE_SIZE - (va &&& (PAGE_SIZE - 1))) (dest.length - offset))) pa
                { state with aspace_ := aspace } = .ok _ { state with aspace_ := aspace } := rfl
            apply ensures_bind_of_run ran
            exact ih _ read
      · rw [if_neg more]
        exact ensures_pure served

theorem download_served (va : Nat) (dest : List UInt8) :
    Keeps (Served platform holes kid root writes nodes start)
      (Spinner.download (flatAccelerator caps) kid va dest) := by
  apply kcbAt_served
  intro kcb rootIs _ _
  rw [rootIs]
  exact copyChunksToHost_served

end Copying

section Heap

variable {platform : Platform} {holes : HoleList} {kid root : Nat} {writes : Nat → Prop}
  {nodes : Bool}
  {start : Spinner FlatDevice} {caps : Caps → Option Nat}

/-- A block of the kernel is replaced by one with the same table and the same file. -/
theorem Owns.stores {state : Spinner FlatDevice} (owns : Owns platform holes kid root state)
    {old block : KernelControlBlock} (stored : state.kcbs_[kid]? = some (some old))
    (path : block.vxbin_path = old.vxbin_path) (rootIs : block.top_pgtbl_pa = root)
    (heapRoot : ∃ heap, block.heap = some heap ∧ heap.top_pgtbl_pa_ = root) :
    Served platform holes kid root writes nodes state
      { state with kcbs_ := state.kcbs_.set kid (some block) } := by
  obtain ⟨kcb, heap, found, _⟩ := owns.found
  obtain ⟨blockHeap, has, blockRoot⟩ := heapRoot
  refine ⟨⟨owns.reached, owns.isLive, block, blockHeap, found.set_self has, rootIs, blockRoot⟩,
    Worked.refl owns.reached, ?_, ?_, fun _ changed => absurd rfl changed⟩
  · intro other different
    exact List.getElem?_set_ne (Ne.symm different)
  · intro next now
    rw [(found.set_self has).stored, Option.some.injEq, Option.some.injEq] at now
    exact ⟨old, stored, now ▸ path⟩

theorem onHeap_served (size : Nat) {state : Spinner FlatDevice}
    (served : Served platform holes kid root writes nodes start state) :
    Ensures (onHeap kid (HeapManager.allocate size)) state
      (fun result next => Served platform holes kid root writes nodes start next ∧
        ∀ va, result = some va → ∃ kcb heap, HasHeap state.kcbs_ kid kcb heap ∧
          va = wrap32 heap.vm_allocator_.nextAddress_)
      (fun _ next => Served platform holes kid root writes nodes start next) := by
  have owns := served.owns
  obtain ⟨kcb, heap, found, rootIs, heapRoot⟩ := owns.found
  have heapKeeps := @HeapManager.allocateWithin_keeps { heap := heap, aspace_ := state.aspace_ }
    (Worked platform (MayMapItself platform holes) holes root state.aspace_) root
    HeapManager.allocateDepth size (by
      intro va aspace bound kept
      apply keeps_worked owns.isLive _ aspace kept
      intro now reached isLive
      exact allocateOneVmPage_worked reached isLive bound (by decide))
    heapRoot (Worked.refl owns.reached)
  have finish : ∀ context : HeapContext, context.heap.top_pgtbl_pa_ = root ∧
      Worked platform (MayMapItself platform holes) holes root state.aspace_ context.aspace_ →
      Served platform holes kid root writes nodes start { state with
        kcbs_ := state.kcbs_.set kid (some { kcb with heap := some context.heap })
        aspace_ := context.aspace_ } := by
    intro context kept
    have worked : Served platform holes kid root writes nodes start { state with aspace_ := context.aspace_ } :=
      served.trans (owns.works kept.2 rfl)
    exact worked.trans (worked.owns.stores found.stored rfl rootIs ⟨context.heap, rfl, kept.1⟩)
  have returns := HeapManager.allocateWithin_va HeapManager.allocateDepth size
    { heap := heap, aspace_ := state.aspace_ }
  apply (onHeap_ensures found.stored found.has (heapKeeps.both returns)).weaken
  · rintro result next ⟨context, ⟨⟨kept, _⟩, address⟩, nextIs⟩
    rw [nextIs]
    exact ⟨finish context kept, fun va same => ⟨kcb, heap, found, address va same⟩⟩
  · rintro _ next ⟨context, ⟨kept, _⟩, nextIs⟩
    rw [nextIs]
    exact finish context kept

theorem allocateHeap_served (size : Nat) :
    Keeps (Served platform holes kid root writes nodes start) (Spinner.allocateHeap kid size) := by
  intro state served
  rw [Spinner.allocateHeap]
  apply Ensures.bind
  apply (onHeap_served size served).weaken
  · intro result next outcome
    exact valueOf_keeps result next outcome.1
  · exact fun _ _ kept => kept

theorem uploadArgs_served (args : List UInt8) {state : Spinner FlatDevice}
    (owns : Owns platform holes kid root state)
    (meant : ∀ kcb heap, HasHeap state.kcbs_ kid kcb heap →
      ∀ addr, Spans heap.vm_allocator_.nextAddress_ args.length addr → writes addr) :
    Ensures (Spinner.uploadArgs (flatAccelerator caps) kid args) state
      (fun _ next => Served platform holes kid root writes nodes state next)
      (fun _ next => Served platform holes kid root writes nodes state next) := by
  rw [Spinner.uploadArgs]
  apply Ensures.bind
  apply (onHeap_served args.length (Served.refl owns)).weaken
  · rintro result next ⟨kept, address⟩
    cases result with
    | none => exact Ensures.bind (ensures_throw kept)
    | some args_va =>
        obtain ⟨kcb, heap, found, vaIs⟩ := address args_va rfl
        have valued : (valueOf (some args_va) : Action (Spinner FlatDevice) Nat) next =
          .ok args_va next := rfl
        apply ensures_bind_of_run valued
        obtain ⟨block, blockHeap, now, rootIs, heapRoot⟩ := kept.owns.found
        apply ensures_bind_of_run (kcbAt_run now.stored)
        apply Ensures.bind
        have narrow : args_va < 2 ^ 32 := vaIs ▸ wrap32_lt _
        apply (setKcb_ensures kid (some { block with args_va := args_va }) next).weaken
        · intro _ after nextIs
          have stored : Served platform holes kid root writes nodes state after := by
            rw [nextIs]
            exact kept.trans (kept.owns.stores now.stored rfl rootIs ⟨blockHeap, now.has, heapRoot⟩)
          apply copyHostToDev_served args narrow _ after stored
          rintro addr ⟨index, inside, addrIs⟩
          refine meant kcb heap found addr ⟨index, inside, ?_⟩
          rw [addrIs, vaIs]
          unfold wrap32
          omega
        · intro _ after nextIs
          rw [nextIs]
          exact kept
  · exact fun _ _ kept => kept

end Heap

section Starting

variable {platform : Platform} {holes : HoleList} {kid root : Nat} {writes : Nat → Prop}
  {nodes : Bool}
  {start : Spinner FlatDevice} {caps : Caps → Option Nat} {files : Files}

theorem allocateVxbinSegments_served :
    Keeps (Served platform holes kid root writes nodes start) (allocateVxbinSegments kid) := by
  apply kcbAt_served
  intro kcb rootIs _ _
  rw [rootIs]
  apply onAddressSpace_served
  intro aspace isLive
  apply mapVxbinSegments_keeps
  · intro _ _ _ readable
    exact allocateVmPages_worked isLive readable
  · intro va bound
    apply keeps_worked isLive
    intro now reached liveNow
    exact allocateOneVmPage_worked reached liveNow bound (by decide)

theorem allocateUserStack_served : Keeps (Served platform holes kid root writes nodes start)
    (allocateUserStack platform (flatAccelerator caps) kid) := by
  apply kcbAt_served
  intro kcb rootIs _ _
  apply keeps_ite
  · intro _
    exact keeps_throw _
  · intro _
    rw [rootIs]
    apply onAddressSpace_served
    intro aspace isLive
    exact allocateVmPages_worked isLive (by decide)

section Identity

variable (itself : ∀ page, MapsItself platform ((caps .localMemSize).getD 0) page →
  MayMapItself platform holes page)

include itself

theorem allocateLocalMemory_served : Keeps (Served platform holes kid root writes nodes start)
    (allocateLocalMemory platform (flatAccelerator caps) kid) := by
  apply kcbAt_served
  intro kcb rootIs _ _
  apply keeps_ite
  · intro _
    exact keeps_pure _
  · intro _
    rw [rootIs]
    apply onAddressSpace_served
    intro aspace isLive
    apply unsafeMapIdentity_worked isLive (by decide)
    intro offset inside aligned
    exact itself _ ⟨offset, aligned, Or.inl ⟨inside, rfl⟩⟩

theorem allocateIoPages_served : Keeps (Served platform holes kid root writes nodes start)
    (allocateIoPages platform kid) := by
  apply kcbAt_served
  intro kcb rootIs _ _
  rw [rootIs]
  apply onAddressSpace_served
  intro aspace isLive
  apply unsafeMapIdentity_worked isLive (by decide)
  intro offset inside aligned
  exact itself _ ⟨offset, aligned, Or.inr ⟨inside, rfl⟩⟩

theorem mapKernel_served : Keeps (Served platform holes kid root writes nodes start)
    (mapKernel platform (flatAccelerator caps) kid) := by
  rw [mapKernel]
  apply allocateVxbinSegments_served.bind
  intro _
  apply (allocateLocalMemory_served itself).bind
  intro _
  apply allocateUserStack_served.bind
  intro _
  exact allocateIoPages_served itself

end Identity

theorem uploadVxbin_served (image : WritesImage files start.kcbs_ kid writes) :
    Keeps (Served platform holes kid root writes nodes start)
      (uploadVxbin (flatAccelerator caps) files kid) := by
  apply kcbAt_served
  rintro kcb _ _ ⟨first, stored, path⟩ state served
  cases onDisk : files kcb.vxbin_path with
  | none =>
      simp only [readVxbin, onDisk]
      exact Ensures.bind (ensures_throw served)
  | some content =>
      apply ensures_bind_of_run (readVxbin_run onDisk)
      by_cases short : content.length < 16
      · rw [vxbinHeader, if_pos short]
        exact Ensures.bind (ensures_throw served)
      · apply ensures_bind_of_run (vxbinHeader_run (Nat.le_of_not_lt short))
        apply copyHostToDev_served _ (wrap32_lt _) _ state served
        rintro addr ⟨index, inside, addrIs⟩
        refine image first content stored (path ▸ onDisk) addr ⟨index, inside, ?_⟩
        rw [addrIs]
        unfold imageStart wrap32
        omega

theorem nodeAt_of_isNode {aspace : AddressSpaceManager} {node : Nat} (isLive : aspace.Live root)
    (isNode : IsNode aspace.view root node) :
    ∃ role, NodeAt aspace node role ∧ role.table = root := by
  rcases isNode with top | ⟨index, small, valid, target⟩
  · rw [top]
    exact ⟨_, NodeAt.root isLive, rfl⟩
  · rw [← target]
    exact ⟨_, NodeAt.node isLive small valid, rfl⟩

theorem uploadPageTable_served {order : SparseScratchpad → SparseScratchpad}
    (permutes : ∀ dump, (order dump).Perm dump) :
    Keeps (Served platform holes kid root writes true start)
      (uploadPageTable (flatAccelerator caps) order kid) := by
  apply keeps_served
  intro state owns
  obtain ⟨kcb, heap, found, rootIs, heapRoot⟩ := owns.found
  obtain ⟨owner, owned⟩ := owns.reached.owned
  have shaped : Shaped state.aspace_.view kcb.top_pgtbl_pa := by
    rw [rootIs]
    exact owned.shaped owns.isLive
  apply (uploadPageTable_spec found.stored shaped permutes).weaken
  · rintro _ next ⟨kcbs, same, dump, dumped, memory⟩
    rw [rootIs] at dumped
    have worked : Worked platform (MayMapItself platform holes) holes root state.aspace_
      next.aspace_ := owns.reached.worked same
    refine ⟨⟨worked.reached, worked.entries.live root owns.isLive, kcb, heap, ?_, rootIs, heapRoot⟩,
      worked, fun other _ => by rw [kcbs], fun block stored => ⟨block, kcbs ▸ stored, rfl⟩, ?_⟩
    · exact ⟨kcbs ▸ found.stored, found.has⟩
    · intro addr changed
      rw [memory] at changed
      by_contra away
      apply changed
      apply dumped.stored_outside
      intro node isNode
      obtain ⟨role, nodeAt, mine⟩ := nodeAt_of_isNode owns.isLive isNode
      have aligned := (nodeAt.aligned owned.separated).1
      by_contra inside
      have frame : frameOf addr = node := by
        unfold frameOf
        omega
      rw [← frame] at nodeAt
      exact away (.node rfl (nodeAt.kept worked.entries) mine)
  · exact fun _ _ impossible => impossible.elim

theorem listMapping_served : Keeps (Served platform holes kid root writes nodes start) (listMapping kid) := by
  apply keeps_served
  intro state owns
  obtain ⟨kcb, heap, found, rootIs, heapRoot⟩ := owns.found
  obtain ⟨owner, owned⟩ := owns.reached.owned
  have shaped : Shaped state.aspace_.view kcb.top_pgtbl_pa := by
    rw [rootIs]
    exact owned.shaped owns.isLive
  apply (listMapping_reads found.stored shaped).weaken
  · rintro _ next ⟨same, nextIs⟩
    rw [nextIs]
    exact owns.reads same
  · exact fun _ _ impossible => impossible.elim

theorem accelStart_served :
    Keeps (Served platform holes kid root writes nodes start) (accelStart (flatAccelerator caps) kid) := by
  apply kcbAt_served
  intro kcb _ _ _
  apply keeps_served
  intro state owns
  have still : Owns platform holes kid root { state with
      device := ((flatAccelerator caps).start kcb.start_pc_va kcb.args_va kcb.top_pgtbl_pa
        state.device).2 } := ⟨owns.reached, owns.isLive, owns.found⟩
  exact ensures_of_run rfl (still.served (Worked.refl owns.reached) rfl rfl)

def launchKernel (accelerator : HostAccelerator FlatDevice)
    (order : SparseScratchpad → SparseScratchpad) (files : Files) (kid : Nat) :
    Action (Spinner FlatDevice) Unit := do
  uploadVxbin accelerator files kid
  uploadPageTable accelerator order kid
  listMapping kid
  accelStart accelerator kid

theorem startKernel_launches (platform : Platform) (accelerator : HostAccelerator FlatDevice)
    (order : SparseScratchpad → SparseScratchpad) (files : Files) (kid : Nat) :
    startKernel platform accelerator order files kid =
      (do
        mapKernel platform accelerator kid
        launchKernel accelerator order files kid) :=
  startKernel_phases platform accelerator order files kid

section Order

variable {order : SparseScratchpad → SparseScratchpad} (permutes : ∀ dump, (order dump).Perm dump)

include permutes

theorem launchKernel_served (image : WritesImage files start.kcbs_ kid writes) :
    Keeps (Served platform holes kid root writes true start)
      (launchKernel (flatAccelerator caps) order files kid) := by
  apply (uploadVxbin_served image).bind
  intro _
  apply (uploadPageTable_served permutes).bind
  intro _
  apply listMapping_served.bind
  intro _
  exact accelStart_served

theorem startKernel_served
    (itself : ∀ page, MapsItself platform ((caps .localMemSize).getD 0) page →
      MayMapItself platform holes page)
    (image : WritesImage files start.kcbs_ kid writes) :
    Keeps (Served platform holes kid root writes true start)
      (Spinner.startKernel platform (flatAccelerator caps) order files kid) := by
  rw [startKernel_launches]
  exact (mapKernel_served itself).bind fun _ => launchKernel_served permutes image

end Order

end Starting

end Espiral.Spinner
