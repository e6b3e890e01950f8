import Espiral.Mm.HeapFrames
import Espiral.Spinner.WrittenBytes

/-!
# Memory from the heaps

A heap gives its kernel memory: every byte of a buffer is one byte of the device,
and that is a byte of no other buffer, of whichever kernel. This holds in all
runs, with starts and with calls that throw halfway.
-/

namespace Espiral.Spinner

set_option autoImplicit false

open AddressSpaceManager Contracts MachineWords Traces

def SpinnerCall.request : SpinnerCall → Option (Nat × Nat)
  | .allocateHeap kid size => some (kid, size)
  | .uploadArgs kid args => some (kid, args.length)
  | _ => none

/-- Requests are for at least one byte, and for less than half of what a size can be. -/
def SpinnerCall.Sized (call : SpinnerCall) : Prop :=
  ∀ kid size, call.request = some (kid, size) → 0 < size ∧ size < 2 ^ 63

/-- A call that is sized, and in which no second frame of a request is reported as a hole. -/
def SizedCallStep (platform : Platform) (caps : Caps → Option Nat) (files : Files)
    (state : Spinner FlatDevice) (call : SpinnerCall) (next : Spinner FlatDevice) : Prop :=
  MetCallStep platform caps files state call next ∧ call.Sized

def HeapAsked (size : Nat) (heap : HeapManager) (aspace : AddressSpaceManager) (last : HeapContext) :
    Prop :=
  (∃ value, HeapManager.allocate size { heap := heap, aspace_ := aspace } = .ok value last) ∨
    ∃ fault, HeapManager.allocate size { heap := heap, aspace_ := aspace } = .error fault last

inductive HeapFate (state next : Spinner FlatDevice) (call : SpinnerCall) (kid : Nat)
    (heap : HeapManager) : Prop
  | kept {kcb : KernelControlBlock} (found : HasHeap state.kcbs_ kid kcb heap)
      (notFreed : call ≠ .freeKernel kid)
  | fresh {root base_va : Nat} (vacant : ¬Finished state.kcbs_ kid)
      (isNew : heap = HeapManager.new root base_va) (narrow : base_va < 2 ^ 32)
      (aligned : 4096 ∣ base_va)
  | asked {kcb : KernelControlBlock} {old : HeapManager} {size : Nat} {context : HeapContext}
      (found : HasHeap state.kcbs_ kid kcb old) (request : call.request = some (kid, size))
      (outcome : HeapAsked size old state.aspace_ context) (same : heap = context.heap)
      (view : SameView context.aspace_ next.aspace_)

section Fates

variable {platform : Platform} {holes : HoleList} {caps : Caps → Option Nat} {files : Files}
  {state next : Spinner FlatDevice} {call : SpinnerCall} {kid : Nat} {kcb : KernelControlBlock}
  {heap : HeapManager}

def HeapStored (state : Spinner FlatDevice) (kid : Nat) (context : HeapContext)
    (next : Spinner FlatDevice) : Prop :=
  ∃ kcb, next.kcbs_ = state.kcbs_.set kid (some kcb) ∧ kcb.heap = some context.heap ∧
    SameView context.aspace_ next.aspace_

theorem onHeap_grown (found : HasHeap state.kcbs_ kid kcb heap) (size : Nat) :
    Ensures (onHeap kid (HeapManager.allocate size)) state
      (fun value next => ∃ context, HeapManager.allocate size
          { heap := heap, aspace_ := state.aspace_ } = .ok value context ∧
        next = { state with
          kcbs_ := state.kcbs_.set kid (some { kcb with heap := some context.heap })
          aspace_ := context.aspace_ })
      (fun fault next => ∃ context, HeapManager.allocate size
          { heap := heap, aspace_ := state.aspace_ } = .error fault context ∧
        next = { state with
          kcbs_ := state.kcbs_.set kid (some { kcb with heap := some context.heap })
          aspace_ := context.aspace_ }) := by
  apply onHeap_ensures found.stored found.has
  unfold Ensures
  cases HeapManager.allocate size { heap := heap, aspace_ := state.aspace_ } with
  | ok value context => rfl
  | error fault context => rfl

theorem allocateHeap_grown (found : HasHeap state.kcbs_ kid kcb heap) (size : Nat) :
    Ensures (Spinner.allocateHeap kid size) state
      (fun va next => ∃ context, HeapManager.allocate size
          { heap := heap, aspace_ := state.aspace_ } = .ok (some va) context ∧
        HeapStored state kid context next)
      (fun _ next => ∃ context, HeapAsked size heap state.aspace_ context ∧
        HeapStored state kid context next) := by
  apply Ensures.bind
  apply (onHeap_grown found size).weaken
  · rintro result next ⟨context, ran, nextIs⟩
    have grown : HeapStored state kid context next := by
      rw [nextIs]
      exact ⟨_, rfl, rfl, SameView.refl _⟩
    cases result with
    | none => exact ensures_throw ⟨context, Or.inl ⟨none, ran⟩, grown⟩
    | some va => exact ensures_pure ⟨context, ran, grown⟩
  · rintro fault next ⟨context, ran, nextIs⟩
    refine ⟨context, Or.inr ⟨fault, ran⟩, ?_⟩
    rw [nextIs]
    exact ⟨_, rfl, rfl, SameView.refl _⟩

theorem uploadArgs_grown (found : HasHeap state.kcbs_ kid kcb heap) (args : List UInt8) :
    Ensures (Spinner.uploadArgs (flatAccelerator caps) kid args) state
      (fun _ next => ∃ context, HeapAsked args.length heap state.aspace_ context ∧
        HeapStored state kid context next)
      (fun _ next => ∃ context, HeapAsked args.length heap state.aspace_ context ∧
        HeapStored state kid context next) := by
  rw [Spinner.uploadArgs]
  apply Ensures.bind
  apply (onHeap_grown found args.length).weaken
  · rintro result next ⟨context, ran, nextIs⟩
    have asked : HeapAsked args.length heap state.aspace_ context := Or.inl ⟨result, ran⟩
    cases result with
    | none =>
        refine Ensures.bind (ensures_throw ⟨context, asked, ?_⟩)
        rw [nextIs]
        exact ⟨_, rfl, rfl, SameView.refl _⟩
    | some args_va =>
        have narrow : args_va < 2 ^ 32 := by
          have value := (HeapManager.allocateWithin_va HeapManager.allocateDepth args.length
            { heap := heap, aspace_ := state.aspace_ }).of_ok ran args_va rfl
          rw [value]
          exact wrap32_lt _
        have valued : (valueOf (some args_va) : Action (Spinner FlatDevice) Nat) next =
          .ok args_va next := rfl
        apply ensures_bind_of_run valued
        have now := found.set_self (rfl : ({ kcb with heap := some context.heap } :
          KernelControlBlock).heap = some context.heap)
        have stored : next.kcbs_[kid]? = some (some { kcb with heap := some context.heap }) := by
          rw [nextIs]
          exact now.stored
        apply ensures_bind_of_run (kcbAt_run stored)
        apply Ensures.bind
        apply (setKcb_ensures kid _ next).weaken
        · intro _ written writtenIs
          have again : written.kcbs_[kid]? = some (some
              { kcb with heap := some context.heap, args_va := args_va }) := by
            rw [writtenIs]
            exact List.getElem?_set_self (List.getElem?_eq_some_iff.mp stored).1
          have sameUpload : copyHostToDev (flatAccelerator caps) kid args_va args =
              Spinner.upload (flatAccelerator caps) kid args_va args := by
            rw [Spinner.upload, wrap32_of_lt narrow]
          rw [sameUpload]
          have finish : ∀ last, Transferred written last → ∃ context,
              HeapAsked args.length heap state.aspace_ context ∧ HeapStored state kid context last := by
            intro last transferred
            refine ⟨context, asked, { kcb with heap := some context.heap, args_va := args_va }, ?_,
              rfl, ?_⟩
            · rw [transferred.kcbs, writtenIs, nextIs]
              exact List.set_set _
            · have view := transferred.aspace.sameView
              rw [writtenIs, nextIs] at view
              exact view
          apply (upload_spec (flatAccelerator_backed caps) again args).weaken
          · exact fun _ last outcome => finish last outcome.1
          · exact fun _ last outcome => finish last outcome.1
        · intro _ last same
          rw [same, nextIs]
          exact ⟨context, asked, _, rfl, rfl, SameView.refl _⟩
  · rintro fault next ⟨context, ran, nextIs⟩
    refine ⟨context, Or.inr ⟨fault, ran⟩, ?_⟩
    rw [nextIs]
    exact ⟨_, rfl, rfl, SameView.refl _⟩

theorem HeapStored.fate {size : Nat} {context : HeapContext} {other : Nat}
    {otherKcb : KernelControlBlock} {otherHeap : HeapManager}
    (stored : HeapStored state kid context next) (outcome : HeapAsked size heap state.aspace_ context)
    (found : HasHeap state.kcbs_ kid kcb heap) (request : call.request = some (kid, size))
    (notFreed : call ≠ .freeKernel other) (now : HasHeap next.kcbs_ other otherKcb otherHeap) :
    HeapFate state next call other otherHeap := by
  obtain ⟨block, kcbs, has, view⟩ := stored
  rw [kcbs] at now
  cases now.of_set with
  | inl here =>
      have same := now.has
      rw [here.2, has, Option.some.injEq] at same
      rw [here.1]
      exact .asked found request outcome same.symm view
  | inr away => exact .kept away.2 notFreed

/-- A heap after a call is one from before, or new, or it has been asked. -/
theorem CallStep.heapFate (step : CallStep platform caps files state call next)
    (serving : Serving platform holes files state)
    (tabled : ∃ table, Tabled table state.kcbs_ state.aspace_)
    (itself : ∀ page, MapsItself platform ((caps .localMemSize).getD 0) page →
      MayMapItself platform holes page) (now : HasHeap next.kcbs_ kid kcb heap) :
    HeapFate state next call kid heap := by
  have done := step.done serving itself
  obtain ⟨admissible, outcome⟩ := step
  have unchanged : next.kcbs_ = state.kcbs_ → call ≠ .freeKernel kid →
      HeapFate state next call kid heap := fun same notFreed => .kept (same ▸ now) notFreed
  cases call with
  | allocateKernel vxbin_path =>
      obtain ⟨table, tabled⟩ := tabled
      have slot := (tabled.slot serving).2.1
      cases done with
      | refused _ => exact .kept now.of_set_none.2.of_allocate SpinnerCall.noConfusion
      | abandoned _ => exact .kept now.of_allocate SpinnerCall.noConfusion
      | stored _ _ fresh =>
          cases now.of_set with
          | inl here =>
              obtain ⟨base_va, isNew, narrow, aligned⟩ := fresh
              have same := now.has
              rw [here.2, isNew, Option.some.injEq] at same
              refine .fresh ?_ same.symm narrow aligned
              rw [here.1, slot]
              rintro ⟨block, blockHeap, before⟩
              exact freeSlot_vacant ⟨block, before.stored⟩
          | inr away => exact .kept away.2.of_allocate SpinnerCall.noConfusion
      | served kernel _ _ _ => cases kernel
  | freeKernel other =>
      cases done with
      | served _ keeps _ _ => cases keeps
      | freed _ _ =>
          obtain ⟨different, before⟩ := now.of_set_none
          exact .kept before fun same => different (SpinnerCall.freeKernel.inj same).symm
  | allocateHeap other size =>
      obtain ⟨block, blockHeap, found⟩ := admissible
      have grown : Ensures (performCall platform caps files (.allocateHeap other size)) state
          (fun _ last => ∃ context, HeapAsked size blockHeap state.aspace_ context ∧
            HeapStored state other context last)
          (fun _ last => ∃ context, HeapAsked size blockHeap state.aspace_ context ∧
            HeapStored state other context last) := by
        apply Ensures.bind
        apply (allocateHeap_grown found size).weaken
        · rintro va last ⟨context, ran, stored⟩
          exact ensures_pure ⟨context, Or.inl ⟨_, ran⟩, stored⟩
        · exact fun _ _ outcome => outcome
      obtain ⟨context, asked, stored⟩ := grown.either outcome
      exact stored.fate asked found rfl SpinnerCall.noConfusion now
  | uploadArgs other args =>
      obtain ⟨block, blockHeap, found⟩ := admissible
      obtain ⟨context, asked, stored⟩ := (uploadArgs_grown found args).either outcome
      exact stored.fate asked found rfl SpinnerCall.noConfusion now
  | upload other va content =>
      obtain ⟨block, blockHeap, found⟩ := admissible
      have kept : Ensures (Spinner.upload (flatAccelerator caps) other va content) state
          (fun _ last => last.kcbs_ = state.kcbs_) (fun _ last => last.kcbs_ = state.kcbs_) :=
        (upload_spec (flatAccelerator_backed caps) found.stored content).weaken
          (fun _ _ kept => kept.1.kcbs) fun _ _ kept => kept.1.kcbs
      exact unchanged (kept.either outcome) SpinnerCall.noConfusion
  | download other va dest =>
      obtain ⟨block, blockHeap, found⟩ := admissible
      have kept : Ensures (performCall platform caps files (.download other va dest)) state
          (fun _ last => last.kcbs_ = state.kcbs_) (fun _ last => last.kcbs_ = state.kcbs_) := by
        apply Ensures.bind
        apply (download_spec (flatAccelerator_backed caps) found.stored dest).weaken
        · exact fun _ _ kept => ensures_pure kept.1.kcbs
        · exact fun _ _ kept => kept.1.kcbs
      exact unchanged (kept.either outcome) SpinnerCall.noConfusion
  | startKernel other order =>
      obtain ⟨⟨block, blockHeap, found⟩, permutes⟩ := admissible
      obtain ⟨owner, owned⟩ := serving.kernels.reached.owned
      have kept : Ensures (Spinner.startKernel platform (flatAccelerator caps) order files other) state
          (fun _ last => last.kcbs_ = state.kcbs_) (fun _ last => last.kcbs_ = state.kcbs_) :=
        (startKernel_spec serving.kernels.reached owned found.stored
          (serving.kernels.rooted _ _ _ found).2 itself permutes).weaken
          (fun _ _ kept => kept.1) fun _ _ kept => kept.1
      exact unchanged (kept.either outcome) SpinnerCall.noConfusion

end Fates

def HeapsHoused (platform : Platform) (holes : HoleList) (state : Spinner FlatDevice) : Prop :=
  ∀ kid kcb heap, HasHeap state.kcbs_ kid kcb heap →
    HeapManager.Housed platform holes heap state.aspace_.history

structure Continues (old heap : HeapManager) : Prop where
  base : heap.vm_allocator_.baseAddress_ = old.vm_allocator_.baseAddress_
  further : old.vm_allocator_.nextAddress_ ≤ heap.vm_allocator_.nextAddress_

section Steps

variable {platform : Platform} {holes : HoleList} {caps : Caps → Option Nat} {files : Files}
  {table : Nat → Nat} {state next : Spinner FlatDevice} {call : SpinnerCall} {kid : Nat}
  {kcb : KernelControlBlock} {heap : HeapManager}

theorem Done.keepsMapped (done : Done platform holes files state call next)
    (serving : Serving platform holes files state)
    (tabled : Tabled table state.kcbs_ state.aspace_) (found : HasHeap state.kcbs_ kid kcb heap)
    (kept : call ≠ .freeKernel kid) {page pte : Nat} (inside : page < 2 ^ 20)
    (mapped : mapping state.aspace_.history kcb.top_pgtbl_pa page = some pte) :
    mapping next.aspace_.history kcb.top_pgtbl_pa page = some pte := by
  by_cases mine : call.kernel = some kid
  · cases done with
    | refused _ => cases mine
    | abandoned _ => cases mine
    | stored _ _ _ => cases mine
    | freed _ _ =>
        rw [SpinnerCall.kernel, Option.some.injEq] at mine
        exact absurd (congrArg SpinnerCall.freeKernel mine) kept
    | served kernel _ otherFound served =>
        rw [kernel, Option.some.injEq] at mine
        rw [mine] at otherFound
        rw [(otherFound.unique found).1] at served
        exact served.work.mapping serving.kernels.reached (serving.kernels.rooted _ _ _ found).2
          inside mapped
  · exact ((done.spares serving tabled found mine).mapped page).trans mapped

theorem Serving.housed_kept (serving : Serving platform holes files state)
    (done : Done platform holes files state call next)
    (tabled : Tabled table state.kcbs_ state.aspace_) (found : HasHeap state.kcbs_ kid kcb heap)
    (notFreed : call ≠ .freeKernel kid)
    (housed : HeapManager.Housed platform holes heap state.aspace_.history) :
    HeapManager.Housed platform holes heap next.aspace_.history := by
  have root := (serving.kernels.rooted _ _ _ found).1
  refine housed.kept fun page inside pte mapped => ?_
  rw [root] at mapped ⊢
  exact done.keepsMapped serving tabled found notFreed inside mapped

theorem HeapAsked.housed {size : Nat} {context : HeapContext}
    (asked : HeapAsked size heap state.aspace_ context)
    (serving : Serving platform holes files state) (found : HasHeap state.kcbs_ kid kcb heap)
    (housed : HeapManager.Housed platform holes heap state.aspace_.history) (positive : 0 < size)
    (small : size < 2 ^ 63)
    (met : RetriesMet platform holes state.aspace_.frames context.aspace_.frames) :
    HeapManager.Housed platform holes context.heap context.aspace_.history ∧
      Continues heap context.heap := by
  obtain ⟨rootIs, isLive⟩ := serving.kernels.rooted _ _ _ found
  have spec := @HeapManager.Housed.allocate platform _ holes
    { heap := heap, aspace_ := state.aspace_ } size housed serving.kernels.reached
    (rootIs ▸ isLive) positive small
  cases asked with
  | inl returned =>
      obtain ⟨_, ran⟩ := returned
      obtain ⟨_, further, base, stays⟩ := spec.of_ok ran
      exact ⟨stays met, base, by rw [further]; exact Nat.le_add_right _ _⟩
  | inr thrown =>
      obtain ⟨_, ran⟩ := thrown
      obtain ⟨same, stays⟩ := spec.of_error ran
      exact ⟨stays, by rw [same], by rw [same]⟩

theorem SizedCallStep.met (step : SizedCallStep platform caps files state call next)
    (serving : Serving platform holes files state) {context : HeapContext}
    (view : SameView context.aspace_ next.aspace_) :
    RetriesMet platform holes state.aspace_.frames context.aspace_.frames := by
  have met := step.1.2
  rw [serving.kernels.reached.holes, view.frames] at met
  exact met

theorem HeapsHoused.step (housed : HeapsHoused platform holes state)
    (settled : Settled platform holes files state)
    (itself : ∀ page, MapsItself platform ((caps .localMemSize).getD 0) page →
      MayMapItself platform holes page)
    (step : SizedCallStep platform caps files state call next) :
    HeapsHoused platform holes next := by
  intro kid kcb heap now
  obtain ⟨table, tabled⟩ := settled.tabled
  cases step.1.1.heapFate settled.serving settled.tabled itself now with
  | kept found notFreed =>
      exact settled.serving.housed_kept (step.1.1.done settled.serving itself) tabled found notFreed
        (housed _ _ _ found)
  | fresh _ isNew narrow aligned =>
      rw [isNew]
      exact HeapManager.new_housed platform holes _ narrow aligned _
  | asked found request outcome same view =>
      obtain ⟨positive, small⟩ := step.2 _ _ request
      have later := outcome.housed settled.serving found (housed _ _ _ found) positive small
        (step.met settled.serving view)
      rw [same, view.history]
      exact later.1

theorem SizedCallStep.continues (step : SizedCallStep platform caps files state call next)
    (housed : HeapsHoused platform holes state) (settled : Settled platform holes files state)
    (itself : ∀ page, MapsItself platform ((caps .localMemSize).getD 0) page →
      MayMapItself platform holes page)
    (found : HasHeap state.kcbs_ kid kcb heap) (notFreed : call ≠ .freeKernel kid) :
    ∃ block later, HasHeap next.kcbs_ kid block later ∧ Continues heap later := by
  obtain ⟨table, tabled⟩ := settled.tabled
  have done := step.1.1.done settled.serving itself
  obtain ⟨⟨block, later, now, _⟩, _⟩ :=
    done.keepsTable settled.serving tabled ⟨kcb, heap, found, rfl⟩ notFreed
  refine ⟨block, later, now, ?_⟩
  cases step.1.1.heapFate settled.serving settled.tabled itself now with
  | kept before _ =>
      rw [(before.unique found).2]
      exact ⟨rfl, Nat.le_refl _⟩
  | fresh vacant _ _ _ => exact absurd ⟨kcb, heap, found⟩ vacant
  | asked before request outcome same view =>
      obtain ⟨positive, small⟩ := step.2 _ _ request
      have continued := outcome.housed settled.serving before (housed _ _ _ before) positive small
        (step.met settled.serving view)
      rw [(before.unique found).2] at continued
      rw [same]
      exact continued.2

end Steps

def Buffer.byte (buffer : Buffer) (spinner : Spinner FlatDevice) (index : Nat) : Option Nat :=
  match spinner.kcbs_[buffer.kid]? with
  | some (some kcb) => spinner.aspace_.translated kcb.top_pgtbl_pa (wrap32 (buffer.va + index))
  | _ => none

def buffersAfter (run : BufferRun) : SpinnerCall → List Buffer
  | .allocateHeap kid size =>
      match Spinner.allocateHeap kid size run.spinner with
      | .ok va _ => ⟨kid, va, size⟩ :: run.buffers
      | .error _ _ => run.buffers
  | .freeKernel kid => run.buffers.filter fun buffer => buffer.kid ≠ kid
  | _ => run.buffers

def BufferCallStep (platform : Platform) (caps : Caps → Option Nat) (files : Files)
    (run : BufferRun) (call : SpinnerCall) (next : BufferRun) : Prop :=
  SizedCallStep platform caps files run.spinner call next.spinner ∧
    next.buffers = buffersAfter run call

/-- The heap of its kernel has gone over the whole buffer; addresses of heaps have 64 bits. -/
def HandedAt (heap : HeapManager) (buffer : Buffer) (start : Nat) : Prop :=
  buffer.va = wrap32 start ∧ heap.vm_allocator_.baseAddress_ ≤ start ∧
    start + buffer.size ≤ heap.vm_allocator_.nextAddress_

/-- The buffers have no address in common, or they are for two kernels. -/
def Buffer.Disjoint (later earlier : Buffer) : Prop :=
  later.kid = earlier.kid → ∀ index < later.size, ∀ other < earlier.size,
    wrap32 (later.va + index) ≠ wrap32 (earlier.va + other)

structure Buffered (platform : Platform) (holes : HoleList) (files : Files) (run : BufferRun) :
    Prop where
  settled : Settled platform holes files run.spinner
  housed : HeapsHoused platform holes run.spinner
  handed : ∀ buffer ∈ run.buffers, ∃ kcb heap start,
    HasHeap run.spinner.kcbs_ buffer.kid kcb heap ∧ HandedAt heap buffer start
  apart : run.buffers.Pairwise Buffer.Disjoint

section Buffers

variable {platform : Platform} {holes : HoleList} {caps : Caps → Option Nat} {files : Files}
  {run next : BufferRun} {call : SpinnerCall} {state : Spinner FlatDevice} {kid : Nat}
  {kcb : KernelControlBlock} {heap : HeapManager}

theorem HandedAt.address {buffer : Buffer} {start : Nat} (handed : HandedAt heap buffer start)
    (index : Nat) : wrap32 (buffer.va + index) = wrap32 (start + index) := by
  rw [handed.1]
  unfold wrap32
  omega

theorem HandedAt.continues {later : HeapManager} {buffer : Buffer} {start : Nat}
    (handed : HandedAt heap buffer start) (continued : Continues heap later) :
    HandedAt later buffer start := by
  obtain ⟨same, low, high⟩ := handed
  exact ⟨same, by rw [continued.base]; exact low, high.trans continued.further⟩

theorem HandedAt.disjoint {later earlier : Buffer} {start before : Nat}
    (sound : heap.vm_allocator_.Sound) (handed : HandedAt heap later start)
    (earlierHanded : HandedAt heap earlier before) (behind : before + earlier.size ≤ start) :
    later.Disjoint earlier := by
  intro _ index inside other otherInside same
  obtain ⟨laterVa, _, high⟩ := handed
  obtain ⟨earlierVa, low, _⟩ := earlierHanded
  have top := sound.high
  have narrow := sound.capacityNarrow
  rw [laterVa, earlierVa] at same
  unfold wrap32 at same
  omega

theorem HandedAt.shorter {buffer : Buffer} {start size : Nat} (handed : HandedAt heap buffer start)
    (less : size ≤ buffer.size) : HandedAt heap { buffer with size := size } start :=
  ⟨handed.1, handed.2.1, (Nat.add_le_add_left less start).trans handed.2.2⟩

theorem Buffer.Disjoint.symm {later earlier : Buffer} (disjoint : later.Disjoint earlier) :
    earlier.Disjoint later :=
  fun same index inside other otherInside equal =>
    disjoint same.symm other otherInside index inside equal.symm

theorem HeapsHoused.privateAt (housed : HeapsHoused platform holes state)
    (serving : Serving platform holes files state) (found : HasHeap state.kcbs_ kid kcb heap)
    {addr : Nat} (low : heap.vm_allocator_.baseAddress_ ≤ addr)
    (high : addr < heap.vm_allocator_.baseAddress_ + heap.vm_allocator_.capacity_) :
    ∃ pa, PrivateAt platform holes state.aspace_ kcb.top_pgtbl_pa (wrap32 addr) pa := by
  obtain ⟨rootIs, isLive⟩ := serving.kernels.rooted _ _ _ found
  obtain ⟨owner, owned⟩ := serving.kernels.reached.owned
  obtain ⟨sound, pages⟩ := housed _ _ _ found
  have baseAligned := sound.baseAligned
  have capacityAligned := sound.capacityAligned
  have inside : addr / 4096 - heap.vm_allocator_.baseAddress_ / 4096 < heap.pageCount := by
    rw [HeapManager.pageCount]
    omega
  obtain ⟨pa, mapped, narrow, apart⟩ := pages _ inside
  have page : HeapManager.heapPage heap (addr / 4096 - heap.vm_allocator_.baseAddress_ / 4096) =
      wrap32 addr / 4096 := by
    unfold HeapManager.heapPage wrap32
    omega
  rw [rootIs, page] at mapped
  have translation := owned.translated_mapping isLive (wrap32_lt addr)
  rw [mapped, Option.map_some, ptePa_makePte narrow] at translation
  refine ⟨_, wrap32_lt addr, translation, ?_⟩
  have frame : frameOf (frameOf pa + wrap32 addr % 4096) = frameOf pa := by
    unfold frameOf
    omega
  rw [frame]
  exact apart

theorem Buffered.privateAt (buffered : Buffered platform holes files run) {buffer : Buffer}
    (member : buffer ∈ run.buffers) :
    ∃ kcb heap, HasHeap run.spinner.kcbs_ buffer.kid kcb heap ∧ ∀ index < buffer.size, ∃ pa,
      PrivateAt platform holes run.spinner.aspace_ kcb.top_pgtbl_pa (wrap32 (buffer.va + index)) pa ∧
        buffer.byte run.spinner index = some pa := by
  obtain ⟨kcb, heap, start, found, handed⟩ := buffered.handed buffer member
  obtain ⟨_, low, high⟩ := id handed
  refine ⟨kcb, heap, found, fun index inside => ?_⟩
  have top := (buffered.housed _ _ _ found).sound.high
  obtain ⟨pa, mine⟩ := buffered.housed.privateAt buffered.settled.serving found
    (by omega : heap.vm_allocator_.baseAddress_ ≤ start + index) (by omega)
  have addr := handed.address index
  refine ⟨pa, addr ▸ mine, ?_⟩
  unfold Buffer.byte
  rw [found.stored]
  simp only [addr]
  exact mine.found

theorem buffersAfter_member {buffer : Buffer} (member : buffer ∈ buffersAfter run call) :
    buffer ∈ run.buffers ∧ call ≠ .freeKernel buffer.kid ∨
      ∃ kid size va last, call = .allocateHeap kid size ∧
        Spinner.allocateHeap kid size run.spinner = .ok va last ∧ buffer = ⟨kid, va, size⟩ := by
  cases call with
  | allocateHeap kid size =>
      cases ran : Spinner.allocateHeap kid size run.spinner with
      | ok va last =>
          rw [buffersAfter, ran] at member
          cases List.mem_cons.mp member with
          | inl here => exact Or.inr ⟨kid, size, va, last, rfl, ran, here⟩
          | inr before => exact Or.inl ⟨before, SpinnerCall.noConfusion⟩
      | error fault last =>
          rw [buffersAfter, ran] at member
          exact Or.inl ⟨member, SpinnerCall.noConfusion⟩
  | freeKernel kid =>
      rw [buffersAfter, List.mem_filter, decide_eq_true_eq] at member
      exact Or.inl ⟨member.1, fun same => member.2 (SpinnerCall.freeKernel.inj same).symm⟩
  | allocateKernel vxbin_path => exact Or.inl ⟨member, SpinnerCall.noConfusion⟩
  | uploadArgs kid args => exact Or.inl ⟨member, SpinnerCall.noConfusion⟩
  | upload kid va content => exact Or.inl ⟨member, SpinnerCall.noConfusion⟩
  | download kid va dest => exact Or.inl ⟨member, SpinnerCall.noConfusion⟩
  | startKernel kid order => exact Or.inl ⟨member, SpinnerCall.noConfusion⟩

theorem SizedCallStep.hands {size va : Nat} {after last : Spinner FlatDevice}
    (step : SizedCallStep platform caps files state (.allocateHeap kid size) after)
    (housed : HeapsHoused platform holes state) (settled : Settled platform holes files state)
    (ran : Spinner.allocateHeap kid size state = .ok va last) :
    ∃ kcb heap block later, HasHeap state.kcbs_ kid kcb heap ∧ HasHeap after.kcbs_ kid block later ∧
      Continues heap later ∧ HandedAt later ⟨kid, va, size⟩ heap.vm_allocator_.nextAddress_ := by
  obtain ⟨⟨⟨⟨kcb, heap, found⟩, outcome⟩, _⟩, sized⟩ := step
  have whole : performCall platform caps files (.allocateHeap kid size) state = .ok () last :=
    bind_ok ran
  have same : after = last := by
    rw [whole] at outcome
    rcases outcome with ⟨_, returned⟩ | ⟨_, thrown⟩
    · cases returned
      rfl
    · cases thrown
  obtain ⟨context, allocated, block, kcbs, has, view⟩ := (allocateHeap_grown found size).of_ok ran
  obtain ⟨rootIs, isLive⟩ := settled.serving.kernels.rooted _ _ _ found
  obtain ⟨positive, small⟩ := sized kid size rfl
  obtain ⟨value, further, base, _⟩ := (@HeapManager.Housed.allocate platform _ holes
    { heap := heap, aspace_ := state.aspace_ } size (housed _ _ _ found)
    settled.serving.kernels.reached (rootIs ▸ isLive) positive small).of_ok allocated
  have low := (housed _ _ _ found).sound.low
  have vaIs := Option.some.inj value
  refine ⟨kcb, heap, block, context.heap, found, ?_, ⟨base, ?_⟩, vaIs, ?_, ?_⟩
  · rw [same, kcbs]
    exact found.set_self has
  · rw [further]
    exact Nat.le_add_right _ _
  · rw [base]
    exact low
  · exact Nat.le_of_eq further.symm

/-- Arguments are put behind everything that the heap has handed out. -/
theorem SizedCallStep.args_behind {args : List UInt8} {after : Spinner FlatDevice} {range : Buffer}
    {start addr pa : Nat}
    (step : SizedCallStep platform caps files state (.uploadArgs kid args) after)
    (housed : HeapsHoused platform holes state) (settled : Settled platform holes files state)
    (itself : ∀ page, MapsItself platform ((caps .localMemSize).getD 0) page →
      MayMapItself platform holes page)
    (found : HasHeap state.kcbs_ kid kcb heap) (handed : HandedAt heap range start)
    (sameKernel : range.kid = kid) (inside : Spans range.va range.size addr)
    (mine : PrivateAt platform holes state.aspace_ kcb.top_pgtbl_pa addr pa) :
    ByteStays platform holes kcb.top_pgtbl_pa addr pa state after := by
  have done := step.1.1.done settled.serving itself
  obtain ⟨table, tabled⟩ := settled.tabled
  have has : HasTable state.kcbs_ kid kcb.top_pgtbl_pa := ⟨kcb, heap, found, rfl⟩
  have stays := (done.keepsTable settled.serving tabled has SpinnerCall.noConfusion).2 addr
    mine.bound pa mine.found
  cases ran : HeapManager.allocate args.length { heap := heap, aspace_ := state.aspace_ } with
  | error fault context =>
      -- nothing has been uploaded yet
      refine ⟨⟨mine.bound, stays, mine.apart⟩, ?_⟩
      have grown := onHeap_grown found args.length
      rw [ran] at grown
      have memory : after.device = state.device := by
        obtain ⟨⟨⟨_, outcome⟩, _⟩, _⟩ := step
        cases asked : onHeap kid (HeapManager.allocate args.length) state with
        | ok value last =>
            obtain ⟨_, impossible, _⟩ := grown.of_ok asked
            cases impossible
        | error thrown last =>
            obtain ⟨_, _, lastIs⟩ := grown.of_error asked
            have whole : performCall platform caps files (.uploadArgs kid args) state =
                .error thrown last := bind_error asked
            rw [whole] at outcome
            rcases outcome with ⟨_, impossible⟩ | ⟨_, same⟩
            · cases impossible
            · cases same
              rw [lastIs]
      rw [memory]
  | ok value context =>
      refine ((done.byteStays settled.serving tabled has SpinnerCall.noConfusion).2 addr pa ?_ mine)
      rintro _ ⟨block, blockHeap, blockFound, index, below, addrIs⟩
      rw [(blockFound.unique found).2] at addrIs
      obtain ⟨rootIs, isLive⟩ := settled.serving.kernels.rooted _ _ _ found
      obtain ⟨positive, small⟩ := step.2 kid args.length rfl
      obtain ⟨_, further, base, housedAfter⟩ := (@HeapManager.Housed.allocate platform _ holes
        { heap := heap, aspace_ := state.aspace_ } args.length (housed _ _ _ found)
        settled.serving.kernels.reached (rootIs ▸ isLive) positive small).of_ok ran
      obtain ⟨other, asked, stored⟩ := (uploadArgs_grown found args).either step.1.1.2
      have sameContext : other = context := by
        unfold HeapAsked at asked
        rw [ran] at asked
        rcases asked with ⟨_, same⟩ | ⟨_, impossible⟩
        · cases same
          rfl
        · cases impossible
      obtain ⟨_, _, _, view⟩ := stored
      rw [sameContext] at view
      have sound := (housedAfter (step.met settled.serving view)).sound
      have continued : Continues heap context.heap := ⟨base, by
        rw [further]
        exact Nat.le_add_right _ _⟩
      have argsHanded : HandedAt context.heap
          ⟨kid, wrap32 heap.vm_allocator_.nextAddress_, args.length⟩
          heap.vm_allocator_.nextAddress_ :=
        ⟨rfl, by rw [base]; exact (housed _ _ _ found).sound.low, Nat.le_of_eq further.symm⟩
      obtain ⟨place, within, samePlace⟩ := inside
      apply argsHanded.disjoint sound (handed.continues continued) handed.2.2 sameKernel.symm index
        below place within
      rw [← samePlace, addrIs]
      exact argsHanded.address index

theorem Buffered.step (buffered : Buffered platform holes files run)
    (itself : ∀ page, MapsItself platform ((caps .localMemSize).getD 0) page →
      MayMapItself platform holes page)
    (step : BufferCallStep platform caps files run call next) :
    Buffered platform holes files next := by
  obtain ⟨spun, buffers⟩ := step
  have settled := buffered.settled.step itself spun.1.1
  have housed := buffered.housed.step buffered.settled itself spun
  refine ⟨settled, housed, ?_, ?_⟩
  · intro buffer member
    rw [buffers] at member
    rcases buffersAfter_member member with ⟨before, notFreed⟩ | ⟨kid, size, va, last, same, ran, new⟩
    · obtain ⟨kcb, heap, start, found, handed⟩ := buffered.handed buffer before
      obtain ⟨block, later, now, continued⟩ :=
        spun.continues buffered.housed buffered.settled itself found notFreed
      exact ⟨block, later, start, now, handed.continues continued⟩
    · rw [same] at spun
      obtain ⟨_, heap, block, later, _, now, _, handed⟩ :=
        spun.hands buffered.housed buffered.settled ran
      rw [new]
      exact ⟨block, later, _, now, handed⟩
  · rw [buffers]
    cases call with
    | allocateHeap kid size =>
        cases ran : Spinner.allocateHeap kid size run.spinner with
        | error fault last =>
            rw [buffersAfter, ran]
            exact buffered.apart
        | ok va last =>
            rw [buffersAfter, ran]
            refine List.pairwise_cons.mpr ⟨?_, buffered.apart⟩
            intro earlier member same
            obtain ⟨kcb, heap, block, later, found, now, continued, handed⟩ :=
              spun.hands buffered.housed buffered.settled ran
            obtain ⟨_, earlierHeap, before, earlierFound, earlierHanded⟩ :=
              buffered.handed earlier member
            change kid = earlier.kid at same
            rw [← same] at earlierFound
            rw [(earlierFound.unique found).2] at earlierHanded
            exact handed.disjoint (housed _ _ _ now).sound (earlierHanded.continues continued)
              earlierHanded.2.2 same
    | freeKernel kid => exact buffered.apart.filter _
    | allocateKernel vxbin_path => exact buffered.apart
    | uploadArgs kid args => exact buffered.apart
    | upload kid va content => exact buffered.apart
    | download kid va dest => exact buffered.apart
    | startKernel kid order => exact buffered.apart

theorem new_housed (platform : Platform) (holes : HoleList)
    (accelerator : HostAccelerator FlatDevice) (device : FlatDevice) :
    HeapsHoused platform holes (Spinner.new platform accelerator device) := by
  intro kid kcb heap found
  cases found.stored

theorem new_buffered (valid : platform.Valid) (accelerator : HostAccelerator FlatDevice)
    (device : FlatDevice) :
    Buffered platform (AddressSpaceManager.new platform
        ((accelerator.getCaps .localMemSize).getD 0)).hole_list_ files
      { spinner := Spinner.new platform accelerator device, buffers := [] } where
  settled := new_settled valid accelerator device
  housed := new_housed platform _ accelerator device
  handed _ member := by cases member
  apart := List.Pairwise.nil

theorem Buffered.apart_at (buffered : Buffered platform holes files run) {position another : Nat}
    {later earlier : Buffer} (less : position < another) (laterAt : run.buffers[position]? = some later)
    (earlierAt : run.buffers[another]? = some earlier) : later.Disjoint earlier := by
  obtain ⟨_, laterIs⟩ := List.getElem?_eq_some_iff.mp laterAt
  obtain ⟨_, earlierIs⟩ := List.getElem?_eq_some_iff.mp earlierAt
  rw [← laterIs, ← earlierIs]
  exact List.pairwise_iff_getElem.mp buffered.apart position another _ _ less

end Buffers

/-- In every run of sized calls, with starts and with calls that throw, while no second frame of a
request is reported as a hole: every byte of a buffer is a byte of the device, in a page that may
not be mapped to itself, and no byte of the device is a second byte of that buffer or a byte of any
other buffer of any kernel. -/
theorem buffers_never_share {platform : Platform} (valid : platform.Valid)
    {caps : Caps → Option Nat}
    (itself : ∀ page, MapsItself platform ((caps .localMemSize).getD 0) page →
      MayMapItself platform
        (AddressSpaceManager.new platform ((caps .localMemSize).getD 0)).hole_list_ page)
    (files : Files) (device : FlatDevice) {calls : List SpinnerCall} {run : BufferRun}
    (steps : Trace (BufferCallStep platform caps files)
      { spinner := Spinner.new platform (flatAccelerator caps) device, buffers := [] } calls run) :
    (∀ buffer ∈ run.buffers, Finished run.spinner.kcbs_ buffer.kid ∧ ∀ index < buffer.size, ∃ pa,
      buffer.byte run.spinner index = some pa ∧
        ¬MayMapItself platform (AddressSpaceManager.new platform
          ((caps .localMemSize).getD 0)).hole_list_ (frameOf pa)) ∧
      ∀ (position another : Nat) (first second : Buffer), run.buffers[position]? = some first →
        run.buffers[another]? = some second → ∀ index < first.size, ∀ other < second.size,
          first.byte run.spinner index = second.byte run.spinner other →
            position = another ∧ index = other := by
  have buffered := steps.invariant (Buffered platform _ files)
    (fun _ _ _ kept step => kept.step itself step) (new_buffered valid (flatAccelerator caps) device)
  constructor
  · intro buffer member
    obtain ⟨kcb, heap, found, bytes⟩ := buffered.privateAt member
    refine ⟨⟨kcb, heap, found⟩, fun index inside => ?_⟩
    obtain ⟨pa, mine, byte⟩ := bytes index inside
    exact ⟨pa, byte, mine.apart⟩
  · intro position another first second firstAt secondAt index inside other otherInside same
    obtain ⟨owner, owned⟩ := buffered.settled.serving.kernels.reached.owned
    obtain ⟨kcb, heap, found, bytes⟩ := buffered.privateAt (List.mem_of_getElem? firstAt)
    obtain ⟨otherKcb, otherHeap, otherFound, otherBytes⟩ :=
      buffered.privateAt (List.mem_of_getElem? secondAt)
    obtain ⟨pa, mine, byte⟩ := bytes index inside
    obtain ⟨otherPa, otherMine, otherByte⟩ := otherBytes other otherInside
    rw [byte, otherByte, Option.some.injEq] at same
    rw [← same] at otherMine
    have kernels := buffered.settled.serving.kernels
    obtain ⟨offset, leaf⟩ := mine.owned owned (kernels.rooted _ _ _ found).2
    obtain ⟨otherOffset, otherLeaf⟩ := otherMine.owned owned (kernels.rooted _ _ _ otherFound).2
    rw [leaf, Option.some.injEq, Role.leaf.injEq] at otherLeaf
    have sameKernel := kernels.apart _ _ _ _ _ _ found otherFound otherLeaf.1
    have sameAddr : wrap32 (first.va + index) = wrap32 (second.va + other) := by omega
    have samePlace : position = another := by
      rcases Nat.lt_trichotomy position another with less | equal | more
      · exact absurd sameAddr (buffered.apart_at less firstAt secondAt sameKernel index inside other
          otherInside)
      · exact equal
      · exact absurd sameAddr ((buffered.apart_at more secondAt firstAt).symm sameKernel index inside
          other otherInside)
    refine ⟨samePlace, ?_⟩
    rw [samePlace, secondAt, Option.some.injEq] at firstAt
    rw [firstAt] at sameAddr otherInside
    obtain ⟨_, _, start, again, _, low, high⟩ :=
      buffered.handed first (List.mem_of_getElem? (firstAt ▸ secondAt))
    have sound := (buffered.housed _ _ _ again).sound
    have top := sound.high
    have narrow := sound.capacityNarrow
    unfold wrap32 at sameAddr
    omega

section Small

theorem smallPlatform_sized {caps : Caps → Option Nat} {files : Files} {state next : Spinner FlatDevice}
    {call : SpinnerCall} (settled : Settled smallPlatform
      (AddressSpaceManager.new smallPlatform 0).hole_list_ files state)
    (step : CallStep smallPlatform caps files state call next) (sized : call.Sized) :
    SizedCallStep smallPlatform caps files state call next := by
  refine ⟨⟨step, ?_⟩, sized⟩
  intro before _ _ first asked inHole
  rw [settled.serving.kernels.reached.holes, smallPlatform_noHoles first asked.isFrame] at inHole
  cases inHole

theorem buffers_never_share_two : ∃ run : BufferRun,
    Trace (BufferCallStep smallPlatform (fun _ => none) (fun _ => some emptyImage))
        { spinner := Spinner.new smallPlatform (flatAccelerator fun _ => none) smallDevice
          buffers := [] }
        [.allocateKernel "kernel", .allocateHeap 0 16, .allocateHeap 0 16] run ∧
      run.buffers = [⟨0, 0x10010, 16⟩, ⟨0, 0x10000, 16⟩] ∧
      (∀ index < 16, ∃ pa, Buffer.byte ⟨0, 0x10010, 16⟩ run.spinner index = some pa) ∧
      (∀ index < 16, ∀ other < 16, Buffer.byte ⟨0, 0x10010, 16⟩ run.spinner index ≠
        Buffer.byte ⟨0, 0x10000, 16⟩ run.spinner other) ∧
      ∀ index < 16, ∀ other < 16, Buffer.byte ⟨0, 0x10010, 16⟩ run.spinner index =
        Buffer.byte ⟨0, 0x10010, 16⟩ run.spinner other → index = other := by
  obtain ⟨begun, state, full, kcb, block, heap, grown, kernel, finished, _, allocated, still, _,
    again⟩ := smallPlatform_bufferCalls
  have fresh : Settled smallPlatform (AddressSpaceManager.new smallPlatform 0).hole_list_
      (fun _ => some emptyImage)
      (Spinner.new smallPlatform (flatAccelerator fun _ => none) smallDevice) :=
    new_settled smallPlatform_valid (flatAccelerator fun _ => none) smallDevice
  have first : CallStep smallPlatform (fun _ => none) (fun _ => some emptyImage) _
      (.allocateKernel "kernel") begun := allocateKernel_step kernel
  have second : CallStep smallPlatform (fun _ => none) (fun _ => some emptyImage) begun
      (.allocateHeap 0 16) state := allocateHeap_step ⟨kcb, heap, finished⟩ allocated
  have third : CallStep smallPlatform (fun _ => none) (fun _ => some emptyImage) state
      (.allocateHeap 0 16) full := allocateHeap_step ⟨block, grown, still⟩ again
  have begunSettled := @Settled.step _ _ (fun _ => none) _ _ _ _ fresh smallPlatform_itself first
  have stateSettled :=
    @Settled.step _ _ (fun _ => none) _ _ _ _ begunSettled smallPlatform_itself second
  have sized : (SpinnerCall.allocateHeap 0 16).Sized := by
    intro kid size same
    cases same
    decide
  have created : BufferCallStep smallPlatform (fun _ => none) (fun _ => some emptyImage)
      { spinner := Spinner.new smallPlatform (flatAccelerator fun _ => none) smallDevice
        buffers := [] } (.allocateKernel "kernel") { spinner := begun, buffers := [] } :=
    ⟨smallPlatform_sized fresh first (fun _ _ impossible => by cases impossible), rfl⟩
  have given : BufferCallStep smallPlatform (fun _ => none) (fun _ => some emptyImage)
      { spinner := begun, buffers := [] } (.allocateHeap 0 16)
      { spinner := state, buffers := [⟨0, 0x10000, 16⟩] } := by
    refine ⟨smallPlatform_sized begunSettled second sized, ?_⟩
    rw [buffersAfter, allocated]
  have givenAgain : BufferCallStep smallPlatform (fun _ => none) (fun _ => some emptyImage)
      { spinner := state, buffers := [⟨0, 0x10000, 16⟩] } (.allocateHeap 0 16)
      { spinner := full, buffers := [⟨0, 0x10010, 16⟩, ⟨0, 0x10000, 16⟩] } := by
    refine ⟨smallPlatform_sized stateSettled third sized, ?_⟩
    rw [buffersAfter, again]
  have steps := Trace.cons created (Trace.cons given (Trace.cons givenAgain (Trace.nil _)))
  obtain ⟨bytes, apart⟩ := @buffers_never_share smallPlatform smallPlatform_valid (fun _ => none)
    smallPlatform_itself (fun _ => some emptyImage) smallDevice _ _ steps
  refine ⟨_, steps, rfl, ?_, ?_, ?_⟩
  · intro index inside
    obtain ⟨pa, byte, _⟩ := (bytes ⟨0, 0x10010, 16⟩ List.mem_cons_self).2 index inside
    exact ⟨pa, byte⟩
  · intro index inside other otherInside same
    have samePlace := (apart 0 1 _ _ rfl rfl index inside other otherInside same).1
    cases samePlace
  · intro index inside other otherInside same
    exact (apart 0 0 _ _ rfl rfl index inside other otherInside same).2

end Small

end Espiral.Spinner
