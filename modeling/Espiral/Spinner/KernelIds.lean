import Espiral.Library.Traces
import Espiral.Spinner.Calls

/-!
# Kernel ids under interleaving

`allocate_kernel` takes its id in one critical section and stores its block
later, so other calls run in between. One step here is one critical section,
the final store, or the point where a call ends without storing.
-/

namespace Espiral

set_option autoImplicit false

open MachineWords Traces

/-- The table of blocks and the calls in progress. `held` and `stored` are not in
the source: the ids that calls have obtained and that have not been freed since,
one entry for each call, and the blocks that have been stored and not been freed. -/
structure KernelTable where
  kcbs_ : Kcbs
  obtained : List Nat
  freeing : List Nat
  held : List Nat
  stored : List (Nat × KernelControlBlock)

inductive KernelEvent where
  /-- `allocate_kcb_`. -/
  | obtain
  /-- `kcbs_.at(kid) = kcb`, the end of `allocate_kernel`. -/
  | store (kid : Nat) (kcb : KernelControlBlock)
  /-- `free_kcb_` of an `allocate_kernel` that got no page table, which throws. -/
  | withdraw (kid : Nat)
  /-- An `allocate_kernel` throws because its file cannot be read. -/
  | abandon (kid : Nat)
  /-- `free_kernel` reads the block. -/
  | beginFree (kid : Nat)
  /-- `free_kcb_` of a `free_kernel`. -/
  | free (kid : Nat)

namespace KernelTable

def empty : KernelTable where
  kcbs_ := []
  obtained := []
  freeing := []
  held := []
  stored := []

/-- One atomic step, if a call is at the point where it does it. -/
def step (table : KernelTable) : KernelEvent → Option KernelTable
  | .obtain =>
      let (kid, kcbs) := table.kcbs_.allocate
      some { table with
        kcbs_ := kcbs
        obtained := kid :: table.obtained
        held := kid :: table.held }
  | .store kid kcb =>
      if kid ∈ table.obtained then
        some { table with
          kcbs_ := table.kcbs_.set kid (some kcb)
          obtained := table.obtained.erase kid
          stored := (kid, kcb) :: table.stored }
      else none
  | .withdraw kid =>
      if kid ∈ table.obtained then
        some { table with
          kcbs_ := table.kcbs_.set kid none
          obtained := table.obtained.erase kid
          held := table.held.erase kid }
      else none
  | .abandon kid =>
      if kid ∈ table.obtained then
        some { table with
          obtained := table.obtained.erase kid
          held := table.held.erase kid }
      else none
  | .beginFree kid =>
      match table.kcbs_[kid]? with
      | some (some _) => some { table with freeing := kid :: table.freeing }
      | _ => none
  | .free kid =>
      if kid ∈ table.freeing then
        some { table with
          kcbs_ := table.kcbs_.set kid none
          freeing := table.freeing.erase kid
          held := table.held.filter (· ≠ kid)
          stored := table.stored.filter (·.1 ≠ kid) }
      else none

def Step (table : KernelTable) (event : KernelEvent) (next : KernelTable) : Prop :=
  table.step event = some next

/-- Calls hold different ids, and every stored block is in its own slot. -/
structure Unshared (table : KernelTable) : Prop where
  held : table.held.Nodup
  stored : (table.stored.map Prod.fst).Nodup
  kept : ∀ entry ∈ table.stored, table.kcbs_[entry.1]? = some (some entry.2)

/-- The slot that `allocate_kcb_` finds has not been given to a call that is still to
fill it, and its index is an id. -/
def Met (table : KernelTable) : KernelEvent → Prop
  | .obtain =>
      match table.kcbs_.findIdx? Option.isNone with
      | some slot => slot < 2 ^ 32 ∧ slot ∉ table.obtained
      | none => table.kcbs_.length < 2 ^ 32
  | _ => True

structure Orderly (table : KernelTable) : Prop where
  unshared : table.Unshared
  distinct : table.obtained.Nodup
  inside : ∀ kid ∈ table.obtained, kid < table.kcbs_.length
  unfilled : ∀ kid ∈ table.obtained, kid ∉ table.stored.map Prod.fst
  accounted : ∀ kid ∈ table.held, kid ∈ table.obtained ∨ kid ∈ table.stored.map Prod.fst

section Steps

variable {table next : KernelTable} {kid : Nat}

theorem empty_orderly : empty.Orderly where
  unshared := ⟨List.nodup_nil, List.nodup_nil, fun _ member => by cases member⟩
  distinct := List.nodup_nil
  inside _ member := by cases member
  unfilled _ member := by cases member
  accounted _ member := by cases member

theorem Unshared.filled (unshared : table.Unshared) (member : kid ∈ table.stored.map Prod.fst) :
    ∃ kcb, table.kcbs_[kid]? = some (some kcb) := by
  obtain ⟨entry, inStored, same⟩ := List.mem_map.mp member
  rw [← same]
  exact ⟨entry.2, unshared.kept entry inStored⟩

/-- What `allocate_kcb_` finds under the condition: an id that nobody has, and no stored
block has moved. -/
theorem allocate_fresh (orderly : table.Orderly) (met : table.Met .obtain) :
    table.kcbs_.allocate.1 ∉ table.obtained ∧
      table.kcbs_.allocate.1 ∉ table.stored.map Prod.fst ∧
      table.kcbs_.allocate.1 < table.kcbs_.allocate.2.length ∧
      table.kcbs_ <+: table.kcbs_.allocate.2 := by
  unfold Met at met
  unfold Kcbs.allocate
  cases found : table.kcbs_.findIdx? Option.isNone with
  | some slot =>
      rw [found] at met
      obtain ⟨narrow, notObtained⟩ := met
      obtain ⟨inside, emptySlot, _⟩ := List.findIdx?_eq_some_iff_getElem.mp found
      simp only [wrap32_of_lt narrow]
      refine ⟨notObtained, ?_, inside, List.prefix_refl _⟩
      intro member
      obtain ⟨kcb, filled⟩ := orderly.unshared.filled member
      rw [List.getElem?_eq_getElem inside, Option.some.injEq] at filled
      rw [filled] at emptySlot
      cases emptySlot
  | none =>
      rw [found] at met
      simp only [wrap32_of_lt met]
      refine ⟨?_, ?_, by rw [List.length_append]; exact Nat.lt_succ_self _, List.prefix_append _ _⟩
      · intro member
        exact absurd (orderly.inside _ member) (Nat.lt_irrefl _)
      · intro member
        obtain ⟨kcb, filled⟩ := orderly.unshared.filled member
        rw [List.getElem?_eq_none (Nat.le_refl _)] at filled
        cases filled

theorem Orderly.obtain (orderly : table.Orderly) (met : table.Met .obtain)
    (moved : table.Step .obtain next) : next.Orderly := by
  obtain ⟨notObtained, notStored, inside, grown⟩ := allocate_fresh orderly met
  cases moved
  have length := grown.length_le
  refine ⟨⟨?_, orderly.unshared.stored, ?_⟩, ?_, ?_, ?_, ?_⟩
  · apply List.nodup_cons.mpr
    constructor
    · intro member
      cases orderly.accounted _ member with
      | inl before => exact notObtained before
      | inr before => exact notStored before
    · exact orderly.unshared.held
  · intro entry member
    have before := orderly.unshared.kept entry member
    obtain ⟨inside, _⟩ := List.getElem?_eq_some_iff.mp before
    obtain ⟨added, extended⟩ := grown
    change table.kcbs_.allocate.2[entry.1]? = _
    rw [← extended, List.getElem?_append_left inside]
    exact before
  · exact List.nodup_cons.mpr ⟨notObtained, orderly.distinct⟩
  · intro kid member
    cases List.mem_cons.mp member with
    | inl now =>
        rw [now]
        exact inside
    | inr before => exact Nat.lt_of_lt_of_le (orderly.inside kid before) length
  · intro kid member
    cases List.mem_cons.mp member with
    | inl now =>
        rw [now]
        exact notStored
    | inr before => exact orderly.unfilled kid before
  · intro kid member
    cases List.mem_cons.mp member with
    | inl now => exact Or.inl (List.mem_cons.mpr (Or.inl now))
    | inr before =>
        exact (orderly.accounted kid before).imp_left (List.mem_cons_of_mem _)

/-- The store goes into the slot of a call that has not filled it yet. -/
theorem Orderly.store {kcb : KernelControlBlock} (orderly : table.Orderly)
    (moved : table.Step (.store kid kcb) next) : next.Orderly := by
  obtain ⟨mine, same⟩ := Option.ite_none_right_eq_some.mp moved
  cases same
  have free := orderly.unfilled kid mine
  refine ⟨⟨orderly.unshared.held, List.nodup_cons.mpr ⟨free, orderly.unshared.stored⟩, ?_⟩,
    orderly.distinct.erase kid, ?_, ?_, ?_⟩
  · intro entry member
    cases List.mem_cons.mp member with
    | inl now =>
        rw [now]
        exact List.getElem?_set_self (orderly.inside kid mine)
    | inr before =>
        have different : kid ≠ entry.1 := by
          intro same
          exact free (List.mem_map.mpr ⟨entry, before, same.symm⟩)
        rw [List.getElem?_set_ne different]
        exact orderly.unshared.kept entry before
  · intro other member
    rw [List.length_set]
    exact orderly.inside other (List.mem_of_mem_erase member)
  · intro other member
    have before := (orderly.distinct.mem_erase_iff).mp member
    rw [List.map_cons, List.mem_cons, not_or]
    exact ⟨before.1, orderly.unfilled other before.2⟩
  · intro other member
    by_cases same : other = kid
    · exact Or.inr (List.mem_cons.mpr (Or.inl same))
    · cases orderly.accounted other member with
      | inl before => exact Or.inl ((orderly.distinct.mem_erase_iff).mpr ⟨same, before⟩)
      | inr before => exact Or.inr (List.mem_cons_of_mem _ before)

theorem Orderly.giveUp (orderly : table.Orderly) (mine : kid ∈ table.obtained) {kcbs : Kcbs}
    (length : kcbs.length = table.kcbs_.length)
    (others : ∀ other, other ≠ kid → kcbs[other]? = table.kcbs_[other]?) :
    Orderly { table with
      kcbs_ := kcbs
      obtained := table.obtained.erase kid
      held := table.held.erase kid } := by
  have free := orderly.unfilled kid mine
  refine ⟨⟨orderly.unshared.held.erase kid, orderly.unshared.stored, ?_⟩,
    orderly.distinct.erase kid, ?_, ?_, ?_⟩
  · intro entry member
    have different : entry.1 ≠ kid := by
      intro same
      exact free (List.mem_map.mpr ⟨entry, member, same⟩)
    exact (others entry.1 different).trans (orderly.unshared.kept entry member)
  · intro other member
    rw [length]
    exact orderly.inside other (List.mem_of_mem_erase member)
  · intro other member
    exact orderly.unfilled other (List.mem_of_mem_erase member)
  · intro other member
    have before := (orderly.unshared.held.mem_erase_iff).mp member
    exact (orderly.accounted other before.2).imp_left
      fun obtained => (orderly.distinct.mem_erase_iff).mpr ⟨before.1, obtained⟩

theorem Orderly.free (orderly : table.Orderly) (moved : table.Step (.free kid) next) :
    next.Orderly := by
  obtain ⟨mine, same⟩ := Option.ite_none_right_eq_some.mp moved
  cases same
  have remains : ∀ other, other ∈ table.stored.map Prod.fst → other ≠ kid →
      other ∈ (table.stored.filter (·.1 ≠ kid)).map Prod.fst := by
    intro other member different
    obtain ⟨entry, inStored, same⟩ := List.mem_map.mp member
    apply List.mem_map.mpr
    exact ⟨entry, List.mem_filter.mpr ⟨inStored, by simp [same, different]⟩, same⟩
  refine ⟨⟨orderly.unshared.held.filter _, ?_, ?_⟩, orderly.distinct, ?_, ?_, ?_⟩
  · exact orderly.unshared.stored.sublist (List.filter_sublist.map Prod.fst)
  · intro entry member
    obtain ⟨before, different⟩ := List.mem_filter.mp member
    have apart : kid ≠ entry.1 := by
      intro same
      simp [same] at different
    rw [List.getElem?_set_ne apart]
    exact orderly.unshared.kept entry before
  · intro other member
    rw [List.length_set]
    exact orderly.inside other member
  · intro other member remaining
    exact orderly.unfilled other member ((List.filter_sublist.map Prod.fst).mem remaining)
  · intro other member
    obtain ⟨before, different⟩ := List.mem_filter.mp member
    exact (orderly.accounted other before).imp_right
      fun inStored => remains other inStored (by simpa using different)

theorem Orderly.step {event : KernelEvent} (orderly : table.Orderly) (met : table.Met event)
    (moved : table.Step event next) : next.Orderly := by
  cases event with
  | obtain => exact orderly.obtain met moved
  | store kid kcb => exact orderly.store moved
  | withdraw kid =>
      obtain ⟨mine, same⟩ := Option.ite_none_right_eq_some.mp moved
      cases same
      exact orderly.giveUp mine (List.length_set ..)
        fun other different => List.getElem?_set_ne different.symm
  | abandon kid =>
      obtain ⟨mine, same⟩ := Option.ite_none_right_eq_some.mp moved
      cases same
      exact orderly.giveUp mine rfl fun _ _ => rfl
  | beginFree kid =>
      unfold Step at moved
      simp only [KernelTable.step] at moved
      split at moved
      · cases moved
        exact ⟨⟨orderly.unshared.held, orderly.unshared.stored, orderly.unshared.kept⟩,
          orderly.distinct, orderly.inside, orderly.unfilled, orderly.accounted⟩
      · cases moved
  | free kid => exact orderly.free moved

/-- Without the condition the step itself shares an id: the slot of a call that holds its
id and has not filled it is found again. -/
theorem obtain_unmet {slot : Nat} (found : table.kcbs_.findIdx? Option.isNone = some slot)
    (narrow : slot < 2 ^ 32) (held : slot ∈ table.held) (moved : table.Step .obtain next) :
    ¬next.Unshared := by
  have again : table.kcbs_.allocate.1 = slot := by
    rw [Kcbs.allocate, found]
    exact wrap32_of_lt narrow
  cases moved
  intro unshared
  have fresh := (List.nodup_cons.mp unshared.held).1
  change table.kcbs_.allocate.1 ∉ table.held at fresh
  rw [again] at fresh
  exact fresh held

end Steps

section Calls

variable {Device : Type} {state after : Spinner Device} {table : KernelTable} {kid : Nat}

/-- A call of `allocate_kernel` that runs alone takes these two steps. -/
theorem allocateKernel_steps {files : Files} {vxbin_path : String}
    (same : table.kcbs_ = state.kcbs_)
    (ran : Spinner.allocateKernel files vxbin_path state = .ok kid after) :
    ∃ kcb last, Trace Step table [.obtain, .store kid kcb] last ∧ last.kcbs_ = after.kcbs_ := by
  obtain ⟨pgtbl_pa, aspace, content, min_vma, max_vma, kidIs, _, _, _, _, _, result⟩ :=
    Spinner.allocateKernel_returns ran
  subst kidIs result
  rw [← same]
  exact ⟨_, _, .cons rfl (.cons (if_pos (List.mem_cons_self ..)) (.nil _)), rfl⟩

/-- A call of `free_kernel` that runs alone takes these two steps. -/
theorem freeKernel_steps (same : table.kcbs_ = state.kcbs_)
    (ran : Spinner.freeKernel kid state = .ok () after) :
    ∃ last, Trace Step table [.beginFree kid, .free kid] last ∧ last.kcbs_ = after.kcbs_ := by
  obtain ⟨kcb, aspace, stored, _, result⟩ := Spinner.freeKernel_returns ran
  subst result
  rw [← same] at stored ⊢
  have read : table.Step (.beginFree kid) { table with freeing := kid :: table.freeing } := by
    unfold Step
    simp only [step, stored]
  exact ⟨_, .cons read (.cons (if_pos (List.mem_cons_self ..)) (.nil _)), rfl⟩

end Calls

/-- A run in which every step meets the condition keeps the ids of the kernels apart
and every stored block in its slot. -/
theorem kernel_ids_unshared {events : List KernelEvent} {last : KernelTable}
    (run : Trace (fun table event next => table.Step event next ∧ table.Met event) empty events
      last) : last.Unshared :=
  (run.invariant Orderly (fun _ _ _ orderly moved => orderly.step moved.2 moved.1)
    empty_orderly).unshared

/-- A kernel is allocated and freed, and its id is used again while another allocation
is under way. -/
theorem kernel_ids_unshared_reused : ∃ last : KernelTable, last.held = [1, 0] ∧
    last.Unshared := by
  have run : ∃ last, Trace (fun table event next => table.Step event next ∧ table.Met event) empty
      [.obtain, .store 0 .empty, .beginFree 0, .free 0, .obtain, .store 0 .empty, .obtain] last ∧
      last.held = [1, 0] :=
    ⟨_, .cons ⟨rfl, (by decide : 0 < 2 ^ 32)⟩ (.cons ⟨rfl, trivial⟩ (.cons ⟨rfl, trivial⟩
      (.cons ⟨rfl, trivial⟩ (.cons ⟨rfl, (by decide : 0 < 2 ^ 32 ∧ 0 ∉ ([] : List Nat))⟩
        (.cons ⟨rfl, trivial⟩ (.cons ⟨rfl, (by decide : 1 < 2 ^ 32)⟩ (.nil _))))))), rfl⟩
  obtain ⟨last, steps, held⟩ := run
  exact ⟨last, held, kernel_ids_unshared steps⟩

/-- A slot that has been freed is given to two calls, and the second store replaces the
block of the first. -/
theorem kernel_ids_shared : ∃ (between last : KernelTable) (first second : KernelControlBlock), first ≠ second ∧
    Trace Step empty [.obtain, .store 0 .empty, .beginFree 0, .free 0, .obtain, .obtain]
      between ∧
    between.held = [0, 0] ∧ ¬between.Unshared ∧
    Trace Step between [.store 0 first, .store 0 second] last ∧
    (0, first) ∈ last.stored ∧ last.kcbs_[0]? = some (some second) := by
  have different : { KernelControlBlock.empty with top_pgtbl_pa := 0x1000 } ≠
      { KernelControlBlock.empty with top_pgtbl_pa := 0x2000 } := by
    intro same
    cases congrArg KernelControlBlock.top_pgtbl_pa same
  refine ⟨_, _, _, _, different, .cons rfl (.cons rfl (.cons rfl (.cons rfl (.cons rfl (.cons rfl
    (.nil _)))))), rfl, ?_, .cons rfl (.cons rfl (.nil _)),
    List.mem_cons_of_mem _ (List.mem_cons_self ..), rfl⟩
  intro unshared
  exact absurd unshared.held (by decide)

end KernelTable

end Espiral
