import Espiral.Allocator.Page

/-!
# The three block lists of a page

`Holds` names the members of the used list, the M-list and the S-list. Every
list primitive of the page changes one of the three by one block, keeps the
other two, and never touches the extent of a block.
-/

namespace Espiral.VortexMemoryAllocator

set_option autoImplicit false

open IntrusiveLists MachineWords

namespace Page

structure SameData (page changed : Page) : Prop where
  addr : changed.addr = page.addr
  size : changed.size = page.size
  blockAlign : changed.blockAlign_ = page.blockAlign_
  created : changed.created = page.created
  blockAddr : ∀ block, (changed.blocks block).addr = (page.blocks block).addr
  blockSize : ∀ block, (changed.blocks block).size = (page.blocks block).size

theorem SameData.trans {first second third : Page} (left : SameData first second)
    (right : SameData second third) : SameData first third where
  addr := right.addr.trans left.addr
  size := right.size.trans left.size
  blockAlign := right.blockAlign.trans left.blockAlign
  created := right.created.trans left.created
  blockAddr block := (right.blockAddr block).trans (left.blockAddr block)
  blockSize block := (right.blockSize block).trans (left.blockSize block)

/-- The members of the three lists. A block off the used list has no used
predecessor, which is what `insertUsedList` relies on. -/
structure Holds (page : Page) (used freeM freeS : List Ptr) : Prop where
  onUsed : IsList usedLink page.blocks page.usedList_ used
  onFreeM : IsList freeMLink page.blocks page.freeMList_ freeM
  onFreeS : IsList freeSLink page.blocks page.freeSList_ freeS
  detached : ∀ block, block ∉ used → (page.blocks block).prevUsed = none

section Independence

theorem usedLink_independent {Field : Type*} {field : Block → Field}
    (same : ∀ block next prev, field { block with nextUsed := next, prevUsed := prev } =
      field block) : Independent usedLink field :=
  ⟨fun target block => same block target block.prevUsed,
    fun target block => same block block.nextUsed target⟩

theorem freeMLink_independent {Field : Type*} {field : Block → Field}
    (same : ∀ block next prev, field { block with nextFreeM := next, prevFreeM := prev } =
      field block) : Independent freeMLink field :=
  ⟨fun target block => same block target block.prevFreeM,
    fun target block => same block block.nextFreeM target⟩

theorem freeSLink_independent {Field : Type*} {field : Block → Field}
    (same : ∀ block next prev, field { block with nextFreeS := next, prevFreeS := prev } =
      field block) : Independent freeSLink field :=
  ⟨fun target block => same block target block.prevFreeS,
    fun target block => same block block.nextFreeS target⟩

end Independence

theorem removeUsedList_data (page : Page) (block : Ptr) :
    SameData page (page.removeUsedList block) where
  addr := rfl
  size := rfl
  blockAlign := rfl
  created := rfl
  blockAddr := unlink_field (usedLink_independent fun _ _ _ => rfl) _ _ block
  blockSize := unlink_field (usedLink_independent fun _ _ _ => rfl) _ _ block

theorem insertUsedList_data (page : Page) (block : Ptr) :
    SameData page (page.insertUsedList block) where
  addr := rfl
  size := rfl
  blockAlign := rfl
  created := rfl
  blockAddr := pushFront_field (usedLink_independent fun _ _ _ => rfl) _ _ block
  blockSize := pushFront_field (usedLink_independent fun _ _ _ => rfl) _ _ block

theorem removeFreeMList_data (page : Page) (block : Ptr) :
    SameData page (page.removeFreeMList block) where
  addr := rfl
  size := rfl
  blockAlign := rfl
  created := rfl
  blockAddr := unlink_field (freeMLink_independent fun _ _ _ => rfl) _ _ block
  blockSize := unlink_field (freeMLink_independent fun _ _ _ => rfl) _ _ block

theorem insertFreeMList_data (page : Page) (block : Ptr) :
    SameData page (page.insertFreeMList block) where
  addr := rfl
  size := rfl
  blockAlign := rfl
  created := rfl
  blockAddr := insertWhere_field (freeMLink_independent fun _ _ _ => rfl) _ _ _ _ block
  blockSize := insertWhere_field (freeMLink_independent fun _ _ _ => rfl) _ _ _ _ block

theorem removeFreeSList_data (page : Page) (block : Ptr) :
    SameData page (page.removeFreeSList block) where
  addr := rfl
  size := rfl
  blockAlign := rfl
  created := rfl
  blockAddr := unlink_field (freeSLink_independent fun _ _ _ => rfl) _ _ block
  blockSize := unlink_field (freeSLink_independent fun _ _ _ => rfl) _ _ block

theorem insertFreeSList_data (page : Page) (block : Ptr) :
    SameData page (page.insertFreeSList block) where
  addr := rfl
  size := rfl
  blockAlign := rfl
  created := rfl
  blockAddr := insertWhere_field (freeSLink_independent fun _ _ _ => rfl) _ _ _ _ block
  blockSize := insertWhere_field (freeSLink_independent fun _ _ _ => rfl) _ _ _ _ block

section Primitives

variable {page : Page} {used freeM freeS : List Ptr} {block : Ptr}

theorem removeUsedList_holds {left right : List Ptr}
    (holds : Holds page (left ++ block :: right) freeM freeS) :
    Holds (page.removeUsedList block) (left ++ right) freeM freeS where
  onUsed := unlink_isList holds.onUsed
  onFreeM := isList_of_fields (unlink_field (usedLink_independent fun _ _ _ => rfl) _ _ block)
    (unlink_field (usedLink_independent fun _ _ _ => rfl) _ _ block) holds.onFreeM
  onFreeS := isList_of_fields (unlink_field (usedLink_independent fun _ _ _ => rfl) _ _ block)
    (unlink_field (usedLink_independent fun _ _ _ => rfl) _ _ block) holds.onFreeS
  detached := by
    intro other outside
    by_cases self : other = block
    · subst self
      exact (unlink_self usedLink page.blocks page.usedList_ other).2
    · have wasOutside : other ∉ left ++ block :: right := by
        simp only [List.mem_append, List.mem_cons, not_or] at outside ⊢
        exact ⟨outside.1, self, outside.2⟩
      rcases (segment_append none page.usedList_ left _ none).mp holds.onUsed.chain with
        ⟨middle, _, _, back, tail⟩
      have notPrev : ∀ {ptr}, usedLink.prev (page.blocks block) = some ptr → ptr ∈ left := by
        intro ptr same
        rcases lastOr_mem (back.symm.trans same) with impossible | member
        · cases impossible
        · exact member
      have unchanged : (page.removeUsedList block).blocks other = page.blocks other := by
        apply unlink_other _ _ self
        · intro same
          exact wasOutside (by simp [notPrev same])
        · intro same
          exact wasOutside (by simp [segment_first_mem tail same])
        · intro same
          have apart := (List.nodup_append.mp holds.onUsed.nodup).2.2
          exact apart block (notPrev same) block (by simp) rfl
      rw [unchanged]
      exact holds.detached other wasOutside

theorem insertUsedList_holds (holds : Holds page used freeM freeS) (fresh : block ∉ used) :
    Holds (page.insertUsedList block) (block :: used) freeM freeS where
  onUsed := pushFront_isList holds.onUsed fresh (holds.detached block fresh)
  onFreeM := isList_of_fields (pushFront_field (usedLink_independent fun _ _ _ => rfl) _ _ block)
    (pushFront_field (usedLink_independent fun _ _ _ => rfl) _ _ block) holds.onFreeM
  onFreeS := isList_of_fields (pushFront_field (usedLink_independent fun _ _ _ => rfl) _ _ block)
    (pushFront_field (usedLink_independent fun _ _ _ => rfl) _ _ block) holds.onFreeS
  detached := by
    intro other outside
    rcases not_or.mp (fun either => outside (List.mem_cons.mpr either)) with ⟨notSelf, notUsed⟩
    have notHead : page.usedList_ ≠ some other :=
      fun same => notUsed (segment_first_mem holds.onUsed.chain same)
    have unchanged : (page.insertUsedList block).blocks other = page.blocks other := by
      simp only [insertUsedList, pushFront]
      rw [setPrevIf_other _ _ notHead, modify_other _ _ notSelf]
    rw [unchanged]
    exact holds.detached other notUsed

theorem removeFreeMList_holds {left right : List Ptr}
    (holds : Holds page used (left ++ block :: right) freeS) :
    Holds (page.removeFreeMList block) used (left ++ right) freeS where
  onUsed := isList_of_fields (unlink_field (freeMLink_independent fun _ _ _ => rfl) _ _ block)
    (unlink_field (freeMLink_independent fun _ _ _ => rfl) _ _ block) holds.onUsed
  onFreeM := unlink_isList holds.onFreeM
  onFreeS := isList_of_fields (unlink_field (freeMLink_independent fun _ _ _ => rfl) _ _ block)
    (unlink_field (freeMLink_independent fun _ _ _ => rfl) _ _ block) holds.onFreeS
  detached other outside :=
    (unlink_field (freeMLink_independent fun _ _ _ => rfl) _ _ block other).trans
      (holds.detached other outside)

theorem insertFreeMList_holds (holds : Holds page used freeM freeS) (fresh : block ∉ freeM)
    (enough : freeM.length ≤ page.created) :
    Holds (page.insertFreeMList block) used
      ((freeM.takeWhile fun other => (page.blocks other).addr < (page.blocks block).addr) ++
        block :: freeM.dropWhile fun other =>
          (page.blocks other).addr < (page.blocks block).addr) freeS where
  onUsed := isList_of_fields
    (insertWhere_field (freeMLink_independent fun _ _ _ => rfl) _ _ _ _ block)
    (insertWhere_field (freeMLink_independent fun _ _ _ => rfl) _ _ _ _ block) holds.onUsed
  onFreeM := insertWhere_isList holds.onFreeM fresh enough
  onFreeS := isList_of_fields
    (insertWhere_field (freeMLink_independent fun _ _ _ => rfl) _ _ _ _ block)
    (insertWhere_field (freeMLink_independent fun _ _ _ => rfl) _ _ _ _ block) holds.onFreeS
  detached other outside :=
    (insertWhere_field (freeMLink_independent fun _ _ _ => rfl) _ _ _ _ block other).trans
      (holds.detached other outside)

theorem removeFreeSList_holds {left right : List Ptr}
    (holds : Holds page used freeM (left ++ block :: right)) :
    Holds (page.removeFreeSList block) used freeM (left ++ right) where
  onUsed := isList_of_fields (unlink_field (freeSLink_independent fun _ _ _ => rfl) _ _ block)
    (unlink_field (freeSLink_independent fun _ _ _ => rfl) _ _ block) holds.onUsed
  onFreeM := isList_of_fields (unlink_field (freeSLink_independent fun _ _ _ => rfl) _ _ block)
    (unlink_field (freeSLink_independent fun _ _ _ => rfl) _ _ block) holds.onFreeM
  onFreeS := unlink_isList holds.onFreeS
  detached other outside :=
    (unlink_field (freeSLink_independent fun _ _ _ => rfl) _ _ block other).trans
      (holds.detached other outside)

theorem insertFreeSList_holds (holds : Holds page used freeM freeS) (fresh : block ∉ freeS)
    (enough : freeS.length ≤ page.created) :
    Holds (page.insertFreeSList block) used freeM
      ((freeS.takeWhile fun other => (page.blocks other).size > (page.blocks block).size) ++
        block :: freeS.dropWhile fun other =>
          (page.blocks other).size > (page.blocks block).size) where
  onUsed := isList_of_fields
    (insertWhere_field (freeSLink_independent fun _ _ _ => rfl) _ _ _ _ block)
    (insertWhere_field (freeSLink_independent fun _ _ _ => rfl) _ _ _ _ block) holds.onUsed
  onFreeM := isList_of_fields
    (insertWhere_field (freeSLink_independent fun _ _ _ => rfl) _ _ _ _ block)
    (insertWhere_field (freeSLink_independent fun _ _ _ => rfl) _ _ _ _ block) holds.onFreeM
  onFreeS := insertWhere_isList holds.onFreeS fresh enough
  detached other outside :=
    (insertWhere_field (freeSLink_independent fun _ _ _ => rfl) _ _ _ _ block other).trans
      (holds.detached other outside)

/-- Rewriting extents does not move a block between lists. -/
theorem modify_holds (update : Block → Block)
    (links : ∀ content, (update content).nextUsed = content.nextUsed ∧
      (update content).prevUsed = content.prevUsed ∧
      (update content).nextFreeM = content.nextFreeM ∧
      (update content).prevFreeM = content.prevFreeM ∧
      (update content).nextFreeS = content.nextFreeS ∧
      (update content).prevFreeS = content.prevFreeS)
    (holds : Holds page used freeM freeS) :
    Holds { page with blocks := page.blocks.modify block update } used freeM freeS where
  onUsed := isList_of_fields (fun ptr => modify_field _ block ptr fun content => (links content).1)
    (fun ptr => modify_field _ block ptr fun content => (links content).2.1) holds.onUsed
  onFreeM := isList_of_fields
    (fun ptr => modify_field _ block ptr fun content => (links content).2.2.1)
    (fun ptr => modify_field _ block ptr fun content => (links content).2.2.2.1) holds.onFreeM
  onFreeS := isList_of_fields
    (fun ptr => modify_field _ block ptr fun content => (links content).2.2.2.2.1)
    (fun ptr => modify_field _ block ptr fun content => (links content).2.2.2.2.2) holds.onFreeS
  detached other outside :=
    (modify_field page.blocks block other fun content => (links content).2.1).trans
      (holds.detached other outside)

theorem setSize_holds (size : Nat) (holds : Holds page used freeM freeS) :
    Holds (page.setSize block size) used freeM freeS :=
  modify_holds _ (fun _ => ⟨rfl, rfl, rfl, rfl, rfl, rfl⟩) holds

theorem newBlock_holds (addr size : Nat) (notUsed : page.created ∉ used)
    (notFreeM : page.created ∉ freeM) (notFreeS : page.created ∉ freeS)
    (holds : Holds page used freeM freeS) :
    Holds (page.newBlock addr size).2 used freeM freeS where
  onUsed := isList_modify_outside (fun _ => Block.new addr size) notUsed holds.onUsed
  onFreeM := isList_modify_outside (fun _ => Block.new addr size) notFreeM holds.onFreeM
  onFreeS := isList_modify_outside (fun _ => Block.new addr size) notFreeS holds.onFreeS
  detached := by
    intro other outside
    by_cases same : other = page.created
    · subst same
      simp [newBlock, Block.new]
    · simp only [newBlock]
      rw [modify_other _ _ same]
      exact holds.detached other outside

/-- Dropping the M-successor of a block, as both merges do by hand. -/
theorem dropNext_holds {left right : List Ptr} {next : Ptr}
    (holds : Holds page used (left ++ block :: next :: right) freeS) :
    Holds { page with blocks := dropNext freeMLink page.blocks block next } used
      (left ++ block :: right) freeS where
  onUsed := isList_of_fields (dropNext_field (freeMLink_independent fun _ _ _ => rfl) _ block next)
    (dropNext_field (freeMLink_independent fun _ _ _ => rfl) _ block next) holds.onUsed
  onFreeM := dropNext_isList holds.onFreeM
  onFreeS := isList_of_fields (dropNext_field (freeMLink_independent fun _ _ _ => rfl) _ block next)
    (dropNext_field (freeMLink_independent fun _ _ _ => rfl) _ block next) holds.onFreeS
  detached other outside :=
    (dropNext_field (freeMLink_independent fun _ _ _ => rfl) _ block next other).trans
      (holds.detached other outside)

theorem dropNext_data (page : Page) (block next : Ptr) :
    SameData page { page with blocks := dropNext freeMLink page.blocks block next } where
  addr := rfl
  size := rfl
  blockAlign := rfl
  created := rfl
  blockAddr := dropNext_field (freeMLink_independent fun _ _ _ => rfl) _ block next
  blockSize := dropNext_field (freeMLink_independent fun _ _ _ => rfl) _ block next

end Primitives

theorem setSize_blockAddr (page : Page) (block other : Ptr) (size : Nat) :
    ((page.setSize block size).blocks other).addr = (page.blocks other).addr :=
  modify_field page.blocks block other (fun _ => rfl : ∀ content : Block,
    Block.addr { content with size := size } = content.addr)

theorem setSize_blockSize (page : Page) (block other : Ptr) (size : Nat) :
    ((page.setSize block size).blocks other).size =
      if other = block then size else (page.blocks other).size := by
  by_cases same : other = block
  · subst same
    simp [setSize]
  · simp [setSize, modify_other _ _ same, same]

theorem newBlock_blockAddr (page : Page) (addr size : Nat) (other : Ptr) :
    ((page.newBlock addr size).2.blocks other).addr =
      if other = page.created then addr else (page.blocks other).addr := by
  by_cases same : other = page.created
  · subst same
    simp [newBlock, Block.new]
  · simp [newBlock, modify_other _ _ same, same]

theorem newBlock_blockSize (page : Page) (addr size : Nat) (other : Ptr) :
    ((page.newBlock addr size).2.blocks other).size =
      if other = page.created then size else (page.blocks other).size := by
  by_cases same : other = page.created
  · subst same
    simp [newBlock, Block.new]
  · simp [newBlock, modify_other _ _ same, same]

end Page

end Espiral.VortexMemoryAllocator
