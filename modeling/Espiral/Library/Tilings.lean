import Mathlib.Data.List.Chain
import Mathlib.Data.List.Nodup

/-!
# Tilings of an address range

A range is cut into consecutive cells of positive size. A cell also carries a
tag of any type; splitting, recolouring or merging cells in place keeps the
tiling as long as the sizes add up.
-/

namespace Tilings

set_option autoImplicit false

structure Cell (Tag : Type*) where
  addr : Nat
  size : Nat
  tag : Tag

variable {Tag : Type*}

def Cell.stop (cell : Cell Tag) : Nat := cell.addr + cell.size

def Tiles : Nat → List (Cell Tag) → Nat → Prop
  | start, [], stop => start = stop
  | start, cell :: rest, stop =>
      cell.addr = start ∧ 0 < cell.size ∧ Tiles cell.stop rest stop

theorem tiles_append (start : Nat) (left right : List (Cell Tag)) (stop : Nat) :
    Tiles start (left ++ right) stop ↔
      ∃ middle, Tiles start left middle ∧ Tiles middle right stop := by
  induction left generalizing start with
  | nil => simp [Tiles]
  | cons cell rest ih =>
      simp only [List.cons_append, Tiles, ih]
      constructor
      · rintro ⟨here, positive, middle, before, after⟩
        exact ⟨middle, ⟨here, positive, before⟩, after⟩
      · rintro ⟨middle, ⟨here, positive, before⟩, after⟩
        exact ⟨here, positive, middle, before, after⟩

theorem tiles_focus (start : Nat) (left : List (Cell Tag)) (cell : Cell Tag)
    (right : List (Cell Tag)) (stop : Nat) :
    Tiles start (left ++ cell :: right) stop ↔
      Tiles start left cell.addr ∧ 0 < cell.size ∧ Tiles cell.stop right stop := by
  rw [tiles_append]
  constructor
  · rintro ⟨middle, before, here, positive, after⟩
    subst here
    exact ⟨before, positive, after⟩
  · rintro ⟨before, positive, after⟩
    exact ⟨cell.addr, before, rfl, positive, after⟩

theorem tiles_le {start stop : Nat} {cells : List (Cell Tag)} (tiles : Tiles start cells stop) :
    start ≤ stop := by
  induction cells generalizing start with
  | nil => exact Nat.le_of_eq tiles
  | cons cell rest ih =>
      rcases tiles with ⟨here, _, tail⟩
      have later := ih tail
      unfold Cell.stop at later
      omega

theorem tiles_mem {start stop : Nat} {cells : List (Cell Tag)} {cell : Cell Tag}
    (tiles : Tiles start cells stop) (member : cell ∈ cells) :
    start ≤ cell.addr ∧ 0 < cell.size ∧ cell.stop ≤ stop := by
  rcases List.append_of_mem member with ⟨left, right, split⟩
  subst split
  rcases (tiles_focus start left cell right stop).mp tiles with ⟨before, positive, after⟩
  exact ⟨tiles_le before, positive, tiles_le after⟩

theorem tiles_pairwise {start stop : Nat} {cells : List (Cell Tag)}
    (tiles : Tiles start cells stop) :
    cells.Pairwise fun first second => first.stop ≤ second.addr := by
  induction cells generalizing start with
  | nil => exact List.Pairwise.nil
  | cons cell rest ih =>
      rcases tiles with ⟨_, _, tail⟩
      apply List.Pairwise.cons
      · intro later member
        exact (tiles_mem tail member).1
      · exact ih tail

theorem tiles_adjacent {start stop : Nat} {left right : List (Cell Tag)}
    {first second : Cell Tag} (tiles : Tiles start (left ++ first :: second :: right) stop) :
    first.stop = second.addr := by
  rcases (tiles_focus start left first _ stop).mp tiles with ⟨_, _, adjacent, _⟩
  exact adjacent.symm

theorem tiles_retag {start stop : Nat} {left right : List (Cell Tag)} {cell : Cell Tag}
    (tag : Tag) (tiles : Tiles start (left ++ cell :: right) stop) :
    Tiles start (left ++ { cell with tag := tag } :: right) stop :=
  (tiles_focus start left _ right stop).mpr ((tiles_focus start left cell right stop).mp tiles)

theorem tiles_split {start stop : Nat} {left right : List (Cell Tag)} {cell : Cell Tag}
    (size : Nat) (first second : Tag) (positive : 0 < size) (smaller : size < cell.size)
    (tiles : Tiles start (left ++ cell :: right) stop) :
    Tiles start (left ++ { addr := cell.addr, size := size, tag := first } ::
      { addr := cell.addr + size, size := cell.size - size, tag := second } :: right) stop := by
  rcases (tiles_focus start left cell right stop).mp tiles with ⟨before, _, after⟩
  apply (tiles_focus start left _ _ stop).mpr
  refine ⟨before, positive, rfl, Nat.sub_pos_of_lt smaller, ?_⟩
  have meet : cell.addr + size + (cell.size - size) = cell.stop := by
    unfold Cell.stop
    omega
  simpa [Cell.stop, meet] using after

theorem tiles_join {start stop : Nat} {left right : List (Cell Tag)} {first second : Cell Tag}
    (tag : Tag) (tiles : Tiles start (left ++ first :: second :: right) stop) :
    Tiles start (left ++ { addr := first.addr, size := first.size + second.size, tag := tag } ::
      right) stop := by
  rcases (tiles_focus start left first _ stop).mp tiles with
    ⟨before, positive, adjacent, _, after⟩
  apply (tiles_focus start left _ right stop).mpr
  refine ⟨before, by simp only; omega, ?_⟩
  have meet : first.addr + (first.size + second.size) = second.stop := by
    unfold Cell.stop at *
    omega
  simpa [Cell.stop, meet] using after

/-- A tiling says nothing about the tags. -/
theorem tiles_of_extents {Other : Type*} {start stop : Nat} {cells : List (Cell Tag)}
    (change : Cell Tag → Cell Other)
    (same : ∀ cell ∈ cells, (change cell).addr = cell.addr ∧ (change cell).size = cell.size)
    (tiles : Tiles start cells stop) : Tiles start (cells.map change) stop := by
  induction cells generalizing start with
  | nil => exact tiles
  | cons cell rest ih =>
      rcases tiles with ⟨here, positive, tail⟩
      rcases same cell (by simp) with ⟨addr, size⟩
      have stops : (change cell).stop = cell.stop := by
        rw [Cell.stop, Cell.stop, addr, size]
      refine ⟨by rw [addr]; exact here, by rw [size]; exact positive, ?_⟩
      rw [stops]
      exact ih (fun other member => same other (by simp [member])) tail

theorem tiles_dvd {start stop align : Nat} {cells : List (Cell Tag)}
    (tiles : Tiles start cells stop) (aligned : align ∣ start)
    (sizes : ∀ cell ∈ cells, align ∣ cell.size) : ∀ cell ∈ cells, align ∣ cell.addr := by
  induction cells generalizing start with
  | nil => simp
  | cons first rest ih =>
      rcases tiles with ⟨here, _, tail⟩
      have firstAligned : align ∣ first.addr := by
        rw [here]
        exact aligned
      have next : align ∣ first.stop := Nat.dvd_add firstAligned (sizes first (by simp))
      intro cell member
      cases List.mem_cons.mp member with
      | inl same =>
          rw [same]
          exact firstAligned
      | inr later => exact ih tail next (fun other inside => sizes other (by simp [inside])) cell later

theorem tiles_cover {start stop byte : Nat} {cells : List (Cell Tag)}
    (tiles : Tiles start cells stop) (low : start ≤ byte) (high : byte < stop) :
    ∃ cell ∈ cells, cell.addr ≤ byte ∧ byte < cell.stop := by
  induction cells generalizing start with
  | nil =>
      have same : start = stop := tiles
      omega
  | cons cell rest ih =>
      rcases tiles with ⟨here, _, tail⟩
      by_cases inside : byte < cell.stop
      · exact ⟨cell, by simp, by omega, inside⟩
      · rcases ih tail (Nat.not_lt.mp inside) with ⟨other, member, found⟩
        exact ⟨other, by simp [member], found⟩

theorem tiles_apart {start stop : Nat} {cells : List (Cell Tag)} {first second : Cell Tag}
    (tiles : Tiles start cells stop) (firstMember : first ∈ cells) (secondMember : second ∈ cells)
    (different : first ≠ second) : first.stop ≤ second.addr ∨ second.stop ≤ first.addr := by
  have symmetric : Std.Symm fun one two : Cell Tag =>
      one.stop ≤ two.addr ∨ two.stop ≤ one.addr := ⟨fun _ _ => Or.symm⟩
  have ordered := (tiles_pairwise tiles).imp
    (fun {one two} order => (Or.inl order : one.stop ≤ two.addr ∨ two.stop ≤ one.addr))
  exact ordered.forall firstMember secondMember different

section Gaps

/-- A range that shares no byte with the taken ones and cannot be extended on either side. -/
structure MaximalGap (start stop : Nat) (taken : Nat × Nat → Prop) (range : Nat × Nat) : Prop where
  positive : 0 < range.2
  low : start ≤ range.1
  high : range.1 + range.2 ≤ stop
  clear : ∀ other, taken other → other.1 + other.2 ≤ range.1 ∨ range.1 + range.2 ≤ other.1
  leftEnd : range.1 = start ∨ ∃ other, taken other ∧ other.1 + other.2 = range.1
  rightEnd : range.1 + range.2 = stop ∨ ∃ other, taken other ∧ other.1 = range.1 + range.2

def Separated (free : Tag → Prop) (cells : List (Cell Tag)) : Prop :=
  cells.IsChain fun first second => ¬(free first.tag ∧ free second.tag)

def ExtentOf (kind : Tag → Prop) (cells : List (Cell Tag)) (range : Nat × Nat) : Prop :=
  ∃ cell ∈ cells, kind cell.tag ∧ (cell.addr, cell.size) = range

variable {free : Tag → Prop} {start stop : Nat} {left right : List (Cell Tag)} {cell : Cell Tag}

theorem Separated.leftEnd (tiles : Tiles start (left ++ cell :: right) stop)
    (separated : Separated free (left ++ cell :: right)) (isFree : free cell.tag) :
    cell.addr = start ∨ ∃ other ∈ left, ¬free other.tag ∧ other.stop = cell.addr := by
  rcases List.eq_nil_or_concat left with empty | ⟨front, last, split⟩
  · left
    subst empty
    exact tiles.1
  · right
    rw [List.concat_eq_append] at split
    subst split
    rw [Separated, List.append_assoc, List.singleton_append, List.isChain_append,
      List.isChain_cons] at separated
    rw [List.append_assoc, List.singleton_append] at tiles
    refine ⟨last, by simp, ?_, tiles_adjacent tiles⟩
    intro lastFree
    exact separated.2.1.1 cell rfl ⟨lastFree, isFree⟩

theorem Separated.rightEnd (tiles : Tiles start (left ++ cell :: right) stop)
    (separated : Separated free (left ++ cell :: right)) (isFree : free cell.tag) :
    cell.stop = stop ∨ ∃ other ∈ right, ¬free other.tag ∧ other.addr = cell.stop := by
  cases right with
  | nil =>
      left
      exact ((tiles_focus start left cell [] stop).mp tiles).2.2
  | cons next rest =>
      right
      rw [Separated, List.isChain_append, List.isChain_cons] at separated
      refine ⟨next, by simp, ?_, (tiles_adjacent tiles).symm⟩
      intro nextFree
      exact separated.2.1.1 next rfl ⟨isFree, nextFree⟩

theorem Separated.not_touching {cells : List (Cell Tag)} {first second : Cell Tag}
    (tiles : Tiles start cells stop) (separated : Separated free cells)
    (firstMember : first ∈ cells) (secondMember : second ∈ cells) (firstFree : free first.tag)
    (secondFree : free second.tag) : first.stop ≠ second.addr := by
  intro touching
  have bounds := tiles_mem tiles secondMember
  unfold Cell.stop at bounds
  rcases List.append_of_mem firstMember with ⟨left, right, split⟩
  rw [split] at tiles separated
  rcases separated.rightEnd tiles firstFree with last | ⟨other, inside, taken, begins⟩
  · omega
  · have different : other ≠ second := by
      intro same
      exact taken (same ▸ secondFree)
    have otherMember : other ∈ left ++ first :: right := by simp [inside]
    have positive := (tiles_mem tiles otherMember).2.1
    have apart := tiles_apart tiles otherMember (split ▸ secondMember) different
    unfold Cell.stop at apart begins touching
    omega

theorem Separated.single {cells : List (Cell Tag)} (tiles : Tiles start cells stop)
    (separated : Separated free cells) (allFree : ∀ cell ∈ cells, free cell.tag)
    (some : start < stop) : ∃ cell, cells = [cell] ∧ cell.addr = start ∧ cell.stop = stop := by
  cases cells with
  | nil =>
      have same : start = stop := tiles
      omega
  | cons first rest =>
      cases rest with
      | nil => exact ⟨first, rfl, tiles.1, tiles.2.2⟩
      | cons second rest =>
          exfalso
          have apart := (List.isChain_cons.mp separated).1 second rfl
          exact apart ⟨allFree first (by simp), allFree second (by simp)⟩

/-- Where no two free cells touch, the free cells are the maximal gaps between the others:
the others alone determine the tiling. -/
theorem free_iff_maximalGap {cells : List (Cell Tag)} (tiles : Tiles start cells stop)
    (separated : Separated free cells) (range : Nat × Nat) :
    ExtentOf free cells range ↔
      MaximalGap start stop (ExtentOf (fun tag => ¬free tag) cells) range := by
  constructor
  · rintro ⟨cell, member, isFree, rfl⟩
    have bounds := tiles_mem tiles member
    have apart : ∀ other ∈ cells, ¬free other.tag →
        other.stop ≤ cell.addr ∨ cell.stop ≤ other.addr := by
      intro other otherMember taken
      apply tiles_apart tiles otherMember member
      intro same
      exact taken (same ▸ isFree)
    rcases List.append_of_mem member with ⟨left, right, split⟩
    rw [split] at tiles separated
    refine ⟨bounds.2.1, bounds.1, bounds.2.2, ?_, ?_, ?_⟩
    · rintro _ ⟨other, otherMember, taken, rfl⟩
      exact apart other otherMember taken
    · rcases separated.leftEnd tiles isFree with first | ⟨other, inside, taken, ends⟩
      · exact Or.inl first
      · exact Or.inr ⟨_, ⟨other, by rw [split]; simp [inside], taken, rfl⟩, ends⟩
    · rcases separated.rightEnd tiles isFree with last | ⟨other, inside, taken, begins⟩
      · exact Or.inl last
      · exact Or.inr ⟨_, ⟨other, by rw [split]; simp [inside], taken, rfl⟩, begins⟩
  · rintro ⟨positive, low, high, clear, leftEnd, rightEnd⟩
    rcases tiles_cover tiles low (by omega) with ⟨cell, member, starts, covers⟩
    have bounds := tiles_mem tiles member
    have isFree : free cell.tag := by
      by_contra taken
      have apart := clear (cell.addr, cell.size) ⟨cell, member, taken, rfl⟩
      unfold Cell.stop at covers
      simp only at apart
      omega
    have apart : ∀ other ∈ cells, ¬free other.tag →
        other.stop ≤ cell.addr ∨ cell.stop ≤ other.addr := by
      intro other otherMember taken
      apply tiles_apart tiles otherMember member
      intro same
      exact taken (same ▸ isFree)
    have sameStart : cell.addr = range.1 := by
      rcases leftEnd with first | ⟨_, ⟨other, otherMember, taken, rfl⟩, ends⟩
      · omega
      · have positiveOther := (tiles_mem tiles otherMember).2.1
        have order := apart other otherMember taken
        unfold Cell.stop at order covers
        simp only at ends
        omega
    have sameStop : cell.stop = range.1 + range.2 := by
      have within : cell.stop ≤ range.1 + range.2 := by
        rcases rightEnd with last | ⟨_, ⟨other, otherMember, taken, rfl⟩, begins⟩
        · omega
        · have positiveOther := (tiles_mem tiles otherMember).2.1
          have order := apart other otherMember taken
          unfold Cell.stop at order covers ⊢
          simp only at begins
          omega
      rcases List.append_of_mem member with ⟨left, right, split⟩
      rw [split] at tiles separated
      rcases separated.rightEnd tiles isFree with last | ⟨other, inside, taken, begins⟩
      · omega
      · have inCells : other ∈ cells := by
          rw [split]
          simp [inside]
        have positiveOther := (tiles_mem tiles (split ▸ inCells)).2.1
        have order := clear _ ⟨other, inCells, taken, rfl⟩
        simp only at order
        omega
    refine ⟨cell, member, isFree, ?_⟩
    unfold Cell.stop at sameStop
    exact Prod.ext sameStart (by simp only; omega)

end Gaps

end Tilings
