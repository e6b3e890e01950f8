import Espiral.Allocator.SoundPages
import Espiral.Allocator.VortexMemoryAllocator

/-!
# The allocator between two calls

The pages are disjoint, in address order and each of them is sound, and the
counter of allocated bytes is the sum over the used blocks. Below each call
is reduced to what it does to the list of pages and to the used blocks.
-/

namespace Espiral.VortexMemoryAllocator

set_option autoImplicit false

open IntrusiveLists MachineWords Tilings

def Page.stop (page : Page) : Nat := page.addr + page.size

def Page.extent (page : Page) : Nat × Nat := (page.addr, page.size)

def Ordered (pages : List Page) : Prop :=
  pages.Pairwise fun first second => first.stop ≤ second.addr

def extents (self : VortexMemoryAllocator) : List (Nat × Nat) := self.pages_.map Page.extent

structure Configured (state : VortexMemoryAllocator) : Prop where
  pageAlign : ∃ bits < 32, state.pageAlign_ = 2 ^ bits
  blockAlign : ∃ bits < 32, state.blockAlign_ = 2 ^ bits
  fits : state.baseAddress_ + state.capacity_ < 2 ^ 64

structure Sound (state : VortexMemoryAllocator) : Prop extends Configured state where
  pages : ∀ page ∈ state.pages_, page.Sound state.blockAlign_
  ordered : Ordered state.pages_
  accounted : state.allocated_ = (state.usedBlocks.map Prod.snd).sum

structure SameSettings (state next : VortexMemoryAllocator) : Prop where
  baseAddress : next.baseAddress_ = state.baseAddress_
  capacity : next.capacity_ = state.capacity_
  pageAlign : next.pageAlign_ = state.pageAlign_
  blockAlign : next.blockAlign_ = state.blockAlign_

theorem SameSettings.trans {first second third : VortexMemoryAllocator}
    (left : SameSettings first second) (right : SameSettings second third) :
    SameSettings first third where
  baseAddress := right.baseAddress.trans left.baseAddress
  capacity := right.capacity.trans left.capacity
  pageAlign := right.pageAlign.trans left.pageAlign
  blockAlign := right.blockAlign.trans left.blockAlign

theorem Configured.same {self next : VortexMemoryAllocator} (configured : Configured self)
    (same : SameSettings self next) : Configured next where
  pageAlign := by rw [same.pageAlign]; exact configured.pageAlign
  blockAlign := by rw [same.blockAlign]; exact configured.blockAlign
  fits := by rw [same.baseAddress, same.capacity]; exact configured.fits

theorem alignSize_roundUp {size alignment : Nat} (power : ∃ bits < 32, alignment = 2 ^ bits)
    (fits : roundUp size alignment < 2 ^ 64) :
    alignSize size alignment = roundUp size alignment := by
  rcases power with ⟨bits, small, rfl⟩
  exact mask_roundUp (by omega) fits

theorem alignment_pos {alignment : Nat} (power : ∃ bits < 32, alignment = 2 ^ bits) :
    0 < alignment := by
  rcases power with ⟨bits, _, rfl⟩
  positivity

/-- Of two powers of two one divides the other, so rounding to one after the
other keeps the first alignment. -/
theorem dvd_roundUp_roundUp {size first second : Nat} (firstPower : ∃ bits < 32, first = 2 ^ bits)
    (secondPower : ∃ bits < 32, second = 2 ^ bits) :
    first ∣ roundUp (roundUp size first) second := by
  have positive := alignment_pos secondPower
  rcases firstPower with ⟨low, _, rfl⟩
  rcases secondPower with ⟨high, _, rfl⟩
  rcases Nat.le_total low high with order | order
  · exact (Nat.pow_dvd_pow 2 order).trans (dvd_roundUp _ _)
  · rw [roundUp_of_dvd positive ((Nat.pow_dvd_pow 2 order).trans (dvd_roundUp _ _))]
    exact dvd_roundUp _ _

section Pages

variable {align : Nat} {pages : List Page}

theorem findPage_some {search : Page → Option Ptr} {page : Nat} {block : Ptr}
    (found : findPage search pages = some (page, block)) :
    ∃ before currPage after, pages = before ++ currPage :: after ∧ before.length = page ∧
      search currPage = some block ∧ ∀ other ∈ before, search other = none := by
  induction pages generalizing page with
  | nil => simp [findPage] at found
  | cons first rest ih =>
      cases here : search first with
      | some hit =>
          simp only [findPage, here, Option.some.injEq, Prod.mk.injEq] at found
          exact ⟨[], first, rest, rfl, found.1, by rw [here, found.2], by simp⟩
      | none =>
          simp only [findPage, here, Option.map_eq_some_iff, Prod.mk.injEq] at found
          rcases found with ⟨⟨later, hit⟩, found, position, same⟩
          change hit = block at same
          rw [same] at found
          rcases ih found with ⟨before, currPage, after, split, count, success, missing⟩
          refine ⟨first :: before, currPage, after, by rw [split]; rfl, ?_, success, ?_⟩
          · rw [List.length_cons, count]
            exact position
          · intro other member
            rcases List.mem_cons.mp member with same | inside
            · rw [same]
              exact here
            · exact missing other inside

theorem findPage_none {search : Page → Option Ptr} :
    findPage search pages = none ↔ ∀ page ∈ pages, search page = none := by
  induction pages with
  | nil => simp [findPage]
  | cons first rest ih =>
      cases here : search first with
      | some hit => simp [findPage, here]
      | none => simp [findPage, here, ih]

theorem ordered_append {left right : List Page} :
    Ordered (left ++ right) ↔
      Ordered left ∧ Ordered right ∧ ∀ p ∈ left, ∀ q ∈ right, p.stop ≤ q.addr :=
  List.pairwise_append

theorem ordered_cons {page : Page} {rest : List Page} :
    Ordered (page :: rest) ↔ (∀ q ∈ rest, page.stop ≤ q.addr) ∧ Ordered rest :=
  List.pairwise_cons

theorem ordered_replace {before after : List Page} {page other : Page}
    (addr : other.addr = page.addr) (size : other.size = page.size)
    (ordered : Ordered (before ++ page :: after)) : Ordered (before ++ other :: after) := by
  rcases ordered_append.mp ordered with ⟨left, tail, across⟩
  rcases ordered_cons.mp tail with ⟨here, right⟩
  have stop : other.stop = page.stop := by rw [Page.stop, Page.stop, addr, size]
  apply ordered_append.mpr
  refine ⟨left, ordered_cons.mpr ⟨?_, right⟩, ?_⟩
  · intro q member
    rw [stop]
    exact here q member
  · intro p inLeft q inTail
    rcases List.mem_cons.mp inTail with same | inRight
    · rw [same, addr]
      exact across p inLeft page (by simp)
    · exact across p inLeft q (by simp [inRight])

theorem ordered_remove {before after : List Page} {page : Page}
    (ordered : Ordered (before ++ page :: after)) : Ordered (before ++ after) :=
  List.Pairwise.sublist (List.Sublist.append (List.Sublist.refl before)
    (List.sublist_cons_self page after)) ordered

theorem insertAfter_position (newPage : Page) (pages : List Page) :
    ∃ before after, pages = before ++ after ∧
      insertAfter newPage pages = before ++ newPage :: after ∧
      positionAfter newPage pages = before.length ∧
      (∀ page ∈ before, page.addr < newPage.addr) ∧
      ∀ next rest, after = next :: rest → newPage.addr ≤ next.addr := by
  induction pages with
  | nil => exact ⟨[], [], rfl, rfl, rfl, by simp, by simp⟩
  | cons next rest ih =>
      by_cases forward : next.addr < newPage.addr
      · rcases ih with ⟨before, after, split, inserted, position, below, behind⟩
        refine ⟨next :: before, after, by rw [split]; rfl, ?_, ?_, ?_, behind⟩
        · rw [insertAfter, if_pos forward, inserted, List.cons_append]
        · rw [positionAfter, if_pos forward, position, List.length_cons]
        · exact List.forall_mem_cons.mpr ⟨forward, below⟩
      · refine ⟨[], next :: rest, rfl, ?_, ?_, by simp, ?_⟩
        · rw [insertAfter, if_neg forward, List.nil_append]
        · rw [positionAfter, if_neg forward, List.length_nil]
        · intro first others same
          cases same
          exact Nat.not_lt.mp forward

theorem insertAfter_split {newPage : Page} (positive : 0 < newPage.size)
    (sound : ∀ page ∈ pages, page.Sound align) (ordered : Ordered pages)
    (apart : ∀ page ∈ pages, Page.Apart page.extent newPage.extent) :
    ∃ before after, pages = before ++ after ∧
      insertAfter newPage pages = before ++ newPage :: after ∧
      positionAfter newPage pages = before.length ∧
      (∀ page ∈ before, page.stop ≤ newPage.addr) ∧
      ∀ page ∈ after, newPage.stop ≤ page.addr := by
  rcases insertAfter_position newPage pages with
    ⟨before, after, split, inserted, position, below, behind⟩
  refine ⟨before, after, split, inserted, position, ?_, ?_⟩
  · intro page member
    have pageApart := apart page (by simp [split, member])
    have pageBelow := below page member
    unfold Page.Apart Page.extent at pageApart
    unfold Page.stop
    omega
  · cases after with
    | nil => simp
    | cons next rest =>
        have listed : next ∈ pages := by simp [split]
        have nextApart := apart next listed
        have nextBehind := behind next rest rfl
        have nextPositive := (sound next listed).positive
        unfold Page.Apart Page.extent at nextApart
        have nextStart : newPage.stop ≤ next.addr := by
          unfold Page.stop
          omega
        rw [split] at ordered
        have later := (ordered_cons.mp (ordered_append.mp ordered).2.1).1
        have nextStop : next.addr ≤ next.stop := Nat.le_add_right next.addr next.size
        intro page member
        rcases List.mem_cons.mp member with same | inside
        · rw [same]
          exact nextStart
        · exact Nat.le_trans nextStart (Nat.le_trans nextStop (later page inside))

theorem insertPage_eq {newPage : Page} (positive : 0 < newPage.size)
    (sound : ∀ page ∈ pages, page.Sound align)
    (apart : ∀ page ∈ pages, Page.Apart page.extent newPage.extent) :
    insertPage newPage pages = insertAfter newPage pages ∧
      positionOf newPage pages = positionAfter newPage pages := by
  cases pages with
  | nil => exact ⟨rfl, rfl⟩
  | cons first rest =>
      have firstApart := apart first (by simp)
      have firstPositive := (sound first (by simp)).positive
      unfold Page.Apart Page.extent at firstApart
      by_cases forward : first.addr < newPage.addr
      · have notGreater : ¬newPage.addr < first.addr := by omega
        simp [insertPage, positionOf, insertAfter, positionAfter, forward, notGreater]
      · have greater : newPage.addr < first.addr := by omega
        simp [insertPage, positionOf, insertAfter, positionAfter, forward, greater]

def endOfLast (start : Nat) (pages : List Page) : Nat :=
  pages.foldl (fun _ page => page.stop) start

theorem endOfLast_append (start : Nat) (before : List Page) (page : Page) :
    endOfLast start (before ++ [page]) = page.stop := by
  simp [endOfLast]

/-- No end address wraps around on the way of the scan to the first place that holds a page of
this size. After the last page it may, as long as what is left of it exceeds the limit. -/
def ScanFits (size limit : Nat) : Nat → List Page → Prop
  | endOfLastPage, [] =>
      endOfLastPage + size < 2 ^ 64 ∨ limit + 2 ^ 64 < endOfLastPage + size
  | endOfLastPage, current :: rest =>
      endOfLastPage + size < 2 ^ 64 ∧
        (endOfLastPage + size ≤ current.addr ∨ ScanFits size limit current.stop rest)

theorem scanFits_of_ends {start size : Nat} (limit : Nat) (startFits : start + size < 2 ^ 64)
    (fits : ∀ page ∈ pages, page.stop + size < 2 ^ 64) : ScanFits size limit start pages := by
  induction pages generalizing start with
  | nil => exact Or.inl startFits
  | cons current rest ih =>
      refine ⟨startFits, Or.inr ?_⟩
      exact ih (fits current (by simp)) fun page member => fits page (by simp [member])

theorem scanGaps_spec {start size limit : Nat} (sound : ∀ page ∈ pages, page.Sound align)
    (fits : ScanFits size limit start pages) :
    (∃ before next after, pages = before ++ next :: after ∧
      scanGaps size start pages = .inl (endOfLast start before) ∧
      endOfLast start before + size ≤ next.addr ∧
      ∀ left page right, before = left ++ page :: right →
        page.addr < endOfLast start left + size) ∨
    (scanGaps size start pages = .inr (endOfLast start pages) ∧
      (∀ left page right, pages = left ++ page :: right →
        page.addr < endOfLast start left + size) ∧
      (endOfLast start pages + size < 2 ^ 64 ∨
        limit + 2 ^ 64 < endOfLast start pages + size)) := by
  induction pages generalizing start with
  | nil => exact Or.inr ⟨rfl, by simp, fits⟩
  | cons current rest ih =>
      rcases fits with ⟨startFits, restFits⟩
      have pageEnd : add64 current.addr current.size = current.stop :=
        add64_of_lt (sound current (by simp)).fits
      by_cases room : start + size ≤ current.addr
      · left
        refine ⟨[], current, rest, rfl, ?_, room, by simp⟩
        simp [scanGaps, add64_of_lt startFits, room, endOfLast]
      · have step : scanGaps size start (current :: rest) =
            scanGaps size current.stop rest := by
          simp [scanGaps, add64_of_lt startFits, room, pageEnd]
        have tooSmall : ∀ (inner : List Page),
            (∀ left page right, inner = left ++ page :: right →
              page.addr < endOfLast current.stop left + size) →
            ∀ left page right, current :: inner = left ++ page :: right →
              page.addr < endOfLast start left + size := by
          intro inner rest left page right split
          cases left with
          | nil =>
              rw [List.nil_append, List.cons.injEq] at split
              rw [← split.1]
              exact Nat.not_le.mp room
          | cons first left =>
              rw [List.cons_append, List.cons.injEq] at split
              rw [← split.1]
              exact rest left page right split.2
        rw [step]
        rcases ih (fun page member => sound page (by simp [member]))
            (restFits.resolve_left room) with
          ⟨before, next, after, split, gap, fitsGap, none⟩ | ⟨last, none, lastFits⟩
        · left
          exact ⟨current :: before, next, after, by rw [split]; rfl, gap, fitsGap,
            tooSmall before none⟩
        · right
          exact ⟨last, tooSmall rest none, lastFits⟩

theorem stop_le_endOfLast {start : Nat} {page : Page} (sound : ∀ page ∈ pages, page.Sound align)
    (ordered : Ordered pages) (member : page ∈ pages) : page.stop ≤ endOfLast start pages := by
  rcases List.eq_nil_or_concat pages with empty | ⟨front, last, split⟩
  · simp [empty] at member
  · rw [List.concat_eq_append] at split
    subst split
    rw [endOfLast_append]
    rcases List.mem_append.mp member with inside | here
    · have order := (ordered_append.mp ordered).2.2 page inside last (by simp)
      have positive := (sound last (by simp)).positive
      unfold Page.stop at order ⊢
      omega
    · rw [List.mem_singleton.mp here]

theorem sum_used_le {start stop : Nat} (sound : ∀ page ∈ pages, page.Sound align)
    (ordered : Ordered pages) (inside : ∀ page ∈ pages, start ≤ page.addr ∧ page.stop ≤ stop)
    (range : start ≤ stop) :
    start + ((pages.flatMap Page.usedBlocks).map Prod.snd).sum ≤ stop := by
  induction pages generalizing start with
  | nil => simpa using range
  | cons page rest ih =>
      rcases ordered_cons.mp ordered with ⟨later, tail⟩
      have here := inside page (by simp)
      have used := (sound page (by simp)).sum_used_le
      have others := ih (fun other member => sound other (by simp [member])) tail
        (fun other member => ⟨later other member, (inside other (by simp [member])).2⟩) here.2
      simp only [List.flatMap_cons, List.map_append, List.sum_append]
      unfold Page.stop at others here
      omega

theorem used_apart (sound : ∀ page ∈ pages, page.Sound align) (ordered : Ordered pages) :
    (pages.flatMap Page.usedBlocks).Pairwise Page.Apart := by
  induction pages with
  | nil => exact List.Pairwise.nil
  | cons page rest ih =>
      rcases ordered_cons.mp ordered with ⟨later, tail⟩
      rw [List.flatMap_cons, List.pairwise_append]
      refine ⟨(sound page (by simp)).used_apart,
        ih (fun other member => sound other (by simp [member])) tail, ?_⟩
      intro first firstMember second secondMember
      rcases List.mem_flatMap.mp secondMember with ⟨other, otherMember, inOther⟩
      have firstInside := (sound page (by simp)).used_inside firstMember
      have secondInside := (sound other (by simp [otherMember])).used_inside inOther
      have order := later other otherMember
      unfold Page.stop at order
      exact Or.inl (by omega)

end Pages

section Sound

variable {self next : VortexMemoryAllocator}

theorem Sound.used_apart (sound : Sound self) : self.usedBlocks.Pairwise Page.Apart :=
  VortexMemoryAllocator.used_apart sound.pages sound.ordered

theorem Sound.used_positive (sound : Sound self) {block : Nat × Nat}
    (member : block ∈ self.usedBlocks) : 0 < block.2 := by
  rcases List.mem_flatMap.mp member with ⟨page, inPages, inPage⟩
  exact ((sound.pages page inPages).used_inside inPage).2.1

theorem usedBlocks_split {before after : List Page} {page : Page}
    (split : self.pages_ = before ++ page :: after) :
    self.usedBlocks.Perm (page.usedBlocks ++ (before ++ after).flatMap Page.usedBlocks) := by
  rw [usedBlocks, split, List.flatMap_append, List.flatMap_cons, List.flatMap_append]
  rw [← List.append_assoc, ← List.append_assoc]
  exact List.Perm.append_right _ List.perm_append_comm

theorem sum_perm_cons {first second : List (Nat × Nat)} {block : Nat × Nat}
    (perm : first.Perm (block :: second)) :
    (first.map Prod.snd).sum = block.2 + (second.map Prod.snd).sum := by
  rw [(perm.map Prod.snd).sum_eq, List.map_cons, List.sum_cons]

theorem sum_used_lt (sound : Sound self) : (self.usedBlocks.map Prod.snd).sum < 2 ^ 64 := by
  have bound := @sum_used_le _ _ 0 (2 ^ 64 - 1) sound.pages sound.ordered
    (fun other member => ⟨Nat.zero_le _, Nat.le_sub_one_of_lt (sound.pages other member).fits⟩)
    (Nat.zero_le _)
  rw [Nat.zero_add] at bound
  exact Nat.lt_of_le_of_lt bound (by decide)

structure Grant (state next : VortexMemoryAllocator) (addr size : Nat) : Prop where
  sound : Sound next
  settings : SameSettings state next
  used : next.usedBlocks.Perm ((addr, size) :: state.usedBlocks)

theorem grant_of_page (sound : Sound self) {before after : List Page} {page : Page}
    {addr size : Nat} (settings : SameSettings self next)
    (pages : next.pages_ = before ++ page :: after)
    (pageSound : page.Sound self.blockAlign_)
    (others : ∀ other ∈ before ++ after, other ∈ self.pages_)
    (ordered : Ordered next.pages_) (allocated : next.allocated_ = add64 self.allocated_ size)
    (used : next.usedBlocks.Perm ((addr, size) :: self.usedBlocks)) :
    Grant self next addr size := by
  have everyPage : ∀ other ∈ next.pages_, other.Sound next.blockAlign_ := by
    intro other member
    rw [pages] at member
    rw [settings.blockAlign]
    simp only [List.mem_append, List.mem_cons] at member
    rcases member with inBefore | here | inAfter
    · exact sound.pages other (others other (by simp [inBefore]))
    · rw [here]
      exact pageSound
    · exact sound.pages other (others other (by simp [inAfter]))
  have total := sum_perm_cons used
  have bound := @sum_used_le _ _ 0 (2 ^ 64 - 1) everyPage ordered
    (fun other member => ⟨Nat.zero_le _, Nat.le_sub_one_of_lt (everyPage other member).fits⟩)
    (Nat.zero_le _)
  refine ⟨⟨sound.toConfigured.same settings, everyPage, ordered, ?_⟩, settings, used⟩
  rw [allocated, sound.accounted]
  have sum : (next.usedBlocks.map Prod.snd).sum ≤ 2 ^ 64 - 1 := by
    rw [Nat.zero_add] at bound
    exact bound
  rw [total] at sum ⊢
  rw [Nat.add_comm]
  exact add64_of_lt (by omega)

end Sound

end Espiral.VortexMemoryAllocator
