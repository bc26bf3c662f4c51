import Mathlib.Data.Rat.Floor
import Mathlib.Tactic

/-!
# Pages

`BaseRepository.list_paginated` of `apps/core/base/repository.py` cuts a page out of a queryset
by offset; `PaginatedResponse` of `apps/core/responses/paginated.py` reports how many pages there
are and whether there is one before and after. The one multiplies, the other divides and rounds
up. `paging_covers_once` says that they agree.

`PaginatedResponse` can also be given a page of Django's paginator, and then copies its numbers.
`pagination_blocks_agree` compares the two.
-/

namespace DjangoBoilerplate

namespace Paging

variable {R T : Type}

/-! ## The repository -/

/-- A model: its rows in the order of its manager, and its column `is_active` if it has one. -/
structure Table (R : Type) : Type where
  /-- the rows -/
  rows : List R
  /-- the column -/
  isActive : Option (R → Bool)

/-- `BaseRepository.list(active_only=...)`. -/
def Table.list (t : Table R) (activeOnly : Bool) : List R :=
  match activeOnly, t.isActive with
  | true, some isActive => t.rows.filter isActive
  | _, _ => t.rows

/-- `qs[start:stop]`; `none` is the `ValueError` of a negative index. -/
def slice (qs : List R) (start stop : ℤ) : Option (List R) :=
  if start < 0 ∨ stop < 0 then none
  else some ((qs.drop start.toNat).take (stop - start).toNat)

/-- `BaseRepository.list_paginated(page, page_size, active_only)`: the rows of the page, and the
total. -/
def Table.listPaginated (t : Table R) (page pageSize : ℤ) (activeOnly : Bool) :
    Option (List R × ℕ) :=
  let qs := t.list activeOnly
  let total := qs.length
  let offset := max (page - 1) 0 * pageSize
  (slice qs offset (offset + pageSize)).map fun items => (items, total)

/-! ## Django's paginator -/

/-- A `Paginator`, by what a response reads of it. -/
structure Paginator : Type where
  /-- `count` -/
  count : ℕ
  /-- `per_page` -/
  perPage : ℤ
  /-- `num_pages` -/
  numPages : ℤ

/-- A `Page`, likewise. -/
structure Page (T : Type) : Type where
  /-- `object_list` -/
  objectList : List T
  /-- `number` -/
  number : ℤ
  /-- `paginator` -/
  paginator : Paginator
  /-- `has_next()` -/
  hasNext : Bool
  /-- `has_previous()` -/
  hasPrevious : Bool

/-- The page is one that Django's paginator gives, an empty first page being allowed. -/
structure Page.Given (page : Page T) : Prop where
  /-- `Paginator.num_pages` -/
  numPages : page.paginator.numPages =
    ⌈(max 1 page.paginator.count : ℚ) / page.paginator.perPage⌉
  /-- `Page.has_next` -/
  hasNext : page.hasNext = decide (page.number < page.paginator.numPages)
  /-- `Page.has_previous` -/
  hasPrevious : page.hasPrevious = decide (page.number > 1)
  /-- `Paginator.validate_number` -/
  accepted : 1 ≤ page.number ∧ page.number ≤ page.paginator.numPages

/-! ## The response -/

/-- The block `"pagination"` of a response. -/
structure Pagination : Type where
  /-- `total_count` -/
  totalCount : ℤ
  /-- `page_size` -/
  pageSize : ℤ
  /-- `page_number` -/
  pageNumber : ℤ
  /-- `total_pages` -/
  totalPages : ℤ
  /-- `has_previous` -/
  hasPrevious : Bool
  /-- `has_next` -/
  hasNext : Bool
deriving DecidableEq

/-- The `data` of a response. -/
structure Data (T : Type) : Type where
  /-- `items` -/
  items : List T
  /-- `pagination` -/
  pagination : Pagination

/-- `math.ceil(total_count / page_size) if page_size > 0 else 0`. -/
def totalPages (totalCount pageSize : ℤ) : ℤ :=
  if pageSize > 0 then ⌈(totalCount : ℚ) / pageSize⌉ else 0

/-- `PaginatedResponse(page=, items=, total_count=, page_size=, page_number=)`; `none` is the
`ValueError` of a number that is missing. -/
def paginatedResponse (page : Option (Page T)) (items : Option (List T))
    (totalCount pageSize pageNumber : Option ℤ) : Option (Data T) :=
  match page with
  | some page =>
    some ⟨items.getD page.objectList, ⟨page.paginator.count, page.paginator.perPage, page.number,
      page.paginator.numPages, page.hasPrevious, page.hasNext⟩⟩
  | none =>
    match totalCount, pageSize, pageNumber with
    | some totalCount, some pageSize, some pageNumber =>
      let totalPages := totalPages totalCount pageSize
      some ⟨items.getD [], ⟨totalCount, pageSize, pageNumber, totalPages,
        decide (pageNumber > 1), decide (pageNumber < totalPages)⟩⟩
    | _, _, _ => none

/-! ## Windows of a list -/

/-- The window of a page: `size` elements from a multiple of `size` on. -/
def window (l : List R) (size i : ℕ) : List R := (l.drop (i * size)).take size

/-- The first windows make up what they reach. -/
theorem flatMap_window (l : List R) (size n : ℕ) :
    ((List.range n).flatMap fun i => window l size i) = l.take (n * size) := by
  induction n with
  | zero => simp
  | succ n ih =>
    rw [List.range_succ, List.flatMap_append, ih, Nat.succ_mul, List.take_add]
    simp [window]

/-- A window is empty if the list ends before it. -/
theorem window_eq_nil_iff {l : List R} {size i : ℕ} (hsize : 0 < size) :
    window l size i = [] ↔ l.length ≤ i * size := by
  rw [window, List.take_eq_nil_iff, List.drop_eq_nil_iff]
  omega

/-! ## Page arithmetic -/

section Arithmetic

variable {count pageSize : ℤ} (hsize : 1 ≤ pageSize)
include hsize

theorem totalPages_eq : totalPages count pageSize = ⌈(count : ℚ) / pageSize⌉ :=
  if_pos (by omega)

/-- There is a page after the first `n` if they do not reach all rows. -/
theorem lt_totalPages_iff {n : ℤ} : n < totalPages count pageSize ↔ n * pageSize < count := by
  have hpos : (0 : ℚ) < pageSize := by exact_mod_cast (by omega : 0 < pageSize)
  rw [totalPages_eq hsize, Int.lt_ceil, lt_div_iff₀ hpos]
  exact_mod_cast Iff.rfl

/-- What `list_paginated` returns for a page. -/
theorem listPaginated_eq (t : Table R) (activeOnly : Bool) {page : ℤ} (hpage : 1 ≤ page) :
    t.listPaginated page pageSize activeOnly =
      some (window (t.list activeOnly) pageSize.toNat (page - 1).toNat,
        (t.list activeOnly).length) := by
  have hoffset : 0 ≤ max (page - 1) 0 * pageSize :=
    mul_nonneg (le_max_right _ _) (by omega)
  have hstart : (max (page - 1) 0 * pageSize).toNat = (page - 1).toNat * pageSize.toNat := by
    rw [max_eq_left (by omega), Int.toNat_mul (by omega) (by omega)]
  simp only [Table.listPaginated, slice]
  rw [if_neg (by omega), hstart, add_sub_cancel_left]
  rfl

theorem totalPages_nonneg (total : ℕ) : 0 ≤ totalPages total pageSize := by
  by_contra hneg
  have hreach : ¬ -1 * pageSize < (total : ℤ) := (lt_totalPages_iff hsize).not.mp (by omega)
  omega

/-- The pages reach all rows. -/
theorem length_le_totalPages (total : ℕ) :
    total ≤ (totalPages total pageSize).toNat * pageSize.toNat := by
  have hreach : (total : ℤ) ≤ totalPages total pageSize * pageSize :=
    not_lt.mp ((lt_totalPages_iff hsize).not.mp (lt_irrefl _))
  have hpos := totalPages_nonneg hsize total
  zify
  rwa [Int.toNat_of_nonneg hpos, Int.toNat_of_nonneg (by omega)]

/-- A page is empty if it is not among those counted. -/
theorem window_page_eq_nil_iff {l : List R} {page : ℤ} (hpage : 1 ≤ page) :
    window l pageSize.toNat (page - 1).toNat = [] ↔ totalPages l.length pageSize ≤ page - 1 := by
  rw [window_eq_nil_iff (by omega), ← not_lt, ← not_lt, lt_totalPages_iff hsize]
  zify
  rw [Int.toNat_of_nonneg (by omega), Int.toNat_of_nonneg (by omega)]

end Arithmetic

/-! ## Everything, once -/

/-- The pages of some rows of a table, as a client walks them. -/
structure Covers (t : Table R) (activeOnly : Bool) (pageSize : ℤ) (rows : List R)
    (pages : ℤ → List R) : Prop where
  /-- every call returns its page, and the same total -/
  returns : ∀ page, 1 ≤ page →
    t.listPaginated page pageSize activeOnly = some (pages page, rows.length)
  /-- the pages up to the last are all the rows, in order -/
  whole : ((List.range ⌈(rows.length : ℚ) / pageSize⌉.toNat).flatMap
    fun i : ℕ => pages (i + 1)) = rows
  /-- the others are empty -/
  beyond : ∀ page, ⌈(rows.length : ℚ) / pageSize⌉ < page → pages page = []

/-- A response reports the pages as they are. -/
structure Reports (total : ℕ) (pageSize pageNumber : ℤ) (pages : ℤ → List R)
    (b : Pagination) : Prop where
  /-- how many there are -/
  totalPages : b.totalPages = ⌈(total : ℚ) / pageSize⌉
  /-- whether there is anything on the next -/
  hasNext : b.hasNext = true ↔ pages (pageNumber + 1) ≠ []
  /-- whether there is one before -/
  hasPrevious : b.hasPrevious = true ↔ pageNumber > 1

/-- Walking the pages covers each of the rows once, in order, and every response on the way says
where the client is. -/
def WalksOnce (T : Type) (t : Table R) (activeOnly : Bool) (pageSize : ℤ) (rows : List R) : Prop :=
  ∃ pages, Covers t activeOnly pageSize rows pages ∧
    ∀ (items : Option (List T)) (pageNumber : ℤ), 1 ≤ pageNumber →
      ∃ d, paginatedResponse none items (some rows.length) (some pageSize) (some pageNumber) =
          some d ∧
        Reports rows.length pageSize pageNumber pages d.pagination

/-- The pages are windows of what `list` gives. -/
theorem walksOnce_list (t : Table R) (activeOnly : Bool) {pageSize : ℤ} (hsize : 1 ≤ pageSize) :
    WalksOnce T t activeOnly pageSize (t.list activeOnly) := by
  have htotal : totalPages (t.list activeOnly).length pageSize =
      ⌈((t.list activeOnly).length : ℚ) / pageSize⌉ := totalPages_eq hsize
  refine ⟨fun page => window (t.list activeOnly) pageSize.toNat (page - 1).toNat,
    ⟨?_, ?_, ?_⟩, ?_⟩
  · intro page hpage
    exact listPaginated_eq hsize t activeOnly hpage
  · rw [← htotal]
    simp only [add_sub_cancel_right, Int.toNat_natCast]
    rw [flatMap_window]
    exact List.take_of_length_le (length_le_totalPages hsize _)
  · intro page hpage
    rw [← htotal] at hpage
    have hpos := totalPages_nonneg hsize (t.list activeOnly).length
    exact (window_page_eq_nil_iff hsize (by omega)).mpr (by omega)
  · intro items pageNumber hnumber
    refine ⟨_, rfl, htotal, ?_, decide_eq_true_iff⟩
    rw [ne_eq, window_page_eq_nil_iff hsize (by omega), add_sub_cancel_right, not_le]
    exact decide_eq_true_iff

/-- **Paging.** The offsets of the repository and the counts of the response agree: walking the
pages covers all rows of a table once, or, where only active ones are asked for and the model has
the column, all active ones. -/
theorem paging_covers_once (t : Table R) {pageSize : ℤ} (hsize : 1 ≤ pageSize) :
    WalksOnce T t false pageSize t.rows ∧
      (t.isActive = none → WalksOnce T t true pageSize t.rows) ∧
      ∀ isActive, t.isActive = some isActive →
        WalksOnce T t true pageSize (t.rows.filter isActive) := by
  refine ⟨walksOnce_list t false hsize, ?_, ?_⟩
  · intro hnone
    have hlist : t.list true = t.rows := by simp only [Table.list, hnone]
    exact hlist ▸ walksOnce_list t true hsize
  · intro isActive hcolumn
    have hlist : t.list true = t.rows.filter isActive := by
      simp only [Table.list, hcolumn]
    exact hlist ▸ walksOnce_list t true hsize

/-- Five rows, two to a page; the third is inactive. -/
def fiveRows : Table ℕ := ⟨[10, 20, 30, 40, 50], some fun n => n != 30⟩

/-- Of these, three pages cover all, and two the active ones. -/
theorem paging_covers_five :
    WalksOnce ℕ fiveRows false 2 [10, 20, 30, 40, 50] ∧
      WalksOnce ℕ fiveRows true 2 [10, 20, 40, 50] := by
  have hcovers := @paging_covers_once _ ℕ fiveRows 2 (by decide)
  exact ⟨hcovers.1, hcovers.2.2 _ rfl⟩

/-! ## A page of the paginator -/

theorem numPages_eq {page : Page T} (hgiven : page.Given) (hsize : 1 ≤ page.paginator.perPage) :
    page.paginator.numPages = if page.paginator.count = 0 then 1
      else totalPages page.paginator.count page.paginator.perPage := by
  have hone : (1 : ℚ) ≤ page.paginator.perPage := by exact_mod_cast hsize
  have hpos : (0 : ℚ) < page.paginator.perPage := lt_of_lt_of_le one_pos hone
  rw [hgiven.numPages]
  split
  · next hcount =>
    rw [hcount, Nat.cast_zero, max_eq_left zero_le_one, Int.ceil_eq_iff]
    refine ⟨?_, ?_⟩
    · rw [Int.cast_one, sub_self]
      exact div_pos one_pos hpos
    · rw [Int.cast_one]
      exact (div_le_one hpos).mpr hone
  · next hcount =>
    have hmax : max (1 : ℚ) page.paginator.count = page.paginator.count :=
      max_eq_right (by exact_mod_cast Nat.one_le_iff_ne_zero.mpr hcount)
    rw [hmax, totalPages_eq hsize]
    rfl

/-- Nothing has no pages, by the numbers. -/
theorem totalPages_zero {pageSize : ℤ} (hsize : 1 ≤ pageSize) : totalPages 0 pageSize = 0 := by
  rw [totalPages_eq hsize, Int.cast_zero, zero_div, Int.ceil_zero]

/-- **Two responses.** A page of Django's paginator and the numbers it was made from give the
same block, but that of an empty result counts one page from the paginator and none from the
numbers. -/
theorem pagination_blocks_agree (page : Page T) (items : List T)
    (hsize : 1 ≤ page.paginator.perPage) (hgiven : page.Given) :
    ∃ b, paginatedResponse none (some items) (some page.paginator.count)
        (some page.paginator.perPage) (some page.number) = some ⟨items, b⟩ ∧
      paginatedResponse (some page) (some items) none none none =
        some ⟨items, { b with
          totalPages := if page.paginator.count = 0 then 1 else b.totalPages }⟩ ∧
      (page.paginator.count = 0 → b.totalPages = 0) := by
  refine ⟨_, rfl, ?_, ?_⟩
  · have hnum := numPages_eq hgiven hsize
    have hnext : page.hasNext =
        decide (page.number < totalPages page.paginator.count page.paginator.perPage) := by
      rw [hgiven.hasNext, hnum]
      split
      · next hcount =>
        -- page one of an empty result: no page is after it, whether it is counted or not
        obtain ⟨hfirst, -⟩ := hgiven.accepted
        rw [hcount, Nat.cast_zero, totalPages_zero hsize, decide_eq_decide]
        omega
      · rfl
    simp only [paginatedResponse, Option.getD_some, hnum, hnext, hgiven.hasPrevious]
  · intro hcount
    simp only [hcount, Nat.cast_zero, totalPages_zero hsize]

/-- The first page of an empty result, ten to a page. -/
def emptyPage : Page ℕ := ⟨[], 1, ⟨0, 10, 1⟩, false, false⟩

theorem given_emptyPage : emptyPage.Given :=
  ⟨by decide +kernel, rfl, rfl, by decide, by decide⟩

/-- It counts one page, and none by the numbers. -/
theorem empty_result_blocks_differ :
    ¬ ∀ (page : Page ℕ) (items : List ℕ), 1 ≤ page.paginator.perPage → page.Given →
      paginatedResponse (some page) (some items) none none none =
        paginatedResponse none (some items) (some page.paginator.count)
          (some page.paginator.perPage) (some page.number) := by
  intro halways
  have h := halways emptyPage [] (by decide) given_emptyPage
  have hpages := congrArg (fun d => d.map fun d => d.pagination.totalPages) h
  revert hpages
  decide +kernel

/-- The third page of twenty-one rows. -/
def thirdPage : Page ℕ := ⟨[7], 3, ⟨21, 10, 3⟩, false, true⟩

/-- The numbers give the same block. -/
theorem pagination_blocks_agree_third :
    ∃ b, paginatedResponse none (some [7]) (some 21) (some 10) (some 3) = some ⟨[7], b⟩ ∧
      paginatedResponse (some thirdPage) (some [7]) none none none =
        some ⟨[7], { b with totalPages := if 21 = 0 then 1 else b.totalPages }⟩ ∧
      (21 = 0 → b.totalPages = 0) :=
  pagination_blocks_agree thirdPage [7] (by decide)
    ⟨by decide +kernel, rfl, rfl, by decide, by decide⟩

end Paging

end DjangoBoilerplate
