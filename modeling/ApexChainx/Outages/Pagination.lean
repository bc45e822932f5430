import Mathlib.Data.List.Sort
import Mathlib.Data.Sum.Order
import ApexChainx.Core.IsoFormat
import ApexChainx.Lib.Like
import ApexChainx.Lib.Paging
import ApexChainx.Outages.Cursor
import ApexChainx.Settlement.Outage

/-!
# Listing outages

`OutageRepository.list` and `list_cursor` (`app/repositories/outage_repository.py`), for every filter, sort
field and direction. Both order by the sort column in the direction asked for, and then by ascending id.
The cursor of a page selects the rows of the next one by comparing the sort column and the id with those
of the page's last row; when the direction is descending, it compares the id in that direction too.

`followCursors_flatten_iff` says when the pages that follow each other by their cursors are the list.
-/

namespace ApexChainx.Outages

open ApexChainx.Lib

/-- `OutageORM`, the columns that the listing reads. -/
structure OutageRow where
  id : String
  siteName : String
  siteId : Option String
  severity : String
  status : String
  detectedAt : DateTime
deriving DecidableEq, Repr

/-- The table `outages`; `id` is its primary key. -/
structure OutageTable where
  rows : List OutageRow
  primaryKey : rows.Pairwise (·.id ≠ ·.id)

/-- What the listing leaves to the database: the order of its texts, given by their sort keys, the case
mapping of `ILIKE`, and the reading of a text that is compared with a timestamp. -/
structure Database (κ : Type) where
  sortKey : String → κ
  sortKey_injective : Function.Injective sortKey
  lower : Char → Char
  readTimestamp : String → Option ℤ

/-- `OutageSortField`. -/
inductive OutageSortField
  | detectedAt
  | siteName
  | severity
  | status
  | id
deriving DecidableEq, Repr

/-- `OutageSortDirection`. -/
inductive OutageSortDirection
  | asc
  | desc
deriving DecidableEq, Repr

/-- The query parameters that filter. The dates are instants in microseconds. -/
structure OutageFilter where
  severity : Option Sla.Severity
  status : Option Settlement.OutageStatus
  search : Option String
  startDate : Option ℤ
  endDate : Option ℤ

section Queries

variable {κ : Type} [LinearOrder κ] (db : Database κ)

/-- `column.ilike(f"%{search}%")`; a null is no match. -/
def Database.ilike (search : String) : Option String → Bool
  | none => false
  | some text =>
      like (('%' :: search.toList ++ ['%']).map db.lower) (text.toList.map db.lower)

/-- The row passes the filters that are set; an empty search is none. -/
def OutageFilter.matches (filter : OutageFilter) (row : OutageRow) : Bool :=
  filter.severity.all (row.severity = ·.value) &&
  filter.status.all (row.status = ·.value) &&
  filter.search.all (fun search => search = "" ||
    db.ilike search (some row.id) || db.ilike search row.siteId || db.ilike search (some row.siteName)) &&
  filter.startDate.all (· ≤ row.detectedAt.ticks) &&
  filter.endDate.all (row.detectedAt.ticks ≤ ·)

/-- A value of a sort column, as the database compares it. -/
abbrev SortValue (κ : Type) : Type := κ ⊕ₗ ℤ

/-- The sort column of a row. -/
def sortValue (sortBy : OutageSortField) (row : OutageRow) : SortValue κ :=
  match sortBy with
  | .detectedAt => Sum.inrₗ row.detectedAt.ticks
  | .siteName => Sum.inlₗ (db.sortKey row.siteName)
  | .severity => Sum.inlₗ (db.sortKey row.severity)
  | .status => Sum.inlₗ (db.sortKey row.status)
  | .id => Sum.inlₗ (db.sortKey row.id)

/-- `str(getattr(row, sort_by.value))`. -/
def sortText (sortBy : OutageSortField) (row : OutageRow) : String :=
  match sortBy with
  | .detectedAt => row.detectedAt.str
  | .siteName => row.siteName
  | .severity => row.severity
  | .status => row.status
  | .id => row.id

/-- The value a text is compared as with a sort column. -/
def readSortValue (sortBy : OutageSortField) (text : String) : Option (SortValue κ) :=
  match sortBy with
  | .detectedAt => (db.readTimestamp text).map Sum.inrₗ
  | _ => some (Sum.inlₗ (db.sortKey text))

/-- `direction_fn`: a value comes before another one. -/
def columnBefore (direction : OutageSortDirection) (a b : SortValue κ) : Prop :=
  match direction with
  | .asc => a < b
  | .desc => b < a

instance (direction : OutageSortDirection) (a b : SortValue κ) :
    Decidable (columnBefore direction a b) :=
  match direction with
  | .asc => inferInstanceAs (Decidable (a < b))
  | .desc => inferInstanceAs (Decidable (b < a))

/-- `order_by(direction_fn(sort_column), OutageORM.id.asc())`: `a` does not come after `b`. -/
def precedes (sortBy : OutageSortField) (direction : OutageSortDirection) (a b : OutageRow) : Prop :=
  columnBefore direction (sortValue db sortBy a) (sortValue db sortBy b) ∨
    sortValue db sortBy a = sortValue db sortBy b ∧ db.sortKey a.id ≤ db.sortKey b.id

instance (sortBy : OutageSortField) (direction : OutageSortDirection) :
    DecidableRel (precedes db sortBy direction) := fun _ _ => inferInstanceAs (Decidable (_ ∨ _))

/-- The rows that a filter selects, in the order asked for. -/
def orderedRows (table : OutageTable) (selects : OutageRow → Bool) (sortBy : OutageSortField)
    (direction : OutageSortDirection) : List OutageRow :=
  (table.rows.filter selects).insertionSort (precedes db sortBy direction)

/-- What `OutageRepository.list` returns. -/
structure ListResult where
  items : List OutageRow
  total : Option ℕ
  page : ℕ
  pageSize : ℕ
  sortBy : OutageSortField
  sortDirection : OutageSortDirection

/-- `OutageRepository.list`. The total comes with the rows of the page, and is zero without any. -/
def list (table : OutageTable) (filter : OutageFilter) (page pageSize : ℕ) (sortBy : OutageSortField)
    (direction : OutageSortDirection) (includeTotal : Bool) : ListResult :=
  let rows := orderedRows db table (filter.matches db) sortBy direction
  let items := (rows.drop ((page - 1) * pageSize)).take pageSize
  { items := items
    total := if includeTotal then some (if items = [] then 0 else rows.length) else none
    page := page
    pageSize := pageSize
    sortBy := sortBy
    sortDirection := direction }

/-- `CursorPage`. -/
structure CursorPage where
  items : List OutageRow
  nextCursor : Option String
  hasMore : Bool

/-- `cursor_filter`, for the id and the sort value of the cursor. -/
def cursorFilter (sortBy : OutageSortField) (direction : OutageSortDirection) (cursorId : String)
    (cursorValue : SortValue κ) (row : OutageRow) : Bool :=
  match direction with
  | .desc => sortValue db sortBy row < cursorValue ∨
      sortValue db sortBy row = cursorValue ∧ db.sortKey row.id < db.sortKey cursorId
  | .asc => cursorValue < sortValue db sortBy row ∨
      sortValue db sortBy row = cursorValue ∧ db.sortKey cursorId < db.sortKey row.id

/-- The rows selected by a decoded cursor. The database refuses a value that is no text, or no text of
the column's type. -/
def cursorSelects (sortBy : OutageSortField) (direction : OutageSortDirection) :
    Option (JsonValue × JsonValue) → Outcome (OutageRow → Bool)
  | none => .ok fun _ => true
  | some (.str cursorId, .str text) =>
      match readSortValue db sortBy text with
      | some cursorValue => .ok (cursorFilter db sortBy direction cursorId cursorValue)
      | none => .error (.dataError "sort_by")
  | some _ => .error (.dataError "cursor")

/-- The page of the selected rows. -/
def cursorPage (sortBy : OutageSortField) (limit : ℕ) (rows : List OutageRow) : CursorPage :=
  let items := rows.take (limit + 1)
  let hasMore := limit < items.length
  { items := items.take limit
    nextCursor :=
      if hasMore then (items.take limit).getLast?.map fun last =>
        encodeCursor last.id (sortText sortBy last)
      else none
    hasMore := hasMore }

/-- `OutageRepository.list_cursor`. -/
def listCursor (table : OutageTable) (filter : OutageFilter) (cursor : Option String) (limit : ℕ)
    (sortBy : OutageSortField) (direction : OutageSortDirection) : Outcome CursorPage :=
  match decodeCursor cursor with
  | .error e => .error e
  | .ok decoded =>
      match cursorSelects db sortBy direction decoded with
      | .error e => .error e
      | .ok selects =>
          .ok (cursorPage sortBy limit
            (orderedRows db table (fun row => filter.matches db row && selects row) sortBy direction))

/-- The items of the pages that follow each other by their cursors, up to the first without more; `none`
when a request fails or `fuel` requests are not enough. -/
def followCursors (table : OutageTable) (filter : OutageFilter) (limit : ℕ) (sortBy : OutageSortField)
    (direction : OutageSortDirection) : ℕ → Option String → Option (List (List OutageRow))
  | 0, _ => none
  | fuel + 1, cursor =>
      match listCursor db table filter cursor limit sortBy direction with
      | .error _ => none
      | .ok page =>
          if page.hasMore then
            (followCursors table filter limit sortBy direction fuel page.nextCursor).map
              (page.items :: ·)
          else some [page.items]

end Queries

/-! ## The order of the listing -/

section Order

variable {κ : Type} [LinearOrder κ] {db : Database κ} {sortBy : OutageSortField}
  {direction : OutageSortDirection}

theorem columnBefore_trichotomy (direction : OutageSortDirection) (a b : SortValue κ) :
    columnBefore direction a b ∨ a = b ∨ columnBefore direction b a := by
  cases direction with
  | asc => exact lt_trichotomy a b
  | desc => exact (lt_trichotomy b a).imp id (Or.imp Eq.symm id)

theorem columnBefore_trans {a b c : SortValue κ} (hab : columnBefore direction a b)
    (hbc : columnBefore direction b c) : columnBefore direction a c := by
  cases direction with
  | asc => exact lt_trans hab hbc
  | desc => exact lt_trans hbc hab

theorem columnBefore_irrefl (a : SortValue κ) : ¬ columnBefore direction a a := by
  cases direction <;> exact lt_irrefl a

theorem precedes_total (a b : OutageRow) :
    precedes db sortBy direction a b ∨ precedes db sortBy direction b a := by
  rcases columnBefore_trichotomy direction (sortValue db sortBy a) (sortValue db sortBy b) with h | h | h
  · exact .inl (.inl h)
  · exact (le_total (db.sortKey a.id) (db.sortKey b.id)).imp (fun hle => .inr ⟨h, hle⟩)
      (fun hle => .inr ⟨h.symm, hle⟩)
  · exact .inr (.inl h)

theorem precedes_trans {a b c : OutageRow} (hab : precedes db sortBy direction a b)
    (hbc : precedes db sortBy direction b c) : precedes db sortBy direction a c := by
  unfold precedes at hab hbc ⊢
  rcases hab with hab | ⟨hab, hid⟩
  · rcases hbc with hbc | ⟨hbc, -⟩
    · exact .inl (columnBefore_trans hab hbc)
    · rw [← hbc]
      exact .inl hab
  · rw [hab]
    exact hbc.imp id fun h => ⟨h.1, hid.trans h.2⟩

instance : Std.Total (precedes db sortBy direction) := ⟨precedes_total⟩

instance : IsTrans OutageRow (precedes db sortBy direction) := ⟨fun _ _ _ => precedes_trans⟩

/-- Rows that precede each other have one id. -/
theorem id_eq_of_precedes {a b : OutageRow} (hab : precedes db sortBy direction a b)
    (hba : precedes db sortBy direction b a) : a.id = b.id := by
  unfold precedes at hab hba
  rcases hab with hab | ⟨heq, hid⟩
  · rcases hba with hba | ⟨heq, -⟩
    · exact absurd (columnBefore_trans hab hba) (columnBefore_irrefl _)
    · rw [heq] at hab
      exact absurd hab (columnBefore_irrefl _)
  · rcases hba with hba | ⟨-, hid'⟩
    · rw [heq] at hba
      exact absurd hba (columnBefore_irrefl _)
    · exact db.sortKey_injective (le_antisymm hid hid')

theorem OutageTable.eq_of_id_eq (table : OutageTable) {a b : OutageRow} (ha : a ∈ table.rows)
    (hb : b ∈ table.rows) (h : a.id = b.id) : a = b := by
  have : Std.Symm fun a b : OutageRow => a.id ≠ b.id := ⟨fun _ _ hne => hne.symm⟩
  by_contra hne
  exact table.primaryKey.forall ha hb hne h

variable {table : OutageTable}

theorem mem_orderedRows {selects : OutageRow → Bool} {row : OutageRow} :
    row ∈ orderedRows db table selects sortBy direction ↔ row ∈ table.rows ∧ selects row = true := by
  rw [orderedRows, (List.perm_insertionSort _ _).mem_iff, List.mem_filter]

theorem pairwise_orderedRows (selects : OutageRow → Bool) :
    (orderedRows db table selects sortBy direction).Pairwise (precedes db sortBy direction) :=
  List.pairwise_insertionSort _ _

/-- Filtering and ordering can be exchanged: the order is a total one on the rows of a table. -/
theorem orderedRows_and (selects further : OutageRow → Bool) :
    orderedRows db table (fun row => selects row && further row) sortBy direction
      = (orderedRows db table selects sortBy direction).filter further := by
  have hperm : (orderedRows db table (fun row => selects row && further row) sortBy direction).Perm
      ((orderedRows db table selects sortBy direction).filter further) := by
    refine (List.perm_insertionSort _ _).trans ?_
    have hfilter : table.rows.filter (fun row => selects row && further row)
        = (table.rows.filter selects).filter further := by
      rw [List.filter_filter]
      exact List.filter_congr fun row _ => Bool.and_comm _ _
    rw [hfilter]
    exact ((List.perm_insertionSort _ _).filter further).symm
  refine hperm.eq_of_pairwise ?_ (pairwise_orderedRows _) ((pairwise_orderedRows _).filter further)
  intro a b ha hb hab hba
  have hb' := (List.mem_filter.mp hb).1
  exact table.eq_of_id_eq (mem_orderedRows.mp ha).1 (mem_orderedRows.mp hb').1
    (id_eq_of_precedes hab hba)

/-- Strictly before, in the order of the listing. -/
def Before (db : Database κ) (sortBy : OutageSortField) (direction : OutageSortDirection)
    (a b : OutageRow) : Prop :=
  columnBefore direction (sortValue db sortBy a) (sortValue db sortBy b) ∨
    sortValue db sortBy a = sortValue db sortBy b ∧ db.sortKey a.id < db.sortKey b.id

theorem pairwise_before_orderedRows (selects : OutageRow → Bool) :
    (orderedRows db table selects sortBy direction).Pairwise (Before db sortBy direction) := by
  have hids : (orderedRows db table selects sortBy direction).Pairwise (·.id ≠ ·.id) := by
    refine (List.Perm.pairwise_iff ?_ (List.perm_insertionSort _ _)).mpr
      (table.primaryKey.filter selects)
    exact fun {a b} hne => hne.symm
  refine (pairwise_orderedRows selects).imp₂ ?_ hids
  intro a b hab hne
  refine hab.imp id fun h => ⟨h.1, lt_of_le_of_ne h.2 fun heq => ?_⟩
  exact hne (db.sortKey_injective heq)

theorem before_asymm {a b : OutageRow} (hab : Before db sortBy direction a b)
    (hba : Before db sortBy direction b a) : False := by
  unfold Before at hab hba
  rcases hab with hab | ⟨heq, hid⟩
  · rcases hba with hba | ⟨heq, -⟩
    · exact columnBefore_irrefl _ (columnBefore_trans hab hba)
    · rw [heq] at hab
      exact columnBefore_irrefl _ hab
  · rcases hba with hba | ⟨-, hid'⟩
    · rw [heq] at hba
      exact columnBefore_irrefl _ hba
    · exact lt_asymm hid hid'

/-! ## What a cursor selects -/

/-- The rows that the cursor of a page ending in `c` selects. -/
def afterRow (db : Database κ) (sortBy : OutageSortField) (direction : OutageSortDirection)
    (c row : OutageRow) : Bool :=
  cursorFilter db sortBy direction c.id (sortValue db sortBy c) row

theorem afterRow_asc_iff {c row : OutageRow} :
    afterRow db sortBy .asc c row = true ↔ Before db sortBy .asc c row := by
  unfold afterRow cursorFilter Before columnBefore
  rw [decide_eq_true_eq, eq_comm]

theorem afterRow_desc_iff {c row : OutageRow} :
    afterRow db sortBy .desc c row = true ↔ sortValue db sortBy row < sortValue db sortBy c ∨
      sortValue db sortBy row = sortValue db sortBy c ∧ db.sortKey row.id < db.sortKey c.id := by
  unfold afterRow cursorFilter
  rw [decide_eq_true_eq]

theorem afterRow_irrefl (c : OutageRow) : afterRow db sortBy direction c c = false := by
  cases direction <;> simp [afterRow, cursorFilter]

theorem afterRow_trans (a b c : OutageRow) (hab : afterRow db sortBy direction a b = true)
    (hbc : afterRow db sortBy direction b c = true) : afterRow db sortBy direction a c = true := by
  cases direction with
  | asc =>
      rw [afterRow_asc_iff] at hab hbc ⊢
      unfold Before columnBefore at *
      rcases hab with hab | ⟨hab, hid⟩
      · rcases hbc with hbc | ⟨hbc, -⟩
        · exact .inl (hab.trans hbc)
        · rw [← hbc]
          exact .inl hab
      · rw [hab]
        exact hbc.imp id fun h => ⟨h.1, hid.trans h.2⟩
  | desc =>
      rw [afterRow_desc_iff] at hab hbc ⊢
      rcases hab with hab | ⟨hab, hid⟩
      · rcases hbc with hbc | ⟨hbc, -⟩
        · exact .inl (hbc.trans hab)
        · rw [hbc]
          exact .inl hab
      · rw [← hab]
        exact hbc.imp id fun h => ⟨h.1, h.2.trans hid⟩

/-- A list of rows in the order of the listing, cut at one of them. -/
structure Cut (db : Database κ) (sortBy : OutageSortField) (direction : OutageSortDirection)
    (S init rest : List OutageRow) (c : OutageRow) : Prop where
  eq : S = init ++ c :: rest
  init_before : ∀ row ∈ init, Before db sortBy direction row c
  before_rest : ∀ row ∈ rest, Before db sortBy direction c row
  rest_sorted : rest.Pairwise (Before db sortBy direction)

theorem Cut.of_getElem? {S : List OutageRow} {n : ℕ} {c : OutageRow}
    (hS : S.Pairwise (Before db sortBy direction)) (hc : S[n]? = some c) :
    Cut db sortBy direction S (S.take n) (S.drop (n + 1)) c := by
  obtain ⟨hn, rfl⟩ := List.getElem?_eq_some_iff.mp hc
  have heq : S = S.take n ++ S[n] :: S.drop (n + 1) := by
    rw [List.getElem_cons_drop, List.take_append_drop]
  have hsplit := hS
  rw [heq, List.pairwise_append, List.pairwise_cons] at hsplit
  exact ⟨heq, fun row hrow => hsplit.2.2 row hrow _ List.mem_cons_self, hsplit.2.1.1, hsplit.2.1.2⟩

theorem Cut.filter_eq {S init rest : List OutageRow} {c : OutageRow}
    (h : Cut db sortBy direction S init rest c) :
    S.filter (afterRow db sortBy direction c) = init.filter (afterRow db sortBy direction c) ++
      rest.filter (afterRow db sortBy direction c) := by
  rw [h.eq, List.filter_append, List.filter_cons_of_neg (by simp [afterRow_irrefl])]

/-- Ascending, a cursor selects the rows that follow. -/
theorem Cut.filter_eq_asc {S init rest : List OutageRow} {c : OutageRow}
    (h : Cut db sortBy .asc S init rest c) : S.filter (afterRow db sortBy .asc c) = rest := by
  have hinit : init.filter (afterRow db sortBy .asc c) = [] := by
    rw [List.filter_eq_nil_iff]
    intro row hrow hafter
    have hback := afterRow_trans _ _ _ hafter (afterRow_asc_iff.mpr (h.init_before row hrow))
    rw [afterRow_irrefl] at hback
    cases hback
  rw [h.filter_eq, hinit, List.nil_append, List.filter_eq_self]
  exact fun row hrow => afterRow_asc_iff.mpr (h.before_rest row hrow)

/-- Descending, it selects them when the last row of the page shares its sort value with no other. -/
theorem Cut.filter_eq_desc {S init rest : List OutageRow} {c : OutageRow}
    (h : Cut db sortBy .desc S init rest c)
    (hunique : ∀ row ∈ S, sortValue db sortBy row = sortValue db sortBy c → row = c) :
    S.filter (afterRow db sortBy .desc c) = rest := by
  have hne : ∀ row, Before db sortBy .desc row c ∨ Before db sortBy .desc c row →
      row ∈ S → sortValue db sortBy row ≠ sortValue db sortBy c := by
    intro row hrow hmem heq
    obtain rfl := hunique row hmem heq
    have hself : Before db sortBy .desc row row := hrow.elim id id
    rcases hself with hlt | ⟨-, hlt⟩
    · exact columnBefore_irrefl _ hlt
    · exact lt_irrefl _ hlt
  have hinit : init.filter (afterRow db sortBy .desc c) = [] := by
    rw [List.filter_eq_nil_iff]
    intro row hrow hafter
    have hmem : row ∈ S := by rw [h.eq]; exact List.mem_append_left _ hrow
    have hbefore := h.init_before row hrow
    have hdiff := hne row (.inl hbefore) hmem
    rcases afterRow_desc_iff.mp hafter with hlt | ⟨heq, -⟩
    · rcases hbefore with hgt | ⟨heq, -⟩
      · exact lt_asymm hlt hgt
      · exact hdiff heq
    · exact hdiff heq
  rw [h.filter_eq, hinit, List.nil_append, List.filter_eq_self]
  intro row hrow
  have hmem : row ∈ S := by rw [h.eq]; exact List.mem_append_right _ (List.mem_cons_of_mem _ hrow)
  have hbefore := h.before_rest row hrow
  rcases hbefore with hlt | ⟨heq, -⟩
  · exact afterRow_desc_iff.mpr (.inl hlt)
  · exact absurd heq.symm (hne row (.inr (h.before_rest row hrow)) hmem)

/-- Descending, with another row of the same sort value, the selection starts with another row than the
one that follows. -/
theorem Cut.head_filter_ne {S init rest : List OutageRow} {c row : OutageRow}
    (h : Cut db sortBy .desc S init rest c) (hrow : row ∈ S)
    (heq : sortValue db sortBy row = sortValue db sortBy c) (hne : row ≠ c) :
    (S.filter (afterRow db sortBy .desc c)).head? ≠ rest.head? := by
  rw [h.filter_eq]
  intro hhead
  cases hinit : init.filter (afterRow db sortBy .desc c) with
  | cons b bs =>
      -- a row of the page before it
      have hb : b ∈ init.filter (afterRow db sortBy .desc c) := hinit ▸ List.mem_cons_self
      rw [hinit, List.cons_append, List.head?_cons] at hhead
      exact before_asymm (h.init_before b (List.mem_filter.mp hb).1)
        (h.before_rest b (List.mem_of_mem_head? hhead.symm))
  | nil =>
      rw [hinit, List.nil_append] at hhead
      have hrest : row ∈ rest := by
        rw [h.eq, List.mem_append, List.mem_cons] at hrow
        rcases hrow with hrow | hrow | hrow
        · have hid : db.sortKey row.id < db.sortKey c.id := by
            rcases h.init_before row hrow with hlt | ⟨-, hid⟩
            · rw [heq] at hlt
              exact absurd hlt (columnBefore_irrefl _)
            · exact hid
          have hmem : row ∈ init.filter (afterRow db sortBy .desc c) :=
            List.mem_filter.mpr ⟨hrow, afterRow_desc_iff.mpr (.inr ⟨heq, hid⟩)⟩
          rw [hinit] at hmem
          cases hmem
        · exact absurd hrow hne
        · exact hrow
      obtain ⟨r, rs, rfl⟩ := List.exists_cons_of_ne_nil (List.ne_nil_of_mem hrest)
      -- the row that follows has the same sort value, so it is skipped
      have hvalue : ¬ sortValue db sortBy r < sortValue db sortBy c := by
        rw [← heq, not_lt]
        rcases List.mem_cons.mp hrest with rfl | hlater
        · exact le_refl _
        · rcases (List.pairwise_cons.mp h.rest_sorted).1 row hlater with hlt | ⟨heq, -⟩
          · exact le_of_lt hlt
          · exact heq.symm.le
      have hfollows : afterRow db sortBy .desc c r = true :=
        (List.mem_filter.mp (List.mem_of_mem_head? hhead)).2
      rcases afterRow_desc_iff.mp hfollows with hlt | ⟨-, hid⟩
      · exact hvalue hlt
      · rcases h.before_rest r List.mem_cons_self with hlt | ⟨-, hid'⟩
        · exact hvalue hlt
        · exact lt_asymm hid hid'

end Order

/-! ## Following the cursors -/

section Walk

variable {κ : Type} [LinearOrder κ] (db : Database κ) (table : OutageTable) (filter : OutageFilter)
  (limit : ℕ) (sortBy : OutageSortField) (direction : OutageSortDirection)

theorem cursorPage_hasMore {rows : List OutageRow} :
    (cursorPage sortBy limit rows).hasMore = decide (limit < rows.length) := by
  simp only [cursorPage, List.length_take, decide_eq_decide]
  omega

theorem cursorPage_items {rows : List OutageRow} :
    (cursorPage sortBy limit rows).items = rows.take limit := by
  simp only [cursorPage, List.take_take, Nat.min_eq_left (show limit ≤ limit + 1 by omega)]

theorem cursorPage_nextCursor {rows : List OutageRow} (h : limit < rows.length) :
    (cursorPage sortBy limit rows).nextCursor = (rows.take limit).getLast?.map fun last =>
      encodeCursor last.id (sortText sortBy last) := by
  have hmore : limit < min (limit + 1) rows.length := by omega
  simp only [cursorPage, List.take_take, Nat.min_eq_left (show limit ≤ limit + 1 by omega),
    List.length_take, if_pos hmore]

theorem listCursor_none : listCursor db table filter none limit sortBy direction
    = .ok (cursorPage sortBy limit (orderedRows db table (filter.matches db) sortBy direction)) := by
  simp only [listCursor, decodeCursor, cursorSelects, Bool.and_true]

variable {db} (hread : ∀ t : DateTime, db.readTimestamp t.str = some t.ticks)
include hread

omit [LinearOrder κ] in
theorem readSortValue_sortText (row : OutageRow) :
    readSortValue db sortBy (sortText sortBy row) = some (sortValue db sortBy row) := by
  cases sortBy with
  | detectedAt =>
      unfold readSortValue sortText sortValue
      rw [hread, Option.map_some]
  | siteName => rfl
  | severity => rfl
  | status => rfl
  | id => rfl

theorem listCursor_encodeCursor (c : OutageRow) :
    listCursor db table filter (some (encodeCursor c.id (sortText sortBy c))) limit sortBy direction
      = .ok (cursorPage sortBy limit ((orderedRows db table (filter.matches db) sortBy direction).filter
          (afterRow db sortBy direction c))) := by
  unfold listCursor
  rw [decodeCursor_encodeCursor]
  simp only [cursorSelects, readSortValue_sortText sortBy hread]
  rw [orderedRows_and]
  rfl

/-- Following the cursors is keyset paging of the ordered rows. -/
theorem followCursors_eq_collect {limit : ℕ} (hlimit : 1 ≤ limit) {fuel : ℕ} {cursor : Option String}
    {rows : List OutageRow}
    (hrows : listCursor db table filter cursor limit sortBy direction
      = .ok (cursorPage sortBy limit rows)) :
    followCursors db table filter limit sortBy direction fuel cursor
      = Paging.collect (orderedRows db table (filter.matches db) sortBy direction)
          (afterRow db sortBy direction) limit fuel rows := by
  induction fuel generalizing cursor rows with
  | zero => rfl
  | succ fuel ih =>
      rw [followCursors, hrows]
      simp only [cursorPage_hasMore, cursorPage_items, decide_eq_true_eq]
      rcases Nat.lt_or_ge limit rows.length with hlt | hle
      · obtain ⟨c, hc, hcollect⟩ := Paging.collect_of_lt_length
          (orderedRows db table (filter.matches db) sortBy direction) (afterRow db sortBy direction)
          fuel hlimit hlt
        have hlast : (rows.take limit).getLast? = some c := by
          rw [← hc, List.getLast?_eq_getElem?, List.length_take, Nat.min_eq_left hlt.le,
            List.getElem?_take, if_pos (by omega)]
        rw [if_pos hlt, hcollect, cursorPage_nextCursor limit sortBy hlt, hlast, Option.map_some,
          ih (listCursor_encodeCursor table filter limit sortBy direction hread c)]
      · rw [if_neg (by omega), Paging.collect_of_length_le hle, List.take_of_length_le hle]

/-- Following the cursors from the start ends, for every table, filter, sort and limit. The pages are the
list, if and only if the sort is ascending or no page ends, with rows to come, in a row that shares its
sort value with another one. -/
theorem followCursors_flatten_iff (hlimit : 1 ≤ limit) :
    (∃ fuel pages, followCursors db table filter limit sortBy direction fuel none = some pages) ∧
    ((∃ fuel pages, followCursors db table filter limit sortBy direction fuel none = some pages ∧
        pages.flatten = orderedRows db table (filter.matches db) sortBy direction) ↔
      direction = .asc ∨
        ∀ k c, (k + 1) * limit < (orderedRows db table (filter.matches db) sortBy direction).length →
          (orderedRows db table (filter.matches db) sortBy direction)[(k + 1) * limit - 1]? = some c →
          ∀ row ∈ orderedRows db table (filter.matches db) sortBy direction,
            sortValue db sortBy row = sortValue db sortBy c → row = c) := by
  set S := orderedRows db table (filter.matches db) sortBy direction with hS
  have hsorted : S.Pairwise (Before db sortBy direction) := pairwise_before_orderedRows _
  have hpos : ∀ k, 1 ≤ (k + 1) * limit := fun k => Nat.mul_pos (Nat.succ_pos k) hlimit
  have hfollow : ∀ fuel, followCursors db table filter limit sortBy direction fuel none
      = Paging.collect S (afterRow db sortBy direction) limit fuel S := fun fuel =>
    followCursors_eq_collect table filter sortBy direction hread hlimit
      (listCursor_none db table filter limit sortBy direction)
  have hirrefl : ∀ row, afterRow db sortBy direction row row = false := afterRow_irrefl
  obtain ⟨pages, hpages⟩ := Paging.exists_collect (S := S) hlimit hirrefl afterRow_trans
  refine ⟨⟨_, pages, by rw [hfollow, hpages]⟩, ?_⟩
  have hsplit : ∀ n c, S[n]? = some c →
      S.filter (afterRow db sortBy direction c) = S.drop (n + 1) ∨
        (S.filter (afterRow db sortBy direction c)).head? ≠ (S.drop (n + 1)).head? := by
    intro n c hc
    have hcut := Cut.of_getElem? hsorted hc
    cases direction with
    | asc => exact .inl hcut.filter_eq_asc
    | desc =>
        by_cases hunique : ∀ row ∈ S, sortValue db sortBy row = sortValue db sortBy c → row = c
        · exact .inl (hcut.filter_eq_desc hunique)
        · push Not at hunique
          obtain ⟨row, hrow, heq, hne⟩ := hunique
          exact .inr (hcut.head_filter_ne hrow heq hne)
  constructor
  · rintro ⟨fuel, pages, hcollect, hflatten⟩
    rw [hfollow] at hcollect
    have hexact := (Paging.collect_flatten_iff hlimit hsplit hcollect).mp hflatten
    cases direction with
    | asc => exact .inl rfl
    | desc =>
        refine .inr fun k c hbound hc row hrow heq => ?_
        by_contra hne
        have hcut := Cut.of_getElem? hsorted hc
        rw [Nat.sub_add_cancel (hpos k)] at hcut
        refine hcut.head_filter_ne hrow heq hne ?_
        rw [hexact k (Nat.zero_le k) hbound c hc]
  · intro hcond
    refine ⟨_, pages, by rw [hfollow, hpages], ?_⟩
    rw [Paging.collect_flatten_iff hlimit hsplit hpages]
    intro k _ hbound c hc
    have hcut := Cut.of_getElem? hsorted hc
    rw [Nat.sub_add_cancel (hpos k)] at hcut
    cases direction with
    | asc => exact hcut.filter_eq_asc
    | desc =>
        rcases hcond with hasc | hunique
        · cases hasc
        · exact hcut.filter_eq_desc (hunique k c hbound hc)

end Walk

/-- A database that compares texts by their characters and reads timestamps as Python does. -/
def plainDatabase : Database (List Char) where
  sortKey := String.toList
  sortKey_injective _ _ h := String.toList_injective h
  lower := Char.toLower
  readTimestamp text := (fromisoformat text).map IsoTime.ticks

theorem plainDatabase_readTimestamp (t : DateTime) :
    plainDatabase.readTimestamp t.str = some t.ticks := by
  simp only [plainDatabase, fromisoformat_str, Option.map_some, IsoTime.ticks, Option.getD_some,
    sub_zero]

theorem valid_detectedAt : DateTime.Valid 2026 1 2 3 4 5 0 := by decide

/-- An outage of critical severity that is still open. -/
def criticalOutage (id : String) : OutageRow where
  id := id
  siteName := "Lagos-1"
  siteId := none
  severity := "critical"
  status := "open"
  detectedAt := .ofValid valid_detectedAt

/-- Three outages of one severity. -/
def criticalOutages : OutageTable where
  rows := [criticalOutage "OUT-1", criticalOutage "OUT-2", criticalOutage "OUT-3"]
  primaryKey := by decide

/-- No filter at all. -/
def noFilter : OutageFilter := ⟨none, none, none, none, none⟩

theorem followCursors_criticalOutages_asc :
    ∃ fuel pages, followCursors plainDatabase criticalOutages noFilter 2 .severity .asc fuel none
        = some pages ∧
      pages.flatten = orderedRows plainDatabase criticalOutages (noFilter.matches plainDatabase)
        .severity .asc :=
  (followCursors_flatten_iff criticalOutages noFilter 2 .severity .asc plainDatabase_readTimestamp
    (by decide)).2.mpr (.inl rfl)

/-- By descending severity in pages of two, the first outage comes twice and the third not at all. -/
theorem followCursors_criticalOutages_desc :
    orderedRows plainDatabase criticalOutages (noFilter.matches plainDatabase) .severity .desc
        = [criticalOutage "OUT-1", criticalOutage "OUT-2", criticalOutage "OUT-3"] ∧
      ∀ fuel pages, followCursors plainDatabase criticalOutages noFilter 2 .severity .desc fuel none
          = some pages →
        pages = [[criticalOutage "OUT-1", criticalOutage "OUT-2"], [criticalOutage "OUT-1"]] := by
  have hrows : orderedRows plainDatabase criticalOutages (noFilter.matches plainDatabase) .severity .desc
      = [criticalOutage "OUT-1", criticalOutage "OUT-2", criticalOutage "OUT-3"] := by decide
  refine ⟨hrows, fun fuel pages hpages => ?_⟩
  rw [followCursors_eq_collect criticalOutages noFilter .severity .desc plainDatabase_readTimestamp
    (by decide) (listCursor_none plainDatabase criticalOutages noFilter 2 .severity .desc),
    hrows] at hpages
  have hselected : [criticalOutage "OUT-1", criticalOutage "OUT-2", criticalOutage "OUT-3"].filter
      (afterRow plainDatabase .severity .desc (criticalOutage "OUT-2")) = [criticalOutage "OUT-1"] := by
    decide
  have hpage (fuel : ℕ) : Paging.collect
      [criticalOutage "OUT-1", criticalOutage "OUT-2", criticalOutage "OUT-3"]
      (afterRow plainDatabase .severity .desc) 2 (fuel + 1)
      [criticalOutage "OUT-1", criticalOutage "OUT-2", criticalOutage "OUT-3"]
      = (Paging.collect [criticalOutage "OUT-1", criticalOutage "OUT-2", criticalOutage "OUT-3"]
          (afterRow plainDatabase .severity .desc) 2 fuel [criticalOutage "OUT-1"]).map
          ([criticalOutage "OUT-1", criticalOutage "OUT-2"] :: ·) := by
    obtain ⟨c, hc, hcollect⟩ := Paging.collect_of_lt_length
      [criticalOutage "OUT-1", criticalOutage "OUT-2", criticalOutage "OUT-3"]
      (afterRow plainDatabase .severity .desc) fuel (show 1 ≤ 2 by decide)
      (show 2 < [criticalOutage "OUT-1", criticalOutage "OUT-2", criticalOutage "OUT-3"].length by decide)
    obtain rfl : criticalOutage "OUT-2" = c := Option.some.inj hc
    rw [hcollect, hselected]
    rfl
  cases fuel with
  | zero => cases hpages
  | succ fuel =>
      rw [hpage] at hpages
      cases fuel with
      | zero => cases hpages
      | succ fuel => exact (Option.some.inj hpages).symm

end ApexChainx.Outages
