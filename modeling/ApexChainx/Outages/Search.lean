import ApexChainx.Outages.Pagination

/-!
# Searching outages

The filters of `OutageRepository.list`, `list_cursor`, `list_filtered` and `iter_filtered`. Each of the four
builds its query by the same steps, so they select the same rows (`filtersAgree_matches`). The text of a search
goes into the pattern of an `ILIKE` as it is, so that its own `%`, `_` and `\` are wildcards and escapes
(`filtersAgree_wanted_iff`).
-/

namespace ApexChainx.Outages

open ApexChainx.Lib

/-- A database whose `ILIKE` maps no character to a wildcard or the escape, nor one of them to another. -/
structure SearchDatabase (κ : Type) extends Database κ where
  meta_fixed : ∀ c, isMeta c = true → lower c = c
  meta_reflected : ∀ c, isMeta (lower c) = true → isMeta c = true

def SearchDatabase.caseMapping {κ : Type} (db : SearchDatabase κ) : CaseMapping :=
  ⟨db.lower, db.meta_fixed, db.meta_reflected⟩

section Queries

variable {κ : Type} (db : Database κ)

/-- `query.filter`, where the parameter is set. -/
def filterIfSet {α : Type} (parameter : Option α) (clause : α → OutageRow → Bool) (rows : List OutageRow) :
    List OutageRow :=
  match parameter with
  | none => rows
  | some value => rows.filter (clause value)

/-- The query that `list_filtered` and `iter_filtered` build; an empty text is no search. -/
def filteredQuery (filter : OutageFilter) (rows : List OutageRow) : List OutageRow :=
  let rows := filterIfSet filter.severity (fun severity row => row.severity = severity.value) rows
  let rows := filterIfSet filter.status (fun status row => row.status = status.value) rows
  let rows := filterIfSet (filter.search.filter (· ≠ "")) (fun search row =>
    db.ilike search (some row.id) || db.ilike search row.siteId || db.ilike search (some row.siteName)) rows
  let rows := filterIfSet filter.startDate (fun start row => start ≤ row.detectedAt.ticks) rows
  filterIfSet filter.endDate (fun finish row => row.detectedAt.ticks ≤ finish) rows

/-- The driver is given the text of the search as a parameter of the query, and refuses a NUL in it. -/
def OutageFilter.execute {α : Type} (filter : OutageFilter) (result : Outcome α) : Outcome α :=
  if filter.search.any fun search => search.toList.contains '\x00' then .error .nulLiteral else result

/-- `OutageRepository.list_filtered`. -/
def listFiltered (table : OutageTable) (filter : OutageFilter) : Outcome (List OutageRow) :=
  filter.execute (.ok (filteredQuery db filter table.rows))

/-- The batches of `yield_per`; a batch has one row at least. -/
def batches (batchSize : ℕ) : List OutageRow → List (List OutageRow)
  | [] => []
  | row :: rows => (row :: rows.take (batchSize - 1)) :: batches batchSize (rows.drop (batchSize - 1))
termination_by rows => rows.length
decreasing_by simp only [List.length_cons, List.length_drop]; omega

/-- The rows that `OutageRepository.iter_filtered` yields. -/
def iterFiltered (table : OutageTable) (filter : OutageFilter) (batchSize : ℕ) : Outcome (List OutageRow) :=
  filter.execute (.ok (batches batchSize (filteredQuery db filter table.rows)).flatten)

end Queries

/-! ## The four filters -/

/-- The search text occurs in the text as it stands, ignoring case. -/
def Database.Occurs {κ : Type} (db : Database κ) (search text : String) : Prop :=
  search.toList.map db.lower <:+: text.toList.map db.lower

/-- The rows that a filter is meant to select. -/
structure OutageFilter.Wanted {κ : Type} (db : Database κ) (filter : OutageFilter) (row : OutageRow) : Prop where
  severity : ∀ severity ∈ filter.severity, row.severity = severity.value
  status : ∀ status ∈ filter.status, row.status = status.value
  search : ∀ search ∈ filter.search, db.Occurs search row.id ∨ (∃ siteId ∈ row.siteId, db.Occurs search siteId)
    ∨ db.Occurs search row.siteName
  startDate : ∀ start ∈ filter.startDate, start ≤ row.detectedAt.ticks
  endDate : ∀ finish ∈ filter.endDate, row.detectedAt.ticks ≤ finish

/-- No text of the query has a NUL. -/
def OutageFilter.Sendable (filter : OutageFilter) : Prop := ∀ search ∈ filter.search, '\x00' ∉ search.toList

/-- The four methods return, and select the rows with the property: `list` over all its pages, and `list_cursor`
without a cursor and with a limit that the table does not exceed. -/
structure FiltersAgree {κ : Type} [LinearOrder κ] (db : Database κ) (table : OutageTable) (filter : OutageFilter)
    (selected : OutageRow → Prop) : Prop where
  list : ∀ pageSize sortBy direction includeTotal, 0 < pageSize → ∃ pages : ℕ → ListResult,
    (∀ page, filter.execute (.ok (list db table filter page pageSize sortBy direction includeTotal)) =
      .ok (pages page)) ∧
      ∀ row, (∃ page, 1 ≤ page ∧ row ∈ (pages page).items) ↔ selected row
  listCursor : ∀ limit sortBy direction, table.rows.length ≤ limit →
    ∃ page, filter.execute (listCursor db table filter none limit sortBy direction) = .ok page ∧
      ∀ row, row ∈ page.items ↔ selected row
  listFiltered : ∃ rows, listFiltered db table filter = .ok rows ∧ ∀ row, row ∈ rows ↔ selected row
  iterFiltered : ∀ batchSize, ∃ rows, iterFiltered db table filter batchSize = .ok rows ∧
    ∀ row, row ∈ rows ↔ selected row

theorem execute_of_sendable {α : Type} {filter : OutageFilter} (h : filter.Sendable) (result : Outcome α) :
    filter.execute result = result := by
  rw [OutageFilter.execute, if_neg]
  rw [OutageFilter.Sendable] at h
  cases hsearch : filter.search with
  | none => simp
  | some search => simpa using h search hsearch

/-- A NUL in the text fails every query. -/
theorem sendable_of_execute {α : Type} {filter : OutageFilter} {result : Outcome α} {a : α}
    (h : filter.execute result = .ok a) : filter.Sendable := by
  intro search hsearch hnul
  rw [OutageFilter.execute, if_pos] at h
  · cases h
  · rw [hsearch, Option.any_some, List.contains_iff_mem]
    exact hnul

theorem flatten_batches (batchSize : ℕ) (rows : List OutageRow) : (batches batchSize rows).flatten = rows := by
  induction rows using batches.induct batchSize with
  | case1 => simp [batches]
  | case2 row rows ih => rw [batches, List.flatten_cons, ih, List.cons_append, List.take_append_drop]

theorem mem_filterIfSet {α : Type} {parameter : Option α} {clause : α → OutageRow → Bool} {rows : List OutageRow}
    {row : OutageRow} : row ∈ filterIfSet parameter clause rows ↔ row ∈ rows ∧ parameter.all (clause · row) := by
  cases parameter with
  | none => simp [filterIfSet]
  | some value => rw [filterIfSet, List.mem_filter, Option.all_some]

/-- Some page of a listing has each of its rows. -/
theorem exists_mem_page {rows : List OutageRow} {row : OutageRow} {pageSize : ℕ} (hsize : 0 < pageSize) :
    (∃ page, 1 ≤ page ∧ row ∈ (rows.drop ((page - 1) * pageSize)).take pageSize) ↔ row ∈ rows := by
  constructor
  · rintro ⟨page, -, hmem⟩
    exact List.mem_of_mem_drop (List.mem_of_mem_take hmem)
  · intro hmem
    obtain ⟨i, hi, rfl⟩ := List.getElem_of_mem hmem
    refine ⟨i / pageSize + 1, Nat.le_add_left _ _, ?_⟩
    have hdiv : i / pageSize * pageSize + i % pageSize = i := Nat.div_add_mod' i pageSize
    have hlt := Nat.mod_lt i hsize
    rw [Nat.add_sub_cancel]
    refine List.mem_iff_getElem?.mpr ⟨i % pageSize, ?_⟩
    rw [List.getElem?_take_of_lt hlt, List.getElem?_drop, hdiv, List.getElem?_eq_getElem hi]

section Agreement

variable {κ : Type} [LinearOrder κ] (db : Database κ) (table : OutageTable) (filter : OutageFilter)

omit [LinearOrder κ] in
theorem mem_filteredQuery {rows : List OutageRow} {row : OutageRow} :
    row ∈ filteredQuery db filter rows ↔ row ∈ rows ∧ filter.matches db row = true := by
  have hsearch : ∀ p : String → Bool, (filter.search.filter (· ≠ "")).all p
      = filter.search.all fun search => search = "" || p search := by
    intro p
    cases filter.search with
    | none => rfl
    | some search => by_cases hempty : search = "" <;> simp [Option.filter, hempty]
  simp only [filteredQuery, mem_filterIfSet, hsearch, OutageFilter.matches, Bool.and_eq_true, and_assoc,
    Bool.or_assoc]

variable {filter}

/-- The four filters select the same rows. -/
theorem filtersAgree_matches (hsend : filter.Sendable) :
    FiltersAgree db table filter fun row => row ∈ table.rows ∧ filter.matches db row = true where
  list pageSize sortBy direction includeTotal hsize := by
    refine ⟨_, fun page => execute_of_sendable hsend _, fun row => ?_⟩
    have hrows : row ∈ orderedRows db table (filter.matches db) sortBy direction ↔ _ := mem_orderedRows
    rw [← hrows]
    exact exists_mem_page hsize
  listCursor limit sortBy direction hlimit := by
    refine ⟨_, (execute_of_sendable hsend _).trans (listCursor_none db table filter limit sortBy direction),
      fun row => ?_⟩
    have hlength : (orderedRows db table (filter.matches db) sortBy direction).length ≤ limit := by
      rw [orderedRows, List.length_insertionSort]
      exact (List.length_filter_le _ _).trans hlimit
    rw [cursorPage_items, List.take_of_length_le hlength, mem_orderedRows]
  listFiltered := ⟨_, execute_of_sendable hsend _, fun _ => mem_filteredQuery db filter⟩
  iterFiltered batchSize := by
    refine ⟨_, execute_of_sendable hsend _, fun row => ?_⟩
    rw [flatten_batches]
    exact mem_filteredQuery db filter

variable {db table}

/-- The four select the rows with another property when they return and it is the same one. -/
theorem filtersAgree_iff {selected : OutageRow → Prop} : FiltersAgree db table filter selected ↔
    filter.Sendable ∧ ∀ row, row ∈ table.rows ∧ filter.matches db row = true ↔ selected row := by
  constructor
  · intro h
    obtain ⟨rows, hrows, hselected⟩ := h.listFiltered
    have hsend := sendable_of_execute hrows
    rw [listFiltered, execute_of_sendable hsend, Outcome.ok.injEq] at hrows
    exact ⟨hsend, fun row => by rw [← hselected, ← hrows, mem_filteredQuery]⟩
  · rintro ⟨hsend, h⟩
    have hselected : selected = fun row => row ∈ table.rows ∧ filter.matches db row = true :=
      funext fun row => propext (h row).symm
    rw [hselected]
    exact filtersAgree_matches db table hsend

end Agreement

/-! ## The search text -/

section Search

variable {κ : Type} (db : SearchDatabase κ) {search : String}

/-- A search text without wildcards and escapes is looked for as it stands. -/
theorem ilike_iff (hplain : LikePlain search.toList) (text : Option String) :
    db.ilike search text = true ↔ ∃ s ∈ text, db.Occurs search s := by
  cases text with
  | none => simp [Database.ilike]
  | some text =>
      rw [Database.ilike]
      simp only [Option.mem_def, Option.some.injEq, exists_eq_left']
      exact like_contains_map db.caseMapping hplain

/-- What a search text with a wildcard or an escape finds besides the texts it occurs in. -/
theorem exists_found_not_occurs (hplain : ¬ LikePlain search.toList) :
    ∃ text : String, db.ilike search (some text) = true ∧ ¬ db.Occurs search text := by
  refine ⟨String.ofList (shortest search.toList), ?_, ?_⟩
  · have hpercent : db.lower '%' = '%' := db.meta_fixed '%' rfl
    rw [Database.ilike, String.toList_ofList, List.map_append, List.map_cons, List.map_singleton, hpercent,
      List.cons_append]
    exact like_percent.mpr ⟨_, List.suffix_rfl, like_shortest db.caseMapping search.toList⟩
  · rw [Database.Occurs, String.toList_ofList]
    exact not_infix_shortest db.caseMapping hplain

/-- A filter passes the rows it is meant to select, where its search text is plain. -/
theorem matches_iff_wanted {filter : OutageFilter} (hplain : ∀ search ∈ filter.search, LikePlain search.toList)
    (row : OutageRow) : filter.matches db.toDatabase row = true ↔ filter.Wanted db.toDatabase row := by
  have hsearch : filter.search.all (fun search => search = "" || db.ilike search (some row.id) ||
      db.ilike search row.siteId || db.ilike search (some row.siteName)) = true ↔
      ∀ search ∈ filter.search, db.Occurs search row.id ∨ (∃ siteId ∈ row.siteId, db.Occurs search siteId)
        ∨ db.Occurs search row.siteName := by
    rw [Option.all_eq_true]
    refine forall₂_congr fun search hmem => ?_
    by_cases hempty : search = ""
    · -- an empty text is no search, and occurs in every text
      subst hempty
      exact iff_of_true (by simp) (.inl List.nil_infix)
    · simp only [hempty, decide_false, Bool.false_or, Bool.or_eq_true, ilike_iff db (hplain search hmem),
        Option.mem_def, Option.some.injEq, exists_eq_left', or_assoc]
  simp only [OutageFilter.matches, Bool.and_eq_true, hsearch]
  simp only [Option.all_eq_true, decide_eq_true_eq]
  constructor
  · rintro ⟨⟨⟨⟨hseverity, hstatus⟩, hfound⟩, hstart⟩, hfinish⟩
    exact ⟨hseverity, hstatus, hfound, hstart, hfinish⟩
  · rintro ⟨hseverity, hstatus, hfound, hstart, hfinish⟩
    exact ⟨⟨⟨⟨hseverity, hstatus⟩, hfound⟩, hstart⟩, hfinish⟩

end Search

/-- An outage whose id and site name are one text. -/
def outageNamed (text : String) : OutageRow := { criticalOutage text with siteName := text }

def emptyTable : OutageTable := ⟨[], .nil⟩

def tableOfOne (row : OutageRow) : OutageTable := ⟨[row], List.pairwise_singleton _ _⟩

/-- The four methods select the same rows, unless the driver refuses the query. They are the rows the filter is meant
to select, on every table and with every severity, status and dates, exactly when the search text has no `%`, no `_`,
no `\` and no NUL. -/
theorem filtersAgree_wanted_iff {κ : Type} [LinearOrder κ] (db : SearchDatabase κ) :
    (∀ table filter, (∃ selected, FiltersAgree db.toDatabase table filter selected) ↔ filter.Sendable) ∧
    ∀ search : Option String,
      (∀ (table : OutageTable) (filter : OutageFilter), filter.search = search →
        FiltersAgree db.toDatabase table filter fun row => row ∈ table.rows ∧ filter.Wanted db.toDatabase row) ↔
      ∀ text ∈ search, LikePlain text.toList ∧ '\x00' ∉ text.toList := by
  refine ⟨fun table filter => ⟨?_, fun hsend => ⟨_, filtersAgree_matches db.toDatabase table hsend⟩⟩,
    fun search => ⟨?_, ?_⟩⟩
  · rintro ⟨selected, hagree⟩
    exact (filtersAgree_iff.mp hagree).1
  · rintro h text rfl
    refine ⟨?_, (filtersAgree_iff.mp (h emptyTable { noFilter with search := some text } rfl)).1 text rfl⟩
    by_contra hplain
    obtain ⟨site, hfound, hoccurs⟩ := exists_found_not_occurs db hplain
    -- an outage whose id and site name are the text that is found by mistake
    have hagree := (filtersAgree_iff.mp
      (h (tableOfOne (outageNamed site)) { noFilter with search := some text } rfl)).2 (outageNamed site)
    have hmatches : OutageFilter.matches db.toDatabase { noFilter with search := some text } (outageNamed site)
        = true := by
      simp [OutageFilter.matches, noFilter, outageNamed, criticalOutage, hfound]
    have hwanted := (hagree.mp ⟨List.mem_singleton_self _, hmatches⟩).2
    rcases hwanted.search text rfl with hid | ⟨siteId, hsite, -⟩ | hname
    · exact hoccurs hid
    · cases hsite
    · exact hoccurs hname
  · rintro hplain table filter rfl
    refine filtersAgree_iff.mpr ⟨fun text htext => (hplain text htext).2, fun row => and_congr_right fun _ => ?_⟩
    exact matches_iff_wanted db (fun text htext => (hplain text htext).1) row

/-- `plainDatabase` is one: lower-case letters are no wildcards. -/
def plainSearchDatabase : SearchDatabase (List Char) where
  toDatabase := plainDatabase
  meta_fixed _ := toLower_of_isMeta
  meta_reflected _ := isMeta_of_toLower

/-- A search for `depot_1` also finds the site `depot-1`, and one for a NUL fails on every table. -/
theorem underscore_is_wildcard :
    listFiltered plainSearchDatabase.toDatabase (tableOfOne (outageNamed "depot-1"))
        { noFilter with search := some "depot_1" } = .ok [outageNamed "depot-1"] ∧
    listFiltered plainSearchDatabase.toDatabase emptyTable { noFilter with search := some "\x00" } =
      .error .nulLiteral ∧
    ¬ OutageFilter.Wanted plainSearchDatabase.toDatabase { noFilter with search := some "depot_1" }
        (outageNamed "depot-1") := by
  have hnone : ¬ plainDatabase.Occurs "depot_1" "depot-1" := by
    unfold Database.Occurs
    decide +kernel
  refine ⟨by decide +kernel, by decide, fun hwanted => ?_⟩
  · rcases hwanted.search "depot_1" rfl with hid | ⟨siteId, hsite, -⟩ | hname
    · exact hnone hid
    · cases hsite
    · exact hnone hname

end ApexChainx.Outages
