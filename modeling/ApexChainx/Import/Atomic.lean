import Mathlib.Data.List.Forall2
import ApexChainx.Import.Endpoint

/-!
# The atomic import as one batch

Rows are committed one by one, and a batch that fails is undone by deletes. The loop over the rows extends
the table by rows with fresh ids; the ids it counts as persisted are those of the rows it added, so that
deleting them gives the old table back and leaves duplicates alone. One row can escape the count: a row
that is committed and cannot be read back afterwards.
-/

namespace ApexChainx.Import

variable {ρ : Type*} (parser : RowParser ρ)

/-- What a row result says about the table is so: the outage is there as a row of its own, or as the
reported duplicate. -/
def Reported (outages : List OutageRow) (result : ImportRowResult) (p : OutageCreate) : Prop :=
  (result.persisted = some true ∧ result.outageId = some p.id ∧ p.toRow ∈ outages) ∨
    (result.duplicate = some true ∧ ∃ row ∈ outages, result.existingId = some row.id ∧
      (isSameOutage row p = true ∨ matchesTuple row p = true ∧ agrees row p = true))

/-- The answer of an atomic import and the table it leaves: the old table, unless every row is in it. -/
structure AllOrNothing (rows : List ρ) (outages : List OutageRow)
    (answer : Outcome (List ImportRowResult) × List OutageRow) : Prop where
  failed : ∀ e, answer.1 = .error e → answer.2 = outages
  invalid : ∀ results, answer.1 = .ok results → (∃ result ∈ results, result.ok = false) → answer.2 = outages
  kept : outages <+: answer.2
  present : ∀ results, answer.1 = .ok results → (∀ result ∈ results, result.ok = true) →
    List.Forall₂ (fun row result => ∃ p, parser.outageCreate row = .ok p ∧ Reported answer.2 result p)
      rows results

/-- A row is committed and its reading back fails. The rows before it were created or found. -/
inductive LosesCommit (fault : ℕ → Option Fault) : ℕ → List OutageCreate → List OutageRow → Prop
  | here {i p ps outages} : checkDuplicate outages p = .ok none → fault i = some .refresh →
      LosesCommit fault i (p :: ps) outages
  | added {i p ps outages} : checkDuplicate outages p = .ok none → fault i = none →
      LosesCommit fault (i + 1) ps (outages ++ [p.toRow]) → LosesCommit fault i (p :: ps) outages
  | duplicate {i p ps outages existing} : checkDuplicate outages p = .ok (some existing) →
      fault i ≠ some .lookup → LosesCommit fault (i + 1) ps outages → LosesCommit fault i (p :: ps) outages

/-! ## The loop over the rows -/

/-- What a row was created as, or found as. -/
def Found (outages : List OutageRow) (p : OutageCreate) (created : OutageRow × Bool) : Prop :=
  created.1 ∈ outages ∧
    (created = (p.toRow, true) ∨
      created.2 = false ∧
        (isSameOutage created.1 p = true ∨ matchesTuple created.1 p = true ∧ agrees created.1 p = true))

/-- The rows `new` are counted as persisted, the rows `lost` are not. -/
structure Extends (outages : List OutageRow) (persisted : List String) (ps : List OutageCreate)
    (answer : Outcome (List (OutageRow × Bool)) × List OutageRow × List String)
    (new lost : List OutageRow) : Prop where
  table : answer.2.1 = outages ++ new ++ lost
  counted : answer.2.2 = persisted ++ new.map OutageRow.id
  fresh : ((outages ++ new ++ lost).map OutageRow.id).Nodup
  found : ∀ created, answer.1 = .ok created → lost = [] ∧ List.Forall₂ (Found (outages ++ new)) ps created

variable {outages : List OutageRow} {p : OutageCreate} {ps : List OutageCreate} {persisted : List String}
  {db : DbFaults} {i : ℕ}

theorem nodup_append_toRow (hids : (outages.map OutageRow.id).Nodup)
    (hnew : checkDuplicate outages p = .ok none) : ((outages ++ [p.toRow]).map OutageRow.id).Nodup := by
  have hid : p.id ∉ outages.map OutageRow.id := (checkDuplicate_eq_none.mp hnew).1
  rw [List.map_append, List.map_singleton, ← List.concat_eq_append]
  exact hids.concat hid

/-- A step that raises and leaves the table as it was. -/
theorem Extends.stopped (hids : (outages.map OutageRow.id).Nodup) (e : ApiError) :
    Extends outages persisted ps (.error e, outages, persisted) [] [] where
  table := by simp
  counted := by simp
  fresh := by simpa using hids
  found := nofun

theorem Found.mono {outages' : List OutageRow} {created : OutageRow × Bool} (h : Found outages p created)
    (hsub : outages ⊆ outages') : Found outages' p created :=
  ⟨hsub h.1, h.2⟩

/-- The outage of the row in front, before those of the rows behind it. -/
def consCreated (created : OutageRow × Bool) :
    Outcome (List (OutageRow × Bool)) × List OutageRow × List String →
      Outcome (List (OutageRow × Bool)) × List OutageRow × List String
  | (.error e, outages, persisted) => (.error e, outages, persisted)
  | (.ok rest, outages, persisted) => (.ok (created :: rest), outages, persisted)

theorem createRows_cons {created : OutageRow × Bool} {outages' : List OutageRow}
    (h : createOrGetExisting (db.fault i) p outages = (.ok created, outages')) :
    createRows db i (p :: ps) outages persisted =
      consCreated created (createRows db (i + 1) ps outages'
        (if created.2 then persisted ++ [created.1.id] else persisted)) := by
  rw [createRows, h]
  rfl

theorem createRows_cons_error {e : ApiError} {outages' : List OutageRow}
    (h : createOrGetExisting (db.fault i) p outages = (.error e, outages')) :
    createRows db i (p :: ps) outages persisted = (.error e, outages', persisted) := by
  rw [createRows, h]

/-- The row in front was created, as the row `front`, or found, and `front` is empty. -/
theorem Extends.cons {created : OutageRow × Bool} {answer} (front : List OutageRow) {new lost : List OutageRow}
    (hfound : Found (outages ++ front) p created)
    (h : Extends (outages ++ front) (persisted ++ front.map OutageRow.id) ps answer new lost) :
    Extends outages persisted (p :: ps) (consCreated created answer) (front ++ new) lost := by
  obtain ⟨result, outages', persisted'⟩ := answer
  have htable : outages' = outages ++ (front ++ new) ++ lost := by simpa using h.table
  have hcounted : persisted' = persisted ++ (front ++ new).map OutageRow.id := by simpa using h.counted
  have hfresh : ((outages ++ (front ++ new) ++ lost).map OutageRow.id).Nodup := by simpa using h.fresh
  cases result with
  | error e => exact ⟨htable, hcounted, hfresh, nofun⟩
  | ok rest =>
      refine ⟨htable, hcounted, hfresh, ?_⟩
      rintro _ ⟨⟩
      obtain ⟨hlost, hrest⟩ := h.found rest rfl
      rw [← List.append_assoc]
      exact ⟨hlost, .cons (hfound.mono (List.subset_append_left _ _)) hrest⟩

/-- What becomes of one row: it stops the loop, is found, is created, or is created and lost. -/
theorem createOrGetExisting_cases (fault : Option Fault) (p : OutageCreate) (outages : List OutageRow) :
    (∃ e, createOrGetExisting fault p outages = (.error e, outages) ∧
      (fault = some .lookup ∨ fault = some .commit ∧ checkDuplicate outages p = .ok none ∨
        checkDuplicate outages p = .error e)) ∨
    (∃ existing, createOrGetExisting fault p outages = (.ok (existing, false), outages) ∧
      checkDuplicate outages p = .ok (some existing) ∧ fault ≠ some .lookup) ∨
    (createOrGetExisting fault p outages = (.ok (p.toRow, true), outages ++ [p.toRow]) ∧
      checkDuplicate outages p = .ok none ∧ fault = none) ∨
    (createOrGetExisting fault p outages = (.error Fault.refresh.error, outages ++ [p.toRow]) ∧
      checkDuplicate outages p = .ok none ∧ fault = some .refresh) := by
  unfold createOrGetExisting
  rcases hcheck : checkDuplicate outages p with (_ | existing) | e
  · rcases fault with _ | _ | _ | _
    all_goals simp
  · rcases fault with _ | _ | _ | _
    all_goals simp
  · rcases fault with _ | _ | _ | _
    all_goals simp

/-- The loop adds rows and counts them all, except the one it loses. -/
theorem createRows_extends (db : DbFaults) (ps : List OutageCreate) (i : ℕ) (persisted : List String)
    (hids : (outages.map OutageRow.id).Nodup) :
    ∃ new lost, Extends outages persisted ps (createRows db i ps outages persisted) new lost ∧
      (lost = [] ↔ ¬ LosesCommit db.fault i ps outages) := by
  induction ps generalizing i outages persisted with
  | nil =>
      refine ⟨[], [], ?_, iff_of_true rfl nofun⟩
      unfold createRows
      split
      · exact .stopped hids _
      · refine ⟨by simp, by simp, by simpa using hids, ?_⟩
        rintro _ ⟨⟩
        exact ⟨rfl, .nil⟩
  | cons p ps ih =>
      obtain ⟨e, hstep, hstop⟩ | ⟨existing, hstep, hcheck, hfault⟩ | ⟨hstep, hcheck, hfault⟩ |
        ⟨hstep, hcheck, hfault⟩ := createOrGetExisting_cases (db.fault i) p outages
      · rw [createRows_cons_error hstep]
        refine ⟨[], [], .stopped hids e, iff_of_true rfl ?_⟩
        rintro (⟨hcheck, hfault⟩ | ⟨hcheck, hfault, -⟩ | ⟨hcheck, hfault, -⟩)
        all_goals simp [hcheck, hfault] at hstop
      · rw [createRows_cons hstep]
        obtain ⟨hmem, hsame⟩ := checkDuplicate_eq_some hcheck
        obtain ⟨new, lost, hrest, hlost⟩ := ih (i + 1) persisted hids
        refine ⟨new, lost, ?_, hlost.trans (not_congr ⟨.duplicate hcheck hfault, ?_⟩)⟩
        · have hfound : Found (outages ++ []) p (existing, false) := by simpa [Found] using ⟨hmem, hsame⟩
          exact .cons [] hfound (by simpa using hrest)
        · rintro (⟨h, -⟩ | ⟨h, -, -⟩ | ⟨-, -, hlater⟩)
          · simp [hcheck] at h
          · simp [hcheck] at h
          · exact hlater
      · rw [createRows_cons hstep]
        obtain ⟨new, lost, hrest, hlost⟩ :=
          ih (i + 1) (persisted ++ [p.toRow.id]) (nodup_append_toRow hids hcheck)
        refine ⟨[p.toRow] ++ new, lost, ?_, hlost.trans (not_congr ⟨.added hcheck hfault, ?_⟩)⟩
        · exact .cons [p.toRow] ⟨by simp, .inl rfl⟩ hrest
        · rintro (⟨-, h⟩ | ⟨-, -, hlater⟩ | ⟨h, -, -⟩)
          · simp [hfault] at h
          · exact hlater
          · simp [hcheck] at h
      · rw [createRows_cons_error hstep]
        refine ⟨[], [p.toRow], ⟨by simp, by simp, ?_, nofun⟩, iff_of_false (by simp) ?_⟩
        · simpa using nodup_append_toRow hids hcheck
        · exact not_not_intro (.here hcheck hfault)

/-! ## Undoing a batch -/

/-- Nothing refers to a row with a fresh id, and deleting it leaves the rest. -/
theorem deleteOutage_fresh {financial : List String} {row : OutageRow} {later : List OutageRow}
    (hfinancial : row.id ∉ financial) (hids : ((outages ++ row :: later).map OutageRow.id).Nodup) :
    deleteOutage financial row.id (outages ++ row :: later) = (.ok (), outages ++ later) := by
  have hid : row.id ∉ (outages ++ later).map OutageRow.id := by
    rw [List.map_append, List.map_cons, List.nodup_middle] at hids
    rw [List.map_append]
    exact (List.nodup_cons.mp hids).1
  have hrest : (outages ++ row :: later).filter (·.id ≠ row.id) = outages ++ later := by
    have hkeep : ∀ other ∈ outages ++ later, decide (other.id ≠ row.id) = true := by
      intro other hother
      exact decide_eq_true fun h => hid (h ▸ List.mem_map_of_mem hother)
    have hself := List.filter_eq_self.mpr hkeep
    rw [List.filter_append] at hself ⊢
    rw [List.filter_cons_of_neg (by simp), hself]
  unfold deleteOutage
  split
  · rename_i h
    have hrow := List.find?_eq_none.mp h row (by simp)
    simp at hrow
  · rw [if_neg hfinancial, hrest]

/-- The deletes remove the rows that were counted, and no others. -/
theorem compensate_counted {financial : List String} {new lost : List OutageRow}
    (hfinancial : financial ⊆ outages.map OutageRow.id)
    (hids : ((outages ++ new ++ lost).map OutageRow.id).Nodup) :
    compensate financial (new.map OutageRow.id) (outages ++ new ++ lost) = (.ok (), outages ++ lost) := by
  induction new with
  | nil => simp [compensate]
  | cons row new ih =>
      rw [List.append_assoc, List.cons_append] at hids ⊢
      have hnodup := hids
      rw [List.map_append, List.map_cons, List.nodup_middle, List.nodup_cons] at hnodup
      obtain ⟨hid, hrest⟩ := hnodup
      have hfresh : row.id ∉ financial := fun h => hid (List.mem_append_left _ (hfinancial h))
      rw [List.map_cons, compensate, deleteOutage_fresh hfresh hids, ← List.append_assoc]
      apply ih
      rwa [← List.map_append, ← List.append_assoc] at hrest

/-! ## The rows of the file -/

/-- The rows are those of the payloads. -/
def Valid (rows : List ρ) (ps : List OutageCreate) : Prop :=
  List.Forall₂ (fun row p => parser.outageCreate row = .ok p) rows ps

theorem parseRows_valid {rows : List ρ} (h : Valid parser rows ps) (i : ℕ) :
    ∃ results, parseRows parser i rows = .ok (results, ps) ∧ results.length = ps.length ∧
      ∀ result ∈ results, result.ok = true := by
  unfold Valid at h
  induction h generalizing i with
  | nil => exact ⟨[], rfl, rfl, by simp⟩
  | @cons row p rows ps hrow _ ih =>
      obtain ⟨results, hparse, hlength, hok⟩ := ih (i + 1)
      refine ⟨⟨i, some p.id, true, none, none, none, none, none⟩ :: results, ?_, ?_, ?_⟩
      · simp [parseRows, hrow, parser.rowId_of_valid row p hrow, hparse]
      · simpa using hlength
      · simpa using hok

variable {parser}

theorem rowFailed_eq_ok {row : ρ} {e : ApiError} {result : ImportRowResult}
    (h : rowFailed parser i row e = .ok result) : result.ok = false := by
  unfold rowFailed rowError at h
  split at h
  · split at h
    · cases h
    · rw [← Outcome.ok.inj h]
  · cases h

theorem valid_of_parseRows {rows : List ρ} {results : List ImportRowResult}
    (h : parseRows parser i rows = .ok (results, ps)) (hok : ∀ result ∈ results, result.ok = true) :
    Valid parser rows ps := by
  induction rows generalizing i results ps with
  | nil =>
      obtain ⟨rfl, rfl⟩ := Prod.mk.inj (Outcome.ok.inj h)
      exact .nil
  | cons row rows ih =>
      unfold parseRows at h
      dsimp only at h
      split at h
      · cases h
      rename_i result front hparsed
      split at h
      · cases h
      rename_i later ps' hlater
      obtain ⟨rfl, rfl⟩ := Prod.mk.inj (Outcome.ok.inj h)
      rw [List.forall_mem_cons] at hok
      have hrest := ih hlater hok.2
      split at hparsed
      · split at hparsed
        · cases hparsed
        · rename_i herror
          obtain ⟨rfl, rfl⟩ := Prod.mk.inj (Outcome.ok.inj hparsed)
          simp [rowFailed_eq_ok herror] at hok
      · rename_i hrow
        split at hparsed
        · cases hparsed
        · obtain ⟨rfl, rfl⟩ := Prod.mk.inj (Outcome.ok.inj hparsed)
          exact .cons hrow hrest

/-- The payloads of a file are determined by its rows. -/
theorem Valid.unique {rows : List ρ} {ps' : List OutageCreate} (h : Valid parser rows ps)
    (h' : Valid parser rows ps') : ps = ps' :=
  Relator.RightUnique.forall₂ (fun _ _ _ hp hp' => Outcome.ok.inj (hp.symm.trans hp')) h h'

/-! ## All or nothing -/

/-- The results of valid rows report what the loop created or found. -/
theorem reported_fill {rows : List ρ} {results : List ImportRowResult}
    {created : List (OutageRow × Bool)} (hrows : Valid parser rows ps) (hlength : results.length = ps.length)
    (hfound : List.Forall₂ (Found outages) ps created) :
    List.Forall₂ (fun row result => ∃ p, parser.outageCreate row = .ok p ∧ Reported outages result p)
      rows (List.zipWith ImportRowResult.fill results created) := by
  unfold Valid at hrows
  induction hrows generalizing results created with
  | nil =>
      obtain rfl := List.length_eq_zero_iff.mp hlength
      exact .nil
  | @cons row p rows ps hrow _ ih =>
      cases hfound with
      | @cons _ c _ created hhead htail =>
          obtain ⟨result, results, rfl⟩ := List.exists_cons_of_length_eq_add_one hlength
          rw [List.zipWith_cons_cons]
          refine .cons ⟨p, hrow, ?_⟩ (ih (by simpa using hlength) htail)
          obtain ⟨hmem, rfl | ⟨hfalse, hsame⟩⟩ := hhead
          · exact .inl ⟨by simp [ImportRowResult.fill], by simp [ImportRowResult.fill, OutageCreate.toRow], hmem⟩
          · exact .inr ⟨by simp [ImportRowResult.fill, hfalse], c.1, hmem,
              by simp [ImportRowResult.fill, hfalse], hsame⟩

@[simp] theorem ok_fill (result : ImportRowResult) (created : OutageRow × Bool) :
    (result.fill created).ok = result.ok := by
  unfold ImportRowResult.fill
  split
  · rfl
  · rfl

theorem fill_ok {results : List ImportRowResult} {created : List (OutageRow × Bool)}
    (hok : ∀ result ∈ results, result.ok = true) {result : ImportRowResult}
    (h : result ∈ List.zipWith ImportRowResult.fill results created) : result.ok = true := by
  rw [← List.map_uncurry_zip_eq_zipWith, List.mem_map] at h
  obtain ⟨⟨before, c⟩, hmem, rfl⟩ := h
  exact (ok_fill before c).trans (hok before (List.of_mem_zip hmem).1)

/-- The import succeeds for every row when all rows are valid and the loop runs to its end. -/
theorem importAtomic_succeeds_iff {db : DbFaults} {financial : List String} {rows : List ρ}
    {outages outages' : List OutageRow} :
    (∃ results, importAtomic parser db financial rows outages = (.ok results, outages') ∧
        ∀ result ∈ results, result.ok = true) ↔
      ∃ ps created persisted, Valid parser rows ps ∧
        createRows db 0 ps outages [] = (.ok created, outages', persisted) := by
  unfold importAtomic
  constructor
  · rintro ⟨results, h, hok⟩
    split at h
    · cases h
    rename_i parsed ps hparse
    split at h
    · rename_i hany
      obtain rfl := Outcome.ok.inj (Prod.mk.inj h).1
      obtain ⟨result, hresult, hfalse⟩ := List.any_eq_true.mp hany
      rw [hok result hresult] at hfalse
      cases hfalse
    · rename_i hany
      have hrows := valid_of_parseRows hparse (by simpa using hany)
      split at h
      · rename_i created _ persisted hloop
        rw [← (Prod.mk.inj h).2]
        exact ⟨ps, created, persisted, hrows, hloop⟩
      · split at h
        · cases (Prod.mk.inj h).1
        · cases (Prod.mk.inj h).1
  · rintro ⟨ps, created, persisted, hrows, hloop⟩
    obtain ⟨results, hparse, -, hok⟩ := parseRows_valid parser hrows 0
    have hany : ¬ results.any (!·.ok) = true := by simpa using hok
    rw [hparse]
    dsimp only
    rw [if_neg hany, hloop]
    exact ⟨_, rfl, fun result => fill_ok hok⟩

/-- A batch whose rows are all valid: what it leaves is the old table with the row it lost, if it fails. -/
theorem importAtomic_valid {rows : List ρ} (db : DbFaults) (store : Store) (hrows : Valid parser rows ps) :
    AllOrNothing parser rows store.outages (importAtomic parser db store.financial rows store.outages) ↔
      ¬ LosesCommit db.fault 0 ps store.outages := by
  obtain ⟨results, hparse, hlength, hok⟩ := parseRows_valid parser hrows 0
  obtain ⟨new, lost, hloop, hlost⟩ := createRows_extends db ps 0 [] store.primaryKey
  have hany : results.any (!·.ok) = false := by simpa using hok
  rw [← hlost]
  unfold importAtomic
  rw [hparse]
  dsimp only
  rw [if_neg (by simp [hany])]
  rcases hanswer : createRows db 0 ps store.outages [] with ⟨created | e, outages', persisted'⟩
  · rw [hanswer] at hloop
    obtain ⟨rfl, hfound⟩ := hloop.found created rfl
    have htable : outages' = store.outages ++ new := by simpa using hloop.table
    rw [← htable] at hfound
    refine iff_of_true ⟨nofun, ?_, ⟨new, htable.symm⟩, ?_⟩ rfl
    · rintro _ ⟨⟩ ⟨result, hresult, hfalse⟩
      rw [fill_ok hok hresult] at hfalse
      cases hfalse
    · rintro _ ⟨⟩ -
      exact reported_fill hrows hlength hfound
  · rw [hanswer] at hloop
    have htable : outages' = store.outages ++ new ++ lost := hloop.table
    have hcounted : persisted' = new.map OutageRow.id := hloop.counted
    subst htable hcounted
    dsimp only
    rw [compensate_counted store.foreignKey hloop.fresh]
    constructor
    · intro h
      simpa using h.failed _ rfl
    · rintro rfl
      rw [List.append_nil]
      exact ⟨fun _ _ => rfl, nofun, List.prefix_rfl, nofun⟩

/-- An atomic import fails without a trace, or brings in every row, exactly when no row of the file is
committed and then not read back. -/
theorem atomic_allOrNothing_iff (parser : RowParser ρ) (db : DbFaults) (store : Store) (rows : List ρ) :
    AllOrNothing parser rows store.outages
        (importOutages parser db store.financial false .atomic rows store.outages) ↔
      ∀ ps, Valid parser rows ps → ¬ LosesCommit db.fault 0 ps store.outages := by
  change AllOrNothing parser rows store.outages (importAtomic parser db store.financial rows store.outages) ↔ _
  by_cases hvalid : ∃ ps, Valid parser rows ps
  · obtain ⟨ps, hrows⟩ := hvalid
    rw [importAtomic_valid db store hrows]
    constructor
    · rintro h ps' hrows' hlost
      rw [hrows'.unique hrows] at hlost
      exact h hlost
    · intro h
      exact h ps hrows
  -- a row that is not valid ends the import before the table is touched
  · refine iff_of_true ?_ fun ps hrows => absurd ⟨ps, hrows⟩ hvalid
    unfold importAtomic
    rcases hparse : parseRows parser 0 rows with ⟨results, ps⟩ | e
    · have hany : results.any (!·.ok) = true := by
        rw [List.any_eq_true]
        by_contra hall
        push Not at hall
        exact hvalid ⟨ps, valid_of_parseRows hparse (by simpa using hall)⟩
      dsimp only
      rw [if_pos hany]
      refine ⟨nofun, fun _ _ _ => rfl, List.prefix_rfl, ?_⟩
      rintro _ ⟨⟩ hok
      obtain ⟨result, hresult, hfalse⟩ := List.any_eq_true.mp hany
      rw [hok result hresult] at hfalse
      cases hfalse
    · exact ⟨fun _ _ => rfl, nofun, List.prefix_rfl, nofun⟩

/-- The connection is lost after the only row was committed: the request fails, and the row stays. -/
theorem committed_row_survives :
    ¬ AllOrNothing payloadParser [fiberCut] []
      (importOutages payloadParser ⟨fun _ => some .refresh, false⟩ [] false .atomic [fiberCut] []) := by
  intro h
  have hleft := h.failed _ rfl
  cases hleft

end ApexChainx.Import
