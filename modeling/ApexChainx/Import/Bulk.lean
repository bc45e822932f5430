import ApexChainx.Import.Lifecycle

/-!
# Creating outages in bulk

`bulk_create_outages` (`app/api/v1/endpoints/outages.py`) commits its payloads one by one and undoes nothing, so
that an error is without effect only if it comes before the first new payload. A single `create_or_get_existing`
finds again what it has added. What it has found by site, time and description it finds again if no other row
matches: `.first()` is asked for no order, so that two calls may go over the same table in different orders.
-/

namespace ApexChainx.Import

variable {outages : List OutageRow} {p : OutageCreate} {ps : List OutageCreate}

/-! ## Creating an outage twice -/

/-- A row is the same outage as the payload it was made from. -/
theorem isSameOutage_toRow (p : OutageCreate) : isSameOutage p.toRow p = true := by
  simp [isSameOutage, OutageCreate.toRow]

/-- A new payload is found by its id once it has been added. -/
theorem checkDuplicate_added (hnew : checkDuplicate outages p = .ok none) :
    checkDuplicate (outages ++ [p.toRow]) p = .ok (some p.toRow) := by
  obtain ⟨hid, -, hsendable⟩ := checkDuplicate_eq_none.mp hnew
  have hadded : (outages ++ [p.toRow]).find? (·.id = p.id) = some p.toRow := by
    rw [List.find?_append, find?_id_eq_none.mpr hid, Option.none_or, List.find?_cons_of_pos]
    exact decide_eq_true (id_toRow p)
  rw [checkDuplicate_of_sendable hsendable, hadded]
  dsimp only
  rw [if_pos (isSameOutage_toRow p)]

/-- The rows a call leaves are those before it, and a new one at most if no row had its id. -/
theorem createOrGetExisting_table (fault : Option Fault) (p : OutageCreate) (outages : List OutageRow) :
    (createOrGetExisting fault p outages).2 = outages ∨
      p.id ∉ outages.map OutageRow.id ∧ (createOrGetExisting fault p outages).2 = outages ++ [p.toRow] := by
  obtain ⟨e, hstep, -⟩ | ⟨existing, hstep, -, -⟩ | ⟨hstep, hcheck, -⟩ | ⟨hstep, hcheck, -⟩ :=
    createOrGetExisting_cases fault p outages
  · exact .inl (by rw [hstep])
  · exact .inl (by rw [hstep])
  · exact .inr ⟨(checkDuplicate_eq_none.mp hcheck).1, by rw [hstep]⟩
  · exact .inr ⟨(checkDuplicate_eq_none.mp hcheck).1, by rw [hstep]⟩

/-- A second call returns the outage that the first has returned, in whatever order the two go over the table, and
the stored rows stay as they are. -/
structure Idempotent (fault : Option Fault) (p : OutageCreate) (table : List OutageRow) : Prop where
  again : ∀ scan, scan.Perm table → ∀ o added table',
    createOrGetExisting fault p scan = (.ok (o, added), table') → ∀ scan', scan'.Perm table' →
      ∃ o', createOrGetExisting none p scan' = (.ok (o', false), scan') ∧ o'.id = o.id
  kept : ∀ scan, scan.Perm table → ∃ new, (createOrGetExisting fault p scan).2 = scan ++ new ∧
    ∀ row ∈ new, row.id = p.id ∧ p.id ∉ table.map OutageRow.id

/-- A match that is taken for the outage is the only match. -/
def OneMatch (p : OutageCreate) (table : List OutageRow) : Prop :=
  ∀ row ∈ table, matchesTuple row p = true → agrees row p = true →
    ∀ other ∈ table, matchesTuple other p = true → other = row

variable {scan scan' table : List OutageRow}

theorem find?_eq_of_unique {α : Type*} {found : α → Bool} {as : List α} {a : α} (ha : a ∈ as)
    (hfound : found a = true) (hunique : ∀ b ∈ as, found b = true → b = a) : as.find? found = some a := by
  cases hfind : as.find? found with
  | none => exact absurd hfound (List.find?_eq_none.mp hfind a ha)
  | some b => rw [hunique b (List.mem_of_find?_eq_some hfind) (List.find?_some hfind)]

/-- A row with the id of the payload is found in every order. -/
theorem checkDuplicate_of_id (hperm : scan'.Perm scan) (hids : (scan.map OutageRow.id).Nodup)
    (hid : p.id ∈ scan.map OutageRow.id) : checkDuplicate scan' p = checkDuplicate scan p := by
  obtain ⟨row, hrow, hrowid⟩ := List.mem_map.mp hid
  have hunique : ∀ other ∈ scan, decide (other.id = p.id) = true → other = row := by
    intro other hother hsame
    exact List.inj_on_of_nodup_map hids hother hrow ((of_decide_eq_true hsame).trans hrowid.symm)
  unfold checkDuplicate
  rw [find?_eq_of_unique hrow (decide_eq_true hrowid) hunique,
    find?_eq_of_unique (hperm.mem_iff.mpr hrow) (decide_eq_true hrowid) fun other hother =>
      hunique other (hperm.mem_iff.mp hother)]

/-- Without such a row the first match decides. -/
theorem checkDuplicate_of_match {row : OutageRow} (hsendable : Sendable p.texts)
    (hid : p.id ∉ scan.map OutageRow.id) (hfind : scan.find? (matchesTuple · p) = some row) :
    checkDuplicate scan p =
      if agrees row p then .ok (some row)
      else .error (.valueError ("Outage matching site '" ++ p.siteName ++ "' at '" ++ p.detectedAt.str
        ++ "' already exists with different content")) := by
  rw [checkDuplicate_of_sendable hsendable, find?_id_eq_none.mpr hid, hfind]

/-- What one call finds the next one finds, by its id or as the only match. -/
theorem checkDuplicate_again {row : OutageRow} (hperm : scan'.Perm scan) (hids : (scan.map OutageRow.id).Nodup)
    (hfound : checkDuplicate scan p = .ok (some row))
    (hone : Sendable p.texts → p.id ∉ scan.map OutageRow.id → OneMatch p scan) :
    checkDuplicate scan' p = .ok (some row) := by
  by_cases hid : p.id ∈ scan.map OutageRow.id
  · rw [checkDuplicate_of_id hperm hids hid, hfound]
  have hother : ∀ other ∈ scan, isSameOutage other p = false := by
    intro other hmem
    by_contra hsame
    obtain ⟨hotherid, -⟩ := of_decide_eq_true (Bool.of_not_eq_false hsame)
    exact hid (hotherid ▸ List.mem_map_of_mem hmem)
  have hsendable : Sendable p.texts := by
    by_contra hnul
    obtain ⟨text, herror⟩ := checkDuplicate_of_not_sendable hnul hother
    rw [hfound] at herror
    cases herror
  obtain ⟨hmem, hsame | ⟨hmatch, hagrees⟩⟩ := checkDuplicate_eq_some hfound
  · rw [hother row hmem] at hsame
    cases hsame
  · have hunique := hone hsendable hid row hmem hmatch hagrees
    have hfind : scan'.find? (matchesTuple · p) = some row :=
      find?_eq_of_unique (hperm.mem_iff.mpr hmem) hmatch fun other hmem' => hunique other (hperm.mem_iff.mp hmem')
    have hid' : p.id ∉ scan'.map OutageRow.id := by rwa [(hperm.map OutageRow.id).mem_iff]
    rw [checkDuplicate_of_match hsendable hid' hfind, if_pos hagrees]

/-- Two matches, one of which is taken for the outage: a call that meets it first returns it, and the next one
does not if it meets the other first. -/
theorem not_idempotent_of_two_matches {fault : Option Fault} (row other : OutageRow)
    (hids : (table.map OutageRow.id).Nodup) (hfault : fault ≠ some .lookup) (hsendable : Sendable p.texts)
    (hid : p.id ∉ table.map OutageRow.id) (hrow : row ∈ table) (hmatch : matchesTuple row p = true)
    (hagrees : agrees row p = true) (hother : other ∈ table) (hmatch' : matchesTuple other p = true)
    (hne : other ≠ row) : ¬ Idempotent fault p table := by
  intro h
  have hfirst : ∀ {first}, first ∈ table → matchesTuple first p = true →
      checkDuplicate (first :: table.erase first) p = if agrees first p then .ok (some first)
        else .error (.valueError ("Outage matching site '" ++ p.siteName ++ "' at '" ++ p.detectedAt.str
          ++ "' already exists with different content")) := by
    intro first hmem hfirst
    refine checkDuplicate_of_match hsendable ?_ (List.find?_cons_of_pos hfirst)
    rwa [← ((List.perm_cons_erase hmem).map OutageRow.id).mem_iff]
  have hcall : createOrGetExisting fault p (row :: table.erase row) =
      (.ok (row, false), row :: table.erase row) := by
    rw [createOrGetExisting, if_neg hfault, hfirst hrow hmatch, if_pos hagrees]
  obtain ⟨o', hagain, ho'⟩ := h.again _ (List.perm_cons_erase hrow).symm row false _ hcall (other :: table.erase other)
    ((List.perm_cons_erase hother).symm.trans (List.perm_cons_erase hrow))
  rw [createOrGetExisting_noFault, hfirst hother hmatch'] at hagain
  by_cases hsame : agrees other p = true
  · rw [if_pos hsame] at hagain
    cases hagain
    exact hne (List.inj_on_of_nodup_map hids hother hrow ho')
  · rw [if_neg hsame] at hagain
    cases hagain

/-- `create_or_get_existing` is idempotent exactly when it fails at the lookup, when it finds the payload by its id,
or when no second row matches beside the one that is taken for it. -/
theorem createOrGetExisting_idempotent_iff (fault : Option Fault) (p : OutageCreate) (store : Store) :
    Idempotent fault p store.outages ↔
      fault = some .lookup ∨ ¬ Sendable p.texts ∨ p.id ∈ store.outages.map OutageRow.id ∨
        OneMatch p store.outages := by
  constructor
  · intro h
    by_contra hnone
    push Not at hnone
    obtain ⟨hfault, hsendable, hid, htwo⟩ := hnone
    unfold OneMatch at htwo
    push Not at htwo
    obtain ⟨row, hrow, hmatch, hagrees, other, hother, hmatch', hne⟩ := htwo
    exact not_idempotent_of_two_matches row other store.primaryKey hfault hsendable hid hrow hmatch hagrees hother
      hmatch' hne h
  · intro hone
    constructor
    · intro scan hscan o added table' hcall scan' hscan'
      have hids : (scan.map OutageRow.id).Nodup := (hscan.map OutageRow.id).nodup_iff.mpr store.primaryKey
      suffices hfound : checkDuplicate scan' p = .ok (some o) by
        exact ⟨o, by rw [createOrGetExisting_noFault, hfound], rfl⟩
      obtain ⟨e, hstep, -⟩ | ⟨existing, hstep, hcheck, hfault⟩ | ⟨hstep, hcheck, -⟩ | ⟨hstep, -, -⟩ :=
        createOrGetExisting_cases fault p scan
      all_goals
        rw [hstep] at hcall
        cases hcall
      · refine checkDuplicate_again hscan' hids hcheck fun hsendable hid => ?_
        rw [(hscan.map OutageRow.id).mem_iff] at hid
        obtain hlookup | hnul | hstored | hone := hone
        · exact absurd hlookup hfault
        · exact absurd hsendable hnul
        · exact absurd hstored hid
        · intro row hrow hmatch hagrees other hother
          exact hone row (hscan.mem_iff.mp hrow) hmatch hagrees other (hscan.mem_iff.mp hother)
      · rw [checkDuplicate_of_id hscan' (nodup_append_toRow hids hcheck) (by simp), checkDuplicate_added hcheck]
    · intro scan hscan
      obtain htable | ⟨hid, htable⟩ := createOrGetExisting_table fault p scan
      · exact ⟨[], by rw [htable, List.append_nil], by simp⟩
      · refine ⟨[p.toRow], htable, ?_⟩
        intro row hrow
        rw [List.mem_singleton.mp hrow, ← (hscan.map OutageRow.id).mem_iff]
        exact ⟨rfl, hid⟩

/-- Two sectors of a site with one outage each. A third report of it, without a sector, is answered with either. -/
theorem sectors_not_idempotent :
    (bulkCreate (fun _ => none) 0
        [{ fiberCut with siteId := some "north" }, { fiberCut with id := "OUT002", siteId := some "south" }] []).2 =
      [{ fiberCut.toRow with siteId := some "north" }, { fiberCut.toRow with id := "OUT002", siteId := some "south" }] ∧
    ¬ Idempotent none { fiberCut with id := "OUT003" }
      [{ fiberCut.toRow with siteId := some "north" },
        { fiberCut.toRow with id := "OUT002", siteId := some "south" }] :=
  ⟨by decide, not_idempotent_of_two_matches { fiberCut.toRow with siteId := some "north" }
    { fiberCut.toRow with id := "OUT002", siteId := some "south" } (by decide) nofun (by decide) (by decide)
    (by simp) (by decide) (by decide) (by simp) (by decide) (by decide)⟩

/-! ## The bulk request -/

/-- The answer of `bulk_create_outages`. -/
structure BulkResponse where
  count : ℕ
  persisted : ℕ
  items : List OutageRow
deriving DecidableEq, Repr

def bulkResponse (created : List (OutageRow × Bool)) : BulkResponse :=
  ⟨created.length, created.countP Prod.snd, created.map Prod.fst⟩

/-- `bulk_create_outages`: a conflict is answered with 400, other errors are not caught. -/
def bulkCreateOutages (fault : ℕ → Option Fault) (ps : List OutageCreate) (outages : List OutageRow) :
    Outcome BulkResponse × List OutageRow :=
  match bulkCreate fault 0 ps outages with
  | (.error (.valueError detail), outages') => (.error (.http 400 detail), outages')
  | (.error e, outages') => (.error e, outages')
  | (.ok created, outages') => (.ok (bulkResponse created), outages')

/-- A request that fails leaves the table as it was; one that succeeds counts its payloads and the rows it
added, and answers with the outage of each payload. -/
structure AtomicBulk (ps : List OutageCreate) (outages : List OutageRow)
    (answer : Outcome BulkResponse × List OutageRow) : Prop where
  failed : ∀ e, answer.1 = .error e → answer.2 = outages
  counts : ∀ response, answer.1 = .ok response →
    response.count = ps.length ∧ ∃ new, answer.2 = outages ++ new ∧ response.persisted = new.length
  aligned : ∀ response, answer.1 = .ok response →
    List.Forall₂ (fun p item => ∃ added, Found answer.2 p (item, added)) ps response.items

/-- The request ends at a payload that conflicts when its turn comes, or at an error of the database. -/
inductive Fails (fault : ℕ → Option Fault) : ℕ → List OutageCreate → List OutageRow → Prop
  | lookup {i p ps outages} : fault i = some .lookup → Fails fault i (p :: ps) outages
  | conflict {i p ps outages e} : checkDuplicate outages p = .error e → Fails fault i (p :: ps) outages
  | commit {i p ps outages} : checkDuplicate outages p = .ok none → fault i ≠ none → Fails fault i (p :: ps) outages
  | added {i p ps outages} : checkDuplicate outages p = .ok none → fault i = none →
      Fails fault (i + 1) ps (outages ++ [p.toRow]) → Fails fault i (p :: ps) outages
  | duplicate {i p ps outages existing} : checkDuplicate outages p = .ok (some existing) →
      fault i ≠ some .lookup → Fails fault (i + 1) ps outages → Fails fault i (p :: ps) outages

/-- The request ends behind a new payload that it has committed, or at one that it cannot read back. The
payloads before that one were found. -/
inductive Strands (fault : ℕ → Option Fault) : ℕ → List OutageCreate → List OutageRow → Prop
  | lost {i p ps outages} : checkDuplicate outages p = .ok none → fault i = some .refresh →
      Strands fault i (p :: ps) outages
  | added {i p ps outages} : checkDuplicate outages p = .ok none → fault i = none →
      Fails fault (i + 1) ps (outages ++ [p.toRow]) → Strands fault i (p :: ps) outages
  | duplicate {i p ps outages existing} : checkDuplicate outages p = .ok (some existing) →
      fault i ≠ some .lookup → Strands fault (i + 1) ps outages → Strands fault i (p :: ps) outages

/-! ## A batch -/

/-- What a batch has done: it has added the rows `new`, and if it returned, it has found or added an outage for
every payload. -/
structure BulkRun (outages : List OutageRow) (ps : List OutageCreate)
    (answer : Outcome (List (OutageRow × Bool)) × List OutageRow) (new : List OutageRow) : Prop where
  table : answer.2 = outages ++ new
  found : ∀ created, answer.1 = .ok created → List.Forall₂ (Found (outages ++ new)) ps created
  counted : ∀ created, answer.1 = .ok created → created.countP Prod.snd = new.length

variable {fault : ℕ → Option Fault} {i : ℕ}

/-- The outage of the payload in front, before those of the payloads behind it. -/
def consBulk (created : OutageRow × Bool) :
    Outcome (List (OutageRow × Bool)) × List OutageRow → Outcome (List (OutageRow × Bool)) × List OutageRow
  | (.error e, outages) => (.error e, outages)
  | (.ok rest, outages) => (.ok (created :: rest), outages)

theorem bulkCreate_cons {created : OutageRow × Bool} {outages' : List OutageRow}
    (h : createOrGetExisting (fault i) p outages = (.ok created, outages')) :
    bulkCreate fault i (p :: ps) outages = consBulk created (bulkCreate fault (i + 1) ps outages') := by
  rw [bulkCreate, h]
  rfl

theorem bulkCreate_cons_error {e : ApiError} {outages' : List OutageRow}
    (h : createOrGetExisting (fault i) p outages = (.error e, outages')) :
    bulkCreate fault i (p :: ps) outages = (.error e, outages') := by
  rw [bulkCreate, h]

theorem consBulk_eq_error {created : OutageRow × Bool} {answer} :
    (∃ e, (consBulk created answer).1 = .error e) ↔ ∃ e, answer.1 = .error e := by
  obtain ⟨result, outages'⟩ := answer
  cases result with
  | error e => exact Iff.rfl
  | ok rest => exact iff_of_false nofun nofun

/-- The payload in front was added, as the row `front`, or found, and `front` is empty. -/
theorem BulkRun.cons {created : OutageRow × Bool} {answer} (front : List OutageRow) {new : List OutageRow}
    (hfound : Found (outages ++ front) p created) (hfront : front.length = if created.2 then 1 else 0)
    (h : BulkRun (outages ++ front) ps answer new) :
    BulkRun outages (p :: ps) (consBulk created answer) (front ++ new) := by
  obtain ⟨result, outages'⟩ := answer
  have htable : outages' = outages ++ (front ++ new) := by simpa using h.table
  cases result with
  | error e => exact ⟨htable, nofun, nofun⟩
  | ok rest =>
      refine ⟨htable, ?_, ?_⟩
      · rintro _ ⟨⟩
        rw [← List.append_assoc]
        exact .cons (hfound.mono (List.subset_append_left _ _)) (h.found rest rfl)
      · rintro _ ⟨⟩
        rw [List.countP_cons, h.counted rest rfl, List.length_append, hfront, Nat.add_comm]

/-- A batch that ends at its first payload. -/
theorem BulkRun.stopped {e : ApiError} {answer : List OutageRow} {new : List OutageRow}
    (h : answer = outages ++ new) : BulkRun outages ps (.error e, answer) new :=
  ⟨h, nofun, nofun⟩

/-! The payload in front decides what is left of the two conditions. -/

section

variable {existing : OutageRow}

theorem fails_of_duplicate (hcheck : checkDuplicate outages p = .ok (some existing))
    (hfault : fault i ≠ some .lookup) : Fails fault i (p :: ps) outages ↔ Fails fault (i + 1) ps outages := by
  refine ⟨?_, .duplicate hcheck hfault⟩
  rintro (h | h | ⟨h, -⟩ | ⟨h, -, -⟩ | ⟨-, -, hlater⟩)
  · exact absurd h hfault
  · simp [hcheck] at h
  · simp [hcheck] at h
  · simp [hcheck] at h
  · exact hlater

theorem fails_of_added (hcheck : checkDuplicate outages p = .ok none) (hfault : fault i = none) :
    Fails fault i (p :: ps) outages ↔ Fails fault (i + 1) ps (outages ++ [p.toRow]) := by
  refine ⟨?_, .added hcheck hfault⟩
  rintro (h | h | ⟨-, h⟩ | ⟨-, -, hlater⟩ | ⟨h, -, -⟩)
  · simp [hfault] at h
  · simp [hcheck] at h
  · exact absurd hfault h
  · exact hlater
  · simp [hcheck] at h

theorem strands_of_duplicate (hcheck : checkDuplicate outages p = .ok (some existing))
    (hfault : fault i ≠ some .lookup) : Strands fault i (p :: ps) outages ↔ Strands fault (i + 1) ps outages := by
  refine ⟨?_, .duplicate hcheck hfault⟩
  rintro (⟨h, -⟩ | ⟨h, -, -⟩ | ⟨-, -, hlater⟩)
  · simp [hcheck] at h
  · simp [hcheck] at h
  · exact hlater

theorem strands_of_added (hcheck : checkDuplicate outages p = .ok none) (hfault : fault i = none) :
    Strands fault i (p :: ps) outages ↔ Fails fault (i + 1) ps (outages ++ [p.toRow]) := by
  refine ⟨?_, .added hcheck hfault⟩
  rintro (⟨-, h⟩ | ⟨-, -, hlater⟩ | ⟨h, -, -⟩)
  · simp [hfault] at h
  · exact hlater
  · simp [hcheck] at h

/-- An error that leaves the table as it was: a lookup or a commit that fails, or a conflict. -/
theorem fails_not_strands (ps : List OutageCreate) {e : ApiError} (h : fault i = some .lookup ∨
      fault i = some .commit ∧ checkDuplicate outages p = .ok none ∨ checkDuplicate outages p = .error e) :
    Fails fault i (p :: ps) outages ∧ ¬ Strands fault i (p :: ps) outages := by
  constructor
  · obtain hlookup | ⟨hcommit, hnew⟩ | hconflict := h
    · exact .lookup hlookup
    · exact .commit hnew (by simp [hcommit])
    · exact .conflict hconflict
  · rintro (⟨hnew, hrefresh⟩ | ⟨hnew, hnone, -⟩ | ⟨hfound, hlookup, -⟩)
    · simp [hnew, hrefresh] at h
    · simp [hnew, hnone] at h
    · simp [hfound, hlookup] at h

end

/-- The batch adds rows; it ends in an error where it fails, and has added some by then where it strands
them. -/
theorem bulkCreate_run (fault : ℕ → Option Fault) (ps : List OutageCreate) (i : ℕ) (outages : List OutageRow) :
    ∃ new, BulkRun outages ps (bulkCreate fault i ps outages) new ∧
      ((∃ e, (bulkCreate fault i ps outages).1 = .error e) ↔ Fails fault i ps outages) ∧
      (Strands fault i ps outages ↔ Fails fault i ps outages ∧ new ≠ []) := by
  induction ps generalizing i outages with
  | nil =>
      refine ⟨[], ⟨by simp [bulkCreate], ?_, ?_⟩, iff_of_false nofun nofun, iff_of_false nofun nofun⟩
      · rintro _ ⟨⟩
        exact .nil
      · rintro _ ⟨⟩
        rfl
  | cons p ps ih =>
      obtain ⟨e, hstep, hstop⟩ | ⟨existing, hstep, hcheck, hfault⟩ | ⟨hstep, hcheck, hfault⟩ |
        ⟨hstep, hcheck, hfault⟩ := createOrGetExisting_cases (fault i) p outages
      · -- the payload is refused, and nothing was added for it
        obtain ⟨hfails, hstrands⟩ := fails_not_strands ps hstop
        rw [bulkCreate_cons_error hstep]
        exact ⟨[], .stopped (by simp), iff_of_true ⟨e, rfl⟩ hfails, iff_of_false hstrands (by simp)⟩
      · -- it is found: the rest goes on from the same table
        obtain ⟨hmem, hsame⟩ := checkDuplicate_eq_some hcheck
        obtain ⟨new, hrun, hfails, hstrands⟩ := ih (i + 1) outages
        have hfound : Found (outages ++ []) p (existing, false) := by simpa [Found] using ⟨hmem, hsame⟩
        rw [bulkCreate_cons hstep, consBulk_eq_error, fails_of_duplicate hcheck hfault,
          strands_of_duplicate hcheck hfault]
        exact ⟨new, .cons [] hfound rfl (by simpa using hrun), hfails, hstrands⟩
      · -- it is added: from here on any error strands it
        obtain ⟨new, hrun, hfails, -⟩ := ih (i + 1) (outages ++ [p.toRow])
        rw [bulkCreate_cons hstep, consBulk_eq_error, fails_of_added hcheck hfault, strands_of_added hcheck hfault]
        exact ⟨[p.toRow] ++ new, .cons [p.toRow] ⟨by simp, .inl rfl⟩ rfl hrun, hfails, by simp⟩
      · -- it is committed and cannot be read back
        rw [bulkCreate_cons_error hstep]
        have hfails : Fails fault i (p :: ps) outages := .commit hcheck (by simp [hfault])
        exact ⟨[p.toRow], .stopped rfl, iff_of_true ⟨_, rfl⟩ hfails,
          iff_of_true (.lost hcheck hfault) ⟨hfails, by simp⟩⟩

/-- The request passes an error of the batch on, in its own words, and does nothing else to the table. -/
theorem bulkCreateOutages_of_error {e : ApiError} (h : (bulkCreate fault 0 ps outages).1 = .error e) :
    ∃ e', bulkCreateOutages fault ps outages = (.error e', (bulkCreate fault 0 ps outages).2) := by
  unfold bulkCreateOutages
  rcases hrun : bulkCreate fault 0 ps outages with ⟨created | e', outages'⟩
  · rw [hrun] at h
    cases h
  · cases e' with
    | valueError detail => exact ⟨.http 400 detail, rfl⟩
    | _ => exact ⟨_, rfl⟩

theorem bulkCreateOutages_of_ok {created : List (OutageRow × Bool)}
    (h : (bulkCreate fault 0 ps outages).1 = .ok created) :
    bulkCreateOutages fault ps outages = (.ok (bulkResponse created), (bulkCreate fault 0 ps outages).2) := by
  unfold bulkCreateOutages
  rcases hrun : bulkCreate fault 0 ps outages with ⟨created' | e, outages'⟩
  · rw [hrun] at h
    obtain rfl := Outcome.ok.inj h
    rfl
  · rw [hrun] at h
    cases h

/-- The items of a response are the outages of the payloads. -/
theorem aligned_of_found {created : List (OutageRow × Bool)} (h : List.Forall₂ (Found outages) ps created) :
    List.Forall₂ (fun p item => ∃ added, Found outages p (item, added)) ps (created.map Prod.fst) := by
  rw [List.forall₂_map_right_iff]
  exact h.imp fun _ row hrow => ⟨row.2, hrow⟩

/-- The bulk request is atomic exactly when it does not end behind a payload that it has committed. -/
theorem bulkCreateOutages_atomic_iff (fault : ℕ → Option Fault) (ps : List OutageCreate)
    (outages : List OutageRow) :
    AtomicBulk ps outages (bulkCreateOutages fault ps outages) ↔ ¬ Strands fault 0 ps outages := by
  obtain ⟨new, hrun, hfails, hstrands⟩ := bulkCreate_run fault ps 0 outages
  rw [hstrands, ← hfails]
  cases hresult : (bulkCreate fault 0 ps outages).1 with
  | error e =>
      obtain ⟨e', hanswer⟩ := bulkCreateOutages_of_error hresult
      rw [hanswer, hrun.table]
      have hnew : outages ++ new = outages ↔ new = [] := by simp
      constructor
      · rintro h ⟨-, hne⟩
        exact hne (hnew.mp (h.failed e' rfl))
      · intro h
        refine ⟨fun _ _ => hnew.mpr ?_, nofun, nofun⟩
        by_contra hne
        exact h ⟨⟨e, rfl⟩, hne⟩
  | ok created =>
      rw [bulkCreateOutages_of_ok hresult, hrun.table]
      refine iff_of_true ⟨nofun, ?_, ?_⟩ (by simp)
      · rintro _ ⟨⟩
        exact ⟨(hrun.found created hresult).length_eq.symm, new, rfl, hrun.counted created hresult⟩
      · rintro _ ⟨⟩
        exact aligned_of_found (hrun.found created hresult)

/-- The second outage has the id of the first and another severity: the request is refused, and the first outage
is there. -/
theorem conflict_behind_new_outage :
    ¬ AtomicBulk [fiberCut, { fiberCut with severity := .high }] []
      (bulkCreateOutages (fun _ => none) [fiberCut, { fiberCut with severity := .high }] []) := by
  intro h
  have hanswer : bulkCreateOutages (fun _ => none) [fiberCut, { fiberCut with severity := .high }] [] =
      (.error (.http 400 "Outage with id 'OUT001' already exists with different content"), [fiberCut.toRow]) := by
    decide
  have hkept := h.failed (.http 400 "Outage with id 'OUT001' already exists with different content")
  rw [hanswer] at hkept
  cases hkept rfl

end ApexChainx.Import
