import ApexChainx.Import.Endpoint

/-!
# The dry run against the live import

The dry run checks every row against the table as it is; the live import checks a row against the table
with the rows before it. Row by row both compute the same outcome of a table, so that they can only part
where a row of the file changes what a later row finds.
-/

namespace ApexChainx.Import

variable {ρ : Type*} (parser : RowParser ρ)

/-- The status and the duplicate flag of every row, if there is a response. -/
def outcomes : Outcome (List ImportRowResult) → Outcome (List (Bool × Option Bool))
  | .error e => .error e
  | .ok results => .ok (results.map fun result => (result.ok, result.duplicate))

/-- The dry run reports what the live import reports, and it does not write. -/
def DryRunAgrees (financial : List String) (consistency : ImportConsistency) (rows : List ρ)
    (outages : List OutageRow) : Prop :=
  outcomes (importOutages parser noFaults financial true consistency rows outages).1 =
      outcomes (importOutages parser noFaults financial false .partial_ rows outages).1 ∧
    (importOutages parser noFaults financial true consistency rows outages).2 = outages

/-- The row can neither be parsed nor be reported, since the exception is not caught or the row cannot be named
in a row result: the request ends there. -/
def Raises (row : ρ) : Prop :=
  ∃ e, parser.outageCreate row = .error e ∧ (isRowError e = false ∨ ∃ e', parser.rowId row = .error e')

/-- The new outage `p` changes what is found for a later `q`: it takes the id of a `q` that has no conflict
yet, or it matches a `q` that would be new. -/
def Clash (outages : List OutageRow) (p q : OutageCreate) : Prop :=
  checkDuplicate outages p = .ok none ∧
    (q.id = p.id ∧ (∃ found, checkDuplicate outages q = .ok found) ∨
      checkDuplicate outages q = .ok none ∧ matchesTuple p.toRow q = true)

/-! ## What a row finds in the table extended by the rows before it -/

/-- The status and the duplicate flag that follow from `check_duplicate`. -/
def verdict : Outcome (Option OutageRow) → Bool × Option Bool
  | .error _ => (false, none)
  | .ok (some _) => (true, some true)
  | .ok none => (true, some false)

/-- The rows of the outages that are new to the table. -/
def newRows (outages : List OutageRow) (ps : List OutageCreate) : List OutageRow :=
  (ps.filter fun p => checkDuplicate outages p = .ok none).map OutageCreate.toRow

variable {outages : List OutageRow} {p q : OutageCreate} {ps : List OutageCreate}

theorem mem_newRows {row : OutageRow} : row ∈ newRows outages ps ↔
    ∃ p ∈ ps, checkDuplicate outages p = .ok none ∧ p.toRow = row := by
  simp [newRows, and_assoc]

/-- An outage with the same content as a new one is new. -/
theorem new_of_isSameOutage (hnew : checkDuplicate outages p = .ok none)
    (hsame : isSameOutage p.toRow q = true) : checkDuplicate outages q = .ok none := by
  rw [checkDuplicate_eq_none] at hnew ⊢
  obtain ⟨hid, hmatch, hsendable⟩ := hnew
  obtain ⟨hqid, hsite, hsiteId, -, -, htime, hdescription, -⟩ := of_decide_eq_true hsame
  have hqid : p.id = q.id := hqid
  have htexts : q.texts = p.texts := by
    unfold OutageCreate.texts
    rw [← hqid, ← hsite, ← hsiteId, ← hdescription]
    rfl
  refine ⟨hqid ▸ hid, ?_, htexts ▸ hsendable⟩
  intro row hrow
  have hfree := hmatch row hrow
  have hmatches : matchesTuple row q = matchesTuple row p := by
    unfold matchesTuple
    rw [← hsite, ← hsiteId, ← htime, ← hdescription]
    rfl
  rw [hmatches, hfree]

/-- When the table does not have the id of `q`, but a new row has. -/
theorem verdict_newRows_id {row : OutageRow} (hsendable : Sendable q.texts)
    (hid : outages.find? (·.id = q.id) = none)
    (hrow : (newRows outages ps).find? (·.id = q.id) = some row) :
    verdict (checkDuplicate (outages ++ newRows outages ps) q) = verdict (checkDuplicate outages q) ↔
      ∀ p ∈ ps, ¬ Clash outages p q := by
  have hlive : checkDuplicate (outages ++ newRows outages ps) q =
      if isSameOutage row q then .ok (some row)
      else .error (.valueError ("Outage with id '" ++ q.id ++ "' already exists with different content")) := by
    rw [checkDuplicate_of_sendable hsendable, List.find?_append, hid, Option.none_or, hrow]
  have hqid : row.id = q.id := by simpa using List.find?_some hrow
  obtain ⟨p, hp, hnew, rfl⟩ := mem_newRows.mp (List.mem_of_find?_eq_some hrow)
  have hsame : isSameOutage p.toRow q = true → checkDuplicate outages q = .ok none := new_of_isSameOutage hnew
  rw [hlive]
  rcases hq : checkDuplicate outages q with found | e
  · have hclash : Clash outages p q := ⟨hnew, .inl ⟨hqid.symm, found, hq⟩⟩
    refine iff_of_false ?_ fun h => h p hp hclash
    split
    · rename_i h
      obtain rfl := Outcome.ok.inj (hq.symm.trans (hsame h))
      simp [verdict]
    · cases found with
      | none => simp [verdict]
      | some _ => simp [verdict]
  · refine iff_of_true ?_ ?_
    · rw [if_neg]
      · rfl
      · intro h
        rw [hsame h] at hq
        cases hq
    · rintro p' - ⟨-, ⟨-, found, h⟩ | ⟨h, -⟩⟩
      all_goals
        rw [h] at hq
        cases hq

/-- When neither the table nor a new row has the id of `q`. -/
theorem verdict_newRows_tuple (hsendable : Sendable q.texts) (hid : outages.find? (·.id = q.id) = none)
    (hrow : (newRows outages ps).find? (·.id = q.id) = none) :
    verdict (checkDuplicate (outages ++ newRows outages ps) q) = verdict (checkDuplicate outages q) ↔
      ∀ p ∈ ps, ¬ Clash outages p q := by
  have hfree : ∀ p ∈ ps, checkDuplicate outages p = .ok none → q.id ≠ p.id := by
    intro p hp hnew hqid
    have hne := List.find?_eq_none.mp hrow p.toRow (mem_newRows.mpr ⟨p, hp, hnew, rfl⟩)
    simp [hqid, OutageCreate.toRow] at hne
  cases hdup : outages.find? (matchesTuple · q) with
  | some duplicate =>
      have hsame : checkDuplicate (outages ++ newRows outages ps) q = checkDuplicate outages q := by
        rw [checkDuplicate_of_sendable hsendable, checkDuplicate_of_sendable hsendable, List.find?_append,
          List.find?_append, hid, hrow, hdup, Option.some_or]
        rfl
      rw [hsame]
      refine iff_of_true rfl ?_
      rintro p hp ⟨hnew, ⟨hqid, -⟩ | ⟨hq, -⟩⟩
      · exact hfree p hp hnew hqid
      · have hmem := List.mem_of_find?_eq_some hdup
        have hmatch := List.find?_some hdup
        rw [(checkDuplicate_eq_none.mp hq).2.1 duplicate hmem] at hmatch
        cases hmatch
  | none =>
      have hq : checkDuplicate outages q = .ok none := by
        rw [checkDuplicate_of_sendable hsendable, hid, hdup]
      have hlive : verdict (checkDuplicate (outages ++ newRows outages ps) q) = (true, some false) ↔
          (newRows outages ps).find? (matchesTuple · q) = none := by
        rw [checkDuplicate_of_sendable hsendable, List.find?_append, List.find?_append, hid, hrow, hdup,
          Option.none_or, Option.none_or]
        cases (newRows outages ps).find? (matchesTuple · q) with
        | none => exact iff_of_true rfl rfl
        | some row =>
            dsimp only
            split
            · simp [verdict]
            · simp [verdict]
      rw [hq, show verdict (.ok none) = (true, some false) from rfl, hlive, List.find?_eq_none]
      constructor
      · rintro h p hp ⟨hnew, ⟨hqid, -⟩ | ⟨-, hmatch⟩⟩
        · exact hfree p hp hnew hqid
        · exact h p.toRow (mem_newRows.mpr ⟨p, hp, hnew, rfl⟩) hmatch
      · intro h row hmem hmatch
        obtain ⟨p, hp, hnew, rfl⟩ := mem_newRows.mp hmem
        exact h p hp ⟨hnew, .inr ⟨hq, hmatch⟩⟩

/-- The rows before it change the verdict on `q` only if one of them clashes with it. -/
theorem verdict_newRows_iff :
    verdict (checkDuplicate (outages ++ newRows outages ps) q) = verdict (checkDuplicate outages q) ↔
      ∀ p ∈ ps, ¬ Clash outages p q := by
  have hnew : ∀ p, checkDuplicate outages p = .ok none → outages.find? (·.id = p.id) = none := by
    intro p hp
    rw [find?_id_eq_none]
    exact (checkDuplicate_eq_none.mp hp).1
  cases hid : outages.find? (·.id = q.id) with
  | some existing =>
      have hsame : checkDuplicate (outages ++ newRows outages ps) q = checkDuplicate outages q := by
        unfold checkDuplicate
        rw [List.find?_append, hid, Option.some_or]
      rw [hsame]
      refine iff_of_true rfl ?_
      rintro p - ⟨hp, ⟨heq, -⟩ | ⟨hq, -⟩⟩
      · rw [heq, hnew p hp] at hid
        cases hid
      · rw [hnew q hq] at hid
        cases hid
  | none =>
      by_cases hsendable : Sendable q.texts
      · cases hrow : (newRows outages ps).find? (·.id = q.id) with
        | some row => exact verdict_newRows_id hsendable hid hrow
        | none => exact verdict_newRows_tuple hsendable hid hrow
      · -- a row that is the same outage as `q` has no NUL either
        have hold : ∀ row ∈ outages, isSameOutage row q = false := by
          intro row hrow
          by_contra hsame
          obtain ⟨hrowid, -⟩ := of_decide_eq_true (Bool.of_not_eq_false hsame)
          simpa [hrowid] using List.find?_eq_none.mp hid row hrow
        have hadded : ∀ row ∈ newRows outages ps, isSameOutage row q = false := by
          intro row hrow
          obtain ⟨p, -, hp, rfl⟩ := mem_newRows.mp hrow
          by_contra hsame
          have hq := new_of_isSameOutage hp (Bool.of_not_eq_false hsame)
          exact hsendable (checkDuplicate_eq_none.mp hq).2.2
        obtain ⟨text, hq⟩ := checkDuplicate_of_not_sendable hsendable hold
        obtain ⟨text', hlive⟩ := checkDuplicate_of_not_sendable hsendable
          fun row hrow => (List.mem_append.mp hrow).elim (hold row) (hadded row)
        rw [hq, hlive]
        refine iff_of_true rfl ?_
        rintro p - ⟨-, ⟨-, found, h⟩ | ⟨h, -⟩⟩
        all_goals
          rw [hq] at h
          cases h

/-! ## One row of both -/

/-- The outcome of a row on a table. -/
def rowOutcome (outages : List OutageRow) (row : ρ) : Outcome (Bool × Option Bool) :=
  match parser.outageCreate row with
  | .ok p => .ok (verdict (checkDuplicate outages p))
  | .error e =>
      match rowFailed parser 0 row e with
      | .error e' => .error e'
      | .ok _ => .ok (false, none)

/-- The payload of a row, if it is valid. -/
def payloads (row : ρ) : List OutageCreate :=
  match parser.outageCreate row with
  | .ok p => [p]
  | .error _ => []

def consOutcome : Outcome (Bool × Option Bool) → Outcome (List (Bool × Option Bool)) →
    Outcome (List (Bool × Option Bool))
  | .error e, _ => .error e
  | .ok _, .error e => .error e
  | .ok a, .ok as => .ok (a :: as)

theorem newRows_append (ps ps' : List OutageCreate) :
    newRows outages (ps ++ ps') = newRows outages ps ++ newRows outages ps' := by
  simp [newRows]

/-- The status and the duplicate flag of one row. -/
def rowFlags : Outcome ImportRowResult → Outcome (Bool × Option Bool)
  | .error e => .error e
  | .ok result => .ok (result.ok, result.duplicate)

theorem rowFlags_rowFailed (i : ℕ) (row : ρ) (e : ApiError) :
    rowFlags (rowFailed parser i row e) =
      match rowFailed parser 0 row e with
      | .error e' => .error e'
      | .ok _ => .ok (false, none) := by
  unfold rowFailed rowError
  split
  · cases parser.rowId row with
    | error e' => rfl
    | ok id => rfl
  · rfl

/-- A conflict of a valid row is reported: the row has an id that a row result can take. -/
theorem rowFailed_of_valid {row : ρ} (h : parser.outageCreate row = .ok p) (i : ℕ) (text : String) :
    rowFailed parser i row (.valueError text) =
      .ok ⟨i, some p.id, false, some (.valueError text), none, none, none, none⟩ := by
  have hcaught : isRowError (.valueError text) = true := rfl
  rw [rowFailed, if_pos hcaught, rowError, parser.rowId_of_valid row p h]

theorem rowFailed_eq_error_iff (i : ℕ) (row : ρ) (e : ApiError) :
    (∃ e', rowFailed parser i row e = .error e') ↔ isRowError e = false ∨ ∃ e', parser.rowId row = .error e' := by
  unfold rowFailed rowError
  cases isRowError e with
  | false => simp
  | true =>
      cases parser.rowId row with
      | error e' => simp
      | ok id => simp

/-- A conflict is no database error. -/
theorem checkDuplicate_eq_error {e : ApiError} (h : checkDuplicate outages p = .error e) :
    ∃ text, e = .valueError text := by
  unfold checkDuplicate at h
  repeat' split at h
  all_goals cases h
  all_goals exact ⟨_, rfl⟩

theorem rowFlags_dryRow (outages : List OutageRow) (i : ℕ) (row : ρ) :
    rowFlags (dryRow parser outages i row) = rowOutcome parser outages row := by
  unfold dryRow rowOutcome
  cases hparse : parser.outageCreate row with
  | error e => exact rowFlags_rowFailed parser i row e
  | ok p =>
      dsimp only
      rcases hcheck : checkDuplicate outages p with (_ | existing) | e
      · rfl
      · rfl
      · obtain ⟨text, rfl⟩ := checkDuplicate_eq_error hcheck
        dsimp only
        rw [rowFailed_of_valid parser hparse]
        rfl

theorem rowFlags_partialRow (outages : List OutageRow) (i : ℕ) (row : ρ) :
    rowFlags (partialRow parser noFaults i row outages).1 = rowOutcome parser outages row ∧
      (partialRow parser noFaults i row outages).2 = outages ++ newRows outages (payloads parser row) := by
  unfold partialRow rowOutcome payloads
  cases hparse : parser.outageCreate row with
  | error e => exact ⟨rowFlags_rowFailed parser i row e, by simp [newRows]⟩
  | ok p =>
      dsimp only [noFaults]
      rw [createOrGetExisting_noFault]
      rcases hcheck : checkDuplicate outages p with (_ | existing) | e
      · exact ⟨rfl, by simp [newRows, hcheck]⟩
      · exact ⟨rfl, by simp [newRows, hcheck]⟩
      · obtain ⟨text, rfl⟩ := checkDuplicate_eq_error hcheck
        refine ⟨?_, by simp [newRows, hcheck]⟩
        dsimp only
        rw [rowFailed_of_valid parser hparse]
        rfl

theorem outcomes_dryRun_cons (outages : List OutageRow) (i : ℕ) (row : ρ) (rows : List ρ) :
    outcomes (dryRun parser outages i (row :: rows)) =
      consOutcome (rowOutcome parser outages row) (outcomes (dryRun parser outages (i + 1) rows)) := by
  rw [dryRun, report, ← rowFlags_dryRow parser outages i row]
  cases dryRow parser outages i row with
  | error e => rfl
  | ok result =>
      cases report (dryRow parser outages) (i + 1) rows with
      | error e => rfl
      | ok results => rfl

theorem outcomes_importPartial_cons (outages : List OutageRow) (i : ℕ) (row : ρ) (rows : List ρ) :
    outcomes (importPartial parser noFaults i (row :: rows) outages).1 =
      consOutcome (rowOutcome parser outages row)
        (outcomes (importPartial parser noFaults (i + 1) rows
          (outages ++ newRows outages (payloads parser row))).1) := by
  obtain ⟨hflags, htable⟩ := rowFlags_partialRow parser outages i row
  rw [importPartial, ← hflags, ← htable]
  rcases partialRow parser noFaults i row outages with ⟨result | e, outages'⟩
  · dsimp only
    rcases importPartial parser noFaults (i + 1) rows outages' with ⟨results | e, outages''⟩
    · rfl
    · rfl
  · rfl

/-! ## The whole file -/

theorem consOutcome_ok_eq_iff {a b : Bool × Option Bool} {x y : Outcome (List (Bool × Option Bool))} :
    consOutcome (.ok a) x = consOutcome (.ok b) y ↔
      (∃ e, x = .error e ∧ y = .error e) ∨ a = b ∧ x = y := by
  cases x with
  | error e =>
      cases y with
      | error e' => simp [consOutcome, eq_comm]
      | ok bs => simp [consOutcome]
  | ok as =>
      cases y with
      | error e' => simp [consOutcome]
      | ok bs => simp [consOutcome]

/-- What a row comes to on any table. -/
theorem rowOutcome_cases (row : ρ) :
    (∃ e, Raises parser row ∧ ∀ outages, rowOutcome parser outages row = .error e) ∨
    (¬ Raises parser row ∧ (∀ p, parser.outageCreate row ≠ .ok p) ∧ payloads parser row = [] ∧
      ∀ outages, rowOutcome parser outages row = .ok (false, none)) ∨
    (∃ p, ¬ Raises parser row ∧ parser.outageCreate row = .ok p ∧ payloads parser row = [p] ∧
      ∀ outages, rowOutcome parser outages row = .ok (verdict (checkDuplicate outages p))) := by
  unfold Raises payloads rowOutcome
  cases parser.outageCreate row with
  | error e =>
      have hraises := rowFailed_eq_error_iff parser 0 row e
      simp only [Outcome.error.injEq, exists_eq_left', ← hraises]
      cases rowFailed parser 0 row e with
      | error e' => exact .inl ⟨e', by simp⟩
      | ok result => exact .inr (.inl (by simp))
  | ok p => exact .inr (.inr ⟨p, by simp⟩)

theorem consOutcome_ok_eq_error {a : Bool × Option Bool} {x : Outcome (List (Bool × Option Bool))}
    {e : ApiError} : consOutcome (.ok a) x = .error e ↔ x = .error e := by
  cases x with
  | error e' => exact Iff.rfl
  | ok as => simp [consOutcome]

theorem raises_cons {row : ρ} {rows : List ρ} :
    (∃ row' ∈ row :: rows, Raises parser row') ↔ Raises parser row ∨ ∃ row' ∈ rows, Raises parser row' := by
  simp

/-- A row that raises ends both in the same way, and nothing else ends them. -/
theorem both_raise_iff (outages live : List OutageRow) (i : ℕ) (rows : List ρ) :
    (∃ e, outcomes (dryRun parser outages i rows) = .error e ∧
        outcomes (importPartial parser noFaults i rows live).1 = .error e) ↔
      ∃ row ∈ rows, Raises parser row := by
  induction rows generalizing live i with
  | nil => simp [dryRun, report, importPartial, outcomes]
  | cons row rows ih =>
      rw [outcomes_dryRun_cons, outcomes_importPartial_cons, raises_cons]
      obtain ⟨e, hraises, hrow⟩ | ⟨hraises, -, -, hrow⟩ | ⟨p, hraises, -, -, hrow⟩ :=
        rowOutcome_cases parser row
      · rw [hrow, hrow]
        exact iff_of_true ⟨e, rfl, rfl⟩ (.inl hraises)
      · rw [hrow, hrow, or_iff_right hraises]
        simp only [consOutcome_ok_eq_error]
        exact ih _ _
      · rw [hrow, hrow, or_iff_right hraises]
        simp only [consOutcome_ok_eq_error]
        exact ih _ _

theorem dryRow_raises_iff {i : ℕ} {row : ρ} :
    (∃ e, dryRow parser outages i row = .error e) ↔ Raises parser row := by
  have hflags := rowFlags_dryRow parser outages i row
  have hraises : (∃ e, dryRow parser outages i row = .error e) ↔
      ∃ e, rowOutcome parser outages row = .error e := by
    rw [← hflags]
    cases dryRow parser outages i row with
    | error e => exact iff_of_true ⟨e, rfl⟩ ⟨e, rfl⟩
    | ok result => exact iff_of_false nofun nofun
  rw [hraises]
  obtain ⟨e, h, hrow⟩ | ⟨h, -, -, hrow⟩ | ⟨p, h, -, -, hrow⟩ := rowOutcome_cases parser row
  · exact iff_of_true ⟨e, hrow outages⟩ h
  · rw [hrow outages]
    exact iff_of_false nofun h
  · rw [hrow outages]
    exact iff_of_false nofun h

section Report

variable {rowResult : ℕ → ρ → Outcome ImportRowResult} {i : ℕ} {rows : List ρ} {results : List ImportRowResult}

/-- The results are cut short only at a row that raises. -/
theorem report_raises_iff {raises : ρ → Prop} (h : ∀ i row, (∃ e, rowResult i row = .error e) ↔ raises row) :
    (∃ e, report rowResult i rows = .error e) ↔ ∃ row ∈ rows, raises row := by
  induction rows generalizing i with
  | nil => simp [report]
  | cons row rows ih =>
      rw [List.exists_mem_cons_iff, ← h i row, ← ih (i := i + 1), report]
      cases rowResult i row with
      | error e => simp
      | ok result =>
          cases report rowResult (i + 1) rows with
          | error e => simp
          | ok results => simp

/-- The results are those of the rows, at their positions. -/
theorem report_eq_ok_iff : report rowResult i rows = .ok results ↔
    List.Forall₂ (fun x result => rowResult x.2 x.1 = .ok result) (rows.zipIdx i) results := by
  induction rows generalizing i results with
  | nil => simp [report, eq_comm]
  | cons row rows ih =>
      rw [List.zipIdx_cons, List.forall₂_cons_left_iff, report]
      simp only [← ih]
      cases rowResult i row with
      | error e => simp
      | ok result =>
          cases report rowResult (i + 1) rows with
          | error e => simp
          | ok rest => simp [eq_comm]

end Report

/-- The dry run ends early only at a row that raises. -/
theorem dryRun_raises_iff {i : ℕ} {rows : List ρ} :
    (∃ e, dryRun parser outages i rows = .error e) ↔ ∃ row ∈ rows, Raises parser row :=
  report_raises_iff fun _ _ => dryRow_raises_iff parser

/-- Whatever follows, the rows before it are clear of what they would change. -/
def Clear (outages : List OutageRow) (ps : List OutageCreate) (rows : List ρ) : Prop :=
  ∀ p ∈ ps, ∀ row ∈ rows, ∀ q, parser.outageCreate row = .ok q → ¬ Clash outages p q

/-- No two rows of the file clash. -/
def ClashFree (outages : List OutageRow) (rows : List ρ) : Prop :=
  rows.Pairwise fun row row' => ∀ p q, parser.outageCreate row = .ok p → parser.outageCreate row' = .ok q →
    ¬ Clash outages p q

theorem clear_cons_valid {row : ρ} {rows : List ρ} (h : parser.outageCreate row = .ok q) :
    Clear parser outages ps (row :: rows) ↔ (∀ p ∈ ps, ¬ Clash outages p q) ∧ Clear parser outages ps rows := by
  simp [Clear, h, forall_and]

theorem clear_cons_invalid {row : ρ} {rows : List ρ} (h : ∀ p, parser.outageCreate row ≠ .ok p) :
    Clear parser outages ps (row :: rows) ↔ Clear parser outages ps rows := by
  simp [Clear, h]

theorem clear_concat {rows : List ρ} :
    Clear parser outages (ps ++ [p]) rows ↔ Clear parser outages ps rows ∧ Clear parser outages [p] rows := by
  simp [Clear, or_imp, forall_and]

theorem clashFree_cons_valid {row : ρ} {rows : List ρ} (h : parser.outageCreate row = .ok p) :
    ClashFree parser outages (row :: rows) ↔ Clear parser outages [p] rows ∧ ClashFree parser outages rows := by
  unfold ClashFree Clear
  rw [List.pairwise_cons, List.forall_mem_singleton]
  apply and_congr_left'
  constructor
  · intro hall row' hrow' q hq
    exact hall row' hrow' p q h hq
  · intro hall row' hrow' p' q hp' hq
    obtain rfl := Outcome.ok.inj (h.symm.trans hp')
    exact hall row' hrow' q hq

theorem clashFree_cons_invalid {row : ρ} {rows : List ρ} (h : ∀ p, parser.outageCreate row ≠ .ok p) :
    ClashFree parser outages (row :: rows) ↔ ClashFree parser outages rows := by
  unfold ClashFree
  rw [List.pairwise_cons]
  simp [h]

/-- A row with the same verdict on both tables is new to both or to none. -/
theorem newRows_of_verdict {live : List OutageRow}
    (h : verdict (checkDuplicate live q) = verdict (checkDuplicate outages q)) :
    newRows live [q] = newRows outages [q] := by
  have hnew : ∀ found, verdict found = (true, some false) ↔ found = .ok none := by
    rintro ((_ | existing) | e)
    all_goals simp [verdict]
  have hiff : checkDuplicate live q = .ok none ↔ checkDuplicate outages q = .ok none := by
    rw [← hnew, h, hnew]
  unfold newRows
  congr 1
  apply List.filter_congr
  intro p hp
  rw [List.mem_singleton.mp hp]
  exact decide_eq_decide.mpr hiff

/-- The live import has added the new rows among the `earlier` ones: it goes on as the dry run does if the
remaining rows clash neither with those nor with each other. -/
theorem outcomes_eq_iff (outages : List OutageRow) (earlier : List OutageCreate) (i : ℕ) (rows : List ρ) :
    outcomes (dryRun parser outages i rows) =
        outcomes (importPartial parser noFaults i rows (outages ++ newRows outages earlier)).1 ↔
      (∃ row ∈ rows, Raises parser row) ∨
        Clear parser outages earlier rows ∧ ClashFree parser outages rows := by
  induction rows generalizing earlier i with
  | nil => simp [dryRun, report, importPartial, outcomes, Clear, ClashFree]
  | cons row rows ih =>
      rw [outcomes_dryRun_cons, outcomes_importPartial_cons, raises_cons]
      obtain ⟨e, hraises, hrow⟩ | ⟨hraises, hparse, hpayloads, hrow⟩ | ⟨q, hraises, hparse, hpayloads, hrow⟩ :=
        rowOutcome_cases parser row
      · rw [hrow, hrow]
        exact iff_of_true rfl (.inl (.inl hraises))
      · rw [hrow, hrow, hpayloads, clear_cons_invalid parser hparse, clashFree_cons_invalid parser hparse,
          or_iff_right hraises, ← ih earlier (i + 1), consOutcome_ok_eq_iff,
          show newRows (outages ++ newRows outages earlier) [] = [] from rfl, List.append_nil]
        constructor
        · rintro (⟨e, hdry, hlive⟩ | ⟨-, h⟩)
          · rw [hdry, hlive]
          · exact h
        · intro h
          exact .inr ⟨rfl, h⟩
      · rw [hrow, hrow, hpayloads, clear_cons_valid parser hparse, clashFree_cons_valid parser hparse,
          or_iff_right hraises, consOutcome_ok_eq_iff, both_raise_iff, and_assoc,
          ← verdict_newRows_iff, eq_comm (a := verdict (checkDuplicate outages q))]
        by_cases htail : ∃ row' ∈ rows, Raises parser row'
        · exact iff_of_true (.inl htail) (.inl htail)
        rw [or_iff_right htail, or_iff_right htail]
        apply and_congr_right
        intro hverdict
        rw [newRows_of_verdict hverdict, List.append_assoc, ← newRows_append, ih, or_iff_right htail,
          clear_concat, and_assoc]

end ApexChainx.Import
