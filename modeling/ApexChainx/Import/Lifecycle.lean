import ApexChainx.Import.Edit

/-!
# The lifecycle of an outage

The writers of the table `outages` one after another: `create`, the bulk create, the import, `update` behind
`PUT` and `PATCH`, and `OutageRepository.resolve`. The status never goes back (`Kept`), since every writer of
a stored row checks the transition and the others only add rows, or delete rows they have added. Its
companions `resolved_at` and `mttr_minutes` are written by `resolve` alone, so that they fit the status
(`Companions`) as long as no other writer resolves an outage or edits its time of resolution.
-/

namespace ApexChainx.Import

open ApexChainx.Lib ApexChainx.Sla ApexChainx.Settlement

variable {ρ : Type*} (parser : RowParser ρ)

/-! ## Operations -/

/-- `bulk_create_outages`: each outage is committed by itself, and an error ends the request. -/
def bulkCreate (fault : ℕ → Option Fault) : ℕ → List OutageCreate → List OutageRow →
    Outcome (List (OutageRow × Bool)) × List OutageRow
  | _, [], outages => (.ok [], outages)
  | i, p :: ps, outages =>
      match createOrGetExisting (fault i) p outages with
      | (.error e, outages') => (.error e, outages')
      | (.ok created, outages') =>
          match bulkCreate fault (i + 1) ps outages' with
          | (.error e, outages'') => (.error e, outages'')
          | (.ok rest, outages'') => (.ok (created :: rest), outages'')

/-- The operations, with what the database and the clock contribute. `financial` has the outages that results
or payments refer to. -/
inductive Operation (ρ : Type*)
  | create (p : OutageCreate) (fault : Option Fault)
  | bulkCreate (ps : List OutageCreate) (fault : ℕ → Option Fault)
  | importOutages (rows : List ρ) (isDryRun : Bool) (consistency : ImportConsistency) (db : DbFaults)
      (financial : List String)
  | update (id : String) (u : OutageUpdate) (commitFails : Bool)
  | resolve (id : String) (mttr : ℤ) (now : DateTime)

/-- The table after an operation. Whatever refers to an outage refers to one of the table. -/
def perform (outages : List OutageRow) : Operation ρ → Option (List OutageRow)
  | .create p fault => some (createOrGetExisting fault p outages).2
  | .bulkCreate ps fault => some (bulkCreate fault 0 ps outages).2
  | .importOutages rows isDryRun consistency db financial =>
      if financial ⊆ outages.map OutageRow.id then
        some (importOutages parser db financial isDryRun consistency rows outages).2
      else none
  | .update id u commitFails => some (updateOutage commitFails id u outages).2
  | .resolve id mttr now => some (resolve id mttr now none outages).2

/-! ## What the table should keep -/

/-- `resolved_at` and `mttr_minutes` fit the status. -/
structure Companions (o : OutageRow) : Prop where
  resolved : o.status = OutageStatus.resolved.value →
    o.mttrMinutes ≠ none ∧ ∃ t, o.resolvedAt = some t ∧ o.detectedAt.ticks ≤ t.ticks
  open_ : o.status = OutageStatus.open.value → o.resolvedAt = none ∧ o.mttrMinutes = none

/-- The outages that were resolved are still there, and resolved. -/
def Kept (outages outages' : List OutageRow) : Prop :=
  ∀ o ∈ outages, o.status = OutageStatus.resolved.value →
    ∃ o' ∈ outages', o'.id = o.id ∧ o'.status = OutageStatus.resolved.value

/-- In every table of a run the companions fit, and no outage that was resolved before is open. -/
structure Lifecycle (ops : List (Operation ρ)) : Prop where
  companions : ∀ as outages, as <+: ops → run (perform parser) [] as = some outages →
    ∀ o ∈ outages, Companions o
  neverReopened : ∀ as bs before after, as ++ bs <+: ops → run (perform parser) [] as = some before →
    run (perform parser) before bs = some after →
    ∀ o ∈ before, o.status = OutageStatus.resolved.value →
      ∀ o' ∈ after, o'.id = o.id → o'.status = OutageStatus.resolved.value

/-! ## The condition -/

/-- A row that this payload adds is open. -/
def AddsOpen (fault : Option Fault) (p : OutageCreate) (outages : List OutageRow) : Prop :=
  checkDuplicate outages p = .ok none → fault ≠ some .lookup → fault ≠ some .commit → p.status = .open

/-- Every row a batch commits is open. -/
def BatchOpen (fault : ℕ → Option Fault) : ℕ → List OutageCreate → List OutageRow → Prop
  | _, [], _ => True
  | i, p :: ps, outages =>
      AddsOpen (fault i) p outages ∧
        ((createOrGetExisting (fault i) p outages).1.isOk = true →
          BatchOpen fault (i + 1) ps (createOrGetExisting (fault i) p outages).2)

/-- Every row a partial import commits is open; it goes on after a row that is refused. -/
def PartialOpen (db : DbFaults) : ℕ → List ρ → List OutageRow → Prop
  | _, [], _ => True
  | i, row :: rows, outages =>
      (∀ p, parser.outageCreate row = .ok p → AddsOpen (db.fault i) p outages) ∧
        ((partialRow parser db i row outages).1.isOk = true →
          PartialOpen db (i + 1) rows (partialRow parser db i row outages).2)

/-- An update that is accepted leaves an open outage open and without a time of resolution, and a resolved
one with a time not before its detection. -/
def UpdateFits (u : OutageUpdate) (o : OutageRow) : Prop :=
  (o.status = OutageStatus.open.value → u.status.join ≠ some .resolved ∧ u.resolvedAt.join = none) ∧
    (o.status = OutageStatus.resolved.value → u.status.join ≠ some .open →
      u.resolvedAt = none ∨ ∃ t, u.resolvedAt = some (some t) ∧ o.detectedAt.ticks ≤ t.ticks)

/-- No operation but `resolve` resolves an outage or touches its time of resolution, and the clock of
`resolve` is not behind the detection. -/
def OperationFits (outages : List OutageRow) : Operation ρ → Prop
  | .create p fault => AddsOpen fault p outages
  | .bulkCreate ps fault => BatchOpen fault 0 ps outages
  | .importOutages rows isDryRun consistency db _ =>
      isDryRun = false →
        match consistency with
        | .atomic => ∀ ps, Valid parser rows ps → BatchOpen db.fault 0 ps outages
        | .partial_ => PartialOpen parser db 0 rows outages
  | .update id u commitFails =>
      commitFails = false → u.nulled = none → Sendable u.texts → ∀ o ∈ outages, o.id = id → UpdateFits u o
  | .resolve id mttr now =>
      fitsInteger mttr = true → ∀ o ∈ outages, o.id = id →
        o.status = OutageStatus.resolved.value ∧ o.mttrMinutes = some mttr ∨ o.detectedAt.ticks ≤ now.ticks

/-! ## Rows that are added -/

/-- The table grows by rows that fit if `ok` holds. -/
def Grows (ok : Prop) (outages outages' : List OutageRow) : Prop :=
  ∃ new, outages' = outages ++ new ∧ (outages'.map OutageRow.id).Nodup ∧ (ok → ∀ o ∈ new, Companions o)

section Grows

variable {ok ok' ok'' : Prop} {outages outages' outages'' : List OutageRow} {p : OutageCreate}

theorem Grows.refl (hids : (outages.map OutageRow.id).Nodup) : Grows ok outages outages :=
  ⟨[], (List.append_nil _).symm, hids, fun _ _ ho => absurd ho List.not_mem_nil⟩

theorem Grows.nodup (h : Grows ok outages outages') : (outages'.map OutageRow.id).Nodup := by
  obtain ⟨_, -, hids, -⟩ := h
  exact hids

theorem Grows.trans (h : Grows ok outages outages') (h' : Grows ok' outages' outages'')
    (hok : ok'' → ok ∧ ok') : Grows ok'' outages outages'' := by
  obtain ⟨new, rfl, -, hnew⟩ := h
  obtain ⟨new', rfl, hids, hnew'⟩ := h'
  refine ⟨new ++ new', List.append_assoc _ _ _, hids, fun hboth o ho => ?_⟩
  rcases List.mem_append.mp ho with hfirst | hsecond
  · exact hnew (hok hboth).1 o hfirst
  · exact hnew' (hok hboth).2 o hsecond

theorem Grows.imp (h : Grows ok outages outages') (hok : ok' → ok) : Grows ok' outages outages' := by
  obtain ⟨new, htable, hids, hnew⟩ := h
  exact ⟨new, htable, hids, fun h' => hnew (hok h')⟩

theorem Grows.kept (h : Grows ok outages outages') : Kept outages outages' := by
  obtain ⟨new, rfl, -, -⟩ := h
  exact fun o ho hstatus => ⟨o, List.mem_append_left _ ho, rfl, hstatus⟩

theorem Grows.companions (h : Grows ok outages outages') (hok : ok) (hold : ∀ o ∈ outages, Companions o) :
    ∀ o ∈ outages', Companions o := by
  obtain ⟨new, rfl, -, hnew⟩ := h
  intro o ho
  rcases List.mem_append.mp ho with h | h
  · exact hold o h
  · exact hnew hok o h

theorem companions_toRow (h : p.status = .open) : Companions p.toRow where
  resolved hstatus := by simp [OutageCreate.toRow, h, OutageStatus.value] at hstatus
  open_ _ := ⟨rfl, rfl⟩

theorem createOrGetExisting_grows (fault : Option Fault) (p : OutageCreate)
    (hids : (outages.map OutageRow.id).Nodup) :
    Grows (AddsOpen fault p outages) outages (createOrGetExisting fault p outages).2 := by
  have hadded : checkDuplicate outages p = .ok none → fault ≠ some .lookup → fault ≠ some .commit →
      Grows (AddsOpen fault p outages) outages (outages ++ [p.toRow]) := by
    intro hnew hlookup hcommit
    refine ⟨[p.toRow], rfl, nodup_append_toRow hids hnew, fun hopen o ho => ?_⟩
    rw [List.mem_singleton.mp ho]
    exact companions_toRow (hopen hnew hlookup hcommit)
  obtain ⟨e, hstep, -⟩ | ⟨existing, hstep, -⟩ | ⟨hstep, hnew, hfault⟩ | ⟨hstep, hnew, hfault⟩ :=
    createOrGetExisting_cases fault p outages
  · rw [hstep]
    exact .refl hids
  · rw [hstep]
    exact .refl hids
  · rw [hstep]
    exact hadded hnew (by simp [hfault]) (by simp [hfault])
  · rw [hstep]
    exact hadded hnew (by simp [hfault]) (by simp [hfault])

theorem bulkCreate_grows (fault : ℕ → Option Fault) (ps : List OutageCreate) (i : ℕ)
    (hids : (outages.map OutageRow.id).Nodup) :
    Grows (BatchOpen fault i ps outages) outages (bulkCreate fault i ps outages).2 := by
  induction ps generalizing i outages with
  | nil => exact .refl hids
  | cons p ps ih =>
      have hfirst := createOrGetExisting_grows (fault i) p hids
      unfold bulkCreate BatchOpen
      rcases hstep : createOrGetExisting (fault i) p outages with ⟨created | e, outages'⟩
      · rw [hstep] at hfirst
        have hrest : Grows (AddsOpen (fault i) p outages ∧ (true = true → BatchOpen fault (i + 1) ps outages'))
            outages (bulkCreate fault (i + 1) ps outages').2 :=
          hfirst.trans (ih (i + 1) hfirst.nodup) fun h => ⟨h.1, h.2 rfl⟩
        dsimp only
        rcases hlater : bulkCreate fault (i + 1) ps outages' with ⟨rest | e, outages''⟩
        all_goals
          rw [hlater] at hrest
          exact hrest
      · rw [hstep] at hfirst
        exact hfirst.imp And.left

theorem createRows_grows (db : DbFaults) (ps : List OutageCreate) (i : ℕ) (persisted : List String)
    (hids : (outages.map OutageRow.id).Nodup) :
    Grows (BatchOpen db.fault i ps outages) outages (createRows db i ps outages persisted).2.1 := by
  induction ps generalizing i outages persisted with
  | nil =>
      unfold createRows
      split
      · exact .refl hids
      · exact .refl hids
  | cons p ps ih =>
      have hfirst := createOrGetExisting_grows (db.fault i) p hids
      unfold BatchOpen
      rcases hstep : createOrGetExisting (db.fault i) p outages with ⟨created | e, outages'⟩
      · rw [hstep] at hfirst
        rw [createRows_cons hstep]
        generalize (if created.2 then persisted ++ [created.1.id] else persisted) = counted
        have hrest : Grows
            (AddsOpen (db.fault i) p outages ∧ (true = true → BatchOpen db.fault (i + 1) ps outages'))
            outages (createRows db (i + 1) ps outages' counted).2.1 :=
          hfirst.trans (ih (i + 1) counted hfirst.nodup) fun h => ⟨h.1, h.2 rfl⟩
        rcases hlater : createRows db (i + 1) ps outages' counted with ⟨rest | e, outages'', persisted'⟩
        all_goals
          rw [hlater] at hrest
          exact hrest
      · rw [hstep] at hfirst
        rw [createRows_cons_error hstep]
        exact hfirst.imp And.left

theorem partialRow_grows (db : DbFaults) (i : ℕ) (row : ρ) (hids : (outages.map OutageRow.id).Nodup) :
    Grows (∀ p, parser.outageCreate row = .ok p → AddsOpen (db.fault i) p outages) outages
      (partialRow parser db i row outages).2 := by
  unfold partialRow
  cases hrow : parser.outageCreate row with
  | error e => exact .refl hids
  | ok p =>
      have hcreate := (createOrGetExisting_grows (db.fault i) p hids).imp
        fun h : ∀ q, Outcome.ok p = .ok q → AddsOpen (db.fault i) q outages => h p rfl
      dsimp only
      split
      all_goals
        rename_i hstep
        rw [hstep] at hcreate
        exact hcreate

theorem importPartial_grows (db : DbFaults) (rows : List ρ) (i : ℕ)
    (hids : (outages.map OutageRow.id).Nodup) :
    Grows (PartialOpen parser db i rows outages) outages (importPartial parser db i rows outages).2 := by
  induction rows generalizing i outages with
  | nil => exact .refl hids
  | cons row rows ih =>
      have hfirst := partialRow_grows parser db i row hids
      unfold importPartial PartialOpen
      rcases hstep : partialRow parser db i row outages with ⟨result | e, outages'⟩
      · rw [hstep] at hfirst
        have hrest := hfirst.trans (ih (i + 1) hfirst.nodup)
          fun h : _ ∧ (true = true → PartialOpen parser db (i + 1) rows outages') => ⟨h.1, h.2 rfl⟩
        dsimp only
        rcases hlater : importPartial parser db (i + 1) rows outages' with ⟨rest | e, outages''⟩
        all_goals
          rw [hlater] at hrest
          exact hrest
      · rw [hstep] at hfirst
        exact hfirst.imp And.left

/-- A batch that fails leaves, of its rows, at most the one that it lost. -/
theorem importAtomic_grows (db : DbFaults) {financial : List String} (rows : List ρ)
    (hfinancial : financial ⊆ outages.map OutageRow.id) (hids : (outages.map OutageRow.id).Nodup) :
    Grows (∀ ps, Valid parser rows ps → BatchOpen db.fault 0 ps outages) outages
      (importAtomic parser db financial rows outages).2 := by
  unfold importAtomic
  rcases hparse : parseRows parser 0 rows with ⟨results, ps⟩ | e
  · dsimp only
    split
    · exact .refl hids
    · rename_i hok
      have hvalid : Valid parser rows ps := valid_of_parseRows hparse (by simpa using hok)
      have hrows := (createRows_grows db ps 0 [] hids).imp
        fun h : ∀ ps, Valid parser rows ps → BatchOpen db.fault 0 ps outages => h ps hvalid
      obtain ⟨new, lost, hextends, -⟩ := createRows_extends db ps 0 [] hids
      rcases hcreate : createRows db 0 ps outages [] with ⟨created | e, outages', persisted⟩
      · rw [hcreate] at hrows
        exact hrows
      · rw [hcreate] at hrows hextends
        obtain ⟨htable, hcounted, hfresh, -⟩ := hextends
        dsimp only at htable hcounted hrows ⊢
        rw [hcounted, List.nil_append, htable, compensate_counted hfinancial hfresh]
        obtain ⟨added, hadded, -, hfit⟩ := hrows
        -- the compensation deletes the rows that were counted
        have hsplit : added = new ++ lost := by
          rw [htable, List.append_assoc] at hadded
          exact (List.append_cancel_left hadded).symm
        refine ⟨lost, rfl, ?_, fun h o ho => hfit h o ?_⟩
        · exact hfresh.sublist
            (((List.sublist_append_left outages new).append (.refl lost)).map OutageRow.id)
        · rw [hsplit]
          exact List.mem_append_right _ ho
  · exact .refl hids

theorem importOutages_grows (rows : List ρ) (isDryRun : Bool) (consistency : ImportConsistency) (db : DbFaults)
    {financial : List String} (hfinancial : financial ⊆ outages.map OutageRow.id)
    (hids : (outages.map OutageRow.id).Nodup) :
    Grows (OperationFits parser outages (.importOutages rows isDryRun consistency db financial)) outages
      (importOutages parser db financial isDryRun consistency rows outages).2 := by
  unfold importOutages
  cases isDryRun with
  | true => exact .refl hids
  | false =>
      cases consistency with
      | atomic => exact (importAtomic_grows parser db rows hfinancial hids).imp fun h => h rfl
      | partial_ => exact (importPartial_grows parser db rows 0 hids).imp fun h => h rfl

end Grows

/-! ## Rows that are rewritten -/

section Rewrites

variable {outages : List OutageRow} {id : String} {g : OutageRow → OutageRow}

theorem Kept.refl (outages : List OutageRow) : Kept outages outages :=
  fun o ho hstatus => ⟨o, ho, rfl, hstatus⟩

theorem Kept.trans {outages' outages'' : List OutageRow} (h : Kept outages outages')
    (h' : Kept outages' outages'') : Kept outages outages'' := by
  intro o ho hstatus
  obtain ⟨o', ho', hid, hstatus'⟩ := h o ho hstatus
  obtain ⟨o'', ho'', hid', hstatus''⟩ := h' o' ho' hstatus'
  exact ⟨o'', ho'', hid'.trans hid, hstatus''⟩

theorem updateKey_keeps (hids : (outages.map OutageRow.id).Nodup) (hg : ∀ o, (g o).id = o.id)
    (hstatus : ∀ o ∈ outages, o.id = id → o.status = OutageStatus.resolved.value →
      (g o).status = OutageStatus.resolved.value) :
    ((updateKey OutageRow.id id g outages).map OutageRow.id).Nodup ∧
      Kept outages (updateKey OutageRow.id id g outages) := by
  refine ⟨by rwa [map_key_updateKey hg], fun o ho hresolved => ?_⟩
  by_cases hid : o.id = id
  · exact ⟨g o, mem_updateKey_iff.mpr (.inr ⟨o, ho, hid, rfl⟩), hg o, hstatus o ho hid hresolved⟩
  · exact ⟨o, mem_updateKey_iff.mpr (.inl ⟨ho, hid⟩), rfl, hresolved⟩

theorem companions_updateKey (hold : ∀ o ∈ outages, Companions o)
    (hg : ∀ o ∈ outages, o.id = id → Companions (g o)) :
    ∀ o ∈ updateKey OutageRow.id id g outages, Companions o := by
  intro o ho
  obtain h | ⟨o', ho', hid, rfl⟩ := mem_updateKey ho
  · exact hold o h
  · exact hg o' ho' hid

/-- The transitions the repository lets through start at open, or go from resolved to resolved. -/
theorem validateTransition_eq_none {current : String} {next : OutageStatus}
    (h : validateTransition current next.value = none) :
    current = OutageStatus.open.value ∨ current = OutageStatus.resolved.value ∧ next = .resolved := by
  have hmem : next.value ∈ allowedTransitions current := by
    unfold validateTransition at h
    split at h
    · assumption
    · cases h
  unfold allowedTransitions at hmem
  split at hmem
  · exact .inl ‹_›
  · split at hmem
    · rename_i hresolved
      refine .inr ⟨hresolved, ?_⟩
      cases next with
      | «open» => exact absurd hmem (by decide)
      | resolved => rfl
    · exact absurd hmem List.not_mem_nil

/-- An update changes nothing, or it was accepted for the row it found. -/
theorem updateOutage_eq (commitFails : Bool) (id : String) (u : OutageUpdate) (outages : List OutageRow) :
    (updateOutage commitFails id u outages).2 = outages ∨
      ∃ o ∈ outages, o.id = id ∧ (∀ next, u.status.join = some next → validateTransition o.status next.value = none) ∧
        u.nulled = none ∧ Sendable u.texts ∧ commitFails = false ∧
        (updateOutage commitFails id u outages).2 = updateKey OutageRow.id id u.apply outages := by
  unfold updateOutage
  cases hfind : outages.find? (·.id = id) with
  | none => exact .inl rfl
  | some o =>
      dsimp only
      split
      · exact .inl rfl
      · rename_i hstatus
        split
        · exact .inl rfl
        rename_i hsendable
        split
        · exact .inl rfl
        · rename_i hnulled
          split
          · exact .inl rfl
          · rename_i hcommit
            refine .inr ⟨o, List.mem_of_find?_eq_some hfind, by simpa using List.find?_some hfind, ?_, hnulled,
              not_not.mp hsendable, by simpa using hcommit, rfl⟩
            intro next hnext
            rwa [hnext, Option.bind_some] at hstatus

/-- A resolution changes nothing, or it was made for a row that was not resolved with this MTTR before. -/
theorem resolve_eq (id : String) (mttr : ℤ) (now : DateTime) (outages : List OutageRow) :
    (resolve id mttr now none outages).2 = outages ∨
      ∃ o ∈ outages, o.id = id ∧ ¬(o.status = OutageStatus.resolved.value ∧ o.mttrMinutes = some mttr) ∧
        fitsInteger mttr = true ∧
        (resolve id mttr now none outages).2 = updateKey OutageRow.id id (.resolve mttr now none) outages := by
  unfold resolve
  cases hfind : outages.find? (·.id = id) with
  | none => exact .inl rfl
  | some o =>
      dsimp only
      split
      · exact .inl rfl
      · rename_i hreplay
        split
        · exact .inl rfl
        · split
          · exact .inl rfl
          · rename_i hfits
            exact .inr ⟨o, List.mem_of_find?_eq_some hfind, by simpa using List.find?_some hfind, hreplay,
              by simpa using hfits, rfl⟩

theorem companions_apply {u : OutageUpdate} {o : OutageRow} (h : Companions o) (hfits : UpdateFits u o)
    (hvalid : ∀ next, u.status.join = some next → validateTransition o.status next.value = none) :
    Companions (u.apply o) := by
  have hmttr : (u.apply o).mttrMinutes = o.mttrMinutes := rfl
  have htime : (u.apply o).resolvedAt = u.resolvedAt.getD o.resolvedAt := rfl
  have hstatus : (u.apply o).status = (u.status.join.map OutageStatus.value).getD o.status := rfl
  constructor
  · intro hresolved
    have hold : o.status = OutageStatus.resolved.value ∧ u.status.join ≠ some .open := by
      rw [hstatus] at hresolved
      cases hnext : u.status.join with
      | none => simpa [hnext] using hresolved
      | some next =>
          obtain rfl : next = .resolved := by
            cases next with
            | «open» => simp [hnext, OutageStatus.value] at hresolved
            | resolved => rfl
          -- the transition from open is allowed; the condition excludes it
          rcases validateTransition_eq_none (hvalid _ hnext) with hopen | ⟨hold, -⟩
          · exact absurd hnext (hfits.1 hopen).1
          · exact ⟨hold, by simp⟩
    obtain ⟨hset, t, hat, hle⟩ := h.resolved hold.1
    refine ⟨hset, ?_⟩
    rcases hfits.2 hold.1 hold.2 with habsent | ⟨t', hgiven, hle'⟩
    · exact ⟨t, by rw [htime, habsent, Option.getD_none, hat], hle⟩
    · exact ⟨t', by rw [htime, hgiven, Option.getD_some], hle'⟩
  · intro hopen
    have hold : o.status = OutageStatus.open.value := by
      rw [hstatus] at hopen
      cases hnext : u.status.join with
      | none => simpa [hnext] using hopen
      | some next =>
          rcases validateTransition_eq_none (hvalid _ hnext) with hold | ⟨-, rfl⟩
          · exact hold
          · simp [hnext, OutageStatus.value] at hopen
    obtain ⟨hunset, hnone⟩ := h.open_ hold
    refine ⟨?_, hmttr.trans hnone⟩
    have hjoin := (hfits.1 hold).2
    rw [htime]
    rcases hgiven : u.resolvedAt with _ | _ | t
    · exact hunset
    · rfl
    · simp [hgiven] at hjoin

theorem companions_resolve {o : OutageRow} {mttr : ℤ} {now : DateTime} (h : o.detectedAt.ticks ≤ now.ticks) :
    Companions (o.resolve mttr now none) where
  resolved _ := ⟨by simp [OutageRow.resolve], now, rfl, h⟩
  open_ hstatus := absurd hstatus (by simp [OutageRow.resolve, OutageStatus.value])

theorem status_apply {u : OutageUpdate} {o : OutageRow} (hresolved : o.status = OutageStatus.resolved.value)
    (hvalid : ∀ next, u.status.join = some next → validateTransition o.status next.value = none) :
    (u.apply o).status = OutageStatus.resolved.value := by
  have hstatus : (u.apply o).status = (u.status.join.map OutageStatus.value).getD o.status := rfl
  rw [hstatus]
  cases hnext : u.status.join with
  | none => exact hresolved
  | some next =>
      rcases validateTransition_eq_none (hvalid next hnext) with hopen | ⟨-, rfl⟩
      · simp [hopen, OutageStatus.value] at hresolved
      · rfl

end Rewrites

/-! ## Runs -/

section Runs

variable {parser} {outages outages' : List OutageRow} {op : Operation ρ}

/-- No operation reopens an outage or takes a resolved one away. -/
theorem perform_keeps (hids : (outages.map OutageRow.id).Nodup) (h : perform parser outages op = some outages') :
    (outages'.map OutageRow.id).Nodup ∧ Kept outages outages' := by
  cases op with
  | create p fault =>
      obtain rfl := Option.some.inj h
      have hgrows := createOrGetExisting_grows fault p hids
      exact ⟨hgrows.nodup, hgrows.kept⟩
  | bulkCreate ps fault =>
      obtain rfl := Option.some.inj h
      have hgrows := bulkCreate_grows fault ps 0 hids
      exact ⟨hgrows.nodup, hgrows.kept⟩
  | importOutages rows isDryRun consistency db financial =>
      dsimp only [perform] at h
      split at h
      · rename_i hfinancial
        obtain rfl := Option.some.inj h
        have hgrows := importOutages_grows parser rows isDryRun consistency db hfinancial hids
        exact ⟨hgrows.nodup, hgrows.kept⟩
      · cases h
  | update id u commitFails =>
      obtain rfl := Option.some.inj h
      rcases updateOutage_eq commitFails id u outages with hsame | ⟨o, ho, hid, hvalid, -, -, -, hwritten⟩
      · rw [hsame]
        exact ⟨hids, .refl outages⟩
      · rw [hwritten]
        refine updateKey_keeps hids (fun _ => rfl) fun o' ho' hid' hresolved => ?_
        -- the checked row is the one that is rewritten
        obtain rfl : o' = o := List.inj_on_of_nodup_map hids ho' ho (hid'.trans hid.symm)
        exact status_apply hresolved hvalid
  | resolve id mttr now =>
      obtain rfl := Option.some.inj h
      rcases resolve_eq id mttr now outages with hsame | ⟨o, ho, hid, -, -, hwritten⟩
      · rw [hsame]
        exact ⟨hids, .refl outages⟩
      · rw [hwritten]
        exact updateKey_keeps hids (fun _ => rfl) fun _ _ _ _ => rfl

/-- An operation that meets the condition leaves rows that fit. -/
theorem perform_companions (hids : (outages.map OutageRow.id).Nodup) (hold : ∀ o ∈ outages, Companions o)
    (hfits : OperationFits parser outages op) (h : perform parser outages op = some outages') :
    ∀ o ∈ outages', Companions o := by
  cases op with
  | create p fault =>
      obtain rfl := Option.some.inj h
      exact (createOrGetExisting_grows fault p hids).companions hfits hold
  | bulkCreate ps fault =>
      obtain rfl := Option.some.inj h
      exact (bulkCreate_grows fault ps 0 hids).companions hfits hold
  | importOutages rows isDryRun consistency db financial =>
      dsimp only [perform] at h
      split at h
      · rename_i hfinancial
        obtain rfl := Option.some.inj h
        have hgrows := importOutages_grows parser rows isDryRun consistency db hfinancial hids
        exact hgrows.companions hfits hold
      · cases h
  | update id u commitFails =>
      obtain rfl := Option.some.inj h
      rcases updateOutage_eq commitFails id u outages with
        hsame | ⟨o, ho, hid, hvalid, hnulled, hsendable, hcommit, hwritten⟩
      · rwa [hsame]
      · rw [hwritten]
        refine companions_updateKey hold fun o' ho' hid' => ?_
        obtain rfl : o' = o := List.inj_on_of_nodup_map hids ho' ho (hid'.trans hid.symm)
        exact companions_apply (hold o' ho') (hfits hcommit hnulled hsendable o' ho' hid') hvalid
  | resolve id mttr now =>
      obtain rfl := Option.some.inj h
      rcases resolve_eq id mttr now outages with hsame | ⟨o, ho, hid, hreplay, hinteger, hwritten⟩
      · rwa [hsame]
      · rw [hwritten]
        refine companions_updateKey hold fun o' ho' hid' => ?_
        obtain rfl : o' = o := List.inj_on_of_nodup_map hids ho' ho (hid'.trans hid.symm)
        rcases hfits hinteger o' ho' hid' with hsame | hclock
        · exact absurd hsame hreplay
        · exact companions_resolve hclock

/-- In every run whose operations meet the condition, an outage once resolved is never open again, and the
companions of every outage fit its status. The first part holds of every run. -/
theorem lifecycle_of_fits (parser : RowParser ρ) (ops : List (Operation ρ))
    (hfits : Guarded (perform parser) (OperationFits parser) [] ops) : Lifecycle parser ops := by
  have hempty : (([] : List OutageRow).map OutageRow.id).Nodup := List.nodup_nil
  constructor
  · rintro as outages ⟨rest, rfl⟩ hrun
    have hstep : ∀ s (op : Operation ρ) s',
        ((s.map OutageRow.id).Nodup ∧ ∀ o ∈ s, Companions o) → OperationFits parser s op →
        perform parser s op = some s' → (s'.map OutageRow.id).Nodup ∧ ∀ o ∈ s', Companions o :=
      fun s op s' hs hop h => ⟨(perform_keeps hs.1 h).1, perform_companions hs.1 hs.2 hop h⟩
    exact (run_invariant_of_guarded hstep ⟨hempty, fun o ho => absurd ho List.not_mem_nil⟩
      (guarded_append_iff.mp hfits).1 hrun).2
  · rintro as bs before after - hbefore hafter o ho hresolved o' ho' hid
    have hnodup : ∀ s (op : Operation ρ) s', (s.map OutageRow.id).Nodup → perform parser s op = some s' →
        (s'.map OutageRow.id).Nodup := fun s op s' hs h => (perform_keeps hs h).1
    have hkeeps : ∀ s (op : Operation ρ) s', ((s.map OutageRow.id).Nodup ∧ Kept before s) →
        perform parser s op = some s' → (s'.map OutageRow.id).Nodup ∧ Kept before s' := by
      intro s op s' hs h
      obtain ⟨hids, hkept⟩ := perform_keeps hs.1 h
      exact ⟨hids, hs.2.trans hkept⟩
    have hids : (before.map OutageRow.id).Nodup := run_invariant hnodup hempty hbefore
    obtain ⟨hids', hkept⟩ := run_invariant hkeeps ⟨hids, .refl before⟩ hafter
    obtain ⟨o'', ho'', hid'', hstatus⟩ := hkept o ho hresolved
    rwa [List.inj_on_of_nodup_map hids' ho' ho'' (hid.trans hid''.symm)]

end Runs

/-- An outage that is created open and resolved at the time of its detection. -/
theorem lifecycle_resolved : Lifecycle payloadParser
    [.create fiberCut none, .resolve "OUT001" 45 fiberCut.detectedAt] := by
  refine lifecycle_of_fits payloadParser _ ⟨fun _ _ _ => rfl, ?_⟩
  intro outages houtages
  obtain rfl : [fiberCut.toRow] = outages := Option.some.inj houtages
  refine ⟨fun _ o ho _ => .inr ?_, fun _ _ => trivial⟩
  rw [List.mem_singleton.mp ho]
  exact Int.le_refl _

/-- A `PATCH` of the status alone. -/
def patchResolved : OutageUpdate :=
  ⟨none, none, some (some .resolved), none, none, none, none, none, none, none⟩

/-- It leaves a resolved outage without `resolved_at` and `mttr_minutes`. -/
theorem resolved_without_companions :
    run (perform payloadParser) [] [.create fiberCut none, .update "OUT001" patchResolved false] =
        some [{ fiberCut.toRow with status := "resolved" }] ∧
      ¬ Lifecycle payloadParser [.create fiberCut none, .update "OUT001" patchResolved false] := by
  have hrun : run (perform payloadParser) [] [.create fiberCut none, .update "OUT001" patchResolved false] =
      some [{ fiberCut.toRow with status := "resolved" }] := by decide
  refine ⟨hrun, fun h => ?_⟩
  obtain ⟨-, t, hat, -⟩ := (h.companions _ _ (List.prefix_refl _) hrun _ (List.mem_singleton_self _)).resolved rfl
  cases hat

end ApexChainx.Import
