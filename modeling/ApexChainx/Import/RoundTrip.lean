import Mathlib.Data.List.Perm.Basic
import ApexChainx.Import.Edit

/-!
# Importing what was exported

The export of a table, imported into an empty one. The rows come in the order in which the database returns
them. Every row has to be accepted and none may be taken for a duplicate of a row before it.
-/

namespace ApexChainx.Import

open ApexChainx.Lib

/-- The content that a round trip is to keep. -/
structure SameContent (o' o : OutageRow) : Prop where
  siteName : o'.siteName = o.siteName
  siteId : o'.siteId = o.siteId
  severity : o'.severity = o.severity
  status : o'.status = o.status
  detectedAt : o'.detectedAt = o.detectedAt
  description : o'.description = o.description
  affectedServices : o'.affectedServices = o.affectedServices
  affectedSubscribers : o'.affectedSubscribers = o.affectedSubscribers
  assignedTo : o'.assignedTo = o.assignedTo
  createdBy : o'.createdBy = o.createdBy
  location : o'.location = o.location

/-- The import succeeds and leaves the same outages. -/
structure RoundTrips (outages : List OutageRow)
    (answer : Outcome (List ImportRowResult) × List OutageRow) : Prop where
  succeeds : ∃ results, answer.1 = .ok results ∧ ∀ result ∈ results, result.ok = true
  ids : ∀ id, id ∈ answer.2.map OutageRow.id ↔ id ∈ outages.map OutageRow.id
  contents : ∀ o ∈ outages, ∀ o' ∈ answer.2, o'.id = o.id → SameContent o' o

/-- The import would take `o'` for the outage `o`. -/
def SameEvent (o o' : OutageRow) : Prop :=
  o.siteName = o'.siteName ∧ o.detectedAt = o'.detectedAt ∧ o.description = o'.description ∧
    (o'.siteId.getD "" = "" ∨ o.siteId = o'.siteId)

/-! ## The loop on fresh ids -/

/-- No payload matches a row of the table or one of the payloads before it. -/
def Apart (outages : List OutageRow) (ps : List OutageCreate) : Prop :=
  (∀ row ∈ outages, ∀ p ∈ ps, matchesTuple row p = false) ∧
    ps.Pairwise fun p q => matchesTuple p.toRow q = false

variable {outages outages' : List OutageRow} {p : OutageCreate} {ps : List OutageCreate}
  {persisted persisted' : List String} {created : List (OutageRow × Bool)}

theorem apart_cons : Apart outages (p :: ps) ↔
    (∀ row ∈ outages, matchesTuple row p = false) ∧ Apart (outages ++ [p.toRow]) ps := by
  unfold Apart
  rw [List.pairwise_cons]
  constructor
  · rintro ⟨hrows, hhead, htail⟩
    refine ⟨fun row hrow => hrows row hrow p List.mem_cons_self, ?_, htail⟩
    intro row hrow q hq
    rcases List.mem_append.mp hrow with hold | hnew
    · exact hrows row hold q (List.mem_cons_of_mem p hq)
    · rw [List.mem_singleton.mp hnew]
      exact hhead q hq
  · rintro ⟨hp, hrows, htail⟩
    refine ⟨?_, fun q hq => hrows p.toRow (by simp) q hq, htail⟩
    intro row hrow q hq
    rcases List.mem_cons.mp hq with rfl | hq
    · exact hp row hrow
    · exact hrows row (List.mem_append_left _ hrow) q hq

/-- Payloads that stand apart are all created. -/
theorem createRows_of_apart (i : ℕ) (persisted : List String) (hapart : Apart outages ps)
    (hsendable : ∀ p ∈ ps, Sendable p.texts) (hids : (outages.map OutageRow.id ++ ps.map OutageCreate.id).Nodup) :
    ∃ created persisted', createRows noFaults i ps outages persisted =
      (.ok created, outages ++ ps.map OutageCreate.toRow, persisted') := by
  induction ps generalizing i outages persisted with
  | nil => exact ⟨[], persisted, by simp [createRows, noFaults]⟩
  | cons p ps ih =>
      obtain ⟨hp, hrest⟩ := apart_cons.mp hapart
      obtain ⟨htexts, hsendable⟩ := List.forall_mem_cons.mp hsendable
      rw [List.map_cons, List.append_cons] at hids
      have hid : p.id ∉ outages.map OutageRow.id := by
        have hfront := (List.nodup_append.mp hids).1
        rw [← List.concat_eq_append, List.nodup_concat] at hfront
        exact hfront.1
      have hnew : checkDuplicate outages p = .ok none := checkDuplicate_eq_none.mpr ⟨hid, hp, htexts⟩
      have hstep : createOrGetExisting none p outages = (.ok (p.toRow, true), outages ++ [p.toRow]) := by
        rw [createOrGetExisting_noFault, hnew]
      obtain ⟨created, persisted', hloop⟩ := ih (i + 1) (persisted ++ [p.id]) hrest hsendable (by simpa using hids)
      refine ⟨(p.toRow, true) :: created, persisted', ?_⟩
      rw [createRows_cons hstep, if_pos rfl, id_toRow, hloop, List.map_cons, ← List.append_cons]
      rfl

/-- A loop that runs to its end has found the first payload in the table, or added it. -/
theorem createRows_cons_eq_ok {i : ℕ}
    (h : createRows noFaults i (p :: ps) outages persisted = (.ok created, outages', persisted')) :
    ∃ persisted₁ created₁,
      createRows noFaults (i + 1) ps outages persisted₁ = (.ok created₁, outages', persisted') ∨
      checkDuplicate outages p = .ok none ∧
        createRows noFaults (i + 1) ps (outages ++ [p.toRow]) persisted₁ = (.ok created₁, outages', persisted') := by
  have hrest : ∀ {c answer}, consCreated c answer = (.ok created, outages', persisted') →
      ∃ created₁, answer = (.ok created₁, outages', persisted') := by
    rintro c ⟨created₁ | e, table, ids⟩ hcons
    · obtain ⟨-, htable⟩ := Prod.mk.inj hcons
      exact ⟨created₁, congrArg _ htable⟩
    · cases hcons
  obtain ⟨e, hstep, -⟩ | ⟨existing, hstep, -⟩ | ⟨hstep, hnew, -⟩ | ⟨-, -, hfault⟩ :=
    createOrGetExisting_cases none p outages
  · rw [createRows_cons_error hstep] at h
    cases h
  · rw [createRows_cons hstep] at h
    obtain ⟨created₁, hloop⟩ := hrest h
    exact ⟨_, created₁, .inl hloop⟩
  · rw [createRows_cons hstep] at h
    obtain ⟨created₁, hloop⟩ := hrest h
    exact ⟨_, created₁, .inr ⟨hnew, hloop⟩⟩
  · cases hfault

/-- The loop adds no other ids than those of its payloads. -/
theorem ids_createRows {i : ℕ}
    (h : createRows noFaults i ps outages persisted = (.ok created, outages', persisted')) :
    ∀ id ∈ outages'.map OutageRow.id, id ∈ outages.map OutageRow.id ++ ps.map OutageCreate.id := by
  induction ps generalizing i outages persisted created with
  | nil =>
      have htable : outages = outages' := congrArg (·.2.1) h
      intro id hid
      rwa [List.map_nil, List.append_nil, htable]
  | cons p ps ih =>
      intro id hid
      obtain ⟨_, _, hloop | ⟨-, hloop⟩⟩ := createRows_cons_eq_ok h
      · have hmem := ih hloop id hid
        simp only [List.mem_append, List.map_cons, List.mem_cons] at hmem ⊢
        tauto
      · have hmem := ih hloop id hid
        simpa using hmem

/-- When every payload is there afterwards, each was created, and so they stand apart. -/
theorem apart_of_createRows {i : ℕ}
    (h : createRows noFaults i ps outages persisted = (.ok created, outages', persisted'))
    (hthere : ∀ p ∈ ps, p.id ∈ outages'.map OutageRow.id)
    (hids : (outages.map OutageRow.id ++ ps.map OutageCreate.id).Nodup) : Apart outages ps := by
  induction ps generalizing i outages persisted created with
  | nil => exact ⟨by simp, .nil⟩
  | cons p ps ih =>
      obtain ⟨hp, hrest⟩ := List.forall_mem_cons.mp hthere
      rw [List.map_cons] at hids
      obtain ⟨_, _, hloop | ⟨hnew, hloop⟩⟩ := createRows_cons_eq_ok h
      · have hid := (List.nodup_cons.mp (List.nodup_middle.mp hids)).1
        exact absurd (ids_createRows hloop p.id hp) hid
      · have hids' : ((outages ++ [p.toRow]).map OutageRow.id ++ ps.map OutageCreate.id).Nodup := by
          simpa using hids
        exact apart_cons.mpr ⟨(checkDuplicate_eq_none.mp hnew).2.1, ih hloop hrest hids'⟩

/-! ## The rows of the export -/

section Forall₂

variable {α β : Type*} {S : α → β → Prop} {as : List α} {bs : List β}

theorem forall_mem_iff_of_forall₂ {P : α → Prop} {Q : β → Prop} (hS : ∀ a b, S a b → (P a ↔ Q b))
    (h : List.Forall₂ S as bs) : (∀ a ∈ as, P a) ↔ ∀ b ∈ bs, Q b := by
  induction h with
  | nil => exact iff_of_true (by simp) (by simp)
  | cons hab _ ih => rw [List.forall_mem_cons, List.forall_mem_cons, ih, hS _ _ hab]

theorem pairwise_iff_of_forall₂ {R : α → α → Prop} {R' : β → β → Prop}
    (hS : ∀ a a' b b', S a b → S a' b' → (R a a' ↔ R' b b')) (h : List.Forall₂ S as bs) :
    as.Pairwise R ↔ bs.Pairwise R' := by
  induction h with
  | nil => exact iff_of_true .nil .nil
  | @cons a b as bs hab hrest ih =>
      rw [List.pairwise_cons, List.pairwise_cons, ih,
        forall_mem_iff_of_forall₂ (fun a' b' hab' => hS a a' b b' hab hab') hrest]

theorem exists_forall₂ (h : ∀ a ∈ as, ∃ b, S a b) : ∃ bs, List.Forall₂ S as bs := by
  induction as with
  | nil => exact ⟨[], .nil⟩
  | cons a as ih =>
      obtain ⟨⟨b, hb⟩, hrest⟩ := List.forall_mem_cons.mp h
      obtain ⟨bs, hbs⟩ := ih hrest
      exact ⟨b :: bs, .cons hb hbs⟩

theorem exists_mem_of_forall₂ (h : List.Forall₂ S as bs) {b : β} (hb : b ∈ bs) : ∃ a ∈ as, S a b := by
  induction h with
  | nil => cases hb
  | @cons a b' as bs hab _ ih =>
      rcases List.mem_cons.mp hb with rfl | hb
      · exact ⟨a, List.mem_cons_self, hab⟩
      · obtain ⟨a', ha', hS⟩ := ih hb
        exact ⟨a', List.mem_cons_of_mem a ha', hS⟩

end Forall₂

/-- A payload is taken for another one as its row is for the other row. -/
theorem matchesTuple_iff_sameEvent {o o' : OutageRow} {p p' : OutageCreate} (h : Carries p o)
    (h' : Carries p' o') : matchesTuple p.toRow p' = true ↔ SameEvent o o' := by
  unfold matchesTuple SameEvent
  rw [decide_eq_true_eq, ← h.siteName, ← h.siteId, ← h.detectedAt, ← h.description, ← h'.siteName,
    ← h'.siteId, ← h'.detectedAt, ← h'.description]
  rfl

theorem texts_of_carries {o : OutageRow} (h : Carries p o) : p.texts = o.texts := by
  unfold OutageCreate.texts OutageRow.texts
  rw [h.id, h.siteName, h.description, h.siteId]

theorem sameContent_toRow {o : OutageRow} (h : Carries p o) : SameContent p.toRow o where
  siteName := h.siteName
  siteId := h.siteId
  severity := h.severity
  status := h.status
  detectedAt := h.detectedAt
  description := h.description
  affectedServices := h.affectedServices
  affectedSubscribers := h.affectedSubscribers
  assignedTo := h.assignedTo
  createdBy := h.createdBy
  location := h.location

variable {codec : Codec} {maxDetectedAt : DateTime} {exported : List OutageRow}

theorem valid_json_iff (hstored : ∀ o ∈ exported, Stored maxDetectedAt o) :
    Valid (rowParser codec maxDetectedAt) (exportedRows codec .json exported) ps ↔
      List.Forall₂ (fun o p => Carries p o ∧ Creatable o) exported ps := by
  unfold Valid exportedRows
  rw [List.forall₂_map_left_iff]
  have hcongr : ∀ o p, Stored maxDetectedAt o ∧ outageCreate codec maxDetectedAt (serializeOutage codec o) = .ok p ↔
      Stored maxDetectedAt o ∧ Carries p o ∧ Creatable o := by
    intro o p
    apply and_congr_right
    intro ho
    exact outageCreate_serializeOutage ho.id ho.detectedAt
  have hread := List.forall₂_and_left (p := Stored maxDetectedAt)
    (R := fun o p => outageCreate codec maxDetectedAt (serializeOutage codec o) = .ok p) exported ps
  have hcarry := List.forall₂_and_left (p := Stored maxDetectedAt)
    (R := fun o p => Carries p o ∧ Creatable o) exported ps
  rw [and_iff_right hstored] at hread hcarry
  simp only [hcongr] at hread
  exact hread.symm.trans hcarry

/-- No row of a CSV file is valid. -/
theorem eq_nil_of_valid_csv (h : Valid (rowParser codec maxDetectedAt) (exportedRows codec .csv exported) ps) :
    exported = [] := by
  cases exported with
  | nil => rfl
  | cons o exported =>
      cases h with
      | cons hrow _ => exact absurd hrow outageCreate_csvRow

/-- A stored row that passes the checks is the row of a payload. -/
theorem exists_carries {o : OutageRow} (h : Stored maxDetectedAt o) : ∃ p, Carries p o := by
  obtain ⟨severity, hseverity⟩ := h.severity
  obtain ⟨status, hstatus⟩ := h.status
  exact ⟨⟨o.id, o.siteName, o.siteId, severity, status, o.detectedAt, o.description, o.affectedServices,
    o.affectedSubscribers, o.assignedTo, o.createdBy, o.location⟩, rfl, rfl, rfl, hseverity, hstatus, rfl, rfl,
    rfl, rfl, rfl, rfl, rfl⟩

/-! ## The round trip -/

variable {outages : List OutageRow}

/-- The ids of payloads that carry rows are those of the rows. -/
theorem ids_of_carries (h : List.Forall₂ (fun o p => Carries p o ∧ Creatable o) exported ps) :
    ps.map OutageCreate.id = exported.map OutageRow.id := by
  induction h with
  | nil => rfl
  | cons hcarries _ ih => rw [List.map_cons, List.map_cons, ih, hcarries.1.id]

theorem json_roundTrips_iff (hstored : ∀ o ∈ exported, Stored maxDetectedAt o)
    (hids : (exported.map OutageRow.id).Nodup) (hperm : exported.Perm outages) :
    RoundTrips outages (importAtomic (rowParser codec maxDetectedAt) noFaults []
        (exportedRows codec .json exported) []) ↔
      (∀ o ∈ exported, Creatable o) ∧ exported.Pairwise fun o o' => ¬ SameEvent o o' := by
  -- the rows of the file are told apart exactly as the outages that they carry
  have hapart : ∀ {ps}, List.Forall₂ (fun o p => Carries p o ∧ Creatable o) exported ps →
      ((exported.Pairwise fun o o' => ¬ SameEvent o o') ↔ Apart [] ps) := by
    intro ps hps
    unfold Apart
    rw [and_iff_right (by simp)]
    apply pairwise_iff_of_forall₂ _ hps
    intro o o' p p' hp hp'
    rw [← matchesTuple_iff_sameEvent hp.1 hp'.1, Bool.not_eq_true]
  constructor
  · intro h
    obtain ⟨results, hresults, hok⟩ := h.succeeds
    obtain ⟨ps, created, persisted, hvalid, hloop⟩ :=
      importAtomic_succeeds_iff.mp ⟨results, Prod.ext hresults rfl, hok⟩
    have hps := (valid_json_iff hstored).mp hvalid
    have hthere : ∀ p ∈ ps, p.id ∈ exported.map OutageRow.id := by
      intro p hp
      rw [← ids_of_carries hps]
      exact List.mem_map_of_mem hp
    refine ⟨?_, (hapart hps).mpr ?_⟩
    · exact (forall_mem_iff_of_forall₂ (fun o p h => iff_of_true h.2 trivial) hps).mpr fun _ _ => trivial
    · refine apart_of_createRows hloop ?_ ?_
      · intro p hp
        rw [h.ids, ← (hperm.map OutageRow.id).mem_iff]
        exact hthere p hp
      · rw [List.map_nil, List.nil_append, ids_of_carries hps]
        exact hids
  · rintro ⟨hcreatable, hpairwise⟩
    have hpayload : ∀ o ∈ exported, ∃ p, Carries p o ∧ Creatable o := by
      intro o ho
      obtain ⟨p, hp⟩ := exists_carries (hstored o ho)
      exact ⟨p, hp, hcreatable o ho⟩
    obtain ⟨ps, hps⟩ := exists_forall₂ hpayload
    have hfresh : (([] : List OutageRow).map OutageRow.id ++ ps.map OutageCreate.id).Nodup := by
      rw [List.map_nil, List.nil_append, ids_of_carries hps]
      exact hids
    have hsendable : ∀ p ∈ ps, Sendable p.texts := by
      intro p hp
      obtain ⟨o, ho, hcarries, -⟩ := exists_mem_of_forall₂ hps hp
      rw [texts_of_carries hcarries]
      exact (hstored o ho).sendable
    obtain ⟨created, persisted, hloop⟩ := createRows_of_apart 0 [] ((hapart hps).mp hpairwise) hsendable hfresh
    obtain ⟨results, himport, hok⟩ :=
      importAtomic_succeeds_iff.mpr ⟨ps, created, persisted, (valid_json_iff hstored).mpr hps, hloop⟩
    rw [himport, List.nil_append]
    refine ⟨⟨results, rfl, hok⟩, ?_, ?_⟩
    · intro id
      rw [List.map_map, ← (hperm.map OutageRow.id).mem_iff, ← ids_of_carries hps]
      exact Iff.rfl
    · intro o ho o' ho' hid
      obtain ⟨p, hp, rfl⟩ := List.mem_map.mp ho'
      obtain ⟨o₂, ho₂, hcarries, -⟩ := exists_mem_of_forall₂ hps hp
      have hsame : o₂ = o :=
        List.inj_on_of_nodup_map hids ho₂ (hperm.mem_iff.mpr ho) (hcarries.id.symm.trans hid)
      exact sameContent_toRow (hsame ▸ hcarries)

theorem csv_roundTrips_iff (hperm : exported.Perm outages) :
    RoundTrips outages (importAtomic (rowParser codec maxDetectedAt) noFaults []
        (exportedRows codec .csv exported) []) ↔ exported = [] := by
  constructor
  · intro h
    obtain ⟨results, hresults, hok⟩ := h.succeeds
    obtain ⟨ps, -, -, hvalid, -⟩ := importAtomic_succeeds_iff.mp ⟨results, Prod.ext hresults rfl, hok⟩
    exact eq_nil_of_valid_csv hvalid
  · rintro rfl
    rw [← hperm.nil_eq]
    exact ⟨⟨[], rfl, by simp⟩, fun _ => Iff.rfl, by simp⟩

/-- The export of a reachable table, imported into an empty one: a CSV file never gives anything back, a JSON
file does when every row passes the checks of a new outage and none is taken for one before it. -/
theorem roundTrip_iff (codec : Codec) {start : DateTime} {actions : List Action} {w : World}
    (hrun : run (step codec) ⟨[], start⟩ actions = some w) (format : ExportFormat) {exported : List OutageRow}
    (hperm : exported.Perm w.outages) :
    RoundTrips w.outages (importOutages (rowParser codec w.maxDetectedAt) noFaults [] false .atomic
        (exportedRows codec format exported) []) ↔
      exported = [] ∨ format = .json ∧ (∀ o ∈ exported, Creatable o) ∧
        exported.Pairwise fun o o' => ¬ SameEvent o o' := by
  have hinv := inv_run hrun
  have hstored : ∀ o ∈ exported, Stored w.maxDetectedAt o := by
    intro o ho
    exact hinv.stored o (hperm.mem_iff.mp ho)
  have hids : (exported.map OutageRow.id).Nodup := (hperm.map OutageRow.id).nodup_iff.mpr hinv.ids
  change RoundTrips w.outages (importAtomic (rowParser codec w.maxDetectedAt) noFaults []
    (exportedRows codec format exported) []) ↔ _
  cases format with
  | json =>
      rw [json_roundTrips_iff hstored hids hperm]
      constructor
      · intro h
        exact .inr ⟨rfl, h⟩
      · rintro (rfl | ⟨-, h⟩)
        · exact ⟨by simp, .nil⟩
        · exact h
  | csv =>
      rw [csv_roundTrips_iff hperm]
      constructor
      · exact .inl
      · rintro (h | ⟨h, -⟩)
        · exact h
        · cases h

/-- A payload is read back from the export of its row. -/
theorem outageCreate_toRow (codec : Codec) (h : Creatable p.toRow) (hid : p.id ≠ "") :
    outageCreate codec p.detectedAt (serializeOutage codec p.toRow) = .ok p :=
  (outageCreate_serializeOutage hid (Int.le_refl _)).mpr
    ⟨⟨rfl, rfl, rfl, rfl, rfl, rfl, rfl, rfl, rfl, rfl, rfl, rfl⟩, h⟩

/-- The table after one outage was created. -/
theorem run_fiberCut (codec : Codec) :
    run (step codec) ⟨[], fiberCut.detectedAt⟩ [.create (serializeOutage codec fiberCut.toRow) none] =
      some ⟨[fiberCut.toRow], fiberCut.detectedAt⟩ := by
  have hcreatable : Creatable fiberCut.toRow :=
    ⟨⟨by decide, by decide⟩, ⟨by decide, by decide⟩, ⟨by decide, by decide⟩, nofun⟩
  have hread := outageCreate_toRow codec hcreatable (by decide)
  dsimp only [run, step, createOutage]
  rw [hread]
  rfl

/-- An outage of another site, at the same time. -/
def otherSite : OutageCreate := { fiberCut with id := "OUT002", siteName := "Site B" }

theorem run_otherSite (codec : Codec) :
    run (step codec) ⟨[], fiberCut.detectedAt⟩ [.create (serializeOutage codec fiberCut.toRow) none,
        .create (serializeOutage codec otherSite.toRow) none] =
      some ⟨[fiberCut.toRow, otherSite.toRow], fiberCut.detectedAt⟩ := by
  have hcreatable : Creatable otherSite.toRow :=
    ⟨⟨by decide, by decide⟩, ⟨by decide, by decide⟩, ⟨by decide, by decide⟩, nofun⟩
  have hread : outageCreate codec fiberCut.detectedAt (serializeOutage codec otherSite.toRow) = .ok otherSite :=
    outageCreate_toRow codec hcreatable (by decide)
  have hcreate : createOrGetExisting none otherSite [fiberCut.toRow] =
      (.ok (otherSite.toRow, true), [fiberCut.toRow, otherSite.toRow]) := by decide
  refine run_append_eq_some.mpr ⟨_, run_fiberCut codec, ?_⟩
  dsimp only [run, step, createOutage]
  rw [hread]
  dsimp only
  rw [hcreate]
  rfl

theorem roundTrip_iff_fiberCut : ∃ w : World,
    run (step zuluCodec) ⟨[], fiberCut.detectedAt⟩ [.create (serializeOutage zuluCodec fiberCut.toRow) none,
        .create (serializeOutage zuluCodec otherSite.toRow) none] = some w ∧
    (RoundTrips w.outages (importOutages (rowParser zuluCodec w.maxDetectedAt) noFaults [] false .atomic
        (exportedRows zuluCodec .json [otherSite.toRow, fiberCut.toRow]) []) ↔
      [otherSite.toRow, fiberCut.toRow] = [] ∨ ExportFormat.json = .json ∧
        (∀ o ∈ [otherSite.toRow, fiberCut.toRow], Creatable o) ∧
        [otherSite.toRow, fiberCut.toRow].Pairwise fun o o' => ¬ SameEvent o o') :=
  ⟨_, run_otherSite zuluCodec, roundTrip_iff zuluCodec (run_otherSite zuluCodec) .json (List.Perm.swap _ _ _)⟩

/-- A table with one outage, exported as CSV: the import into an empty table does not succeed. -/
theorem csv_export_not_imported : ∃ w : World,
    run (step zuluCodec) ⟨[], fiberCut.detectedAt⟩ [.create (serializeOutage zuluCodec fiberCut.toRow) none] =
      some w ∧
    ¬ RoundTrips w.outages (importOutages (rowParser zuluCodec w.maxDetectedAt) noFaults [] false .atomic
      (exportedRows zuluCodec .csv w.outages) []) := by
  refine ⟨_, run_fiberCut zuluCodec, ?_⟩
  intro h
  change RoundTrips [fiberCut.toRow] (importAtomic (rowParser zuluCodec fiberCut.detectedAt) noFaults []
    (exportedRows zuluCodec .csv [fiberCut.toRow]) []) at h
  cases (csv_roundTrips_iff (List.Perm.refl _)).mp h

end ApexChainx.Import
