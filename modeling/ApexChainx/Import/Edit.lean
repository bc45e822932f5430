import ApexChainx.Import.Atomic
import ApexChainx.Import.Export
import ApexChainx.Lib.Transition

/-!
# The table of outages over time

What `create`, `PUT`, `PATCH` and `resolve` do to whole rows. An update checks the transition of the status
and nothing else: what `OutageCreate` asks of a name, a description, the services and the subscribers is not
asked again. Every row keeps an id, texts without a NUL, a known severity and status, and a time of detection
that was not in the future.
-/

namespace ApexChainx.Import

open ApexChainx.Lib ApexChainx.Sla ApexChainx.Settlement

/-- `ALLOWED_STATUS_TRANSITIONS.get(current_status, set())`, on the stored texts. -/
def allowedTransitions (current : String) : List String :=
  if current = OutageStatus.open.value then (allowedStatusTransitions .open).map OutageStatus.value
  else if current = OutageStatus.resolved.value then
    (allowedStatusTransitions .resolved).map OutageStatus.value
  else []

/-- `validate_status_transition`: the error it raises, if any. -/
def validateTransition (current next : String) : Option ApiError :=
  if next ∈ allowedTransitions current then none
  else some (.valueError ("Invalid status transition: " ++ current ++ " -> " ++ next))

/-- `OutageUpdate`, `exclude_unset`: each field is absent, null or a value. -/
structure OutageUpdate where
  siteName : Option (Option String)
  severity : Option (Option Severity)
  status : Option (Option OutageStatus)
  resolvedAt : Option (Option DateTime)
  description : Option (Option String)
  affectedServices : Option (Option (List String))
  affectedSubscribers : Option (Option ℤ)
  assignedTo : Option (Option String)
  createdBy : Option (Option String)
  location : Option (Option Location)
deriving DecidableEq, Repr

/-- The first `NOT NULL` column that is set to null. -/
def OutageUpdate.nulled (u : OutageUpdate) : Option String :=
  if u.siteName = some none then some "site_name"
  else if u.severity = some none then some "severity"
  else if u.status = some none then some "status"
  else if u.description = some none then some "description"
  else if u.affectedServices = some none then some "affected_services"
  else none

/-- The texts that are written. -/
def OutageUpdate.texts (u : OutageUpdate) : List String :=
  [u.siteName.join, u.description.join, u.assignedTo.join, u.createdBy.join].reduceOption ++
    u.affectedServices.join.getD []

/-- The row after `setattr` of every field that was set. -/
def OutageUpdate.apply (u : OutageUpdate) (o : OutageRow) : OutageRow :=
  { o with
    siteName := u.siteName.join.getD o.siteName
    severity := (u.severity.join.map Severity.value).getD o.severity
    status := (u.status.join.map OutageStatus.value).getD o.status
    resolvedAt := u.resolvedAt.getD o.resolvedAt
    description := u.description.join.getD o.description
    affectedServices := u.affectedServices.join.getD o.affectedServices
    affectedSubscribers := u.affectedSubscribers.getD o.affectedSubscribers
    assignedTo := u.assignedTo.getD o.assignedTo
    createdBy := u.createdBy.getD o.createdBy
    location := u.location.getD o.location }

/-- `update_outage` and `patch_outage`: both are `OutageRepository.update`. -/
def updateOutage (commitFails : Bool) (id : String) (u : OutageUpdate) (outages : List OutageRow) :
    Outcome OutageRow × List OutageRow :=
  match outages.find? (·.id = id) with
  | none => (.error (.http 404 "Outage not found"), outages)
  | some o =>
      match u.status.join.bind fun next => validateTransition o.status next.value with
      | some e => (.error (.http 400 e.detail), outages)
      | none =>
          if ¬ Sendable u.texts then (.error (.http 400 ApiError.nulLiteral.detail), outages)
          else
            match u.nulled with
            | some column => (.error (.integrityError column), outages)
            | none =>
                if commitFails then (.error Fault.commit.error, outages)
                else (.ok (u.apply o), updateKey OutageRow.id id u.apply outages)

/-- What `resolve` writes, with what the SLA computation after it denormalises, if it gets that far. -/
def OutageRow.resolve (mttr : ℤ) (now : DateTime) (sla : Option SLAStatus) (o : OutageRow) : OutageRow :=
  { o with
    status := OutageStatus.resolved.value
    mttrMinutes := some mttr
    resolvedAt := some now
    slaStatus := sla.or o.slaStatus }

/-- `OutageRepository.resolve`; `ok none` when there is no such outage. -/
def resolve (id : String) (mttr : ℤ) (now : DateTime) (sla : Option SLAStatus) (outages : List OutageRow) :
    Outcome (Option OutageRow) × List OutageRow :=
  match outages.find? (·.id = id) with
  | none => (.ok none, outages)
  | some o =>
      if o.status = OutageStatus.resolved.value ∧ o.mttrMinutes = some mttr then (.ok (some o), outages)
      else
        match validateTransition o.status OutageStatus.resolved.value with
        | some e => (.error e, outages)
        | none =>
            if !fitsInteger mttr then (.error (.dataError "mttr_minutes"), outages)
            else
              (.ok (some (o.resolve mttr now sla)), updateKey OutageRow.id id (.resolve mttr now sla) outages)

/-- `resolve_outage`. The model `Outage` declares no `mttr_minutes`, so the comparison that should recognise
a replay raises on every resolved outage, and `resolve` is left to the open ones. -/
def resolveOutage (id : String) (mttr : ℤ) (now : DateTime) (sla : Option SLAStatus)
    (outages : List OutageRow) : Outcome OutageRow × List OutageRow :=
  let body : Outcome OutageRow × List OutageRow :=
    if outages.any fun o => o.id = id ∧ o.status = OutageStatus.resolved.value then
      (.error (.attributeError "Outage" "mttr_minutes"), outages)
    else
      match resolve id mttr now sla outages with
      | (.error e, outages') => (.error (.http 400 e.detail), outages')
      | (.ok none, outages') => (.error (.http 404 "Outage not found"), outages')
      | (.ok (some o), outages') => (.ok o, outages')
  (body.1.locked, body.2)

/-! ## Runs -/

/-- The table, and the clock with the tolerance that `OutageCreate` allows. -/
structure World where
  outages : List OutageRow
  maxDetectedAt : DateTime

/-- The requests; what the database, the clock and the SLA computation contribute is part of them. -/
inductive Action
  | create (body : Row) (fault : Option Fault)
  | update (id : String) (u : OutageUpdate) (commitFails : Bool)
  | resolve (id : String) (mttr : ℤ) (now : DateTime) (sla : Option SLAStatus)
  | tick (maxDetectedAt : DateTime)

/-- `create_outage`, on a body that may be refused. -/
def createOutage (codec : Codec) (body : Row) (fault : Option Fault) (w : World) : List OutageRow :=
  match outageCreate codec w.maxDetectedAt body with
  | .error _ => w.outages
  | .ok p => (createOrGetExisting fault p w.outages).2

def step (codec : Codec) (w : World) : Action → Option World
  | .create body fault => some { w with outages := createOutage codec body fault w }
  | .update id u commitFails => some { w with outages := (updateOutage commitFails id u w.outages).2 }
  | .resolve id mttr now sla => some { w with outages := (resolveOutage id mttr now sla w.outages).2 }
  | .tick maxDetectedAt =>
      if w.maxDetectedAt.ticks ≤ maxDetectedAt.ticks then some { w with maxDetectedAt := maxDetectedAt }
      else none

/-! ## What every stored row keeps -/

/-- What the lookups are given for a payload with the content of the row. -/
def OutageRow.texts (o : OutageRow) : List String := [o.id, o.siteName, o.description, o.siteId.getD ""]

structure Stored (maxDetectedAt : DateTime) (o : OutageRow) : Prop where
  id : o.id ≠ ""
  sendable : Sendable o.texts
  severity : ∃ s : Severity, s.value = o.severity
  status : ∃ s : OutageStatus, s.value = o.status
  detectedAt : o.detectedAt.ticks ≤ maxDetectedAt.ticks

structure Inv (w : World) : Prop where
  ids : (w.outages.map OutageRow.id).Nodup
  stored : ∀ o ∈ w.outages, Stored w.maxDetectedAt o

variable {codec : Codec} {w w' : World}

theorem stored_toRow {maxDetectedAt : DateTime} {body : Row} {p : OutageCreate}
    (h : outageCreate codec maxDetectedAt body = .ok p) (hsendable : Sendable p.texts) :
    Stored maxDetectedAt p.toRow := by
  obtain ⟨hid, -, -, -, -, hdetectedAt, -⟩ := checkFields_eq_ok.mp (outageCreate_eq_ok.mp h)
  obtain ⟨_, -, hid⟩ := required_eq_ok.mp hid
  obtain ⟨_, -, htime⟩ := required_eq_ok.mp hdetectedAt
  refine ⟨(nonemptyText_eq_ok.mp hid).2, hsendable, ⟨p.severity, rfl⟩, ⟨p.status, rfl⟩, ?_⟩
  unfold detectedAt at htime
  split at htime
  · split at htime
    · cases htime
    · rename_i hle
      obtain rfl := Checked.ok.inj htime
      exact Int.not_lt.mp hle
  · cases htime

/-- A text of the row is kept, or replaced by one that is written. -/
theorem sendable_apply {o : OutageRow} {u : OutageUpdate} (hold : Sendable o.texts) (hnew : Sendable u.texts) :
    Sendable (u.apply o).texts := by
  have hwritten : ∀ {text s}, text ∈ [u.siteName.join, u.description.join, u.assignedTo.join, u.createdBy.join] →
      text = some s → '\x00' ∉ s.toList := by
    rintro text s htext rfl
    exact hnew s (List.mem_append_left _ (List.reduceOption_mem_iff.mpr htext))
  have hkept : ∀ {text : Option String} {s}, (∀ s, text = some s → '\x00' ∉ s.toList) → s ∈ o.texts →
      '\x00' ∉ (text.getD s).toList := by
    intro text s htext hs
    cases text with
    | none => exact hold s hs
    | some s' => exact htext s' rfl
  intro s hs
  simp only [OutageRow.texts, OutageUpdate.apply, List.mem_cons, List.not_mem_nil, or_false] at hs
  rcases hs with rfl | rfl | rfl | rfl
  · exact hold _ (by simp [OutageRow.texts])
  · exact hkept (fun _ => hwritten (by simp)) (by simp [OutageRow.texts])
  · exact hkept (fun _ => hwritten (by simp)) (by simp [OutageRow.texts])
  · exact hold _ (by simp [OutageRow.texts])

theorem stored_apply {maxDetectedAt : DateTime} {o : OutageRow} {u : OutageUpdate} (hu : Sendable u.texts)
    (h : Stored maxDetectedAt o) : Stored maxDetectedAt (u.apply o) := by
  refine ⟨h.id, sendable_apply h.sendable hu, ?_, ?_, h.detectedAt⟩
  · unfold OutageUpdate.apply
    cases u.severity.join with
    | none => exact h.severity
    | some s => exact ⟨s, rfl⟩
  · unfold OutageUpdate.apply
    cases u.status.join with
    | none => exact h.status
    | some s => exact ⟨s, rfl⟩

theorem stored_resolve {maxDetectedAt : DateTime} {o : OutageRow} (mttr : ℤ) (now : DateTime)
    (sla : Option SLAStatus) (h : Stored maxDetectedAt o) : Stored maxDetectedAt (o.resolve mttr now sla) :=
  ⟨h.id, h.sendable, h.severity, ⟨.resolved, rfl⟩, h.detectedAt⟩

theorem updateOutage_cases (commitFails : Bool) (id : String) (u : OutageUpdate) (outages : List OutageRow) :
    (updateOutage commitFails id u outages).2 = outages ∨ Sendable u.texts ∧
      (updateOutage commitFails id u outages).2 = updateKey OutageRow.id id u.apply outages := by
  unfold updateOutage
  repeat' split
  all_goals first
    | exact .inl rfl
    | exact .inr ⟨not_not.mp ‹_›, rfl⟩

theorem resolve_cases (id : String) (mttr : ℤ) (now : DateTime) (sla : Option SLAStatus)
    (outages : List OutageRow) :
    (resolve id mttr now sla outages).2 = outages ∨
      (resolve id mttr now sla outages).2 = updateKey OutageRow.id id (.resolve mttr now sla) outages := by
  unfold resolve
  repeat' split
  all_goals first
    | exact .inl rfl
    | exact .inr rfl

theorem resolveOutage_cases (id : String) (mttr : ℤ) (now : DateTime) (sla : Option SLAStatus)
    (outages : List OutageRow) :
    (resolveOutage id mttr now sla outages).2 = outages ∨
      (resolveOutage id mttr now sla outages).2 = updateKey OutageRow.id id (.resolve mttr now sla) outages := by
  unfold resolveOutage
  dsimp only
  split
  · exact .inl rfl
  · have hcases := resolve_cases id mttr now sla outages
    split <;> simpa only [*] using hcases

/-- A rewrite of the rows under one id that keeps their ids and what they keep. -/
theorem inv_updateKey {id : String} {g : OutageRow → OutageRow} (hw : Inv w) (hid : ∀ o, (g o).id = o.id)
    (hg : ∀ o, Stored w.maxDetectedAt o → Stored w.maxDetectedAt (g o)) :
    Inv { w with outages := updateKey OutageRow.id id g w.outages } := by
  refine ⟨?_, ?_⟩
  · dsimp only
    rw [map_key_updateKey hid]
    exact hw.ids
  · intro o ho
    obtain hold | ⟨o', ho', -, rfl⟩ := mem_updateKey ho
    · exact hw.stored o hold
    · exact hg o' (hw.stored o' ho')

theorem inv_createOutage (body : Row) (fault : Option Fault) (hw : Inv w) :
    Inv { w with outages := createOutage codec body fault w } := by
  unfold createOutage
  split
  · exact hw
  · rename_i p hbody
    obtain ⟨e, hstep, -⟩ | ⟨existing, hstep, -⟩ | ⟨hstep, hnew, -⟩ | ⟨hstep, hnew, -⟩ :=
      createOrGetExisting_cases fault p w.outages
    · rw [hstep]
      exact hw
    · rw [hstep]
      exact hw
    all_goals
      rw [hstep]
      refine ⟨nodup_append_toRow hw.ids hnew, ?_⟩
      intro o ho
      rcases List.mem_append.mp ho with hold | hadded
      · exact hw.stored o hold
      · rw [List.mem_singleton.mp hadded]
        exact stored_toRow hbody (checkDuplicate_eq_none.mp hnew).2.2

theorem inv_step {a : Action} (hw : Inv w) (h : step codec w a = some w') : Inv w' := by
  cases a with
  | create body fault =>
      obtain rfl := Option.some.inj h
      exact inv_createOutage body fault hw
  | update id u commitFails =>
      obtain rfl := Option.some.inj h
      rcases updateOutage_cases commitFails id u w.outages with hsame | ⟨hsendable, hwritten⟩
      · rw [hsame]
        exact hw
      · rw [hwritten]
        exact inv_updateKey hw (fun _ => rfl) fun _ => stored_apply hsendable
  | resolve id mttr now sla =>
      obtain rfl := Option.some.inj h
      rcases resolveOutage_cases id mttr now sla w.outages with hsame | hwritten
      · rw [hsame]
        exact hw
      · rw [hwritten]
        exact inv_updateKey hw (fun _ => rfl) fun _ => stored_resolve mttr now sla
  | tick maxDetectedAt =>
      dsimp only [step] at h
      split at h
      · rename_i hle
        obtain rfl := Option.some.inj h
        refine ⟨hw.ids, ?_⟩
        intro o ho
        have hold := hw.stored o ho
        exact ⟨hold.id, hold.sendable, hold.severity, hold.status, hold.detectedAt.trans hle⟩
      · cases h

/-- What every stored row keeps holds after every run from an empty table. -/
theorem inv_run {start : DateTime} {actions : List Action} (h : run (step codec) ⟨[], start⟩ actions = some w) :
    Inv w := by
  have hinit : Inv ⟨[], start⟩ := ⟨List.nodup_nil, by simp⟩
  exact run_invariant (fun _ _ _ => inv_step) hinit h

end ApexChainx.Import
