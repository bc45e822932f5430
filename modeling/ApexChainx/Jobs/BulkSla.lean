import ApexChainx.Jobs.Status
import ApexChainx.Lib.Fallible
import ApexChainx.Lib.Json
import ApexChainx.Sla.DeviceSla

/-!
# The bulk computation

`compute_bulk_sla` (`app/tasks/sla_tasks.py`) with the helpers of `DatabaseTask` that it calls, over the row of its
job. What `compute_device_sla` does for a device is given, and so is what the webhooks do; both leave the session
as it is, and the database does not fail.

SQLAlchemy writes a JSON attribute when it was assigned, with `json.dumps`; a dictionary that was changed in place
is not written. A commit whose flush has failed leaves a session that refuses every command until it is rolled
back, which the task never does. Nothing below needs that: `recovers` says whether the session takes commands
again. The progress columns and the times are left out, and the audit event of a retry.
-/

namespace ApexChainx.Jobs.BulkSla

open ApexChainx.Lib ApexChainx.Sla

variable {F : Type}

/-! ## Results -/

/-- An exception: whether it is an `ApexTransientError`, and its `str`. -/
structure TaskError where
  transient : Bool
  text : String
deriving DecidableEq, Repr

/-- The members of a stored JSON object. -/
abbrev Members := List (String × Json)

/-- What `compute_device_sla` hands back: the model, or the loose dict that the model replaced. -/
inductive DeviceResult (F : Type)
  | calculation (r : SLACalculationResult F)
  | dict (members : Members)

/-- `bool` of a JSON value. -/
def isTrue : Json → Bool
  | .null => false
  | .bool b => b
  | .num (.int n) => n ≠ 0
  | .num (.float f) => f.chars ≠ "0.0".toList && f.chars ≠ "-0.0".toList
  | .str s => s ≠ ""
  | .arr elems => !elems.isEmpty
  | .obj members => !members.isEmpty

/-- `result.get(key)`; a model has no such attribute. -/
def DeviceResult.get : DeviceResult F → String → Except TaskError (Option Json)
  | .calculation _, _ => .error ⟨false, "'SLACalculationResult' object has no attribute 'get'"⟩
  | .dict members, key => .ok ((members.find? (·.1 = key)).map Prod.snd)

/-- `json.dumps`, which refuses a model. -/
def DeviceResult.dumps : DeviceResult F → Option Members
  | .calculation _ => none
  | .dict members => some members

/-- A device of the list: what `compute_device_sla` does, and what the webhooks do if they are triggered. -/
structure Item (F : Type) where
  deviceId : String
  computed : Except TaskError (DeviceResult F)
  webhooks : Except TaskError Unit

/-- An entry of `results`. -/
inductive Entry (V : Type)
  | result (deviceId : String) (result : V)
  | error (deviceId : String) (error : String)

/-- `summary`. -/
structure Summary (V : Type) where
  total : ℕ
  violations : ℕ
  violatedDevices : List String
  processedCount : ℕ
  errorCount : ℕ
  results : List (Entry V)

def Entry.dumps : Entry (DeviceResult F) → Option (Entry Members)
  | .result deviceId value => value.dumps.map (Entry.result deviceId)
  | .error deviceId text => some (.error deviceId text)

def Summary.dumps (summary : Summary (DeviceResult F)) : Option (Summary Members) :=
  (summary.results.mapM Entry.dumps).map fun results => { summary with results := results }

/-! ## The job -/

/-- The row of the job. -/
structure BulkRow where
  status : JobStatus
  result : Option (Summary Members)
  error : Option String
  partialResults : Option (List (String × Members))
  perItemErrors : Option (List (String × String))

/-- The committed row, if the task has a job, and whether the session takes commands. -/
structure Session where
  row : Option BulkRow
  usable : Bool

/-- The session after a flush that failed: the texts of the errors, and whether it takes commands again. -/
structure Sqlalchemy where
  statementError : String
  pendingRollbackError : String
  recovers : Bool

/-- What a piece of the task does to the session, or the exception that it raises. -/
abbrev Command (α : Type) := Session → Except TaskError α × Session

def Command.andThen {α β : Type} (c : Command α) (k : α → Command β) : Command β := fun s =>
  match c s with
  | (.error e, s') => (.error e, s')
  | (.ok a, s') => k a s'

/-- A JSON attribute of the loaded job. -/
structure Attribute (V : Type) where
  value : List (String × V)
  assigned : Bool

/-- `if not job.attribute: job.attribute = {}`. -/
def Attribute.load {V W : Type} (ofStored : W → V) : Option (List (String × W)) → Attribute V
  | some (p :: members) => ⟨(p :: members).map fun q => (q.1, ofStored q.2), false⟩
  | _ => ⟨[], true⟩

/-- `job.attribute[key] = value`, in place. -/
def Attribute.setItem {V : Type} (a : Attribute V) (key : String) (value : V) : Attribute V :=
  if a.value.any (·.1 = key) then { a with value := a.value.map fun p => if p.1 = key then (key, value) else p }
  else { a with value := a.value ++ [(key, value)] }

/-- The column that a flush leaves, from the stored one; `none` if a value is refused. -/
def Attribute.flush {V W : Type} (dumps : V → Option W) (a : Attribute V) (stored : Option (List (String × W))) :
    Option (Option (List (String × W))) :=
  if a.assigned then (a.value.mapM fun p => (dumps p.2).map fun w => (p.1, w)).map some else some stored

section Helpers

variable (orm : Sqlalchemy)

/-- `_get_job`, then if there is a job, what `write` makes of it is committed; `none` is a flush that fails. -/
def withJob (write : BulkRow → Option BulkRow) : Command Unit := fun s =>
  if s.usable then
    match s.row with
    | none => (.ok (), s)
    | some job =>
        match write job with
        | some job' => (.ok (), { s with row := some job' })
        | none => (.error ⟨false, orm.statementError⟩, { s with usable := orm.recovers })
  else (.error ⟨false, orm.pendingRollbackError⟩, s)

/-- `_mark_started`. -/
def markStarted : Command Unit := withJob orm fun job => some { job with status := .started }

/-- `_mark_success`. -/
def markSuccess (result : Summary (DeviceResult F)) : Command Unit :=
  withJob orm fun job => result.dumps.map fun stored => { job with status := .success, result := some stored }

/-- `_mark_failure`. -/
def markFailure (error : String) : Command Unit :=
  withJob orm fun job => some { job with status := .failure, error := some error }

/-- `_update_progress`, whose columns are left out. -/
def updateProgress : Command Unit := withJob orm some

/-- `_log_retry`, whose audit event is left out. -/
def logRetry : Command Unit := withJob orm some

/-- `_add_partial_result`. -/
def addPartialResult (itemId : String) (result : DeviceResult F) : Command Unit :=
  withJob orm fun job =>
    let column := (Attribute.load DeviceResult.dict job.partialResults).setItem itemId result
    (column.flush DeviceResult.dumps job.partialResults).map fun stored => { job with partialResults := stored }

/-- `_add_item_error`. -/
def addItemError (itemId error : String) : Command Unit :=
  withJob orm fun job =>
    let column := (Attribute.load id job.perItemErrors).setItem itemId error
    (column.flush some job.perItemErrors).map fun stored => { job with perItemErrors := stored }

/-! ## The task -/

/-- `results`, `violations`, `processed_count` and `error_count`. -/
structure Tally (F : Type) where
  results : List (Entry (DeviceResult F))
  violations : List String
  processedCount : ℕ
  errorCount : ℕ

/-- The two `except` clauses of the loop, which do the same. -/
def itemFailed (deviceId : String) (t : Tally F) (e : TaskError) : Command (Tally F) :=
  let t' := { t with results := t.results ++ [Entry.error deviceId e.text] }
  (addItemError orm deviceId e.text).andThen fun _ s => (.ok { t' with errorCount := t'.errorCount + 1 }, s)

/-- The `try` of the loop: what it has appended stays when a later statement raises. -/
def computeItem (item : Item F) (t : Tally F) : Command (Tally F) := fun s =>
  match item.computed with
  | .error e => itemFailed orm item.deviceId t e s
  | .ok result =>
      let t := { t with results := t.results ++ [.result item.deviceId result] }
      match addPartialResult orm item.deviceId result s with
      | (.error e, s') => itemFailed orm item.deviceId t e s'
      | (.ok _, s') =>
          match result.get "is_violated" with
          | .error e => itemFailed orm item.deviceId t e s'
          | .ok isViolated =>
              if isViolated.any isTrue then
                let t := { t with violations := t.violations ++ [item.deviceId] }
                match item.webhooks with
                | .error e => itemFailed orm item.deviceId t e s'
                | .ok _ => (.ok { t with processedCount := t.processedCount + 1 }, s')
              else (.ok { t with processedCount := t.processedCount + 1 }, s')

/-- The loop over the devices. -/
def computeItems : List (Item F) → Tally F → Command (Tally F)
  | [], t => fun s => (.ok t, s)
  | item :: items, t =>
      (computeItem orm item t).andThen fun t' => (updateProgress orm).andThen fun _ => computeItems items t'

/-- The body of the outer `try`. -/
def computeBody (items : List (Item F)) : Command (Summary (DeviceResult F)) :=
  (markStarted orm).andThen fun _ =>
    (updateProgress orm).andThen fun _ =>
      (computeItems orm items ⟨[], [], 0, 0⟩).andThen fun t =>
        (updateProgress orm).andThen fun _ =>
          let summary : Summary (DeviceResult F) :=
            ⟨items.length, t.violations.length, t.violations, t.processedCount, t.errorCount, t.results⟩
          (markSuccess orm summary).andThen fun _ s => (.ok summary, s)

/-- The outer `except` clauses; `raise self.retry(exc=...)` raises whether or not a retry is left. -/
def taskFailed (retriesLeft : Bool) (e : TaskError) : Command (Summary (DeviceResult F)) :=
  if e.transient then fun s => (.error e, s)
  else
    (if retriesLeft then logRetry orm else fun s => (.ok (), s)).andThen fun _ =>
      (markFailure orm e.text).andThen fun _ s =>
        (Except.error ⟨true, "Bulk SLA computation failed: " ++ e.text⟩, s)

/-- `compute_bulk_sla`. -/
def computeBulkSla (retriesLeft : Bool) (items : List (Item F)) : Command (Summary (DeviceResult F)) := fun s =>
  match computeBody orm items s with
  | (.ok summary, s') => (.ok summary, s')
  | (.error e, s') => taskFailed orm retriesLeft e s'

end Helpers

/-! ## What is asked of a task that completes -/

/-- `compute_device_sla` raised. -/
def Item.Raises (item : Item F) : Prop := ∃ e, item.computed = .error e

/-- A result is a `SLACalculationResult`, as `compute_device_sla` declares. -/
def Item.Typed (item : Item F) : Prop := ∀ result, item.computed = .ok result → ∃ r, result = .calculation r

/-- The entry of a device: the result, or the error. -/
def Item.entry (item : Item F) : Entry (DeviceResult F) :=
  match item.computed with
  | .ok result => .result item.deviceId result
  | .error e => .error item.deviceId e.text

def DeviceResult.isViolated : DeviceResult F → Bool
  | .calculation r => r.isViolated
  | .dict members => ((members.find? (·.1 = "is_violated")).map Prod.snd).any isTrue

/-- The keys of a stored dictionary. -/
def storedKeys {V : Type} (column : Option (List (String × V))) : List String :=
  (column.getD []).map Prod.fst

/-- One entry for each position, counts that add up, the devices with a violated result, and in the job, if there
is one, an entry for every device. -/
structure Reported (items : List (Item F)) (summary : Summary (DeviceResult F)) (row : Option BulkRow) :
    Prop where
  total : summary.total = items.length
  entries : summary.results = items.map Item.entry
  counts : summary.processedCount + summary.errorCount = summary.total
  violated : ∀ deviceId, deviceId ∈ summary.violatedDevices ↔
    ∃ item ∈ items, item.deviceId = deviceId ∧ ∃ result, item.computed = .ok result ∧ result.isViolated = true
  stored : ∀ job, row = some job → ∀ item ∈ items,
    item.deviceId ∈ storedKeys job.partialResults ∨ item.deviceId ∈ storedKeys job.perItemErrors

/-- Without a job every device raises. With a job some device has a result, and the task does not complete; or each
device has an entry from before, or is the first one while no errors were stored. -/
def Accounted (row : Option BulkRow) (items : List (Item F)) : Prop :=
  match row with
  | none => ∀ item ∈ items, item.Raises
  | some job =>
      (∃ item ∈ items, ¬ item.Raises) ∨
        ∀ item ∈ items, item.deviceId ∈ storedKeys job.partialResults ∨
          if storedKeys job.perItemErrors = [] then items.head?.map Item.deviceId = some item.deviceId
          else item.deviceId ∈ storedKeys job.perItemErrors

variable {orm : Sqlalchemy} {row : Option BulkRow} {items : List (Item F)} {t t' : Tally F} {s s' : Session}

/-! ## Commands -/

theorem andThen_ok {α β : Type} {c : Command α} {a : α} (h : c s = (.ok a, s')) (k : α → Command β) :
    c.andThen k s = k a s' := by
  rw [Command.andThen, h]

theorem exists_of_andThen {α β : Type} {c : Command α} {k : α → Command β} {b : β}
    (h : c.andThen k s = (.ok b, s')) : ∃ a s₁, c s = (.ok a, s₁) ∧ k a s₁ = (.ok b, s') := by
  unfold Command.andThen at h
  split at h
  · exact absurd (Prod.mk.inj h).1 nofun
  · rename_i a s₁ hc
    exact ⟨a, s₁, hc, h⟩

/-- A write that is not refused. -/
theorem withJob_ok {write : BulkRow → Option BulkRow} {f : BulkRow → BulkRow}
    (h : ∀ job, row = some job → write job = some (f job)) :
    withJob orm write ⟨row, true⟩ = (.ok (), ⟨row.map f, true⟩) := by
  cases row with
  | none => rfl
  | some job => simp only [withJob, if_true, h job rfl, Option.map_some]

/-- The job does not go away. -/
theorem isSome_withJob {write : BulkRow → Option BulkRow} (h : s.row.isSome) :
    (withJob orm write s).2.row.isSome := by
  unfold withJob
  split
  · split
    · exact h
    · split
      · rfl
      · exact h
  · exact h

theorem isSome_of_withJob {write : BulkRow → Option BulkRow} {outcome : Except TaskError Unit}
    (h : withJob orm write s = (outcome, s')) (hrow : s.row.isSome) : s'.row.isSome := by
  have hkept : (withJob orm write s).2.row.isSome := isSome_withJob hrow
  rwa [h] at hkept

theorem updateProgress_ok : updateProgress orm ⟨row, true⟩ = (.ok (), ⟨row, true⟩) := by
  refine (withJob_ok (f := id) fun _ _ => rfl).trans ?_
  rw [Option.map_id]
  rfl

theorem setItem_assigned {V : Type} (a : Attribute V) (key : String) (value : V) :
    (a.setItem key value).assigned = a.assigned := by
  unfold Attribute.setItem
  split <;> rfl

/-- The errors that `_add_item_error` leaves stored: the first one, for in a loaded dictionary the next ones are
changed in place. -/
def withError (stored : Option (List (String × String))) (deviceId text : String) :
    Option (List (String × String)) :=
  match stored with
  | some (p :: members) => some (p :: members)
  | _ => some [(deviceId, text)]

/-- The job after `_add_item_error`. -/
def BulkRow.withError (job : BulkRow) (deviceId text : String) : BulkRow :=
  { job with perItemErrors := BulkSla.withError job.perItemErrors deviceId text }

theorem addItemError_ok (deviceId text : String) :
    addItemError orm deviceId text ⟨row, true⟩ = (.ok (), ⟨row.map (·.withError deviceId text), true⟩) := by
  refine withJob_ok fun job _ => ?_
  have hloaded : ∀ stored : Option (List (String × String)),
      ((Attribute.load id stored).setItem deviceId text).flush some stored =
        some (withError stored deviceId text) := by
    intro stored
    match stored with
    | none => rfl
    | some [] => rfl
    | some (p :: members) =>
        have hassigned := setItem_assigned (Attribute.load id (some (p :: members))) deviceId text
        rw [Attribute.flush, hassigned]
        rfl
  dsimp only
  rw [hloaded, Option.map_some]
  rfl

/-! ## A device that raises, and a device without a job -/

theorem itemFailed_ok (deviceId : String) (t : Tally F) (e : TaskError) :
    itemFailed orm deviceId t e ⟨row, true⟩ =
      (.ok { t with results := t.results ++ [.error deviceId e.text], errorCount := t.errorCount + 1 },
        ⟨row.map (·.withError deviceId e.text), true⟩) :=
  andThen_ok (addItemError_ok deviceId e.text) _

/-- The text of the exception, if there is one. -/
def Item.text (item : Item F) : String :=
  match item.computed with
  | .ok _ => ""
  | .error e => e.text

theorem computeItem_raises {item : Item F} (h : item.Raises) (t : Tally F) :
    computeItem orm item t ⟨row, true⟩ =
      (.ok { t with results := t.results ++ [item.entry], errorCount := t.errorCount + 1 },
        ⟨row.map (·.withError item.deviceId item.text), true⟩) := by
  obtain ⟨e, he⟩ := h
  rw [computeItem, he, Item.entry, Item.text, he]
  exact itemFailed_ok item.deviceId t e

/-- The entries that a device leaves when there is no job: its result, and the exception of `result.get`. -/
def Item.entriesLeft (item : Item F) : List (Entry (DeviceResult F)) :=
  match item.computed with
  | .ok result => [.result item.deviceId result,
      .error item.deviceId "'SLACalculationResult' object has no attribute 'get'"]
  | .error e => [.error item.deviceId e.text]

theorem computeItem_noJob {item : Item F} (h : item.Typed) (t : Tally F) :
    computeItem orm item t ⟨none, true⟩ =
      (.ok { t with results := t.results ++ item.entriesLeft, errorCount := t.errorCount + 1 }, ⟨none, true⟩) := by
  unfold computeItem
  split
  · rename_i e he
    rw [Item.entriesLeft, he]
    exact itemFailed_ok item.deviceId t e
  · rename_i result hresult
    obtain ⟨r, rfl⟩ := h result hresult
    rw [Item.entriesLeft, hresult]
    refine (itemFailed_ok item.deviceId _ _).trans ?_
    simp only [List.append_assoc, List.singleton_append, Option.map_none]

/-! ## The loop -/

theorem computeItems_cons {item : Item F} (h : computeItem orm item t s = (.ok t', ⟨row, true⟩)) :
    computeItems orm (item :: items) t s = computeItems orm items t' ⟨row, true⟩ := by
  rw [computeItems, andThen_ok h, andThen_ok updateProgress_ok]

/-- Without a job. -/
theorem computeItems_noJob (h : ∀ item ∈ items, item.Typed) (t : Tally F) :
    computeItems orm items t ⟨none, true⟩ =
      (.ok { t with results := t.results ++ items.flatMap Item.entriesLeft,
                    errorCount := t.errorCount + items.length }, ⟨none, true⟩) := by
  induction items generalizing t with
  | nil => simp only [computeItems, List.flatMap_nil, List.append_nil, List.length_nil, Nat.add_zero]
  | cons item items ih =>
      obtain ⟨hitem, hitems⟩ := List.forall_mem_cons.mp h
      rw [computeItems_cons (computeItem_noJob hitem t), ih hitems]
      simp only [List.flatMap_cons, List.append_assoc, List.length_cons, Nat.add_assoc, Nat.add_comm 1]

/-- The stored errors after devices that all raised. -/
def errorsAfter (stored : Option (List (String × String))) (items : List (Item F)) :
    Option (List (String × String)) :=
  items.foldl (fun stored item => withError stored item.deviceId item.text) stored

/-- All devices raise. -/
theorem computeItems_raises (h : ∀ item ∈ items, item.Raises) (t : Tally F) (row : Option BulkRow) :
    computeItems orm items t ⟨row, true⟩ =
      (.ok { t with results := t.results ++ items.map Item.entry, errorCount := t.errorCount + items.length },
        ⟨row.map fun job => { job with perItemErrors := errorsAfter job.perItemErrors items }, true⟩) := by
  induction items generalizing t row with
  | nil => simp [computeItems, errorsAfter]
  | cons item items ih =>
      obtain ⟨hitem, hitems⟩ := List.forall_mem_cons.mp h
      rw [computeItems_cons (computeItem_raises hitem t), ih hitems, Option.map_map]
      simp only [List.map_cons, List.append_assoc, List.singleton_append, List.length_cons, Nat.add_assoc,
        Nat.add_comm 1]
      rfl

/-- Only the first error is stored, and none when there are some from before. -/
theorem storedKeys_errorsAfter (stored : Option (List (String × String))) (items : List (Item F))
    (deviceId : String) :
    deviceId ∈ storedKeys (errorsAfter stored items) ↔
      if storedKeys stored = [] then items.head?.map Item.deviceId = some deviceId
      else deviceId ∈ storedKeys stored := by
  have hkept : ∀ (p : String × String) members (items : List (Item F)),
      errorsAfter (some (p :: members)) items = some (p :: members) := by
    intro p members items
    induction items with
    | nil => rfl
    | cons item items ih => exact ih
  have hfirst : ∀ stored : Option (List (String × String)), storedKeys stored = [] →
      (deviceId ∈ storedKeys (errorsAfter stored items) ↔ items.head?.map Item.deviceId = some deviceId) := by
    intro stored hempty
    cases items with
    | nil => simp [errorsAfter, hempty]
    | cons item items =>
        have hone : withError stored item.deviceId item.text = some [(item.deviceId, item.text)] := by
          match stored with
          | none => rfl
          | some [] => rfl
          | some (p :: members) => exact absurd hempty (List.cons_ne_nil _ _)
        rw [errorsAfter, List.foldl_cons, hone, ← errorsAfter, hkept]
        simp [storedKeys, eq_comm]
  split_ifs with hempty
  · exact hfirst stored hempty
  · match stored with
    | none => exact absurd rfl hempty
    | some [] => exact absurd rfl hempty
    | some (p :: members) => rw [hkept]

/-! ## A result with a job -/

/-- The entry that is appended before anything can raise. -/
def Item.appended (item : Item F) : List (Entry (DeviceResult F)) :=
  match item.computed with
  | .ok result => [.result item.deviceId result]
  | .error _ => []

theorem itemFailed_keeps {deviceId : String} {e : TaskError}
    (h : itemFailed orm deviceId t e s = (.ok t', s')) (hrow : s.row.isSome) :
    s'.row.isSome ∧ t.results ⊆ t'.results := by
  obtain ⟨_, s₁, hcommand, heq⟩ := exists_of_andThen h
  obtain ⟨ht, rfl⟩ := Prod.mk.inj heq
  rw [← Except.ok.inj ht]
  exact ⟨isSome_of_withJob hcommand hrow, List.subset_append_left _ _⟩

theorem computeItem_keeps {item : Item F} (h : computeItem orm item t s = (.ok t', s')) (hrow : s.row.isSome) :
    s'.row.isSome ∧ t.results ++ item.appended ⊆ t'.results := by
  unfold computeItem at h
  unfold Item.appended
  split at h
  · rename_i e he
    rw [he, List.append_nil]
    exact itemFailed_keeps h hrow
  · rename_i result hresult
    rw [hresult]
    dsimp only at h
    split at h
    · rename_i hcommand
      exact itemFailed_keeps h (isSome_of_withJob hcommand hrow)
    · rename_i hcommand
      have hrow₁ := isSome_of_withJob hcommand hrow
      -- what follows raises, or counts the device
      split at h
      · exact itemFailed_keeps h hrow₁
      · split at h
        · split at h
          · exact itemFailed_keeps h hrow₁
          · obtain ⟨ht, rfl⟩ := Prod.mk.inj h
            rw [← Except.ok.inj ht]
            exact ⟨hrow₁, List.Subset.refl _⟩
        · obtain ⟨ht, rfl⟩ := Prod.mk.inj h
          rw [← Except.ok.inj ht]
          exact ⟨hrow₁, List.Subset.refl _⟩

theorem computeItems_keeps (h : computeItems orm items t s = (.ok t', s')) (hrow : s.row.isSome) :
    s'.row.isSome ∧ t.results ++ items.flatMap Item.appended ⊆ t'.results := by
  induction items generalizing t s with
  | nil =>
      obtain ⟨ht, rfl⟩ := Prod.mk.inj h
      rw [← Except.ok.inj ht, List.flatMap_nil, List.append_nil]
      exact ⟨hrow, List.Subset.refl _⟩
  | cons item items ih =>
      obtain ⟨t₁, s₁, hitem, h⟩ := exists_of_andThen h
      obtain ⟨_, s₂, hprogress, h⟩ := exists_of_andThen h
      obtain ⟨hrow₁, hsubset⟩ := computeItem_keeps hitem hrow
      obtain ⟨hrow', hrest⟩ := ih h (isSome_of_withJob hprogress hrow₁)
      obtain ⟨hleft, hright⟩ := List.append_subset.mp hrest
      refine ⟨hrow', ?_⟩
      rw [List.flatMap_cons, ← List.append_assoc]
      exact List.append_subset.mpr ⟨List.Subset.trans hsubset hleft, hright⟩

/-- With a job, a task that was given a result does not complete: its summary cannot be stored. -/
theorem computeBody_refused (hrow : s.row.isSome) (htyped : ∀ item ∈ items, item.Typed)
    (hresult : ∃ item ∈ items, ¬ item.Raises) (summary : Summary (DeviceResult F)) :
    computeBody orm items s ≠ (.ok summary, s') := by
  intro h
  obtain ⟨_, s₁, hstarted, h⟩ := exists_of_andThen h
  obtain ⟨_, s₂, hprogress, h⟩ := exists_of_andThen h
  obtain ⟨t, s₃, hloop, h⟩ := exists_of_andThen h
  obtain ⟨_, s₄, hprogress', h⟩ := exists_of_andThen h
  obtain ⟨_, s₅, hsuccess, -⟩ := exists_of_andThen h
  have hrow₂ := isSome_of_withJob hprogress (isSome_of_withJob hstarted hrow)
  obtain ⟨hrow₃, hentries⟩ := computeItems_keeps hloop hrow₂
  obtain ⟨job, hjob⟩ := Option.isSome_iff_exists.mp (isSome_of_withJob hprogress' hrow₃)
  obtain ⟨item, hmem, hraises⟩ := hresult
  have happended : ∃ r, Entry.result item.deviceId (.calculation r) ∈ item.appended := by
    cases hcomputed : item.computed with
    | error e => exact absurd ⟨e, hcomputed⟩ hraises
    | ok result =>
        obtain ⟨r, rfl⟩ := htyped item hmem result hcomputed
        exact ⟨r, by rw [Item.appended, hcomputed]; exact List.mem_singleton_self _⟩
  obtain ⟨r, hr⟩ := happended
  -- a model is not written, so the list is not either
  have hnone : t.results.mapM Entry.dumps = none :=
    mapM_eq_none (hentries (List.mem_append_right _ (List.mem_flatMap.mpr ⟨item, hmem, hr⟩))) rfl
  unfold markSuccess withJob at hsuccess
  split at hsuccess
  · rw [hjob] at hsuccess
    simp [Summary.dumps, hnone] at hsuccess
  · exact absurd (Prod.mk.inj hsuccess).1 nofun

theorem taskFailed_ne_ok {retriesLeft : Bool} {e : TaskError} (summary : Summary (DeviceResult F)) :
    taskFailed orm retriesLeft e s ≠ (.ok summary, s') := by
  unfold taskFailed
  intro h
  split at h
  · exact absurd (Prod.mk.inj h).1 nofun
  · obtain ⟨_, s₁, -, h⟩ := exists_of_andThen h
    obtain ⟨_, s₂, -, h⟩ := exists_of_andThen h
    exact absurd (Prod.mk.inj h).1 nofun

theorem computeBulkSla_ok_iff {retriesLeft : Bool} {summary : Summary (DeviceResult F)} :
    computeBulkSla orm retriesLeft items s = (.ok summary, s') ↔ computeBody orm items s = (.ok summary, s') := by
  unfold computeBulkSla
  split
  · rename_i hbody
    rw [hbody]
  · rename_i e s₁ hbody
    rw [hbody]
    constructor
    · intro h
      exact absurd h (taskFailed_ne_ok summary)
    · intro h
      exact absurd (Prod.mk.inj h).1 nofun

/-! ## The task as a whole -/

/-- The summary of a task whose devices all raise. -/
def raisedSummary (items : List (Item F)) : Summary (DeviceResult F) :=
  ⟨items.length, 0, [], 0, items.length, items.map Item.entry⟩

/-- The same in the job. -/
def storedSummary (items : List (Item F)) : Summary Members :=
  ⟨items.length, 0, [], 0, items.length, items.map fun item => .error item.deviceId item.text⟩

theorem dumps_raisedSummary (h : ∀ item ∈ items, item.Raises) :
    (raisedSummary items).dumps = some (storedSummary items) := by
  have hentries : (items.map Item.entry).mapM Entry.dumps =
      some (items.map fun item => Entry.error item.deviceId item.text) := by
    induction items with
    | nil => rfl
    | cons item items ih =>
        obtain ⟨⟨e, he⟩, hitems⟩ := List.forall_mem_cons.mp h
        have hentry : item.entry.dumps = some (.error item.deviceId item.text) := by
          rw [Item.entry, Item.text, he]
          rfl
        rw [List.map_cons, List.mapM_cons, hentry, ih hitems]
        rfl
  rw [Summary.dumps, raisedSummary, hentries]
  rfl

/-- The job after a task whose devices all raise. -/
def finishedRow (items : List (Item F)) (job : BulkRow) : BulkRow :=
  { job with
    status := .success
    result := some (storedSummary items)
    perItemErrors := errorsAfter job.perItemErrors items }

/-- A task whose devices all raise completes. -/
theorem computeBulkSla_raises (h : ∀ item ∈ items, item.Raises) (retriesLeft : Bool) :
    computeBulkSla orm retriesLeft items ⟨row, true⟩ =
      (.ok (raisedSummary items), ⟨row.map (finishedRow items), true⟩) := by
  rw [computeBulkSla_ok_iff, computeBody]
  have hstarted : markStarted orm ⟨row, true⟩ =
      (.ok (), ⟨row.map fun job => { job with status := .started }, true⟩) := withJob_ok fun _ _ => rfl
  rw [andThen_ok hstarted, andThen_ok updateProgress_ok, andThen_ok (computeItems_raises h _ _),
    andThen_ok updateProgress_ok, List.nil_append, Nat.zero_add]
  have hsuccess : ∀ row, markSuccess orm (raisedSummary items) ⟨row, true⟩ =
      (.ok (), ⟨row.map fun job => { job with status := .success, result := some (storedSummary items) }, true⟩) :=
    fun row => withJob_ok fun job _ => by rw [dumps_raisedSummary h]; rfl
  refine (andThen_ok (hsuccess _) _).trans ?_
  rw [Option.map_map, Option.map_map]
  rfl

/-- Without a job the task completes, with two entries for each result. -/
theorem computeBulkSla_noJob (h : ∀ item ∈ items, item.Typed) (retriesLeft : Bool) :
    computeBulkSla orm retriesLeft items ⟨none, true⟩ =
      (.ok ⟨items.length, 0, [], 0, items.length, items.flatMap Item.entriesLeft⟩, ⟨none, true⟩) := by
  rw [computeBulkSla_ok_iff, computeBody]
  have hstarted : markStarted orm ⟨none, true⟩ = (.ok (), ⟨none, true⟩) := rfl
  rw [andThen_ok hstarted, andThen_ok updateProgress_ok, andThen_ok (computeItems_noJob h _),
    andThen_ok updateProgress_ok, List.nil_append, Nat.zero_add]
  rfl

/-- One entry for each device means that all raised. -/
theorem raises_of_length (h : (items.flatMap Item.entriesLeft).length ≤ items.length) :
    ∀ item ∈ items, item.Raises := by
  have hlow : ∀ items : List (Item F), items.length ≤ (items.flatMap Item.entriesLeft).length := by
    intro items
    induction items with
    | nil => exact le_rfl
    | cons item items ih =>
        have hone : 1 ≤ item.entriesLeft.length := by
          unfold Item.entriesLeft
          split <;> simp
        rw [List.flatMap_cons, List.length_append, List.length_cons]
        omega
  induction items with
  | nil => exact List.forall_mem_nil _
  | cons item items ih =>
      have hrest := hlow items
      rw [List.flatMap_cons, List.length_append, List.length_cons] at h
      cases hcomputed : item.computed with
      | error e =>
          have hone : item.entriesLeft.length = 1 := by rw [Item.entriesLeft, hcomputed]; rfl
          exact List.forall_mem_cons.mpr ⟨⟨e, hcomputed⟩, ih (by omega)⟩
      | ok result =>
          have htwo : item.entriesLeft.length = 2 := by rw [Item.entriesLeft, hcomputed]; rfl
          omega

/-- What the summary of devices that all raise has to say, and what it takes for the job. -/
theorem reported_raises_iff (h : ∀ item ∈ items, item.Raises) :
    Reported items (raisedSummary items) (row.map (finishedRow items)) ↔
      ∀ job, row = some job → ∀ item ∈ items, item.deviceId ∈ storedKeys job.partialResults ∨
        if storedKeys job.perItemErrors = [] then items.head?.map Item.deviceId = some item.deviceId
        else item.deviceId ∈ storedKeys job.perItemErrors := by
  constructor
  · rintro ⟨-, -, -, -, hstored⟩ job rfl item hitem
    have hkept := hstored _ rfl item hitem
    rwa [finishedRow, storedKeys_errorsAfter] at hkept
  · intro hkept
    refine ⟨rfl, rfl, Nat.zero_add _, ?_, ?_⟩
    · intro deviceId
      constructor
      · exact nofun
      · rintro ⟨item, hitem, -, result, hresult, -⟩
        obtain ⟨e, he⟩ := h item hitem
        rw [hresult] at he
        contradiction
    · intro finished hfinished item hitem
      obtain ⟨job, hjob, rfl⟩ := Option.map_eq_some_iff.mp hfinished
      rw [finishedRow, storedKeys_errorsAfter]
      exact hkept job hjob item hitem

/-- For every list of devices and every outcome: a task that completes has reported as it should exactly when
without a job all devices raised, and with a job some device had a result, so that the task does not complete, or
every device has its entry from before or is the first to be entered. -/
theorem reported_iff (orm : Sqlalchemy) (retriesLeft : Bool) (row : Option BulkRow) {items : List (Item F)}
    (htyped : ∀ item ∈ items, item.Typed) :
    (∀ summary s', computeBulkSla orm retriesLeft items ⟨row, true⟩ = (.ok summary, s') →
      Reported items summary s'.row) ↔ Accounted row items := by
  by_cases hraises : ∀ item ∈ items, item.Raises
  · -- the task completes
    have hrun : computeBulkSla orm retriesLeft items ⟨row, true⟩ =
        (.ok (raisedSummary items), ⟨row.map (finishedRow items), true⟩) :=
      computeBulkSla_raises hraises retriesLeft
    have hreported : (∀ summary s', computeBulkSla orm retriesLeft items ⟨row, true⟩ = (.ok summary, s') →
        Reported items summary s'.row) ↔
          Reported items (raisedSummary items) (row.map (finishedRow items)) := by
      rw [hrun]
      constructor
      · intro h
        exact h _ _ rfl
      · intro h summary s' heq
        obtain ⟨hsummary, rfl⟩ := Prod.mk.inj heq
        rwa [← Except.ok.inj hsummary]
    rw [hreported, reported_raises_iff hraises]
    cases row with
    | none => exact ⟨fun _ => hraises, fun _ => nofun⟩
    | some job =>
        constructor
        · intro h
          exact .inr (h job rfl)
        · rintro (⟨item, hitem, hresult⟩ | h) job' hjob
          · exact absurd (hraises item hitem) hresult
          · rwa [← Option.some.inj hjob]
  · cases row with
    | none =>
        constructor
        · intro h
          have hreported := h _ _ (computeBulkSla_noJob htyped retriesLeft)
          have hlength := congrArg List.length hreported.entries
          rw [List.length_map] at hlength
          exact raises_of_length hlength.le
        · intro h
          exact absurd h hraises
    | some job =>
        have hresult : ∃ item ∈ items, ¬ item.Raises := by
          by_contra hnone
          refine hraises fun item hitem => ?_
          by_contra hnot
          exact hnone ⟨item, hitem, hnot⟩
        constructor
        · intro _
          exact .inl hresult
        · intro _ summary s' hrun
          exact absurd (computeBulkSla_ok_iff.mp hrun) (computeBody_refused rfl htyped hresult summary)

/-- A device whose computation times out. -/
def timedOut (deviceId : String) : Item ℚ := ⟨deviceId, .error ⟨true, "timeout"⟩, .ok ()⟩

/-- A device that missed its targets. -/
def missed (deviceId : String) : Item ℚ :=
  ⟨deviceId, .ok (.calculation ⟨deviceId, "2024-01", "2024-01-01T00:00:00+00:00", "2024-02-01T00:00:00+00:00", 1, 1,
    90, 98, true, [("availability", 99), ("mttr", 60)], ["MTTR 90 minutes above threshold 60 minutes"], []⟩), .ok ()⟩

/-- The row of a job that waits. -/
def pendingRow : BulkRow := ⟨.pending, none, none, none, none⟩

/-- A device that is in the list twice and fails twice has its entry. -/
theorem reported_same_device :
    ∃ summary s', computeBulkSla ⟨"", "", false⟩ true [timedOut "edge-1", timedOut "edge-1"]
        ⟨some pendingRow, true⟩ = (.ok summary, s') ∧
      Reported [timedOut "edge-1", timedOut "edge-1"] summary s'.row := by
  have hraises : ∀ item ∈ [timedOut "edge-1", timedOut "edge-1"], item.Raises := by
    simp [Item.Raises, timedOut]
  have hrun : computeBulkSla ⟨"", "", false⟩ true [timedOut "edge-1", timedOut "edge-1"] ⟨some pendingRow, true⟩ =
      (.ok (raisedSummary [timedOut "edge-1", timedOut "edge-1"]), ⟨some (finishedRow _ pendingRow), true⟩) :=
    computeBulkSla_raises hraises true
  have htyped : ∀ item ∈ [timedOut "edge-1", timedOut "edge-1"], item.Typed := by
    intro item hitem result hresult
    obtain ⟨e, he⟩ := hraises item hitem
    rw [hresult] at he
    contradiction
  have haccounted : Accounted (some pendingRow) [timedOut "edge-1", timedOut "edge-1"] := by
    refine Or.inr fun item hitem => ?_
    simp only [List.mem_cons, List.not_mem_nil, or_false, or_self] at hitem
    subst hitem
    exact .inr rfl
  exact ⟨_, _, hrun, (reported_iff _ true _ htyped).mpr haccounted _ _ hrun⟩

/-- Of two devices that raise only the first is entered in the job. A device without a job that missed its targets
has two entries and is not among the violated ones. -/
theorem second_error_lost :
    (∃ summary s', computeBulkSla ⟨"", "", false⟩ true [timedOut "edge-1", timedOut "edge-2"]
        ⟨some pendingRow, true⟩ = (.ok summary, s') ∧
      ¬ Reported [timedOut "edge-1", timedOut "edge-2"] summary s'.row) ∧
    ∃ summary s', computeBulkSla ⟨"", "", false⟩ true [missed "edge-1"] ⟨none, true⟩ = (.ok summary, s') ∧
      ¬ Reported [missed "edge-1"] summary s'.row := by
  refine ⟨⟨raisedSummary [timedOut "edge-1", timedOut "edge-2"], _, rfl, ?_⟩, ⟨_, _, rfl, ?_⟩⟩
  · intro h
    have hlost := h.stored _ rfl (timedOut "edge-2") (by simp)
    revert hlost
    decide
  · intro h
    have hlength := congrArg List.length h.entries
    contradiction

end ApexChainx.Jobs.BulkSla
