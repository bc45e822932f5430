import Mathlib.Data.List.Nodup
import ApexChainx.Core.DateTime
import ApexChainx.Core.Error
import ApexChainx.Lib.Json
import ApexChainx.Settlement.Outage

/-!
# Creating outages

`check_duplicate`, `create_or_get_existing` and `delete` of `OutageRepository`
(`app/repositories/outage_repository.py`), on the whole rows of the table `outages`. A lookup without an
order returns the first match in the order in which it goes over the table; a new row goes to the end.
-/

namespace ApexChainx.Import

/-- `Location` (`app/models/outage.py`). -/
structure Location where
  latitude : Lib.FloatText
  longitude : Lib.FloatText
deriving DecidableEq, Repr

/-- `OutageCreate` (`app/models/outage_dto.py`), after its validation. -/
structure OutageCreate where
  id : String
  siteName : String
  siteId : Option String
  severity : Sla.Severity
  status : Settlement.OutageStatus
  detectedAt : DateTime
  description : String
  affectedServices : List String
  affectedSubscribers : Option ℤ
  assignedTo : Option String
  createdBy : Option String
  location : Option Location
deriving DecidableEq, Repr

/-- `OutageORM`. -/
structure OutageRow where
  id : String
  siteName : String
  siteId : Option String
  severity : String
  status : String
  detectedAt : DateTime
  resolvedAt : Option DateTime
  description : String
  affectedServices : List String
  affectedSubscribers : Option ℤ
  assignedTo : Option String
  createdBy : Option String
  location : Option Location
  slaStatus : Option Settlement.SLAStatus
  mttrMinutes : Option ℤ
deriving DecidableEq, Repr

/-- The row that `create_or_get_existing` adds. -/
def OutageCreate.toRow (p : OutageCreate) : OutageRow where
  id := p.id
  siteName := p.siteName
  siteId := p.siteId
  severity := p.severity.value
  status := p.status.value
  detectedAt := p.detectedAt
  resolvedAt := none
  description := p.description
  affectedServices := p.affectedServices
  affectedSubscribers := p.affectedSubscribers
  assignedTo := p.assignedTo
  createdBy := p.createdBy
  location := p.location
  slaStatus := none
  mttrMinutes := none

@[simp] theorem id_toRow (p : OutageCreate) : p.toRow.id = p.id := rfl

/-- The floats are equal: zero is, whatever its sign. -/
def sameFloat (x y : Lib.FloatText) : Bool :=
  let isZero (z : Lib.FloatText) : Bool := z.chars = "0.0".toList || z.chars = "-0.0".toList
  x = y || (isZero x && isZero y)

def sameLocation : Option Location → Option Location → Bool
  | none, none => true
  | some l, some l' => sameFloat l.latitude l'.latitude && sameFloat l.longitude l'.longitude
  | _, _ => false

@[simp] theorem sameLocation_self (l : Option Location) : sameLocation l l = true := by
  cases l with
  | none => rfl
  | some l => simp [sameLocation, sameFloat]

/-- `_is_same_outage`. -/
def isSameOutage (row : OutageRow) (p : OutageCreate) : Bool :=
  row.id = p.id ∧ row.siteName = p.siteName ∧ row.siteId = p.siteId ∧ row.severity = p.severity.value ∧
    row.status = p.status.value ∧ row.detectedAt = p.detectedAt ∧ row.description = p.description ∧
    row.affectedServices = p.affectedServices ∧ row.affectedSubscribers = p.affectedSubscribers ∧
    row.assignedTo = p.assignedTo ∧ row.createdBy = p.createdBy ∧ sameLocation row.location p.location

/-- The conditions of `_find_duplicate_orm`: site, time and description, and the id of the site if the
payload has one. -/
def matchesTuple (row : OutageRow) (p : OutageCreate) : Bool :=
  row.siteName = p.siteName ∧ row.detectedAt = p.detectedAt ∧ row.description = p.description ∧
    (p.siteId.getD "" = "" ∨ row.siteId = p.siteId)

/-- A match that `check_duplicate` takes for the same outage: severity, status, services and assignee
agree. -/
def agrees (row : OutageRow) (p : OutageCreate) : Bool :=
  row.severity = p.severity.value ∧ row.status = p.status.value ∧
    row.affectedServices = p.affectedServices ∧ row.assignedTo = p.assignedTo

/-- No text has a NUL, which the driver would refuse. -/
def Sendable (texts : List String) : Prop := ∀ s ∈ texts, '\x00' ∉ s.toList

instance (texts : List String) : Decidable (Sendable texts) :=
  inferInstanceAs (Decidable (∀ s ∈ texts, '\x00' ∉ s.toList))

/-- What the two lookups of `check_duplicate` are given. -/
def OutageCreate.texts (p : OutageCreate) : List String := [p.id, p.siteName, p.description, p.siteId.getD ""]

/-- `check_duplicate`. -/
def checkDuplicate (outages : List OutageRow) (p : OutageCreate) : Outcome (Option OutageRow) :=
  if ¬ Sendable [p.id] then .error .nulLiteral
  else
    match outages.find? (·.id = p.id) with
    | some existing =>
        if isSameOutage existing p then .ok (some existing)
        else .error (.valueError ("Outage with id '" ++ p.id ++ "' already exists with different content"))
    | none =>
        if ¬ Sendable p.texts then .error .nulLiteral
        else
          match outages.find? (matchesTuple · p) with
          | some duplicate =>
              if agrees duplicate p then .ok (some duplicate)
              else
                .error (.valueError ("Outage matching site '" ++ p.siteName ++ "' at '" ++ p.detectedAt.str
                  ++ "' already exists with different content"))
          | none => .ok none

/-- Where the database fails while a row is created: at a lookup, at the commit of the new row, which it refuses
if it has a NUL in one of its other texts, or when the committed row is read back. -/
inductive Fault
  | lookup
  | commit
  | refresh
deriving DecidableEq, Repr

/-- What SQLAlchemy raises then. -/
def Fault.error : Fault → ApiError
  | .lookup => .databaseError "lookup"
  | .commit => .databaseError "commit"
  | .refresh => .databaseError "refresh"

/-- `create_or_get_existing`: the outage, and whether it was added. -/
def createOrGetExisting (fault : Option Fault) (p : OutageCreate) (outages : List OutageRow) :
    Outcome (OutageRow × Bool) × List OutageRow :=
  if fault = some .lookup then (.error Fault.lookup.error, outages)
  else
    match checkDuplicate outages p with
    | .error e => (.error e, outages)
    | .ok (some existing) => (.ok (existing, false), outages)
    | .ok none =>
        if fault = some .commit then (.error Fault.commit.error, outages)
        else if fault = some .refresh then (.error Fault.refresh.error, outages ++ [p.toRow])
        else (.ok (p.toRow, true), outages ++ [p.toRow])

/-- `delete`; `financial` has the ids that SLA results or payments refer to. -/
def deleteOutage (financial : List String) (id : String) (outages : List OutageRow) :
    Outcome Unit × List OutageRow :=
  match outages.find? (·.id = id) with
  | none => (.ok (), outages)
  | some _ =>
      if id ∈ financial then
        (.error (.valueError ("Cannot delete outage '" ++ id
          ++ "': it has associated SLA results or payment records. "
          ++ "Archive the outage instead or contact an administrator.")), outages)
      else (.ok (), outages.filter (·.id ≠ id))

/-- The table with the constraints of the database: ids are unique, and what refers to an outage refers to
one that is there. -/
structure Store where
  outages : List OutageRow
  financial : List String
  primaryKey : (outages.map OutageRow.id).Nodup
  foreignKey : financial ⊆ outages.map OutageRow.id

/-! ## What the checks find -/

variable {outages : List OutageRow} {p : OutageCreate}

theorem find?_id_eq_none : outages.find? (·.id = p.id) = none ↔ p.id ∉ outages.map OutageRow.id := by
  rw [List.find?_eq_none, List.mem_map]
  constructor
  · rintro h ⟨row, hrow, hid⟩
    exact h row hrow (decide_eq_true hid)
  · intro h row hrow hid
    exact h ⟨row, hrow, of_decide_eq_true hid⟩

theorem Sendable.head {s : String} {texts : List String} (h : Sendable (s :: texts)) : Sendable [s] := by
  intro s' hs'
  rw [List.mem_singleton.mp hs']
  exact h s List.mem_cons_self

/-- Without a NUL the lookups go through. -/
theorem checkDuplicate_of_sendable (h : Sendable p.texts) : checkDuplicate outages p =
    match outages.find? (·.id = p.id) with
    | some existing =>
        if isSameOutage existing p then .ok (some existing)
        else .error (.valueError ("Outage with id '" ++ p.id ++ "' already exists with different content"))
    | none =>
        match outages.find? (matchesTuple · p) with
        | some duplicate =>
            if agrees duplicate p then .ok (some duplicate)
            else
              .error (.valueError ("Outage matching site '" ++ p.siteName ++ "' at '" ++ p.detectedAt.str
                ++ "' already exists with different content"))
        | none => .ok none := by
  unfold checkDuplicate
  rw [if_neg (not_not_intro h.head), if_neg (not_not_intro h)]

/-- A NUL fails a payload that is not stored already. -/
theorem checkDuplicate_of_not_sendable (h : ¬ Sendable p.texts)
    (hsame : ∀ row ∈ outages, isSameOutage row p = false) :
    ∃ text, checkDuplicate outages p = .error (.valueError text) := by
  unfold checkDuplicate
  split
  · exact ⟨_, rfl⟩
  · split
    · rename_i existing hfind
      rw [if_neg (by simp [hsame existing (List.mem_of_find?_eq_some hfind)])]
      exact ⟨_, rfl⟩
    · exact ⟨_, rfl⟩

/-- A row is new when no row has its id, none matches it, and it can be looked up. -/
theorem checkDuplicate_eq_none : checkDuplicate outages p = .ok none ↔
    p.id ∉ outages.map OutageRow.id ∧ (∀ row ∈ outages, matchesTuple row p = false) ∧ Sendable p.texts := by
  rw [← find?_id_eq_none]
  constructor
  · intro h
    unfold checkDuplicate at h
    split at h
    · cases h
    split at h
    · split at h
      · cases h
      · cases h
    · rename_i hid
      split at h
      · cases h
      rename_i hsendable
      split at h
      · split at h
        · cases h
        · cases h
      · rename_i hmatch
        refine ⟨hid, fun row hrow => ?_, not_not.mp hsendable⟩
        simpa using List.find?_eq_none.mp hmatch row hrow
  · rintro ⟨hid, hmatch, hsendable⟩
    have hnone : outages.find? (matchesTuple · p) = none :=
      List.find?_eq_none.mpr fun row hrow => by simp [hmatch row hrow]
    rw [checkDuplicate_of_sendable hsendable, hid, hnone]

/-- A duplicate is a row of the table, with the content of the payload as far as it was compared. -/
theorem checkDuplicate_eq_some {row : OutageRow} (h : checkDuplicate outages p = .ok (some row)) :
    row ∈ outages ∧ (isSameOutage row p = true ∨ matchesTuple row p = true ∧ agrees row p = true) := by
  unfold checkDuplicate at h
  split at h
  · cases h
  split at h
  · rename_i existing hfind
    split at h
    · rename_i hsame
      obtain rfl := Option.some.inj (Outcome.ok.inj h)
      exact ⟨List.mem_of_find?_eq_some hfind, .inl hsame⟩
    · cases h
  · split at h
    · cases h
    split at h
    · rename_i duplicate hfind
      split at h
      · rename_i hagrees
        obtain rfl := Option.some.inj (Outcome.ok.inj h)
        have hmatch := List.find?_some hfind
        exact ⟨List.mem_of_find?_eq_some hfind, .inr ⟨hmatch, hagrees⟩⟩
      · cases h
    · cases h

theorem createOrGetExisting_noFault (p : OutageCreate) (outages : List OutageRow) :
    createOrGetExisting none p outages =
      match checkDuplicate outages p with
      | .error e => (.error e, outages)
      | .ok (some existing) => (.ok (existing, false), outages)
      | .ok none => (.ok (p.toRow, true), outages ++ [p.toRow]) := by
  unfold createOrGetExisting
  rcases checkDuplicate outages p with (_ | existing) | e
  · rfl
  · rfl
  · rfl

end ApexChainx.Import
