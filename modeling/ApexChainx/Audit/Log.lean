import Mathlib.Data.List.Sort
import ApexChainx.Core.DateTime
import ApexChainx.Lib.HashChain
import ApexChainx.Lib.Json
import ApexChainx.Lib.Transition

/-!
# The audit log

`AuditLogService` (`app/services/audit_log.py`): `_compute_entry_hash`, `log_event` and `verify_chain`,
with `canonical_json` (`app/services/formatters.py`), `scrub_details` (`app/services/scrubber.py`) and
`blocking_advisory_lock` (`app/core/lock.py`). SHA-256 is a parameter.

A call of `log_event` is cut at its statements. Its transaction takes the advisory lock, waiting while
another transaction has it, and keeps it until it ends, by its own commit or, after an exception or a
crash at any point, by a rollback. Rows that are committed read back as they were written.
-/

namespace ApexChainx.Audit

open ApexChainx.Lib

/-- `canonical_json`. -/
def canonicalJson (value : Json) : String := value.sortKeys.text

/-- A row of `audit_logs`. SQL `NULL` in `details` reads as `null`. -/
structure AuditLogRow where
  id : ℕ
  eventType : String
  email : Option String
  actorId : Option String
  correlationId : Option String
  details : Json
  createdAt : DateTime
  prevHash : Option String
  entryHash : String

/-- A nullable text as a JSON value. -/
def nullable : Option String → Json
  | none => .null
  | some s => .str s

/-- The dictionary an entry's hash is computed over. -/
def entryData (prevHash : Option String) (eventType : String) (details : Json)
    (correlationId : Option String) (createdAt : DateTime) : Json :=
  .obj [("prev_hash", nullable prevHash), ("event_type", .str eventType), ("details", details),
    ("correlation_id", nullable correlationId), ("created_at", .str createdAt.isoformat)]

/-- `_compute_entry_hash`. -/
def computeEntryHash (sha256 : String → String) (prevHash : Option String) (eventType : String)
    (details : Json) (correlationId : Option String) (createdAt : DateTime) : String :=
  sha256 (canonicalJson (entryData prevHash eventType details correlationId createdAt))

/-! ## Scrubbing -/

def isAlphanumeric (c : Char) : Bool :=
  ('A' ≤ c && c ≤ 'Z') || ('a' ≤ c && c ≤ 'z') || ('0' ≤ c && c ≤ '9')

/-- A pattern anchored at both ends; `$` also matches before a final line break. -/
def anchored (p : List Char → Bool) (value : String) : Bool :=
  p value.toList || (value.toList.getLast? = some '\n' && p value.toList.dropLast)

/-- `STELLAR_SECRET_RE`. -/
def stellarSecret : String → Bool :=
  anchored fun cs => cs.length = 56 && cs.head? = some 'S' && cs.tail.all isAlphanumeric

/-- `ED25519_KEY_RE`. -/
def ed25519Key : String → Bool :=
  anchored fun cs =>
    cs.length = 88 && cs.all fun c => isAlphanumeric c || c = '+' || c = '/' || c = '='

/-- `LONG_KEY_RE`. -/
def longKey : String → Bool :=
  anchored fun cs =>
    32 ≤ cs.length &&
      cs.all fun c => isAlphanumeric c || c = '+' || c = '/' || c = '=' || c = '_' || c = '-'

/-- What becomes of a text under a key that is not sensitive. -/
def scrubValue : Json → Json
  | .str value =>
      if stellarSecret value then .str "[REDACTED_STELLAR_SECRET]"
      else if ed25519Key value then .str "[REDACTED_ED25519]"
      else if longKey value then .str "[REDACTED_KEY_MATERIAL]"
      else .str value
  | value => value

/-- `scrub_details`: the members of the top level. -/
def scrubDetails (sensitiveFields : List String) (details : Option (List (String × Json))) : Json :=
  .obj ((details.getD []).map fun m =>
    (m.1, if m.1 ∈ sensitiveFields then .str "[REDACTED]" else scrubValue m.2))

/-! ## Verification -/

/-- `ORDER BY id ASC`. -/
def orderById (rows : List AuditLogRow) : List AuditLogRow := rows.insertionSort fun a b => a.id ≤ b.id

/-- What `verify_chain` reports. -/
structure ChainReport where
  verified : Bool
  firstBadId : Option ℕ
  totalEntries : ℕ
  lastHash : Option String
deriving DecidableEq, Repr

/-- The loop of `verify_chain`: the first entry that does not fit the hash before it. -/
def firstBad (sha256 : String → String) : Option String → List AuditLogRow → Option AuditLogRow
  | _, [] => none
  | previousHash, e :: es =>
      let expectedHash :=
        computeEntryHash sha256 previousHash e.eventType e.details e.correlationId e.createdAt
      if e.prevHash ≠ previousHash ∨ e.entryHash ≠ expectedHash then some e
      else firstBad sha256 (some e.entryHash) es

/-- `verify_chain`. -/
def verifyChain (sha256 : String → String) (rows : List AuditLogRow) : ChainReport :=
  let entries := orderById rows
  let lastHash := entries.getLast?.map AuditLogRow.entryHash
  match firstBad sha256 none entries with
  | none => ⟨true, none, entries.length, lastHash⟩
  | some e => ⟨false, some e.id, entries.length, lastHash⟩

/-- The audit log as a hash chain. -/
def auditChain (sha256 : String → String) : HashChain AuditLogRow String where
  link := AuditLogRow.prevHash
  digest := AuditLogRow.entryHash
  compute previousHash e :=
    computeEntryHash sha256 previousHash e.eventType e.details e.correlationId e.createdAt

theorem firstBad_eq_none_iff {sha256 : String → String} {previousHash : Option String}
    {es : List AuditLogRow} :
    firstBad sha256 previousHash es = none ↔ (auditChain sha256).Linked previousHash es := by
  induction es generalizing previousHash with
  | nil => simp [firstBad, HashChain.Linked]
  | cons e es ih =>
      simp only [firstBad, HashChain.Linked]
      split
      · rename_i hbad
        simp only [reduceCtorEq, false_iff]
        rintro ⟨hlink, hdigest, -⟩
        rcases hbad with hbad | hbad
        · exact hbad hlink
        · exact hbad hdigest
      · rename_i hgood
        rw [not_or, not_not, not_not] at hgood
        rw [ih]
        exact ⟨fun h => ⟨hgood.1, hgood.2, h⟩, fun h => h.2.2⟩

/-- The report is positive exactly when the entries are chained in the order of their ids. -/
theorem verifyChain_verified_iff {sha256 : String → String} {rows : List AuditLogRow} :
    (verifyChain sha256 rows).verified = true ↔ (auditChain sha256).Linked none (orderById rows) := by
  rw [← firstBad_eq_none_iff]
  unfold verifyChain
  cases h : firstBad sha256 none (orderById rows) with
  | none => simp [h]
  | some e => simp [h]

theorem verifyChain_lastHash {sha256 : String → String} {rows : List AuditLogRow} :
    (verifyChain sha256 rows).lastHash = (auditChain sha256).tip none (orderById rows) := by
  rw [HashChain.tip_eq_getLast?]
  unfold verifyChain
  dsimp only
  split <;> rfl

/-! ## Calls of `log_event` -/

/-- The arguments of a call, and the correlation id of the context it runs in. -/
structure LogArgs where
  eventType : String
  email : Option String
  actorId : Option String
  details : Option (List (String × Json))
  correlationId : Option String
  contextCorrelationId : Option String

/-- The next statement of a call. -/
inductive LogPc
  /-- `scrub_details` and the reading of the clock. -/
  | begin
  /-- `SELECT pg_advisory_xact_lock`. -/
  | lock (createdAt : DateTime)
  /-- The query of the last entry. -/
  | readTail (createdAt : DateTime)
  /-- The `INSERT`, which gives the row its id. -/
  | insert (row : AuditLogRow)
  | commit (row : AuditLogRow)
  /-- An exception was raised; the transaction is still open. -/
  | raised
  /-- The transaction is over. -/
  | ended (stored : Bool)

structure LogCall where
  args : LogArgs
  pc : LogPc

/-- The committed table, the id sequence, the holder of the lock and the calls. -/
structure Sys where
  rows : List AuditLogRow
  nextId : ℕ
  holder : Option ℕ
  calls : List LogCall

def Sys.init : Sys := ⟨[], 1, none, []⟩

/-- The text fits a `varchar(n)` column. -/
def fitsColumn (n : ℕ) (s : String) : Bool := s.length ≤ n && !s.toList.contains '\x00'

/-- The table accepts the row: its texts fit their columns and its hash is not there yet. -/
def acceptsRow (rows : List AuditLogRow) (row : AuditLogRow) : Bool :=
  fitsColumn 100 row.eventType && row.email.all (fitsColumn 255) && row.actorId.all (fitsColumn 255) &&
    row.correlationId.all (fitsColumn 255) && rows.all (·.entryHash ≠ row.entryHash)

/-- The row a call inserts after the entry with hash `prevHash`. -/
def LogArgs.row (sha256 : String → String) (sensitiveFields : List String) (args : LogArgs)
    (createdAt : DateTime) (prevHash : Option String) : AuditLogRow :=
  let safeDetails := scrubDetails sensitiveFields args.details
  let correlationId := args.correlationId.or args.contextCorrelationId
  { id := 0
    eventType := args.eventType
    email := args.email
    actorId := args.actorId
    correlationId := correlationId
    details := safeDetails
    createdAt := createdAt
    prevHash := prevHash
    entryHash :=
      computeEntryHash sha256 prevHash args.eventType safeDetails correlationId createdAt }

/-- A call arrives, the `i`-th call executes its next statement at time `now`, or its transaction is
rolled back. -/
inductive Action
  | begin (args : LogArgs)
  | move (i : ℕ) (now : DateTime)
  | rollback (i : ℕ)

/-- The system after call `i` has gone on to `pc`. -/
def Sys.goto (s : Sys) (i : ℕ) (c : LogCall) (pc : LogPc) : Sys :=
  { s with calls := s.calls.set i { c with pc := pc } }

/-- The lock after the transaction of call `i` has ended. -/
def Sys.released (s : Sys) (i : ℕ) : Option ℕ := if s.holder = some i then none else s.holder

/-- One statement of call `i`; `none` while it waits for the lock, and once it is over. -/
def logStep (sha256 : String → String) (sensitiveFields : List String) (s : Sys) (i : ℕ) (now : DateTime)
    (c : LogCall) : Option Sys :=
  match c.pc with
  | .begin => some (s.goto i c (.lock now))
  | .lock createdAt =>
      match s.holder with
      | some _ => none
      | none => some { s.goto i c (.readTail createdAt) with holder := some i }
  | .readTail createdAt =>
      let prevHash := (orderById s.rows).getLast?.map AuditLogRow.entryHash
      some (s.goto i c (.insert (c.args.row sha256 sensitiveFields createdAt prevHash)))
  | .insert row =>
      -- the id is drawn from the sequence before the constraints are checked
      let pc := if acceptsRow s.rows row then .commit { row with id := s.nextId } else .raised
      some { s.goto i c pc with nextId := s.nextId + 1 }
  | .commit row =>
      some { s.goto i c (.ended true) with rows := s.rows ++ [row], holder := s.released i }
  | .raised => none
  | .ended _ => none

/-- The interleaving semantics. -/
def step (sha256 : String → String) (sensitiveFields : List String) (s : Sys) : Action → Option Sys
  | .begin args => some { s with calls := s.calls ++ [⟨args, .begin⟩] }
  | .move i now =>
      match s.calls[i]? with
      | none => none
      | some c => logStep sha256 sensitiveFields s i now c
  | .rollback i =>
      match s.calls[i]? with
      | none => none
      | some c =>
          match c.pc with
          | .ended _ => none
          | _ => some { s.goto i c (.ended false) with holder := s.released i }

end ApexChainx.Audit
