import Mathlib.Data.List.MinMax
import Mathlib.Logic.Function.Basic
import ApexChainx.Core.Error
import ApexChainx.Lib.Transition
import ApexChainx.Sla.Policy

/-!
# Publishing a policy version

`publish_config_for_severity` (`app/services/sla/config.py`) with a database session, cut at the
statements other calls can see: the locking `SELECT`, the reads of the module-level dictionaries, the
commit, and the three assignments that refresh the dictionaries. Any number of calls run in any number
of processes; a process can be restarted, which loses its calls and reloads the dictionaries.

`SELECT … FOR UPDATE` chooses the newest row when the statement starts and returns it once its lock is
free, even if a newer row has been committed meanwhile. Rows are never changed, so the returned row is
as it was chosen. The unique index on `(severity, policy_version)` is checked at the commit. The new
token is drawn between the token check and the commit, where nobody sees it; it is given with the
commit.
-/

namespace ApexChainx.Sla

open ApexChainx.Lib

/-- `_compute_content_hash`: the digest of the JSON text with sorted keys. -/
def computeContentHash (sha256 : String → String) (severity : Severity) (config : SLASeverityConfig)
    (version : ℕ) : String :=
  sha256 ("\x7b\"penalty_per_minute\": " ++ toString config.penaltyPerMinute
    ++ ", \"policy_version\": " ++ toString version
    ++ ", \"reward_base\": " ++ toString config.rewardBase
    ++ ", \"severity\": \"" ++ severity.value
    ++ "\", \"threshold_minutes\": " ++ toString config.thresholdMinutes ++ "\x7d")

/-- `SLAConfigHistoryORM`; the publisher and the time are written but never read. -/
structure HistoryRow where
  severity : Severity
  policyVersion : ℕ
  config : SLASeverityConfig
  contentHash : String
  publishToken : String
deriving DecidableEq, Repr

/-- The values of the row fit the `integer` columns of the table. -/
def HistoryRow.fits (r : HistoryRow) : Bool :=
  r.policyVersion < 2147483648 && r.config.thresholdMinutes < 2147483648
    && r.config.penaltyPerMinute < 2147483648 && r.config.rewardBase < 2147483648

/-- The statement a call executes next. -/
inductive PublishPc
  /-- The locking `SELECT` starts. -/
  | select
  /-- It has chosen a row and waits for its lock. -/
  | lock (row : HistoryRow)
  /-- There was no row: `_policy_versions` is read. -/
  | readVersion
  /-- There was no row: `_publish_tokens` is read, and the expected token checked. -/
  | readToken (currentVersion : ℕ)
  /-- The token check has passed; the row it was made on, if any, is locked. -/
  | commit (locked : Option HistoryRow) (currentVersion : ℕ)
  | refreshVersion (new : HistoryRow)
  | refreshConfig (new : HistoryRow)
  | refreshToken (new : HistoryRow)
  | returned (new : HistoryRow)
  /-- `ConcurrencyError`. -/
  | conflict
  /-- Any other exception. -/
  | raised (e : ApiError)
  /-- The process was restarted under the call. -/
  | lost
deriving DecidableEq, Repr

/-- A call with its arguments. -/
structure PublishCall where
  process : ℕ
  severity : Severity
  config : SLASeverityConfig
  expectedToken : Option String
  pc : PublishPc
deriving DecidableEq, Repr

/-- The history table, the dictionaries of every process, and the calls begun so far. -/
structure PolicySys where
  history : List HistoryRow
  caches : ℕ → LivePolicy
  calls : List PublishCall

/-- An empty table, freshly started processes and no call. -/
def PolicySys.init : PolicySys := ⟨[], fun _ => initialPolicy, []⟩

/-- The rows of one severity in commit order. -/
def rowsOf (history : List HistoryRow) (sev : Severity) : List HistoryRow :=
  history.filter (·.severity = sev)

/-- The versions of one severity in commit order. -/
def versionsOf (history : List HistoryRow) (sev : Severity) : List ℕ :=
  (rowsOf history sev).map HistoryRow.policyVersion

/-- `ORDER BY policy_version DESC LIMIT 1` over the rows of a severity. -/
def newestRow (history : List HistoryRow) (sev : Severity) : Option HistoryRow :=
  (rowsOf history sev).argmax HistoryRow.policyVersion

/-- The call holds the lock of the row: it has selected it and its transaction has not ended. -/
def PublishCall.holds (row : HistoryRow) (c : PublishCall) : Bool :=
  match c.pc with
  | .commit (some r) _ => r = row
  | _ => false

/-- The token check: `None` expects nothing. -/
def tokenMatches (expected : Option String) (current : String) : Bool :=
  match expected with
  | none => true
  | some t => t = current

/-- The row a call inserts. -/
def newHistoryRow (sha256 : String → String) (c : PublishCall) (currentVersion : ℕ)
    (token : String) : HistoryRow where
  severity := c.severity
  policyVersion := currentVersion + 1
  config := c.config
  contentHash := computeContentHash sha256 c.severity c.config (currentVersion + 1)
  publishToken := token

/-- What a statement leaves behind: the call's next statement, the history, and the dictionaries of its
process. -/
structure Effect where
  pc : PublishPc
  history : List HistoryRow
  cache : LivePolicy

/-- One statement of a call; `none` when it has to wait or the call is over. -/
def publishStep (sha256 : String → String) (s : PolicySys) (c : PublishCall) (token : String) :
    Option Effect :=
  let cache := s.caches c.process
  let continue_ (pc : PublishPc) : Option Effect := some ⟨pc, s.history, cache⟩
  match c.pc with
  | .select =>
      match newestRow s.history c.severity with
      | some row => continue_ (.lock row)
      | none => continue_ .readVersion
  | .lock row =>
      if s.calls.any (·.holds row) then none
      else if tokenMatches c.expectedToken row.publishToken then
        continue_ (.commit (some row) row.policyVersion)
      else continue_ .conflict
  | .readVersion => continue_ (.readToken (cache c.severity).policyVersion)
  | .readToken currentVersion =>
      if tokenMatches c.expectedToken (cache c.severity).publishToken then
        continue_ (.commit none currentVersion)
      else continue_ .conflict
  | .commit _ currentVersion =>
      let new := newHistoryRow sha256 c currentVersion token
      if !new.fits then continue_ (.raised (.dataError "sla_config_history"))
      else if s.history.any
          (fun r => r.severity = new.severity && r.policyVersion = new.policyVersion) then
        continue_ .conflict
      else some ⟨.refreshVersion new, s.history ++ [new], cache⟩
  | .refreshVersion new =>
      some ⟨.refreshConfig new, s.history, Function.update cache c.severity
        { cache c.severity with policyVersion := new.policyVersion }⟩
  | .refreshConfig new =>
      some ⟨.refreshToken new, s.history, Function.update cache c.severity
        { cache c.severity with config := new.config }⟩
  | .refreshToken new =>
      some ⟨.returned new, s.history, Function.update cache c.severity
        { cache c.severity with publishToken := new.publishToken }⟩
  | _ => none

/-- A call begins, a call executes its next statement with the token it draws should it commit, or a
process is restarted. -/
inductive PolicyAction
  | begin (process : ℕ) (severity : String) (config : SLASeverityConfig)
      (expectedToken : Option String)
  | move (call : ℕ) (token : String)
  | restart (process : ℕ)
deriving DecidableEq, Repr

/-- The call has returned or raised. -/
def PublishPc.over : PublishPc → Bool
  | .returned _ => true
  | .conflict => true
  | .raised _ => true
  | .lost => true
  | _ => false

/-- The call after its process was restarted: it is lost unless it was over. -/
def PublishCall.kill (process : ℕ) (c : PublishCall) : PublishCall :=
  if c.process = process ∧ c.pc.over = false then { c with pc := .lost } else c

/-- The interleaving semantics. A call with an unknown severity raises before its first statement. -/
def policyStep (sha256 : String → String) (s : PolicySys) : PolicyAction → Option PolicySys
  | .begin process severity config expectedToken =>
      match Severity.ofString severity with
      | none => some s
      | some sev =>
          some { s with calls := s.calls ++ [⟨process, sev, config, expectedToken, .select⟩] }
  | .move call token =>
      match s.calls[call]? with
      | none => none
      | some c =>
          match publishStep sha256 s c token with
          | none => none
          | some e => some {
              history := e.history
              caches := Function.update s.caches c.process e.cache
              calls := s.calls.set call { c with pc := e.pc } }
  | .restart process =>
      some { s with
        caches := Function.update s.caches process initialPolicy
        calls := s.calls.map (PublishCall.kill process) }

end ApexChainx.Sla
