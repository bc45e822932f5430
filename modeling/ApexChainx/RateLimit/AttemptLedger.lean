import ApexChainx.Core.Error
import ApexChainx.Lib.Transition
import ApexChainx.RateLimit.Limiters

/-!
# The persistent attempt ledger

`record_rate_limit_attempt` and `record_credential_prefix` (`app/services/auth_attempt_ledger.py`) on the
table `auth_attempt_ledger`, as functions and cut at their statements. A call prunes, counts and inserts in
one transaction, with nothing locked: it sees what the others have committed and not what they are about to
commit. Times are in microseconds, and the clock is far enough in the range of `datetime` that `now` less a window
is in it too.

A statement waits for a row that another transaction has deleted or updated; the steps below do not, which
adds interleavings and takes none away.
-/

namespace ApexChainx.RateLimit.AttemptLedger

open ApexChainx.Lib

/-- A row of `auth_attempt_ledger`. -/
structure AttemptRow where
  id : ℕ
  scopeHash : String
  attemptHash : String
  occurredAt : ℤ
deriving DecidableEq, Repr

/-- The settings, and SHA-256 as hexadecimal text. -/
structure LedgerSettings where
  /-- `AUTH_RATE_LIMIT_REQUESTS`. -/
  maxAttempts : ℤ
  /-- `AUTH_RATE_LIMIT_WINDOW_SECONDS`. -/
  windowSeconds : ℤ
  /-- `AUTH_CREDENTIAL_STUFFING_WINDOW_MINUTES`. -/
  stuffingMinutes : ℤ
  sha256 : String → String

namespace LedgerSettings

variable (cfg : LedgerSettings)

/-- The window of the rate limit, in microseconds. -/
def window : ℤ := cfg.windowSeconds * 1000000

/-- The window of the credential prefixes, in microseconds. -/
def stuffingWindow : ℤ := cfg.stuffingMinutes * 60 * 1000000

/-- `retention_seconds`, in microseconds. -/
def retention : ℤ := max cfg.windowSeconds (cfg.stuffingMinutes * 60) * 1000000

def rateScope (key : String) : String := cfg.sha256 ("rate:" ++ key)

def stuffingScope (ip : String) : String := cfg.sha256 ("stuffing:" ++ ip)

/-- `_digest(password[:4])`. -/
def prefixHash (password : String) : String := cfg.sha256 (String.ofList (password.toList.take 4))

end LedgerSettings

/-! ## Statements -/

/-- The rows that a transaction sees which has deleted some. -/
def visible (deleted : List ℕ) (rows : List AttemptRow) : List AttemptRow :=
  rows.filter (·.id ∉ deleted)

/-- The rows that `_prune_expired` deletes. -/
def expiredIds (cfg : LedgerSettings) (now : ℤ) (rows : List AttemptRow) : List ℕ :=
  (rows.filter (·.occurredAt < now - cfg.retention)).map AttemptRow.id

/-- The rows that `_prune_scope` deletes. -/
def scopeExpiredIds (scopeHash : String) (cutoff : ℤ) (rows : List AttemptRow) : List ℕ :=
  (rows.filter fun r => r.scopeHash = scopeHash ∧ r.occurredAt < cutoff).map AttemptRow.id

/-- The attempts of a scope from the cutoff on. -/
def attemptCount (scopeHash : String) (cutoff : ℤ) (rows : List AttemptRow) : ℕ :=
  rows.countP fun r => r.scopeHash = scopeHash ∧ cutoff ≤ r.occurredAt

/-- The unique constraint `uq_auth_attempt_scope_hash`. -/
def clashes (scopeHash attemptHash : String) (rows : List AttemptRow) : Bool :=
  rows.any fun r => r.scopeHash = scopeHash ∧ r.attemptHash = attemptHash

/-- The table and the next value of its sequence. -/
structure Ledger where
  rows : List AttemptRow
  nextId : ℕ
deriving DecidableEq, Repr

namespace Ledger

/-- The table after the two prunes of a call. -/
def pruned (cfg : LedgerSettings) (now : ℤ) (scopeHash : String) (cutoff : ℤ) (ledger : Ledger) :
    List AttemptRow :=
  let kept := visible (expiredIds cfg now ledger.rows) ledger.rows
  visible (scopeExpiredIds scopeHash cutoff kept) kept

/-- A row is added, unless the constraint refuses it. -/
def insert (rows : List AttemptRow) (scopeHash attemptHash : String) (now : ℤ) (ledger : Ledger) :
    Outcome Unit × Ledger :=
  if clashes scopeHash attemptHash rows then
    (.error (.integrityError "uq_auth_attempt_scope_hash"), { ledger with nextId := ledger.nextId + 1 })
  else (.ok (), ⟨rows ++ [⟨ledger.nextId, scopeHash, attemptHash, now⟩], ledger.nextId + 1⟩)

/-- `record_rate_limit_attempt`, with the hexadecimal text that `uuid4` draws. -/
def recordRateLimitAttempt (cfg : LedgerSettings) (key : String) (now : ℤ) (uuid : String)
    (ledger : Ledger) : Outcome Bool × Ledger :=
  let cutoff := now - cfg.window
  let rows := ledger.pruned cfg now (cfg.rateScope key) cutoff
  if cfg.maxAttempts ≤ attemptCount (cfg.rateScope key) cutoff rows then
    (.ok false, { ledger with rows := rows })
  else
    match ledger.insert rows (cfg.rateScope key) uuid now with
    | (.ok _, ledger') => (.ok true, ledger')
    | (.error e, ledger') => (.error e, ledger')

/-- `record_credential_prefix`. -/
def recordCredentialPrefix (cfg : LedgerSettings) (ip password : String) (maxPrefixes now : ℤ)
    (ledger : Ledger) : Outcome Unit × Ledger :=
  let cutoff := now - cfg.stuffingWindow
  let rows := ledger.pruned cfg now (cfg.stuffingScope ip) cutoff
  match rows.find? fun r =>
    r.scopeHash = cfg.stuffingScope ip ∧ r.attemptHash = cfg.prefixHash password with
  | some existing =>
      (.ok (), { ledger with
        rows := updateKey AttemptRow.id existing.id (fun r => { r with occurredAt := now }) rows })
  | none =>
      if maxPrefixes ≤ attemptCount (cfg.stuffingScope ip) cutoff rows then
        (.ok (), { ledger with rows := rows })
      else ledger.insert rows (cfg.stuffingScope ip) (cfg.prefixHash password) now

end Ledger

/-! ## Interleavings -/

/-- A call. -/
inductive Call
  | rateLimit (key : String)
  | credentialPrefix (ip password : String) (maxPrefixes : ℤ)
deriving DecidableEq, Repr

namespace Call

def scope (cfg : LedgerSettings) : Call → String
  | rateLimit key => cfg.rateScope key
  | credentialPrefix ip _ _ => cfg.stuffingScope ip

def cutoff (cfg : LedgerSettings) (now : ℤ) : Call → ℤ
  | rateLimit _ => now - cfg.window
  | credentialPrefix _ _ _ => now - cfg.stuffingWindow

def limit (cfg : LedgerSettings) : Call → ℤ
  | rateLimit _ => cfg.maxAttempts
  | credentialPrefix _ _ maxPrefixes => maxPrefixes

/-- The attempt hash of the row that the call inserts. -/
def attemptHash (cfg : LedgerSettings) (uuid : String) : Call → String
  | rateLimit _ => uuid
  | credentialPrefix _ password _ => cfg.prefixHash password

/-- What the call returns: `none` for `None`. -/
def answer (inserted : Bool) : Call → Option Bool
  | rateLimit _ => some inserted
  | credentialPrefix _ _ _ => none

end Call

/-- The statement a call executes next, with what it has read. -/
inductive Pc
  | pruneExpired
  | pruneScope
  /-- The query of `record_credential_prefix` for the row of the prefix. -/
  | lookup
  | count
  /-- The commit of a call that only pruned. -/
  | commit
  /-- The commit of a call that found the row of the prefix. -/
  | commitUpdate (id : ℕ)
  /-- The commit of a call that adds a row, with the number it counted. -/
  | commitInsert (counted : ℕ)
  | done (result : Outcome (Option Bool))
deriving DecidableEq, Repr

/-- What follows the two prunes. -/
def Pc.afterPrunes : Call → Pc
  | .rateLimit _ => .count
  | .credentialPrefix _ _ _ => .lookup

/-- A call in progress: the clock it read, and the rows it has deleted and not committed. -/
structure Request where
  call : Call
  now : ℤ
  deleted : List ℕ
  pc : Pc
deriving DecidableEq, Repr

/-- The ledger with the calls on it. `granted` notes the rate-limit calls that returned true, with the
clock they read; `pruned` the rows whose deletion was committed. -/
structure Sys where
  ledger : Ledger
  clock : ℤ
  requests : ℕ → Option Request
  granted : List (String × ℤ)
  pruned : List AttemptRow

def Sys.init : Sys := ⟨⟨[], 0⟩, 0, fun _ => none, [], []⟩

/-- A call begins and reads the clock, or executes its next statement, with the text `uuid4` draws. -/
inductive Action
  | begin (id : ℕ) (call : Call) (now : ℤ)
  | move (id : ℕ) (uuid : String)
deriving DecidableEq, Repr

/-- The call at its next statement. -/
def Sys.goTo (s : Sys) (id : ℕ) (r : Request) (pc : Pc) : Sys :=
  { s with requests := Function.update s.requests id (some { r with pc := pc }) }

/-- The call deletes rows. -/
def Sys.delete (s : Sys) (id : ℕ) (r : Request) (ids : List ℕ) (pc : Pc) : Sys :=
  s.goTo id { r with deleted := r.deleted ++ ids } pc

/-- The call commits, with the rows it leaves in place of those it saw. -/
def Sys.commit (s : Sys) (id : ℕ) (r : Request) (rows : List AttemptRow) (nextId : ℕ)
    (granted : List (String × ℤ)) (inserted : Bool) : Sys :=
  { s with
    ledger := ⟨rows, nextId⟩
    requests := Function.update s.requests id
      (some { r with pc := .done (.ok (r.call.answer inserted)) })
    granted := s.granted ++ granted
    pruned := s.pruned ++ s.ledger.rows.filter (·.id ∈ r.deleted) }

/-- What the calls that return true are noted as. -/
def Request.grants (r : Request) : List (String × ℤ) :=
  match r.call with
  | .rateLimit key => [(key, r.now)]
  | .credentialPrefix _ _ _ => []

/-- The next statement of a call. -/
def move (cfg : LedgerSettings) (s : Sys) (id : ℕ) (uuid : String) (r : Request) : Option Sys :=
  let rows := visible r.deleted s.ledger.rows
  let scopeHash := r.call.scope cfg
  let cutoff := r.call.cutoff cfg r.now
  let attemptHash := r.call.attemptHash cfg uuid
  match r.pc with
  | .pruneExpired => some (s.delete id r (expiredIds cfg r.now rows) .pruneScope)
  | .pruneScope => some (s.delete id r (scopeExpiredIds scopeHash cutoff rows) (.afterPrunes r.call))
  | .lookup =>
      match rows.find? fun q => q.scopeHash = scopeHash ∧ q.attemptHash = attemptHash with
      | some existing => some (s.goTo id r (.commitUpdate existing.id))
      | none => some (s.goTo id r .count)
  | .count =>
      let counted := attemptCount scopeHash cutoff rows
      some (s.goTo id r (if r.call.limit cfg ≤ counted then .commit else .commitInsert counted))
  | .commit => some (s.commit id r rows s.ledger.nextId [] false)
  | .commitUpdate existing =>
      if existing ∈ rows.map AttemptRow.id then
        some (s.commit id r (updateKey AttemptRow.id existing (fun q => { q with occurredAt := r.now }) rows)
          s.ledger.nextId [] false)
      else some (s.goTo id r (.done (.error (.staleRow "auth_attempt_ledger"))))
  | .commitInsert _ =>
      if clashes scopeHash attemptHash rows then
        some (({ s with ledger := { s.ledger with nextId := s.ledger.nextId + 1 } } : Sys).goTo id r
          (.done (.error (.integrityError "uq_auth_attempt_scope_hash"))))
      else
        some (s.commit id r (rows ++ [⟨s.ledger.nextId, scopeHash, attemptHash, r.now⟩])
          (s.ledger.nextId + 1) r.grants true)
  | .done _ => none

/-- The interleaving semantics: the clock never goes back. -/
def step (cfg : LedgerSettings) (s : Sys) : Action → Option Sys
  | .begin id call now =>
      if (s.requests id).isSome ∨ now < s.clock then none
      else
        some { s with
          clock := now
          requests := Function.update s.requests id (some ⟨call, now, [], .pruneExpired⟩) }
  | .move id uuid =>
      match s.requests id with
      | none => none
      | some r => move cfg s id uuid r

/-! ## The law -/

/-- The rate-limit calls for a key that returned true with a clock from `start` to `start + window`. -/
def grantedIn (cfg : LedgerSettings) (s : Sys) (key : String) (start : ℤ) : ℕ :=
  s.granted.countP fun c => decide (c.1 = key) && decide (start ≤ c.2 ∧ c.2 ≤ start + cfg.window)

/-- A rate-limit call that is about to insert counted what there still is to count: as many attempts of the
key in its window as are committed, and none of them deleted. -/
def Request.Current (cfg : LedgerSettings) (s : Sys) (r : Request) : Prop :=
  match r.call, r.pc with
  | .rateLimit key, .commitInsert counted =>
      attemptCount (cfg.rateScope key) (r.now - cfg.window) (visible r.deleted s.ledger.rows) = counted ∧
        attemptCount (cfg.rateScope key) (r.now - cfg.window) s.pruned = 0
  | _, _ => True

instance (cfg : LedgerSettings) (s : Sys) (r : Request) : Decidable (r.Current cfg s) := by
  unfold Request.Current
  split <;> infer_instance

/-- The step inserts no attempt of a rate limit on a count that is out of date. -/
def CountsCurrent (cfg : LedgerSettings) (s : Sys) : Action → Prop
  | .begin _ _ _ => True
  | .move id _ => ∀ r ∈ s.requests id, r.Current cfg s

instance (cfg : LedgerSettings) (s : Sys) : (a : Action) → Decidable (CountsCurrent cfg s a)
  | .begin _ _ _ => inferInstanceAs (Decidable True)
  | .move id _ => inferInstanceAs (Decidable (∀ r ∈ s.requests id, r.Current cfg s))

/-- The scope of a rate limit. -/
def RateScope (cfg : LedgerSettings) (scopeHash : String) : Prop := ∃ key, scopeHash = cfg.rateScope key

/-- The calls for a key that returned true with a clock from `start` on. -/
def grantedSince (granted : List (String × ℤ)) (key : String) (start : ℤ) : ℕ :=
  granted.countP fun c => decide (c.1 = key) && decide (start ≤ c.2)

/-- A call in progress deletes no attempt of a rate limit inside its window and updates none at all, and
adds a row only below its limit. -/
structure Request.Sound (cfg : LedgerSettings) (ledger : Ledger) (r : Request) : Prop where
  deleted_lt : ∀ i ∈ r.deleted, i < ledger.nextId
  deleted_old : ∀ q ∈ ledger.rows, q.id ∈ r.deleted → RateScope cfg q.scopeHash →
    q.occurredAt < r.now - cfg.window
  lookup : r.pc = .lookup → ¬ RateScope cfg (r.call.scope cfg)
  update : ∀ existing, r.pc = .commitUpdate existing → existing < ledger.nextId ∧
    ∀ q ∈ ledger.rows, q.id = existing → ¬ RateScope cfg q.scopeHash
  insert : ∀ counted : ℕ, r.pc = .commitInsert counted → (counted : ℤ) < r.call.limit cfg

/-- Ids are given out once, and an attempt that was let through stays in the table until its deletion is
committed. -/
structure Inv (cfg : LedgerSettings) (s : Sys) : Prop where
  ids : ∀ q ∈ s.ledger.rows, q.id < s.ledger.nextId
  nodup : (s.ledger.rows.map AttemptRow.id).Nodup
  requests : ∀ id r, s.requests id = some r → r.Sound cfg s.ledger
  counts : ∀ key start, grantedSince s.granted key start ≤
    attemptCount (cfg.rateScope key) start s.ledger.rows + attemptCount (cfg.rateScope key) start s.pruned
  admitted : Admitted (cfg.window + 1) cfg.maxAttempts s.granted

theorem inv_init (cfg : LedgerSettings) : Inv cfg Sys.init := by
  refine ⟨?_, List.nodup_nil, ?_, ?_, admitted_nil _ _⟩ <;> simp [Sys.init, grantedSince]

/-- The two kinds of scopes are different texts, and SHA-256 keeps them apart. -/
theorem not_rateScope_stuffing {cfg : LedgerSettings} (hinj : Function.Injective cfg.sha256) (ip : String) :
    ¬ RateScope cfg (cfg.stuffingScope ip) := by
  rintro ⟨key, hkey⟩
  have htext := congrArg String.toList (hinj hkey)
  simp at htext

theorem rateScope_injective {cfg : LedgerSettings} (hinj : Function.Injective cfg.sha256) :
    Function.Injective cfg.rateScope := by
  intro key key' hscope
  exact String.append_right_inj _ |>.mp (hinj hscope)

theorem window_le_retention (cfg : LedgerSettings) : cfg.window ≤ cfg.retention := by
  unfold LedgerSettings.window LedgerSettings.retention
  omega

theorem attemptCount_split (scopeHash : String) (start : ℤ) (deleted : List ℕ) (rows : List AttemptRow) :
    attemptCount scopeHash start rows = attemptCount scopeHash start (visible deleted rows) +
      attemptCount scopeHash start (rows.filter (·.id ∈ deleted)) := by
  unfold attemptCount visible
  rw [List.countP_eq_countP_filter_add rows _ (fun r => decide (r.id ∉ deleted))]
  congr 2
  apply List.filter_congr
  intro r _
  simp

/-- The times of the attempts in a scope. -/
def scopeTimes (scopeHash : String) (rows : List AttemptRow) : List ℤ :=
  (rows.filter (·.scopeHash = scopeHash)).map AttemptRow.occurredAt

theorem attemptCount_eq_countP (scopeHash : String) (cutoff : ℤ) (rows : List AttemptRow) :
    attemptCount scopeHash cutoff rows = (scopeTimes scopeHash rows).countP (cutoff - 1 < ·) := by
  rw [attemptCount, scopeTimes, List.countP_map, List.countP_filter]
  apply List.countP_congr
  intro q _
  simp only [Function.comp_apply, decide_eq_true_eq, Bool.and_eq_true, Int.sub_one_lt_iff]
  exact And.comm

/-- An update of a row in another scope. -/
theorem scopeTimes_update {scopeHash : String} {existing : ℕ} {rows : List AttemptRow}
    (h : ∀ q ∈ rows, q.id = existing → q.scopeHash ≠ scopeHash) (t : ℤ) :
    scopeTimes scopeHash (updateKey AttemptRow.id existing (fun q => { q with occurredAt := t }) rows)
      = scopeTimes scopeHash rows := by
  induction rows with
  | nil => rfl
  | cons q rows ih =>
      have htail := ih fun p hp => h p (List.mem_cons_of_mem q hp)
      unfold scopeTimes at htail ⊢
      rw [updateKey_cons]
      by_cases hid : q.id = existing
      · have hne := h q List.mem_cons_self hid
        simp [hid, hne, htail]
      · simp [hid, List.filter_cons, apply_ite (List.map AttemptRow.occurredAt), htail]

/-- A call goes to its next statement and changes no row. -/
theorem Inv.request {cfg : LedgerSettings} {s : Sys} (h : Inv cfg s) (id : ℕ) {r : Request}
    (hr : r.Sound cfg s.ledger) :
    Inv cfg { s with requests := Function.update s.requests id (some r) } :=
  ⟨h.ids, h.nodup, forall_update h.requests hr, h.counts, h.admitted⟩

/-- Every call in progress stays sound when rows leave the table, are added under new ids, or are updated
outside the rate limits. -/
theorem Request.Sound.rows {cfg : LedgerSettings} {ledger ledger' : Ledger} {r : Request}
    (h : r.Sound cfg ledger) (hnext : ledger.nextId ≤ ledger'.nextId)
    (hrows : ∀ q ∈ ledger'.rows, ledger.nextId ≤ q.id ∨
      ∃ p ∈ ledger.rows, p.id = q.id ∧ p.scopeHash = q.scopeHash ∧
        (RateScope cfg q.scopeHash → p = q)) : r.Sound cfg ledger' := by
  refine ⟨?_, ?_, h.lookup, ?_, h.insert⟩
  · intro i hi
    exact Nat.lt_of_lt_of_le (h.deleted_lt i hi) hnext
  · intro q hq hdel hrate
    rcases hrows q hq with hnew | ⟨p, hp, -, -, hsame⟩
    · have := h.deleted_lt q.id hdel
      omega
    · obtain rfl := hsame hrate
      exact h.deleted_old p hp hdel hrate
  · intro existing hpc
    obtain ⟨hlt, hscope⟩ := h.update existing hpc
    refine ⟨Nat.lt_of_lt_of_le hlt hnext, ?_⟩
    intro q hq hid hrate
    rcases hrows q hq with hnew | ⟨p, hp, hpid, hpscope, -⟩
    · omega
    · exact hscope p hp (hpid.trans hid) (hpscope ▸ hrate)

/-- A call commits. -/
theorem Inv.commit {cfg : LedgerSettings} {s : Sys} (h : Inv cfg s) {id : ℕ} {r : Request}
    (hr : s.requests id = some r) {rows : List AttemptRow} {nextId : ℕ} {granted : List (String × ℤ)}
    (inserted : Bool) (hnext : s.ledger.nextId ≤ nextId) (hids : ∀ q ∈ rows, q.id < nextId)
    (hnodup : (rows.map AttemptRow.id).Nodup)
    (hrows : ∀ q ∈ rows, s.ledger.nextId ≤ q.id ∨ ∃ p ∈ s.ledger.rows, p.id = q.id ∧
      p.scopeHash = q.scopeHash ∧ (RateScope cfg q.scopeHash → p = q))
    (hcounts : ∀ key start, grantedSince granted key start +
      attemptCount (cfg.rateScope key) start (visible r.deleted s.ledger.rows)
        ≤ attemptCount (cfg.rateScope key) start rows)
    (hadmitted : Admitted (cfg.window + 1) cfg.maxAttempts (s.granted ++ granted)) :
    Inv cfg (s.commit id r rows nextId granted inserted) := by
  have hsound : ∀ i q, s.requests i = some q → q.Sound cfg ⟨rows, nextId⟩ := by
    intro i q hi
    exact (h.requests i q hi).rows hnext hrows
  refine ⟨hids, hnodup, forall_update hsound ?_, ?_, hadmitted⟩
  · obtain ⟨hlt, hold, -, -, -⟩ := hsound id r hr
    refine ⟨hlt, hold, ?_, ?_, ?_⟩ <;> simp
  · intro key start
    have hold := h.counts key start
    have hnew := hcounts key start
    have hsplit := attemptCount_split (cfg.rateScope key) start r.deleted s.ledger.rows
    have hpruned : attemptCount (cfg.rateScope key) start
        (s.pruned ++ s.ledger.rows.filter (·.id ∈ r.deleted))
          = attemptCount (cfg.rateScope key) start s.pruned +
            attemptCount (cfg.rateScope key) start (s.ledger.rows.filter (·.id ∈ r.deleted)) :=
      List.countP_append
    have hgranted : grantedSince (s.granted ++ granted) key start
        = grantedSince s.granted key start + grantedSince granted key start := List.countP_append
    show grantedSince (s.granted ++ granted) key start ≤ attemptCount (cfg.rateScope key) start rows +
      attemptCount (cfg.rateScope key) start (s.pruned ++ s.ledger.rows.filter (·.id ∈ r.deleted))
    omega

/-- The rows that a commit keeps as it saw them. -/
theorem kept_of_visible {cfg : LedgerSettings} {s : Sys} (deleted : List ℕ) :
    ∀ q ∈ visible deleted s.ledger.rows, s.ledger.nextId ≤ q.id ∨ ∃ p ∈ s.ledger.rows, p.id = q.id ∧
      p.scopeHash = q.scopeHash ∧ (RateScope cfg q.scopeHash → p = q) := by
  intro q hq
  exact .inr ⟨q, (List.mem_filter.mp hq).1, rfl, rfl, fun _ => rfl⟩

/-- A call deletes the rows of `_prune_expired` or `_prune_scope`. -/
theorem Request.Sound.delete {cfg : LedgerSettings} {ledger : Ledger} {r : Request} {ids : List ℕ} {pc : Pc}
    (h : r.Sound cfg ledger) (hids : ∀ q ∈ ledger.rows, q.id < ledger.nextId)
    (hmem : ∀ i ∈ ids, ∃ q ∈ ledger.rows, q.id = i)
    (hold : ∀ q ∈ ledger.rows, q.id ∈ ids → RateScope cfg q.scopeHash → q.occurredAt < r.now - cfg.window)
    (hlookup : pc = .lookup → ¬ RateScope cfg (r.call.scope cfg))
    (hupdate : ∀ existing, pc ≠ .commitUpdate existing) (hinsert : ∀ counted, pc ≠ .commitInsert counted) :
    Request.Sound cfg ledger { r with deleted := r.deleted ++ ids, pc := pc } := by
  refine ⟨?_, ?_, hlookup, fun existing hpc => absurd hpc (hupdate existing),
    fun counted hpc => absurd hpc (hinsert counted)⟩
  · intro i hi
    rcases List.mem_append.mp hi with hmine | hnew
    · exact h.deleted_lt i hmine
    · obtain ⟨q, hq, rfl⟩ := hmem i hnew
      exact hids q hq
  · intro q hq hdel hrate
    rcases List.mem_append.mp hdel with hmine | hnew
    · exact h.deleted_old q hq hmine hrate
    · exact hold q hq hnew hrate

section Move

variable {cfg : LedgerSettings} {s : Sys} {id : ℕ} {r : Request}

theorem mem_rows_of_mem_visible {deleted : List ℕ} {rows : List AttemptRow} {q : AttemptRow}
    (h : q ∈ visible deleted rows) : q ∈ rows := (List.mem_filter.mp h).1

theorem nodup_append_nextId {rows : List AttemptRow} {n : ℕ} (hids : ∀ q ∈ rows, q.id < n)
    (hnodup : (rows.map AttemptRow.id).Nodup) {scopeHash attemptHash : String} {now : ℤ} :
    ((rows ++ [(⟨n, scopeHash, attemptHash, now⟩ : AttemptRow)]).map AttemptRow.id).Nodup := by
  rw [List.map_append, List.map_singleton]
  refine List.Nodup.append hnodup (List.nodup_singleton _) ?_
  rw [List.disjoint_singleton]
  intro hmem
  obtain ⟨q, hq, hid⟩ := List.mem_map.mp hmem
  exact absurd (show q.id = n from hid) (Nat.ne_of_lt (hids q hq))

theorem nodup_visible {rows : List AttemptRow} (h : (rows.map AttemptRow.id).Nodup) (deleted : List ℕ) :
    ((visible deleted rows).map AttemptRow.id).Nodup := h.sublist (List.filter_sublist.map _)

/-- What a prune deletes is in the table, and satisfies its condition. -/
theorem deleted_spec (h : Inv cfg s) (deleted : List ℕ) (p : AttemptRow → Bool) :
    (∀ i ∈ ((visible deleted s.ledger.rows).filter p).map AttemptRow.id, ∃ q ∈ s.ledger.rows, q.id = i) ∧
      ∀ q ∈ s.ledger.rows, q.id ∈ ((visible deleted s.ledger.rows).filter p).map AttemptRow.id →
        p q = true := by
  have hids : ∀ i ∈ ((visible deleted s.ledger.rows).filter p).map AttemptRow.id,
      ∃ q ∈ s.ledger.rows, q.id = i ∧ p q = true := by
    intro i hi
    obtain ⟨q, hq, rfl⟩ := List.mem_map.mp hi
    obtain ⟨hvis, hp⟩ := List.mem_filter.mp hq
    exact ⟨q, mem_rows_of_mem_visible hvis, rfl, hp⟩
  constructor
  · intro i hi
    obtain ⟨q, hq, hqi, -⟩ := hids i hi
    exact ⟨q, hq, hqi⟩
  · intro q hq hid
    obtain ⟨x, hx, hxq, hpx⟩ := hids q.id hid
    rwa [List.inj_on_of_nodup_map h.nodup hx hq hxq] at hpx

theorem Inv.pruneExpired (h : Inv cfg s) (hr : s.requests id = some r) :
    Inv cfg (s.delete id r (expiredIds cfg r.now (visible r.deleted s.ledger.rows)) .pruneScope) := by
  obtain ⟨hmem, hold⟩ := deleted_spec h r.deleted (fun q => decide (q.occurredAt < r.now - cfg.retention))
  apply h.request id
  refine (h.requests id r hr).delete h.ids hmem ?_ (by simp) (by simp) (by simp)
  intro q hq hid _
  have hlt := of_decide_eq_true (hold q hq hid)
  have hle := window_le_retention cfg
  omega

/-- The prune of a scope deletes the attempts of a rate limit that have left its window. -/
theorem Inv.pruneScope (h : Inv cfg s) (hinj : Function.Injective cfg.sha256) (hr : s.requests id = some r)
    (pc : Pc) (hpc : pc = .lookup → ¬ RateScope cfg (r.call.scope cfg))
    (hupdate : ∀ existing, pc ≠ .commitUpdate existing) (hinsert : ∀ counted, pc ≠ .commitInsert counted) :
    Inv cfg (s.delete id r (scopeExpiredIds (r.call.scope cfg) (r.call.cutoff cfg r.now)
      (visible r.deleted s.ledger.rows)) pc) := by
  obtain ⟨hmem, hold⟩ := deleted_spec h r.deleted (fun q =>
    decide (q.scopeHash = r.call.scope cfg ∧ q.occurredAt < r.call.cutoff cfg r.now))
  apply h.request id
  refine (h.requests id r hr).delete h.ids hmem ?_ hpc hupdate hinsert
  intro q hq hid hrate
  obtain ⟨hscope, hlt⟩ := of_decide_eq_true (hold q hq hid)
  cases hcall : r.call with
  | rateLimit key =>
      rw [hcall] at hlt
      exact hlt
  | credentialPrefix ip password maxPrefixes =>
      have hstuffing : q.scopeHash = cfg.stuffingScope ip := by rw [hscope, hcall, Call.scope]
      exact absurd (hstuffing ▸ hrate) (not_rateScope_stuffing hinj ip)

/-- A call that only pruned commits. -/
theorem Inv.commitPruned (h : Inv cfg s) (hr : s.requests id = some r) :
    Inv cfg (s.commit id r (visible r.deleted s.ledger.rows) s.ledger.nextId [] false) := by
  refine h.commit hr false le_rfl ?_ (nodup_visible h.nodup _) (kept_of_visible r.deleted) ?_ ?_
  · intro q hq
    exact h.ids q (mem_rows_of_mem_visible hq)
  · intro key start
    simp [grantedSince]
  · rw [List.append_nil]
    exact h.admitted

/-- A call that found the row of its prefix commits: no attempt of a rate limit is updated. -/
theorem Inv.commitUpdate (h : Inv cfg s) (hr : s.requests id = some r) {existing : ℕ}
    (hpc : r.pc = .commitUpdate existing) :
    Inv cfg (s.commit id r (updateKey AttemptRow.id existing (fun q => { q with occurredAt := r.now })
      (visible r.deleted s.ledger.rows)) s.ledger.nextId [] false) := by
  obtain ⟨-, hscope⟩ := (h.requests id r hr).update existing hpc
  refine h.commit hr false le_rfl ?_ ?_ ?_ ?_ ?_
  · intro q hq
    rcases mem_updateKey hq with hold | ⟨p, hp, -, rfl⟩
    · exact h.ids q (mem_rows_of_mem_visible hold)
    · exact h.ids p (mem_rows_of_mem_visible hp)
  · rw [map_key_updateKey (g := fun q : AttemptRow => { q with occurredAt := r.now }) fun _ => rfl]
    exact nodup_visible h.nodup _
  · intro q hq
    rcases mem_updateKey hq with hold | ⟨p, hp, hid, rfl⟩
    · exact kept_of_visible r.deleted q hold
    · refine .inr ⟨p, mem_rows_of_mem_visible hp, rfl, rfl, ?_⟩
      intro hrate
      exact absurd hrate (hscope p (mem_rows_of_mem_visible hp) hid)
  · intro key start
    rw [attemptCount_eq_countP, attemptCount_eq_countP, scopeTimes_update]
    · simp [grantedSince]
    · intro q hq hid hkey
      exact hscope q (mem_rows_of_mem_visible hq) hid ⟨key, hkey⟩
  · rw [List.append_nil]
    exact h.admitted

/-- A rate-limit call that returns true has added an attempt. -/
theorem grantedSince_grants_le (cfg : LedgerSettings) (r : Request) (i : ℕ) (attemptHash key : String) (start : ℤ) :
    grantedSince r.grants key start
      ≤ attemptCount (cfg.rateScope key) start [⟨i, r.call.scope cfg, attemptHash, r.now⟩] := by
  cases hcall : r.call with
  | credentialPrefix ip password maxPrefixes =>
      rw [Request.grants, hcall]
      exact Nat.zero_le _
  | rateLimit key' =>
      rw [Request.grants, hcall, grantedSince, attemptCount, Call.scope]
      by_cases hkey : key' = key
      · subst hkey
        simp
      · simp [hkey]

/-- What a call has deleted and not committed lies outside the window of its key. -/
theorem Inv.attemptCount_deleted (h : Inv cfg s) (hr : s.requests id = some r) (key : String) :
    attemptCount (cfg.rateScope key) (r.now - cfg.window) (s.ledger.rows.filter (·.id ∈ r.deleted)) = 0 := by
  apply List.countP_eq_zero.mpr
  intro q hq hcounted
  obtain ⟨hrow, hdel⟩ := List.mem_filter.mp hq
  obtain ⟨hscope, hstart⟩ := of_decide_eq_true hcounted
  have hold := (h.requests id r hr).deleted_old q hrow (of_decide_eq_true hdel) ⟨key, hscope⟩
  omega

/-- A call that counted what there still is to count is let through below the limit. -/
theorem Inv.admits (h : Inv cfg s) (hr : s.requests id = some r) {counted : ℕ}
    (hpc : r.pc = .commitInsert counted) (hcurrent : r.Current cfg s) :
    Admitted (cfg.window + 1) cfg.maxAttempts (s.granted ++ r.grants) := by
  have hlimit := (h.requests id r hr).insert counted hpc
  cases hcall : r.call with
  | credentialPrefix ip password maxPrefixes =>
      rw [Request.grants, hcall, List.append_nil]
      exact h.admitted
  | rateLimit key =>
      rw [Request.grants, hcall]
      apply h.admitted.append
      rw [Request.Current, hcall, hpc] at hcurrent
      obtain ⟨hvisible, hpruned⟩ := hcurrent
      rw [hcall, Call.limit] at hlimit
      have hcounts := h.counts key (r.now - cfg.window)
      have hsplit := attemptCount_split (cfg.rateScope key) (r.now - cfg.window) r.deleted s.ledger.rows
      have hdeleted := h.attemptCount_deleted hr key
      have hafter : hitsAfter (r.now - (cfg.window + 1)) key s.granted
          = grantedSince s.granted key (r.now - cfg.window) := by
        rw [hitsAfter_eq_countP, grantedSince]
        congr 1
        funext c
        congr 2
        apply propext
        omega
      rw [hafter]
      omega

/-- A call that adds a row commits. -/
theorem Inv.commitInsert (h : Inv cfg s) (hr : s.requests id = some r) {counted : ℕ}
    (hpc : r.pc = .commitInsert counted) (hcurrent : r.Current cfg s) (attemptHash : String) :
    Inv cfg (s.commit id r (visible r.deleted s.ledger.rows ++
      [⟨s.ledger.nextId, r.call.scope cfg, attemptHash, r.now⟩]) (s.ledger.nextId + 1) r.grants true) := by
  refine h.commit hr true (Nat.le_succ _) ?_ ?_ ?_ ?_ ?_
  · intro q hq
    rcases List.mem_append.mp hq with hold | hnew
    · exact Nat.lt_succ_of_lt (h.ids q (mem_rows_of_mem_visible hold))
    · rw [List.mem_singleton.mp hnew]
      exact Nat.lt_succ_self _
  · refine nodup_append_nextId ?_ (nodup_visible h.nodup _)
    intro q hq
    exact h.ids q (mem_rows_of_mem_visible hq)
  · intro q hq
    rcases List.mem_append.mp hq with hold | hnew
    · exact kept_of_visible r.deleted q hold
    · rw [List.mem_singleton.mp hnew]
      exact .inl le_rfl
  · intro key start
    have hadded := grantedSince_grants_le cfg r s.ledger.nextId attemptHash key start
    rw [attemptCount, attemptCount, List.countP_append, Nat.add_comm]
    exact Nat.add_le_add_left hadded _
  · exact h.admits hr hpc hcurrent

/-- A call goes to its next statement. -/
theorem Inv.goTo (h : Inv cfg s) (hr : s.requests id = some r) {pc : Pc}
    (hlookup : pc = .lookup → ¬ RateScope cfg (r.call.scope cfg))
    (hupdate : ∀ existing, pc = .commitUpdate existing → existing < s.ledger.nextId ∧
      ∀ q ∈ s.ledger.rows, q.id = existing → ¬ RateScope cfg q.scopeHash)
    (hinsert : ∀ counted : ℕ, pc = .commitInsert counted → (counted : ℤ) < r.call.limit cfg) :
    Inv cfg (s.goTo id r pc) := by
  obtain ⟨hlt, hold, -, -, -⟩ := h.requests id r hr
  exact h.request id ⟨hlt, hold, hlookup, hupdate, hinsert⟩

/-- A refused insert has drawn an id. -/
theorem Inv.draw (h : Inv cfg s) :
    Inv cfg { s with ledger := { s.ledger with nextId := s.ledger.nextId + 1 } } := by
  refine ⟨?_, h.nodup, ?_, h.counts, h.admitted⟩
  · intro q hq
    exact Nat.lt_succ_of_lt (h.ids q hq)
  · intro i q hi
    apply (h.requests i q hi).rows (Nat.le_succ _)
    intro p hp
    exact .inr ⟨p, hp, rfl, rfl, fun _ => rfl⟩

/-- The row that the query finds is of no rate limit. -/
theorem Inv.found (h : Inv cfg s) (hr : s.requests id = some r) (hpc : r.pc = .lookup)
    {attemptHash : String} {existing : AttemptRow}
    (hfind : (visible r.deleted s.ledger.rows).find? (fun q =>
      decide (q.scopeHash = r.call.scope cfg ∧ q.attemptHash = attemptHash)) = some existing) :
    existing.id < s.ledger.nextId ∧
      ∀ q ∈ s.ledger.rows, q.id = existing.id → ¬ RateScope cfg q.scopeHash := by
  have hmem := mem_rows_of_mem_visible (List.mem_of_find?_eq_some hfind)
  refine ⟨h.ids existing hmem, ?_⟩
  intro q hq hid hrate
  obtain rfl := List.inj_on_of_nodup_map h.nodup hq hmem hid
  have hscope := List.find?_some hfind
  simp only [decide_eq_true_eq] at hscope
  exact (h.requests id r hr).lookup hpc (hscope.1 ▸ hrate)

/-- Every statement keeps the invariant, if a rate limit's insert is on a current count. -/
theorem inv_move (hinj : Function.Injective cfg.sha256) (h : Inv cfg s) (hr : s.requests id = some r)
    (hcurrent : r.Current cfg s) {uuid : String} {s' : Sys} (hmove : move cfg s id uuid r = some s') :
    Inv cfg s' := by
  unfold move at hmove
  cases hpc : r.pc with
  | pruneExpired =>
      rw [hpc] at hmove
      obtain rfl := Option.some.inj hmove
      exact h.pruneExpired hr
  | pruneScope =>
      rw [hpc] at hmove
      obtain rfl := Option.some.inj hmove
      cases hcall : r.call with
      | rateLimit key =>
          have hnext := h.pruneScope hinj hr .count (by simp) (by simp) (by simp)
          rwa [hcall] at hnext
      | credentialPrefix ip password maxPrefixes =>
          -- the two kinds of limits never share a scope
          have hstuffing : ¬ RateScope cfg (r.call.scope cfg) := by
            rw [hcall]
            exact not_rateScope_stuffing hinj ip
          have hnext := h.pruneScope hinj hr .lookup (fun _ => hstuffing) (by simp) (by simp)
          rwa [hcall] at hnext
  | lookup =>
      simp only [hpc] at hmove
      split at hmove
      · rename_i existing hfind
        obtain rfl := Option.some.inj hmove
        refine h.goTo hr (by simp) ?_ (by simp)
        intro i hi
        obtain rfl := Pc.commitUpdate.inj hi
        exact h.found hr hpc hfind
      · obtain rfl := Option.some.inj hmove
        exact h.goTo hr (by simp) (by simp) (by simp)
  | count =>
      simp only [hpc] at hmove
      obtain rfl := Option.some.inj hmove
      split
      · exact h.goTo hr (by simp) (by simp) (by simp)
      -- the insert is made on this count
      · rename_i hbelow
        refine h.goTo hr (by simp) (by simp) ?_
        intro counted hcounted
        obtain rfl := Pc.commitInsert.inj hcounted
        omega
  | commit =>
      rw [hpc] at hmove
      obtain rfl := Option.some.inj hmove
      exact h.commitPruned hr
  | commitUpdate existing =>
      simp only [hpc] at hmove
      split at hmove
      · obtain rfl := Option.some.inj hmove
        exact h.commitUpdate hr hpc
      · obtain rfl := Option.some.inj hmove
        exact h.goTo hr (by simp) (by simp) (by simp)
  | commitInsert counted =>
      simp only [hpc] at hmove
      split at hmove
      · obtain rfl := Option.some.inj hmove
        exact h.draw.goTo hr (by simp) (by simp) (by simp)
      · obtain rfl := Option.some.inj hmove
        exact h.commitInsert hr hpc hcurrent _
  | done result =>
      rw [hpc] at hmove
      cases hmove

end Move

theorem inv_step {cfg : LedgerSettings} (hinj : Function.Injective cfg.sha256) {s s' : Sys} {a : Action}
    (h : Inv cfg s) (hcurrent : CountsCurrent cfg s a) (hstep : step cfg s a = some s') : Inv cfg s' := by
  cases a with
  | begin id call now =>
      simp only [step] at hstep
      split at hstep
      · cases hstep
      · obtain rfl := Option.some.inj hstep
        have hsound : Request.Sound cfg s.ledger ⟨call, now, [], .pruneExpired⟩ := by
          constructor <;> simp
        exact ⟨h.ids, h.nodup, forall_update h.requests hsound, h.counts, h.admitted⟩
  | move id uuid =>
      simp only [step] at hstep
      split at hstep
      · cases hstep
      · rename_i r hr
        exact inv_move hinj h hr (hcurrent r hr) hstep

/-- In every run whose inserts are on current counts, no window holds more granted calls than the limit. -/
theorem grantedIn_le_of_current {cfg : LedgerSettings} (hinj : Function.Injective cfg.sha256) {s : Sys}
    {as : List Action} (hrun : run (step cfg) Sys.init as = some s)
    (hguarded : Guarded (step cfg) (CountsCurrent cfg) Sys.init as) (key : String) (start : ℤ) :
    grantedIn cfg s key start ≤ cfg.maxAttempts.toNat := by
  have hkeep : ∀ s a s', Inv cfg s → CountsCurrent cfg s a → step cfg s a = some s' → Inv cfg s' :=
    fun _ _ _ h hok hstep => inv_step hinj h hok hstep
  have hinv := run_invariant_of_guarded hkeep (inv_init cfg) hguarded hrun
  have hle := hinv.admitted.countP_le key start
  refine Nat.le_trans (List.countP_mono_left ?_) hle
  intro c _ hc
  simp only [Bool.and_eq_true, decide_eq_true_eq] at hc ⊢
  exact ⟨hc.1, hc.2.1, by omega⟩

/-! ## One call after the other -/

/-- A call with the clock it reads and the text `uuid4` draws in it. -/
structure Entry where
  call : Call
  now : ℤ
  uuid : String
deriving DecidableEq, Repr

/-- A call on the ledger. -/
def ledgerStep (cfg : LedgerSettings) (ledger : Ledger) (e : Entry) : Outcome (Option Bool) × Ledger :=
  match e.call with
  | .rateLimit key =>
      match ledger.recordRateLimitAttempt cfg key e.now e.uuid with
      | (.ok allowed, ledger') => (.ok (some allowed), ledger')
      | (.error err, ledger') => (.error err, ledger')
  | .credentialPrefix ip password maxPrefixes =>
      match ledger.recordCredentialPrefix cfg ip password maxPrefixes e.now with
      | (.ok _, ledger') => (.ok none, ledger')
      | (.error err, ledger') => (.error err, ledger')

theorem ledgerStep_rateLimit {cfg : LedgerSettings} {ledger : Ledger} {e : Entry} {key : String} {b : Bool}
    (hcall : e.call = .rateLimit key)
    (hok : (ledger.recordRateLimitAttempt cfg key e.now e.uuid).1 = .ok b) :
    ledgerStep cfg ledger e
      = (.ok (some b), (ledger.recordRateLimitAttempt cfg key e.now e.uuid).2) := by
  simp only [ledgerStep, hcall]
  generalize ledger.recordRateLimitAttempt cfg key e.now e.uuid = result at hok ⊢
  obtain ⟨outcome, ledger'⟩ := result
  obtain rfl : outcome = .ok b := hok
  rfl

theorem ledgerStep_credentialPrefix {cfg : LedgerSettings} {ledger : Ledger} {e : Entry}
    {ip password : String} {maxPrefixes : ℤ} (hcall : e.call = .credentialPrefix ip password maxPrefixes)
    (hok : (ledger.recordCredentialPrefix cfg ip password maxPrefixes e.now).1 = .ok ()) :
    ledgerStep cfg ledger e
      = (.ok none, (ledger.recordCredentialPrefix cfg ip password maxPrefixes e.now).2) := by
  simp only [ledgerStep, hcall]
  generalize ledger.recordCredentialPrefix cfg ip password maxPrefixes e.now = result at hok ⊢
  obtain ⟨outcome, ledger'⟩ := result
  obtain rfl : outcome = .ok () := hok
  rfl

/-- The rate-limit call put to `SimpleRateLimiter` without a session. -/
def memoryStep (cfg : LedgerSettings) (requests : Requests) (e : Entry) :
    Outcome (Option Bool) × Requests :=
  match e.call with
  | .rateLimit key =>
      let result := requests.isAllowed cfg.window cfg.maxAttempts key e.now
      (.ok (some result.1), result.2)
  | .credentialPrefix _ _ _ => (.ok none, requests)

/-- A rate limit is not used up only by attempts exactly `window_seconds` ago. -/
def OffEdge (cfg : LedgerSettings) (ledger : Ledger) (e : Entry) : Prop :=
  match e.call with
  | .rateLimit key =>
      cfg.maxAttempts ≤ attemptCount (cfg.rateScope key) (e.now - cfg.window) ledger.rows →
        cfg.maxAttempts ≤ attemptCount (cfg.rateScope key) (e.now - cfg.window + 1) ledger.rows
  | .credentialPrefix _ _ _ => True

instance (cfg : LedgerSettings) (ledger : Ledger) (e : Entry) : Decidable (OffEdge cfg ledger e) := by
  unfold OffEdge
  split <;> infer_instance

theorem scopeTimes_append (scopeHash : String) (rows added : List AttemptRow) :
    scopeTimes scopeHash (rows ++ added) = scopeTimes scopeHash rows ++ scopeTimes scopeHash added := by
  simp only [scopeTimes, List.filter_append, List.map_append]

/-- Deleting rows that are not after a cutoff keeps the times after it. -/
theorem scopeTimes_filter_not {scopeHash : String} {cutoff : ℤ} {rows : List AttemptRow}
    {p : AttemptRow → Bool}
    (h : ∀ q ∈ rows, p q = true → q.scopeHash = scopeHash → q.occurredAt ≤ cutoff) :
    (scopeTimes scopeHash (rows.filter fun q => !p q)).filter (cutoff < ·)
      = (scopeTimes scopeHash rows).filter (cutoff < ·) := by
  simp only [scopeTimes, List.filter_map, List.filter_filter]
  congr 1
  apply List.filter_congr
  intro q hq
  by_cases hp : p q = true ∧ q.scopeHash = scopeHash
  · have hnot : ¬ cutoff < q.occurredAt := Int.not_lt.mpr (h q hq hp.1 hp.2)
    simp [hnot]
  · by_cases hscope : q.scopeHash = scopeHash
    · simp [hscope, Bool.eq_false_iff.mpr fun hpq => hp ⟨hpq, hscope⟩]
    · simp [hscope]

/-- What a prune by primary keys leaves. -/
theorem visible_ids {rows : List AttemptRow} (hnodup : (rows.map AttemptRow.id).Nodup)
    (p : AttemptRow → Bool) :
    visible ((rows.filter p).map AttemptRow.id) rows = rows.filter fun q => !p q := by
  apply List.filter_congr
  intro q hq
  cases hp : p q with
  | true =>
      have hmem : q.id ∈ (rows.filter p).map AttemptRow.id :=
        List.mem_map_of_mem (List.mem_filter.mpr ⟨hq, hp⟩)
      exact decide_eq_false (not_not.mpr hmem)
  | false =>
      have hnot : q.id ∉ (rows.filter p).map AttemptRow.id := by
        intro hmem
        obtain ⟨x, hx, hid⟩ := List.mem_map.mp hmem
        obtain ⟨hxrows, hpx⟩ := List.mem_filter.mp hx
        rw [List.inj_on_of_nodup_map hnodup hxrows hq hid, hp] at hpx
        cases hpx
      exact decide_eq_true hnot

/-- The ledger follows the hits: of each key it keeps the attempts that `window_seconds` reach back to,
and perhaps others. -/
structure LedgerTracks (cfg : LedgerSettings) (now : ℤ) (hits : List (String × ℤ)) (used : List String)
    (ledger : Ledger) : Prop where
  ids : ∀ q ∈ ledger.rows, q.id < ledger.nextId
  nodup : (ledger.rows.map AttemptRow.id).Nodup
  kept : ∀ key, Kept (cfg.window + 1) now (timesOf key hits) (scopeTimes (cfg.rateScope key) ledger.rows)
  drawn : ∀ q ∈ ledger.rows, RateScope cfg q.scopeHash → q.attemptHash ∈ used

namespace LedgerTracks

variable {cfg : LedgerSettings} {now now' : ℤ} {hits : List (String × ℤ)} {used : List String}
  {ledger : Ledger}

theorem empty (cfg : LedgerSettings) (now : ℤ) : LedgerTracks cfg now [] [] ⟨[], 0⟩ := by
  refine ⟨?_, List.nodup_nil, fun key => Kept.nil _ now, ?_⟩ <;> simp

theorem later (h : LedgerTracks cfg now hits used ledger) (hle : now ≤ now') :
    LedgerTracks cfg now' hits used ledger :=
  ⟨h.ids, h.nodup, fun key => (h.kept key).later hle, h.drawn⟩

theorem usedMore (h : LedgerTracks cfg now hits used ledger) (uuid : String) :
    LedgerTracks cfg now hits (used ++ [uuid]) ledger := by
  refine ⟨h.ids, h.nodup, h.kept, ?_⟩
  intro q hq hrate
  exact List.mem_append_left _ (h.drawn q hq hrate)

/-- Rows are deleted, of the rate limits only such as have left the window. -/
theorem delete (h : LedgerTracks cfg now hits used ledger) {p : AttemptRow → Bool}
    (hp : ∀ q ∈ ledger.rows, p q = true → RateScope cfg q.scopeHash → q.occurredAt < now - cfg.window) :
    LedgerTracks cfg now hits used
      { ledger with rows := visible ((ledger.rows.filter p).map AttemptRow.id) ledger.rows } := by
  refine ⟨?_, nodup_visible h.nodup _, ?_, ?_⟩
  · intro q hq
    exact h.ids q (mem_rows_of_mem_visible hq)
  · intro key
    rw [visible_ids h.nodup]
    apply (h.kept key).of_sublist
    · exact (List.filter_sublist.filter _).map _
    · apply scopeTimes_filter_not
      intro q hq hpq hscope
      have := hp q hq hpq ⟨key, hscope⟩
      omega
  · intro q hq
    exact h.drawn q (mem_rows_of_mem_visible hq)

/-- The two prunes of a call, of a rate limit or of a scope that is none. -/
theorem pruned (h : LedgerTracks cfg now hits used ledger) {scopeHash : String} {cutoff : ℤ}
    (hcutoff : RateScope cfg scopeHash → cutoff = now - cfg.window) :
    LedgerTracks cfg now hits used { ledger with rows := ledger.pruned cfg now scopeHash cutoff } := by
  have hexpired : LedgerTracks cfg now hits used
      { ledger with rows := visible (expiredIds cfg now ledger.rows) ledger.rows } := by
    apply h.delete
    intro q _ hold _
    have hlt := of_decide_eq_true hold
    have hle := window_le_retention cfg
    omega
  apply hexpired.delete
  intro q _ hold hrate
  obtain ⟨hscope, hlt⟩ := of_decide_eq_true hold
  rw [hcutoff (hscope ▸ hrate)] at hlt
  exact hlt

/-- What is counted in the ledger are the calls let through. -/
theorem attemptCount_eq (h : LedgerTracks cfg now hits used ledger) (key : String) {cutoff : ℤ}
    (hcutoff : now - cfg.window ≤ cutoff) :
    attemptCount (cfg.rateScope key) cutoff ledger.rows = hitsAfter (cutoff - 1) key hits := by
  rw [attemptCount_eq_countP, hitsAfter]
  apply (h.kept key).countP_eq
  omega

/-- A row is added, for a call let through or outside the rate limits. -/
theorem insert (h : LedgerTracks cfg now hits used ledger) {scopeHash attemptHash : String}
    {added : List (String × ℤ)}
    (hadded : ∀ key, timesOf key added = if scopeHash = cfg.rateScope key then [now] else [])
    (hused : RateScope cfg scopeHash → attemptHash ∈ used) :
    LedgerTracks cfg now (hits ++ added) used
      ⟨ledger.rows ++ [⟨ledger.nextId, scopeHash, attemptHash, now⟩], ledger.nextId + 1⟩ := by
  refine ⟨?_, ?_, ?_, ?_⟩
  · intro q hq
    rcases List.mem_append.mp hq with hold | hnew
    · exact Nat.lt_succ_of_lt (h.ids q hold)
    · rw [List.mem_singleton.mp hnew]
      exact Nat.lt_succ_self _
  · exact nodup_append_nextId h.ids h.nodup
  · intro key
    have htimes : scopeTimes (cfg.rateScope key) [⟨ledger.nextId, scopeHash, attemptHash, now⟩]
        = timesOf key added := by
      rw [hadded, scopeTimes, List.filter_singleton]
      by_cases hscope : scopeHash = cfg.rateScope key
      · simp [hscope]
      · simp [hscope]
    rw [timesOf_append, scopeTimes_append, htimes]
    exact (h.kept key).append _
  · intro q hq hrate
    rcases List.mem_append.mp hq with hold | hnew
    · exact h.drawn q hold hrate
    · rw [List.mem_singleton.mp hnew] at hrate ⊢
      exact hused hrate

/-- An attempt with a new text does not clash. -/
theorem clashes_eq_false (h : LedgerTracks cfg now hits used ledger) (key : String) {uuid : String}
    (hfresh : uuid ∉ used) : clashes (cfg.rateScope key) uuid ledger.rows = false := by
  apply List.any_eq_false.mpr
  intro q hq hclash
  obtain ⟨hscope, rfl⟩ := of_decide_eq_true hclash
  exact hfresh (h.drawn q hq ⟨key, hscope⟩)

/-- A rate-limit call decides as the limiter that remembers everything, with a window that is one tick
longer, and follows it. -/
theorem rateLimit (h : LedgerTracks cfg now hits used ledger) (hinj : Function.Injective cfg.sha256)
    (key : String) {uuid : String} (hfresh : uuid ∉ used) :
    let result := ledger.recordRateLimitAttempt cfg key now uuid
    result.1 = .ok (windowStep (cfg.window + 1) cfg.maxAttempts hits (key, now)).1 ∧
      LedgerTracks cfg now (windowStep (cfg.window + 1) cfg.maxAttempts hits (key, now)).2 (used ++ [uuid])
        result.2 := by
  have hpruned : LedgerTracks cfg now hits used
      { ledger with rows := ledger.pruned cfg now (cfg.rateScope key) (now - cfg.window) } :=
    h.pruned fun _ => rfl
  have hcount := hpruned.attemptCount_eq key le_rfl
  have hstart : now - cfg.window - 1 = now - (cfg.window + 1) := by omega
  rw [hstart] at hcount
  have hclash := hpruned.clashes_eq_false key hfresh
  simp only [Ledger.recordRateLimitAttempt, windowStep, Ledger.insert, hcount, hclash]
  by_cases hfull : cfg.maxAttempts ≤ hitsAfter (now - (cfg.window + 1)) key hits
  · simp only [if_pos hfull]
    exact ⟨trivial, hpruned.usedMore uuid⟩
  · simp only [if_neg hfull, Bool.false_eq_true, if_false]
    refine ⟨trivial, (hpruned.usedMore uuid).insert ?_ ?_⟩
    · intro k
      rw [timesOf_singleton]
      by_cases hkey : key = k
      · rw [if_pos hkey, if_pos (congrArg cfg.rateScope hkey)]
      · rw [if_neg hkey, if_neg fun hscope => hkey (rateScope_injective hinj hscope)]
    · intro _
      exact List.mem_append_right _ (List.mem_singleton_self uuid)

/-- A row outside the rate limits is updated. -/
theorem update (h : LedgerTracks cfg now hits used ledger) {existing : AttemptRow}
    (hmem : existing ∈ ledger.rows) (hscope : ¬ RateScope cfg existing.scopeHash) (t : ℤ) :
    LedgerTracks cfg now hits used { ledger with
      rows := updateKey AttemptRow.id existing.id (fun r => { r with occurredAt := t }) ledger.rows } := by
  have hrows : ∀ q ∈ updateKey AttemptRow.id existing.id (fun r => { r with occurredAt := t }) ledger.rows,
      ∃ p ∈ ledger.rows, p.id = q.id ∧ p.scopeHash = q.scopeHash ∧ p.attemptHash = q.attemptHash := by
    intro q hq
    rcases mem_updateKey hq with hold | ⟨p, hp, -, rfl⟩
    · exact ⟨q, hold, rfl, rfl, rfl⟩
    · exact ⟨p, hp, rfl, rfl, rfl⟩
  refine ⟨?_, ?_, ?_, ?_⟩
  · intro q hq
    obtain ⟨p, hp, hid, -, -⟩ := hrows q hq
    exact hid ▸ h.ids p hp
  · rw [map_key_updateKey (g := fun q : AttemptRow => { q with occurredAt := t }) fun _ => rfl]
    exact h.nodup
  · intro key
    rw [scopeTimes_update]
    · exact h.kept key
    · intro q hq hid hkey
      obtain rfl := List.inj_on_of_nodup_map h.nodup hq hmem hid
      exact hscope ⟨key, hkey⟩
  · intro q hq hrate
    obtain ⟨p, hp, -, hscope, hattempt⟩ := hrows q hq
    rw [← hattempt]
    exact h.drawn p hp (hscope ▸ hrate)

/-- A credential prefix is recorded without an error, and no attempt of a rate limit with it. -/
theorem credentialPrefix (h : LedgerTracks cfg now hits used ledger)
    (hinj : Function.Injective cfg.sha256) (ip password : String) (maxPrefixes : ℤ) :
    let result := ledger.recordCredentialPrefix cfg ip password maxPrefixes now
    result.1 = .ok () ∧ LedgerTracks cfg now hits used result.2 := by
  have hscope := not_rateScope_stuffing hinj ip
  have hpruned : LedgerTracks cfg now hits used
      { ledger with rows := ledger.pruned cfg now (cfg.stuffingScope ip) (now - cfg.stuffingWindow) } :=
    h.pruned fun hrate => absurd hrate hscope
  intro result
  set rows := ledger.pruned cfg now (cfg.stuffingScope ip) (now - cfg.stuffingWindow) with hrows
  have hunfold : result = match rows.find? fun r =>
      r.scopeHash = cfg.stuffingScope ip ∧ r.attemptHash = cfg.prefixHash password with
    | some existing =>
        (.ok (), { ledger with
          rows := updateKey AttemptRow.id existing.id (fun r => { r with occurredAt := now }) rows })
    | none =>
        if maxPrefixes ≤ attemptCount (cfg.stuffingScope ip) (now - cfg.stuffingWindow) rows then
          (.ok (), { ledger with rows := rows })
        else ledger.insert rows (cfg.stuffingScope ip) (cfg.prefixHash password) now := rfl
  rw [hunfold]
  cases hfind : rows.find? fun r =>
      r.scopeHash = cfg.stuffingScope ip ∧ r.attemptHash = cfg.prefixHash password with
  | some existing =>
      refine ⟨rfl, ?_⟩
      have hfound := List.find?_some hfind
      simp only [decide_eq_true_eq] at hfound
      exact hpruned.update (List.mem_of_find?_eq_some hfind) (hfound.1 ▸ hscope) now
  | none =>
      simp only
      split
      · exact ⟨rfl, hpruned⟩
      · have hclash : clashes (cfg.stuffingScope ip) (cfg.prefixHash password) rows = false := by
          apply List.any_eq_false.mpr
          exact List.find?_eq_none.mp hfind
        rw [Ledger.insert, hclash, if_neg Bool.false_ne_true]
        refine ⟨rfl, ?_⟩
        rw [← List.append_nil hits]
        apply hpruned.insert
        · intro key
          rw [if_neg fun hkey => hscope ⟨key, hkey⟩]
          rfl
        · intro hrate
          exact absurd hrate hscope

end LedgerTracks

/-- A call that runs alone is the call on the ledger. -/
theorem run_alone (cfg : LedgerSettings) {s : Sys} {id : ℕ} (hfree : s.requests id = none) (call : Call)
    {now : ℤ} (hnow : s.clock ≤ now) (uuid : String) : ∃ moves s',
    run (step cfg) s (.begin id call now :: List.replicate moves (.move id uuid)) = some s' ∧
      s'.ledger = (ledgerStep cfg s.ledger ⟨call, now, uuid⟩).2 ∧
      ∃ r, s'.requests id = some r ∧ r.pc = .done (ledgerStep cfg s.ledger ⟨call, now, uuid⟩).1 := by
  have hclock : ¬ now < s.clock := not_lt.mpr hnow
  -- the second prune starts from what the first one leaves visible
  have hrows : ∀ more, visible (expiredIds cfg now s.ledger.rows ++ more) s.ledger.rows
      = visible more (visible (expiredIds cfg now s.ledger.rows) s.ledger.rows) := by
    intro more
    simp only [visible, List.filter_filter, List.mem_append, not_or]
    refine List.filter_congr fun q _ => ?_
    simp [Bool.and_comm]
  have hnone : visible [] s.ledger.rows = s.ledger.rows := by
    simp [visible]
  cases call with
  | rateLimit key =>
      set rows := s.ledger.pruned cfg now (cfg.rateScope key) (now - cfg.window) with hpruned
      unfold Ledger.pruned at hpruned
      -- the two prunes, the count, and the commit with a row or without one
      refine ⟨4, ?_⟩
      by_cases hfull : cfg.maxAttempts ≤ attemptCount (cfg.rateScope key) (now - cfg.window) rows <;>
        cases hclash : clashes (cfg.rateScope key) uuid rows <;>
        simp [List.replicate, run, step, move, hfree, hclock, Sys.delete, Sys.goTo, Sys.commit, Pc.afterPrunes, hrows,
          hnone, Call.scope, Call.cutoff, Call.limit, Call.attemptHash, Call.answer, ledgerStep,
          Ledger.recordRateLimitAttempt, Ledger.insert, Ledger.pruned, ← hpruned, hfull, hclash]
  | credentialPrefix ip password maxPrefixes =>
      set rows := s.ledger.pruned cfg now (cfg.stuffingScope ip) (now - cfg.stuffingWindow) with hpruned
      unfold Ledger.pruned at hpruned
      cases hfind : rows.find? fun r =>
          decide (r.scopeHash = cfg.stuffingScope ip ∧ r.attemptHash = cfg.prefixHash password) with
      | some existing =>
          -- the row of the prefix is stamped again
          have hmem : ∃ q ∈ rows, q.id = existing.id := ⟨existing, List.mem_of_find?_eq_some hfind, rfl⟩
          refine ⟨4, ?_⟩
          simp only [List.replicate, run, step, move, hfree, hclock, Sys.delete, Sys.goTo, Pc.afterPrunes, hnone,
            Option.isSome_none, Bool.false_eq_true, or_self, if_false, Option.bind_some, Function.update_self,
            List.nil_append]
          dsimp +instances only [Call.scope, Call.cutoff, Call.attemptHash]
          simp [hrows, ← hpruned, hfind, hmem, Sys.commit, Call.answer, ledgerStep, Ledger.recordCredentialPrefix,
            Ledger.pruned, -Bool.decide_and]
      | none =>
          refine ⟨5, ?_⟩
          simp only [List.replicate, run, step, move, hfree, hclock, Sys.delete, Sys.goTo, Pc.afterPrunes, hnone,
            Option.isSome_none, Bool.false_eq_true, or_self, if_false, Option.bind_some, Function.update_self,
            List.nil_append]
          dsimp +instances only [Call.scope, Call.cutoff, Call.attemptHash, Call.limit]
          by_cases hfull : maxPrefixes ≤ attemptCount (cfg.stuffingScope ip) (now - cfg.stuffingWindow) rows <;>
            cases hclash : clashes (cfg.stuffingScope ip) (cfg.prefixHash password) rows <;>
            simp [hrows, ← hpruned, hfind, hfull, hclash, Sys.commit, Call.answer, ledgerStep,
              Ledger.recordCredentialPrefix, Ledger.insert, Ledger.pruned, -Bool.decide_and]

/-- What a call follows when it is the next of a history: the earlier ones are not later, and drew other
texts. -/
structure Next (past : List Entry) (e : Entry) : Prop where
  time_le : ∀ b ∈ past, b.now ≤ e.now
  fresh : e.uuid ∉ past.map (·.uuid)

theorem next_of_split {history : List Entry} (htimes : history.Pairwise (·.now ≤ ·.now))
    (huuids : (history.map (·.uuid)).Nodup) (before : List Entry) (e : Entry) (after : List Entry)
    (hsplit : history = before ++ e :: after) : Next before e := by
  constructor
  · rw [hsplit, List.pairwise_append] at htimes
    intro b hb
    exact htimes.2.2 b hb e List.mem_cons_self
  · rw [hsplit, List.map_append, List.map_cons, List.nodup_append] at huuids
    intro hused
    exact huuids.2.2 _ hused _ List.mem_cons_self rfl

/-- The ledger and the limiter in the process let the same calls through so far. -/
def Agree (cfg : LedgerSettings) (past : List Entry) (ledger : Ledger) (requests : Requests) : Prop :=
  ∃ hits, ∀ now, (∀ e ∈ past, e.now ≤ now) →
    LedgerTracks cfg now hits (past.map (·.uuid)) ledger ∧ SimpleTracks cfg.window now hits requests

theorem Agree.next {cfg : LedgerSettings} {past : List Entry} {e : Entry} {ledger : Ledger}
    {requests : Requests} {hits : List (String × ℤ)}
    (hledger : LedgerTracks cfg e.now hits (past.map (·.uuid) ++ [e.uuid]) ledger)
    (hmemory : SimpleTracks cfg.window e.now hits requests) : Agree cfg (past ++ [e]) ledger requests := by
  refine ⟨hits, fun now hnow => ?_⟩
  have hle : e.now ≤ now := hnow e (List.mem_append_right _ (List.mem_singleton_self e))
  rw [List.map_append, List.map_singleton]
  exact ⟨hledger.later hle, hmemory.later hle⟩

/-- A call is decided alike unless attempts exactly on the edge of the window use the limit up. -/
theorem Agree.step {cfg : LedgerSettings} (hinj : Function.Injective cfg.sha256) {past : List Entry}
    {e : Entry} {ledger : Ledger} {requests : Requests} (h : Agree cfg past ledger requests)
    (hnext : Next past e) :
    ((ledgerStep cfg ledger e).1 = (memoryStep cfg requests e).1 ↔ OffEdge cfg ledger e) ∧
      (OffEdge cfg ledger e →
        Agree cfg (past ++ [e]) (ledgerStep cfg ledger e).2 (memoryStep cfg requests e).2) := by
  obtain ⟨hits, htracks⟩ := h
  obtain ⟨hledger, hmemory⟩ := htracks e.now hnext.time_le
  cases hcall : e.call with
  | credentialPrefix ip password maxPrefixes =>
      obtain ⟨hok, hafter⟩ := hledger.credentialPrefix hinj ip password maxPrefixes
      have hstep := ledgerStep_credentialPrefix hcall hok
      have hmstep : memoryStep cfg requests e = (.ok none, requests) := by
        rw [memoryStep, hcall]
      have hedge : OffEdge cfg ledger e := by
        rw [OffEdge, hcall]
        trivial
      rw [hstep, hmstep]
      exact ⟨iff_of_true rfl hedge, fun _ => Agree.next (hafter.usedMore e.uuid) hmemory⟩
  | rateLimit key =>
      obtain ⟨hok, hafter⟩ := hledger.rateLimit hinj key hnext.fresh
      obtain ⟨hmok, hmafter⟩ := hmemory.isAllowed cfg.maxAttempts key
      have hstep := ledgerStep_rateLimit hcall hok
      have hmstep : memoryStep cfg requests e
          = (.ok (some (windowStep cfg.window cfg.maxAttempts hits (key, e.now)).1),
            (requests.isAllowed cfg.window cfg.maxAttempts key e.now).2) := by
        rw [memoryStep, hcall, ← hmok]
      have hedge : OffEdge cfg ledger e ↔ (windowStep (cfg.window + 1) cfg.maxAttempts hits (key, e.now)).1
          = (windowStep cfg.window cfg.maxAttempts hits (key, e.now)).1 := by
        have hclosed := hledger.attemptCount_eq key (le_refl (e.now - cfg.window))
        have hopen := hledger.attemptCount_eq key (le_add_of_nonneg_right zero_le_one :
          e.now - cfg.window ≤ e.now - cfg.window + 1)
        have hstart : e.now - cfg.window - 1 = e.now - (cfg.window + 1) := by omega
        rw [hstart] at hclosed
        rw [Int.add_sub_cancel] at hopen
        rw [fst_windowStep_eq_iff (by omega)]
        simp only [OffEdge, hcall, hclosed, hopen]
      rw [hstep, hmstep]
      refine ⟨by simp [hedge], fun hoff => ?_⟩
      have hsame := hedge.mp hoff
      rw [snd_windowStep, hsame, ← snd_windowStep] at hafter
      exact Agree.next hafter hmafter

/-- One after the other, the calls are decided as by the limiter in the process exactly as long as no
attempts on the edge of the window use a limit up. -/
theorem decisions_eq_iff_offEdge {cfg : LedgerSettings} (hinj : Function.Injective cfg.sha256)
    {history : List Entry} (htimes : history.Pairwise (·.now ≤ ·.now))
    (huuids : (history.map (·.uuid)).Nodup) :
    decisions (ledgerStep cfg) ⟨[], 0⟩ history = decisions (memoryStep cfg) [] history ↔
      Along (ledgerStep cfg) (OffEdge cfg) ⟨[], 0⟩ history := by
  have hempty : Agree cfg [] ⟨[], 0⟩ [] :=
    ⟨[], fun now _ => ⟨LedgerTracks.empty cfg now, SimpleTracks.empty cfg.window now⟩⟩
  have hgood : ∀ before e after, history = before ++ e :: after → Next ([] ++ before) e :=
    next_of_split htimes huuids
  refine decisions_eq_iff (R := Agree cfg) ?_ hempty hgood
  intro past s t e h hnext
  exact h.step hinj hnext

/-- Interleaved, the calls that return true exceed the limit in no window if every attempt is added on a
current count; and one after the other, they are decided as by the limiter in the process exactly as long as
no attempts on the edge of the window use a limit up. -/
theorem limit_kept_and_decisions_eq {cfg : LedgerSettings} (hinj : Function.Injective cfg.sha256) :
    (∀ as s, run (step cfg) Sys.init as = some s → Guarded (step cfg) (CountsCurrent cfg) Sys.init as →
      ∀ key start, grantedIn cfg s key start ≤ cfg.maxAttempts.toNat) ∧
    ∀ history : List Entry, history.Pairwise (·.now ≤ ·.now) → (history.map (·.uuid)).Nodup →
      (decisions (ledgerStep cfg) ⟨[], 0⟩ history = decisions (memoryStep cfg) [] history ↔
        Along (ledgerStep cfg) (OffEdge cfg) ⟨[], 0⟩ history) := by
  constructor
  · intro as s hrun hguarded
    exact grantedIn_le_of_current hinj hrun hguarded
  · intro history htimes huuids
    exact decisions_eq_iff_offEdge hinj htimes huuids

/-- One attempt in five minutes. -/
def oneAttempt : LedgerSettings := ⟨1, 300, 5, id⟩

/-- The key of a login from one address. -/
def addressKey : String := "login_ip_203.0.113.7"

/-- A second worker counts the attempt of the first. -/
def queuedCalls : List Action :=
  [.begin 0 (.rateLimit addressKey) 0, .move 0 "", .move 0 "", .begin 1 (.rateLimit addressKey) 5,
    .move 1 "", .move 0 "", .move 0 "5f2c", .move 1 "", .move 1 "", .move 1 ""]

/-- A third call comes when the attempt has left the window. -/
def spacedCalls : List Entry :=
  [⟨.rateLimit addressKey, 0, "5f2c"⟩, ⟨.credentialPrefix "203.0.113.7" "hunter2" 20, 2, ""⟩,
    ⟨.rateLimit addressKey, 5, "91aa"⟩, ⟨.rateLimit addressKey, 300000001, "c0de"⟩]

theorem limit_kept_at_one_attempt :
    (∃ s, run (step oneAttempt) Sys.init queuedCalls = some s ∧ s.granted = [(addressKey, 0)] ∧
      grantedIn oneAttempt s addressKey 0 ≤ oneAttempt.maxAttempts.toNat) ∧
    decisions (ledgerStep oneAttempt) ⟨[], 0⟩ spacedCalls
      = decisions (memoryStep oneAttempt) [] spacedCalls := by
  obtain ⟨hinterleaved, hsequential⟩ := limit_kept_and_decisions_eq (show
    Function.Injective oneAttempt.sha256 from Function.injective_id)
  constructor
  · obtain ⟨s, hrun, hguarded, hgranted⟩ : ∃ s, run (step oneAttempt) Sys.init queuedCalls = some s ∧
        Guarded (step oneAttempt) (CountsCurrent oneAttempt) Sys.init queuedCalls ∧
        s.granted = [(addressKey, 0)] := ⟨_, rfl, by decide, by decide⟩
    exact ⟨s, hrun, hgranted, hinterleaved queuedCalls s hrun hguarded addressKey 0⟩
  · exact (hsequential spacedCalls (by decide) (by decide)).mpr (by decide)

/-- Two workers count no attempt each and both add one; and a call exactly `window_seconds` after an
attempt is refused by the ledger and let through in the process. -/
theorem limit_exceeded_and_edge_refused :
    (∃ s, run (step oneAttempt) Sys.init [.begin 0 (.rateLimit addressKey) 0,
      .begin 1 (.rateLimit addressKey) 5, .move 0 "", .move 0 "", .move 0 "", .move 1 "", .move 1 "",
      .move 1 "", .move 0 "5f2c", .move 1 "91aa"] = some s ∧
      oneAttempt.maxAttempts.toNat < grantedIn oneAttempt s addressKey 0) ∧
    decisions (ledgerStep oneAttempt) ⟨[], 0⟩ [⟨.rateLimit addressKey, 0, "5f2c"⟩,
        ⟨.rateLimit addressKey, 300000000, "91aa"⟩] = [.ok (some true), .ok (some false)] ∧
    decisions (memoryStep oneAttempt) [] [⟨.rateLimit addressKey, 0, "5f2c"⟩,
        ⟨.rateLimit addressKey, 300000000, "91aa"⟩] = [.ok (some true), .ok (some true)] :=
  ⟨⟨_, rfl, by decide⟩, by decide, by decide⟩

end ApexChainx.RateLimit.AttemptLedger
