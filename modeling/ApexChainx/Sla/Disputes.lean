import ApexChainx.Lib.Transition
import ApexChainx.Sla.Latest

/-!
# Disputes, interleaved

`flag_dispute`, `create_proposed_sla` and `resolve_dispute` (`app/api/v1/endpoints/sla_dispute.py`), cut at
the statements they send to the database; between two of them other requests may move. All three look for the
pending dispute first and commit once at the end, from what they have loaded: nothing in the table keeps a
second pending dispute out, and the `UPDATE` of a dispute names its id alone.

The row lock on the latest result only takes interleavings away, and is left out. Sessions do not flush before
a query.
-/

namespace ApexChainx.Sla.Disputes

open ApexChainx.Lib

/-- `DisputeStatus.value`. -/
def statusValue : DisputeStatus → String
  | .pending => "pending"
  | .resolved => "resolved"
  | .rejected => "rejected"

/-- `DisputeAuditLog`. -/
structure DisputeAuditLog where
  disputeId : ℕ
  action : String
  actor : String
  notes : Option String
  recordedAt : ℤ
deriving DecidableEq, Repr

/-- The body of a request. -/
inductive DisputeRequest
  | flag (disputeReason : String)
  | propose (req : ProposedRequest) (notes : Option String)
  | resolve (req : ResolveDisputeRequest)
deriving DecidableEq, Repr

/-- Where a request stands: the rows it has loaded. -/
inductive Pc
  | start
  /-- `flag_dispute`: the result exists; no dispute of it was pending. -/
  | resultFound
  | nonePending
  /-- The pending dispute. -/
  | loaded (d : SLADispute)
  /-- `create_proposed_sla`: the result it has calculated. -/
  | calculated (d : SLADispute) (new : SLAResult)
  /-- `resolve_dispute`: the proposed result, and the latest one. -/
  | applying (d : SLADispute) (proposed : SLAResultRow)
  | resolving (d : SLADispute) (applied : Option (SLAResultRow × Option SLAResultRow))
  | answered (out : Outcome Unit)
deriving DecidableEq, Repr

/-- A request on an SLA result. -/
structure Call where
  slaResultId : ℕ
  email : String
  request : DisputeRequest
  pc : Pc
deriving DecidableEq, Repr

/-- The tables, the audit log of the disputes, and the requests. -/
structure Sys where
  tables : SlaTables
  audit : List DisputeAuditLog
  calls : List Call

/-- SLA results without disputes. -/
def Sys.init (results : List SLAResultRow) (nextResultId : ℕ) : Sys :=
  ⟨⟨results, [], nextResultId, 1⟩, [], []⟩

/-- The dispute that `flag_dispute` adds. -/
def newDispute (id slaResultId : ℕ) (email reason : String) (now : ℤ) : SLADispute where
  id := id
  slaResultId := slaResultId
  baselineSlaResultId := some slaResultId
  proposedSlaResultId := none
  flaggedBy := email
  disputeReason := reason
  flaggedAt := now
  status := .pending
  resolvedBy := none
  resolutionNotes := none
  resolvedAt := none

/-- What `resolve_dispute` sets; in a pending dispute all four columns have other values. -/
def close (email : String) (req : ResolveDisputeRequest) (now : ℤ) (d : SLADispute) : SLADispute :=
  { d with
    status := req.status
    resolvedBy := some email
    resolutionNotes := some req.resolutionNotes
    resolvedAt := some now }

/-- The `UPDATE`s of the flags, in the order of the primary keys: a flag that was loaded as it is set is not
written. -/
def flushFlags (results : List SLAResultRow) (proposed : SLAResultRow) (latest : Option SLAResultRow) :
    Outcome (List SLAResultRow) :=
  let promote (rows : List SLAResultRow) : Outcome (List SLAResultRow) :=
    if proposed.isLatest then .ok rows else setLatest rows proposed.id proposed.outageId true
  match latest with
  | none => promote results
  | some row =>
      if row.id = proposed.id then promote results
      else if row.id < proposed.id then
        match setLatest results row.id proposed.outageId false with
        | .error e => .error e
        | .ok rows => promote rows
      else
        match promote results with
        | .error e => .error e
        | .ok rows => setLatest rows row.id proposed.outageId false

/-- The rows of `sla_results` after a resolution. -/
def flushResolution (results : List SLAResultRow) :
    Option (SLAResultRow × Option SLAResultRow) → Outcome (List SLAResultRow)
  | none => .ok results
  | some (proposed, latest) => flushFlags results proposed latest

/-- The notes of a proposal; `dumped` is the JSON text of the result. -/
def proposalNotes (dumped : String) (notes : Option String) : String :=
  match notes with
  | none => "Proposed SLA created: " ++ dumped
  | some note =>
      if note = "" then "Proposed SLA created: " ++ dumped
      else "Proposed SLA created: " ++ dumped ++ " | Notes: " ++ note

/-- What a statement leaves: the tables, the rows it adds to the audit log, and where the request stands. -/
structure Moved where
  tables : SlaTables
  logged : List DisputeAuditLog
  pc : Pc

/-- A statement that writes nothing. -/
def Moved.to (t : SlaTables) (pc : Pc) : Moved := ⟨t, [], pc⟩

/-- A request that is answered with an error; its session is rolled back. -/
def Moved.fail (t : SlaTables) (e : ApiError) : Moved := ⟨t, [], .answered (.error e)⟩

-- `json.dumps(new_sla.model_dump())`
variable (dumps : SLAResult → String)

/-- The commit of `create_proposed_sla`. -/
def commitProposal (env : CallEnv) (t : SlaTables) (email : String) (d : SLADispute) (new : SLAResult)
    (notes : Option String) : Moved :=
  match insertResult env t (proposedRow env t.nextResultId new) with
  | .error e => .fail t e
  | .ok t' =>
      ⟨{ t' with
          disputes := updateKey SLADispute.id d.id
            (fun row => { row with proposedSlaResultId := some t.nextResultId }) t.disputes },
        [⟨d.id, "proposed_sla_created", email, some (proposalNotes (dumps new) notes), env.now⟩],
        .answered (.ok ())⟩

/-- The commit of `resolve_dispute`. -/
def commitResolution (env : CallEnv) (t : SlaTables) (email : String) (d : SLADispute)
    (applied : Option (SLAResultRow × Option SLAResultRow)) (req : ResolveDisputeRequest) : Moved :=
  match flushResolution t.results applied with
  | .error e => .fail t e
  | .ok rows =>
      ⟨{ t with
          results := rows
          disputes := updateKey SLADispute.id d.id (close email req env.now) t.disputes },
        [⟨d.id, statusValue req.status, email, some req.resolutionNotes, env.now⟩], .answered (.ok ())⟩

/-- What the database raises when it refuses a commit. -/
def refusal : ApiError := .databaseError "commit"

/-- One statement of a request; `refused` is for a commit that the database refuses. -/
def callStep (env : CallEnv) (refused : Bool) (t : SlaTables) (c : Call) : Option Moved :=
  match c.pc, c.request with
  | .start, .flag _ =>
      match t.results.find? (·.id = c.slaResultId) with
      | none => some (.fail t (.http 404 "SLA result not found"))
      | some _ => some (.to t .resultFound)
  | .resultFound, .flag _ =>
      match pendingDispute t c.slaResultId with
      | some _ => some (.fail t (.http 409 "An active dispute already exists for this SLA result."))
      | none => some (.to t .nonePending)
  | .nonePending, .flag reason =>
      if refused then some (.fail t refusal)
      else
        some ⟨{ t with
            disputes := t.disputes ++ [newDispute t.nextDisputeId c.slaResultId c.email reason env.now]
            nextDisputeId := t.nextDisputeId + 1 },
          [⟨t.nextDisputeId, "flagged", c.email, some reason, env.now⟩], .answered (.ok ())⟩
  | .start, .propose _ _ =>
      match pendingDispute t c.slaResultId with
      | none => some (.fail t (.http 404 "No pending dispute found for this SLA result."))
      | some d => some (.to t (.loaded d))
  | .loaded d, .propose req _ =>
      match t.results.find? (fun r => some r.id = d.baselineSlaResultId) with
      | none => some (.fail t (.http 404 "Baseline SLA not found"))
      | some baseline =>
          match calculate id env.live baseline.outageId req.severity req.mttrMinutes req.policyVersion
              req.thresholdSource "" "" with
          | .error e => some (.fail t e)
          | .ok new => some (.to t (.calculated d new))
  | .calculated d new, .propose _ notes =>
      if refused then some (.fail t refusal) else some (commitProposal dumps env t c.email d new notes)
  | .start, .resolve req =>
      if req.status = .pending then
        some (.fail t (.http 400 "Resolution status must be 'resolved' or 'rejected'."))
      else
        match pendingDispute t c.slaResultId with
        | none => some (.fail t (.http 404 "No pending dispute found for this SLA result."))
        | some d => some (.to t (.loaded d))
  | .loaded d, .resolve req =>
      if req.status = .resolved ∧ req.applyProposed then
        match d.proposedSlaResultId.filter (· ≠ 0) with
        | none => some (.fail t (.http 400 "No proposed SLA result to apply."))
        | some pid =>
            match t.results.find? (·.id = pid) with
            | none => some (.fail t (.http 404 "Proposed SLA not found"))
            | some proposed => some (.to t (.applying d proposed))
      else some (.to t (.resolving d none))
  | .applying d proposed, .resolve _ =>
      some (.to t (.resolving d (some (proposed, t.results.find? (latestOf proposed.outageId)))))
  | .resolving d applied, .resolve req =>
      if refused then some (.fail t refusal) else some (commitResolution env t c.email d applied req)
  | _, _ => none

/-- A request arrives, or the `i`-th request moves. -/
inductive Action
  | request (slaResultId : ℕ) (email : String) (body : DisputeRequest)
  | move (i : ℕ) (env : CallEnv) (refused : Bool)

/-- The interleaving semantics. -/
def step (s : Sys) : Action → Option Sys
  | .request slaResultId email body =>
      some { s with calls := s.calls ++ [⟨slaResultId, email, body, .start⟩] }
  | .move i env refused =>
      match s.calls[i]? with
      | none => none
      | some c =>
          (callStep dumps env refused s.tables c).map fun moved =>
            ⟨moved.tables, s.audit ++ moved.logged, s.calls.set i { c with pc := moved.pc }⟩

/-! ## What a step should do -/

/-- The dispute is a pending one of the result. -/
def pendingFor (slaResultId : ℕ) (d : SLADispute) : Bool :=
  d.slaResultId = slaResultId && d.status = .pending

/-- The row records that the dispute was flagged. -/
def flags (id : ℕ) (e : DisputeAuditLog) : Bool := e.disputeId = id && e.action = "flagged"

/-- The row records that the dispute was closed. -/
def closes (id : ℕ) (e : DisputeAuditLog) : Bool :=
  e.disputeId = id && (e.action = "resolved" || e.action = "rejected")

/-- One row for each change of the status: the flag, and the closing, if there was one. -/
structure Logged (audit : List DisputeAuditLog) (d : SLADispute) : Prop where
  flagged : audit.countP (flags d.id) = 1
  closed : audit.countP (closes d.id) = if d.status = .pending then 0 else 1
  named : ∀ e ∈ audit, closes d.id e = true → e.action = statusValue d.status

/-- What a step leaves behind. Only a request that is answered with success writes. -/
structure StepLawful (s : Sys) (a : Action) (s' : Sys) : Prop where
  onePending : ∀ slaResultId, s'.tables.disputes.countP (pendingFor slaResultId) ≤ 1
  frozen : ∀ d ∈ s.tables.disputes, d.status ≠ .pending → d ∈ s'.tables.disputes
  logged : ∀ d ∈ s'.tables.disputes, Logged s'.audit d
  written : s'.tables = s.tables ∧ s'.audit = s.audit ∨
    ∃ i env refused c, a = .move i env refused ∧ s'.calls[i]? = some c ∧ c.pc = .answered (.ok ())

def Lawful (s : Sys) (a : Action) : Prop := ∀ s', step dumps s a = some s' → StepLawful s a s'

/-! ## The condition -/

/-- The dispute is still pending. -/
def StillPending (t : SlaTables) (d : SLADispute) : Prop :=
  ∀ row ∈ t.disputes, row.id = d.id → row.status = .pending

/-- A commit that succeeds finds the disputes as they were when the request looked for the pending one: none
for a flag, and the one it has loaded for a proposal or a resolution. -/
def CallFits (env : CallEnv) (refused : Bool) (t : SlaTables) (c : Call) : Prop :=
  match c.pc, c.request with
  | .nonePending, .flag _ => refused = false → pendingDispute t c.slaResultId = none
  | .calculated d new, .propose _ _ =>
      refused = false → (insertResult env t (proposedRow env t.nextResultId new)).isOk = true →
        StillPending t d
  | .resolving d applied, .resolve _ =>
      refused = false → (flushResolution t.results applied).isOk = true → StillPending t d
  | _, _ => True

def Fits (s : Sys) : Action → Prop
  | .request _ _ _ => True
  | .move i env refused => ∀ c ∈ s.calls[i]?, CallFits env refused s.tables c

/-! ## The tables between the requests -/

/-- The dispute a request has loaded. -/
def Pc.dispute? : Pc → Option SLADispute
  | .loaded d => some d
  | .calculated d _ => some d
  | .applying d _ => some d
  | .resolving d _ => some d
  | _ => none

structure TablesOk (t : SlaTables) (audit : List DisputeAuditLog) : Prop where
  ids : (t.disputes.map SLADispute.id).Nodup
  fresh : ∀ d ∈ t.disputes, d.id < t.nextDisputeId
  proposed : ∀ d ∈ t.disputes, ∀ id, d.proposedSlaResultId = some id → id < t.nextResultId
  known : ∀ e ∈ audit, e.disputeId < t.nextDisputeId
  onePending : ∀ slaResultId, t.disputes.countP (pendingFor slaResultId) ≤ 1
  logged : ∀ d ∈ t.disputes, Logged audit d

/-- A loaded dispute is in the table, and a resolution that has loaded one closes it. -/
structure CallOk (t : SlaTables) (c : Call) : Prop where
  loaded : ∀ d, c.pc.dispute? = some d → ∃ row ∈ t.disputes, row.id = d.id
  closing : ∀ d req, c.pc.dispute? = some d → c.request = .resolve req → req.status ≠ .pending

structure Inv (s : Sys) : Prop where
  tables : TablesOk s.tables s.audit
  calls : ∀ c ∈ s.calls, CallOk s.tables c

section Log

variable {audit : List DisputeAuditLog} {d : SLADispute} {e : DisputeAuditLog}

/-- A row about another dispute, or about a proposal, records no change of the status. -/
theorem Logged.append (h : Logged audit d) (hflags : flags d.id e = false) (hcloses : closes d.id e = false) :
    Logged (audit ++ [e]) d where
  flagged := by simpa [List.countP_append, List.countP_singleton, hflags] using h.flagged
  closed := by simpa [List.countP_append, List.countP_singleton, hcloses] using h.closed
  named e' he' hclosing := by
    rcases List.mem_append.mp he' with hold | hnew
    · exact h.named e' hold hclosing
    · rw [List.mem_singleton.mp hnew, hcloses] at hclosing
      cases hclosing

theorem Logged.other (h : Logged audit d) (hid : e.disputeId ≠ d.id) : Logged (audit ++ [e]) d :=
  h.append (by simp [flags, hid]) (by simp [closes, hid])

/-- What is logged about a dispute depends on its id and status. -/
theorem Logged.congr {d' : SLADispute} (h : Logged audit d) (hid : d'.id = d.id) (hstatus : d'.status = d.status) :
    Logged audit d' where
  flagged := by rw [hid]; exact h.flagged
  closed := by rw [hid, hstatus]; exact h.closed
  named := by rw [hid, hstatus]; exact h.named

/-- The row of a closing, after those of a pending dispute. -/
theorem Logged.close (h : Logged audit d) (hpending : d.status = .pending) {email : String}
    {req : ResolveDisputeRequest} (hreq : req.status ≠ .pending) (now : ℤ) :
    Logged (audit ++ [⟨d.id, statusValue req.status, email, some req.resolutionNotes, now⟩])
      (Disputes.close email req now d) := by
  have hzero : audit.countP (closes d.id) = 0 := by rw [h.closed, if_pos hpending]
  have hnone := List.countP_eq_zero.mp hzero
  have hcloses : closes d.id ⟨d.id, statusValue req.status, email, some req.resolutionNotes, now⟩ = true := by
    cases hstatus : req.status with
    | pending => exact absurd hstatus hreq
    | resolved => simp [closes, statusValue]
    | rejected => simp [closes, statusValue]
  have hflags : flags d.id ⟨d.id, statusValue req.status, email, some req.resolutionNotes, now⟩ = false := by
    cases hstatus : req.status with
    | pending => exact absurd hstatus hreq
    | resolved => simp [flags, statusValue]
    | rejected => simp [flags, statusValue]
  refine ⟨?_, ?_, ?_⟩
  · simpa [Disputes.close, List.countP_append, List.countP_singleton, hflags] using h.flagged
  · simp [Disputes.close, List.countP_append, hcloses, hzero, hreq]
  · intro e he hclosing
    rcases List.mem_append.mp he with hold | hnew
    · exact absurd hclosing (hnone e hold)
    · rw [List.mem_singleton.mp hnew]
      rfl

end Log

/-! ## The three commits -/

section Commits

variable {t : SlaTables} {audit : List DisputeAuditLog} {d : SLADispute}

theorem pendingDispute_eq_none_iff {slaResultId : ℕ} :
    pendingDispute t slaResultId = none ↔ t.disputes.countP (pendingFor slaResultId) = 0 := by
  unfold pendingDispute
  rw [List.find?_eq_none, List.countP_eq_zero]
  rfl

theorem pendingFor_newDispute (id slaResultId r : ℕ) (email reason : String) (now : ℤ) :
    pendingFor r (newDispute id slaResultId email reason now) = decide (slaResultId = r) :=
  Bool.and_true _

/-- A flag that finds no pending dispute at its commit. -/
theorem TablesOk.flag (h : TablesOk t audit) {slaResultId : ℕ} (hnone : pendingDispute t slaResultId = none)
    (email reason : String) (now : ℤ) :
    TablesOk { t with
        disputes := t.disputes ++ [newDispute t.nextDisputeId slaResultId email reason now]
        nextDisputeId := t.nextDisputeId + 1 }
      (audit ++ [⟨t.nextDisputeId, "flagged", email, some reason, now⟩]) where
  ids := by
    rw [List.map_append, List.map_singleton, ← List.concat_eq_append]
    refine h.ids.concat fun hmem => ?_
    obtain ⟨d, hd, hid⟩ := List.mem_map.mp hmem
    exact absurd (h.fresh d hd) (by rw [hid]; exact Nat.lt_irrefl _)
  fresh d hd := by
    rcases List.mem_append.mp hd with hold | hnew
    · exact Nat.lt_succ_of_lt (h.fresh d hold)
    · rw [List.mem_singleton.mp hnew]
      exact Nat.lt_succ_self _
  proposed d hd id hid := by
    rcases List.mem_append.mp hd with hold | hnew
    · exact h.proposed d hold id hid
    · rw [List.mem_singleton.mp hnew] at hid
      cases hid
  known e he := by
    rcases List.mem_append.mp he with hold | hnew
    · exact Nat.lt_succ_of_lt (h.known e hold)
    · rw [List.mem_singleton.mp hnew]
      exact Nat.lt_succ_self _
  onePending r := by
    rw [List.countP_append, List.countP_singleton, pendingFor_newDispute]
    by_cases hr : slaResultId = r
    · rw [← hr, pendingDispute_eq_none_iff.mp hnone]
      simp
    · simpa [hr] using h.onePending r
  logged d hd := by
    rcases List.mem_append.mp hd with hold | hnew
    · exact (h.logged d hold).other (Ne.symm (h.fresh d hold).ne)
    · -- no row is about the new id yet
      have hunknown : ∀ e ∈ audit, e.disputeId ≠ t.nextDisputeId := fun e he => (h.known e he).ne
      have hflags : audit.countP (flags t.nextDisputeId) = 0 :=
        List.countP_eq_zero.mpr fun e he => by simp [flags, hunknown e he]
      have hcloses : audit.countP (closes t.nextDisputeId) = 0 :=
        List.countP_eq_zero.mpr fun e he => by simp [closes, hunknown e he]
      rw [List.mem_singleton.mp hnew]
      refine ⟨?_, ?_, ?_⟩
      · simp [newDispute, List.countP_append, hflags, flags]
      · simp [newDispute, List.countP_append, hcloses, closes]
      · intro e he hclosing
        rcases List.mem_append.mp he with hold | hadded
        · exact absurd hclosing (List.countP_eq_zero.mp hcloses e hold)
        · rw [List.mem_singleton.mp hadded] at hclosing
          simp [closes] at hclosing

/-- The row that an update of a dispute finds. -/
theorem TablesOk.unique (h : TablesOk t audit) {row row' : SLADispute} (hrow : row ∈ t.disputes)
    (hrow' : row' ∈ t.disputes) (hid : row.id = row'.id) : row = row' :=
  List.inj_on_of_nodup_map h.ids hrow hrow' hid

/-- A rewrite of the dispute `d`, with the row that is logged about it. -/
theorem TablesOk.update (h : TablesOk t audit) (hd : d ∈ t.disputes) {g : SLADispute → SLADispute}
    (hid : ∀ row, (g row).id = row.id) {t' : SlaTables} {e : DisputeAuditLog} (he : e.disputeId = d.id)
    (hdisputes : t'.disputes = updateKey SLADispute.id d.id g t.disputes)
    (hnext : t'.nextDisputeId = t.nextDisputeId) (hresults : t.nextResultId ≤ t'.nextResultId)
    (hproposed : ∀ id, (g d).proposedSlaResultId = some id → id < t'.nextResultId)
    (hpending : ∀ r, pendingFor r (g d) = true → pendingFor r d = true)
    (hlogged : Logged (audit ++ [e]) (g d)) : TablesOk t' (audit ++ [e]) := by
  have hrow : ∀ row ∈ t'.disputes, (row ∈ t.disputes ∧ row.id ≠ d.id) ∨ row = g d := by
    intro row hrow
    rw [hdisputes] at hrow
    rcases mem_updateKey_iff.mp hrow with hother | ⟨old, hold, hkey, rfl⟩
    · exact .inl hother
    · exact .inr (by rw [h.unique hold hd hkey])
  refine ⟨?_, ?_, ?_, ?_, ?_, ?_⟩
  · rw [hdisputes, map_key_updateKey hid]
    exact h.ids
  · intro row hmem
    rw [hnext]
    rcases hrow row hmem with ⟨hold, -⟩ | rfl
    · exact h.fresh row hold
    · rw [hid]
      exact h.fresh d hd
  · intro row hmem id hrowid
    rcases hrow row hmem with ⟨hold, -⟩ | rfl
    · exact Nat.lt_of_lt_of_le (h.proposed row hold id hrowid) hresults
    · exact hproposed id hrowid
  · intro e' he'
    rw [hnext]
    rcases List.mem_append.mp he' with hold | hnew
    · exact h.known e' hold
    · rw [List.mem_singleton.mp hnew, he]
      exact h.fresh d hd
  · intro r
    have hcount := countP_updateKey (g := g) (pendingFor r) h.ids hd
    have hold := h.onePending r
    rw [hdisputes]
    by_cases hg : pendingFor r (g d) = true
    · rw [hg, hpending r hg] at hcount
      omega
    · rw [if_neg hg] at hcount
      omega
  · intro row hmem
    rcases hrow row hmem with ⟨hold, hne⟩ | rfl
    · exact (h.logged row hold).other (by rw [he]; exact Ne.symm hne)
    · exact hlogged

/-- The proposal for a dispute. -/
theorem TablesOk.propose (h : TablesOk t audit) (hd : d ∈ t.disputes) {t' : SlaTables}
    {r : SLAResultRow} {env : CallEnv} (hinsert : insertResult env t r = .ok t')
    (email : String) (notes : Option String) (now : ℤ) :
    TablesOk { t' with
        disputes := updateKey SLADispute.id d.id
          (fun row => { row with proposedSlaResultId := some t.nextResultId }) t.disputes }
      (audit ++ [⟨d.id, "proposed_sla_created", email, notes, now⟩]) := by
  obtain ⟨rfl, -⟩ := insertResult_eq_ok hinsert
  have hlogged : Logged (audit ++ [⟨d.id, "proposed_sla_created", email, notes, now⟩])
      { d with proposedSlaResultId := some t.nextResultId } :=
    Logged.append ((h.logged d hd).congr rfl rfl) (by simp [flags]) (by simp [closes])
  refine h.update hd (g := fun row => { row with proposedSlaResultId := some t.nextResultId }) (fun _ => rfl) rfl
    rfl rfl (Nat.le_succ _) (fun id hid => ?_) (fun _ hr => hr) hlogged
  rw [← Option.some.inj hid]
  exact Nat.lt_succ_self _

/-- The closing of a pending dispute. -/
theorem TablesOk.close (h : TablesOk t audit) (hd : d ∈ t.disputes) (hpending : d.status = .pending)
    {req : ResolveDisputeRequest} (hreq : req.status ≠ .pending) (rows : List SLAResultRow) (email : String)
    (now : ℤ) :
    TablesOk { t with
        results := rows
        disputes := updateKey SLADispute.id d.id (Disputes.close email req now) t.disputes }
      (audit ++ [⟨d.id, statusValue req.status, email, some req.resolutionNotes, now⟩]) := by
  refine h.update hd (g := Disputes.close email req now) (fun _ => rfl) rfl rfl rfl (Nat.le_refl _)
    (h.proposed d hd) (fun r hr => ?_) ((h.logged d hd).close hpending hreq now)
  simp [pendingFor, Disputes.close, hreq] at hr

/-- Closed disputes are not in the way of an update of a pending one. -/
theorem frozen_update (h : TablesOk t audit) (hd : d ∈ t.disputes) (hpending : d.status = .pending)
    (g : SLADispute → SLADispute) :
    ∀ row ∈ t.disputes, row.status ≠ .pending → row ∈ updateKey SLADispute.id d.id g t.disputes := by
  intro row hrow hclosed
  refine mem_updateKey_iff.mpr (.inl ⟨hrow, fun hid => hclosed ?_⟩)
  rw [h.unique hrow hd hid]
  exact hpending

end Commits

/-! ## What a statement does -/

section Statements

variable {env : CallEnv} {refused : Bool} {t : SlaTables} {c : Call} {moved : Moved}

theorem CallOk.unloaded {pc : Pc} (h : pc.dispute? = none) : CallOk t { c with pc := pc } where
  loaded d hd := by rw [h] at hd; cases hd
  closing d req hd := by rw [h] at hd; cases hd

theorem CallOk.carry (hc : CallOk t c) {pc : Pc} (h : pc.dispute? = c.pc.dispute?) :
    CallOk t { c with pc := pc } where
  loaded d hd := hc.loaded d (h ▸ hd)
  closing d req hd := hc.closing d req (h ▸ hd)

theorem CallOk.load {d : SLADispute} (hd : pendingDispute t c.slaResultId = some d)
    (hreq : ∀ req, c.request = .resolve req → req.status ≠ .pending) : CallOk t { c with pc := .loaded d } where
  loaded d' hd' := by
    obtain rfl := Option.some.inj hd'
    exact ⟨d, List.mem_of_find?_eq_some hd, rfl⟩
  closing _ req _ hrequest := hreq req hrequest

variable (env refused t c) in
/-- What a statement does: it writes nothing, or it is one of the three commits. -/
inductive Statement : Moved → Prop
  | quiet {moved : Moved} (tables : moved.tables = t) (logged : moved.logged = [])
      (ok : CallOk t { c with pc := moved.pc }) (fits : CallFits env refused t c) : Statement moved
  | flagged {reason : String} (pc : c.pc = .nonePending) (request : c.request = .flag reason)
      (committed : refused = false) :
      Statement ⟨{ t with
          disputes := t.disputes ++ [newDispute t.nextDisputeId c.slaResultId c.email reason env.now]
          nextDisputeId := t.nextDisputeId + 1 },
        [⟨t.nextDisputeId, "flagged", c.email, some reason, env.now⟩], .answered (.ok ())⟩
  | proposed {d : SLADispute} {new : SLAResult} {req : ProposedRequest} {notes : Option String} {t' : SlaTables}
      (pc : c.pc = .calculated d new) (request : c.request = .propose req notes) (committed : refused = false)
      (inserted : insertResult env t (proposedRow env t.nextResultId new) = .ok t') :
      Statement ⟨{ t' with
          disputes := updateKey SLADispute.id d.id
            (fun row => { row with proposedSlaResultId := some t.nextResultId }) t.disputes },
        [⟨d.id, "proposed_sla_created", c.email, some (proposalNotes (dumps new) notes), env.now⟩],
        .answered (.ok ())⟩
  | closed {d : SLADispute} {applied : Option (SLAResultRow × Option SLAResultRow)} {req : ResolveDisputeRequest}
      {rows : List SLAResultRow} (pc : c.pc = .resolving d applied) (request : c.request = .resolve req)
      (committed : refused = false) (flushed : flushResolution t.results applied = .ok rows) :
      Statement ⟨{ t with
          results := rows
          disputes := updateKey SLADispute.id d.id (close c.email req env.now) t.disputes },
        [⟨d.id, statusValue req.status, c.email, some req.resolutionNotes, env.now⟩], .answered (.ok ())⟩

theorem Statement.fail {e : ApiError} (hfits : CallFits env refused t c) (h : some (Moved.fail t e) = some moved) :
    Statement dumps env refused t c moved := by
  obtain rfl := Option.some.inj h
  exact .quiet rfl rfl (.unloaded rfl) hfits

theorem Statement.to {pc : Pc} (hok : CallOk t { c with pc := pc }) (hfits : CallFits env refused t c)
    (h : some (Moved.to t pc) = some moved) : Statement dumps env refused t c moved := by
  obtain rfl := Option.some.inj h
  exact .quiet rfl rfl hok hfits

theorem statement_flag {reason : String} (hreq : c.request = .flag reason)
    (h : callStep dumps env refused t c = some moved) : Statement dumps env refused t c moved := by
  cases hpc : c.pc <;> simp only [callStep, hpc, hreq, reduceCtorEq] at h
  case start =>
    have hfits : CallFits env refused t c := by simp only [CallFits, hpc, hreq]
    split at h
    · exact .fail dumps hfits h
    · exact .to dumps (.unloaded rfl) hfits h
  case resultFound =>
    have hfits : CallFits env refused t c := by simp only [CallFits, hpc, hreq]
    split at h
    · exact .fail dumps hfits h
    · exact .to dumps (.unloaded rfl) hfits h
  case nonePending =>
    cases refused with
    | true =>
        exact .fail dumps (by simp [CallFits, hpc, hreq]) h
    | false =>
        obtain rfl := Option.some.inj h
        exact .flagged hpc hreq rfl

theorem statement_propose {req : ProposedRequest} {notes : Option String} (hc : CallOk t c)
    (hreq : c.request = .propose req notes) (h : callStep dumps env refused t c = some moved) :
    Statement dumps env refused t c moved := by
  cases hpc : c.pc <;> simp only [callStep, hpc, hreq, reduceCtorEq] at h
  case start =>
    have hfits : CallFits env refused t c := by simp only [CallFits, hpc, hreq]
    split at h
    · exact .fail dumps hfits h
    · rename_i d hd
      exact .to dumps (.load hd (by simp [hreq])) hfits h
  case loaded d =>
    have hfits : CallFits env refused t c := by simp only [CallFits, hpc, hreq]
    split at h
    · exact .fail dumps hfits h
    · split at h
      · exact .fail dumps hfits h
      · exact .to dumps (hc.carry (by rw [hpc]; rfl)) hfits h
  case calculated d new =>
    cases refused with
    | true =>
        exact .fail dumps (by simp [CallFits, hpc, hreq]) h
    | false =>
        -- without its row, the proposal changes no dispute
        rcases hinsert : insertResult env t (proposedRow env t.nextResultId new) with t' | e
        · simp only [commitProposal, hinsert] at h
          obtain rfl := Option.some.inj h
          exact .proposed hpc hreq rfl hinsert
        · simp only [commitProposal, hinsert] at h
          exact .fail dumps (by simp [CallFits, hpc, hreq, hinsert, Outcome.isOk]) h

theorem statement_resolve {req : ResolveDisputeRequest} (hc : CallOk t c) (hreq : c.request = .resolve req)
    (h : callStep dumps env refused t c = some moved) : Statement dumps env refused t c moved := by
  cases hpc : c.pc <;> simp only [callStep, hpc, hreq, reduceCtorEq] at h
  case start =>
    have hfits : CallFits env refused t c := by simp only [CallFits, hpc, hreq]
    split at h
    · exact .fail dumps hfits h
    · rename_i hstatus
      split at h
      · exact .fail dumps hfits h
      · rename_i d hd
        -- the status is checked before the dispute is loaded
        refine .to dumps (.load hd fun req' hreq' => ?_) hfits h
        obtain rfl := DisputeRequest.resolve.inj (hreq.symm.trans hreq')
        exact hstatus
  case loaded d =>
    have hfits : CallFits env refused t c := by simp only [CallFits, hpc, hreq]
    have hcarry : ∀ pc, pc.dispute? = some d → CallOk t { c with pc := pc } := fun pc hpc' =>
      hc.carry (by rw [hpc, hpc']; rfl)
    split at h
    · split at h
      · exact .fail dumps hfits h
      · split at h
        · exact .fail dumps hfits h
        · exact .to dumps (hcarry _ rfl) hfits h
    · exact .to dumps (hcarry _ rfl) hfits h
  case applying d proposed =>
    exact .to dumps (hc.carry (by rw [hpc]; rfl)) (by simp only [CallFits, hpc, hreq]) h
  case resolving d applied =>
    cases refused with
    | true =>
        exact .fail dumps (by simp [CallFits, hpc, hreq]) h
    | false =>
        rcases hflush : flushResolution t.results applied with rows | e
        · simp only [commitResolution, hflush] at h
          obtain rfl := Option.some.inj h
          exact .closed hpc hreq rfl hflush
        · simp only [commitResolution, hflush] at h
          exact .fail dumps (by simp [CallFits, hpc, hreq, hflush, Outcome.isOk]) h

theorem statement_of_callStep (hc : CallOk t c) (h : callStep dumps env refused t c = some moved) :
    Statement dumps env refused t c moved := by
  cases hreq : c.request with
  | flag reason => exact statement_flag dumps hreq h
  | propose req notes => exact statement_propose dumps hc hreq h
  | resolve req => exact statement_resolve dumps hc hreq h

/-- Every dispute is still there, under its id. -/
theorem CallOk.mono {t' : SlaTables} (hc : CallOk t c)
    (hids : ∀ row ∈ t.disputes, ∃ row' ∈ t'.disputes, row'.id = row.id) : CallOk t' c where
  loaded d hd := by
    obtain ⟨row, hrow, hid⟩ := hc.loaded d hd
    obtain ⟨row', hrow', hid'⟩ := hids row hrow
    exact ⟨row', hrow', hid'.trans hid⟩
  closing := hc.closing

theorem ids_updateKey {disputes : List SLADispute} {k : ℕ} {g : SLADispute → SLADispute}
    (hg : ∀ row, (g row).id = row.id) :
    ∀ row ∈ disputes, ∃ row' ∈ updateKey SLADispute.id k g disputes, row'.id = row.id := by
  intro row hrow
  by_cases hk : row.id = k
  · exact ⟨g row, mem_updateKey_iff.mpr (.inr ⟨row, hrow, hk, rfl⟩), hg row⟩
  · exact ⟨row, mem_updateKey_iff.mpr (.inl ⟨hrow, hk⟩), rfl⟩

end Statements

/-! ## Steps -/

section Steps

variable {s s' : Sys} {a : Action}

/-- A request that has moved, among the others. -/
theorem Inv.moved (h : Inv s) {i : ℕ} {c : Call} {t' : SlaTables} {audit' : List DisputeAuditLog}
    (hok : TablesOk t' audit') (hc : CallOk t' c)
    (hids : ∀ row ∈ s.tables.disputes, ∃ row' ∈ t'.disputes, row'.id = row.id) :
    Inv ⟨t', audit', s.calls.set i c⟩ where
  tables := hok
  calls c' hc' := by
    rcases List.mem_or_eq_of_mem_set hc' with hold | rfl
    · exact (h.calls c' hold).mono hids
    · exact hc

/-- A step that meets the condition is lawful. -/
theorem step_lawful (h : Inv s) (hfits : Fits s a) (hstep : step dumps s a = some s') :
    Inv s' ∧ StepLawful s a s' := by
  cases a with
  | request slaResultId email body =>
      obtain rfl := Option.some.inj hstep
      refine ⟨⟨h.tables, fun c hc => ?_⟩, h.tables.onePending, fun d hd _ => hd, h.tables.logged, .inl ⟨rfl, rfl⟩⟩
      rcases List.mem_append.mp hc with hold | hnew
      · exact h.calls c hold
      · rw [List.mem_singleton.mp hnew]
        exact CallOk.unloaded (c := ⟨slaResultId, email, body, .start⟩) rfl
  | move i env refused =>
      unfold step at hstep
      cases hcall : s.calls[i]? with
      | none => simp [hcall] at hstep
      | some c =>
          simp only [hcall] at hstep
          obtain ⟨moved, hmoved, rfl⟩ := Option.map_eq_some_iff.mp hstep
          have hc := h.calls c (List.mem_of_getElem? hcall)
          have hfitsc : CallFits env refused s.tables c := hfits c hcall
          have hanswer : ∀ c' : Call, (s.calls.set i c')[i]? = some c' := fun c' =>
            List.getElem?_set_self (List.getElem?_eq_some_iff.mp hcall).1
          -- a statement writes nothing, or it is the one commit of its call
          cases statement_of_callStep dumps hc hmoved with
          | quiet htables hlogged hok _ =>
              rw [htables, hlogged, List.append_nil]
              exact ⟨h.moved h.tables hok fun row hrow => ⟨row, hrow, rfl⟩, h.tables.onePending, fun d hd _ => hd,
                h.tables.logged, .inl ⟨rfl, rfl⟩⟩
          | @flagged reason hpc hreq hrefused =>
              simp only [CallFits, hpc, hreq] at hfitsc
              have hok := h.tables.flag (hfitsc hrefused) c.email reason env.now
              exact ⟨h.moved hok (.unloaded rfl) fun row hrow => ⟨row, List.mem_append_left _ hrow, rfl⟩,
                hok.onePending, fun d hd _ => List.mem_append_left _ hd, hok.logged,
                .inr ⟨i, env, refused, _, rfl, hanswer _, rfl⟩⟩
          | @proposed d new req notes t' hpc hreq hrefused hinsert =>
              simp only [CallFits, hpc, hreq] at hfitsc
              obtain ⟨row, hrow, hid⟩ := hc.loaded d (by rw [hpc]; rfl)
              have hpending := hfitsc hrefused (by rw [hinsert]; rfl) row hrow hid
              rw [← hid]
              have hok := h.tables.propose hrow hinsert c.email (some (proposalNotes (dumps new) notes)) env.now
              exact ⟨h.moved hok (.unloaded rfl) (ids_updateKey fun _ => rfl), hok.onePending,
                frozen_update h.tables hrow hpending _, hok.logged, .inr ⟨i, env, refused, _, rfl, hanswer _, rfl⟩⟩
          | @closed d applied req rows hpc hreq hrefused hflush =>
              simp only [CallFits, hpc, hreq] at hfitsc
              obtain ⟨row, hrow, hid⟩ := hc.loaded d (by rw [hpc]; rfl)
              have hpending := hfitsc hrefused (by rw [hflush]; rfl) row hrow hid
              have hstatus := hc.closing d req (by rw [hpc]; rfl) hreq
              rw [← hid]
              have hok := h.tables.close hrow hpending hstatus rows c.email env.now
              exact ⟨h.moved hok (.unloaded rfl) (ids_updateKey fun _ => rfl), hok.onePending,
                frozen_update h.tables hrow hpending _, hok.logged, .inr ⟨i, env, refused, _, rfl, hanswer _, rfl⟩⟩

/-- What the `i`-th request does is what the step does. -/
theorem step_move {i : ℕ} (env : CallEnv) (refused : Bool) {c : Call} {moved : Moved}
    (hcall : s.calls[i]? = some c) (hmoved : callStep dumps env refused s.tables c = some moved) :
    step dumps s (.move i env refused) =
      some ⟨moved.tables, s.audit ++ moved.logged, s.calls.set i { c with pc := moved.pc }⟩ := by
  simp only [step, hcall, hmoved, Option.map_some]

/-- A lawful step meets the condition. -/
theorem fits_of_lawful (h : Inv s) (hlaw : Lawful dumps s a) : Fits s a := by
  cases a with
  | request slaResultId email body => trivial
  | move i env refused =>
      intro c hcall
      have hc := h.calls c (List.mem_of_getElem? hcall)
      unfold CallFits
      split
      · -- a second pending dispute
        rename_i reason hpc hreq
        rintro rfl
        have hmoved := step_move dumps env false hcall (by simp only [callStep, hpc, hreq]; rfl)
        have hone := (hlaw _ hmoved).onePending c.slaResultId
        rw [List.countP_append, List.countP_singleton, pendingFor_newDispute] at hone
        rw [pendingDispute_eq_none_iff]
        simp only [decide_true, if_true] at hone
        omega
      · -- a closed dispute gets another proposal
        rename_i d new req notes hpc hreq
        rintro rfl hok row hrow hid
        by_contra hclosed
        rcases hinsert : insertResult env s.tables (proposedRow env s.tables.nextResultId new) with t' | e
        · have hmoved := step_move dumps env false hcall
            (by simp only [callStep, hpc, hreq, commitProposal, hinsert]; rfl)
          have hkept := (hlaw _ hmoved).frozen row hrow hclosed
          rcases mem_updateKey_iff.mp hkept with ⟨-, hne⟩ | ⟨old, -, -, hold⟩
          · exact hne hid
          · have hproposed : row.proposedSlaResultId = some s.tables.nextResultId := by rw [hold]
            exact Nat.lt_irrefl _ (h.tables.proposed row hrow _ hproposed)
        · simp [hinsert, Outcome.isOk] at hok
      · -- a closed dispute is closed again
        rename_i d applied req hpc hreq
        rintro rfl hok row hrow hid
        by_contra hclosed
        rcases hflush : flushResolution s.tables.results applied with rows | e
        · have hstatus := hc.closing d req (by rw [hpc]; rfl) hreq
          have hmoved := step_move dumps env false hcall
            (by simp only [callStep, hpc, hreq, commitResolution, hflush]; rfl)
          have hmem : Disputes.close c.email req env.now row ∈
              updateKey SLADispute.id d.id (Disputes.close c.email req env.now) s.tables.disputes :=
            mem_updateKey_iff.mpr (.inr ⟨row, hrow, hid, rfl⟩)
          have hcount := ((hlaw _ hmoved).logged _ hmem).closed
          have hbefore := (h.tables.logged row hrow).closed
          have hcloses : closes row.id ⟨d.id, statusValue req.status, c.email, some req.resolutionNotes, env.now⟩ =
              true := by
            cases hs : req.status with
            | pending => exact absurd hs hstatus
            | resolved => simp [closes, statusValue, hid]
            | rejected => simp [closes, statusValue, hid]
          rw [if_neg hclosed] at hbefore
          simp [Disputes.close, List.countP_append, hcloses, hbefore, hstatus] at hcount
        · simp [hflush, Outcome.isOk] at hok
      · trivial

theorem inv_init (results : List SLAResultRow) (nextResultId : ℕ) : Inv (Sys.init results nextResultId) where
  tables := ⟨List.nodup_nil, by simp [Sys.init], by simp [Sys.init], by simp [Sys.init], by simp [Sys.init],
    by simp [Sys.init]⟩
  calls c hc := absurd hc List.not_mem_nil

/-- In a run from results without disputes, every step leaves at most one pending dispute for each result,
leaves closed disputes alone, logs each change of a status once, and writes only for a request that succeeds,
exactly when every commit finds the pending disputes as they were when they were looked for. -/
theorem disputes_lawful_iff (results : List SLAResultRow) (nextResultId : ℕ) (as : List Action) :
    Guarded (step dumps) (Lawful dumps) (Sys.init results nextResultId) as ↔
      Guarded (step dumps) Fits (Sys.init results nextResultId) as := by
  constructor
  · refine guarded_of_invariant (fun s a s' hinv hlaw hstep => ?_) (fun s a hinv hlaw => ?_) (inv_init _ _)
    · exact (step_lawful dumps hinv (fits_of_lawful dumps hinv hlaw) hstep).1
    · exact fits_of_lawful dumps hinv hlaw
  · refine guarded_of_invariant (fun s a s' hinv hfits hstep => ?_) (fun s a hinv hfits => ?_) (inv_init _ _)
    · exact (step_lawful dumps hinv hfits hstep).1
    · exact fun s' hstep => (step_lawful dumps hinv hfits hstep).2

end Steps

/-- Two engineers flag one result at the same time: both look before either commits. -/
def flaggedTwice : List Action :=
  [.request 1 "a@example.com" (.flag "wrong threshold"), .request 1 "b@example.com" (.flag "wrong severity"),
    .move 0 sampleEnv false, .move 1 sampleEnv false, .move 0 sampleEnv false, .move 1 sampleEnv false,
    .move 0 sampleEnv false, .move 1 sampleEnv false]

theorem two_pending_disputes : ∃ s,
    run (step fun _ => "") (Sys.init [newRow sampleEnv 1 (sampleData "a").payload] 2) flaggedTwice = some s ∧
      s.tables.disputes.countP (pendingFor 1) = 2 ∧
      s.calls.map Call.pc = [.answered (.ok ()), .answered (.ok ())] := by
  have hsummary :
      (run (step fun _ => "") (Sys.init [newRow sampleEnv 1 (sampleData "a").payload] 2) flaggedTwice).map
        (fun s => (s.tables.disputes.countP (pendingFor 1), s.calls.map Call.pc)) =
      some (2, [.answered (.ok ()), .answered (.ok ())]) := by
    decide +kernel
  obtain ⟨s, hrun, hparts⟩ := Option.map_eq_some_iff.mp hsummary
  exact ⟨s, hrun, (Prod.mk.inj hparts).1, (Prod.mk.inj hparts).2⟩

end ApexChainx.Sla.Disputes
