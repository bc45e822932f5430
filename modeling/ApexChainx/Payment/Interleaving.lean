import Mathlib.Data.List.Chain
import Mathlib.Logic.Function.Basic
import ApexChainx.Lib.Transition
import ApexChainx.Payment.Status

/-!
# Concurrent requests on one payment

`PaymentRepository.reconcile` and `retry` (`app/repositories/payment_repository.py`) and the endpoint
`provider_callback` (`app/api/v1/endpoints/payments.py`), cut at their row reads and committed row
writes. A request keeps what it read between two of its statements; the row may change meanwhile, since
neither operation locks it or compares it when it writes. Each `UPDATE` writes the columns the request
changed and leaves the others to whatever is committed.

The callback's signature and nonce checks come before its first read of the payment and touch no
payment column; a request here is a callback that has passed them.
-/

namespace ApexChainx.Payment

open ApexChainx.Lib

/-- The columns of a payment that the three operations read or write. -/
structure PaymentRow where
  status : PaymentStatus
  confirmedAt : Option ℤ
  retryCount : ℕ
  lastRetriedAt : Option ℤ
deriving DecidableEq, Repr

/-- What a request answers with. -/
inductive Reply
  | row (r : PaymentRow)
  /-- `None` from `retry`: the budget is used up. -/
  | exhausted
  | invalid (e : PaymentTransitionError)
deriving DecidableEq, Repr

/-- The statement a request executes next, with what it has read so far. -/
inductive Pc
  /-- `repo.get` of the callback. -/
  | callbackRead
  /-- The query of `reconcile`. -/
  | reconcileRead (newStatus : String)
  /-- The commit of `reconcile`, after the transition from the row it saw was validated. -/
  | reconcileCommit (newStatus : PaymentStatus) (seen : PaymentRow)
  /-- `db.refresh` of `reconcile`. -/
  | reconcileRefresh
  /-- The query of `retry`. -/
  | retryRead
  /-- The commit of `retry`. -/
  | retryCommit (seen : PaymentRow)
  /-- `db.refresh` of `retry`. -/
  | retryRefresh
  | done (reply : Reply)
deriving DecidableEq, Repr

/-- A request in progress. A callback knows the status it carries and, once it has reconciled, the row
it will answer with. -/
structure Request where
  callback : Option String
  updated : Option PaymentRow
  pc : Pc
deriving DecidableEq, Repr

/-- The three kinds of request. -/
inductive Kind
  | reconcile (newStatus : String)
  | retry
  | callback (status : String)
deriving DecidableEq, Repr

/-- A request before its first statement. -/
def Request.start : Kind → Request
  | .reconcile newStatus => ⟨none, none, .reconcileRead newStatus⟩
  | .retry => ⟨none, none, .retryRead⟩
  | .callback status => ⟨some status, none, .callbackRead⟩

/-- The check `reconcile` makes on the row it read: the error, or the status it will write. -/
def checkTransition (current : PaymentStatus) (newStatus : String) :
    PaymentTransitionError ⊕ PaymentStatus :=
  match validateTransition current.value newStatus, PaymentStatus.ofString newStatus with
  | none, some n => .inr n
  | some e, _ => .inl e
  | none, none => .inl ⟨current.value, newStatus, []⟩

/-- What a committed statement changes. -/
inductive Write
  /-- `UPDATE` of `reconcile`. -/
  | reconcile (newStatus : PaymentStatus) (now : ℤ)
  /-- `UPDATE` of `retry`, with the counter computed from the row the request read. -/
  | retry (retryCount : ℕ) (now : ℤ)
deriving DecidableEq, Repr

/-- The row after a committed `UPDATE`. -/
def Write.apply (row : PaymentRow) : Write → PaymentRow
  | .reconcile n now =>
      { row with status := n, confirmedAt := if n = .confirmed then some now else row.confirmedAt }
  | .retry k now =>
      { row with status := .pending, retryCount := k, lastRetriedAt := some now }

/-- One statement of a request against the committed row: the request afterwards, and what it commits. -/
def advance (row : PaymentRow) (now : ℤ) (r : Request) : Option (Request × Option Write) :=
  match r.pc with
  | .callbackRead =>
      match r.callback with
      | none => none
      | some status =>
          -- a callback that carries the status the payment has is answered as a duplicate
          if row.status.value = status then some ({ r with pc := .done (.row row) }, none)
          else some ({ r with pc := .reconcileRead status }, none)
  | .reconcileRead newStatus =>
      match checkTransition row.status newStatus with
      | .inl e => some ({ r with pc := .done (.invalid e) }, none)
      | .inr n => some ({ r with pc := .reconcileCommit n row }, none)
  | .reconcileCommit n _ => some ({ r with pc := .reconcileRefresh }, some (.reconcile n now))
  | .reconcileRefresh =>
      -- a callback that reconciled to "failed" goes on to `retry` while the budget lasts
      if r.callback = some "failed" ∧ row.retryCount < maxRetries then
        some ({ r with updated := some row, pc := .retryRead }, none)
      else some ({ r with pc := .done (.row row) }, none)
  | .retryRead =>
      if maxRetries ≤ row.retryCount then
        some ({ r with pc := .done (match r.updated with | some u => .row u | none => .exhausted) },
          none)
      else
        match validateTransition row.status.value "pending" with
        | some e => some ({ r with pc := .done (.invalid e) }, none)
        | none => some ({ r with pc := .retryCommit row }, none)
  | .retryCommit seen => some ({ r with pc := .retryRefresh }, some (.retry (seen.retryCount + 1) now))
  | .retryRefresh =>
      some ({ r with pc := .done (match r.updated with | some u => .row u | none => .row row) }, none)
  | .done _ => none

/-- The payment with the requests on it. `committed` lists the statuses in the order they were
committed, `retries` counts the retries that committed. -/
structure Sys where
  row : PaymentRow
  committed : List PaymentStatus
  retries : ℕ
  requests : ℕ → Option Request

/-- A payment as `create_for_sla_result` stores it, with no request on it. -/
def Sys.init : Sys := ⟨⟨.pending, none, 0, none⟩, [.pending], 0, fun _ => none⟩

/-- The effect of a statement on the committed state. -/
def Sys.commit (s : Sys) : Option Write → Sys
  | none => s
  | some w =>
      { s with
        row := w.apply s.row
        committed := s.committed ++ [(w.apply s.row).status]
        retries := match w with
          | .retry _ _ => s.retries + 1
          | .reconcile _ _ => s.retries }

/-- A request arrives, or one executes its next statement at some time. -/
inductive Action
  | begin (id : ℕ) (kind : Kind)
  | move (id : ℕ) (now : ℤ)
deriving DecidableEq, Repr

/-- The interleaving semantics. -/
def step (s : Sys) : Action → Option Sys
  | .begin id kind =>
      if (s.requests id).isNone then
        some { s with requests := Function.update s.requests id (some (Request.start kind)) }
      else none
  | .move id now =>
      match s.requests id with
      | none => none
      | some r =>
          match advance s.row now r with
          | none => none
          | some (r', w) =>
              some { s.commit w with requests := Function.update s.requests id (some r') }

/-! ## The law -/

/-- Two statuses committed one after the other: the same one, or an edge of `VALID_TRANSITIONS`. -/
def Change (a b : PaymentStatus) : Prop := a = b ∨ b ∈ validTransitions a

instance (a b : PaymentStatus) : Decidable (Change a b) :=
  inferInstanceAs (Decidable (a = b ∨ b ∈ validTransitions a))

/-- Every committed change is an edge, `confirmed_at` is set exactly on a confirmed payment, and the
retry budget is kept. -/
structure Lawful (s : Sys) : Prop where
  changes : s.committed.IsChain Change
  confirmed_iff : s.row.confirmedAt.isSome = true ↔ s.row.status = .confirmed
  retries_le : s.retries ≤ maxRetries

/-- A request about to commit still has the committed status, and for a retry the committed counter,
in what it read. -/
def Pc.Current (row : PaymentRow) : Pc → Prop
  | .reconcileCommit _ seen => seen.status = row.status
  | .retryCommit seen => seen.status = row.status ∧ seen.retryCount = row.retryCount
  | _ => True

instance (row : PaymentRow) (pc : Pc) : Decidable (pc.Current row) := by
  cases pc <;> dsimp only [Pc.Current] <;> infer_instance

/-- The step commits nothing, or commits from current values. -/
def ReadsCurrent (s : Sys) : Action → Prop
  | .begin _ _ => True
  | .move id _ => ∀ r ∈ s.requests id, r.pc.Current s.row

instance (s : Sys) : (a : Action) → Decidable (ReadsCurrent s a)
  | .begin _ _ => inferInstanceAs (Decidable True)
  | .move id _ => inferInstanceAs (Decidable (∀ r ∈ s.requests id, r.pc.Current s.row))

/-- What a request carries into its commit was validated against the row it saw. -/
def Validated : Pc → Prop
  | .reconcileCommit n seen => n ∈ validTransitions seen.status
  | .retryCommit seen => .pending ∈ validTransitions seen.status ∧ seen.retryCount < maxRetries
  | _ => True

/-- The invariant of the runs whose commits read current values. -/
structure Inv (s : Sys) : Prop where
  lawful : Lawful s
  last : s.committed.getLast? = some s.row.status
  retries_eq : s.retries = s.row.retryCount
  validated : ∀ id r, s.requests id = some r → Validated r.pc

theorem inv_init : Inv Sys.init := by
  refine ⟨⟨by simp [Sys.init], by simp [Sys.init], by simp [Sys.init]⟩, rfl, rfl, ?_⟩
  intro id r h
  simp [Sys.init] at h

theorem checkTransition_eq_inr {current n : PaymentStatus} {newStatus : String}
    (h : checkTransition current newStatus = .inr n) : n ∈ validTransitions current := by
  unfold checkTransition at h
  split at h
  · rename_i m hval hm
    obtain ⟨k, hk, hmem⟩ := validateTransition_eq_none.mp hval
    rw [hm, Option.some.injEq] at hk
    simp only [Sum.inr.injEq] at h
    rw [← h, hk]
    exact hmem
  · cases h
  · cases h

/-- Every statement of a request leaves it with what it carries validated. -/
theorem advance_validated {row : PaymentRow} {now : ℤ} {r r' : Request} {w : Option Write}
    (h : advance row now r = some (r', w)) : Validated r'.pc := by
  obtain ⟨callback, updated, pc⟩ := r
  cases pc with
  | callbackRead =>
      cases callback with
      | none => simp [advance] at h
      | some status =>
          simp only [advance] at h
          split at h <;> (simp only [Option.some.injEq, Prod.mk.injEq] at h; rw [← h.1]; trivial)
  | reconcileRead newStatus =>
      simp only [advance] at h
      split at h
      · simp only [Option.some.injEq, Prod.mk.injEq] at h
        rw [← h.1]
        trivial
      · rename_i n hn
        simp only [Option.some.injEq, Prod.mk.injEq] at h
        rw [← h.1]
        exact checkTransition_eq_inr hn
  | reconcileCommit n seen =>
      simp only [advance, Option.some.injEq, Prod.mk.injEq] at h
      rw [← h.1]
      trivial
  | reconcileRefresh =>
      simp only [advance] at h
      split at h <;> (simp only [Option.some.injEq, Prod.mk.injEq] at h; rw [← h.1]; trivial)
  | retryRead =>
      simp only [advance] at h
      split at h
      · simp only [Option.some.injEq, Prod.mk.injEq] at h
        rw [← h.1]
        trivial
      · -- under the limit: the transition to `pending` is what is left to be checked
        rename_i hlt
        split at h
        · simp only [Option.some.injEq, Prod.mk.injEq] at h
          rw [← h.1]
          trivial
        · rename_i hval
          simp only [Option.some.injEq, Prod.mk.injEq] at h
          rw [← h.1]
          obtain ⟨n, hn, hmem⟩ := validateTransition_eq_none.mp hval
          have hp : n = .pending := by
            rw [show "pending" = PaymentStatus.value .pending from rfl,
              PaymentStatus.ofString_value, Option.some.injEq] at hn
            exact hn.symm
          exact ⟨hp ▸ hmem, by omega⟩
  | retryCommit seen =>
      simp only [advance, Option.some.injEq, Prod.mk.injEq] at h
      rw [← h.1]
      trivial
  | retryRefresh =>
      simp only [advance, Option.some.injEq, Prod.mk.injEq] at h
      rw [← h.1]
      trivial
  | done reply => simp [advance] at h

/-- What a statement commits: nothing, the status of a `reconcile` commit, or the counter of a
`retry` commit. -/
theorem advance_write {row : PaymentRow} {now : ℤ} {r r' : Request} {w : Option Write}
    (h : advance row now r = some (r', w)) :
    w = none ∨
      (∃ n seen, r.pc = .reconcileCommit n seen ∧ w = some (.reconcile n now)) ∨
      ∃ seen, r.pc = .retryCommit seen ∧ w = some (.retry (seen.retryCount + 1) now) := by
  obtain ⟨callback, updated, pc⟩ := r
  cases pc with
  | reconcileCommit n seen =>
      simp only [advance, Option.some.injEq, Prod.mk.injEq] at h
      exact .inr (.inl ⟨n, seen, rfl, h.2.symm⟩)
  | retryCommit seen =>
      simp only [advance, Option.some.injEq, Prod.mk.injEq] at h
      exact .inr (.inr ⟨seen, rfl, h.2.symm⟩)
  | callbackRead =>
      cases callback with
      | none => simp [advance] at h
      | some status =>
          simp only [advance] at h
          split at h <;> (simp only [Option.some.injEq, Prod.mk.injEq] at h; exact .inl h.2.symm)
  | reconcileRead newStatus =>
      simp only [advance] at h
      split at h <;> (simp only [Option.some.injEq, Prod.mk.injEq] at h; exact .inl h.2.symm)
  | reconcileRefresh =>
      simp only [advance] at h
      split at h <;> (simp only [Option.some.injEq, Prod.mk.injEq] at h; exact .inl h.2.symm)
  | retryRead =>
      simp only [advance] at h
      split at h
      · simp only [Option.some.injEq, Prod.mk.injEq] at h
        exact .inl h.2.symm
      · split at h <;> (simp only [Option.some.injEq, Prod.mk.injEq] at h; exact .inl h.2.symm)
  | retryRefresh =>
      simp only [advance, Option.some.injEq, Prod.mk.injEq] at h
      exact .inl h.2.symm
  | done reply => simp [advance] at h

/-! ## What a commit from current values preserves -/

/-- A status appended to the committed ones: the chain is extended by one change. -/
theorem isChain_append_change {committed : List PaymentStatus} {a b : PaymentStatus}
    (hchain : committed.IsChain Change) (hlast : committed.getLast? = some a) (hab : Change a b) :
    (committed ++ [b]).IsChain Change := by
  rw [List.isChain_append]
  refine ⟨hchain, List.isChain_singleton b, ?_⟩
  intro x hx y hy
  rw [hlast, Option.mem_some_iff] at hx
  rw [List.head?_cons, Option.mem_some_iff] at hy
  rw [← hx, ← hy]
  exact hab

/-- A `reconcile` whose transition is valid from the committed status keeps the law. -/
theorem Inv.commit_reconcile {s : Sys} {n : PaymentStatus} {now : ℤ} (h : Inv s)
    (hn : n ∈ validTransitions s.row.status) : Inv (s.commit (some (.reconcile n now))) := by
  refine ⟨⟨?_, ?_, h.lawful.retries_le⟩, ?_, h.retries_eq, h.validated⟩
  · exact isChain_append_change h.lawful.changes h.last (.inr hn)
  · -- only a payment that is not confirmed has an edge, so it carried no confirmation time
    have hnot : s.row.status ≠ .confirmed := by
      intro hc
      rw [hc] at hn
      exact absurd hn List.not_mem_nil
    have hnone : ¬ s.row.confirmedAt.isSome = true := by
      intro hsome
      exact hnot (h.lawful.confirmed_iff.mp hsome)
    show (if n = .confirmed then some now else s.row.confirmedAt).isSome = true ↔ n = .confirmed
    by_cases hc : n = .confirmed
    · rw [if_pos hc]
      exact ⟨fun _ => hc, fun _ => rfl⟩
    · rw [if_neg hc]
      exact ⟨fun hsome => absurd hsome hnone, fun hc' => absurd hc' hc⟩
  · exact List.getLast?_concat

/-- A `retry` from the committed status and counter keeps the law. -/
theorem Inv.commit_retry {s : Sys} {k : ℕ} {now : ℤ} (h : Inv s)
    (hpending : .pending ∈ validTransitions s.row.status) (hk : k = s.row.retryCount)
    (hlt : k < maxRetries) : Inv (s.commit (some (.retry (k + 1) now))) := by
  have hnot : s.row.status ≠ .confirmed := by
    intro hc
    rw [hc] at hpending
    exact absurd hpending List.not_mem_nil
  have hret : s.retries = k := by rw [h.retries_eq, hk]
  refine ⟨⟨?_, ?_, ?_⟩, ?_, ?_, h.validated⟩
  · exact isChain_append_change h.lawful.changes h.last (.inr hpending)
  · show s.row.confirmedAt.isSome = true ↔ PaymentStatus.pending = .confirmed
    constructor
    · intro hsome
      exact absurd (h.lawful.confirmed_iff.mp hsome) hnot
    · intro hc
      cases hc
  · show s.retries + 1 ≤ maxRetries
    omega
  · exact List.getLast?_concat
  · show s.retries + 1 = k + 1
    omega

/-- Replacing one request by another whose values are validated keeps the invariant. -/
theorem Inv.update_request {s : Sys} {id : ℕ} {r : Request} (h : Inv s) (hr : Validated r.pc) :
    Inv { s with requests := Function.update s.requests id (some r) } := by
  refine ⟨⟨h.lawful.changes, h.lawful.confirmed_iff, h.lawful.retries_le⟩, h.last, h.retries_eq, ?_⟩
  intro id' r' hr'
  change Function.update s.requests id (some r) id' = some r' at hr'
  by_cases hid : id' = id
  · rw [hid, Function.update_self, Option.some.injEq] at hr'
    rw [← hr']
    exact hr
  · rw [Function.update_of_ne hid] at hr'
    exact h.validated id' r' hr'

theorem start_validated (kind : Kind) : Validated (Request.start kind).pc := by
  cases kind <;> trivial

/-- One statement, read from current values if it commits. -/
theorem step_inv {s s' : Sys} {a : Action} (h : Inv s) (hcur : ReadsCurrent s a)
    (hstep : step s a = some s') : Inv s' := by
  cases a with
  | begin id kind =>
      simp only [step] at hstep
      split at hstep
      · rw [← Option.some.inj hstep]
        exact h.update_request (start_validated kind)
      · cases hstep
  | move id now =>
      simp only [step] at hstep
      cases hr : s.requests id with
      | none => simp [hr] at hstep
      | some r =>
          simp only [hr] at hstep
          cases hadv : advance s.row now r with
          | none => simp [hadv] at hstep
          | some p =>
              obtain ⟨r', w⟩ := p
              simp only [hadv, Option.some.injEq] at hstep
              have hval := h.validated id r hr
              have hcommit : Inv (s.commit w) := by
                obtain ⟨callback, updated, pc⟩ := r
                rcases advance_write hadv with rfl | ⟨n, seen, hpc, rfl⟩ | ⟨seen, hpc, rfl⟩
                · exact h
                · -- the transition was checked from the status read, which is still the row's
                  subst hpc
                  have hseen : seen.status = s.row.status := hcur _ hr
                  have hn : n ∈ validTransitions seen.status := hval
                  rw [hseen] at hn
                  exact h.commit_reconcile hn
                · subst hpc
                  obtain ⟨hseen, hcount⟩ : seen.status = s.row.status ∧
                      seen.retryCount = s.row.retryCount := hcur _ hr
                  obtain ⟨hpending, hlt⟩ : PaymentStatus.pending ∈ validTransitions seen.status ∧
                      seen.retryCount < maxRetries := hval
                  rw [hseen] at hpending
                  exact h.commit_retry hpending hcount hlt
              have hreq : (s.commit w).requests = s.requests := by
                cases w <;> rfl
              rw [← hstep, ← hreq]
              exact hcommit.update_request (advance_validated hadv)

/-- In every interleaving whose commits write from the status (and, for a retry, the counter) that is
still committed, the law of the payment holds. -/
theorem lawful_of_readsCurrent (as : List Action) (s : Sys)
    (hcur : Guarded step ReadsCurrent Sys.init as) (hrun : run step Sys.init as = some s) :
    Lawful s :=
  (run_invariant_of_guarded (fun _ _ _ hinv hok hs => step_inv hinv hok hs) inv_init hcur hrun).lawful

/-- A failure reported by the provider, retried at once, and a later confirmation: no request overlaps
another. -/
def failedThenConfirmed : List Action :=
  [.begin 0 (.callback "failed"), .move 0 10, .move 0 10, .move 0 11, .move 0 11, .move 0 12,
    .move 0 13, .move 0 13, .begin 1 (.reconcile "confirmed"), .move 1 20, .move 1 21, .move 1 21]

theorem lawful_failedThenConfirmed :
    ∃ s, run step Sys.init failedThenConfirmed = some s ∧
      s.committed = [.pending, .failed, .pending, .confirmed] ∧ s.retries = 1 ∧ Lawful s :=
  ⟨_, rfl, rfl, rfl, lawful_of_readsCurrent failedThenConfirmed _ (by decide) rfl⟩

/-- Two reconciliations that both read the pending row: the payment is committed as confirmed and then
as failed, with its confirmation time left in place. -/
def confirmedThenFailed : List Action :=
  [.begin 0 (.reconcile "confirmed"), .begin 1 (.reconcile "failed"), .move 0 10, .move 1 10,
    .move 0 11, .move 1 12]

theorem confirmed_overwritten_by_failed :
    ¬ ∀ as s, run step Sys.init as = some s → Lawful s := by
  intro h
  have hlaw := (h confirmedThenFailed _ rfl).changes
  revert hlaw
  decide

end ApexChainx.Payment
