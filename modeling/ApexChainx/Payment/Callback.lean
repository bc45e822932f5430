import ApexChainx.Lib.Table
import ApexChainx.Payment.ReadBack
import ApexChainx.Webhooks.Signing

/-!
# Redelivered provider callbacks

The endpoint `provider_callback` (`app/api/v1/endpoints/payments.py`) over the repository: the checks of
the nonce and of the signature, the comparison with the current status, `reconcile`, and the automatic
`retry` of a payment reported as failed.

A callback that carries the status the payment has is answered as a duplicate. The automatic retry moves
the payment on within the same request, so the next delivery of the same callback is none:
`redeliverable_iff` says for which payments and statuses that happens.
-/

namespace ApexChainx.Payment.Repository

open ApexChainx.Lib ApexChainx.Webhooks

/-- `ProviderCallbackRequest`, with the headers `X-Webhook-Signature` and `X-Callback-Nonce`. -/
structure ProviderCallbackRequest where
  transactionId : String
  status : String
  nonce : Option String
  webhookSignature : Option String
  callbackNonce : Option String
deriving DecidableEq, Repr

/-- What a callback meets outside the table: what `_is_replay` answers for its nonce, and at each of its
two commits the clock and the error of the database. -/
structure CallbackEnv where
  isReplay : Bool
  reconciledAt : IsoTime
  reconcileRefused : Option ApiError
  retriedAt : IsoTime
  retryRefused : Option ApiError

/-- A text that is there and not empty. -/
def truthy : Option String → Option String
  | some text => if text = "" then none else some text
  | none => none

/-- `x_callback_nonce or payload.nonce`, if that is not empty. -/
def effectiveNonce (payload : ProviderCallbackRequest) : Option String :=
  (truthy payload.callbackNonce).or (truthy payload.nonce)

section Endpoint

variable (hmac : HmacSha256) (secret : String)

/-- `_verify_callback_signature`. -/
def verifyCallbackSignature (transactionId status nonce signature : String) : Outcome Bool :=
  compareDigest (hmac.hexdigest secret (transactionId ++ ":" ++ status ++ ":" ++ nonce)) signature

/-- The check of the signature, made when a secret is configured: the exception it raises. -/
def authenticate (payload : ProviderCallbackRequest) (nonce : String) : Option ApiError :=
  if secret = "" then none
  else
    match truthy payload.webhookSignature with
    | none => some (.http 401 "Missing webhook signature")
    | some signature =>
        match verifyCallbackSignature hmac secret payload.transactionId payload.status nonce signature with
        | .error e => some e
        | .ok false => some (.http 401 "Invalid webhook signature")
        | .ok true => none

/-- The checks before the payment is read: the exception they raise. -/
def refuseCallback (env : CallbackEnv) (payload : ProviderCallbackRequest) : Option ApiError :=
  match effectiveNonce payload with
  | none =>
      some (.http 400 "Callback nonce is required (X-Callback-Nonce header or 'nonce' body field)")
  | some nonce =>
      match authenticate hmac secret payload nonce with
      | some e => some e
      | none =>
          if env.isReplay then some (.http 409 "Duplicate callback nonce – possible replay attack")
          else none

/-- The handlers of what `reconcile` raises: a `ValueError` is the caller's fault. -/
def callbackError : ApiError → ApiError
  | .valueError detail => .http 422 detail
  | _ => .http 500 "Internal error processing callback"

/-- `provider_callback`: the answer and the table afterwards. -/
def providerCallback (env : CallbackEnv) (payload : ProviderCallbackRequest)
    (rows : List TransactionRow) : Outcome PaymentTransaction × List TransactionRow :=
  match refuseCallback hmac secret env payload with
  | some e => (.error e, rows)
  | none =>
      match get payload.transactionId rows with
      | .error e => (.error e, rows)
      | .ok none => (.error (.http 404 "Payment not found"), rows)
      | .ok (some existing) =>
          if existing.status = payload.status then (.ok existing, rows)
          else
            match reconcile env.reconcileRefused env.reconciledAt payload.transactionId payload.status
              rows with
            | (.error e, rows') => (.error (callbackError e), rows')
            | (.ok none, rows') =>
                if payload.status = PaymentStatus.failed.value then
                  (.error (.attributeError "NoneType" "retry_count"), rows')
                else (.error (.valueError "response"), rows')
            | (.ok (some updated), rows') =>
                if payload.status = PaymentStatus.failed.value ∧ updated.retryCount < maxRetries then
                  match retry env.retryRefused env.retriedAt payload.transactionId rows' with
                  | (.error e, rows'') => (.error e, rows'')
                  | (.ok _, rows'') => (.ok updated, rows'')
                else (.ok updated, rows')

end Endpoint

/-! ## The effect on the payment -/

/-- The stored row of a payment. -/
def paymentRow (transactionId : String) (rows : List TransactionRow) : Option TransactionRow :=
  rows.find? (·.id = transactionId)

/-- The row as `reconcile` writes it. -/
def reconciled (now : IsoTime) (newStatus : String) (row : TransactionRow) : TransactionRow :=
  { row with
    status := newStatus
    confirmedAt := if newStatus = PaymentStatus.confirmed.value then some now else row.confirmedAt }

/-- The row as `retry` writes it. -/
def retried (now : IsoTime) (row : TransactionRow) : TransactionRow :=
  { row with
    retryCount := row.retryCount + 1
    lastRetriedAt := some now
    status := PaymentStatus.pending.value }

/-- A callback with this status moves the payment: it is read back, it is no duplicate and the transition
is allowed. -/
def Moves (status : String) (row : TransactionRow) : Prop :=
  row.outageId ≠ none ∧ row.status ≠ status ∧ validateTransition row.status status = none

/-- The callback reports a failure while the budget lasts, so the endpoint itself retries the payment. -/
def AutoRetries (status : String) (row : TransactionRow) : Prop :=
  status = PaymentStatus.failed.value ∧ row.retryCount < maxRetries

instance (status : String) (row : TransactionRow) : Decidable (Moves status row) :=
  inferInstanceAs (Decidable (_ ∧ _ ∧ _))

instance (status : String) (row : TransactionRow) : Decidable (AutoRetries status row) :=
  inferInstanceAs (Decidable (_ ∧ _))

/-- The payment row after a callback. -/
def rowAfter (env : CallbackEnv) (status : String) (row : TransactionRow) : TransactionRow :=
  if Moves status row then
    if AutoRetries status row then retried env.retriedAt (reconciled env.reconciledAt status row)
    else reconciled env.reconciledAt status row
  else row

/-- After a callback the payment has its status, unless the payment was retried. -/
theorem not_moves_reconciled (now : IsoTime) (status : String) (row : TransactionRow) :
    ¬ Moves status (reconciled now status row) := by
  intro h
  exact h.2.1 rfl

theorem not_moves_rowAfter {env : CallbackEnv} {status : String} {row : TransactionRow}
    (h : ¬ (Moves status row ∧ AutoRetries status row)) : ¬ Moves status (rowAfter env status row) := by
  unfold rowAfter
  by_cases hmoves : Moves status row
  · have hauto : ¬ AutoRetries status row := fun hauto => h ⟨hmoves, hauto⟩
    rw [if_pos hmoves, if_neg hauto]
    exact not_moves_reconciled env.reconciledAt status row
  · rw [if_neg hmoves]
    exact hmoves

theorem rowAfter_of_not_moves {env : CallbackEnv} {status : String} {row : TransactionRow}
    (h : ¬ Moves status row) : rowAfter env status row = row := by
  rw [rowAfter, if_neg h]

theorem get_of_row {transactionId : String} {rows : List TransactionRow} {row : TransactionRow}
    (h : paymentRow transactionId rows = some row) (hlinked : row.outageId ≠ none) :
    ∃ t, get transactionId rows = .ok (some t) ∧ Shows t row := by
  obtain ⟨t, ht, hshows⟩ := ormToPydantic_linked hlinked
  refine ⟨t, ?_, hshows⟩
  unfold paymentRow at h
  simp only [get, h, ht]

theorem paymentRow_updateKey {transactionId : String} {rows : List TransactionRow} {row : TransactionRow}
    {g : TransactionRow → TransactionRow} (hg : ∀ r, (g r).id = r.id)
    (h : paymentRow transactionId rows = some row) :
    paymentRow transactionId (updateKey TransactionRow.id row.id g rows) = some (g row) := by
  have hid : row.id = transactionId := by
    simpa using List.find?_some h
  unfold paymentRow at h ⊢
  rw [hid, find?_updateKey hg, h, Option.map_some]

/-- A change of a row that is committed: the table has it, and it is shown. -/
theorem commitRow_row {transactionId : String} {rows : List TransactionRow} {row : TransactionRow}
    {g : TransactionRow → TransactionRow} (hg : KeepsLink g)
    (h : paymentRow transactionId rows = some row) (hlinked : row.outageId ≠ none) :
    ∃ t rows', commitRow none row g rows = (.ok (some t), rows') ∧ Shows t (g row) ∧
      paymentRow transactionId rows' = some (g row) := by
  have hlinked' : (g row).outageId ≠ none := by
    rw [(hg row).2]
    exact hlinked
  obtain ⟨t, ht, hshows⟩ := ormToPydantic_linked hlinked'
  refine ⟨t, _, ?_, hshows, paymentRow_updateKey (fun r => (hg r).1) h⟩
  simp only [commitRow, ht]

theorem keepsLink_reconciled (now : IsoTime) (status : String) : KeepsLink (reconciled now status) :=
  fun _ => ⟨rfl, rfl⟩

theorem keepsLink_retried (now : IsoTime) : KeepsLink (retried now) :=
  fun _ => ⟨rfl, rfl⟩

/-- An allowed transition of a payment that can be read back is committed. -/
theorem reconcile_row {transactionId status : String} {rows : List TransactionRow} {row : TransactionRow}
    (now : IsoTime) (h : paymentRow transactionId rows = some row) (hlinked : row.outageId ≠ none)
    (hvalid : validateTransition row.status status = none) :
    ∃ t rows', reconcile none now transactionId status rows = (.ok (some t), rows') ∧
      Shows t (reconciled now status row) ∧
      paymentRow transactionId rows' = some (reconciled now status row) := by
  obtain ⟨t, rows', hcommit, hrest⟩ := commitRow_row (keepsLink_reconciled now status) h hlinked
  refine ⟨t, rows', ?_, hrest⟩
  rw [← hcommit]
  unfold paymentRow at h
  simp only [reconcile, h, hvalid]
  rfl

/-- A failed payment within its budget is retried. -/
theorem retry_row {transactionId : String} {rows : List TransactionRow} {row : TransactionRow}
    (now : IsoTime) (h : paymentRow transactionId rows = some row) (hlinked : row.outageId ≠ none)
    (hfailed : row.status = PaymentStatus.failed.value) (hbudget : row.retryCount < maxRetries) :
    ∃ t rows', retry none now transactionId rows = (.ok (some t), rows') ∧
      paymentRow transactionId rows' = some (retried now row) := by
  obtain ⟨t, rows', hcommit, -, hrow⟩ := commitRow_row (keepsLink_retried now) h hlinked
  have hvalid : validateTransition row.status PaymentStatus.pending.value = none := by
    rw [hfailed]
    decide
  refine ⟨t, rows', ?_, hrow⟩
  rw [← hcommit]
  unfold paymentRow at h
  simp only [retry, h, if_neg (Nat.not_le.mpr hbudget), hvalid]
  rfl

section Endpoint

variable {hmac : HmacSha256} {secret : String} {env : CallbackEnv} {payload : ProviderCallbackRequest}
  {rows : List TransactionRow} {row : TransactionRow}

/-- A callback that does not move the payment changes nothing, and an accepted one shows the row. -/
theorem providerCallback_of_not_moves (hrow : paymentRow payload.transactionId rows = some row)
    (hmoves : ¬ Moves payload.status row) :
    (providerCallback hmac secret env payload rows).2 = rows ∧
      ∀ t, (providerCallback hmac secret env payload rows).1 = .ok t → Shows t row := by
  unfold providerCallback
  cases refuseCallback hmac secret env payload with
  | some e => simp
  | none =>
      by_cases hlinked : row.outageId = none
      · have hget : get payload.transactionId rows
            = .error (.valueError "outage_id: Input should be a valid string") := by
          unfold paymentRow at hrow
          simp only [get, hrow, ormToPydantic_not_linked hlinked]
        simp [hget]
      · obtain ⟨existing, hget, hshows⟩ := get_of_row hrow hlinked
        have hstatus : existing.status = row.status := by
          rw [hshows]
        simp only [hget, hstatus]
        by_cases hdup : row.status = payload.status
        · rw [if_pos hdup]
          refine ⟨rfl, ?_⟩
          intro t ht
          cases ht
          exact hshows
        · -- not linked and a duplicate are excluded: the transition is not allowed
          rw [if_neg hdup]
          have hinvalid : validateTransition row.status payload.status ≠ none :=
            fun hvalid => hmoves ⟨hlinked, hdup, hvalid⟩
          obtain ⟨e, he⟩ := Option.ne_none_iff_exists'.mp hinvalid
          unfold paymentRow at hrow
          simp [reconcile, hrow, he]

/-- A callback that moves the payment answers with the reconciled row and leaves `rowAfter`. -/
theorem providerCallback_of_moves (hpass : refuseCallback hmac secret env payload = none)
    (hreconcile : env.reconcileRefused = none) (hretry : env.retryRefused = none)
    (hrow : paymentRow payload.transactionId rows = some row) (hmoves : Moves payload.status row) :
    ∃ t rows', providerCallback hmac secret env payload rows = (.ok t, rows') ∧
      Shows t (reconciled env.reconciledAt payload.status row) ∧
      paymentRow payload.transactionId rows' = some (rowAfter env payload.status row) := by
  obtain ⟨hlinked, hne, hvalid⟩ := id hmoves
  obtain ⟨existing, hget, hshows⟩ := get_of_row hrow hlinked
  have hstatus : existing.status = row.status := by
    rw [hshows]
  obtain ⟨t, rows', hrec, hshows', hrow'⟩ := reconcile_row env.reconciledAt hrow hlinked hvalid
  have hcount : t.retryCount = row.retryCount :=
    (congrArg TransactionRow.retryCount hshows').symm
  have hauto_iff : (payload.status = PaymentStatus.failed.value ∧ t.retryCount < maxRetries)
      ↔ AutoRetries payload.status row := by
    rw [hcount]
    rfl
  unfold providerCallback
  simp only [hpass, hget, hstatus, if_neg hne, hreconcile, hrec, hauto_iff, rowAfter, if_pos hmoves]
  by_cases hauto : AutoRetries payload.status row
  · obtain ⟨u, rows'', hret, hrow''⟩ :=
      retry_row env.retriedAt hrow' hlinked hauto.1 hauto.2
    refine ⟨t, rows'', ?_, hshows', ?_⟩
    · simp only [if_pos hauto, hretry, hret]
    · rw [if_pos hauto]
      exact hrow''
  · refine ⟨t, rows', ?_, hshows', ?_⟩
    · rw [if_neg hauto]
    · rw [if_neg hauto]
      exact hrow'

end Endpoint

/-! ## Redelivery -/

/-- HMAC-SHA256 as a text of 64 hexadecimal digits. -/
structure HexHmac extends HmacSha256 where
  hexdigest_length : ∀ secret message, (hexdigest secret message).length = 64

/-- A delivery of the callback `(transactionId, status)`: authenticated, under a nonce that has not been
used, and with a database that commits. -/
structure Delivery (hmac : HexHmac) (secret transactionId status : String) where
  env : CallbackEnv
  payload : ProviderCallbackRequest
  transactionId_eq : payload.transactionId = transactionId
  status_eq : payload.status = status
  passes : refuseCallback hmac.toHmacSha256 secret env payload = none
  reconcile_commits : env.reconcileRefused = none
  retry_commits : env.retryRefused = none

namespace Delivery

variable {hmac : HexHmac} {secret transactionId status : String}

def deliver (d : Delivery hmac secret transactionId status) (rows : List TransactionRow) :
    Outcome PaymentTransaction × List TransactionRow :=
  providerCallback hmac.toHmacSha256 secret d.env d.payload rows

/-- The table after deliveries in a row. -/
def deliverAll (ds : List (Delivery hmac secret transactionId status)) (rows : List TransactionRow) :
    List TransactionRow :=
  ds.foldl (fun rows d => (d.deliver rows).2) rows

/-- The request with its signature, under the nonce "n". -/
def signedRequest (hmac : HexHmac) (secret transactionId status : String) : ProviderCallbackRequest where
  transactionId := transactionId
  status := status
  nonce := some "n"
  webhookSignature := some (hmac.hexdigest secret (transactionId ++ ":" ++ status ++ ":" ++ "n"))
  callbackNonce := none

/-- No replay, and commits at the time `now`. -/
def commitsAt (now : IsoTime) : CallbackEnv := ⟨false, now, none, now, none⟩

theorem passes_signedRequest (hmac : HexHmac) (secret transactionId status : String) (now : IsoTime) :
    refuseCallback hmac.toHmacSha256 secret (commitsAt now)
      (signedRequest hmac secret transactionId status) = none := by
  have hnonce : effectiveNonce (signedRequest hmac secret transactionId status) = some "n" := by
    simp [effectiveNonce, signedRequest, truthy]
  have hsignature : truthy (signedRequest hmac secret transactionId status).webhookSignature
      = some (hmac.hexdigest secret (transactionId ++ ":" ++ status ++ ":" ++ "n")) := by
    have hne : hmac.hexdigest secret (transactionId ++ ":" ++ status ++ ":" ++ "n") ≠ "" := by
      intro hempty
      have hlength := hmac.hexdigest_length secret (transactionId ++ ":" ++ status ++ ":" ++ "n")
      rw [hempty] at hlength
      simp at hlength
    simp only [signedRequest, truthy, if_neg hne]
  have hauth : authenticate hmac.toHmacSha256 secret (signedRequest hmac secret transactionId status) "n"
      = none := by
    have hascii := hmac.hexdigest_ascii secret (transactionId ++ ":" ++ status ++ ":" ++ "n")
    unfold authenticate
    rw [hsignature]
    simp only [verifyCallbackSignature, signedRequest, compareDigest, hascii, and_self, if_true, beq_self_eq_true]
    simp
  unfold refuseCallback
  rw [hnonce]
  simp only [hauth]
  simp [commitsAt]

/-- The callback delivered at the time `now`. -/
def signed (hmac : HexHmac) (secret transactionId status : String) (now : IsoTime) :
    Delivery hmac secret transactionId status where
  env := commitsAt now
  payload := signedRequest hmac secret transactionId status
  transactionId_eq := rfl
  status_eq := rfl
  passes := passes_signedRequest hmac secret transactionId status now
  reconcile_commits := rfl
  retry_commits := rfl

/-- A delivery of a payment that is not known changes nothing and is not accepted. -/
theorem deliver_none (d : Delivery hmac secret transactionId status) {rows : List TransactionRow}
    (h : paymentRow transactionId rows = none) :
    d.deliver rows = (.error (.http 404 "Payment not found"), rows) := by
  have hget : get d.payload.transactionId rows = .ok none := by
    unfold paymentRow at h
    simp only [get, d.transactionId_eq, h]
  simp only [deliver, providerCallback, d.passes, hget]

/-- What a delivery does to the row of its payment, and what it answers. -/
theorem deliver_some (d : Delivery hmac secret transactionId status) {rows : List TransactionRow}
    {row : TransactionRow} (h : paymentRow transactionId rows = some row) :
    paymentRow transactionId (d.deliver rows).2 = some (rowAfter d.env status row) ∧
      (¬ Moves status row → ∀ t, (d.deliver rows).1 = .ok t → Shows t row) ∧
      (Moves status row → ∃ t, (d.deliver rows).1 = .ok t ∧
        Shows t (reconciled d.env.reconciledAt status row)) := by
  obtain ⟨env, payload, rfl, rfl, hpass, hreconcile, hretry⟩ := d
  by_cases hmoves : Moves payload.status row
  · obtain ⟨t, rows', heq, hshows, hrow⟩ :=
      providerCallback_of_moves hpass hreconcile hretry h hmoves
    simp only [deliver, heq]
    exact ⟨hrow, fun hnot => absurd hmoves hnot, fun _ => ⟨t, rfl, hshows⟩⟩
  · obtain ⟨hrows, hshows⟩ : (providerCallback hmac.toHmacSha256 secret env payload rows).2 = rows ∧
        ∀ t, (providerCallback hmac.toHmacSha256 secret env payload rows).1 = .ok t → Shows t row :=
      providerCallback_of_not_moves h hmoves
    simp only [deliver, hrows, rowAfter_of_not_moves hmoves]
    exact ⟨h, fun _ => hshows, fun hyes => absurd hyes hmoves⟩

/-- Once the payment does not move, further deliveries leave its row. -/
theorem deliverAll_of_not_moves (ds : List (Delivery hmac secret transactionId status))
    {rows : List TransactionRow} {row : TransactionRow} (h : paymentRow transactionId rows = some row)
    (hmoves : ¬ Moves status row) : paymentRow transactionId (deliverAll ds rows) = some row := by
  induction ds generalizing rows with
  | nil => exact h
  | cons d ds ih =>
      refine ih ?_
      rw [(d.deliver_some h).1, rowAfter_of_not_moves hmoves]

theorem deliverAll_none (ds : List (Delivery hmac secret transactionId status))
    {rows : List TransactionRow} (h : paymentRow transactionId rows = none) :
    deliverAll ds rows = rows := by
  induction ds with
  | nil => rfl
  | cons d ds ih =>
      show deliverAll ds (d.deliver rows).2 = rows
      rw [d.deliver_none h]
      exact ih

/-- A payment that no delivery retries stays one. -/
theorem deliverAll_not_retried (ds : List (Delivery hmac secret transactionId status))
    {rows : List TransactionRow}
    (h : ∀ row, paymentRow transactionId rows = some row → ¬ (Moves status row ∧ AutoRetries status row)) :
    ∀ row, paymentRow transactionId (deliverAll ds rows) = some row →
      ¬ (Moves status row ∧ AutoRetries status row) := by
  induction ds generalizing rows with
  | nil => exact h
  | cons d ds ih =>
      refine ih ?_
      intro row' hrow'
      cases hrow : paymentRow transactionId rows with
      | none =>
          dsimp only at hrow'
          rw [d.deliver_none hrow] at hrow'
          exact h row' hrow'
      | some row =>
          rw [(d.deliver_some hrow).1, Option.some.injEq] at hrow'
          subst hrow'
          exact fun hboth => not_moves_rowAfter (h row hrow) hboth.1

end Delivery

/-- Deliveries in a row leave the payment as the first one does, and every accepted one answers with the
row as it is stored when it answers. -/
structure Redeliverable (hmac : HexHmac) (secret transactionId status : String)
    (rows : List TransactionRow) : Prop where
  row_once : ∀ (d : Delivery hmac secret transactionId status)
    (ds : List (Delivery hmac secret transactionId status)),
    paymentRow transactionId (Delivery.deliverAll (d :: ds) rows)
      = paymentRow transactionId (Delivery.deliverAll [d] rows)
  reply_stored : ∀ (ds : List (Delivery hmac secret transactionId status))
    (d : Delivery hmac secret transactionId status) (t : PaymentTransaction),
    (d.deliver (Delivery.deliverAll ds rows)).1 = .ok t →
      ∃ row, paymentRow transactionId (d.deliver (Delivery.deliverAll ds rows)).2 = some row ∧
        Shows t row

/-- A callback can be redelivered exactly when it does not make the endpoint retry the payment itself. -/
theorem redeliverable_iff (hmac : HexHmac) (secret transactionId status : String)
    (rows : List TransactionRow) :
    Redeliverable hmac secret transactionId status rows ↔
      ∀ row, paymentRow transactionId rows = some row → ¬ (Moves status row ∧ AutoRetries status row) := by
  constructor
  · -- the answer of a delivery that retries shows the payment as failed, and it is stored as pending
    rintro h row hrow ⟨hmoves, hauto⟩
    let d := Delivery.signed hmac secret transactionId status ⟨0, some 0⟩
    obtain ⟨hafter, -, hreply⟩ := d.deliver_some hrow
    obtain ⟨t, ht, hshows⟩ := hreply hmoves
    obtain ⟨stored, hstored, hshows'⟩ := h.reply_stored [] d t ht
    have hpending : stored.status = PaymentStatus.pending.value := by
      have hstored' : some (rowAfter d.env status row) = some stored := hafter.symm.trans hstored
      rw [← Option.some.inj hstored', rowAfter, if_pos hmoves, if_pos hauto]
      rfl
    have hfailed : stored.status = status := by
      rw [hshows', ← hshows]
      rfl
    rw [hpending, hauto.1] at hfailed
    exact absurd hfailed (by decide)
  · intro h
    constructor
    · intro d ds
      cases hrow : paymentRow transactionId rows with
      | none => rw [Delivery.deliverAll_none _ hrow, Delivery.deliverAll_none _ hrow]
      | some row =>
          have hfirst := (d.deliver_some hrow).1
          have hnot : ¬ Moves status (rowAfter d.env status row) := not_moves_rowAfter (h row hrow)
          calc paymentRow transactionId (Delivery.deliverAll (d :: ds) rows)
              = some (rowAfter d.env status row) := Delivery.deliverAll_of_not_moves ds hfirst hnot
            _ = paymentRow transactionId (Delivery.deliverAll [d] rows) := hfirst.symm
    · intro ds d t ht
      have hnot := Delivery.deliverAll_not_retried ds h
      cases hrow : paymentRow transactionId (Delivery.deliverAll ds rows) with
      | none =>
          rw [d.deliver_none hrow] at ht
          cases ht
      | some row =>
          obtain ⟨hafter, hstays, hreply⟩ := d.deliver_some hrow
          by_cases hmoves : Moves status row
          · have hauto : ¬ AutoRetries status row := fun hauto => hnot row hrow ⟨hmoves, hauto⟩
            rw [rowAfter, if_pos hmoves, if_neg hauto] at hafter
            obtain ⟨u, hu, hshows⟩ := hreply hmoves
            obtain rfl : u = t := by
              rw [hu] at ht
              cases ht
              rfl
            exact ⟨_, hafter, hshows⟩
          · rw [rowAfter_of_not_moves hmoves] at hafter
            exact ⟨row, hafter, hstays hmoves t ht⟩

/-- A pending payment of an outage. -/
def pendingRow : TransactionRow where
  id := "pay_4f1d"
  transactionHash := "simulated-77aa"
  type := "penalty"
  amount := 750
  assetCode := "USDC"
  fromAddress := "SYSTEM_POOL"
  toAddress := "OUTAGE_SETTLEMENT"
  status := "pending"
  outageId := some "outage-1"
  slaResultId := some 1
  createdAt := ⟨0, some 0⟩
  confirmedAt := none
  retryCount := 0
  lastRetriedAt := none

def zeroDigest : String := "0000000000000000000000000000000000000000000000000000000000000000"

theorem zeroDigest_ascii : zeroDigest.toList.all (·.toNat < 128) := by decide

theorem zeroDigest_length : zeroDigest.length = 64 := by decide

/-- An HMAC that the runs below never compute: no secret is configured. -/
def zeroHmac : HexHmac where
  hexdigest := fun _ _ => zeroDigest
  hexdigest_ascii := fun _ _ => zeroDigest_ascii
  hexdigest_length := fun _ _ => zeroDigest_length

/-- The provider reports the payment as failed. -/
def failedDelivery : Delivery zeroHmac "" "pay_4f1d" "failed" := .signed zeroHmac "" _ _ ⟨5, some 0⟩

/-- The same failure reported twice uses up two retries, and the answer shows the payment as failed while
it is stored as pending. -/
theorem failed_callback_twice :
    ((failedDelivery.deliver [pendingRow]).1.value?).map (·.status) = some "failed" ∧
      (paymentRow "pay_4f1d" (Delivery.deliverAll [failedDelivery] [pendingRow])).map
        (fun row => (row.status, row.retryCount)) = some ("pending", 1) ∧
      (paymentRow "pay_4f1d" (Delivery.deliverAll [failedDelivery, failedDelivery] [pendingRow])).map
        (fun row => (row.status, row.retryCount)) = some ("pending", 2) ∧
      ¬ Redeliverable zeroHmac "" "pay_4f1d" "failed" [pendingRow] := by
  refine ⟨by decide, by decide, by decide, ?_⟩
  intro h
  have honce := h.row_once failedDelivery [failedDelivery]
  revert honce
  decide

end ApexChainx.Payment.Repository
