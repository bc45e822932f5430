import ApexChainx.Core.Error
import ApexChainx.Ledger.TxIndexer
import ApexChainx.Payment.Status
import ApexChainx.Sla.Repository

/-!
# The table `payment_transactions` and its two writers

`PaymentRepository` (`app/repositories/payment_repository.py`) mints a row for an SLA result and moves it
through its statuses; `TxIndexerRepository.upsert_many` (`app/repositories/tx_indexer_repository.py`) adds
the payments of the chain, in the columns that those have. Every row goes back through `_orm_to_pydantic`,
whose model asks for an outage.
-/

namespace ApexChainx.Payment.Repository

open ApexChainx.Lib ApexChainx.Ledger ApexChainx.Sla

/-! ## Rows and what the API returns of them -/

/-- `PaymentTransactionORM`. -/
structure TransactionRow where
  id : String
  transactionHash : String
  type : String
  amount : ℤ
  assetCode : String
  fromAddress : String
  toAddress : String
  status : String
  outageId : Option String
  slaResultId : Option ℕ
  createdAt : IsoTime
  confirmedAt : Option IsoTime
  retryCount : ℕ
  lastRetriedAt : Option IsoTime
deriving DecidableEq, Repr

/-- `PaymentTransaction` (`app/models/payment.py`). -/
structure PaymentTransaction where
  id : String
  transactionHash : String
  type : String
  amount : ℤ
  assetCode : String
  fromAddress : String
  toAddress : String
  status : String
  outageId : String
  slaResultId : Option ℕ
  createdAt : IsoTime
  confirmedAt : Option IsoTime
  retryCount : ℕ
  lastRetriedAt : Option IsoTime
deriving DecidableEq, Repr

/-- `_orm_to_pydantic`: the field `outage_id` is no optional one. -/
def ormToPydantic (orm : TransactionRow) : Outcome PaymentTransaction :=
  match orm.outageId with
  | none => .error (.valueError "outage_id: Input should be a valid string")
  | some outageId =>
      .ok
        { id := orm.id
          transactionHash := orm.transactionHash
          type := orm.type
          amount := orm.amount
          assetCode := orm.assetCode
          fromAddress := orm.fromAddress
          toAddress := orm.toAddress
          status := orm.status
          outageId := outageId
          slaResultId := orm.slaResultId
          createdAt := orm.createdAt
          confirmedAt := orm.confirmedAt
          retryCount := orm.retryCount
          lastRetriedAt := orm.lastRetriedAt }

/-- Every stored field is in the transaction, unchanged. -/
def Shows (t : PaymentTransaction) (row : TransactionRow) : Prop :=
  row =
    { id := t.id
      transactionHash := t.transactionHash
      type := t.type
      amount := t.amount
      assetCode := t.assetCode
      fromAddress := t.fromAddress
      toAddress := t.toAddress
      status := t.status
      outageId := some t.outageId
      slaResultId := t.slaResultId
      createdAt := t.createdAt
      confirmedAt := t.confirmedAt
      retryCount := t.retryCount
      lastRetriedAt := t.lastRetriedAt }

/-! ## Settlement -/

/-- The settings `PAYMENT_ASSET_CODE`, `PAYMENT_FROM_ADDRESS` and `PAYMENT_TO_ADDRESS`. -/
structure PaymentSettings where
  assetCode : String
  fromAddress : String
  toAddress : String

def paymentTypeText : PaymentType → String
  | .reward => "reward"
  | .penalty => "penalty"

/-- The row that `create` adds: the retry columns have their defaults. -/
def createdRow (data : PaymentTransaction) : TransactionRow where
  id := data.id
  transactionHash := data.transactionHash
  type := data.type
  amount := data.amount
  assetCode := data.assetCode
  fromAddress := data.fromAddress
  toAddress := data.toAddress
  status := data.status
  outageId := some data.outageId
  slaResultId := data.slaResultId
  createdAt := data.createdAt
  confirmedAt := data.confirmedAt
  retryCount := 0
  lastRetriedAt := none

/-- `create`, with the constraints of the table. The database may refuse the row for another reason, such as
a missing outage. -/
def create (refused : Option ApiError) (data : PaymentTransaction) (rows : List TransactionRow) :
    Outcome PaymentTransaction × List TransactionRow :=
  let row := createdRow data
  if !fitsBigint row.amount then (.error (.dataError "amount"), rows)
  else if row.id ∈ rows.map (·.id) then (.error (.integrityError "payment_transactions_pkey"), rows)
  else if row.transactionHash ∈ rows.map (·.transactionHash) then
    (.error (.integrityError "transaction_hash"), rows)
  else if rows.any (fun q => q.outageId = row.outageId && q.type = row.type) then
    (.error (.integrityError "uq_payment_outage_type"), rows)
  else if rows.any (fun q => row.slaResultId.isSome && q.slaResultId = row.slaResultId) then
    (.error (.integrityError "uq_payment_sla_result_id"), rows)
  else
    match refused with
    | some e => (.error e, rows)
    | none => (ormToPydantic row, rows ++ [row])

/-- The transaction that `create_for_sla_result` builds, with two random texts. -/
def newTransaction (settings : PaymentSettings) (idHex hashHex : String) (now : IsoTime) (outageId : String)
    (resultId : ℕ) (r : SLAResult) : PaymentTransaction where
  id := "pay_" ++ idHex
  transactionHash := "simulated-" ++ hashHex
  type := paymentTypeText r.paymentType
  amount := |r.amount|
  assetCode := settings.assetCode
  fromAddress := settings.fromAddress
  toAddress := settings.toAddress
  status := PaymentStatus.pending.value
  outageId := outageId
  slaResultId := some resultId
  createdAt := now
  confirmedAt := none
  retryCount := 0
  lastRetriedAt := none

/-- `create_for_sla_result`. -/
def createForSlaResult (settings : PaymentSettings) (idHex hashHex : String) (now : IsoTime)
    (refused : Option ApiError) (outageId : String) (r : SLAResult) (rows : List TransactionRow) :
    Outcome PaymentTransaction × List TransactionRow :=
  match r.id with
  | none => (.error (.valueError "SLA result id is required to generate a payment record"), rows)
  | some resultId =>
      match rows.find? (·.slaResultId = some resultId) with
      | some existing => (ormToPydantic existing, rows)
      | none => create refused (newTransaction settings idHex hashHex now outageId resultId r) rows

/-- The text of a `PaymentTransitionError`; the allowed statuses are a set. -/
def transitionErrorText (e : PaymentTransitionError) : String :=
  "Transition from '" ++ e.current ++ "' to '" ++ e.nextStatus ++ "' is not allowed. Allowed: " ++
    (if e.allowed = [] then "none"
     else "\x7b" ++ ", ".intercalate (e.allowed.map fun s => "'" ++ s ++ "'") ++ "\x7d")

/-- `orm`, changed and committed, unless the commit fails. -/
def commitRow (refused : Option ApiError) (orm : TransactionRow) (g : TransactionRow → TransactionRow)
    (rows : List TransactionRow) : Outcome (Option PaymentTransaction) × List TransactionRow :=
  match refused with
  | some e => (.error e, rows)
  | none =>
      let rows' := updateKey TransactionRow.id orm.id g rows
      match ormToPydantic (g orm) with
      | .error e => (.error e, rows')
      | .ok t => (.ok (some t), rows')

/-- `reconcile`. -/
def reconcile (refused : Option ApiError) (now : IsoTime) (transactionId newStatus : String)
    (rows : List TransactionRow) : Outcome (Option PaymentTransaction) × List TransactionRow :=
  match rows.find? (·.id = transactionId) with
  | none => (.ok none, rows)
  | some orm =>
      match validateTransition orm.status newStatus with
      | some e => (.error (.valueError (transitionErrorText e)), rows)
      | none =>
          commitRow refused orm
            (fun row => { row with
              status := newStatus
              confirmedAt := if newStatus = PaymentStatus.confirmed.value then some now else row.confirmedAt })
            rows

/-- `retry`. -/
def retry (refused : Option ApiError) (now : IsoTime) (transactionId : String) (rows : List TransactionRow) :
    Outcome (Option PaymentTransaction) × List TransactionRow :=
  match rows.find? (·.id = transactionId) with
  | none => (.ok none, rows)
  | some orm =>
      if maxRetries ≤ orm.retryCount then (.ok none, rows)
      else
        match validateTransition orm.status PaymentStatus.pending.value with
        | some e => (.error (.valueError (transitionErrorText e)), rows)
        | none =>
            commitRow refused orm
              (fun row => { row with
                retryCount := row.retryCount + 1
                lastRetriedAt := some now
                status := PaymentStatus.pending.value })
              rows

/-! ## The indexer -/

/-- The row that `upsert_many` writes: what it does not name stays null. -/
def indexedRow (now : IsoTime) (tx : IndexedTransaction) : TransactionRow where
  id := tx.id
  transactionHash := tx.transactionHash
  type := tx.type
  amount := tx.amount
  assetCode := tx.assetCode
  fromAddress := tx.fromAddress
  toAddress := tx.toAddress
  status := PaymentStatus.confirmed.value
  outageId := none
  slaResultId := none
  createdAt := tx.createdAt
  confirmedAt := some now
  retryCount := 0
  lastRetriedAt := none

/-- `INSERT … ON CONFLICT (transaction_hash) DO NOTHING`: an error undoes the whole statement. -/
def insertAll (now : IsoTime) : List IndexedTransaction → List TransactionRow → Outcome (List TransactionRow)
  | [], rows => .ok rows
  | tx :: txs, rows =>
      if tx.transactionHash ∈ rows.map (·.transactionHash) then insertAll now txs rows
      else if tx.id ∈ rows.map (·.id) then .error (.integrityError "payment_transactions_pkey")
      else insertAll now txs (rows ++ [indexedRow now tx])

/-- `upsert_many`: the number of inserted rows. -/
def upsertMany (refused : Option ApiError) (now : IsoTime) (transactions : List IndexedTransaction)
    (rows : List TransactionRow) : Outcome ℕ × List TransactionRow :=
  if transactions = [] then (.ok 0, rows)
  else if ∃ tx ∈ transactions, ¬ tx.toPaymentData.Fits then
    (.error (.dataError "payment_transactions"), rows)
  else
    match insertAll now transactions rows with
    | .error e => (.error e, rows)
    | .ok rows' =>
        match refused with
        | some e => (.error e, rows)
        | none => (.ok (rows'.length - rows.length), rows')

/-! ## Reading -/

/-- `get`. -/
def get (transactionId : String) (rows : List TransactionRow) : Outcome (Option PaymentTransaction) :=
  match rows.find? (·.id = transactionId) with
  | none => .ok none
  | some orm =>
      match ormToPydantic orm with
      | .error e => .error e
      | .ok t => .ok (some t)

/-- The arguments of `list`. -/
structure ListQuery where
  page : ℕ
  pageSize : ℕ
  page_pos : 0 < page
  status : Option String
  outageId : Option String
  type : Option String
  dateFrom : Option IsoTime
  dateTo : Option IsoTime
  sortBy : String
  sortDir : String

/-- What the database decides: the order in which rows come, and how it compares texts. -/
structure Database where
  scan : List TransactionRow → List TransactionRow
  scan_perm : ∀ rows, (scan rows).Perm rows
  collate : String → String → Bool

/-- `if value:` and a filter by it. -/
def textFilter (value : Option String) (stored : Option String) : Bool :=
  value.getD "" = "" ∨ stored = value

def ListQuery.admits (q : ListQuery) (row : TransactionRow) : Bool :=
  textFilter q.status (some row.status) && textFilter q.outageId row.outageId &&
    textFilter q.type (some row.type) &&
    q.dateFrom.all (fun t => t.ticks ≤ row.createdAt.ticks) &&
    q.dateTo.all (fun t => row.createdAt.ticks ≤ t.ticks)

/-- `SORT_COLUMNS`, ascending; an unknown column is `created_at`. -/
def ascending (db : Database) (sortBy : String) (a b : TransactionRow) : Bool :=
  if sortBy = "amount" then a.amount ≤ b.amount
  else if sortBy = "status" then db.collate a.status b.status
  else a.createdAt.ticks ≤ b.createdAt.ticks

/-- The rows of the page. -/
def ListQuery.rows (q : ListQuery) (db : Database) (rows : List TransactionRow) : List TransactionRow :=
  let sorted := ((db.scan rows).filter q.admits).mergeSort fun a b =>
    if q.sortDir = "asc" then ascending db q.sortBy a b else ascending db q.sortBy b a
  (sorted.drop ((q.page - 1) * q.pageSize)).take q.pageSize

/-- The transactions of the rows, unless one of them raises. -/
def readAll : List TransactionRow → Outcome (List PaymentTransaction)
  | [] => .ok []
  | row :: rows =>
      match ormToPydantic row with
      | .error e => .error e
      | .ok t =>
          match readAll rows with
          | .error e => .error e
          | .ok ts => .ok (t :: ts)

/-- `list`: the page, and the number of rows if the page is not empty. -/
def list (q : ListQuery) (db : Database) (rows : List TransactionRow) :
    Outcome (List PaymentTransaction × ℕ) :=
  match readAll (q.rows db rows) with
  | .error e => .error e
  | .ok ts => .ok (ts, if q.rows db rows = [] then 0 else (rows.filter q.admits).length)

end ApexChainx.Payment.Repository
