import ApexChainx.Ledger.IndexQuery
import ApexChainx.Payment.ReadBack

/-!
# The search over indexed payments

`TxIndexerRepository.search` (`app/repositories/tx_indexer_repository.py`). The indexer stores the columns of a
Horizon record as they came, the search compares them with what its validators make of a filter.

`finds_own_iff`: a row that came from a valid record is found by its own columns exactly when the validators
leave these as they are. Whatever the filters, no row that is returned fails one of them (`search_meets`).
-/

namespace ApexChainx.Payment.IndexSearch

open ApexChainx.Lib ApexChainx.Ledger ApexChainx.Ledger.IndexQuery ApexChainx.Payment.Repository

/-! ## The search -/

/-- The arguments of `search`. -/
structure SearchArguments where
  transactionHash : Option Argument := none
  account : Option Argument := none
  assetCode : Option Argument := none
  status : Option Argument := none
  transactionType : Option Argument := none
  outageId : Option Argument := none
  minAmount : Option Argument := none
  maxAmount : Option Argument := none
  createdAfter : Option Argument := none
  createdBefore : Option Argument := none
  sortBy : Option Argument := none
  sortDir : Option Argument := none
  limit : Option Argument := none

/-- The arguments after validation: bounds in pairs, and the order with its direction. -/
structure SearchQuery where
  transactionHash : Option String
  account : Option String
  assetCode : Option String
  status : Option String
  transactionType : Option String
  outageId : Option String
  amounts : Option ℤ × Option ℤ
  times : Option IsoTime × Option IsoTime
  order : SortField × Bool
  limit : ℕ

/-- The validation at the start of `search`. -/
def readQuery (cases : Ledger.CaseMapping) (args : SearchArguments) : Except QueryError SearchQuery := do
  let transactionHash ← validateTransactionHash cases args.transactionHash
  let account ← validateAccount cases "account" args.account
  let assetCode ← validateAssetCode cases args.assetCode
  let status ← validateStatus cases args.status
  let transactionType ← validateTransactionType cases args.transactionType
  let outageId ← validateOutageId args.outageId
  let amounts ← validateAmountRange args.minAmount args.maxAmount
  let times ← validateTimestampRange args.createdAfter args.createdBefore
  let order ← validateSort cases args.sortBy args.sortDir
  let limit ← validateLimit args.limit
  .ok ⟨transactionHash, account, assetCode, status, transactionType, outageId, amounts, times, order, limit⟩

/-- The filters of the statement. -/
def SearchQuery.admits (q : SearchQuery) (row : TransactionRow) : Bool :=
  q.transactionHash.all (fun v => row.transactionHash = v) &&
    q.account.all (fun v => row.fromAddress = v || row.toAddress = v) &&
    q.assetCode.all (fun v => row.assetCode = v) && q.status.all (fun v => row.status = v) &&
    q.transactionType.all (fun v => row.type = v) && q.outageId.all (fun v => row.outageId = some v) &&
    q.amounts.1.all (fun v => v ≤ row.amount) && q.amounts.2.all (fun v => row.amount ≤ v) &&
    q.times.1.all (fun t => t.ticks ≤ row.createdAt.ticks) && q.times.2.all (fun t => row.createdAt.ticks ≤ t.ticks)

/-- `SORT_COLUMNS`, ascending; null comes last. -/
def columnLe (db : Database) : SortField → TransactionRow → TransactionRow → Bool
  | .amount, a, b => a.amount ≤ b.amount
  | .confirmedAt, a, b => b.confirmedAt.all fun y => a.confirmedAt.any fun x => x.ticks ≤ y.ticks
  | .createdAt, a, b => a.createdAt.ticks ≤ b.createdAt.ticks
  | .status, a, b => db.collate a.status b.status

/-- `ORDER BY` the column in its direction, then `id`. -/
def SearchQuery.before (q : SearchQuery) (db : Database) (a b : TransactionRow) : Bool :=
  let le := fun x y => if q.order.2 then columnLe db q.order.1 x y else columnLe db q.order.1 y x
  le a b && (!le b a || db.collate a.id b.id)

/-- The rows that the filters of the statement select. -/
def SearchQuery.matching (q : SearchQuery) (db : Database) (rows : List TransactionRow) : List TransactionRow :=
  (db.scan rows).filter q.admits

/-- `search`. -/
def search (cases : Ledger.CaseMapping) (db : Database) (args : SearchArguments) (rows : List TransactionRow) :
    Except QueryError (List TransactionRow) :=
  match readQuery cases args with
  | .error e => .error e
  | .ok q => .ok (((q.matching db rows).mergeSort (q.before db)).take q.limit)

/-! ## What is stored -/

/-- A digit of a hash in either case. -/
def hexDigit (c : Char) : Bool := hexLower c || c ∈ "ABCDEF".toList

/-- A member that names a party: absent, empty or the address of an account. -/
def ValidParty (member : Option String) : Prop := ∀ a ∈ member, a = "" ∨ publicKeyPattern a = true

/-- A record of the chain: a hash of 64 digits in either case, an asset code of up to twelve letters or digits
in either case, and addresses of Stellar. -/
structure ValidRecord (record : HorizonRecord) : Prop where
  hash : ∃ h, record.transactionHash = some h ∧ h.toList.length = 64 ∧ ∀ c ∈ h.toList, hexDigit c = true
  assetCode : ∀ a ∈ record.assetCode, (1 ≤ a.toList.length ∧ a.toList.length ≤ 12) ∧
    ∀ c ∈ a.toList, c.isAlphanum = true
  sender : ValidParty record.sender
  receiver : ValidParty record.receiver

/-- The columns have the values of the record. -/
structure FromRecord (record : HorizonRecord) (row : TransactionRow) : Prop where
  transactionHash : row.transactionHash = strip (memberOr record.transactionHash "")
  type : row.type = memberOr record.type "payment"
  assetCode : row.assetCode = memberOr record.assetCode "XLM"
  fromAddress : row.fromAddress = memberOr record.sender ""
  toAddress : row.toAddress = memberOr record.receiver ""

/-- The rows without an outage, which are those of the indexer, came from valid records. -/
def Ingested (rows : List TransactionRow) : Prop :=
  ∀ row ∈ rows, row.outageId = none → ∃ record, ValidRecord record ∧ FromRecord record row

/-- What the indexer is given has been parsed from valid records. -/
def ValidPayments : Repository.Action → Prop
  | .upsertMany _ _ transactions =>
      ∀ tx ∈ transactions, ∃ parsedAt record, ValidRecord record ∧ parseHorizonRecord parsedAt record = .ok tx
  | _ => True

/-- A party of the payment. -/
inductive Party
  | sender
  | receiver

def Party.address (row : TransactionRow) : Party → String
  | .sender => row.fromAddress
  | .receiver => row.toAddress

/-- Some of the columns of a row, to search it by. -/
structure OwnFilters where
  transactionHash : Bool
  assetCode : Bool
  type : Bool
  party : Option Party

/-- The columns of the row as filters. -/
def OwnFilters.arguments (own : OwnFilters) (row : TransactionRow) : SearchArguments where
  transactionHash := if own.transactionHash then some (.str row.transactionHash) else none
  assetCode := if own.assetCode then some (.str row.assetCode) else none
  transactionType := if own.type then some (.str row.type) else none
  account := own.party.map fun p => .str (p.address row)

/-- The search takes every choice of the row's columns, an address only if it is present, and the row is among
those that match. -/
def FindsOwn (cases : Ledger.CaseMapping) (db : Database) (rows : List TransactionRow) (row : TransactionRow) : Prop :=
  ∀ own : OwnFilters, (∀ p ∈ own.party, p.address row ≠ "") →
    ∃ q, readQuery cases (own.arguments row) = .ok q ∧ row ∈ q.matching db rows

/-- A row meets the arguments that were given. -/
structure Meets (cases : Ledger.CaseMapping) (args : SearchArguments) (row : TransactionRow) : Prop where
  transactionHash : ∀ raw ∈ args.transactionHash, ∃ s, raw = .str s ∧ row.transactionHash = cases.lower (strip s)
  account : ∀ raw ∈ args.account, ∃ s v, raw = .str s ∧ normalizeWallet cases (strip s) = .ok v ∧
    (row.fromAddress = v ∨ row.toAddress = v)
  assetCode : ∀ raw ∈ args.assetCode, ∃ s, raw = .str s ∧ row.assetCode = cases.upper (strip s)
  status : ∀ raw ∈ args.status, ∃ s, raw = .str s ∧ row.status = cases.lower (strip s)
  transactionType : ∀ raw ∈ args.transactionType, ∃ s, raw = .str s ∧ row.type = cases.lower (strip s)
  outageId : ∀ raw ∈ args.outageId, ∃ s, raw = .str s ∧ row.outageId = some (strip s)
  minAmount : ∀ raw ∈ args.minAmount, ∃ n, readAmount raw = some n ∧ n ≤ row.amount
  maxAmount : ∀ raw ∈ args.maxAmount, ∃ n, readAmount raw = some n ∧ row.amount ≤ n
  createdAfter : ∀ raw ∈ args.createdAfter, ∃ t, raw = .datetime t ∧ t.ticks ≤ row.createdAt.ticks
  createdBefore : ∀ raw ∈ args.createdBefore, ∃ t, raw = .datetime t ∧ row.createdAt.ticks ≤ t.ticks

/-! ## The rows of a run -/

/-- The indexer adds rows of the payments it is given. -/
theorem mem_insertAll {now : IsoTime} {txs : List IndexedTransaction} {rows rows' : List TransactionRow}
    (h : insertAll now txs rows = .ok rows') {row : TransactionRow} (hrow : row ∈ rows') :
    row ∈ rows ∨ ∃ tx ∈ txs, row = indexedRow now tx := by
  induction txs generalizing rows with
  | nil =>
      obtain rfl := Outcome.ok.inj h
      exact .inl hrow
  | cons tx txs ih =>
      rw [insertAll] at h
      split_ifs at h with hstored hid
      · rcases ih h with hold | ⟨tx', htx', heq⟩
        · exact .inl hold
        · exact .inr ⟨tx', List.mem_cons_of_mem tx htx', heq⟩
      · rcases ih h with hold | ⟨tx', htx', heq⟩
        · rcases List.mem_append.mp hold with hold | hnew
          · exact .inl hold
          · exact .inr ⟨tx, List.mem_cons_self, List.mem_singleton.mp hnew⟩
        · exact .inr ⟨tx', List.mem_cons_of_mem tx htx', heq⟩

theorem mem_upsertMany {refused : Option ApiError} {now : IsoTime} {txs : List IndexedTransaction}
    {rows : List TransactionRow} {row : TransactionRow} (hrow : row ∈ (Repository.upsertMany refused now txs rows).2) :
    row ∈ rows ∨ ∃ tx ∈ txs, row = indexedRow now tx := by
  unfold Repository.upsertMany at hrow
  split_ifs at hrow with hempty hwide
  · exact .inl hrow
  · exact .inl hrow
  · cases hinsert : insertAll now txs rows with
    | error e =>
        rw [hinsert] at hrow
        exact .inl hrow
    | ok rows' =>
        rw [hinsert] at hrow
        cases refused with
        | some e => exact .inl hrow
        | none => exact mem_insertAll hinsert hrow

/-- The same text columns. -/
def SameTexts (a b : TransactionRow) : Prop :=
  b.transactionHash = a.transactionHash ∧ b.type = a.type ∧ b.assetCode = a.assetCode ∧
    b.fromAddress = a.fromAddress ∧ b.toAddress = a.toAddress ∧ b.outageId = a.outageId

theorem mem_commitRow {refused : Option ApiError} {orm : TransactionRow} {g : TransactionRow → TransactionRow}
    (hg : ∀ row, SameTexts row (g row)) {rows : List TransactionRow} {row : TransactionRow}
    (hrow : row ∈ (commitRow refused orm g rows).2) : ∃ old ∈ rows, SameTexts old row := by
  have hsame : ∀ row : TransactionRow, SameTexts row row := fun row => ⟨rfl, rfl, rfl, rfl, rfl, rfl⟩
  unfold commitRow at hrow
  cases refused with
  | some e => exact ⟨row, hrow, hsame row⟩
  | none =>
      have hupdated : row ∈ updateKey TransactionRow.id orm.id g rows := by
        dsimp only at hrow
        split at hrow
        · exact hrow
        · exact hrow
      rcases mem_updateKey hupdated with hold | ⟨old, hold, -, rfl⟩
      · exact ⟨row, hold, hsame row⟩
      · exact ⟨old, hold, hg old⟩

/-- A row after a call has the text columns of a row before it, or an outage, or it is one of the indexer. -/
theorem mem_after {settings : PaymentSettings} {rows : List TransactionRow} {a : Repository.Action}
    {row : TransactionRow} (hrow : row ∈ after settings rows a) :
    (∃ old ∈ rows, SameTexts old row) ∨ row.outageId ≠ none ∨
      ∃ refused now txs, a = .upsertMany refused now txs ∧ ∃ tx ∈ txs, row = indexedRow now tx := by
  have hsame : ∀ row : TransactionRow, SameTexts row row := fun row => ⟨rfl, rfl, rfl, rfl, rfl, rfl⟩
  cases a with
  | createForSlaResult idHex hashHex now refused outageId r =>
      rcases createForSlaResult_rows settings idHex hashHex now refused outageId r rows with hrows | ⟨data, -, hrows⟩
      · rw [after, hrows] at hrow
        exact .inl ⟨row, hrow, hsame row⟩
      · rw [after, hrows] at hrow
        rcases List.mem_append.mp hrow with hold | hnew
        · exact .inl ⟨row, hold, hsame row⟩
        · obtain rfl := List.mem_singleton.mp hnew
          exact .inr (.inl (Option.some_ne_none data.outageId))
  | reconcile refused now transactionId newStatus =>
      have hreconcile : row ∈ (reconcile refused now transactionId newStatus rows).2 := hrow
      unfold reconcile at hreconcile
      split at hreconcile
      · exact .inl ⟨row, hreconcile, hsame row⟩
      · split at hreconcile
        · exact .inl ⟨row, hreconcile, hsame row⟩
        · refine .inl (mem_commitRow ?_ hreconcile)
          exact fun row => ⟨rfl, rfl, rfl, rfl, rfl, rfl⟩
  | retry refused now transactionId =>
      have hretry : row ∈ (retry refused now transactionId rows).2 := hrow
      unfold retry at hretry
      split at hretry
      · exact .inl ⟨row, hretry, hsame row⟩
      · split at hretry
        · exact .inl ⟨row, hretry, hsame row⟩
        · split at hretry
          · exact .inl ⟨row, hretry, hsame row⟩
          · refine .inl (mem_commitRow ?_ hretry)
            exact fun row => ⟨rfl, rfl, rfl, rfl, rfl, rfl⟩
  | upsertMany refused now txs =>
      rcases mem_upsertMany hrow with hold | hnew
      · exact .inl ⟨row, hold, hsame row⟩
      · exact .inr (.inr ⟨refused, now, txs, rfl, hnew⟩)

/-- One call keeps the rows of the indexer as they came from valid records. -/
theorem Ingested.after {settings : PaymentSettings} {rows : List TransactionRow} (h : Ingested rows)
    {a : Repository.Action} (ha : ValidPayments a) : Ingested (Repository.after settings rows a) := by
  intro row hrow houtage
  rcases mem_after hrow with ⟨old, hold, hhash, htype, hasset, hsender, hreceiver, hsame⟩ | hlinked |
      ⟨refused, now, txs, rfl, tx, htx, rfl⟩
  · obtain ⟨record, hvalid, hfrom⟩ := h old hold (hsame ▸ houtage)
    exact ⟨record, hvalid, hhash.trans hfrom.transactionHash, htype.trans hfrom.type, hasset.trans hfrom.assetCode,
      hsender.trans hfrom.fromAddress, hreceiver.trans hfrom.toAddress⟩
  · exact absurd houtage hlinked
  · obtain ⟨parsedAt, record, hvalid, hparse⟩ := ha tx htx
    obtain ⟨hhash, htype, -, hasset, hsender, hreceiver, -⟩ := parseHorizonRecord_eq_ok hparse
    exact ⟨record, hvalid, hhash, htype, hasset, hsender, hreceiver⟩

/-- So does any sequence of calls. -/
theorem ingested_of_run {settings : PaymentSettings} {actions : List Repository.Action} {rows : List TransactionRow}
    (hvalid : ∀ a ∈ actions, ValidPayments a) (hrun : run (Repository.step settings) [] actions = some rows) :
    Ingested rows := by
  have hstep : ∀ s a s', Ingested s → ValidPayments a → Repository.step settings s a = some s' → Ingested s' := by
    intro s a s' hs ha ht
    obtain rfl := Option.some.inj ht
    exact hs.after ha
  have hempty : Ingested [] := fun row hrow => absurd hrow List.not_mem_nil
  exact run_invariant_of_guarded hstep hempty (guarded_of_forall (fun a ha _ => hvalid a ha) []) hrun

/-! ## The validation as a whole -/

section Search

variable {cases : Ledger.CaseMapping} {db : Database}

theorem readQuery_eq_ok_iff {args : SearchArguments} {q : SearchQuery} :
    readQuery cases args = .ok q ↔
      validateTransactionHash cases args.transactionHash = .ok q.transactionHash ∧
      validateAccount cases "account" args.account = .ok q.account ∧
      validateAssetCode cases args.assetCode = .ok q.assetCode ∧ validateStatus cases args.status = .ok q.status ∧
      validateTransactionType cases args.transactionType = .ok q.transactionType ∧
      validateOutageId args.outageId = .ok q.outageId ∧
      validateAmountRange args.minAmount args.maxAmount = .ok q.amounts ∧
      validateTimestampRange args.createdAfter args.createdBefore = .ok q.times ∧
      validateSort cases args.sortBy args.sortDir = .ok q.order ∧ validateLimit args.limit = .ok q.limit := by
  constructor
  · intro h
    obtain ⟨transactionHash, hhash, h⟩ := bind_eq_ok.mp h
    obtain ⟨account, haccount, h⟩ := bind_eq_ok.mp h
    obtain ⟨assetCode, hasset, h⟩ := bind_eq_ok.mp h
    obtain ⟨status, hstatus, h⟩ := bind_eq_ok.mp h
    obtain ⟨transactionType, htype, h⟩ := bind_eq_ok.mp h
    obtain ⟨outageId, houtage, h⟩ := bind_eq_ok.mp h
    obtain ⟨amounts, hamounts, h⟩ := bind_eq_ok.mp h
    obtain ⟨times, htimes, h⟩ := bind_eq_ok.mp h
    obtain ⟨order, horder, h⟩ := bind_eq_ok.mp h
    obtain ⟨limit, hlimit, h⟩ := bind_eq_ok.mp h
    obtain rfl := Except.ok.inj h
    exact ⟨hhash, haccount, hasset, hstatus, htype, houtage, hamounts, htimes, horder, hlimit⟩
  · rintro ⟨hhash, haccount, hasset, hstatus, htype, houtage, hamounts, htimes, horder, hlimit⟩
    unfold readQuery
    rw [hhash, haccount, hasset, hstatus, htype, houtage, hamounts, htimes, horder, hlimit]
    rfl

theorem admits_iff {q : SearchQuery} {row : TransactionRow} : q.admits row = true ↔
    (∀ v ∈ q.transactionHash, row.transactionHash = v) ∧
    (∀ v ∈ q.account, row.fromAddress = v ∨ row.toAddress = v) ∧ (∀ v ∈ q.assetCode, row.assetCode = v) ∧
    (∀ v ∈ q.status, row.status = v) ∧ (∀ v ∈ q.transactionType, row.type = v) ∧
    (∀ v ∈ q.outageId, row.outageId = some v) ∧ (∀ v ∈ q.amounts.1, v ≤ row.amount) ∧
    (∀ v ∈ q.amounts.2, row.amount ≤ v) ∧ (∀ t ∈ q.times.1, t.ticks ≤ row.createdAt.ticks) ∧
    ∀ t ∈ q.times.2, row.createdAt.ticks ≤ t.ticks := by
  unfold SearchQuery.admits
  simp only [Bool.and_eq_true, Option.all_eq_true, decide_eq_true_eq, Bool.or_eq_true, Option.mem_def, and_assoc]

theorem mem_matching {q : SearchQuery} {rows : List TransactionRow} {row : TransactionRow} :
    row ∈ q.matching db rows ↔ row ∈ rows ∧ q.admits row = true := by
  unfold SearchQuery.matching
  rw [List.mem_filter, (db.scan_perm rows).mem_iff]

/-- No row that is returned fails a filter that was given. -/
theorem search_meets {args : SearchArguments} {rows found : List TransactionRow}
    (h : search cases db args rows = .ok found) {row : TransactionRow} (hrow : row ∈ found) :
    row ∈ rows ∧ Meets cases args row := by
  unfold search at h
  rcases hread : readQuery cases args with e | q
  · simp only [hread] at h
    cases h
  · simp only [hread] at h
    obtain rfl := Except.ok.inj h
    have hmatching := List.mem_of_mem_take hrow
    rw [List.mem_mergeSort, mem_matching] at hmatching
    obtain ⟨hrows, hadmits⟩ := hmatching
    refine ⟨hrows, ?_⟩
    obtain ⟨hhash, haccount, hasset, hstatus, htype, houtage, hamounts, htimes, -, -⟩ := readQuery_eq_ok_iff.mp hread
    obtain ⟨hlow, hhigh⟩ := validateAmountRange_eq_ok hamounts
    obtain ⟨hstart, hstop⟩ := validateTimestampRange_eq_ok htimes
    obtain ⟨mhash, maccount, masset, mstatus, mtype, moutage, mlow, mhigh, mstart, mstop⟩ := admits_iff.mp hadmits
    constructor
    · intro raw hraw
      rw [Option.mem_def.mp hraw] at hhash
      obtain ⟨s, rfl, hvalue⟩ := validatePattern_some hhash
      exact ⟨s, rfl, mhash _ hvalue⟩
    · intro raw hraw
      rw [Option.mem_def.mp hraw] at haccount
      obtain ⟨s, v, rfl, hnormalize, hvalue⟩ := validateAccount_some haccount
      exact ⟨s, v, rfl, hnormalize, maccount _ hvalue⟩
    · intro raw hraw
      rw [Option.mem_def.mp hraw] at hasset
      obtain ⟨s, rfl, hvalue⟩ := validatePattern_some hasset
      exact ⟨s, rfl, masset _ hvalue⟩
    · intro raw hraw
      rw [Option.mem_def.mp hraw] at hstatus
      obtain ⟨s, rfl, hvalue⟩ := validatePattern_some hstatus
      exact ⟨s, rfl, mstatus _ hvalue⟩
    · intro raw hraw
      rw [Option.mem_def.mp hraw] at htype
      obtain ⟨s, rfl, hvalue⟩ := validatePattern_some htype
      exact ⟨s, rfl, mtype _ hvalue⟩
    · intro raw hraw
      rw [Option.mem_def.mp hraw] at houtage
      obtain ⟨s, rfl, hvalue⟩ := validatePattern_some houtage
      exact ⟨s, rfl, moutage _ hvalue⟩
    · intro raw hraw
      rw [Option.mem_def.mp hraw] at hlow
      obtain ⟨n, hn, hvalue⟩ := validateAmount_some hlow
      exact ⟨n, hn, mlow _ hvalue⟩
    · intro raw hraw
      rw [Option.mem_def.mp hraw] at hhigh
      obtain ⟨n, hn, hvalue⟩ := validateAmount_some hhigh
      exact ⟨n, hn, mhigh _ hvalue⟩
    · intro raw hraw
      rw [Option.mem_def.mp hraw] at hstart
      obtain ⟨t, rfl, hvalue⟩ := validateTimestamp_some hstart
      exact ⟨t, rfl, mstart _ hvalue⟩
    · intro raw hraw
      rw [Option.mem_def.mp hraw] at hstop
      obtain ⟨t, rfl, hvalue⟩ := validateTimestamp_some hstop
      exact ⟨t, rfl, mstop _ hvalue⟩

/-! ## The row's own columns -/

/-- The texts of the row have the patterns of the validators. -/
structure Canonical (row : TransactionRow) : Prop where
  transactionHash : transactionHashPattern row.transactionHash = true
  assetCode : assetCodePattern row.assetCode = true
  type : transactionTypePattern row.type = true

/-- With parties that are accounts, a row is found by its own columns exactly when they have the patterns. -/
theorem findsOwn_iff_canonical {rows : List TransactionRow} {row : TransactionRow} (hrow : row ∈ rows)
    (hparty : ∀ p : Party, p.address row = "" ∨ publicKeyPattern (p.address row) = true) :
    FindsOwn cases db rows row ↔ Canonical row := by
  constructor
  · intro h
    constructor
    · obtain ⟨q, hread, hmatching⟩ := h ⟨true, false, false, none⟩ fun p hp => by cases hp
      obtain ⟨hhash, -⟩ := readQuery_eq_ok_iff.mp hread
      obtain ⟨s, -, hvalue⟩ := validatePattern_some hhash
      have hown := (admits_iff.mp (mem_matching.mp hmatching).2).1 _ hvalue
      rw [hvalue, ← hown] at hhash
      exact (validatePattern_self_iff transactionHash_canonical).mp hhash
    · obtain ⟨q, hread, hmatching⟩ := h ⟨false, true, false, none⟩ fun p hp => by cases hp
      obtain ⟨-, -, hasset, -⟩ := readQuery_eq_ok_iff.mp hread
      obtain ⟨s, -, hvalue⟩ := validatePattern_some hasset
      have hown := (admits_iff.mp (mem_matching.mp hmatching).2).2.2.1 _ hvalue
      rw [hvalue, ← hown] at hasset
      exact (validatePattern_self_iff assetCode_canonical).mp hasset
    · obtain ⟨q, hread, hmatching⟩ := h ⟨false, false, true, none⟩ fun p hp => by cases hp
      obtain ⟨-, -, -, -, htype, -⟩ := readQuery_eq_ok_iff.mp hread
      obtain ⟨s, -, hvalue⟩ := validatePattern_some htype
      have hown := (admits_iff.mp (mem_matching.mp hmatching).2).2.2.2.2.1 _ hvalue
      rw [hvalue, ← hown] at htype
      exact (validatePattern_self_iff transactionType_canonical).mp htype
  · rintro ⟨hhash, hasset, htype⟩ own hpresent
    have haccount : validateAccount cases "account" (own.party.map fun p => .str (p.address row)) =
        .ok (own.party.map fun p => p.address row) := by
      rcases hp : own.party with _ | p
      · rfl
      · exact validateAccount_self ((hparty p).resolve_left (hpresent p hp))
    refine ⟨⟨if own.transactionHash then some row.transactionHash else none, own.party.map fun p => p.address row,
      if own.assetCode then some row.assetCode else none, none, if own.type then some row.type else none, none,
      (none, none), (none, none), (.createdAt, false), 50⟩, ?_, ?_⟩
    · refine readQuery_eq_ok_iff.mpr ⟨validatePattern_own transactionHash_canonical hhash _, haccount,
        validatePattern_own assetCode_canonical hasset _, rfl, validatePattern_own transactionType_canonical htype _,
        rfl, rfl, rfl, rfl, rfl⟩
    · have hgiven : ∀ (given : Bool) (x : String), ∀ v ∈ (if given then some x else none), x = v := by
        intro given x v hv
        cases given with
        | false => cases hv
        | true => exact Option.some.inj hv
      refine mem_matching.mpr ⟨hrow, admits_iff.mpr ⟨hgiven _ _, ?_, hgiven _ _, nofun, hgiven _ _, nofun, nofun, nofun,
        nofun, nofun⟩⟩
      intro v hv
      obtain ⟨p, -, rfl⟩ := Option.map_eq_some_iff.mp hv
      cases p with
      | sender => exact .inl rfl
      | receiver => exact .inr rfl

/-! ## Valid records -/

theorem memberOr_some {text default : String} (h : text ≠ "") : memberOr (some text) default = text := if_neg h

theorem validParty_address {member : Option String} (h : ValidParty member) :
    memberOr member "" = "" ∨ publicKeyPattern (memberOr member "") = true := by
  rcases member with _ | a
  · exact .inl rfl
  · by_cases ha : a = ""
    · exact .inl (if_pos ha)
    · rw [memberOr_some ha]
      exact h a rfl

theorem isSpace_of_hexDigit {c : Char} (h : hexDigit c = true) : isSpace c = false := by
  rcases Bool.or_eq_true_iff.mp h with hlower | hupper
  · have hrange := hexLower_range hlower
    exact isSpace_of_toNat (by omega) hrange.2
  · have hall : "ABCDEF".toList.all Char.isUpper = true := by decide
    have hrange := toNat_of_isUpper (List.all_eq_true.mp hall c (of_decide_eq_true hupper))
    exact isSpace_of_toNat (by omega) (by omega)

/-- A hash in either case has the pattern exactly when no digit is in upper case. -/
theorem transactionHashPattern_iff {h : String} (hlength : h.toList.length = 64)
    (hdigits : ∀ c ∈ h.toList, hexDigit c = true) :
    transactionHashPattern h = true ↔ ∀ c ∈ h.toList, c.isUpper = false := by
  unfold transactionHashPattern
  rw [Bool.and_eq_true, decide_eq_true_eq, and_iff_right hlength, List.all_eq_true]
  refine forall₂_congr fun c hc => ?_
  constructor
  · intro hlower
    rcases hexLower_cases hlower with hdigit | hlower
    · exact isUpper_of_isDigit hdigit
    · exact isUpper_of_isLower hlower
  · intro hupper
    have hall : "ABCDEF".toList.all Char.isUpper = true := by decide
    refine (Bool.or_eq_true_iff.mp (hdigits c hc)).resolve_right fun hc => ?_
    rw [List.all_eq_true.mp hall c (of_decide_eq_true hc)] at hupper
    cases hupper

/-- An asset code in either case has the pattern exactly when no letter is in lower case. -/
theorem assetCodePattern_iff {a : String} (hlength : 1 ≤ a.toList.length ∧ a.toList.length ≤ 12)
    (hchars : ∀ c ∈ a.toList, c.isAlphanum = true) :
    assetCodePattern a = true ↔ ∀ c ∈ a.toList, c.isLower = false := by
  unfold assetCodePattern
  rw [Bool.and_eq_true, Bool.and_eq_true, decide_eq_true_eq, decide_eq_true_eq, and_iff_right hlength,
    List.all_eq_true]
  refine forall₂_congr fun c hc => ?_
  constructor
  · intro hcode
    rcases Bool.or_eq_true_iff.mp hcode with hupper | hdigit
    · rw [Bool.eq_false_iff]
      intro hlower
      rw [isUpper_of_isLower hlower] at hupper
      cases hupper
    · exact isLower_of_isDigit hdigit
  · intro hlower
    have halnum : ((c.isUpper || c.isLower) || c.isDigit) = true := hchars c hc
    rw [hlower, Bool.or_false] at halnum
    exact halnum

end Search

/-- In every table that the repositories leave behind, with payments of valid records, a row of the indexer is
found by its own columns if and only if its hash has no digit in upper case, its asset code no letter in lower
case, and its type the pattern of a label; and no row that a search returns fails one of its filters. -/
theorem finds_own_iff (cases : Ledger.CaseMapping) (db : Database) (settings : PaymentSettings)
    {actions : List Repository.Action} {rows : List TransactionRow} (hvalid : ∀ a ∈ actions, ValidPayments a)
    (hrun : run (Repository.step settings) [] actions = some rows) :
    (∀ row ∈ rows, row.outageId = none →
      (FindsOwn cases db rows row ↔ (∀ c ∈ row.transactionHash.toList, c.isUpper = false) ∧
        (∀ c ∈ row.assetCode.toList, c.isLower = false) ∧ transactionTypePattern row.type = true)) ∧
    ∀ args found, search cases db args rows = .ok found → ∀ row ∈ found, row ∈ rows ∧ Meets cases args row := by
  refine ⟨fun row hrow houtage => ?_, fun args found hfound row hrow => search_meets hfound hrow⟩
  obtain ⟨record, hrecord, hfrom⟩ := ingested_of_run hvalid hrun row hrow houtage
  have hparty : ∀ p : Party, p.address row = "" ∨ publicKeyPattern (p.address row) = true := by
    intro p
    cases p with
    | sender =>
        show row.fromAddress = "" ∨ publicKeyPattern row.fromAddress = true
        rw [hfrom.fromAddress]
        exact validParty_address hrecord.sender
    | receiver =>
        show row.toAddress = "" ∨ publicKeyPattern row.toAddress = true
        rw [hfrom.toAddress]
        exact validParty_address hrecord.receiver
  have hhash : transactionHashPattern row.transactionHash = true ↔
      ∀ c ∈ row.transactionHash.toList, c.isUpper = false := by
    obtain ⟨h, hsome, hlength, hdigits⟩ := hrecord.hash
    have hne : h ≠ "" := by
      rintro rfl
      cases hlength
    rw [hfrom.transactionHash, hsome, memberOr_some hne,
      strip_of_plain fun c hc => isSpace_of_hexDigit (hdigits c hc)]
    exact transactionHashPattern_iff hlength hdigits
  have hasset : assetCodePattern row.assetCode = true ↔ ∀ c ∈ row.assetCode.toList, c.isLower = false := by
    rw [hfrom.assetCode]
    rcases hcode : record.assetCode with _ | a
    · have hnative : ("XLM".toList).all Char.isAlphanum = true := by decide
      exact assetCodePattern_iff (a := "XLM") (by decide) (List.all_eq_true.mp hnative)
    · obtain ⟨hlength, hchars⟩ := hrecord.assetCode a hcode
      have hne : a ≠ "" := by
        rintro rfl
        exact absurd hlength.1 (by decide)
      rw [memberOr_some hne]
      exact assetCodePattern_iff hlength hchars
  rw [findsOwn_iff_canonical hrow hparty, ← hhash, ← hasset]
  exact ⟨fun h => ⟨h.transactionHash, h.assetCode, h.type⟩, fun h => ⟨h.1, h.2.1, h.2.2⟩⟩

/-- A payment of 10 units between two accounts. -/
def chainRecord (hash code : String) : HorizonRecord where
  pagingToken := "100"
  transactionHash := some hash
  type := some "payment"
  amount := some "10.0000000"
  assetCode := some code
  sender := some "GAAZI4TCR3TY5OJHCTJC2A4QSY6CJWJH5IAJTGKIN2ER7LBNVKOCCWN7"
  receiver := some "GCEZWKCA5VLDNRLN3RPRJMRZOX3Z6G5CHCGSNFHEYVXM3XOJMDS674JZ"
  createdAt := none

/-- What it is parsed to. -/
def chainPayment (hash code : String) : IndexedTransaction where
  transactionHash := hash
  type := "payment"
  amount := 100000000
  assetCode := code
  fromAddress := "GAAZI4TCR3TY5OJHCTJC2A4QSY6CJWJH5IAJTGKIN2ER7LBNVKOCCWN7"
  toAddress := "GCEZWKCA5VLDNRLN3RPRJMRZOX3Z6G5CHCGSNFHEYVXM3XOJMDS674JZ"
  createdAt := ⟨0, some 0⟩

/-- A pass that stores one payment. -/
def indexOne (hash code : String) : Repository.Action := .upsertMany none ⟨0, some 0⟩ [chainPayment hash code]

def lowerHash : String := "3389e9f0f1a65f19736cacf544c2e825313e8447f569233bb8db39aa607c8889"

def upperHash : String := "3389E9F0F1A65F19736CACF544C2E825313E8447F569233BB8DB39AA607C8889"

theorem lowerHash_digits : lowerHash.toList.length = 64 ∧ lowerHash.toList.all hexDigit = true := by
  decide

theorem upperHash_digits : upperHash.toList.length = 64 ∧ upperHash.toList.all hexDigit = true := by
  decide

theorem parse_chainRecord {hash code : String} (hlength : hash.toList.length = 64)
    (hdigits : hash.toList.all hexDigit = true) (hcode : 1 ≤ code.toList.length) :
    parseHorizonRecord ⟨0, some 0⟩ (chainRecord hash code) = .ok (chainPayment hash code) := by
  have hhash : hash ≠ "" := by
    rintro rfl
    cases hlength
  have hne : code ≠ "" := by
    rintro rfl
    exact absurd hcode (by decide)
  have hstrip : strip (memberOr (some hash) "") = hash := by
    rw [memberOr_some hhash, strip_of_plain fun c hc => isSpace_of_hexDigit (List.all_eq_true.mp hdigits c hc)]
  have hamount : toStroops "10.0000000" = .ok 100000000 := by decide +kernel
  have hasset : memberOr (some code) "XLM" = code := memberOr_some hne
  unfold parseHorizonRecord
  simp only [chainRecord, hstrip, hasset, Option.getD_some, hamount]
  rw [if_neg hhash]
  rfl

theorem validPayments_indexOne {hash code : String} (hlength : hash.toList.length = 64)
    (hdigits : hash.toList.all hexDigit = true) (hcode : 1 ≤ code.toList.length ∧ code.toList.length ≤ 12)
    (hchars : code.toList.all Char.isAlphanum = true) : ValidPayments (indexOne hash code) := by
  intro tx htx
  obtain rfl := List.mem_singleton.mp htx
  refine ⟨⟨0, some 0⟩, chainRecord hash code, ⟨⟨hash, rfl, hlength, List.all_eq_true.mp hdigits⟩, ?_, ?_, ?_⟩,
    parse_chainRecord hlength hdigits hcode.1⟩
  · rintro a ⟨rfl⟩
    exact ⟨hcode, List.all_eq_true.mp hchars⟩
  · rintro a ⟨rfl⟩
    exact .inr (by decide)
  · rintro a ⟨rfl⟩
    exact .inr (by decide)

theorem run_indexOne {hash code : String} (hlength : hash.toList.length = 64) (hcode : code.toList.length ≤ 12) :
    run (Repository.step defaultSettings) [] [indexOne hash code] =
      some [indexedRow ⟨0, some 0⟩ (chainPayment hash code)] := by
  have hfits : (chainPayment hash code).toPaymentData.Fits := by
    rw [String.length_toList] at hlength hcode
    have hrest : (chainPayment "" "").toPaymentData.Fits := by decide
    exact ⟨show hash.length ≤ 255 by omega, hrest.2.1, hrest.2.2.1, show code.length ≤ 20 by omega, hrest.2.2.2.2⟩
  simp [run, Repository.step, Repository.after, indexOne, Repository.upsertMany, insertAll, hfits]

/-- A payment as Horizon sends it is found. -/
theorem lower_case_payment_found :
    FindsOwn asciiCases plainDatabase [indexedRow ⟨0, some 0⟩ (chainPayment lowerHash "USDC")]
      (indexedRow ⟨0, some 0⟩ (chainPayment lowerHash "USDC")) := by
  have hvalid : ∀ a ∈ [indexOne lowerHash "USDC"], ValidPayments a := by
    intro a ha
    obtain rfl := List.mem_singleton.mp ha
    exact validPayments_indexOne lowerHash_digits.1 lowerHash_digits.2 (by decide) (by decide)
  have hhash : lowerHash.toList.all (fun c => c.isUpper = false) = true := by decide
  have hcode : "USDC".toList.all (fun c => c.isLower = false) = true := by decide
  refine ((finds_own_iff asciiCases plainDatabase defaultSettings hvalid
    (run_indexOne lowerHash_digits.1 (by decide))).1 _ List.mem_cons_self rfl).mpr ?_
  exact ⟨fun c hc => of_decide_eq_true (List.all_eq_true.mp hhash c hc),
    fun c hc => of_decide_eq_true (List.all_eq_true.mp hcode c hc), by decide⟩

/-- A hash in upper case is stored and not found, and neither is an asset code in lower case. -/
theorem other_case_not_found :
    (ValidPayments (indexOne upperHash "USDC") ∧
      ∃ row, run (Repository.step defaultSettings) [] [indexOne upperHash "USDC"] = some [row] ∧
        ¬ FindsOwn asciiCases plainDatabase [row] row) ∧
    (ValidPayments (indexOne lowerHash "usdc") ∧
      ∃ row, run (Repository.step defaultSettings) [] [indexOne lowerHash "usdc"] = some [row] ∧
        ¬ FindsOwn asciiCases plainDatabase [row] row) := by
  have hparty : ∀ hash code, ∀ p : Party, p.address (indexedRow ⟨0, some 0⟩ (chainPayment hash code)) = "" ∨
      publicKeyPattern (p.address (indexedRow ⟨0, some 0⟩ (chainPayment hash code))) = true := by
    intro hash code p
    cases p with
    | sender => exact .inr (show publicKeyPattern (chainPayment "" "").fromAddress = true by decide)
    | receiver => exact .inr (show publicKeyPattern (chainPayment "" "").toAddress = true by decide)
  constructor
  · refine ⟨validPayments_indexOne upperHash_digits.1 upperHash_digits.2 (by decide) (by decide), _,
      run_indexOne upperHash_digits.1 (by decide), fun hfinds => ?_⟩
    have hcanonical := (findsOwn_iff_canonical List.mem_cons_self (hparty _ _)).mp hfinds
    exact absurd hcanonical.transactionHash (by decide)
  · refine ⟨validPayments_indexOne lowerHash_digits.1 lowerHash_digits.2 (by decide) (by decide), _,
      run_indexOne lowerHash_digits.1 (by decide), fun hfinds => ?_⟩
    have hcanonical := (findsOwn_iff_canonical List.mem_cons_self (hparty _ _)).mp hfinds
    exact absurd hcanonical.assetCode (by decide)

end ApexChainx.Payment.IndexSearch
