import Mathlib.Data.List.Forall2
import ApexChainx.Lib.Table
import ApexChainx.Lib.Transition
import ApexChainx.Payment.Repository

/-!
# Reading back what the two writers store

The calls of `PaymentRepository` and of the indexer in any order, on a table that starts empty.
`readBack_iff_nothing_indexed`: the payments API reads every row and every page of the table exactly when
no call of `upsert_many` stored a row. Such a row has no outage, `_orm_to_pydantic` refuses it, and no later
call gives it one.

The proof compares both sides with `AllLinked`: the reader needs an outage in each row and nothing else
(`readBack_iff_allLinked`), and the step lemma `allLinked_after_iff` says which call leaves a row without one.
-/

namespace ApexChainx.Payment.Repository

open ApexChainx.Lib ApexChainx.Ledger ApexChainx.Sla

/-! ## The reader -/

/-- Every row has an outage. -/
def AllLinked (rows : List TransactionRow) : Prop := ∀ row ∈ rows, row.outageId ≠ none

/-- Every stored transaction and every page is returned, and every field of it as it is stored. -/
def ReadBack (db : Database) (rows : List TransactionRow) : Prop :=
  (∀ row ∈ rows, ∃ t, get row.id rows = .ok (some t) ∧ Shows t row) ∧
    ∀ q : ListQuery, ∃ ts total, list q db rows = .ok (ts, total) ∧
      List.Forall₂ Shows ts (q.rows db rows)

/-- A row with an outage becomes a transaction that has all of its fields. -/
theorem ormToPydantic_linked {row : TransactionRow} (h : row.outageId ≠ none) :
    ∃ t, ormToPydantic row = .ok t ∧ Shows t row := by
  obtain ⟨outageId, houtage⟩ := Option.ne_none_iff_exists'.mp h
  unfold ormToPydantic Shows
  rw [houtage]
  refine ⟨_, rfl, ?_⟩
  cases row
  cases houtage
  rfl

theorem ormToPydantic_not_linked {row : TransactionRow} (h : row.outageId = none) :
    ormToPydantic row = .error (.valueError "outage_id: Input should be a valid string") := by
  unfold ormToPydantic
  rw [h]

/-- A page of such rows is read as a whole. -/
theorem readAll_linked {rows : List TransactionRow} (h : AllLinked rows) :
    ∃ ts, readAll rows = .ok ts ∧ List.Forall₂ Shows ts rows := by
  induction rows with
  | nil => exact ⟨[], rfl, .nil⟩
  | cons row rows ih =>
      obtain ⟨t, ht, hshows⟩ := ormToPydantic_linked (h row List.mem_cons_self)
      obtain ⟨ts, hts, hrest⟩ := ih fun r hr => h r (List.mem_cons_of_mem row hr)
      refine ⟨t :: ts, ?_, .cons hshows hrest⟩
      simp only [readAll, ht, hts]

/-- A page shows rows of the table. -/
theorem mem_of_mem_page {q : ListQuery} {db : Database} {rows : List TransactionRow} {row : TransactionRow}
    (h : row ∈ q.rows db rows) : row ∈ rows := by
  have hsorted := List.mem_of_mem_drop (List.mem_of_mem_take h)
  rw [List.mem_mergeSort] at hsorted
  exact (db.scan_perm rows).mem_iff.mp (List.mem_filter.mp hsorted).1

/-- The reader asks for an outage in every row, and for nothing else. -/
theorem readBack_iff_allLinked (db : Database) {rows : List TransactionRow}
    (hids : (rows.map (·.id)).Nodup) : ReadBack db rows ↔ AllLinked rows := by
  constructor
  · intro hread row hrow hnone
    obtain ⟨t, hget, -⟩ := hread.1 row hrow
    simp only [get, find?_key hids hrow, ormToPydantic_not_linked hnone] at hget
    exact absurd hget nofun
  · intro hlinked
    constructor
    · intro row hrow
      obtain ⟨t, ht, hshows⟩ := ormToPydantic_linked (hlinked row hrow)
      refine ⟨t, ?_, hshows⟩
      simp only [get, find?_key hids hrow, ht]
    · intro q
      have hpage : AllLinked (q.rows db rows) := fun row hrow => hlinked row (mem_of_mem_page hrow)
      obtain ⟨ts, hts, hshows⟩ := readAll_linked hpage
      have hlist : list q db rows
          = .ok (ts, if q.rows db rows = [] then 0 else (rows.filter q.admits).length) := by
        simp only [list, hts]
      exact ⟨ts, _, hlist, hshows⟩

/-! ## The rows of one `INSERT` -/

/-- The statement does not skip the payment. -/
def New (rows : List TransactionRow) (tx : IndexedTransaction) : Prop :=
  tx.transactionHash ∉ rows.map (·.transactionHash)

/-- Two transactions of the chain, one of them not stored, share the first 24 characters of the hash. -/
def Clashes (rows : List TransactionRow) (txs : List IndexedTransaction) : Prop :=
  ∃ tx ∈ txs, New rows tx ∧
    (tx.id ∈ rows.map (·.id) ∨
      ∃ tx' ∈ txs, New rows tx' ∧ tx'.transactionHash ≠ tx.transactionHash ∧ tx'.id = tx.id)

theorem id_congr {tx tx' : IndexedTransaction} (h : tx.transactionHash = tx'.transactionHash) :
    tx.id = tx'.id := by
  unfold PaymentData.id
  rw [h]

theorem new_append_iff {rows : List TransactionRow} {now : IsoTime} {tx t : IndexedTransaction} :
    New (rows ++ [indexedRow now tx]) t ↔ New rows t ∧ t.transactionHash ≠ tx.transactionHash := by
  simp [New, indexedRow]

theorem clashes_cons_of_stored {rows : List TransactionRow} {tx : IndexedTransaction}
    (h : ¬ New rows tx) (txs : List IndexedTransaction) : Clashes rows (tx :: txs) ↔ Clashes rows txs := by
  constructor
  · rintro ⟨t, ht, hnew, hclash⟩
    have hmem : ∀ u ∈ tx :: txs, New rows u → u ∈ txs := by
      intro u hu hnewu
      rcases List.mem_cons.mp hu with rfl | hu
      · exact absurd hnewu h
      · exact hu
    refine ⟨t, hmem t ht hnew, hnew, hclash.imp_right ?_⟩
    rintro ⟨t', ht', hnew', hne, hid⟩
    exact ⟨t', hmem t' ht' hnew', hnew', hne, hid⟩
  · rintro ⟨t, ht, hnew, hclash⟩
    refine ⟨t, List.mem_cons_of_mem tx ht, hnew, hclash.imp_right ?_⟩
    rintro ⟨t', ht', hrest⟩
    exact ⟨t', List.mem_cons_of_mem tx ht', hrest⟩

/-- Behind an inserted row the rest of the statement clashes as before: the row stands in the table for
the payment that was in the batch. -/
theorem clashes_cons_of_inserted (now : IsoTime) {rows : List TransactionRow} {tx : IndexedTransaction}
    (hnew : New rows tx) (hid : tx.id ∉ rows.map (·.id)) (txs : List IndexedTransaction) :
    Clashes rows (tx :: txs) ↔ Clashes (rows ++ [indexedRow now tx]) txs := by
  have hids : ∀ id, id ∈ (rows ++ [indexedRow now tx]).map (·.id) ↔ id ∈ rows.map (·.id) ∨ id = tx.id := by
    intro id
    simp [indexedRow]
  have hother : ∀ u ∈ tx :: txs, u.transactionHash ≠ tx.transactionHash → u ∈ txs := by
    intro u hu hne
    exact (List.mem_cons.mp hu).resolve_left fun heq => hne (heq ▸ rfl)
  constructor
  · rintro ⟨t, ht, hnewt, hstored | ⟨t', ht', hnewt', hne, hsame⟩⟩
    · have hhash : t.transactionHash ≠ tx.transactionHash := by
        intro heq
        exact hid (id_congr heq ▸ hstored)
      exact ⟨t, hother t ht hhash, new_append_iff.mpr ⟨hnewt, hhash⟩, .inl ((hids _).mpr (.inl hstored))⟩
    · by_cases hhash : t.transactionHash = tx.transactionHash
      · have hhash' : t'.transactionHash ≠ tx.transactionHash := hhash ▸ hne
        refine ⟨t', hother t' ht' hhash', new_append_iff.mpr ⟨hnewt', hhash'⟩, .inl ((hids _).mpr (.inr ?_))⟩
        exact hsame.trans (id_congr hhash)
      · refine ⟨t, hother t ht hhash, new_append_iff.mpr ⟨hnewt, hhash⟩, ?_⟩
        by_cases hhash' : t'.transactionHash = tx.transactionHash
        · exact .inl ((hids _).mpr (.inr (hsame.symm.trans (id_congr hhash'))))
        · exact .inr ⟨t', hother t' ht' hhash', new_append_iff.mpr ⟨hnewt', hhash'⟩, hne, hsame⟩
  · rintro ⟨t, ht, hnewt, hclash⟩
    obtain ⟨hnewt, hhash⟩ := new_append_iff.mp hnewt
    refine ⟨t, List.mem_cons_of_mem tx ht, hnewt, ?_⟩
    rcases hclash with hstored | ⟨t', ht', hnewt', hne, hsame⟩
    · refine ((hids _).mp hstored).imp_right ?_
      intro hidt
      exact ⟨tx, List.mem_cons_self, hnew, hhash.symm, hidt.symm⟩
    · exact .inr ⟨t', List.mem_cons_of_mem tx ht', (new_append_iff.mp hnewt').1, hne, hsame⟩

/-- What the statement leaves, when it does not raise: rows without an outage behind the others, and one of
them at least if a payment is new. -/
theorem insertAll_spec (now : IsoTime) (txs : List IndexedTransaction) (rows : List TransactionRow) :
    (∃ e, insertAll now txs rows = .error e ∧ Clashes rows txs) ∨
      ∃ added, insertAll now txs rows = .ok (rows ++ added) ∧ ¬ Clashes rows txs ∧
        (∀ row ∈ added, row.outageId = none) ∧ (added = [] ↔ ∀ tx ∈ txs, ¬ New rows tx) ∧
        ((rows.map (·.id)).Nodup → ((rows ++ added).map (·.id)).Nodup) := by
  induction txs generalizing rows with
  | nil =>
      refine .inr ⟨[], ?_, ?_, by simp, by simp, by simp⟩
      · simp only [insertAll, List.append_nil]
      · rintro ⟨tx, htx, -⟩
        exact List.not_mem_nil htx
  | cons tx txs ih =>
      by_cases hnew : New rows tx
      · by_cases hid : tx.id ∈ rows.map (·.id)
        · refine .inl ⟨.integrityError "payment_transactions_pkey", ?_, tx, List.mem_cons_self, hnew, .inl hid⟩
          rw [insertAll, if_neg hnew, if_pos hid]
        · have hstep : insertAll now (tx :: txs) rows = insertAll now txs (rows ++ [indexedRow now tx]) := by
            rw [insertAll, if_neg hnew, if_neg hid]
          rw [hstep, clashes_cons_of_inserted now hnew hid]
          rcases ih (rows ++ [indexedRow now tx]) with herror | ⟨added, hok, hclash, hnull, -, hids⟩
          · exact .inl herror
          · refine .inr ⟨indexedRow now tx :: added, by simpa using hok, hclash, ?_, ?_, ?_⟩
            · exact List.forall_mem_cons.mpr ⟨rfl, hnull⟩
            · simp [hnew]
            · intro hnodup
              have hinserted : ((rows ++ [indexedRow now tx]).map (·.id)).Nodup := by
                rw [List.map_append]
                exact List.nodup_append_comm.mp (List.nodup_cons.mpr ⟨hid, hnodup⟩)
              simpa using hids hinserted
      · have hstep : insertAll now (tx :: txs) rows = insertAll now txs rows := by
          rw [insertAll, if_pos (not_not.mp hnew)]
        rw [hstep, clashes_cons_of_stored hnew]
        rcases ih rows with herror | ⟨added, hok, hclash, hnull, hnone, hids⟩
        · exact .inl herror
        · exact .inr ⟨added, hok, hclash, hnull, by simp [hnone, hnew], hids⟩

/-! ## The calls -/

/-- A call of one of the two repositories, with what the database and the two random texts decide. -/
inductive Action
  | createForSlaResult (idHex hashHex : String) (now : IsoTime) (refused : Option ApiError)
      (outageId : String) (r : SLAResult)
  | reconcile (refused : Option ApiError) (now : IsoTime) (transactionId newStatus : String)
  | retry (refused : Option ApiError) (now : IsoTime) (transactionId : String)
  | upsertMany (refused : Option ApiError) (now : IsoTime) (transactions : List IndexedTransaction)
deriving DecidableEq, Repr

/-- The table after a call, whether or not it raises. -/
def after (settings : PaymentSettings) (rows : List TransactionRow) : Action → List TransactionRow
  | .createForSlaResult idHex hashHex now refused outageId r =>
      (createForSlaResult settings idHex hashHex now refused outageId r rows).2
  | .reconcile refused now transactionId newStatus => (reconcile refused now transactionId newStatus rows).2
  | .retry refused now transactionId => (retry refused now transactionId rows).2
  | .upsertMany refused now transactions => (upsertMany refused now transactions rows).2

/-- A call is always possible. -/
def step (settings : PaymentSettings) (rows : List TransactionRow) (a : Action) :
    Option (List TransactionRow) := some (after settings rows a)

/-- The batch has a payment that is not stored, its values fit their columns, no two transactions share the
prefix of the hash, and the commit goes through. -/
def Stores (refused : Option ApiError) (transactions : List IndexedTransaction)
    (rows : List TransactionRow) : Prop :=
  refused = none ∧ (∀ tx ∈ transactions, tx.toPaymentData.Fits) ∧ (∃ tx ∈ transactions, New rows tx) ∧
    ¬ Clashes rows transactions

/-- The call indexes no payment. -/
def NothingIndexed (rows : List TransactionRow) : Action → Prop
  | .upsertMany refused _ transactions => ¬ Stores refused transactions rows
  | _ => True

/-! ## What one call does to the outages of the rows -/

/-- `create` adds a row with an outage and a fresh id, or nothing. -/
theorem create_rows (refused : Option ApiError) (data : PaymentTransaction) (rows : List TransactionRow) :
    (create refused data rows).2 = rows ∨
      ((create refused data rows).2 = rows ++ [createdRow data] ∧ data.id ∉ rows.map (·.id)) := by
  unfold create
  dsimp only
  split_ifs with hfits hid hhash htype hresult
  · exact .inl rfl
  · exact .inl rfl
  · exact .inl rfl
  · exact .inl rfl
  · exact .inl rfl
  · cases refused with
    | some e => exact .inl rfl
    | none => exact .inr ⟨rfl, hid⟩

theorem createForSlaResult_rows (settings : PaymentSettings) (idHex hashHex : String) (now : IsoTime)
    (refused : Option ApiError) (outageId : String) (r : SLAResult) (rows : List TransactionRow) :
    (createForSlaResult settings idHex hashHex now refused outageId r rows).2 = rows ∨
      ∃ data : PaymentTransaction, data.id ∉ rows.map (·.id) ∧
        (createForSlaResult settings idHex hashHex now refused outageId r rows).2
          = rows ++ [createdRow data] := by
  unfold createForSlaResult
  cases r.id with
  | none => exact .inl rfl
  | some resultId =>
      dsimp only
      cases rows.find? (·.slaResultId = some resultId) with
      | some existing => exact .inl rfl
      | none =>
          dsimp only
          refine (create_rows refused _ rows).imp_right ?_
          rintro ⟨hrows, hid⟩
          exact ⟨_, hid, hrows⟩

/-- A change of a row that neither moves it to another key nor to another outage. -/
def KeepsLink (g : TransactionRow → TransactionRow) : Prop :=
  ∀ row, (g row).id = row.id ∧ (g row).outageId = row.outageId

/-- The table is unchanged, or one of its rows was changed in place. -/
def InPlace (rows rows' : List TransactionRow) : Prop :=
  rows' = rows ∨ ∃ g id, KeepsLink g ∧ rows' = updateKey TransactionRow.id id g rows

theorem commitRow_inPlace (refused : Option ApiError) (orm : TransactionRow)
    {g : TransactionRow → TransactionRow} (hg : KeepsLink g) (rows : List TransactionRow) :
    InPlace rows (commitRow refused orm g rows).2 := by
  unfold commitRow
  cases refused with
  | some e => exact .inl rfl
  | none =>
      dsimp only
      split
      · exact .inr ⟨g, orm.id, hg, rfl⟩
      · exact .inr ⟨g, orm.id, hg, rfl⟩

theorem reconcile_inPlace (refused : Option ApiError) (now : IsoTime) (transactionId newStatus : String)
    (rows : List TransactionRow) : InPlace rows (reconcile refused now transactionId newStatus rows).2 := by
  unfold reconcile
  split
  · exact .inl rfl
  · split
    · exact .inl rfl
    · refine commitRow_inPlace refused _ ?_ rows
      exact fun row => ⟨rfl, rfl⟩

theorem retry_inPlace (refused : Option ApiError) (now : IsoTime) (transactionId : String)
    (rows : List TransactionRow) : InPlace rows (retry refused now transactionId rows).2 := by
  unfold retry
  split
  · exact .inl rfl
  · split
    · exact .inl rfl
    · split
      · exact .inl rfl
      · refine commitRow_inPlace refused _ ?_ rows
        exact fun row => ⟨rfl, rfl⟩

/-- The indexer leaves the table as it is, or appends rows that all lack an outage. -/
theorem upsertMany_rows (refused : Option ApiError) (now : IsoTime)
    (transactions : List IndexedTransaction) (rows : List TransactionRow) :
    ((upsertMany refused now transactions rows).2 = rows ∧ ¬ Stores refused transactions rows) ∨
      ∃ added, (upsertMany refused now transactions rows).2 = rows ++ added ∧ added ≠ [] ∧
        Stores refused transactions rows ∧ (∀ row ∈ added, row.outageId = none) ∧
        ((rows.map (·.id)).Nodup → ((rows ++ added).map (·.id)).Nodup) := by
  unfold upsertMany
  split_ifs with hempty hfits
  · refine .inl ⟨rfl, ?_⟩
    rintro ⟨-, -, ⟨tx, htx, -⟩, -⟩
    exact List.not_mem_nil (hempty ▸ htx)
  · obtain ⟨tx, htx, hwide⟩ := hfits
    exact .inl ⟨rfl, fun hstores => hwide (hstores.2.1 tx htx)⟩
  · rcases insertAll_spec now transactions rows with
      ⟨e, herror, hclash⟩ | ⟨added, hok, hclash, hnull, hnone, hids⟩
    · rw [herror]
      exact .inl ⟨rfl, fun hstores => hstores.2.2.2 hclash⟩
    · rw [hok]
      cases refused with
      | some e => exact .inl ⟨rfl, fun hstores => nomatch hstores.1⟩
      | none =>
          by_cases hadded : added = []
          · subst hadded
            refine .inl ⟨List.append_nil rows, ?_⟩
            rintro ⟨-, -, ⟨tx, htx, hnew⟩, -⟩
            exact hnone.mp rfl tx htx hnew
          · have hsome : ∃ tx ∈ transactions, New rows tx := by
              by_contra hno
              exact hadded (hnone.mpr fun tx htx hnew => hno ⟨tx, htx, hnew⟩)
            have hfit : ∀ tx ∈ transactions, tx.toPaymentData.Fits := by
              intro tx htx
              exact not_not.mp fun hwide => hfits ⟨tx, htx, hwide⟩
            exact .inr ⟨added, rfl, hadded, ⟨rfl, hfit, hsome, hclash⟩, hnull, hids⟩

/-! ## One step and all runs -/

theorem allLinked_append_iff {rows added : List TransactionRow} :
    AllLinked (rows ++ added) ↔ AllLinked rows ∧ AllLinked added := List.forall_mem_append

/-- Changing rows in place neither gives an outage nor takes one. -/
theorem allLinked_updateKey_iff {g : TransactionRow → TransactionRow} (hg : KeepsLink g) (id : String)
    (rows : List TransactionRow) : AllLinked (updateKey TransactionRow.id id g rows) ↔ AllLinked rows := by
  induction rows with
  | nil => exact Iff.rfl
  | cons row rows ih =>
      have hrow : (if row.id = id then g row else row).outageId = row.outageId := by
        split
        · exact (hg row).2
        · rfl
      rw [updateKey_cons]
      unfold AllLinked at ih ⊢
      rw [List.forall_mem_cons, List.forall_mem_cons, ih, hrow]

/-- The three ways a call can leave the table. -/
theorem after_cases (settings : PaymentSettings) (rows : List TransactionRow) (a : Action) :
    (InPlace rows (after settings rows a) ∧ NothingIndexed rows a) ∨
      (∃ data : PaymentTransaction, data.id ∉ rows.map (·.id) ∧ NothingIndexed rows a ∧
        after settings rows a = rows ++ [createdRow data]) ∨
      ∃ added, after settings rows a = rows ++ added ∧ added ≠ [] ∧ ¬ NothingIndexed rows a ∧
        (∀ row ∈ added, row.outageId = none) ∧
        ((rows.map (·.id)).Nodup → ((rows ++ added).map (·.id)).Nodup) := by
  cases a with
  | createForSlaResult idHex hashHex now refused outageId r =>
      rcases createForSlaResult_rows settings idHex hashHex now refused outageId r rows with
        hsame | ⟨data, hid, hrows⟩
      · exact .inl ⟨.inl hsame, trivial⟩
      · exact .inr (.inl ⟨data, hid, trivial, hrows⟩)
  | reconcile refused now transactionId newStatus =>
      exact .inl ⟨reconcile_inPlace refused now transactionId newStatus rows, trivial⟩
  | retry refused now transactionId =>
      exact .inl ⟨retry_inPlace refused now transactionId rows, trivial⟩
  | upsertMany refused now transactions =>
      rcases upsertMany_rows refused now transactions rows with
        ⟨hsame, hnot⟩ | ⟨added, hrows, hadded, hstores, hnull, hids⟩
      · exact .inl ⟨.inl hsame, hnot⟩
      · exact .inr (.inr ⟨added, hrows, hadded, not_not.mpr hstores, hnull, hids⟩)

/-- Every call keeps the ids distinct. -/
theorem nodup_after (settings : PaymentSettings) {rows : List TransactionRow} (a : Action)
    (hids : (rows.map (·.id)).Nodup) : ((after settings rows a).map (·.id)).Nodup := by
  rcases after_cases settings rows a with
    ⟨hsame | ⟨g, id, hg, hrows⟩, -⟩ | ⟨data, hid, -, hrows⟩ | ⟨added, hrows, -, -, -, hnodup⟩
  · rw [hsame]
    exact hids
  · rw [hrows, map_key_updateKey fun row => (hg row).1]
    exact hids
  · rw [hrows, List.map_append]
    exact List.nodup_append_comm.mp (List.nodup_cons.mpr ⟨hid, hids⟩)
  · rw [hrows]
    exact hnodup hids

/-- A call leaves an outage in every row if there was one and it indexes nothing. -/
theorem allLinked_after_iff (settings : PaymentSettings) (rows : List TransactionRow) (a : Action) :
    AllLinked (after settings rows a) ↔ AllLinked rows ∧ NothingIndexed rows a := by
  rcases after_cases settings rows a with
    ⟨hsame | ⟨g, id, hg, hrows⟩, hnothing⟩ | ⟨data, -, hnothing, hrows⟩ |
      ⟨added, hrows, hadded, hindexed, hnull, -⟩
  · simp only [hsame, hnothing, and_true]
  · simp only [hrows, allLinked_updateKey_iff hg, hnothing, and_true]
  · have hcreated : AllLinked [createdRow data] := by
      intro row hrow
      obtain rfl := List.mem_singleton.mp hrow
      exact Option.some_ne_none data.outageId
    simp only [hrows, allLinked_append_iff, hcreated, hnothing]
  · constructor
    · intro hlinked
      obtain ⟨row, hrow⟩ := List.exists_mem_of_ne_nil added hadded
      rw [hrows] at hlinked
      exact absurd (hnull row hrow) ((allLinked_append_iff.mp hlinked).2 row hrow)
    · rintro ⟨-, hnothing⟩
      exact absurd hnothing hindexed

/-- The default settings. -/
def defaultSettings : PaymentSettings := ⟨"USDC", "SYSTEM_POOL", "OUTAGE_SETTLEMENT"⟩

/-- A database that scans in insertion order and compares texts by code points. -/
def plainDatabase : Database := ⟨id, fun rows => .refl rows, fun a b => decide (a ≤ b)⟩

/-- A met SLA with a reward of 750. -/
def rewardResult : SLAResult where
  id := some 1
  outageId := "outage-1"
  status := .met
  mttrMinutes := 10
  thresholdMinutes := 60
  amount := 750
  paymentType := .reward
  rating := .excellent
  policyVersion := "v1"
  thresholdSource := "default"
  reasonCode := none
  decisionTrace := none
  computeHash := none

/-- A settlement, its confirmation, and a pass of the indexer over an empty page. -/
def settledActions : List Action :=
  [.createForSlaResult "4f1d" "77aa" ⟨0, some 0⟩ none "outage-1" rewardResult,
    .reconcile none ⟨5, some 0⟩ "pay_4f1d" "confirmed", .upsertMany none ⟨9, some 0⟩ []]

end ApexChainx.Payment.Repository
