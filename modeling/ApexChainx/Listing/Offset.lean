import ApexChainx.Lib.OffsetPaging
import ApexChainx.Outages.Pagination
import ApexChainx.Payment.ReadBack
import ApexChainx.Wallets.Repository

/-!
# Pages by number

`PaymentRepository.list`, `OutageRepository.list` and `WalletRepository.list_wallets`, each asked for one
page after the other. The rows that an order leaves tied come as the database has them, in every query
anew: a query sees the rows of the table in an order of its own and sorts them stably.

The total is read off the first row of the page, so a page past the end reports none. `offsetPages_iff`
says for which pages and tables the three listings keep what offset paging promises (`OffsetPaged`).
-/

namespace ApexChainx.Listing

open ApexChainx.Lib ApexChainx.Lib.OffsetPaging

/-! ## The listing of wallets -/

open Wallets in
/-- `order_by(WalletORM.created_at.desc(), WalletORM.id.asc())`: `a` does not come after `b`. -/
def walletPrecedes (a b : WalletORM) : Prop :=
  b.createdAt < a.createdAt ∨ a.createdAt = b.createdAt ∧ a.id ≤ b.id

instance : DecidableRel walletPrecedes := fun _ _ => inferInstanceAs (Decidable (_ ∨ _))

/-- What `list_wallets` returns. -/
structure WalletPage where
  items : List Wallets.WalletORM
  total : Option ℕ
  page : ℕ
  pageSize : ℕ

open Wallets in
/-- `WalletRepository.list_wallets`. The total comes with the rows of the page, and is zero without any. -/
def listWallets (table : WalletTable) (page pageSize : ℕ) (includeTotal : Bool) : WalletPage :=
  let rows := table.rows.insertionSort walletPrecedes
  let items := (rows.drop ((page - 1) * pageSize)).take pageSize
  { items := items
    total := if includeTotal then some (if items = [] then 0 else rows.length) else none
    page := page
    pageSize := pageSize }

/-! ## What offset paging promises -/

/-- A listing is asked for page number `k + 1` in the circumstances `d`, and replies with the items of the
page and the total, or fails. Page number `k + 1` reports the number of matching rows; and the pages that
this number makes up have each matching row exactly once, whatever circumstances each of them meets. -/
structure OffsetPaged {δ τ ρ : Type} (reply : δ → ℕ → Outcome (List τ × Option ℕ)) (shows : τ → ρ → Prop)
    (matching : List ρ) (size k : ℕ) : Prop where
  total : ∀ d, ∃ items, reply d k = .ok (items, some matching.length)
  partition : ∀ d : ℕ → δ, ∃ content : ℕ → List τ,
    (∀ j < pageCount size matching.length, ∃ total, reply (d j) j = .ok (content j, total)) ∧
      ∃ rows, rows.Perm matching ∧
        List.Forall₂ shows ((List.range (pageCount size matching.length)).flatMap content) rows

/-- Page number `k + 1` has a row, or there is none to report. -/
def InRange (size total k : ℕ) : Prop := total = 0 ∨ k * size < total

instance (size total k : ℕ) : Decidable (InRange size total k) := inferInstanceAs (Decidable (_ ∨ _))

/-- The total that comes with a page is the number of rows when the page is in range. -/
theorem total_eq_iff {α : Type} [DecidableEq α] {size k : ℕ} (hsize : 1 ≤ size) (L : List α) :
    (if page size (k + 1) L = [] then 0 else L.length) = L.length ↔ InRange size L.length k := by
  have hnil := page_eq_nil_iff (p := k + 1) hsize (L := L)
  rw [Nat.add_sub_cancel] at hnil
  unfold InRange
  by_cases hpage : page size (k + 1) L = []
  · rw [if_pos hpage, eq_comm]
    have hle := hnil.mp hpage
    exact ⟨.inl, fun h => h.resolve_right (by omega)⟩
  · rw [if_neg hpage]
    exact iff_of_true rfl (.inr (Nat.lt_of_not_le fun hle => hpage (hnil.mpr hle)))

/-- A listing in a total order that always replies. The order leaves the database nothing to choose, so
only the total depends on the page. -/
theorem offsetPaged_iff_of_total {δ ρ : Type} [DecidableEq ρ] {matching L₀ : List ρ} {size : ℕ}
    (hsize : 1 ≤ size) (answer : δ → List ρ) (hanswer : ∀ d, answer d = L₀) (hL₀ : L₀.Perm matching)
    {reply : δ → ℕ → Outcome (List ρ × Option ℕ)} [Nonempty δ]
    (hreply : ∀ d k, reply d k = .ok (page size (k + 1) (answer d),
      some (if page size (k + 1) (answer d) = [] then 0 else (answer d).length))) (k : ℕ) :
    OffsetPaged reply (· = ·) matching size k ↔ InRange size matching.length k := by
  rw [← hL₀.length_eq, ← total_eq_iff hsize]
  constructor
  · intro h
    obtain ⟨d⟩ := ‹Nonempty δ›
    obtain ⟨items, hitems⟩ := h.total d
    rw [hreply, hanswer, Outcome.ok.injEq, Prod.mk.injEq, Option.some.injEq] at hitems
    rw [hitems.2, hL₀.length_eq]
  · intro h
    refine ⟨fun d => ⟨page size (k + 1) L₀, ?_⟩, fun d => ⟨fun j => page size (j + 1) L₀, ?_, L₀, hL₀, ?_⟩⟩
    · rw [hreply, hanswer, h, hL₀.length_eq]
    · intro j _
      exact ⟨_, by rw [hreply, hanswer]⟩
    · show List.Forall₂ (· = ·) (pages size (fun _ => L₀) (pageCount size matching.length)) L₀
      rw [← hL₀.length_eq, pages_pageCount hsize, List.forall₂_eq_eq_eq]

/-! ## Payments -/

section Payments

open Payment.Repository

/-- The query for page number `k + 1`. -/
def atPage (q : ListQuery) (k : ℕ) : ListQuery := { q with page := k + 1, page_pos := Nat.succ_pos k }

/-- A database that compares texts in one way; it may have the rows in any order. -/
structure Collates (collate : String → String → Bool) where
  db : Database
  collate_eq : db.collate = collate

/-- The rows in the order of the table. -/
def Collates.plain (collate : String → String → Bool) : Collates collate := ⟨⟨id, fun _ => .refl _, collate⟩, rfl⟩

/-- A listing of payments, with the number of rows of the page's first row. -/
def paymentReply (collate : String → String → Bool) (q : ListQuery) (rows : List TransactionRow)
    (db : Collates collate) (k : ℕ) : Outcome (List PaymentTransaction × Option ℕ) :=
  match Payment.Repository.list (atPage q k) db.db rows with
  | .error e => .error e
  | .ok (ts, total) => .ok (ts, some total)

/-- `order_by(order_clause)`: `a` does not come after `b`. The order has no second column. -/
def paymentBefore (collate : String → String → Bool) (q : ListQuery) (a b : TransactionRow) : Bool :=
  if q.sortDir = "asc" then ascending (Collates.plain collate).db q.sortBy a b
  else ascending (Collates.plain collate).db q.sortBy b a

/-- The payments that the filters select. -/
def matchingPayments (q : ListQuery) (rows : List TransactionRow) : List TransactionRow :=
  rows.filter q.admits

/-- No page boundary falls between two matching payments that the sort column ties. -/
def UntiedPages (collate : String → String → Bool) (q : ListQuery) (rows : List TransactionRow) : Prop :=
  ∀ k, 0 < k → k * q.pageSize < (matchingPayments q rows).length →
    Separated (fun a b => paymentBefore collate q a b = true)
      ((matchingPayments q rows).mergeSort (paymentBefore collate q)) (k * q.pageSize)

/-- The matching payments in the order that a database puts them in. -/
def arrangement {collate : String → String → Bool} (q : ListQuery) (rows : List TransactionRow)
    (db : Collates collate) : List TransactionRow :=
  ((db.db.scan rows).filter q.admits).mergeSort (paymentBefore collate q)

variable {collate : String → String → Bool} {q : ListQuery} {rows : List TransactionRow}

theorem rows_atPage (db : Collates collate) (k : ℕ) :
    (atPage q k).rows db.db rows = page q.pageSize (k + 1) (arrangement q rows db) := by
  obtain ⟨db, rfl⟩ := db
  rfl

theorem paymentReply_eq (db : Collates collate) (k : ℕ) :
    paymentReply collate q rows db k =
      match readAll (page q.pageSize (k + 1) (arrangement q rows db)) with
      | .error e => .error e
      | .ok ts => .ok (ts, some (if page q.pageSize (k + 1) (arrangement q rows db) = [] then 0
          else (matchingPayments q rows).length)) := by
  unfold paymentReply Payment.Repository.list
  rw [rows_atPage]
  cases readAll (page q.pageSize (k + 1) (arrangement q rows db)) <;> rfl

theorem shows_of_ormToPydantic {row : TransactionRow} {t : PaymentTransaction}
    (h : ormToPydantic row = .ok t) : Shows t row := by
  have hlinked : row.outageId ≠ none := by
    intro hnone
    rw [ormToPydantic_not_linked hnone] at h
    cases h
  obtain ⟨t', ht', hshows⟩ := ormToPydantic_linked hlinked
  rw [ht', Outcome.ok.injEq] at h
  rwa [← h]

theorem shows_of_readAll {shown : List TransactionRow} {ts : List PaymentTransaction}
    (h : readAll shown = .ok ts) : List.Forall₂ Shows ts shown := by
  induction shown generalizing ts with
  | nil =>
      obtain rfl := Outcome.ok.inj h
      exact .nil
  | cons row shown ih =>
      simp only [readAll] at h
      split at h
      · cases h
      · rename_i t ht
        split at h
        · cases h
        · rename_i ts' hts'
          obtain rfl := Outcome.ok.inj h
          exact .cons (shows_of_ormToPydantic ht) (ih hts')

theorem allLinked_of_shows {ts : List PaymentTransaction} {shown : List TransactionRow}
    (h : List.Forall₂ Shows ts shown) : AllLinked shown := by
  induction h with
  | nil => exact fun row hrow => absurd hrow List.not_mem_nil
  | @cons t row ts shown hrow _ ih =>
      intro r hr
      rcases List.mem_cons.mp hr with rfl | hr
      · rw [hrow]
        exact Option.some_ne_none _
      · exact ih r hr

/-- A transaction shows one row. -/
theorem shown_unique {ts : List PaymentTransaction} {shown shown' : List TransactionRow}
    (h : List.Forall₂ Shows ts shown) (h' : List.Forall₂ Shows ts shown') : shown = shown' := by
  induction h generalizing shown' with
  | nil => exact (List.forall₂_nil_left_iff.mp h').symm
  | @cons t row ts shown hrow _ ih =>
      obtain ⟨row', rest, hrow', hrest, rfl⟩ := List.forall₂_cons_left_iff.mp h'
      rw [ih hrest, show row = row' from Eq.trans hrow (Eq.symm hrow')]

theorem forall₂_flatMap_range {τ ρ : Type} {shows : τ → ρ → Prop} {f : ℕ → List τ} {g : ℕ → List ρ} {n : ℕ}
    (h : ∀ j < n, List.Forall₂ shows (f j) (g j)) :
    List.Forall₂ shows ((List.range n).flatMap f) ((List.range n).flatMap g) := by
  induction n with
  | zero => exact .nil
  | succ n ih =>
      simp only [List.range_succ, List.flatMap_append, List.flatMap_singleton]
      exact List.rel_append (ih fun j hj => h j (Nat.lt_succ_of_lt hj)) (h n (Nat.lt_succ_self n))

section Collation

variable (htotal : ∀ a b, collate a b = true ∨ collate b a = true)
  (htrans : ∀ a b c, collate a b = true → collate b c = true → collate a c = true)

include htotal in
theorem ascending_total (db : Database) (hdb : db.collate = collate) (sortBy : String)
    (a b : TransactionRow) : ascending db sortBy a b = true ∨ ascending db sortBy b a = true := by
  unfold ascending
  rw [hdb]
  split_ifs
  · simp only [decide_eq_true_eq]
    exact le_total _ _
  · exact htotal _ _
  · simp only [decide_eq_true_eq]
    exact le_total _ _

include htrans in
theorem ascending_trans (db : Database) (hdb : db.collate = collate) (sortBy : String)
    {a b c : TransactionRow} (hab : ascending db sortBy a b = true) (hbc : ascending db sortBy b c = true) :
    ascending db sortBy a c = true := by
  unfold ascending at hab hbc ⊢
  rw [hdb] at hab hbc ⊢
  split_ifs at hab hbc ⊢
  · simp only [decide_eq_true_eq] at hab hbc ⊢
    exact le_trans hab hbc
  · exact htrans _ _ _ hab hbc
  · simp only [decide_eq_true_eq] at hab hbc ⊢
    exact le_trans hab hbc

include htotal in
theorem paymentBefore_total (a b : TransactionRow) :
    paymentBefore collate q a b = true ∨ paymentBefore collate q b a = true := by
  unfold paymentBefore
  split_ifs
  · exact ascending_total htotal _ rfl q.sortBy a b
  · exact ascending_total htotal _ rfl q.sortBy b a

include htrans in
theorem paymentBefore_trans (a b c : TransactionRow) (hab : paymentBefore collate q a b = true)
    (hbc : paymentBefore collate q b c = true) : paymentBefore collate q a c = true := by
  unfold paymentBefore at hab hbc ⊢
  split_ifs at hab hbc ⊢
  · exact ascending_trans htrans _ rfl q.sortBy hab hbc
  · exact ascending_trans htrans _ rfl q.sortBy hbc hab

include htotal htrans

theorem answers_mergeSort {L : List TransactionRow} (hL : L.Perm (matchingPayments q rows)) :
    Answers (fun a b => paymentBefore collate q a b = true) (matchingPayments q rows)
      (L.mergeSort (paymentBefore collate q)) where
  perm := (List.mergeSort_perm _ _).trans hL
  sorted := by
    apply List.pairwise_mergeSort
    · exact paymentBefore_trans htrans
    · intro a b
      rw [Bool.or_eq_true]
      exact paymentBefore_total htotal a b

theorem answers_arrangement (db : Collates collate) :
    Answers (fun a b => paymentBefore collate q a b = true) (matchingPayments q rows)
      (arrangement q rows db) :=
  answers_mergeSort htotal htrans ((db.db.scan_perm rows).filter q.admits)

omit htotal htrans in
/-- Every order that the sort column allows is one that some database has. -/
theorem exists_arrangement {L : List TransactionRow}
    (hL : Answers (fun a b => paymentBefore collate q a b = true) (matchingPayments q rows) L) :
    ∃ db : Collates collate, arrangement q rows db = L := by
  have hscan : (L ++ rows.filter fun row => !q.admits row).Perm rows :=
    (hL.perm.append_right _).trans (List.filter_append_perm q.admits rows)
  refine ⟨⟨⟨fun r => if r = rows then L ++ rows.filter fun row => !q.admits row else r, ?_, collate⟩, rfl⟩, ?_⟩
  · intro r
    split_ifs with h
    · rw [h]
      exact hscan
    · exact .refl r
  · have hfilter : (L ++ rows.filter fun row => !q.admits row).filter q.admits = L := by
      have hself : L.filter q.admits = L := by
        rw [List.filter_eq_self]
        intro row hrow
        exact (List.mem_filter.mp (hL.perm.mem_iff.mp hrow)).2
      have hnone : (rows.filter fun row => !q.admits row).filter q.admits = [] := by
        rw [List.filter_filter, List.filter_eq_nil_iff]
        simp
      rw [List.filter_append, hself, hnone, List.append_nil]
    simp only [arrangement, if_true, hfilter]
    exact List.mergeSort_of_pairwise hL.sorted

omit htotal htrans in
/-- The pages of a listing that reports its matching rows are the pages of the arrangements. -/
theorem pages_arrangement_perm {d : ℕ → Collates collate} {content : ℕ → List PaymentTransaction} {n : ℕ}
    (hreply : ∀ j < n, ∃ total, paymentReply collate q rows (d j) j = .ok (content j, total))
    {shown : List TransactionRow} (hshown : shown.Perm (matchingPayments q rows))
    (hshows : List.Forall₂ Shows ((List.range n).flatMap content) shown) :
    (pages q.pageSize (fun p => arrangement q rows (d (p - 1))) n).Perm (matchingPayments q rows) := by
  have hpages : List.Forall₂ Shows ((List.range n).flatMap content)
      (pages q.pageSize (fun p => arrangement q rows (d (p - 1))) n) := by
    apply forall₂_flatMap_range
    intro j hj
    obtain ⟨total, hok⟩ := hreply j hj
    rw [paymentReply_eq] at hok
    split at hok
    · cases hok
    · rename_i ts hts
      obtain ⟨rfl, -⟩ := Prod.mk.inj (Outcome.ok.inj hok)
      exact shows_of_readAll hts
  rw [shown_unique hpages hshows]
  exact hshown

/-- The listing of payments keeps its promise for page number `k + 1` exactly when every matching payment
can be read back, no page boundary falls between tied payments, and the page is in range. -/
theorem offsetPaged_payments_iff (hsize : 1 ≤ q.pageSize) (hids : (rows.map (·.id)).Nodup) (k : ℕ) :
    OffsetPaged (paymentReply collate q rows) Shows (matchingPayments q rows) q.pageSize k ↔
      AllLinked (matchingPayments q rows) ∧ UntiedPages collate q rows ∧
        InRange q.pageSize (matchingPayments q rows).length k := by
  have hnodup : (matchingPayments q rows).Nodup := (List.Nodup.of_map _ hids).filter _
  have hanswers := @answers_arrangement _ q rows htotal htrans
  have huntied := pages_perm_iff (paymentBefore_total htotal) (paymentBefore_trans htrans) hsize hnodup
    (answers_mergeSort htotal htrans (.refl (matchingPayments q rows)))
  have hlength : ∀ db : Collates collate,
      (arrangement q rows db).length = (matchingPayments q rows).length := fun db => (hanswers db).perm.length_eq
  constructor
  · intro h
    have hlinked : AllLinked (matchingPayments q rows) := by
      intro row hrow
      obtain ⟨content, -, shown, hshown, hshows⟩ := h.partition fun _ => .plain collate
      exact allLinked_of_shows hshows row (hshown.mem_iff.mpr hrow)
    refine ⟨hlinked, ?_, ?_⟩
    · apply huntied.mp
      intro answer hanswer
      -- every answer is that of some database, and each page may come from another one
      choose d hd using fun j => exists_arrangement (hanswer (j + 1))
      obtain ⟨content, hreply, shown, hshown, hshows⟩ := h.partition d
      have hperm := pages_arrangement_perm hreply hshown hshows
      simpa only [pages, Nat.add_sub_cancel, hd] using hperm
    · obtain ⟨items, hitems⟩ := h.total (.plain collate)
      rw [paymentReply_eq] at hitems
      split at hitems
      · cases hitems
      · have htot := (Prod.mk.inj (Outcome.ok.inj hitems)).2
        rw [Option.some.injEq, ← hlength (.plain collate), total_eq_iff hsize] at htot
        rwa [hlength] at htot
  · rintro ⟨hlinked, hties, hrange⟩
    -- every page can be read, whichever database it comes from
    have hread : ∀ (db : Collates collate) j, ∃ ts,
        readAll (page q.pageSize (j + 1) (arrangement q rows db)) = .ok ts ∧
          List.Forall₂ Shows ts (page q.pageSize (j + 1) (arrangement q rows db)) := by
      intro db j
      apply readAll_linked
      intro row hrow
      have hmem := List.mem_of_mem_drop (List.mem_of_mem_take hrow)
      exact hlinked row ((hanswers db).perm.mem_iff.mp hmem)
    refine ⟨fun db => ?_, fun d => ?_⟩
    · obtain ⟨ts, hts, -⟩ := hread db k
      refine ⟨ts, ?_⟩
      rw [paymentReply_eq, hts]
      have htot := (total_eq_iff hsize (arrangement q rows db)).mpr (by rw [hlength]; exact hrange)
      rw [hlength] at htot
      simp only [htot]
    · choose content hcontent hshows using fun j => hread (d j) j
      refine ⟨content, fun j _ => ⟨_, by rw [paymentReply_eq, hcontent j]⟩, _, ?_,
        forall₂_flatMap_range fun j _ => hshows j⟩
      exact huntied.mpr hties (fun p => arrangement q rows (d (p - 1))) fun p => hanswers (d (p - 1))

end Collation

end Payments

/-! ## Outages and wallets -/

section Outages

open Outages

variable {κ : Type} [LinearOrder κ] (db : Database κ) (filter : OutageFilter)
  (sortBy : OutageSortField) (direction : OutageSortDirection)

/-- A listing of outages by number, with the rows of the table in the order of `table`. -/
def outageReply (size : ℕ) (rows : List OutageRow) (table : { t : OutageTable // t.rows.Perm rows }) (k : ℕ) :
    Outcome (List OutageRow × Option ℕ) :=
  let result := Outages.list db table.val filter (k + 1) size sortBy direction true
  .ok (result.items, result.total)

/-- The order by the sort column and the id leaves no ties. -/
theorem orderedRows_perm {t table : OutageTable} (h : t.rows.Perm table.rows) (selects : OutageRow → Bool) :
    orderedRows db t selects sortBy direction = orderedRows db table selects sortBy direction := by
  have hperm : (orderedRows db t selects sortBy direction).Perm
      (orderedRows db table selects sortBy direction) :=
    (List.perm_insertionSort _ _).trans ((h.filter selects).trans (List.perm_insertionSort _ _).symm)
  refine hperm.eq_of_pairwise ?_ (pairwise_orderedRows _) (pairwise_orderedRows _)
  intro a b ha hb hab hba
  have ha' := (mem_orderedRows.mp (hperm.mem_iff.mp ha)).1
  exact table.eq_of_id_eq ha' (mem_orderedRows.mp hb).1 (id_eq_of_precedes hab hba)

theorem offsetPaged_outages_iff {size : ℕ} (hsize : 1 ≤ size) (table : OutageTable) (k : ℕ) :
    OffsetPaged (outageReply db filter sortBy direction size table.rows) (· = ·)
        (table.rows.filter (filter.matches db)) size k ↔
      InRange size (table.rows.filter (filter.matches db)).length k := by
  have : Nonempty { t : OutageTable // t.rows.Perm table.rows } := ⟨table, .refl _⟩
  exact offsetPaged_iff_of_total hsize
    (fun t : { t : OutageTable // t.rows.Perm table.rows } => orderedRows db t.val (filter.matches db) sortBy direction)
    (fun t => orderedRows_perm db sortBy direction t.property _) (List.perm_insertionSort _ _)
    (fun _ _ => rfl) k

end Outages

section Wallets

open Wallets

/-- A listing of wallets by number, with the rows of the table in the order of `table`. -/
def walletReply (size : ℕ) (rows : List WalletORM) (table : { t : WalletTable // t.rows.Perm rows }) (k : ℕ) :
    Outcome (List WalletORM × Option ℕ) :=
  let result := listWallets table.val (k + 1) size true
  .ok (result.items, result.total)

theorem walletPrecedes_total (a b : WalletORM) : walletPrecedes a b ∨ walletPrecedes b a := by
  unfold walletPrecedes
  omega

theorem walletPrecedes_trans (a b c : WalletORM) (hab : walletPrecedes a b) (hbc : walletPrecedes b c) :
    walletPrecedes a c := by
  unfold walletPrecedes at hab hbc ⊢
  omega

instance : Std.Total walletPrecedes := ⟨walletPrecedes_total⟩

instance : IsTrans WalletORM walletPrecedes := ⟨walletPrecedes_trans⟩

/-- The order by time and id leaves no ties. -/
theorem sortedWallets_perm {rows rows' : List WalletORM} (hids : (rows.map (·.id)).Nodup)
    (h : rows'.Perm rows) : rows'.insertionSort walletPrecedes = rows.insertionSort walletPrecedes := by
  have hperm : (rows'.insertionSort walletPrecedes).Perm (rows.insertionSort walletPrecedes) :=
    (List.perm_insertionSort _ _).trans (h.trans (List.perm_insertionSort _ _).symm)
  refine hperm.eq_of_pairwise ?_ (List.pairwise_insertionSort _ _) (List.pairwise_insertionSort _ _)
  intro a b ha hb hab hba
  rw [List.mem_insertionSort] at ha hb
  refine List.inj_on_of_nodup_map hids (h.mem_iff.mp ha) hb ?_
  unfold walletPrecedes at hab hba
  omega

theorem offsetPaged_wallets_iff {size : ℕ} (hsize : 1 ≤ size) (table : WalletTable)
    (hids : (table.rows.map (·.id)).Nodup) (k : ℕ) :
    OffsetPaged (walletReply size table.rows) (· = ·) table.rows size k ↔
      InRange size table.rows.length k := by
  have : Nonempty { t : WalletTable // t.rows.Perm table.rows } := ⟨table, .refl _⟩
  exact offsetPaged_iff_of_total hsize
    (fun t : { t : WalletTable // t.rows.Perm table.rows } => t.val.rows.insertionSort walletPrecedes)
    (fun t => sortedWallets_perm hids t.property) (List.perm_insertionSort _ _) (fun _ _ => rfl) k

end Wallets

/-! ## The three listings -/

/-- The beginning of 2026. -/
def newYear : ℤ := 739617 * 86400000000

open Payment.Repository in
/-- A failed payment of an outage. -/
def failedPayment (id outageId : String) : TransactionRow where
  id := id
  transactionHash := "simulated-" ++ id
  type := "reward"
  amount := 150
  assetCode := "USDC"
  fromAddress := "SYSTEM_POOL"
  toAddress := "OUTAGE_SETTLEMENT"
  status := "failed"
  outageId := some outageId
  slaResultId := none
  createdAt := ⟨newYear, some 0⟩
  confirmedAt := none
  retryCount := 0
  lastRetriedAt := none

open Payment.Repository in
/-- The query of the endpoint without parameters, in pages of one. -/
def byTime : ListQuery where
  page := 1
  pageSize := 1
  page_pos := Nat.one_pos
  status := none
  outageId := none
  type := none
  dateFrom := none
  dateTo := none
  sortBy := "created_at"
  sortDir := "desc"

/-- Texts compared by their characters. -/
def plainCollate (a b : String) : Bool := decide (a ≤ b)

/-- A wallet. -/
def sampleWallet : Wallets.WalletORM := ⟨1, "user-1", "GABC", false, true, false, 0, 0, none⟩

theorem plainCollate_total (a b : String) : plainCollate a b = true ∨ plainCollate b a = true := by
  simpa [plainCollate] using le_total a b

theorem plainCollate_trans (a b c : String) (hab : plainCollate a b = true) (hbc : plainCollate b c = true) :
    plainCollate a c = true := by
  apply decide_eq_true
  exact le_trans (of_decide_eq_true hab) (of_decide_eq_true hbc)

open Payment.Repository in
/-- Three payments, the latest first. -/
def paymentsInTurn : List TransactionRow :=
  [{ failedPayment "pay_3" "OUT-3" with createdAt := ⟨newYear + 7200000000, some 0⟩ },
   { failedPayment "pay_2" "OUT-2" with createdAt := ⟨newYear + 3600000000, some 0⟩ },
   failedPayment "pay_1" "OUT-1"]

def threeWallets : List Wallets.WalletORM :=
  [sampleWallet, { sampleWallet with id := 2 }, { sampleWallet with id := 3 }]

open Payment.Repository in
/-- Two payments made at one time. -/
def tiedPayments : List TransactionRow := [failedPayment "pay_1" "OUT-1", failedPayment "pay_2" "OUT-2"]

/-- The rows from the last to the first. -/
def backwards : Collates plainCollate :=
  ⟨⟨List.reverse, fun rows => List.reverse_perm rows, plainCollate⟩, rfl⟩

theorem arrangement_plain : arrangement byTime tiedPayments (.plain plainCollate) = tiedPayments := by
  apply List.mergeSort_of_pairwise
  decide

theorem arrangement_backwards : arrangement byTime tiedPayments backwards = tiedPayments.reverse := by
  apply List.mergeSort_of_pairwise
  decide

open Payment.Repository in
/-- What the first of the two payments is returned as. -/
def firstTransaction : PaymentTransaction where
  id := "pay_1"
  transactionHash := "simulated-pay_1"
  type := "reward"
  amount := 150
  assetCode := "USDC"
  fromAddress := "SYSTEM_POOL"
  toAddress := "OUTAGE_SETTLEMENT"
  status := "failed"
  outageId := "OUT-1"
  slaResultId := none
  createdAt := ⟨newYear, some 0⟩
  confirmedAt := none
  retryCount := 0
  lastRetriedAt := none

end ApexChainx.Listing
