import ApexChainx.Core.Timedelta
import ApexChainx.Lib.KeysetPaging
import ApexChainx.Listing.Offset
import ApexChainx.Sla.Snapshot

/-!
# The retry queue

`list_retry_queue` (`app/api/v1/endpoints/payments.py`): the failed payments, newest first, with a cursor.
The endpoint asks `PaymentRepository.list` for its default page and pages through that in memory. The
cursor is compared as text, the time of creation first and then the id.

The order of the query leaves payments of one time tied, and every request is a query of its own;
`retryQueue_complete_iff` says for which tables the pages that follow each other by their cursors have every
failed payment exactly once, whatever the database makes of the ties.
-/

namespace ApexChainx.Listing

open ApexChainx.Lib ApexChainx.Lib.OffsetPaging ApexChainx.Lib.KeysetPaging ApexChainx.Payment
  ApexChainx.Payment.Repository

/-! ## Texts of times -/

/-- The offset that `isoformat` prints: hours and minutes, then seconds and microseconds if there are any. -/
def offsetChars (offset : ℤ) : List Char :=
  let n := offset.natAbs
  (if offset < 0 then '-' else '+') :: (padded 2 (n / 3600000000) ++ ':' ::
    (padded 2 (n / 60000000 % 60) ++ if n % 60000000 = 0 then []
      else ':' :: (padded 2 (n / 1000000 % 60) ++ DateTime.fraction (n % 1000000))))

/-- `datetime.isoformat` of a local time with its offset; no `datetime` lies outside the years 1 to 9999. -/
def isoText (t : IsoTime) : String :=
  match DateTime.ofTicks t.wall with
  | none => ""
  | some d => String.ofList (Sla.naiveIsoChars d ++ (t.utcoffset.map offsetChars).getD [])

/-- The end of year 9999. -/
def endOfTime : ℤ := (DateTime.daysBeforeYear 10000 + 1) * 86400000000

/-- `datetime.now(UTC)`, in the years of which the last hour is not reached. -/
structure Clock where
  now : IsoTime
  early : now.wall + 3600000000 < endOfTime

/-! ## The endpoint -/

/-- `PaymentRetryQueueItem`; the amount, a `float` there, is the stored integer. -/
structure PaymentRetryQueueItem where
  id : String
  transactionHash : String
  type : String
  amount : ℤ
  status : String
  outageId : String
  attemptCount : ℕ
  nextRetryAt : Option IsoTime
  backoffSeconds : ℕ
  createdAt : IsoTime
  lastRetriedAt : Option IsoTime
deriving DecidableEq, Repr

/-- `min(_RETRY_BASE_SECONDS * (2**retry_count), _RETRY_MAX_SECONDS)`. -/
def retryBackoff (retryCount : ℕ) : ℕ := min (30 * 2 ^ retryCount) 3600

/-- `_compute_next_retry_at`. -/
def computeNextRetryAt (clock : Clock) (retryCount : ℕ) (lastRetriedAt : Option IsoTime) :
    Outcome (Option IsoTime) :=
  if maxRetries ≤ retryCount then .ok none
  else
    let anchor := lastRetriedAt.getD clock.now
    let wall := anchor.wall + retryBackoff retryCount * 1000000
    if wall < endOfTime then .ok (some ⟨wall, anchor.utcoffset⟩)
    else .error (.overflowError "date value out of range")

/-- The item of a payment. -/
def queueItem (clock : Clock) (p : PaymentTransaction) : Outcome PaymentRetryQueueItem :=
  match computeNextRetryAt clock p.retryCount p.lastRetriedAt with
  | .error e => .error e
  | .ok nextRetryAt =>
      .ok
        { id := p.id
          transactionHash := p.transactionHash
          type := p.type
          amount := p.amount
          status := p.status
          outageId := p.outageId
          attemptCount := p.retryCount
          nextRetryAt := nextRetryAt
          backoffSeconds := retryBackoff p.retryCount
          createdAt := p.createdAt
          lastRetriedAt := p.lastRetriedAt }

/-- The items of a page, unless one of them raises. -/
def queueItems (clock : Clock) : List PaymentTransaction → Outcome (List PaymentRetryQueueItem)
  | [] => .ok []
  | p :: ps =>
      match queueItem clock p with
      | .error e => .error e
      | .ok item =>
          match queueItems clock ps with
          | .error e => .error e
          | .ok items => .ok (item :: items)

/-- Texts are compared by their characters. -/
def textBelow (a b : String) : Bool := decide (a.toList < b.toList)

/-- The same with a string that is no text. -/
def codesBelow (a : String) (codePoints : List ℕ) : Bool := decide (a.toList.map Char.toNat < codePoints)

/-- `(p.created_at.isoformat(), p.id) < (cursor_created_at_str, cursor_id)`; a text can be compared with
strings only. -/
def belowCursor (cursorId cursorCreatedAt : JsonValue) (p : PaymentTransaction) : Outcome Bool :=
  match cursorCreatedAt with
  | .str text =>
      if isoText p.createdAt = text then
        match cursorId with
        | .str id => .ok (textBelow p.id id)
        | .halfStr codePoints => .ok (codesBelow p.id codePoints)
        | _ => .error (.typeError "'<' not supported between instances")
      else .ok (textBelow (isoText p.createdAt) text)
  | .halfStr codePoints => .ok (codesBelow (isoText p.createdAt) codePoints)
  | _ => .error (.typeError "'<' not supported between instances")

/-- The payments below the cursor. -/
def selectBelow (cursor : JsonValue × JsonValue) : List PaymentTransaction → Outcome (List PaymentTransaction)
  | [] => .ok []
  | p :: ps =>
      match belowCursor cursor.1 cursor.2 p with
      | .error e => .error e
      | .ok below =>
          match selectBelow cursor ps with
          | .error e => .error e
          | .ok selected => .ok (if below then p :: selected else selected)

/-- `if decoded is not None`. -/
def selectDecoded : Option (JsonValue × JsonValue) → List PaymentTransaction →
    Outcome (List PaymentTransaction)
  | none, items => .ok items
  | some cursor, items => selectBelow cursor items

/-- `CursorPage`. -/
structure QueuePage where
  items : List PaymentRetryQueueItem
  nextCursor : Option String
  hasMore : Bool

/-- `repo.list(status="failed")`: everything else has its default. -/
def failedQuery : ListQuery where
  page := 1
  pageSize := 20
  page_pos := Nat.one_pos
  status := some PaymentStatus.failed.value
  outageId := none
  type := none
  dateFrom := none
  dateTo := none
  sortBy := "created_at"
  sortDir := "desc"

/-- `list_retry_queue`. -/
def listRetryQueue (db : Database) (clock : Clock) (rows : List TransactionRow) (cursor : Option String)
    (limit : ℕ) : Outcome QueuePage :=
  match Payment.Repository.list failedQuery db rows with
  | .error e => .error e
  | .ok (items, _) =>
      match Outages.decodeCursor cursor with
      | .error e => .error e
      | .ok decoded =>
          match selectDecoded decoded items with
          | .error e => .error e
          | .ok items =>
              match queueItems clock (items.take limit) with
              | .error e => .error e
              | .ok result =>
                  let hasMore := limit < items.length
                  .ok
                    { items := result
                      nextCursor :=
                        if hasMore then result.getLast?.map fun last =>
                          Outages.encodeCursor last.id (isoText last.createdAt)
                        else none
                      hasMore := hasMore }

/-- The pages that follow each other by their cursors, from request number `i` on; `none` when a request
fails or `fuel` requests are not enough. Each request has its own clock and its own order of the rows. -/
def followQueue (dbs : ℕ → Database) (clocks : ℕ → Clock) (rows : List TransactionRow) (limit : ℕ) :
    ℕ → ℕ → Option String → Option (List (List PaymentRetryQueueItem))
  | 0, _, _ => none
  | fuel + 1, i, cursor =>
      match listRetryQueue (dbs i) (clocks i) rows cursor limit with
      | .error _ => none
      | .ok page =>
          if page.hasMore then
            (followQueue dbs clocks rows limit fuel (i + 1) page.nextCursor).map (page.items :: ·)
          else some [page.items]

/-! ## One request -/

/-- The failed payments of a table. -/
def failedRows (rows : List TransactionRow) : List TransactionRow := rows.filter failedQuery.admits

/-- `a` is no older than `b`. -/
def noOlder (a b : TransactionRow) : Prop := b.createdAt.ticks ≤ a.createdAt.ticks

/-- The cursor behind a payment. -/
def rowCursor (row : TransactionRow) : String := Outages.encodeCursor row.id (isoText row.createdAt)

/-- The payment is below the cursor behind `c`. -/
def belowRow (c row : TransactionRow) : Bool :=
  if isoText row.createdAt = isoText c.createdAt then textBelow row.id c.id
  else textBelow (isoText row.createdAt) (isoText c.createdAt)

/-- The failed payments in the order a database has them for a request. -/
def queueOrder (db : Database) (rows : List TransactionRow) : List TransactionRow :=
  arrangement failedQuery rows ⟨db, rfl⟩

/-- An item of a payment that was read back. -/
def ShowsItem (item : PaymentRetryQueueItem) (row : TransactionRow) : Prop :=
  ∃ t clock, Shows t row ∧ queueItem clock t = .ok item

/-- The payment has an outage, and its next retry is due before the end of time. -/
def Served (row : TransactionRow) : Prop :=
  row.outageId ≠ none ∧ (maxRetries ≤ row.retryCount ∨
    ∀ t ∈ row.lastRetriedAt, t.wall + retryBackoff row.retryCount * 1000000 < endOfTime)

theorem paymentBefore_failedQuery {collate : String → String → Bool} (a b : TransactionRow) :
    paymentBefore collate failedQuery a b = true ↔ noOlder a b := by
  simp [paymentBefore, failedQuery, ascending, noOlder]

theorem answers_noOlder_iff {collate : String → String → Bool} {S L : List TransactionRow} :
    Answers (fun a b => paymentBefore collate failedQuery a b = true) S L ↔ Answers noOlder S L := by
  have hbefore : (fun a b => paymentBefore collate failedQuery a b = true) = noOlder := by
    funext a b
    exact propext (paymentBefore_failedQuery a b)
  rw [hbefore]

theorem noOlder_total (a b : TransactionRow) : noOlder a b ∨ noOlder b a := le_total _ _

theorem noOlder_trans (a b c : TransactionRow) (hab : noOlder a b) (hbc : noOlder b c) : noOlder a c :=
  le_trans hbc hab

theorem answers_queueOrder (db : Database) (rows : List TransactionRow) :
    Answers noOlder (failedRows rows) (queueOrder db rows) where
  perm := (List.mergeSort_perm _ _).trans ((db.scan_perm rows).filter _)
  sorted := by
    have hsorted : (queueOrder db rows).Pairwise
        (fun a b => paymentBefore db.collate failedQuery a b = true) := by
      apply List.pairwise_mergeSort
      · intro a b c hab hbc
        rw [paymentBefore_failedQuery] at hab hbc ⊢
        exact noOlder_trans a b c hab hbc
      · intro a b
        rw [Bool.or_eq_true, paymentBefore_failedQuery, paymentBefore_failedQuery]
        exact noOlder_total a b
    exact hsorted.imp fun {a b} h => (paymentBefore_failedQuery a b).mp h

/-- What the endpoint sees of the queue. -/
theorem rows_failedQuery (db : Database) (rows : List TransactionRow) :
    failedQuery.rows db rows = (queueOrder db rows).take 20 := by
  have h : (atPage failedQuery 0).rows db rows = page 20 1 (queueOrder db rows) := rows_atPage ⟨db, rfl⟩ 0
  rw [show atPage failedQuery 0 = failedQuery from rfl] at h
  simpa [page] using h

theorem belowCursor_shows {t : PaymentTransaction} {row : TransactionRow} (h : Shows t row)
    (c : TransactionRow) :
    belowCursor (.str c.id) (.str (isoText c.createdAt)) t = .ok (belowRow c row) := by
  have hid : row.id = t.id := by rw [h]
  have htime : row.createdAt = t.createdAt := by rw [h]
  simp only [belowCursor, belowRow, hid, htime]
  split_ifs <;> rfl

/-- The cursor behind a payment selects among transactions what `belowRow` selects among their rows. -/
theorem selectBelow_shows {ts : List PaymentTransaction} {L : List TransactionRow}
    (h : List.Forall₂ Shows ts L) (c : TransactionRow) :
    ∃ selected, selectBelow (.str c.id, .str (isoText c.createdAt)) ts = .ok selected ∧
      List.Forall₂ Shows selected (L.filter (belowRow c)) := by
  induction h with
  | nil => exact ⟨[], rfl, .nil⟩
  | @cons t row ts L hrow _ ih =>
      obtain ⟨selected, hselected, hshows⟩ := ih
      refine ⟨if belowRow c row then t :: selected else selected, ?_, ?_⟩
      · simp only [selectBelow, belowCursor_shows hrow, hselected]
      · rw [List.filter_cons]
        split_ifs
        · exact .cons hrow hshows
        · exact hshows

theorem selectDecoded_shows {ts : List PaymentTransaction} {L : List TransactionRow}
    (h : List.Forall₂ Shows ts L) (boundary : Option TransactionRow) :
    ∃ decoded selected, Outages.decodeCursor (boundary.map rowCursor) = .ok decoded ∧
      selectDecoded decoded ts = .ok selected ∧
      List.Forall₂ Shows selected (selection belowRow L boundary) := by
  cases boundary with
  | none => exact ⟨none, ts, rfl, rfl, h⟩
  | some c =>
      obtain ⟨selected, hselected, hshows⟩ := selectBelow_shows h c
      exact ⟨_, selected, Outages.decodeCursor_encodeCursor _ _, hselected, hshows⟩

theorem queueItems_shows {clock : Clock} {ts : List PaymentTransaction} {L : List TransactionRow}
    {items : List PaymentRetryQueueItem} (h : List.Forall₂ Shows ts L)
    (hitems : queueItems clock ts = .ok items) : List.Forall₂ ShowsItem items L := by
  induction h generalizing items with
  | nil =>
      obtain rfl := Outcome.ok.inj hitems
      exact .nil
  | @cons t row ts L hrow _ ih =>
      simp only [queueItems] at hitems
      split at hitems
      · cases hitems
      · rename_i item hitem
        split at hitems
        · cases hitems
        · rename_i items' hitems'
          obtain rfl := Outcome.ok.inj hitems
          exact .cons ⟨t, clock, hrow, hitem⟩ (ih hitems')

/-- The next retry of a payment can be computed at every time, or at none. -/
theorem computeNextRetryAt_isOk (clock : Clock) (retryCount : ℕ) (lastRetriedAt : Option IsoTime) :
    (∃ next, computeNextRetryAt clock retryCount lastRetriedAt = .ok next) ↔
      maxRetries ≤ retryCount ∨
        ∀ t ∈ lastRetriedAt, t.wall + retryBackoff retryCount * 1000000 < endOfTime := by
  unfold computeNextRetryAt
  by_cases hmax : maxRetries ≤ retryCount
  · simp [hmax]
  · rw [if_neg hmax]
    have hearly := clock.early
    have hbackoff : retryBackoff retryCount ≤ 3600 := Nat.min_le_right _ _
    cases lastRetriedAt with
    | none =>
        have hlt : clock.now.wall + retryBackoff retryCount * 1000000 < endOfTime := by omega
        simp [hlt]
    | some t =>
        simp only [Option.getD_some]
        by_cases hlt : t.wall + retryBackoff retryCount * 1000000 < endOfTime
        · simp [hlt]
        · simp [hlt, hmax]

theorem served_of_showsItem {item : PaymentRetryQueueItem} {row : TransactionRow}
    (h : ShowsItem item row) : Served row := by
  obtain ⟨t, clock, hshows, hitem⟩ := h
  have hcount : row.retryCount = t.retryCount := by rw [hshows]
  have hlast : row.lastRetriedAt = t.lastRetriedAt := by rw [hshows]
  refine ⟨by rw [hshows]; exact Option.some_ne_none _, ?_⟩
  rw [hcount, hlast, ← computeNextRetryAt_isOk clock]
  unfold queueItem at hitem
  split at hitem
  · cases hitem
  · rename_i next hnext
    exact ⟨next, hnext⟩

theorem queueItems_served (clock : Clock) {ts : List PaymentTransaction} {L : List TransactionRow}
    (h : List.Forall₂ Shows ts L) (hserved : ∀ row ∈ L, Served row) : ∃ items, queueItems clock ts = .ok items := by
  induction h with
  | nil => exact ⟨[], rfl⟩
  | @cons t row ts L hrow _ ih =>
      obtain ⟨items, hitems⟩ := ih fun r hr => hserved r (List.mem_cons_of_mem row hr)
      have hcount : row.retryCount = t.retryCount := by rw [hrow]
      have hlast : row.lastRetriedAt = t.lastRetriedAt := by rw [hrow]
      have hdue := (hserved row List.mem_cons_self).2
      rw [hcount, hlast, ← computeNextRetryAt_isOk clock] at hdue
      obtain ⟨next, hnext⟩ := hdue
      simp only [queueItems, queueItem, hnext, hitems, Outcome.ok.injEq, exists_eq']

theorem cursors_eq {items : List PaymentRetryQueueItem} {L : List TransactionRow}
    (h : List.Forall₂ ShowsItem items L) :
    items.map (fun last => Outages.encodeCursor last.id (isoText last.createdAt)) = L.map rowCursor := by
  induction h with
  | nil => rfl
  | @cons item row items L hrow _ ih =>
      obtain ⟨t, clock, hshows, hitem⟩ := hrow
      have hfields : item.id = row.id ∧ item.createdAt = row.createdAt := by
        unfold queueItem at hitem
        split at hitem
        · cases hitem
        · obtain rfl := Outcome.ok.inj hitem
          rw [hshows]
          exact ⟨rfl, rfl⟩
      rw [List.map_cons, List.map_cons, ih, rowCursor, hfields.1, hfields.2]

/-- What a page says about the payments that its request selects. -/
structure PageOf (limit : ℕ) (page : QueuePage) (W : List TransactionRow) : Prop where
  items : List.Forall₂ ShowsItem page.items (W.take limit)
  hasMore : page.hasMore = decide (limit < W.length)
  nextCursor : limit < W.length → page.nextCursor = (W.take limit).getLast?.map rowCursor

/-- The cursor of a page that is not the last is that of its last payment. -/
theorem PageOf.exists_boundary {limit : ℕ} {page : QueuePage} {W : List TransactionRow} (hof : PageOf limit page W)
    (hlimit : 1 ≤ limit) (hlt : limit < W.length) :
    ∃ c, W[limit - 1]? = some c ∧ page.nextCursor = (some c).map rowCursor := by
  obtain ⟨c, hc⟩ : ∃ c, W[limit - 1]? = some c := ⟨_, List.getElem?_eq_getElem (by omega)⟩
  exact ⟨c, hc, by rw [hof.nextCursor hlt, getLast?_take hlimit hlt, hc]⟩

section Request

variable {db : Database} {clock : Clock} {rows : List TransactionRow} {limit : ℕ}

theorem list_failedQuery :
    Payment.Repository.list failedQuery db rows =
      match readAll ((queueOrder db rows).take 20) with
      | .error e => .error e
      | .ok ts => .ok (ts, if (queueOrder db rows).take 20 = [] then 0 else (failedRows rows).length) := by
  unfold Payment.Repository.list
  rw [rows_failedQuery]
  rfl

/-- A request that is answered shows the first payments it selects. -/
theorem pageOf_listRetryQueue {boundary : Option TransactionRow} {page : QueuePage}
    (h : listRetryQueue db clock rows (boundary.map rowCursor) limit = .ok page) :
    PageOf limit page (selection belowRow ((queueOrder db rows).take 20) boundary) := by
  unfold listRetryQueue at h
  rw [list_failedQuery] at h
  split at h
  · cases h
  · rename_i ts total hlist
    split at hlist
    · cases hlist
    · rename_i ts' hread
      obtain ⟨rfl, -⟩ := Prod.mk.inj (Outcome.ok.inj hlist)
      obtain ⟨decoded, selected, hdecoded, hselected, hshows⟩ :=
        selectDecoded_shows (shows_of_readAll hread) boundary
      simp only [hdecoded, hselected] at h
      split at h
      · cases h
      · rename_i items hitems
        obtain rfl := Outcome.ok.inj h
        have hlength : selected.length = (selection belowRow ((queueOrder db rows).take 20) boundary).length :=
          hshows.length_eq
        have hpage := queueItems_shows (List.forall₂_take limit hshows) hitems
        refine ⟨hpage, ?_, fun hlt => ?_⟩
        · simp only [hlength]
        · rw [← hlength] at hlt
          simp only [hlt, if_true]
          rw [← List.getLast?_map, cursors_eq hpage, List.getLast?_map]

variable (clock limit) in
/-- A request is answered when the payments it reads can be served. -/
theorem exists_page (hserved : ∀ row ∈ (queueOrder db rows).take 20, Served row)
    (boundary : Option TransactionRow) :
    ∃ page, listRetryQueue db clock rows (boundary.map rowCursor) limit = .ok page := by
  obtain ⟨ts, hread, hshows⟩ := readAll_linked fun row hrow => (hserved row hrow).1
  obtain ⟨decoded, selected, hdecoded, hselected, hshown⟩ := selectDecoded_shows hshows boundary
  have hmem : ∀ row ∈ (selection belowRow ((queueOrder db rows).take 20) boundary).take limit, Served row := by
    intro row hrow
    have hrow' := List.mem_of_mem_take hrow
    cases boundary with
    | none => exact hserved row hrow'
    | some c => exact hserved row (List.mem_filter.mp hrow').1
  obtain ⟨items, hitems⟩ := queueItems_served clock (List.forall₂_take limit hshown) hmem
  unfold listRetryQueue
  rw [list_failedQuery, hread]
  simp only [hdecoded, hselected, hitems]
  exact ⟨_, rfl⟩

end Request

/-! ## Following the cursors -/

/-- The payments that request number `i` reads. -/
def visible (dbs : ℕ → Database) (rows : List TransactionRow) (i : ℕ) : List TransactionRow :=
  (queueOrder (dbs i) rows).take 20

section Follow

variable {dbs : ℕ → Database} {clocks : ℕ → Clock} {rows : List TransactionRow} {limit : ℕ}

/-- The requests that are answered walk over what they read. -/
theorem walk_of_followQueue (hlimit : 1 ≤ limit) {fuel i : ℕ} (boundary : Option TransactionRow)
    {pages : List (List PaymentRetryQueueItem)}
    (h : followQueue dbs clocks rows limit fuel i (boundary.map rowCursor) = some pages) :
    ∃ rowPages, walk (visible dbs rows) belowRow limit fuel i boundary = some rowPages ∧
      List.Forall₂ ShowsItem pages.flatten rowPages.flatten := by
  induction fuel generalizing i boundary pages with
  | zero => cases h
  | succ fuel ih =>
      simp only [followQueue] at h
      split at h
      · cases h
      · rename_i page hpage
        have hof : PageOf limit page (selection belowRow (visible dbs rows i) boundary) :=
          pageOf_listRetryQueue hpage
        set W := selection belowRow (visible dbs rows i) boundary with hW
        rcases Nat.lt_or_ge limit W.length with hlt | hle
        · obtain ⟨c, hc, hnext⟩ := hof.exists_boundary hlimit hlt
          rw [hof.hasMore, decide_eq_true hlt, if_pos rfl, hnext, Option.map_eq_some_iff] at h
          obtain ⟨rest, hrest, rfl⟩ := h
          obtain ⟨rowRest, hwalk, hshows⟩ := ih (some c) hrest
          refine ⟨W.take limit :: rowRest, ?_, ?_⟩
          · rw [walk_of_lt_length hlimit hW.symm hlt hc, hwalk, Option.map_some]
          · rw [List.flatten_cons, List.flatten_cons]
            exact List.rel_append hof.items hshows
        · rw [hof.hasMore, decide_eq_false (Nat.not_lt.mpr hle), if_neg Bool.false_ne_true,
            Option.some.injEq] at h
          subst h
          refine ⟨[W], walk_of_length_le hle, ?_⟩
          have hitems := hof.items
          rw [List.take_of_length_le hle] at hitems
          simpa using hitems

variable (clocks) in
/-- When the payments can be served, every request is answered. -/
theorem followQueue_of_walk (hlimit : 1 ≤ limit) (hserved : ∀ i, ∀ row ∈ visible dbs rows i, Served row)
    {fuel i : ℕ} (boundary : Option TransactionRow) {rowPages : List (List TransactionRow)}
    (h : walk (visible dbs rows) belowRow limit fuel i boundary = some rowPages) :
    ∃ pages, followQueue dbs clocks rows limit fuel i (boundary.map rowCursor) = some pages ∧
      List.Forall₂ ShowsItem pages.flatten rowPages.flatten := by
  induction fuel generalizing i boundary rowPages with
  | zero => cases h
  | succ fuel ih =>
      obtain ⟨page, hpage⟩ := exists_page (clocks i) limit (hserved i) boundary
      have hof : PageOf limit page (selection belowRow (visible dbs rows i) boundary) :=
        pageOf_listRetryQueue hpage
      set W := selection belowRow (visible dbs rows i) boundary with hW
      rcases Nat.lt_or_ge limit W.length with hlt | hle
      · obtain ⟨c, hc, hnext⟩ := hof.exists_boundary hlimit hlt
        rw [walk_of_lt_length hlimit hW.symm hlt hc, Option.map_eq_some_iff] at h
        obtain ⟨rowRest, hwalk, rfl⟩ := h
        obtain ⟨rest, hrest, hshows⟩ := ih (some c) hwalk
        refine ⟨page.items :: rest, ?_, ?_⟩
        · simp only [followQueue, hpage, hof.hasMore, decide_eq_true hlt, if_true, hnext]
          rw [hrest, Option.map_some]
        · rw [List.flatten_cons, List.flatten_cons]
          exact List.rel_append hof.items hshows
      · rw [walk_of_length_le hle, Option.some.injEq] at h
        subst h
        refine ⟨[page.items], ?_, ?_⟩
        · simp only [followQueue, hpage, hof.hasMore, decide_eq_false (Nat.not_lt.mpr hle),
            Bool.false_eq_true, if_false]
        · have hitems := hof.items
          rw [List.take_of_length_le hle] at hitems
          simpa using hitems

end Follow

/-! ## The cursor's order -/

theorem belowRow_iff {c row : TransactionRow} : belowRow c row = true ↔
    (isoText row.createdAt).toList < (isoText c.createdAt).toList ∨
      (isoText row.createdAt).toList = (isoText c.createdAt).toList ∧ row.id.toList < c.id.toList := by
  unfold belowRow textBelow
  split_ifs with h
  · rw [h]
    simp
  · have hne : (isoText row.createdAt).toList ≠ (isoText c.createdAt).toList :=
      fun heq => h (String.toList_injective heq)
    simp [hne]

theorem belowRow_irrefl (row : TransactionRow) : belowRow row row = false := by
  rw [← Bool.not_eq_true, belowRow_iff]
  simp

theorem belowRow_trans (a b c : TransactionRow) (hab : belowRow a b = true) (hbc : belowRow b c = true) :
    belowRow a c = true := by
  rw [belowRow_iff] at hab hbc ⊢
  rcases hab with hab | ⟨heq, hab⟩
  · rcases hbc with hbc | ⟨heq, -⟩
    · exact .inl (lt_trans hbc hab)
    · rw [heq]
      exact .inl hab
  · rw [heq] at hbc
    exact hbc.imp id fun h => ⟨h.1, lt_trans h.2 hab⟩

theorem belowRow_total {a b : TransactionRow} (h : a.id ≠ b.id) :
    belowRow a b = true ∨ belowRow b a = true := by
  rw [belowRow_iff, belowRow_iff]
  have hid : a.id.toList ≠ b.id.toList := fun heq => h (String.toList_injective heq)
  rcases lt_trichotomy (isoText a.createdAt).toList (isoText b.createdAt).toList with hlt | heq | hgt
  · exact .inr (.inl hlt)
  · rcases lt_or_gt_of_ne hid with hlt | hgt
    · exact .inr (.inr ⟨heq, hlt⟩)
    · exact .inl (.inr ⟨heq.symm, hgt⟩)
  · exact .inl (.inl hgt)

/-! ## Every failed payment exactly once -/

/-- The failed payments, newest first. -/
def newestFirst (rows : List TransactionRow) : List TransactionRow :=
  (failedRows rows).mergeSort fun a b => decide (b.createdAt.ticks ≤ a.createdAt.ticks)

/-- The pages that follow each other by their cursors come to an end, and have every failed payment exactly
once, newest first. -/
def QueueComplete (dbs : ℕ → Database) (clocks : ℕ → Clock) (rows : List TransactionRow) (limit : ℕ) : Prop :=
  ∃ fuel pages, followQueue dbs clocks rows limit fuel 0 none = some pages ∧
    ∃ shown, Answers noOlder (failedRows rows) shown ∧ List.Forall₂ ShowsItem pages.flatten shown

theorem answers_newestFirst (rows : List TransactionRow) :
    Answers noOlder (failedRows rows) (newestFirst rows) where
  perm := List.mergeSort_perm _ _
  sorted := by
    have hsorted : (newestFirst rows).Pairwise
        (fun a b => decide (b.createdAt.ticks ≤ a.createdAt.ticks) = true) := by
      apply List.pairwise_mergeSort
      · intro a b c hab hbc
        rw [decide_eq_true_eq] at hab hbc ⊢
        exact le_trans hbc hab
      · intro a b
        rw [Bool.or_eq_true, decide_eq_true_eq, decide_eq_true_eq]
        exact le_total _ _
    exact hsorted.imp fun {a b} h => of_decide_eq_true h

theorem arrangement_eq_queueOrder {collate : String → String → Bool} (rows : List TransactionRow)
    (c : Collates collate) : arrangement failedQuery rows c = queueOrder c.db rows := by
  obtain ⟨db, rfl⟩ := c
  rfl

/-- Every answer that the order allows is the answer of some database. -/
theorem exists_queueOrder {rows L : List TransactionRow} (hL : Answers noOlder (failedRows rows) L) :
    ∃ db, queueOrder db rows = L := by
  have hanswers : Answers (fun a b => paymentBefore plainCollate failedQuery a b = true)
      (matchingPayments failedQuery rows) L := answers_noOlder_iff.mpr hL
  obtain ⟨c, hc⟩ := exists_arrangement hanswers
  exact ⟨c.db, by rw [← arrangement_eq_queueOrder, hc]⟩

theorem id_eq_of_showsItem {item : PaymentRetryQueueItem} {a b : TransactionRow} (ha : ShowsItem item a)
    (hb : ShowsItem item b) : a.id = b.id := by
  have hid : ∀ {row}, ShowsItem item row → item.id = row.id := by
    rintro row ⟨t, clock, hshows, hitem⟩
    unfold queueItem at hitem
    split at hitem
    · cases hitem
    · obtain rfl := Outcome.ok.inj hitem
      rw [hshows]
  rw [← hid ha, ← hid hb]

/-- The items determine the ids of the payments they are of. -/
theorem ids_eq_of_showsItem {items : List PaymentRetryQueueItem} {L L' : List TransactionRow}
    (h : List.Forall₂ ShowsItem items L) (h' : List.Forall₂ ShowsItem items L') :
    L.map (·.id) = L'.map (·.id) := by
  induction h generalizing L' with
  | nil =>
      obtain rfl := List.forall₂_nil_left_iff.mp h'
      rfl
  | @cons item row items L hrow _ ih =>
      obtain ⟨row', L', hrow', hL', rfl⟩ := List.forall₂_cons_left_iff.mp h'
      rw [List.map_cons, List.map_cons, id_eq_of_showsItem hrow hrow', ih hL']

theorem exists_item_of_mem {items : List PaymentRetryQueueItem} {L : List TransactionRow}
    (h : List.Forall₂ ShowsItem items L) {row : TransactionRow} (hrow : row ∈ L) : ∃ item, ShowsItem item row := by
  induction h with
  | nil => cases hrow
  | @cons item row' items L hshows _ ih =>
      rcases List.mem_cons.mp hrow with rfl | hrow
      · exact ⟨item, hshows⟩
      · exact ih hrow

/-- A clock at the beginning of 2026. -/
def newYearClock : Clock := ⟨⟨newYear, some 0⟩, by decide⟩

/-- A database that returns the rows as they are stored. -/
def inOrder : Database := (Collates.plain plainCollate).db

section Complete

variable {rows : List TransactionRow} (hids : (rows.map (·.id)).Nodup) {limit : ℕ} (hlimit : 1 ≤ limit)
include hids

theorem eq_of_ids_eq {L L' : List TransactionRow} (hL : ∀ row ∈ L, row ∈ rows) (hL' : ∀ row ∈ L', row ∈ rows)
    (h : L.map (·.id) = L'.map (·.id)) : L = L' := by
  induction L generalizing L' with
  | nil => exact (List.map_eq_nil_iff.mp h.symm).symm
  | cons row L ih =>
      obtain ⟨row', L', rfl, hid, hrest⟩ := List.map_eq_cons_iff.mp h.symm
      obtain rfl : row' = row :=
        List.inj_on_of_nodup_map hids (hL' row' List.mem_cons_self) (hL row List.mem_cons_self) hid
      rw [ih (fun r hr => hL r (List.mem_cons_of_mem row' hr))
        (fun r hr => hL' r (List.mem_cons_of_mem row' hr)) hrest.symm]

include hlimit

/-- What lies behind the default page of the repository is never reached. -/
theorem length_le_of_queueComplete {db : Database} {clocks : ℕ → Clock}
    (h : QueueComplete (fun _ => db) clocks rows limit) : (failedRows rows).length ≤ 20 := by
  obtain ⟨fuel, pages, hfollow, shown, hshown, hitems⟩ := h
  obtain ⟨rowPages, hwalk, hrows⟩ := walk_of_followQueue hlimit none hfollow
  have hids' : shown.map (·.id) = rowPages.flatten.map (·.id) := ids_eq_of_showsItem hitems hrows
  have hsub : shown.map (·.id) ⊆ (visible (fun _ => db) rows 0).map (·.id) := by
    rw [hids']
    exact List.map_subset _ fun row hrow =>
      mem_of_mem_walk belowRow_trans hlimit (fun _ => .refl _) hwalk hrow
  have hnodup : (shown.map (·.id)).Nodup :=
    (hshown.perm.map _).nodup_iff.mpr ((List.filter_sublist.map _).nodup hids)
  have hle := (hnodup.subperm hsub).length_le
  have hvisible : (visible (fun _ => db) rows 0).length ≤ 20 := List.length_take_le _ _
  rw [List.length_map, List.length_map, hshown.perm.length_eq] at hle
  exact le_trans hle hvisible

/-- The retry queue has every failed payment exactly once, whatever the database makes of the ties, if and
only if there are no more than twenty of them, all can be served, and every page but the last ends in a
payment that is tied with no other and whose cursor selects the older ones. -/
theorem retryQueue_complete_iff :
    (∀ dbs clocks, QueueComplete dbs clocks rows limit) ↔
      (failedRows rows).length ≤ 20 ∧ (∀ row ∈ failedRows rows, Served row) ∧
        ∀ k, 0 < k → k * limit < (failedRows rows).length → ∀ c, (newestFirst rows)[k * limit - 1]? = some c →
          Cuts noOlder belowRow (failedRows rows) c := by
  have hnodup : (failedRows rows).Nodup := (List.filter_sublist.nodup hids.of_map)
  have hmem : ∀ {L : List TransactionRow}, L.Perm (failedRows rows) → ∀ row ∈ L, row ∈ rows :=
    fun hL row hrow => List.mem_of_mem_filter (hL.mem_iff.mp hrow)
  have htotal : ∀ a ∈ failedRows rows, ∀ b ∈ failedRows rows, a ≠ b →
      belowRow a b = true ∨ belowRow b a = true := by
    intro a ha b hb hne
    refine belowRow_total fun hid => hne ?_
    exact List.inj_on_of_nodup_map hids (List.mem_of_mem_filter ha) (List.mem_of_mem_filter hb) hid
  -- the endpoint looks at twenty rows
  have hvisible : (failedRows rows).length ≤ 20 → ∀ dbs i, visible dbs rows i = queueOrder (dbs i) rows := by
    intro hle dbs i
    exact List.take_of_length_le (by rw [(answers_queueOrder (dbs i) rows).perm.length_eq]; exact hle)
  have hwalks := walk_complete_iff noOlder_total noOlder_trans belowRow_irrefl belowRow_trans htotal hnodup
    hlimit (answers_newestFirst rows)
  constructor
  · intro hall
    have hle := length_le_of_queueComplete hids hlimit (hall (fun _ => inOrder) fun _ => newYearClock)
    refine ⟨hle, ?_, hwalks.mp ?_⟩
    · intro row hrow
      obtain ⟨_, _, -, shown, hshown, hitems⟩ := hall (fun _ => inOrder) fun _ => newYearClock
      obtain ⟨item, hitem⟩ := exists_item_of_mem hitems (hshown.perm.mem_iff.mpr hrow)
      exact served_of_showsItem hitem
    · intro answer hanswer
      -- some database has its ties in any order that is asked for
      choose dbs hdbs using fun i => exists_queueOrder (hanswer i)
      obtain ⟨fuel, pages, hfollow, shown, hshown, hitems⟩ := hall dbs fun _ => newYearClock
      obtain ⟨rowPages, hwalk, hrows⟩ := walk_of_followQueue hlimit none hfollow
      have hanswers : visible dbs rows = answer := by
        funext i
        rw [hvisible hle, hdbs]
      rw [hanswers] at hwalk
      have hread : ∀ row ∈ rowPages.flatten, row ∈ rows := by
        intro row hrow
        apply hmem (.refl _)
        exact mem_of_mem_walk belowRow_trans hlimit (fun i => (hanswer i).perm) hwalk hrow
      have hshownRows : shown = rowPages.flatten :=
        eq_of_ids_eq hids (hmem hshown.perm) hread (ids_eq_of_showsItem hitems hrows)
      rw [hshownRows] at hshown
      exact ⟨fuel, rowPages, hwalk, hshown⟩
  · rintro ⟨hle, hserved, hcut⟩ dbs clocks
    have hanswers : ∀ i, Answers noOlder (failedRows rows) (visible dbs rows i) := by
      intro i
      rw [hvisible hle]
      exact answers_queueOrder (dbs i) rows
    obtain ⟨fuel, rowPages, hwalk, hcomplete⟩ := hwalks.mpr hcut (visible dbs rows) hanswers
    have hserved' : ∀ i, ∀ row ∈ visible dbs rows i, Served row :=
      fun i row hrow => hserved row ((hanswers i).perm.mem_iff.mp hrow)
    obtain ⟨pages, hpages, hitems⟩ :=
      followQueue_of_walk clocks hlimit hserved' none hwalk
    exact ⟨fuel, pages, hpages, rowPages.flatten, hcomplete, hitems⟩

end Complete

/-! ## Samples -/

/-- A failed payment made some seconds into the year. -/
def failedAt (id : String) (seconds : ℕ) : TransactionRow :=
  { failedPayment id "OUT-1" with createdAt := ⟨newYear + seconds * 1000000, some 0⟩ }

/-- Three payments made in different seconds, the last one stored first. -/
def secondBySecond : List TransactionRow := [failedAt "pay_3" 2, failedAt "pay_1" 0, failedAt "pay_2" 1]

/-- One payment in each of twenty-one seconds. -/
def twentyOnePayments : List TransactionRow :=
  (List.range 21).map fun n => failedAt (String.ofList ['p', 'a', 'y', '_', Char.ofNat (65 + n)]) n

example : isoText (failedAt "pay_3" 2).createdAt = "2026-01-01T00:00:02+00:00" := by decide

theorem cuts_secondBySecond : ∀ c ∈ secondBySecond, ∀ x ∈ secondBySecond, x ≠ c →
    ¬ (x.createdAt.ticks ≤ c.createdAt.ticks ∧ c.createdAt.ticks ≤ x.createdAt.ticks) ∧
      (belowRow c x = true ↔ x.createdAt.ticks ≤ c.createdAt.ticks) := by
  decide

/-- The three payments in pages of one, whatever the database and the clock. -/
theorem secondBySecond_complete :
    (secondBySecond.map (·.id)).Nodup ∧ ∀ dbs clocks, QueueComplete dbs clocks secondBySecond 1 := by
  refine ⟨by decide, (retryQueue_complete_iff (by decide) (Nat.le_refl 1)).mpr ⟨by decide, ?_, ?_⟩⟩
  · intro row hrow
    have hmem : row ∈ secondBySecond := List.mem_of_mem_filter hrow
    simp only [secondBySecond, List.mem_cons, List.not_mem_nil, or_false] at hmem
    rcases hmem with rfl | rfl | rfl <;> simp [Served, failedAt, failedPayment]
  · intro k _ _ c hc x hx hne
    have hmem : c ∈ secondBySecond :=
      List.mem_of_mem_filter ((answers_newestFirst _).perm.mem_iff.mp (List.mem_of_getElem? hc))
    exact cuts_secondBySecond c hmem x (List.mem_of_mem_filter hx) hne

theorem visible_tiedPayments : visible (fun _ => inOrder) tiedPayments = fun _ => tiedPayments := by
  have horder : queueOrder inOrder tiedPayments = tiedPayments := by
    apply List.mergeSort_of_pairwise
    decide
  funext i
  rw [visible, horder]
  rfl

/-- Of twenty-one failed payments one is never returned, however long the pages are; of two payments made at
one time the second one is not returned when they do not fit on one page. -/
theorem failed_payment_unreachable :
    ¬ QueueComplete (fun _ => inOrder) (fun _ => newYearClock) twentyOnePayments 100 ∧
      ¬ QueueComplete (fun _ => inOrder) (fun _ => newYearClock) tiedPayments 1 := by
  constructor
  · intro h
    have hle := length_le_of_queueComplete (by decide) (by decide) h
    exact absurd hle (by decide)
  · rintro ⟨fuel, pages, hfollow, shown, hshown, hitems⟩
    obtain ⟨rowPages, hwalk, hrows⟩ := walk_of_followQueue (Nat.le_refl 1) none hfollow
    rw [visible_tiedPayments] at hwalk
    obtain ⟨fuel, rfl⟩ := exists_succ_of_walk hwalk
    rw [walk_of_lt_length (W := tiedPayments) (c := failedPayment "pay_1" "OUT-1") (Nat.le_refl 1) rfl
      (by decide) rfl, Option.map_eq_some_iff] at hwalk
    obtain ⟨rest, hrest, rfl⟩ := hwalk
    obtain ⟨fuel, rfl⟩ := exists_succ_of_walk hrest
    -- no id is below the one in the cursor
    rw [walk_of_length_le (by decide), Option.some.injEq] at hrest
    have hlength := (hitems.length_eq.symm.trans hrows.length_eq).symm
    rw [hshown.perm.length_eq, ← hrest] at hlength
    exact absurd hlength (by decide)

end ApexChainx.Listing
