import ApexChainx.Core.Error
import ApexChainx.Audit.Chain

/-!
# Archiving

`archive_old_audit_entries` (`app/tasks/audit_tasks.py`) copies the entries older than a cutoff to a
JSONL file and deletes them from the table, a batch at a time. The two effects are separate: the lines of
a batch are in the file before its `DELETE` is executed, and stay there if that raises, as it does under
the trigger of `0020_audit_immutable`.

The verifier takes the first entry of the table to have no predecessor. A run therefore leaves a table
that verifies only if what it removes is the end of the chain, and every entry in one place only if none
of its deletes fails. The files of different days are one list here, and calls of `log_event` and runs
of the task follow one another.
-/

namespace ApexChainx.Audit

open ApexChainx.Lib

/-! ## The task -/

/-- `_BATCH_SIZE`. -/
def batchSize : ℕ := 1000

/-- A line of an archive file. -/
structure ArchiveRecord where
  id : ℕ
  eventType : String
  email : Option String
  actorId : Option String
  correlationId : Option String
  details : Json
  createdAt : String
  prevHash : Option String
  entryHash : String

/-- The line written for a row. -/
def archiveRecord (row : AuditLogRow) : ArchiveRecord where
  id := row.id
  eventType := row.eventType
  email := row.email
  actorId := row.actorId
  correlationId := row.correlationId
  details := row.details
  createdAt := row.createdAt.isoformat
  prevHash := row.prevHash
  entryHash := row.entryHash

/-- The table with its id sequence, and the lines of the archive. `logged` records the entries stored so
far; no operation reads it. -/
structure Store where
  rows : List AuditLogRow
  nextId : ℕ
  archive : List ArchiveRecord
  logged : List AuditLogRow

def Store.init : Store := ⟨[], 1, [], []⟩

/-- `created_at < cutoff`. -/
def older (cutoff : DateTime) (row : AuditLogRow) : Bool := row.createdAt.ticks < cutoff.ticks

/-- The query of a batch. -/
def selectBatch (cutoff : DateTime) (rows : List AuditLogRow) : List AuditLogRow :=
  (orderById (rows.filter (older cutoff))).take batchSize

/-- What the task returns. -/
structure ArchiveReport where
  archived : ℕ
  cutoff : String
deriving DecidableEq, Repr

/-- The loop of `archive_old_audit_entries`, from its batch number `k` on; `fails k` is the exception the
`DELETE` of that batch raises, if it does. `none` when the fuel does not suffice. -/
def archiveLoop (cutoff : DateTime) (fails : ℕ → Option ApiError) :
    ℕ → ℕ → ℕ → Store → Option (Outcome ArchiveReport × Store)
  | 0, _, _, _ => none
  | fuel + 1, k, archived, s =>
      let rows := selectBatch cutoff s.rows
      if rows.isEmpty then some (.ok ⟨archived, cutoff.isoformat⟩, s)
      else
        let ids := rows.map AuditLogRow.id
        let written := { s with archive := s.archive ++ rows.map archiveRecord }
        match fails k with
        | some e => some (.error e, written)
        | none =>
            archiveLoop cutoff fails fuel (k + 1) (archived + ids.length)
              { written with rows := s.rows.filter fun r => r.id ∉ ids }

/-- `archive_old_audit_entries`. -/
def archiveOldAuditEntries (cutoff : DateTime) (fails : ℕ → Option ApiError) (s : Store) :
    Option (Outcome ArchiveReport × Store) :=
  archiveLoop cutoff fails (s.rows.length + 1) 0 0 s

/-- `log_event`, with nothing else going on. -/
def Store.logEvent (sha256 : String → String) (sensitiveFields : List String) (args : LogArgs)
    (now : DateTime) (s : Store) : Store :=
  let prevHash := (orderById s.rows).getLast?.map AuditLogRow.entryHash
  let row := args.row sha256 sensitiveFields now prevHash
  if acceptsRow s.rows row then
    let row := { row with id := s.nextId }
    { s with rows := s.rows ++ [row], nextId := s.nextId + 1, logged := s.logged ++ [row] }
  else { s with nextId := s.nextId + 1 }

/-- A call of `log_event`, or a run of the task. -/
inductive Task
  | log (args : LogArgs) (now : DateTime)
  | archive (cutoff : DateTime) (fails : ℕ → Option ApiError)

def Store.step (sha256 : String → String) (sensitiveFields : List String) (s : Store) :
    Task → Option Store
  | .log args now => some (s.logEvent sha256 sensitiveFields args now)
  | .archive cutoff fails => (archiveOldAuditEntries cutoff fails s).map Prod.snd

/-! ## Batches -/

variable {cutoff : DateTime} {fails : ℕ → Option ApiError} {rows : List AuditLogRow}

theorem selectBatch_eq (h : rows.Pairwise fun a b => a.id < b.id) :
    selectBatch cutoff rows = (rows.filter (older cutoff)).take batchSize := by
  unfold selectBatch
  rw [orderById_eq (h.filter _)]

theorem nodup_id (h : rows.Pairwise fun a b => a.id < b.id) : (rows.map AuditLogRow.id).Nodup := by
  rw [List.nodup_iff_pairwise_ne, List.pairwise_map]
  exact h.imp fun hlt => Nat.ne_of_lt hlt

/-- The entries older than the cutoff. -/
def Store.old (s : Store) (cutoff : DateTime) : List AuditLogRow := s.rows.filter (older cutoff)

/-- The store after a run none of whose deletes has failed. -/
def Store.archived (s : Store) (cutoff : DateTime) : Store :=
  { s with
    rows := s.rows.filter fun r => !older cutoff r
    archive := s.archive ++ (s.old cutoff).map archiveRecord }

/-- The store after the delete of one batch. -/
def Store.afterBatch (s : Store) (cutoff : DateTime) : Store :=
  { s with
    rows := s.rows.filter fun r => r.id ∉ ((s.old cutoff).take batchSize).map AuditLogRow.id
    archive := s.archive ++ ((s.old cutoff).take batchSize).map archiveRecord }

theorem afterBatch_old {s : Store} (h : s.rows.Pairwise fun a b => a.id < b.id) :
    (s.afterBatch cutoff).old cutoff = (s.old cutoff).drop batchSize :=
  filter_deleted (nodup_id h) (older cutoff) batchSize

theorem afterBatch_archived {s : Store} (h : s.rows.Pairwise fun a b => a.id < b.id) :
    (s.afterBatch cutoff).archived cutoff = s.archived cutoff := by
  have hrows : ((s.afterBatch cutoff).rows.filter fun r => !older cutoff r)
      = s.rows.filter fun r => !older cutoff r :=
    filter_not_deleted (nodup_id h) (older cutoff) batchSize
  have harchive : (s.afterBatch cutoff).archive ++ ((s.old cutoff).drop batchSize).map archiveRecord
      = s.archive ++ (s.old cutoff).map archiveRecord := by
    simp only [Store.afterBatch, List.append_assoc, ← List.map_append, List.take_append_drop]
  unfold Store.archived
  rw [hrows, afterBatch_old h, harchive]
  rfl

/-- One round of the loop. -/
theorem archiveLoop_succ {s : Store} (h : s.rows.Pairwise fun a b => a.id < b.id) (fuel k n : ℕ) :
    archiveLoop cutoff fails (fuel + 1) k n s =
      if s.old cutoff = [] then some (.ok ⟨n, cutoff.isoformat⟩, s)
      else
        match fails k with
        | some e => some (.error e, { s.afterBatch cutoff with rows := s.rows })
        | none =>
            archiveLoop cutoff fails fuel (k + 1) (n + ((s.old cutoff).take batchSize).length)
              (s.afterBatch cutoff) := by
  rw [archiveLoop]
  simp only [selectBatch_eq h, List.isEmpty_iff, List.take_eq_nil_iff, batchSize, List.length_map,
    OfNat.ofNat_ne_zero, false_or]
  rfl

theorem afterBatch_ordered {s : Store} (h : s.rows.Pairwise fun a b => a.id < b.id) :
    (s.afterBatch cutoff).rows.Pairwise fun a b => a.id < b.id :=
  h.filter _

/-- A run whose deletes succeed moves the entries older than the cutoff to the archive. -/
theorem archiveLoop_ok {s : Store} (h : s.rows.Pairwise fun a b => a.id < b.id) {fuel : ℕ} (k n : ℕ)
    (hfuel : (s.old cutoff).length < fuel)
    (hok : ∀ j, j * batchSize < (s.old cutoff).length → fails (k + j) = none) :
    archiveLoop cutoff fails fuel k n s
      = some (.ok ⟨n + (s.old cutoff).length, cutoff.isoformat⟩, s.archived cutoff) := by
  induction fuel generalizing k n s with
  | zero => omega
  | succ fuel ih =>
      rw [archiveLoop_succ h]
      split
      · rename_i hnil
        have hrows : s.rows.filter (fun r => !older cutoff r) = s.rows := by
          refine List.filter_eq_self.mpr ?_
          intro r hr
          simpa using List.filter_eq_nil_iff.mp hnil r hr
        simp [hnil, Store.archived, hrows]
      · rename_i hne
        have hpos : 0 < (s.old cutoff).length := List.length_pos_iff.mpr hne
        have hlen : ((s.afterBatch cutoff).old cutoff).length = (s.old cutoff).length - batchSize := by
          rw [afterBatch_old h, List.length_drop]
        rw [show fails k = none from hok 0 (by omega)]
        simp only
        have hcount : n + min batchSize (s.old cutoff).length + ((s.old cutoff).length - batchSize)
            = n + (s.old cutoff).length := by
          omega
        rw [ih (afterBatch_ordered h), afterBatch_archived h, hlen, List.length_take, hcount]
        · rw [hlen]
          unfold batchSize
          omega
        · intro j hj
          rw [hlen] at hj
          rw [Nat.add_assoc, Nat.add_comm 1 j]
          refine hok (j + 1) ?_
          rw [Nat.succ_mul]
          omega

/-- A run one of whose deletes fails leaves an entry that is in the table and in the archive. -/
theorem archiveLoop_error {s : Store} (h : s.rows.Pairwise fun a b => a.id < b.id) {fuel j : ℕ}
    (k n : ℕ) (hfuel : (s.old cutoff).length < fuel) (hj : j * batchSize < (s.old cutoff).length)
    (hfail : fails (k + j) ≠ none) :
    ∃ e s', archiveLoop cutoff fails fuel k n s = some (.error e, s') ∧ s'.logged = s.logged ∧
      ∃ r ∈ s.rows, r ∈ s'.rows ∧ archiveRecord r ∈ s'.archive := by
  induction fuel generalizing k j n s with
  | zero => omega
  | succ fuel ih =>
      rw [archiveLoop_succ h]
      have hne : s.old cutoff ≠ [] := by
        rw [← List.length_pos_iff]
        omega
      rw [if_neg hne]
      cases hk : fails k with
      | some e =>
          obtain ⟨r, rest, hold⟩ := List.exists_cons_of_ne_nil hne
          have hmem : r ∈ s.old cutoff := hold ▸ List.mem_cons_self
          have hbatch : r ∈ (s.old cutoff).take batchSize := by
            rw [hold]
            exact List.mem_cons_self
          refine ⟨e, _, rfl, rfl, r, (List.mem_filter.mp hmem).1, (List.mem_filter.mp hmem).1, ?_⟩
          exact List.mem_append_right _ (List.mem_map_of_mem hbatch)
      | none =>
          -- the delete that fails comes after this batch
          cases j with
          | zero => exact absurd hk hfail
          | succ j =>
              have hlen : ((s.afterBatch cutoff).old cutoff).length
                  = (s.old cutoff).length - batchSize := by
                rw [afterBatch_old h, List.length_drop]
              rw [Nat.succ_mul] at hj
              have hfuel' : ((s.afterBatch cutoff).old cutoff).length < fuel := by
                rw [hlen]
                unfold batchSize at hj ⊢
                omega
              have hfail' : fails (k + 1 + j) ≠ none := by
                rwa [Nat.add_assoc, Nat.add_comm 1 j]
              obtain ⟨e, s', hrun, hlog, r, hr, hr', harch⟩ :=
                ih (afterBatch_ordered h) (k + 1) _ hfuel' (by rw [hlen]; omega) hfail'
              exact ⟨e, s', hrun, hlog, r, (List.mem_filter.mp hr).1, hr', harch⟩

/-! ## What the store keeps -/

variable {sha256 : String → String} {sensitiveFields : List String}

/-- The entry is in the table and not in the archive, or in the archive, once, and not in the table. -/
def Store.InOnePlace (s : Store) (e : AuditLogRow) : Prop :=
  (s.rows.filter (·.id = e.id) = [e] ∧ s.archive.filter (·.id = e.id) = []) ∨
    (s.rows.filter (·.id = e.id) = [] ∧ s.archive.filter (·.id = e.id) = [archiveRecord e])

/-- The table verifies, and every entry ever logged is in exactly one place. -/
structure Store.Sound (sha256 : String → String) (s : Store) : Prop where
  verified : (verifyChain sha256 s.rows).verified = true
  placed : ∀ e ∈ s.logged, s.InOnePlace e

/-- What soundness rests on: the table is a chain in the order of its ids, with distinct hashes. -/
structure Store.Inv (sha256 : String → String) (s : Store) : Prop where
  linked : (auditChain sha256).Linked none s.rows
  ordered : s.rows.Pairwise fun a b => a.id < b.id
  hashes : (s.rows.map AuditLogRow.entryHash).Nodup
  drawn : ∀ r ∈ s.rows, r.id < s.nextId
  archive_drawn : ∀ a ∈ s.archive, a.id < s.nextId
  logged_drawn : ∀ e ∈ s.logged, e.id < s.nextId
  rows_logged : ∀ r ∈ s.rows, r ∈ s.logged
  placed : ∀ e ∈ s.logged, s.InOnePlace e

theorem Store.Inv.sound {s : Store} (h : s.Inv sha256) : s.Sound sha256 := by
  refine ⟨verifyChain_verified_iff.mpr ?_, h.placed⟩
  rw [orderById_eq h.ordered]
  exact h.linked

theorem Store.inv_init : Store.init.Inv sha256 := by
  refine ⟨trivial, List.Pairwise.nil, List.nodup_nil, ?_, ?_, ?_, ?_, ?_⟩ <;>
    (intro x hx; cases hx)

/-- An entry stays where it is when an entry with another id is added to the table. -/
theorem Store.InOnePlace.append {s : Store} {e row : AuditLogRow} (h : s.InOnePlace e)
    (hne : row.id ≠ e.id) : Store.InOnePlace { s with rows := s.rows ++ [row] } e := by
  have hrow : [row].filter (·.id = e.id) = [] := by simp [hne]
  unfold Store.InOnePlace
  simp only [List.filter_append, hrow, List.append_nil]
  exact h

/-- An entry with an id not drawn before is in the table it is added to, and nowhere else. -/
theorem Store.Inv.inOnePlace_append {s : Store} (h : s.Inv sha256) {row : AuditLogRow}
    (hid : row.id = s.nextId) : Store.InOnePlace { s with rows := s.rows ++ [row] } row := by
  have hrows : s.rows.filter (·.id = row.id) = [] := by
    refine List.filter_eq_nil_iff.mpr ?_
    intro r hr
    simpa [hid] using Nat.ne_of_lt (h.drawn r hr)
  have harchive : s.archive.filter (·.id = row.id) = [] := by
    refine List.filter_eq_nil_iff.mpr ?_
    intro a ha
    simpa [hid] using Nat.ne_of_lt (h.archive_drawn a ha)
  exact .inl ⟨by simp [hrows], harchive⟩

/-- An id that a refused insert draws is not used again. -/
theorem Store.Inv.draw {s : Store} (h : s.Inv sha256) :
    Store.Inv sha256 { s with nextId := s.nextId + 1 } := by
  refine ⟨h.linked, h.ordered, h.hashes, ?_, ?_, ?_, h.rows_logged, h.placed⟩
  · exact fun r hr => Nat.lt_succ_of_lt (h.drawn r hr)
  · exact fun a ha => Nat.lt_succ_of_lt (h.archive_drawn a ha)
  · exact fun e he => Nat.lt_succ_of_lt (h.logged_drawn e he)

/-- A row that continues the chain, with a hash and an id of its own, is added. -/
theorem Store.Inv.insert {s : Store} (h : s.Inv sha256) {row : AuditLogRow}
    (hlink : row.prevHash = (auditChain sha256).tip none s.rows)
    (hdigest : row.entryHash
      = (auditChain sha256).compute ((auditChain sha256).tip none s.rows) row)
    (hid : row.id = s.nextId) (hfresh : ∀ r ∈ s.rows, r.entryHash ≠ row.entryHash) :
    Store.Inv sha256 { s with
      rows := s.rows ++ [row], nextId := s.nextId + 1, logged := s.logged ++ [row] } := by
  have hdrawn {l : List AuditLogRow} (hl : ∀ r ∈ l, r.id < s.nextId) :
      ∀ r ∈ l ++ [row], r.id < s.nextId + 1 := by
    intro r hr
    rcases List.mem_append.mp hr with hold | hnew
    · exact Nat.lt_succ_of_lt (hl r hold)
    · rw [List.mem_singleton.mp hnew, hid]
      exact Nat.lt_succ_self _
  refine ⟨h.linked.concat hlink hdigest, ?_, ?_, hdrawn h.drawn, ?_, hdrawn h.logged_drawn, ?_, ?_⟩
  · rw [List.pairwise_append]
    refine ⟨h.ordered, List.pairwise_singleton _ _, ?_⟩
    intro a ha b hb
    rw [List.mem_singleton.mp hb, hid]
    exact h.drawn a ha
  · rw [List.map_append, List.nodup_append]
    refine ⟨h.hashes, List.nodup_singleton _, ?_⟩
    intro a ha b hb
    obtain ⟨r, hr, rfl⟩ := List.mem_map.mp ha
    rw [List.map_singleton, List.mem_singleton] at hb
    rw [hb]
    exact hfresh r hr
  · exact fun a ha => Nat.lt_succ_of_lt (h.archive_drawn a ha)
  · intro r hr
    rcases List.mem_append.mp hr with hold | hnew
    · exact List.mem_append_left _ (h.rows_logged r hold)
    · exact List.mem_append_right _ hnew
  · intro e he
    rcases List.mem_append.mp he with hold | hnew
    · refine (h.placed e hold).append ?_
      rw [hid]
      exact Nat.ne_of_gt (h.logged_drawn e hold)
    · -- the id is new, so the entry is nowhere else
      rw [List.mem_singleton.mp hnew]
      exact h.inOnePlace_append hid

/-- The row of a call continues the chain of the table and bears a hash and an id of its own. -/
theorem Store.Inv.logEvent {s : Store} (h : s.Inv sha256) (args : LogArgs) (now : DateTime) :
    (s.logEvent sha256 sensitiveFields args now).Inv sha256 := by
  unfold Store.logEvent
  rw [tail_eq_tip h.ordered]
  dsimp only
  split
  · rename_i haccept
    simp only [acceptsRow, Bool.and_eq_true, List.all_eq_true, decide_eq_true_eq] at haccept
    exact h.insert rfl rfl rfl haccept.2
  · exact h.draw

/-- Moving the old entries to the archive moves each of them once. -/
theorem Store.InOnePlace.archived {s : Store} {e : AuditLogRow} (h : s.InOnePlace e) :
    (s.archived cutoff).InOnePlace e := by
  have hmoved : ((s.old cutoff).map archiveRecord).filter (·.id = e.id)
      = ((s.rows.filter (·.id = e.id)).filter (older cutoff)).map archiveRecord := by
    rw [List.filter_map, List.filter_comm]
    rfl
  unfold Store.InOnePlace
  simp only [Store.archived, List.filter_append, hmoved]
  rw [List.filter_comm]
  rcases h with ⟨hrows, harchive⟩ | ⟨hrows, harchive⟩
  · rw [hrows, harchive]
    by_cases hold : older cutoff e = true
    · exact .inr ⟨by simp [hold], by simp [hold]⟩
    · exact .inl ⟨by simp [hold], by simp [hold]⟩
  · rw [hrows, harchive]
    exact .inr ⟨rfl, rfl⟩

/-- How many batches the entries older than the cutoff make. -/
def Store.batches (s : Store) (cutoff : DateTime) : ℕ :=
  ((s.old cutoff).length + batchSize - 1) / batchSize

theorem Store.lt_batches_iff {s : Store} {k : ℕ} :
    k < s.batches cutoff ↔ k * batchSize < (s.old cutoff).length := by
  unfold Store.batches batchSize
  omega

/-- No entry that is kept follows one that is archived, and no delete of the run fails. -/
def ArchivesEnd (s : Store) : Task → Prop
  | .log _ _ => True
  | .archive cutoff fails =>
      ((orderById s.rows).Pairwise fun a b => older cutoff a = true → older cutoff b = true) ∧
        ∀ k < s.batches cutoff, fails k = none

instance (s : Store) : (a : Task) → Decidable (ArchivesEnd s a)
  | .log _ _ => inferInstanceAs (Decidable True)
  | .archive cutoff fails =>
      inferInstanceAs (Decidable
        (((orderById s.rows).Pairwise fun a b => older cutoff a = true → older cutoff b = true) ∧
          ∀ k < s.batches cutoff, fails k = none))

/-- The chain after a run without a failure. -/
theorem Store.Inv.linked_archived_iff {s : Store} (h : s.Inv sha256) :
    (auditChain sha256).Linked none (s.archived cutoff).rows ↔
      s.rows.Pairwise fun a b => older cutoff a = true → older cutoff b = true := by
  refine (HashChain.linked_filter_iff h.linked h.hashes (by simp)).trans ?_
  refine ⟨fun hp => hp.imp ?_, fun hp => hp.imp ?_⟩
  · intro a b hab ha
    by_contra hb
    have hkept := hab (by simpa using hb)
    simp [ha] at hkept
  · intro a b hab hb
    by_contra ha
    have hold := hab (by simpa using ha)
    simp [hold] at hb

theorem Store.Inv.archived {s : Store} (h : s.Inv sha256)
    (hend : s.rows.Pairwise fun a b => older cutoff a = true → older cutoff b = true) :
    (s.archived cutoff).Inv sha256 := by
  have hmem : ∀ r ∈ (s.archived cutoff).rows, r ∈ s.rows := fun r hr => (List.mem_filter.mp hr).1
  refine ⟨h.linked_archived_iff.mpr hend, h.ordered.filter _,
    h.hashes.sublist (List.filter_sublist.map _), fun r hr => h.drawn r (hmem r hr), ?_,
    h.logged_drawn, fun r hr => h.rows_logged r (hmem r hr), fun e he => (h.placed e he).archived⟩
  intro a ha
  rcases List.mem_append.mp ha with hold | hnew
  · exact h.archive_drawn a hold
  · obtain ⟨r, hr, rfl⟩ := List.mem_map.mp hnew
    exact h.drawn r (List.mem_filter.mp hr).1

/-- A run of the task ends, and leaves a sound store exactly when it archives the end of the chain and
none of its deletes fails. -/
theorem Store.Inv.archive {s : Store} (h : s.Inv sha256) (sensitiveFields : List String)
    (cutoff : DateTime) (fails : ℕ → Option ApiError) :
    ∃ s', s.step sha256 sensitiveFields (.archive cutoff fails) = some s' ∧
      (s'.Sound sha256 ↔ ArchivesEnd s (.archive cutoff fails)) ∧
      (ArchivesEnd s (.archive cutoff fails) → s'.Inv sha256) := by
  have hfuel : (s.old cutoff).length < s.rows.length + 1 :=
    Nat.lt_succ_of_le (List.length_filter_le _ _)
  by_cases hok : ∀ k < s.batches cutoff, fails k = none
  · have hok' : ∀ j, j * batchSize < (s.old cutoff).length → fails (0 + j) = none := by
      intro j hj
      rw [Nat.zero_add]
      exact hok j (Store.lt_batches_iff.mpr hj)
    have hloop := archiveLoop_ok h.ordered 0 0 hfuel hok'
    refine ⟨s.archived cutoff, ?_, ?_, ?_⟩
    · simp only [Store.step, archiveOldAuditEntries, hloop, Option.map_some]
    · simp only [ArchivesEnd, orderById_eq h.ordered, and_iff_left hok]
      constructor
      · intro hsound
        have hlinked := verifyChain_verified_iff.mp hsound.verified
        have hordered : (s.archived cutoff).rows.Pairwise fun a b => a.id < b.id := h.ordered.filter _
        rw [orderById_eq hordered] at hlinked
        exact h.linked_archived_iff.mp hlinked
      · intro hend
        exact (h.archived hend).sound
    · rintro ⟨hend, -⟩
      rw [orderById_eq h.ordered] at hend
      exact h.archived hend
  · simp only [not_forall, exists_prop] at hok
    obtain ⟨j, hj, hfail⟩ := hok
    obtain ⟨e, s', hloop, hlogged, r, hr, hr', harchive⟩ :=
      archiveLoop_error h.ordered 0 0 hfuel (Store.lt_batches_iff.mp hj) (by rwa [Nat.zero_add])
    have hnot : ¬ ArchivesEnd s (.archive cutoff fails) := fun hend => hfail (hend.2 j hj)
    refine ⟨s', ?_, ?_, fun hend => absurd hend hnot⟩
    · simp only [Store.step, archiveOldAuditEntries, hloop, Option.map_some]
    · refine iff_of_false ?_ hnot
      intro hsound
      -- the entry of the batch that was written and not deleted is in both places
      rcases hsound.placed r (hlogged ▸ h.rows_logged r hr) with ⟨-, hnone⟩ | ⟨hnone, -⟩
      · exact List.filter_eq_nil_iff.mp hnone _ harchive (by simp [archiveRecord])
      · exact List.filter_eq_nil_iff.mp hnone r hr' (by simp)

theorem Store.Inv.step {s s' : Store} {a : Task} (h : s.Inv sha256) (hend : ArchivesEnd s a)
    (hstep : s.step sha256 sensitiveFields a = some s') : s'.Inv sha256 := by
  cases a with
  | log args now =>
      obtain rfl := Option.some.inj hstep
      exact h.logEvent args now
  | archive cutoff fails =>
      obtain ⟨t, ht, -, hinv⟩ := h.archive sensitiveFields cutoff fails
      obtain rfl : t = s' := Option.some.inj (ht.symm.trans hstep)
      exact hinv hend

/-! ## Runs -/

/-- `log_event` on the store is a call of the interleaved log that nothing interrupts. -/
theorem logEvent_eq_run (s : Sys) (hfree : s.holder = none) (args : LogArgs) (now : DateTime)
    (archive : List ArchiveRecord) (logged : List AuditLogRow) : ∃ as s',
    run (step sha256 sensitiveFields) s as = some s' ∧ s'.holder = none ∧
      s'.rows = (Store.logEvent sha256 sensitiveFields args now ⟨s.rows, s.nextId, archive, logged⟩).rows ∧
      s'.nextId
        = (Store.logEvent sha256 sensitiveFields args now ⟨s.rows, s.nextId, archive, logged⟩).nextId := by
  obtain ⟨rows, nextId, holder, calls⟩ := s
  simp only at hfree
  subst hfree
  let i := calls.length
  have hget : ∀ c, (calls ++ [c])[i]? = some c := fun c => by simp [i]
  have hset : ∀ c d : LogCall, (calls ++ [c]).set i d = calls ++ [d] := fun c d => by simp [i]
  let row := args.row sha256 sensitiveFields now ((orderById rows).getLast?.map AuditLogRow.entryHash)
  by_cases haccept : acceptsRow rows row = true
  · refine ⟨[.begin args, .move i now, .move i now, .move i now, .move i now, .move i now],
      ⟨rows ++ [{ row with id := nextId }], nextId + 1, none, calls ++ [⟨args, .ended true⟩]⟩, ?_, rfl, ?_⟩
    · simp [run, step, hget, hset, logStep, Sys.goto, Sys.released, row, haccept]
    · simp [Store.logEvent, row, haccept]
  · refine ⟨[.begin args, .move i now, .move i now, .move i now, .move i now, .rollback i],
      ⟨rows, nextId + 1, none, calls ++ [⟨args, .ended false⟩]⟩, ?_, rfl, ?_⟩
    · simp [run, step, hget, hset, logStep, Sys.goto, Sys.released, row, haccept]
    · simp [Store.logEvent, row, haccept]

/-- In every sequence of calls of `log_event` and runs of the task whose runs archive the end of the
chain and delete what they have archived, the table verifies and every entry ever logged is in exactly
one place; and the next run leaves it so exactly when it meets the condition too. -/
theorem archives_sound_iff (sha256 : String → String) (sensitiveFields : List String) {as : List Task}
    {s : Store} (hend : Guarded (Store.step sha256 sensitiveFields) ArchivesEnd Store.init as)
    (hrun : run (Store.step sha256 sensitiveFields) Store.init as = some s) :
    s.Sound sha256 ∧ ∀ cutoff fails, ∃ s',
      s.step sha256 sensitiveFields (.archive cutoff fails) = some s' ∧
        (s'.Sound sha256 ↔ ArchivesEnd s (.archive cutoff fails)) := by
  have hinv : s.Inv sha256 :=
    run_invariant_of_guarded (fun _ _ _ h hok hstep => Store.Inv.step h hok hstep) Store.inv_init hend
      hrun
  refine ⟨hinv.sound, ?_⟩
  intro cutoff fails
  obtain ⟨s', hstep, hiff, -⟩ := hinv.archive sensitiveFields cutoff fails
  exact ⟨s', hstep, hiff⟩

theorem valid_sampleCutoff : DateTime.Valid 2027 1 2 3 4 5 0 := by decide

/-- A year after `sampleTime`, and another year later. -/
def sampleCutoff : DateTime := .ofValid valid_sampleCutoff

theorem valid_laterTime : DateTime.Valid 2028 1 2 3 4 5 0 := by decide

def laterTime : DateTime := .ofValid valid_laterTime

/-- A login is logged and archived, and another one logged. -/
def archiveAll : List Task :=
  [.log (loginEvent "ana@noc.example") sampleTime, .archive sampleCutoff fun _ => none,
    .log (loginEvent "bo@noc.example") laterTime]

theorem archives_sound_archiveAll : ∃ s,
    run (Store.step id ["password"]) Store.init archiveAll = some s ∧ s.rows.length = 1 ∧
      s.archive.length = 1 ∧ s.Sound id := by
  obtain ⟨s, hrun, hrows, harchive⟩ : ∃ s,
      run (Store.step id ["password"]) Store.init archiveAll = some s ∧ s.rows.length = 1 ∧
        s.archive.length = 1 :=
    ⟨_, rfl, rfl, rfl⟩
  have hend : Guarded (Store.step id ["password"]) ArchivesEnd Store.init archiveAll := by decide
  exact ⟨s, hrun, hrows, harchive, (archives_sound_iff id ["password"] hend hrun).1⟩

/-- Two logins are logged, and the older one archived; or its delete is refused by the trigger. -/
def archiveFirst (fails : ℕ → Option ApiError) : List Task :=
  [.log (loginEvent "ana@noc.example") sampleTime, .log (loginEvent "bo@noc.example") laterTime,
    .archive sampleCutoff fails]

set_option maxRecDepth 2000 in
/-- The remaining entry does not verify without the archived one, and an entry whose delete fails is in
both places. -/
theorem archived_head_not_verified :
    (∃ s, run (Store.step id ["password"]) Store.init (archiveFirst fun _ => none) = some s ∧
      (verifyChain id s.rows).verified = false) ∧
    ∃ s, run (Store.step id ["password"]) Store.init
        (archiveFirst fun _ => some (.databaseError "audit_log is append-only")) = some s ∧
      ∃ e ∈ s.logged, ¬ s.InOnePlace e := by
  refine ⟨⟨_, rfl, by decide⟩, ⟨_, rfl, _, List.mem_cons_self, ?_⟩⟩
  rintro (⟨-, hnone⟩ | ⟨hnone, -⟩)
  · exact absurd hnone (List.cons_ne_nil _ _)
  · exact absurd hnone (List.cons_ne_nil _ _)

end ApexChainx.Audit
