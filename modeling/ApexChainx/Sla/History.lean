import ApexChainx.Sla.Analytics
import ApexChainx.Sla.Rows

/-!
# The order of an outage's results

`list_by_outage`, the fallback of `get_by_outage` and the buckets of `aggregate_trends`
(`app/repositories/sla_repository.py`) order and place results by `created_at`, which no writer sets: its
default is a value, computed when the process imported the class, and all results of a process have it
(`createdAt_eq`). The database orders equal times as it likes.

`historyOrdered_iff` says which histories the readers still tell right.
-/

namespace ApexChainx.Sla

open ApexChainx.Lib

/-! ## Histories -/

/-- `create` calls, one after another. -/
def execCreates (t : SlaTables) : List (CallEnv × SLAData) → SlaTables
  | [] => t
  | (env, data) :: cs => execCreates (create env data t).2 cs

/-- The times of the calls that add a row, in order. -/
def creationTimes (t : SlaTables) : List (CallEnv × SLAData) → List ℤ
  | [] => []
  | (env, data) :: cs =>
      (if (create env data t).2.results.length = t.results.length then [] else [env.now]) ++
        creationTimes (create env data t).2 cs

/-- The results of an outage, in the order in which they were created. -/
def resultsOf (outageId : String) (t : SlaTables) : List SLAResultRow :=
  t.results.filter (·.outageId = outageId)

/-- What `list_by_outage` may return: the rows of the outage by descending `created_at`. -/
def ListsByOutage (t : SlaTables) (outageId : String) (rows : List SLAResultRow) : Prop :=
  rows.Perm (resultsOf outageId t) ∧ rows.Pairwise fun a b => b.createdAt ≤ a.createdAt

/-- What the second query of `get_by_outage` may return: the first of such an order. -/
def FallsBackTo (t : SlaTables) (outageId : String) (r : SLAResultRow) : Prop :=
  ∃ rows, ListsByOutage t outageId (r :: rows)

/-- The readers tell the history as it was: the newest result first, the newest as the fallback, and each
latest result, if it is young enough, in the bucket of the time at which it was created. -/
structure HistoryOrdered (cal : Calendar) (outages : Outages.OutageTable) (now : ℤ) (t : SlaTables)
    (times : List ℤ) : Prop where
  listed : ∀ outageId rows, ListsByOutage t outageId rows → rows = (resultsOf outageId t).reverse
  fallback : ∀ outageId r, FallsBackTo t outageId r → (resultsOf outageId t).getLast? = some r
  counted : ∀ r time, (r, time) ∈ t.results.zip times → r.isLatest = true → ∀ bucket tz k,
    r ∈ group (fun r => cal.truncate bucket tz r.createdAt)
        (scannedResults ⟨t.results, outages⟩ now none none) k ↔
      scanStart now ≤ time ∧ cal.truncate bucket tz time = k

/-- No outage has two results, and the latest results were created in the buckets, and on the side of the
scan window, of the start of the process. -/
structure HistoryPlain (cal : Calendar) (now start : ℤ) (t : SlaTables) (times : List ℤ) : Prop where
  single : ∀ outageId, (resultsOf outageId t).length ≤ 1
  near : ∀ r time, (r, time) ∈ t.results.zip times → r.isLatest = true → ∀ bucket tz k,
    scanStart now ≤ start ∧ cal.truncate bucket tz start = k ↔
      scanStart now ≤ time ∧ cal.truncate bucket tz time = k

/-! ## What the calls leave -/

theorem create_results (env : CallEnv) (data : SLAData) (t : SlaTables) :
    (create env data t).2.results = t.results ∨
      ∃ id, (create env data t).2.results.map SLAResultRow.unflag =
        t.results.map SLAResultRow.unflag ++ [(newRow env id data.payload).unflag] := by
  unfold create
  simp only
  split
  · exact .inl rfl
  · cases hres : insertLatest env data.payload t with
    | mk out t' =>
        cases out with
        | error e => exact .inl (by rw [insertLatest_eq_error hres])
        | ok r =>
            obtain ⟨-, rfl⟩ := insertLatest_eq_ok hres
            refine .inr ⟨t.nextResultId, ?_⟩
            simp only [List.map_append, map_unflag_demoteLatest, List.map_singleton]

/-- What every state of a history has in common: the invariant of the flags, and one time for all rows. -/
structure HistoryInv (start : ℤ) (t : SlaTables) : Prop where
  latest : LatestInv t
  createdAt : ∀ r ∈ t.results, r.createdAt = start

theorem HistoryInv.create {start : ℤ} {t : SlaTables} (h : HistoryInv start t) {env : CallEnv}
    (henv : env.processStart = start) (data : SLAData) : HistoryInv start (create env data t).2 where
  latest := (create_keeps env data t).inv h.latest
  createdAt r hr := by
    rcases create_results env data t with hsame | ⟨id, happend⟩
    · exact h.createdAt r (hsame ▸ hr)
    · have hmem : r.unflag ∈ t.results.map SLAResultRow.unflag ++ [(newRow env id data.payload).unflag] :=
        happend ▸ List.mem_map_of_mem hr
      rcases List.mem_append.mp hmem with hold | hnew
      · obtain ⟨x, hx, hxr⟩ := List.mem_map.mp hold
        exact (congrArg SLAResultRow.createdAt hxr).symm.trans (h.createdAt x hx)
      · exact (congrArg SLAResultRow.createdAt (List.mem_singleton.mp hnew)).trans henv

theorem HistoryInv.execCreates {start : ℤ} {cs : List (CallEnv × SLAData)}
    (henv : ∀ c ∈ cs, c.1.processStart = start) {t : SlaTables} (h : HistoryInv start t) :
    HistoryInv start (execCreates t cs) := by
  induction cs generalizing t with
  | nil => exact h
  | cons c cs ih =>
      exact ih (fun c' hc' => henv c' (List.mem_cons_of_mem _ hc'))
        (h.create (henv c List.mem_cons_self) c.2)

/-! ## What the readers make of equal times -/

theorem length_le_one_of_eq_reverse {α : Type} {l : List α} (hnodup : l.Nodup) (h : l = l.reverse) :
    l.length ≤ 1 := by
  cases l with
  | nil => exact Nat.zero_le 1
  | cons a l =>
      obtain ⟨hnotMem, -⟩ := List.nodup_cons.mp hnodup
      cases hrev : l.reverse with
      | nil => rw [List.reverse_eq_nil_iff.mp hrev]; exact Nat.le_refl 1
      | cons b rest =>
          -- the last element is the first one, which the rest does not contain
          rw [List.reverse_cons, hrev, List.cons_append] at h
          have hb : b ∈ l := List.mem_reverse.mp (hrev ▸ List.mem_cons_self)
          exact absurd ((List.cons.inj h).1 ▸ hb) hnotMem

variable {start now : ℤ} {t : SlaTables} {outageId : String}

theorem nodup_resultsOf (h : LatestInv t) (outageId : String) : (resultsOf outageId t).Nodup :=
  (List.Nodup.of_map _ h.ids_nodup).filter _

/-- With one time for all rows, the order in which they were created is one of those the database may
return. -/
theorem listsByOutage_resultsOf (h : HistoryInv start t) (outageId : String) :
    ListsByOutage t outageId (resultsOf outageId t) := by
  refine ⟨.refl _, List.pairwise_iff_forall_sublist.mpr fun {a b} hab => ?_⟩
  have hmem : ∀ r ∈ resultsOf outageId t, r.createdAt = start := fun r hr =>
    h.createdAt r (List.mem_of_mem_filter hr)
  rw [hmem a (hab.subset List.mem_cons_self),
    hmem b (hab.subset (List.mem_cons_of_mem _ List.mem_cons_self))]

theorem listsByOutage_of_single (hsingle : (resultsOf outageId t).length ≤ 1)
    {rows : List SLAResultRow} (h : ListsByOutage t outageId rows) : rows = resultsOf outageId t := by
  cases hrows : resultsOf outageId t with
  | nil => exact List.perm_nil.mp (hrows ▸ h.1)
  | cons r rest =>
      rw [hrows, List.length_cons] at hsingle
      obtain rfl : rest = [] := List.length_eq_zero_iff.mp (by omega)
      exact List.perm_singleton.mp (hrows ▸ h.1)

theorem reverse_eq_of_single {α : Type} {l : List α} (h : l.length ≤ 1) : l.reverse = l := by
  cases l with
  | nil => rfl
  | cons a l =>
      rw [List.length_cons] at h
      obtain rfl : l = [] := List.length_eq_zero_iff.mp (by omega)
      rfl

/-- A result is counted in the bucket of its `created_at`, inside the scan window. -/
theorem mem_bucket_iff (cal : Calendar) (outages : Outages.OutageTable) {r : SLAResultRow}
    (hr : r ∈ t.results) (hlatest : r.isLatest = true) (bucket tz : String) (k : ℤ) :
    r ∈ group (fun r => cal.truncate bucket tz r.createdAt)
        (scannedResults ⟨t.results, outages⟩ now none none) k ↔
      scanStart now ≤ r.createdAt ∧ cal.truncate bucket tz r.createdAt = k := by
  simp [group, scannedResults, given?, hr, hlatest]
  exact and_comm

/-- In one process, the readers tell a history of results right exactly when no outage has two of them and
the time the process started serves as well as the times at which they were created. -/
theorem historyOrdered_iff (cal : Calendar) (outages : Outages.OutageTable) (now start : ℤ)
    (cs : List (CallEnv × SLAData)) (henv : ∀ c ∈ cs, c.1.processStart = start) :
    HistoryOrdered cal outages now (execCreates .empty cs) (creationTimes .empty cs) ↔
      HistoryPlain cal now start (execCreates .empty cs) (creationTimes .empty cs) := by
  have hinv : HistoryInv start (execCreates .empty cs) :=
    HistoryInv.execCreates henv ⟨latestInv_empty, fun r hr => absurd hr List.not_mem_nil⟩
  have hbucket : ∀ r time, (r, time) ∈ (execCreates .empty cs).results.zip (creationTimes .empty cs) →
      r.isLatest = true → ∀ bucket tz k,
        (r ∈ group (fun r => cal.truncate bucket tz r.createdAt)
            (scannedResults ⟨(execCreates .empty cs).results, outages⟩ now none none) k ↔
          scanStart now ≤ start ∧ cal.truncate bucket tz start = k) := by
    intro r time hzip hlatest bucket tz k
    have hr := (List.of_mem_zip hzip).1
    rw [mem_bucket_iff cal outages hr hlatest, hinv.createdAt r hr]
  constructor
  · intro h
    refine ⟨fun outageId => ?_, fun r time hzip hlatest bucket tz k => ?_⟩
    · -- the order of creation is one that the database may return
      exact length_le_one_of_eq_reverse (nodup_resultsOf hinv.latest outageId)
        (h.listed outageId _ (listsByOutage_resultsOf hinv outageId))
    · rw [← hbucket r time hzip hlatest]
      exact h.counted r time hzip hlatest bucket tz k
  · intro h
    refine ⟨fun outageId rows hrows => ?_, fun outageId r hfall => ?_, fun r time hzip hlatest bucket tz k => ?_⟩
    · rw [listsByOutage_of_single (h.single outageId) hrows, reverse_eq_of_single (h.single outageId)]
    · obtain ⟨rows, hrows⟩ := hfall
      have heq := listsByOutage_of_single (h.single outageId) hrows
      have hsingle := h.single outageId
      rw [← heq, List.length_cons] at hsingle
      obtain rfl : rows = [] := List.length_eq_zero_iff.mp (by omega)
      rw [← heq, List.getLast?_singleton]
    · rw [hbucket r time hzip hlatest]
      exact h.near r time hzip hlatest bucket tz k

/-- Two outages, with one result each. -/
def oneEach : List (CallEnv × SLAData) :=
  [({ sampleEnv with now := 1 }, sampleData "a"),
   ({ sampleEnv with now := 2 }, .model ⟨none, "OUT002", .met, 5, 30, 1500, .reward, .exceptional, "1.0", "config",
    none, none, some "b"⟩)]

/-- Both results are created microseconds after the process started. -/
theorem historyOrdered_sample :
    HistoryOrdered utcCalendar ⟨[], .nil⟩ 3 (execCreates .empty oneEach) (creationTimes .empty oneEach) := by
  refine (historyOrdered_iff utcCalendar ⟨[], .nil⟩ 3 0 _ (by simp [oneEach, sampleEnv])).mpr
    ⟨fun outageId => ?_, ?_⟩
  · have hnodup : ((execCreates .empty oneEach).results.map SLAResultRow.outageId).Nodup := by
      decide +kernel
    have hcount := List.nodup_iff_count_le_one.mp hnodup outageId
    rw [List.count, List.countP_map, List.countP_eq_length_filter] at hcount
    exact hcount
  · intro r time hmem _ bucket tz k
    have htime : time = 1 ∨ time = 2 := by
      have htimes : time ∈ [1, 2] := (List.of_mem_zip hmem).2
      simpa using htimes
    rcases htime with rfl | rfl <;> simp [utcCalendar, scanStart]

/-- Two results of one outage, created a day after another: the database may return the older one first and
make it the fallback, and the newer one, created a day after the start of the process, is counted under the
day of the start. -/
theorem history_told_wrong :
    let cs := [({ sampleEnv with now := 1 }, sampleData "a"),
      ({ sampleEnv with now := 86400000001 }, sampleData "b")]
    let t := execCreates .empty cs
    creationTimes .empty cs = [1, 86400000001] ∧
      ListsByOutage t "OUT001" (resultsOf "OUT001" t) ∧
      (resultsOf "OUT001" t).map (·.id) = [1, 2] ∧
      ¬ HistoryOrdered utcCalendar ⟨[], .nil⟩ 86400000002 t (creationTimes .empty cs) := by
  refine ⟨rfl, ⟨.refl _, by decide⟩, rfl, fun h => ?_⟩
  have hlisted := congrArg (List.map SLAResultRow.id) (h.listed "OUT001" _ ⟨.refl _, by decide⟩)
  exact absurd hlisted (by decide)

end ApexChainx.Sla
