import ApexChainx.Core.DateTime
import ApexChainx.Lib.JsonReader
import ApexChainx.Sla.Analytics

/-!
# Analytics snapshots

`create_snapshot`, `rebuild_snapshot`, `verify_snapshot_integrity` and `reconcile_snapshots`
(`app/repositories/sla_repository.py`), and `compute_checksum` (`app/models/orm/sla_snapshot.py`). The
checksum covers the text of `created_at`. A snapshot is made with a naive time, and the `timestamptz`
column gives an aware one back, whose text ends in the offset: the checksum of a row as it is read is never
the one it was written with (`computeChecksum_reload_ne`).

SHA-256 and the text of a float are parameters.
-/

namespace ApexChainx.Sla

open ApexChainx.Lib

/-! ## Times -/

/-- A `datetime` that is naive or in UTC. -/
structure Stamp where
  time : DateTime
  aware : Bool
deriving DecidableEq, Repr

/-- The characters of `isoformat` for a naive `datetime`. -/
def naiveIsoChars (d : DateTime) : List Char :=
  padded 4 d.year ++ '-' :: (padded 2 d.month ++ '-' :: (padded 2 d.day ++ 'T' ::
    (padded 2 d.hour ++ ':' :: (padded 2 d.minute ++ ':' :: (padded 2 d.second ++
      DateTime.fraction d.microsecond)))))

/-- `isoformat`. -/
def Stamp.isoformat (s : Stamp) : String :=
  if s.aware then s.time.isoformat else String.ofList (naiveIsoChars s.time)

theorem isoChars_eq_append (d : DateTime) : d.isoChars = naiveIsoChars d ++ "+00:00".toList := by
  simp [DateTime.isoChars, naiveIsoChars]

/-- The text of an aware time is longer by its offset. -/
theorem isoformat_aware_ne (d : DateTime) :
    (Stamp.mk d true).isoformat ≠ (Stamp.mk d false).isoformat := by
  intro h
  have hchars : d.isoChars = naiveIsoChars d := String.ofList_injective h
  rw [isoChars_eq_append] at hchars
  have hlength := congrArg List.length hchars
  rw [List.length_append] at hlength
  have hoffset : "+00:00".toList.length = 6 := by decide
  omega

/-! ## Snapshots -/

/-- `SLAAnalyticsSnapshotORM`. -/
structure SnapshotORM where
  id : ℕ
  snapshotKey : String
  totalOutages : ℕ
  totalViolations : ℕ
  totalRewards : ℚ
  totalPenalties : ℚ
  netPayout : ℚ
  avgMttr : ℚ
  checksum : String
  createdAt : Stamp
deriving DecidableEq, Repr

/-- What the code leaves to its libraries: the digest, the JSON text of a float, and rounding. -/
structure SnapshotEnv where
  sha256 : String → String
  floatText : ℚ → String
  rounded : ℕ → ℚ → ℚ

/-- A member of an object as `json.dumps` writes it. -/
def jsonMember (name : String) (value : List Char) : List Char :=
  quoteAscii name ++ ':' :: ' ' :: value

/-- The members before `created_at` in the order of their keys, with what opens its value. -/
def checksumStart (env : SnapshotEnv) (s : SnapshotORM) : List Char :=
  '\x7b' :: (jsonMember "avg_mttr" (env.floatText s.avgMttr).toList ++ ',' :: ' ' ::
    jsonMember "created_at" [])

/-- The members after `created_at`. -/
def checksumEnd (env : SnapshotEnv) (s : SnapshotORM) : List Char :=
  ',' :: ' ' :: (jsonMember "net_payout" (env.floatText s.netPayout).toList ++ ',' :: ' ' ::
    (jsonMember "snapshot_key" (quoteAscii s.snapshotKey) ++ ',' :: ' ' ::
      (jsonMember "total_outages" s.totalOutages.repr.toList ++ ',' :: ' ' ::
        (jsonMember "total_penalties" (env.floatText s.totalPenalties).toList ++ ',' :: ' ' ::
          (jsonMember "total_rewards" (env.floatText s.totalRewards).toList ++ ',' :: ' ' ::
            (jsonMember "total_violations" s.totalViolations.repr.toList ++ ['\x7d']))))))

/-- `sorted_json` in `compute_checksum`. -/
def checksumText (env : SnapshotEnv) (s : SnapshotORM) : String :=
  String.ofList (checksumStart env s ++ (quoteAscii s.createdAt.isoformat ++ checksumEnd env s))

/-- `compute_checksum`. -/
def computeChecksum (env : SnapshotEnv) (s : SnapshotORM) : String := env.sha256 (checksumText env s)

/-- The row as the database gives it back: the same values, and the time aware. -/
def SnapshotORM.reload (s : SnapshotORM) : SnapshotORM :=
  { s with createdAt := ⟨s.createdAt.time, true⟩ }

/-- The table `sla_analytics_snapshots`, rows as they are read, with its id sequence. -/
structure SnapshotTable where
  rows : List SnapshotORM
  nextId : ℕ

def SnapshotTable.empty : SnapshotTable := ⟨[], 1⟩

/-- `SLAAnalyticsSnapshot`. -/
structure AnalyticsSnapshot where
  id : ℕ
  snapshotKey : String
  totalOutages : ℕ
  totalViolations : ℕ
  totalRewards : ℚ
  totalPenalties : ℚ
  netPayout : ℚ
  avgMttr : ℚ
  checksum : String
  createdAt : String
deriving DecidableEq, Repr

/-- The model of a row that was read, checked by its fields. -/
def SnapshotORM.toSnapshot (s : SnapshotORM) : Outcome AnalyticsSnapshot :=
  if s.totalRewards < 0 then .error (belowZero "SLAAnalyticsSnapshot" "total_rewards")
  else if s.totalPenalties < 0 then .error (belowZero "SLAAnalyticsSnapshot" "total_penalties")
  else if s.avgMttr < 0 then .error (belowZero "SLAAnalyticsSnapshot" "avg_mttr")
  else .ok ⟨s.id, s.snapshotKey, s.totalOutages, s.totalViolations, s.totalRewards, s.totalPenalties,
    s.netPayout, s.avgMttr, s.checksum, s.createdAt.time.str⟩

/-- The live aggregates a snapshot is made of. -/
def liveAggregates (env : SnapshotEnv) (db : AnalyticsTables) (now : DateTime) :
    Outcome (DashboardKPI × PerformanceAggregation) :=
  match aggregateDashboardKpis env.rounded db now.ticks none none with
  | .error e => .error e
  | .ok kpis =>
      match aggregatePerformance env.rounded db now.ticks none none none none with
      | .error e => .error e
      | .ok perf => .ok (kpis, perf)

/-- The object before its checksum is set. -/
def freshSnapshot (id : ℕ) (snapshotKey : String) (now : DateTime) (kpis : DashboardKPI)
    (perf : PerformanceAggregation) : SnapshotORM :=
  ⟨id, snapshotKey, kpis.totalOutages, kpis.totalViolations, kpis.totalRewards, kpis.totalPenalties,
    kpis.netPayout, perf.avgMttr, "", ⟨now, false⟩⟩

/-- The body of `create_snapshot` and of `rebuild_snapshot`: the checksum is set on the object, then the
row is inserted and read again. -/
def materialize (env : SnapshotEnv) (db : AnalyticsTables) (now : DateTime) (snapshotKey : String)
    (t : SnapshotTable) : Outcome AnalyticsSnapshot × SnapshotTable :=
  match liveAggregates env db now with
  | .error e => (.error e, t)
  | .ok (kpis, perf) =>
      let fresh := freshSnapshot t.nextId snapshotKey now kpis perf
      let stored := { fresh with checksum := computeChecksum env fresh }.reload
      (stored.toSnapshot, ⟨t.rows ++ [stored], t.nextId + 1⟩)

/-- `create_snapshot`. -/
def createSnapshot (env : SnapshotEnv) (db : AnalyticsTables) (now : DateTime) (snapshotKey : String)
    (t : SnapshotTable) : Outcome AnalyticsSnapshot × SnapshotTable :=
  materialize env db now snapshotKey t

/-- `rebuild_snapshot`. -/
def rebuildSnapshot (env : SnapshotEnv) (db : AnalyticsTables) (now : DateTime) (snapshotKey : String)
    (t : SnapshotTable) : Outcome AnalyticsSnapshot × SnapshotTable :=
  materialize env db now snapshotKey t

/-- The row with the key that was created last. -/
def latestSnapshot (snapshotKey : String) (t : SnapshotTable) : Option SnapshotORM :=
  ((t.rows.filter (·.snapshotKey = snapshotKey)).insertionSort
    fun a b => b.createdAt.time.ticks ≤ a.createdAt.time.ticks).head?

/-- What `verify_snapshot_integrity` returns. -/
structure Integrity where
  valid : Bool
  snapshotId : Option ℕ
  error : Option String
deriving DecidableEq, Repr

/-- `verify_snapshot_integrity`. -/
def verifySnapshotIntegrity (env : SnapshotEnv) (snapshotKey : String) (t : SnapshotTable) :
    Integrity :=
  match latestSnapshot snapshotKey t with
  | none => ⟨false, none, some "No snapshot found"⟩
  | some orm =>
      if computeChecksum env orm = orm.checksum then ⟨true, some orm.id, none⟩
      else ⟨false, some orm.id, some "Checksum mismatch - snapshot may have been tampered with"⟩

/-- `get_latest_snapshot`. -/
def getLatestSnapshot (snapshotKey : String) (t : SnapshotTable) : Outcome (Option AnalyticsSnapshot) :=
  match latestSnapshot snapshotKey t with
  | none => .ok none
  | some orm =>
      match orm.toSnapshot with
      | .error e => .error e
      | .ok snapshot => .ok (some snapshot)

/-- The six aggregates as the report lists them. -/
structure SnapshotData where
  totalOutages : ℕ
  totalViolations : ℕ
  totalRewards : ℚ
  totalPenalties : ℚ
  netPayout : ℚ
  avgMttr : ℚ
deriving DecidableEq, Repr

/-- An entry of `differences`. -/
structure Difference where
  field : String
  snapshot : ℚ
  live : ℚ
  diff : ℚ
deriving DecidableEq, Repr

/-- What `reconcile_snapshots` returns. -/
structure ReconciliationReport where
  snapshotKey : String
  snapshotId : Option ℕ
  snapshotCreatedAt : Option String
  driftDetected : Bool
  recommendation : String
  differences : Option (List Difference)
  currentLiveData : SnapshotData
  snapshotData : Option SnapshotData
deriving DecidableEq, Repr

/-- The aggregates of a snapshot. -/
def AnalyticsSnapshot.data (s : AnalyticsSnapshot) : SnapshotData :=
  ⟨s.totalOutages, s.totalViolations, s.totalRewards, s.totalPenalties, s.netPayout, s.avgMttr⟩

/-- The current aggregates. -/
def liveData (kpis : DashboardKPI) (perf : PerformanceAggregation) : SnapshotData :=
  ⟨kpis.totalOutages, kpis.totalViolations, kpis.totalRewards, kpis.totalPenalties, kpis.netPayout,
    perf.avgMttr⟩

/-- A field that differs, exactly or by more than a hundredth. -/
def difference (env : SnapshotEnv) (field : String) (tolerance snapshot live : ℚ) : Option Difference :=
  if tolerance < |snapshot - live| then
    some ⟨field, snapshot, live, env.rounded 2 (live - snapshot)⟩
  else none

/-- The fields that differ; the differences of the counts are not rounded. -/
def differencesOf (env : SnapshotEnv) (snapshot live : SnapshotData) : List Difference :=
  [difference { env with rounded := exact } "total_outages" 0 snapshot.totalOutages live.totalOutages,
    difference { env with rounded := exact } "total_violations" 0 snapshot.totalViolations
      live.totalViolations,
    difference env "total_rewards" 0 snapshot.totalRewards live.totalRewards,
    difference env "total_penalties" 0 snapshot.totalPenalties live.totalPenalties,
    difference env "net_payout" (1 / 100) snapshot.netPayout live.netPayout,
    difference env "avg_mttr" (1 / 100) snapshot.avgMttr live.avgMttr].reduceOption

/-- `reconcile_snapshots`. -/
def reconcileSnapshots (env : SnapshotEnv) (db : AnalyticsTables) (now : DateTime)
    (snapshotKey : String) (t : SnapshotTable) : Outcome ReconciliationReport :=
  match getLatestSnapshot snapshotKey t with
  | .error e => .error e
  | .ok latest =>
      match liveAggregates env db now with
      | .error e => .error e
      | .ok (kpis, perf) =>
          let live := liveData kpis perf
          match latest with
          | none => .ok ⟨snapshotKey, none, none, false, "rebuild", none, live, none⟩
          | some snapshot =>
              let differences := differencesOf env snapshot.data live
              let drift : Bool := !differences.isEmpty
              .ok ⟨snapshotKey, some snapshot.id, some snapshot.createdAt, drift,
                if drift then "rebuild" else "ok", if drift then some differences else none, live,
                some snapshot.data⟩

/-- A call of `create_snapshot` or `rebuild_snapshot`, with the tables and the time it finds. -/
structure SnapshotCall where
  rebuild : Bool
  snapshotKey : String
  db : AnalyticsTables
  now : DateTime

/-- Run one call. -/
def SnapshotCall.exec (env : SnapshotEnv) (c : SnapshotCall) (t : SnapshotTable) :
    Outcome AnalyticsSnapshot × SnapshotTable :=
  if c.rebuild then rebuildSnapshot env c.db c.now c.snapshotKey t
  else createSnapshot env c.db c.now c.snapshotKey t

/-- Run calls one after another. -/
def execSnapshots (env : SnapshotEnv) (t : SnapshotTable) : List SnapshotCall → SnapshotTable
  | [] => t
  | c :: cs => execSnapshots env (c.exec env t).2 cs

/-! ## The checksum of a row that was read -/

/-- A written string tells where it ends. -/
theorem quoteAscii_append_inj {a b : String} {rest rest' : List Char}
    (h : quoteAscii a ++ rest = quoteAscii b ++ rest') : a = b := by
  have hread := readValue_quoteAscii a 0 rest
  rw [h, readValue_quoteAscii b 0 rest', Option.some.injEq, Prod.mk.injEq] at hread
  exact (JsonValue.str.inj hread.1).symm

variable {env : SnapshotEnv}

theorem computeChecksum_reload_ne (hsha : Function.Injective env.sha256) {s : SnapshotORM}
    (hnaive : s.createdAt.aware = false) (checksum : String) :
    computeChecksum env { s with checksum := checksum }.reload ≠ computeChecksum env s := by
  intro h
  have htext : checksumText env { s with checksum := checksum }.reload = checksumText env s := hsha h
  have hchars : checksumStart env s ++
        (quoteAscii (Stamp.mk s.createdAt.time true).isoformat ++ checksumEnd env s) =
      checksumStart env s ++ (quoteAscii s.createdAt.isoformat ++ checksumEnd env s) :=
    String.ofList_injective htext
  have hiso := quoteAscii_append_inj (List.append_cancel_left hchars)
  have hstamp : s.createdAt = ⟨s.createdAt.time, false⟩ := by
    cases hs : s.createdAt
    simp_all
  -- only the zone of the time differs
  rw [hstamp] at hiso
  exact isoformat_aware_ne s.createdAt.time hiso

/-! ## The row just written is the latest -/

/-- Sorting in descending order puts a greatest last element first. -/
theorem insertionSort_append_max {rows : List SnapshotORM} {x : SnapshotORM}
    (h : ∀ r ∈ rows, r.createdAt.time.ticks < x.createdAt.time.ticks) :
    (rows ++ [x]).insertionSort (fun a b => b.createdAt.time.ticks ≤ a.createdAt.time.ticks) =
      x :: rows.insertionSort fun a b => b.createdAt.time.ticks ≤ a.createdAt.time.ticks := by
  induction rows with
  | nil => rfl
  | cons r rows ih =>
      have hlt := h r List.mem_cons_self
      rw [List.cons_append, List.insertionSort_cons, ih fun y hy => h y (List.mem_cons_of_mem _ hy),
        List.orderedInsert, if_neg (not_le.mpr hlt), List.insertionSort_cons]

theorem latestSnapshot_append {t : SnapshotTable} {x : SnapshotORM} {n : ℕ}
    (h : ∀ r ∈ t.rows, r.createdAt.time.ticks < x.createdAt.time.ticks) :
    latestSnapshot x.snapshotKey ⟨t.rows ++ [x], n⟩ = some x := by
  have hsingle : [x].filter (·.snapshotKey = x.snapshotKey) = [x] := by simp
  unfold latestSnapshot
  rw [List.filter_append, hsingle, insertionSort_append_max, List.head?_cons]
  exact fun r hr => h r (List.mem_of_mem_filter hr)

/-- Creating and rebuilding are the same. -/
theorem exec_eq_materialize (c : SnapshotCall) (t : SnapshotTable) :
    c.exec env t = materialize env c.db c.now c.snapshotKey t := by
  unfold SnapshotCall.exec
  split_ifs <;> rfl

/-- The times of the rows are the times of the calls. -/
theorem time_of_mem_execSnapshots {cs : List SnapshotCall} {t : SnapshotTable} {r : SnapshotORM}
    (hr : r ∈ (execSnapshots env t cs).rows) :
    r ∈ t.rows ∨ ∃ c ∈ cs, r.createdAt.time = c.now := by
  induction cs generalizing t with
  | nil => exact .inl hr
  | cons c cs ih =>
      rcases ih hr with hmem | ⟨c', hc', htime⟩
      · have hrows : r ∈ t.rows ∨ r.createdAt.time = c.now := by
          rw [exec_eq_materialize, materialize] at hmem
          split at hmem
          · exact .inl hmem
          · rcases List.mem_append.mp hmem with hold | hnew
            · exact .inl hold
            · exact .inr (by rw [List.mem_singleton.mp hnew]; rfl)
        rcases hrows with hold | htime
        · exact .inl hold
        · exact .inr ⟨c, List.mem_cons_self, htime⟩
      · exact .inr ⟨c', List.mem_cons_of_mem _ hc', htime⟩

/-- A call that succeeded has inserted a row made of the live aggregates. -/
theorem exec_eq_ok {c : SnapshotCall} {t : SnapshotTable} {snapshot : AnalyticsSnapshot}
    (h : (c.exec env t).1 = .ok snapshot) :
    ∃ kpis perf stored, liveAggregates env c.db c.now = .ok (kpis, perf) ∧
      stored = { freshSnapshot t.nextId c.snapshotKey c.now kpis perf with
        checksum := computeChecksum env (freshSnapshot t.nextId c.snapshotKey c.now kpis perf) }.reload ∧
      stored.toSnapshot = .ok snapshot ∧ (c.exec env t).2 = ⟨t.rows ++ [stored], t.nextId + 1⟩ := by
  rw [exec_eq_materialize] at h ⊢
  unfold materialize at h ⊢
  cases hlive : liveAggregates env c.db c.now with
  | error e =>
      rw [hlive] at h
      cases h
  | ok aggregates =>
      rw [hlive] at h
      exact ⟨aggregates.1, aggregates.2, _, rfl, rfl, h, rfl⟩

theorem toSnapshot_eq_ok {s : SnapshotORM} {snapshot : AnalyticsSnapshot}
    (h : s.toSnapshot = .ok snapshot) :
    snapshot = ⟨s.id, s.snapshotKey, s.totalOutages, s.totalViolations, s.totalRewards,
      s.totalPenalties, s.netPayout, s.avgMttr, s.checksum, s.createdAt.time.str⟩ := by
  unfold SnapshotORM.toSnapshot at h
  split_ifs at h
  exact (Outcome.ok.inj h).symm

/-- Aggregates that are not negative make a snapshot. -/
theorem materialize_isOk {db : AnalyticsTables} {now : DateTime} {snapshotKey : String}
    {t : SnapshotTable} {kpis : DashboardKPI} {perf : PerformanceAggregation}
    (hlive : liveAggregates env db now = .ok (kpis, perf)) (hrewards : 0 ≤ kpis.totalRewards)
    (hpenalties : 0 ≤ kpis.totalPenalties) (havg : 0 ≤ perf.avgMttr) :
    ∃ snapshot, (materialize env db now snapshotKey t).1 = .ok snapshot := by
  simp only [materialize, hlive, SnapshotORM.toSnapshot, SnapshotORM.reload, freshSnapshot,
    not_lt.mpr hrewards, not_lt.mpr hpenalties, not_lt.mpr havg, if_false]
  exact ⟨_, rfl⟩

theorem differencesOf_self (env : SnapshotEnv) (d : SnapshotData) : differencesOf env d d = [] := by
  have hnone : ∀ (env : SnapshotEnv) (field : String) (tolerance x : ℚ), 0 ≤ tolerance →
      difference env field tolerance x x = none := by
    intro env field tolerance x htolerance
    rw [difference, sub_self, abs_zero, if_neg (not_lt.mpr htolerance)]
  simp [differencesOf, hnone, List.reduceOption]

/-! ## Verification and reconciliation after a call -/

/-- What a verification of the row just written comes to, and a reconciliation at the same time. -/
theorem verify_of_written (hsha : Function.Injective env.sha256) {c : SnapshotCall} {t : SnapshotTable}
    {snapshot : AnalyticsSnapshot} (htimes : ∀ r ∈ t.rows, r.createdAt.time.ticks < c.now.ticks)
    (h : (c.exec env t).1 = .ok snapshot) :
    verifySnapshotIntegrity env c.snapshotKey (c.exec env t).2 =
        ⟨false, some snapshot.id, some "Checksum mismatch - snapshot may have been tampered with"⟩ ∧
      ∃ report, reconcileSnapshots env c.db c.now c.snapshotKey (c.exec env t).2 = .ok report ∧
        report.snapshotId = some snapshot.id ∧ report.driftDetected = false := by
  obtain ⟨kpis, perf, stored, hlive, hstored, hmodel, htable⟩ := exec_eq_ok h
  have hkey : stored.snapshotKey = c.snapshotKey := by rw [hstored]; rfl
  have htime : stored.createdAt.time = c.now := by rw [hstored]; rfl
  have hlatest : latestSnapshot c.snapshotKey (c.exec env t).2 = some stored := by
    rw [htable, ← hkey]
    exact latestSnapshot_append (by rwa [htime])
  have hsnapshot := toSnapshot_eq_ok hmodel
  constructor
  · have hne : computeChecksum env stored ≠ stored.checksum := by
      rw [hstored]
      exact computeChecksum_reload_ne hsha rfl _
    have hid : snapshot.id = stored.id := by rw [hsnapshot]
    simp only [verifySnapshotIntegrity, hlatest, if_neg hne, hid]
  · have hdata : snapshot.data = liveData kpis perf := by
      rw [hsnapshot, hstored]
      rfl
    refine ⟨⟨c.snapshotKey, some snapshot.id, some snapshot.createdAt, false, "ok", none,
      liveData kpis perf, some snapshot.data⟩, ?_, rfl, rfl⟩
    simp only [reconcileSnapshots, getLatestSnapshot, hlatest, hmodel, hlive, hdata, differencesOf_self]
    rfl

/-- Changing the stored aggregates of the latest row leaves it to be found, with its checksum. -/
def setAggregates (id : ℕ) (d : SnapshotData) (t : SnapshotTable) : SnapshotTable :=
  { t with
    rows := updateKey SnapshotORM.id id (fun r => { r with
      totalOutages := d.totalOutages
      totalViolations := d.totalViolations
      totalRewards := d.totalRewards
      totalPenalties := d.totalPenalties
      netPayout := d.netPayout
      avgMttr := d.avgMttr }) t.rows }

/-- What is claimed of a verification and a reconciliation right after a call. -/
structure SnapshotSound (env : SnapshotEnv) (c : SnapshotCall) (snapshot : AnalyticsSnapshot)
    (t : SnapshotTable) : Prop where
  valid : (verifySnapshotIntegrity env c.snapshotKey t).valid = true
  noDrift : ∃ report, reconcileSnapshots env c.db c.now c.snapshotKey t = .ok report ∧
    report.driftDetected = false
  tampered : ∀ d, d ≠ snapshot.data →
    (verifySnapshotIntegrity env c.snapshotKey (setAggregates snapshot.id d t)).valid = false

/-- After every sequence of calls at increasing times, the row that the last one wrote fails its
verification, although it has not drifted. -/
theorem written_snapshot_fails_verification (env : SnapshotEnv)
    (hsha : Function.Injective env.sha256) (cs : List SnapshotCall) (c : SnapshotCall)
    (htimes : (cs ++ [c]).Pairwise (·.now.ticks < ·.now.ticks)) (snapshot : AnalyticsSnapshot)
    (h : (c.exec env (execSnapshots env .empty cs)).1 = .ok snapshot) :
    ¬ SnapshotSound env c snapshot (c.exec env (execSnapshots env .empty cs)).2 ∧
      verifySnapshotIntegrity env c.snapshotKey (c.exec env (execSnapshots env .empty cs)).2 =
        ⟨false, some snapshot.id, some "Checksum mismatch - snapshot may have been tampered with"⟩ ∧
      ∃ report, reconcileSnapshots env c.db c.now c.snapshotKey
          (c.exec env (execSnapshots env .empty cs)).2 = .ok report ∧
        report.snapshotId = some snapshot.id ∧ report.driftDetected = false := by
  -- the row just written is the youngest
  have hearlier : ∀ r ∈ (execSnapshots env .empty cs).rows, r.createdAt.time.ticks < c.now.ticks := by
    intro r hr
    rcases time_of_mem_execSnapshots hr with hnone | ⟨c', hc', htime⟩
    · cases hnone
    · rw [htime]
      exact (List.pairwise_append.mp htimes).2.2 c' hc' c (List.mem_singleton_self c)
  have hverify := verify_of_written hsha hearlier h
  refine ⟨fun hsound => ?_, hverify⟩
  have hvalid := hsound.valid
  rw [hverify.1] at hvalid
  cases hvalid

/-- Identities for the digest and the rounding. -/
def plainEnv : SnapshotEnv := ⟨id, fun x => toString x.num ++ "/" ++ toString x.den, exact⟩

theorem valid_snapshotTime : DateTime.Valid 2026 1 2 3 4 5 6 := by decide

/-- The two results, created at the time of the snapshot. -/
def recentTables : AnalyticsTables :=
  { sampleTables with
    results := sampleTables.results.map fun r =>
      { r with createdAt := (DateTime.ofValid valid_snapshotTime).ticks } }

/-- A snapshot of the two results. -/
def sampleSnapshot : SnapshotCall := ⟨false, "global", recentTables, .ofValid valid_snapshotTime⟩

theorem exists_sampleSnapshot :
    ∃ snapshot, (sampleSnapshot.exec plainEnv .empty).1 = .ok snapshot := by
  have hone : ∀ outageId, recentTables.results.countP (latestOf outageId) ≤ 1 :=
    countP_latestOf_le_one (by decide)
  have hlinked : Linked recentTables := by decide
  have hsigned : Signed recentTables.results := by decide
  have hrows : currentResults recentTables (DateTime.ofValid valid_snapshotTime).ticks none none =
      recentTables.results := by decide
  have hmttr : 0 ≤ averageMttr recentTables.results := by
    norm_num [averageMttr, recentTables, sampleTables, latestRow]
  have hkpis : aggregateDashboardKpis plainEnv.rounded recentTables
      (DateTime.ofValid valid_snapshotTime).ticks none none = kpisOf exact recentTables.results := by
    rw [aggregateDashboardKpis, scannedResults_eq hlinked, hrows]
    rfl
  have hperf : aggregatePerformance plainEnv.rounded recentTables
      (DateTime.ofValid valid_snapshotTime).ticks none none none none =
        performanceOf exact recentTables.results := by
    rw [aggregatePerformance, performanceResults_eq hone, hrows]
    rfl
  have hlive : liveAggregates plainEnv sampleSnapshot.db sampleSnapshot.now = .ok
      (⟨2, 1, 200, 100, 100⟩, ⟨2, 1 / 2, 40, 100⟩) := by
    simp only [liveAggregates, sampleSnapshot, hkpis, hperf, kpisOf_eq hsigned, performanceOf_eq hmttr]
    simp [recentTables, sampleTables, latestRow, violatedCase, rewardCase, penaltyCase, averageMttr]
    norm_num
  exact materialize_isOk hlive (by norm_num) (by norm_num) (by norm_num)

theorem written_snapshot_fails_verification_sample : ∃ snapshot,
    ¬ SnapshotSound plainEnv sampleSnapshot snapshot (sampleSnapshot.exec plainEnv .empty).2 := by
  obtain ⟨snapshot, h⟩ := exists_sampleSnapshot
  exact ⟨snapshot, (written_snapshot_fails_verification plainEnv Function.injective_id [] sampleSnapshot
    (List.pairwise_singleton _ _) snapshot h).1⟩

/-- A first snapshot is reported as tampered with. -/
theorem first_snapshot_reported_tampered :
    Function.Injective plainEnv.sha256 ∧
      ∃ snapshot, (sampleSnapshot.exec plainEnv .empty).1 = .ok snapshot ∧
        (verifySnapshotIntegrity plainEnv "global" (sampleSnapshot.exec plainEnv .empty).2).valid =
          false := by
  obtain ⟨snapshot, h⟩ := exists_sampleSnapshot
  refine ⟨Function.injective_id, snapshot, h, ?_⟩
  have hnone : ∀ r ∈ SnapshotTable.empty.rows,
      r.createdAt.time.ticks < sampleSnapshot.now.ticks := fun r hr => absurd hr List.not_mem_nil
  exact congrArg Integrity.valid (verify_of_written Function.injective_id hnone h).1

end ApexChainx.Sla
