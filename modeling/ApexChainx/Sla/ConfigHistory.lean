import ApexChainx.Lib.JsonOrder
import ApexChainx.Lib.Transition

/-!
# The history of SLA configurations

`SlaConfigHistoryService.recordChange` with `computeDiff` (`src/sla-config-history`), cut at the three
statements of a call: the latest version is read, its number is read again, and the new version is inserted
under `UNIQUE (config_id, version)`. Any number of calls may be between their statements, and a statement
may fail.

The `jsonb` columns hold what is read back from them; `id` and `changed_at` decide nothing here and are left
out. The unique constraint keeps the numbers contiguous under any interleaving, but nothing ties the diff to
the version before: it is computed against the version that was read. Even so it says less than what has
changed where a key is removed, for it writes `null` for an absent value, and more where an equal value is
written with its members in another order than the one in which it is read back.
-/

namespace ApexChainx.Sla.ConfigHistory

open ApexChainx.Lib

/-! ## Snapshots and diffs -/

/-- `ConfigMap`: an object. -/
structure ConfigMap where
  members : List (String × Json)
  nodup : (members.map Prod.fst).Nodup

namespace ConfigMap

/-- The value of an own property. -/
def get (c : ConfigMap) (key : String) : Option Json := (c.members.find? (·.1 = key)).map (·.2)

/-- `Object.keys`. -/
def keys (c : ConfigMap) : List String := c.members.map (·.1)

def empty : ConfigMap := ⟨[], .nil⟩

/-- A snapshot after it went through its column. -/
def readBack (c : ConfigMap) : ConfigMap where
  members := c.members.map fun m => (m.1, m.2.readBack)
  nodup := by
    rw [List.map_map]
    exact c.nodup

end ConfigMap

/-- What `config[key]` gives: an own property, or what `Object.prototype` has. -/
inductive Looked
  | own (v : Json)
  | undefined
  | method
  | objectPrototype

/-- The functions of `Object.prototype`. -/
def prototypeMethods : List String :=
  ["constructor", "hasOwnProperty", "isPrototypeOf", "propertyIsEnumerable", "toLocaleString", "toString",
    "valueOf", "__defineGetter__", "__defineSetter__", "__lookupGetter__", "__lookupSetter__"]

/-- `config[key]`. -/
def ConfigMap.look (c : ConfigMap) (key : String) : Looked :=
  match c.get key with
  | some v => .own v
  | none =>
      if key = "__proto__" then .objectPrototype
      else if key ∈ prototypeMethods then .method
      else .undefined

/-- `JSON.stringify(value)`. -/
def Looked.stringify : Looked → Option String
  | .own v => some v.text
  | .undefined => none
  | .method => none
  | .objectPrototype => some (Json.obj []).text

/-- What `JSON.stringify` writes for a property with the value `value ?? null`; a function is left out. -/
def Looked.member : Looked → Option Json
  | .own v => some v
  | .undefined => some .null
  | .method => none
  | .objectPrototype => some (.obj [])

/-- An entry of a diff: what it has under `from` and under `to`. -/
structure Entry where
  fromValue : Option Json
  toValue : Option Json

/-- The own properties of a diff. -/
abbrev Diff : Type := List (String × Entry)

/-- The body of the loop of `computeDiff`. An assignment to `diff["__proto__"]` makes no property. -/
def diffEntry (previous next : ConfigMap) (key : String) : Option Entry :=
  let prev := previous.look key
  let curr := next.look key
  if prev.stringify = curr.stringify then none
  else if key = "__proto__" then none
  else some ⟨prev.member, curr.member⟩

/-- `computeDiff`. -/
def computeDiff (previous next : ConfigMap) : Diff :=
  (previous.keys ++ next.keys).eraseDups.filterMap fun key =>
    (diffEntry previous next key).map fun e => (key, e)

/-- An entry after it went through its column. -/
def Entry.readBack (e : Entry) : Entry := ⟨e.fromValue.map Json.readBack, e.toValue.map Json.readBack⟩

def Diff.readBack (d : Diff) : Diff := d.map fun m => (m.1, m.2.readBack)

/-- The entry of a key. -/
def Diff.get (d : Diff) (key : String) : Option Entry := (d.find? (·.1 = key)).map (·.2)

/-! ## The table and the calls -/

/-- A row of `sla_config_versions`. -/
structure SlaConfigVersion where
  configId : String
  version : ℕ
  changedBy : String
  configSnapshot : ConfigMap
  diff : Diff
  changeReason : Option String

/-- `RecordConfigChangeInput`. -/
structure RecordConfigChangeInput where
  configId : String
  changedBy : String
  newConfig : ConfigMap
  changeReason : Option String

/-- The rows of one config, in the order in which they were inserted. -/
def history (configId : String) (rows : List SlaConfigVersion) : List SlaConfigVersion :=
  rows.filter fun r => r.configId = configId

/-- `getLatestVersion`. -/
def getLatestVersion (configId : String) (rows : List SlaConfigVersion) : ℕ :=
  ((history configId rows).map SlaConfigVersion.version).foldr max 0

/-- `findLatest`. -/
def findLatest (configId : String) (rows : List SlaConfigVersion) : Option SlaConfigVersion :=
  (history configId rows).find? fun r => r.version = getLatestVersion configId rows

/-- The statement a call executes next, with what it has read and computed so far. -/
inductive Pc
  | findLatest (input : RecordConfigChangeInput)
  | getLatestVersion (input : RecordConfigChangeInput) (previous : ConfigMap) (diff : Diff)
  | insert (input : RecordConfigChangeInput) (previous : ConfigMap) (diff : Diff) (nextVersion : ℕ)
  | done (created : Option SlaConfigVersion)

/-- The table with the calls on it. -/
structure Sys where
  rows : List SlaConfigVersion
  calls : ℕ → Option Pc

def Sys.goOn (s : Sys) (i : ℕ) (pc : Pc) : Sys := { s with calls := Function.update s.calls i (some pc) }

/-- The columns take the row: the lengths, the range of an `INTEGER`, and the unique constraint. -/
def accepts (rows : List SlaConfigVersion) (input : RecordConfigChangeInput) (version : ℕ) : Bool :=
  decide (input.configId.length ≤ 255 ∧ input.changedBy.length ≤ 255 ∧ version < 2 ^ 31) &&
    rows.all fun r => !(r.configId = input.configId && r.version = version)

/-- The row that is inserted. -/
def newRow (input : RecordConfigChangeInput) (diff : Diff) (version : ℕ) : SlaConfigVersion where
  configId := input.configId
  version := version
  changedBy := input.changedBy
  configSnapshot := input.newConfig.readBack
  diff := diff.readBack
  changeReason := input.changeReason

/-- One statement of a call. -/
def advance (s : Sys) (i : ℕ) : Pc → Option Sys
  | .findLatest input =>
      let previous := ((findLatest input.configId s.rows).map (·.configSnapshot)).getD .empty
      some (s.goOn i (.getLatestVersion input previous (computeDiff previous input.newConfig)))
  | .getLatestVersion input previous diff =>
      some (s.goOn i (.insert input previous diff (getLatestVersion input.configId s.rows + 1)))
  | .insert input _ diff nextVersion =>
      if accepts s.rows input nextVersion then
        let row := newRow input diff nextVersion
        some ({ s with rows := s.rows ++ [row] }.goOn i (.done (some row)))
      else some (s.goOn i (.done none))
  | .done _ => none

/-- A call of `recordChange` begins, executes its next statement, or fails at it. -/
inductive Action
  | begin (i : ℕ) (input : RecordConfigChangeInput)
  | move (i : ℕ)
  | fail (i : ℕ)

/-- The interleaving semantics. -/
def step (s : Sys) : Action → Option Sys
  | .begin i input => if (s.calls i).isNone then some (s.goOn i (.findLatest input)) else none
  | .move i =>
      match s.calls i with
      | none => none
      | some pc => advance s i pc
  | .fail i => if (s.calls i).isSome then some (s.goOn i (.done none)) else none

def Sys.init : Sys := ⟨[], fun _ => none⟩

/-! ## What a history says -/

/-- A config as what it has under each key. -/
abbrev Contents : Type := String → Option Json

/-- The diff is the difference of the snapshots: it has an entry for the keys that differ and for no other,
with the two values. An absent value is `null` in an entry. -/
def Exact (previous next : Contents) (diff : Diff) : Prop :=
  ∀ key,
    match diff.get key with
    | none => previous key = next key
    | some e => previous key ≠ next key ∧ e.fromValue.getD .null = (previous key).getD .null ∧
        e.toValue.getD .null = (next key).getD .null

/-- A diff applied to a config: the keys it has are set to the new values. -/
def replay (config : Contents) (diff : Diff) : Contents := fun key =>
  match diff.get key with
  | none => config key
  | some e => some (e.toValue.getD .null)

/-- The diffs of a history applied in order, from the empty config. -/
def replayAll (rs : List SlaConfigVersion) : Contents :=
  rs.foldl (fun config r => replay config r.diff) fun _ => none

/-- The snapshot of the last of the versions, empty before the first. -/
def lastSnapshot (rs : List SlaConfigVersion) : ConfigMap := (rs.getLast?.map (·.configSnapshot)).getD .empty

/-- Versions count from one without a gap. -/
def Contiguous (h : List SlaConfigVersion) : Prop := h.map (·.version) = List.range' 1 h.length

/-- Versions are distinct and contiguous; every diff is the difference to the version before, and the
diffs up to a version give its snapshot. -/
structure Lawful (rows : List SlaConfigVersion) : Prop where
  versions : ∀ configId, Contiguous (history configId rows)
  exact : ∀ configId rs r, rs ++ [r] <+: history configId rows →
    Exact (lastSnapshot rs).get r.configSnapshot.get r.diff
  replayed : ∀ configId rs r, rs ++ [r] <+: history configId rows →
    replayAll (rs ++ [r]) = r.configSnapshot.get

/-- What the new config may be where `latest` is the snapshot of the version before and `previous` the one
that was read, for the diff to say what has changed. -/
structure Replayable (latest previous new : ConfigMap) : Prop where
  /-- The version before has the value that was read, if `null` and an absent key are taken as one. -/
  read : ∀ key, key ≠ "__proto__" → (previous.get key).getD .null = (latest.get key).getD .null
  /-- A key that the new config leaves as it was read is so in the version before. -/
  unchanged : ∀ key, key ≠ "__proto__" → previous.get key = new.get key → latest.get key = new.get key
  /-- No key is removed. -/
  kept : ∀ key, key ≠ "__proto__" → new.get key = none → previous.get key = none
  /-- A value that is written in another way than the old one is another value. -/
  ordered : ∀ key v, key ≠ "__proto__" → new.get key = some v → latest.get key = some v.readBack →
    previous.get key = some v
  /-- `__proto__` is left alone. -/
  proto : latest.get "__proto__" = (new.get "__proto__").map Json.readBack

/-- An insert that is accepted records a change that its diff says. -/
def Recorded (s : Sys) : Action → Prop
  | .move i =>
      match s.calls i with
      | some (.insert input previous _ nextVersion) => accepts s.rows input nextVersion = true →
          Replayable (lastSnapshot (history input.configId s.rows)) previous input.newConfig
      | _ => True
  | _ => True

/-! ## What a diff has under a key -/

section Keys

variable {previous next latest : ConfigMap} {key : String}

theorem ConfigMap.get_readBack (c : ConfigMap) (key : String) :
    c.readBack.get key = (c.get key).map Json.readBack := by
  simp only [get, readBack, List.find?_map, Option.map_map]
  rfl

theorem ConfigMap.get_eq_none_of_not_mem {c : ConfigMap} (h : key ∉ c.keys) : c.get key = none := by
  rw [get, Option.map_eq_none_iff, List.find?_eq_none]
  intro m hm hkey
  exact h (List.mem_map.mpr ⟨m, hm, of_decide_eq_true hkey⟩)

theorem stringify_look_eq_iff (hkey : key ≠ "__proto__") :
    (previous.look key).stringify = (next.look key).stringify ↔ previous.get key = next.get key := by
  have habsent : ∀ c : ConfigMap, c.get key = none → (c.look key).stringify = none := by
    intro c hc
    simp only [ConfigMap.look, hc, hkey, if_false]
    split <;> rfl
  have hpresent : ∀ (c : ConfigMap) v, c.get key = some v → (c.look key).stringify = some v.text := by
    intro c v hc
    simp only [ConfigMap.look, hc, Looked.stringify]
  cases hp : previous.get key with
  | none =>
      cases hn : next.get key with
      | none => simp [habsent previous hp, habsent next hn]
      | some w => simp [habsent previous hp, hpresent next w hn]
  | some v =>
      cases hn : next.get key with
      | none => simp [hpresent previous v hp, habsent next hn]
      | some w =>
          rw [hpresent previous v hp, hpresent next w hn, Option.some.injEq, Option.some.injEq]
          exact ⟨fun h => Json.text_injective h, fun h => by rw [h]⟩

/-- What an entry says of a value: `null` where there is none. -/
theorem getD_member_look (hkey : key ≠ "__proto__") (c : ConfigMap) :
    (c.look key).member.getD .null = (c.get key).getD .null := by
  unfold ConfigMap.look
  cases c.get key with
  | some v => rfl
  | none =>
      simp only [hkey, if_false]
      split <;> rfl

theorem diffEntry_proto : diffEntry previous next "__proto__" = none := by
  simp only [diffEntry, if_true, ite_self]

theorem diffEntry_of_eq (hkey : key ≠ "__proto__") (h : previous.get key = next.get key) :
    diffEntry previous next key = none := by
  rw [diffEntry, if_pos ((stringify_look_eq_iff hkey).mpr h)]

theorem diffEntry_of_ne (hkey : key ≠ "__proto__") (h : previous.get key ≠ next.get key) :
    diffEntry previous next key = some ⟨(previous.look key).member, (next.look key).member⟩ := by
  rw [diffEntry, if_neg fun heq => h ((stringify_look_eq_iff hkey).mp heq), if_neg hkey]

theorem get_filterMap (f : String → Option Entry) (keys : List String) :
    Diff.get (keys.filterMap fun k => (f k).map fun e => (k, e)) key = if key ∈ keys then f key else none := by
  induction keys with
  | nil => rfl
  | cons k keys ih =>
      simp only [List.filterMap_cons, List.mem_cons]
      cases hf : f k with
      | none =>
          simp only [Option.map_none]
          rw [ih]
          by_cases hk : key = k
          · subst hk
            simp [hf]
          · simp [hk]
      | some e =>
          simp only [Option.map_some, Diff.get, List.find?_cons]
          by_cases hk : key = k
          · subst hk
            simp [hf]
          · have hne : decide (k = key) = false := decide_eq_false fun h => hk h.symm
            simp only [hne, hk, false_or]
            exact ih

theorem get_computeDiff : (computeDiff previous next).get key = diffEntry previous next key := by
  rw [computeDiff, get_filterMap]
  split
  · rfl
  · rename_i hmem
    rw [List.mem_eraseDups, List.mem_append, not_or] at hmem
    by_cases hkey : key = "__proto__"
    · rw [hkey, diffEntry_proto]
    · rw [diffEntry_of_eq hkey]
      rw [ConfigMap.get_eq_none_of_not_mem hmem.1, ConfigMap.get_eq_none_of_not_mem hmem.2]

theorem Diff.get_readBack (d : Diff) (key : String) : d.readBack.get key = (d.get key).map Entry.readBack := by
  simp only [get, readBack, List.find?_map, Option.map_map]
  rfl

theorem getD_readBack (v : Option Json) : (v.map Json.readBack).getD .null = (v.getD .null).readBack := by
  cases v with
  | none => rfl
  | some v => rfl

end Keys

/-! ## Changes that their diff says -/

/-- The snapshot came out of its column. -/
def Canonical (c : ConfigMap) : Prop := ∀ key v, c.get key = some v → v.readBack = v

theorem canonical_empty : Canonical .empty := by
  intro key v hv
  cases hv

theorem canonical_readBack (c : ConfigMap) : Canonical c.readBack := by
  intro key v hv
  rw [ConfigMap.get_readBack, Option.map_eq_some_iff] at hv
  obtain ⟨w, -, rfl⟩ := hv
  exact Json.readBack_readBack w

theorem Canonical.map_get {c : ConfigMap} (h : Canonical c) (key : String) :
    (c.get key).map Json.readBack = c.get key := by
  cases hv : c.get key with
  | none => rfl
  | some v => rw [Option.map_some, h key v hv]

section Stored

variable {latest previous new : ConfigMap} {key : String}

/-- The diff as it is stored. -/
abbrev stored (previous new : ConfigMap) : Diff := (computeDiff previous new).readBack

theorem stored_proto : (stored previous new).get "__proto__" = none := by
  rw [Diff.get_readBack, get_computeDiff, diffEntry_proto]
  rfl

theorem stored_of_eq (hkey : key ≠ "__proto__") (h : previous.get key = new.get key) :
    (stored previous new).get key = none := by
  rw [Diff.get_readBack, get_computeDiff, diffEntry_of_eq hkey h]
  rfl

theorem stored_of_ne (hprevious : Canonical previous) (hkey : key ≠ "__proto__")
    (h : previous.get key ≠ new.get key) :
    ∃ e, (stored previous new).get key = some e ∧
      e.fromValue.getD .null = (previous.get key).getD .null ∧
      e.toValue.getD .null = (new.readBack.get key).getD .null := by
  refine ⟨_, by rw [Diff.get_readBack, get_computeDiff, diffEntry_of_ne hkey h]; rfl, ?_, ?_⟩
  · rw [Entry.readBack, getD_readBack, getD_member_look hkey, ← getD_readBack, hprevious.map_get]
  · rw [Entry.readBack, getD_readBack, getD_member_look hkey, ← getD_readBack, ConfigMap.get_readBack]

/-- A change that its diff says is one that the code records well. -/
theorem replayable_of_recorded (hprevious : Canonical previous)
    (hexact : Exact latest.get new.readBack.get (stored previous new))
    (hreplay : replay latest.get (stored previous new) = new.readBack.get) :
    Replayable latest previous new := by
  have hsame : ∀ key, key ≠ "__proto__" → previous.get key = new.get key →
      latest.get key = previous.get key := by
    intro key hkey heq
    have hdiff := hexact key
    rw [stored_of_eq hkey heq] at hdiff
    rw [hdiff, ConfigMap.get_readBack, ← heq, hprevious.map_get]
  have hchanged : ∀ key, key ≠ "__proto__" → previous.get key ≠ new.get key →
      latest.get key ≠ new.readBack.get key ∧ (previous.get key).getD .null = (latest.get key).getD .null ∧
        new.get key ≠ none := by
    intro key hkey hne
    obtain ⟨e, he, hfrom, -⟩ := stored_of_ne hprevious hkey hne
    have hdiff := hexact key
    have hafter := congrFun hreplay key
    simp only [replay, he] at hdiff hafter
    refine ⟨hdiff.1, hfrom.symm.trans hdiff.2.1, ?_⟩
    intro hnone
    rw [ConfigMap.get_readBack, hnone] at hafter
    cases hafter
  constructor
  · intro key hkey
    by_cases heq : previous.get key = new.get key
    · rw [hsame key hkey heq]
    · exact (hchanged key hkey heq).2.1
  · intro key hkey heq
    rw [hsame key hkey heq, heq]
  · intro key hkey hnone
    by_contra hpresent
    exact (hchanged key hkey fun heq => hpresent (heq.trans hnone)).2.2 hnone
  · intro key v hkey hv hlatest
    by_contra hne
    have hne' : previous.get key ≠ new.get key := fun heq => hne (heq.trans hv)
    refine (hchanged key hkey hne').1 ?_
    rw [hlatest, ConfigMap.get_readBack, hv]
    rfl
  · have hdiff := hexact "__proto__"
    rw [stored_proto] at hdiff
    rw [hdiff, ConfigMap.get_readBack]

theorem recorded_of_replayable (hprevious : Canonical previous) (h : Replayable latest previous new) :
    Exact latest.get new.readBack.get (stored previous new) ∧
      replay latest.get (stored previous new) = new.readBack.get := by
  have hkeys : ∀ key,
      (match (stored previous new).get key with
        | none => latest.get key = new.readBack.get key
        | some e => latest.get key ≠ new.readBack.get key ∧
            e.fromValue.getD .null = (latest.get key).getD .null ∧
            e.toValue.getD .null = (new.readBack.get key).getD .null) ∧
        replay latest.get (stored previous new) key = new.readBack.get key := by
    intro key
    by_cases hkey : key = "__proto__"
    · subst hkey
      have hproto : latest.get "__proto__" = new.readBack.get "__proto__" := by
        rw [h.proto, ConfigMap.get_readBack]
      simp only [replay, stored_proto]
      exact ⟨hproto, hproto⟩
    · by_cases heq : previous.get key = new.get key
      · have hlatest : latest.get key = new.readBack.get key := by
          rw [ConfigMap.get_readBack, h.unchanged key hkey heq, ← heq, hprevious.map_get]
        simp only [replay, stored_of_eq hkey heq]
        exact ⟨hlatest, hlatest⟩
      · obtain ⟨e, he, hfrom, hto⟩ := stored_of_ne hprevious hkey heq
        cases hv : new.get key with
        | none => exact absurd ((h.kept key hkey hv).trans hv.symm) heq
        | some v =>
            have hnew : new.readBack.get key = some v.readBack := by
              rw [ConfigMap.get_readBack, hv]
              rfl
            have hne : latest.get key ≠ new.readBack.get key := by
              intro hlatest
              exact heq ((h.ordered key v hkey hv (hlatest.trans hnew)).trans hv.symm)
            simp only [replay, he]
            refine ⟨⟨hne, hfrom.trans (h.read key hkey), hto⟩, ?_⟩
            rw [hto, hnew]
            rfl
  exact ⟨fun key => (hkeys key).1, funext fun key => (hkeys key).2⟩

end Stored

/-! ## The rows of one config -/

section Rows

variable {rows : List SlaConfigVersion} {row : SlaConfigVersion} {configId : String}

theorem contiguous_concat {h : List SlaConfigVersion} :
    Contiguous (h ++ [row]) ↔ Contiguous h ∧ row.version = h.length + 1 := by
  simp only [Contiguous, List.map_append, List.map_singleton, List.length_append, List.length_singleton,
    List.range'_concat, Nat.one_mul, List.append_singleton_inj, Nat.add_comm 1]

/-- The number of a version is its position. -/
theorem Contiguous.version_le {h : List SlaConfigVersion} (hc : Contiguous h) {r : SlaConfigVersion}
    (hr : r ∈ h) : 1 ≤ r.version ∧ r.version ≤ h.length := by
  have hmem : r.version ∈ h.map (·.version) := List.mem_map_of_mem hr
  rw [hc, List.mem_range'_1] at hmem
  omega

theorem foldr_max_range' (n b : ℕ) : (List.range' 1 n).foldr max b = max n b := by
  induction n generalizing b with
  | zero => simp
  | succ n ih =>
      rw [List.range'_concat, List.foldr_append, ih]
      simp only [List.foldr_cons, List.foldr_nil]
      omega

theorem getLatestVersion_eq (hc : Contiguous (history configId rows)) :
    getLatestVersion configId rows = (history configId rows).length := by
  rw [getLatestVersion, hc, foldr_max_range', Nat.max_zero]

theorem findLatest_eq (hc : Contiguous (history configId rows)) :
    findLatest configId rows = (history configId rows).getLast? := by
  rw [findLatest, getLatestVersion_eq hc]
  generalize history configId rows = h at hc
  rcases List.eq_nil_or_concat' h with rfl | ⟨rs, r, rfl⟩
  · rfl
  · obtain ⟨hrs, hversion⟩ := contiguous_concat.mp hc
    have hnone : rs.find? (fun x => decide (x.version = rs.length + 1)) = none := by
      rw [List.find?_eq_none]
      intro x hx
      have hle := (hrs.version_le hx).2
      simp only [decide_eq_true_eq]
      omega
    rw [List.length_append, List.length_singleton, List.find?_append, hnone, List.getLast?_concat]
    simp [hversion]

/-- What a call reads first is the snapshot of the version before. -/
theorem findLatest_snapshot (hc : Contiguous (history configId rows)) :
    ((findLatest configId rows).map (·.configSnapshot)).getD .empty = lastSnapshot (history configId rows) := by
  rw [findLatest_eq hc, lastSnapshot]

theorem history_append (configId : String) (rows : List SlaConfigVersion) (row : SlaConfigVersion) :
    history configId (rows ++ [row])
      = if row.configId = configId then history configId rows ++ [row] else history configId rows := by
  simp only [history, List.filter_append, List.filter_singleton]
  split <;> simp_all

/-- A row that is accepted gets the next number. -/
theorem version_of_accepts {input : RecordConfigChangeInput} {version : ℕ}
    (hc : Contiguous (history input.configId rows)) (hpos : 1 ≤ version)
    (hle : version ≤ (history input.configId rows).length + 1) (h : accepts rows input version = true) :
    version = (history input.configId rows).length + 1 := by
  by_contra hne
  have hmem : version ∈ (history input.configId rows).map (·.version) := by
    rw [hc, List.mem_range'_1]
    omega
  obtain ⟨r, hr, hversion⟩ := List.mem_map.mp hmem
  obtain ⟨hrows, hconfig⟩ := List.mem_filter.mp hr
  rw [accepts, Bool.and_eq_true, List.all_eq_true] at h
  have hfree := h.2 r hrows
  simp_all

/-- The diffs of a lawful history lead to its last snapshot. -/
theorem Lawful.replayAll_eq (h : Lawful rows) (configId : String) :
    replayAll (history configId rows) = (lastSnapshot (history configId rows)).get := by
  have hreplayed := h.replayed configId
  generalize history configId rows = rs at hreplayed
  rcases List.eq_nil_or_concat' rs with rfl | ⟨rs, r, rfl⟩
  · rfl
  · rw [hreplayed rs r (List.prefix_refl _), lastSnapshot, List.getLast?_concat]
    rfl

theorem replayAll_concat (rs : List SlaConfigVersion) (r : SlaConfigVersion) :
    replayAll (rs ++ [r]) = replay (replayAll rs) r.diff := by
  simp [replayAll]

/-- A lawful table stays so under a row with the next number exactly when its diff says what has changed. -/
theorem lawful_append_iff (h : Lawful rows)
    (hversion : row.version = (history row.configId rows).length + 1) :
    Lawful (rows ++ [row]) ↔
      Exact (lastSnapshot (history row.configId rows)).get row.configSnapshot.get row.diff ∧
        replay (lastSnapshot (history row.configId rows)).get row.diff = row.configSnapshot.get := by
  have hhistory : history row.configId (rows ++ [row]) = history row.configId rows ++ [row] := by
    rw [history_append, if_pos rfl]
  constructor
  · intro h'
    have hprefix : history row.configId rows ++ [row] <+: history row.configId (rows ++ [row]) := by
      rw [hhistory]
    refine ⟨h'.exact row.configId _ row hprefix, ?_⟩
    rw [← h.replayAll_eq, ← replayAll_concat]
    exact h'.replayed row.configId _ row hprefix
  · rintro ⟨hexact, hreplay⟩
    have hsplit : ∀ configId rs r, rs ++ [r] <+: history configId (rows ++ [row]) →
        rs ++ [r] <+: history configId rows ∨
          (configId = row.configId ∧ rs = history configId rows ∧ r = row) := by
      intro configId rs r hprefix
      rw [history_append] at hprefix
      split at hprefix
      · rename_i hconfig
        rcases List.prefix_concat_iff.mp hprefix with heq | hold
        · obtain ⟨hrs, hr⟩ := List.append_singleton_inj.mp heq
          exact .inr ⟨hconfig.symm, hrs, hr⟩
        · exact .inl hold
      · exact .inl hprefix
    refine ⟨fun configId => ?_, fun configId rs r hprefix => ?_, fun configId rs r hprefix => ?_⟩
    · rw [history_append]
      split
      · rename_i hconfig
        subst hconfig
        exact contiguous_concat.mpr ⟨h.versions _, hversion⟩
      · exact h.versions configId
    · rcases hsplit configId rs r hprefix with hold | ⟨rfl, rfl, rfl⟩
      · exact h.exact configId rs r hold
      · exact hexact
    · rcases hsplit configId rs r hprefix with hold | ⟨rfl, rfl, rfl⟩
      · exact h.replayed configId rs r hold
      · rw [replayAll_concat, h.replayAll_eq]
        exact hreplay

end Rows

/-! ## Steps -/

/-- What a call knows at its next statement. -/
def Pc.Knows (rows : List SlaConfigVersion) : Pc → Prop
  | .getLatestVersion input previous diff => Canonical previous ∧ diff = computeDiff previous input.newConfig
  | .insert input previous diff nextVersion =>
      Canonical previous ∧ diff = computeDiff previous input.newConfig ∧ 1 ≤ nextVersion ∧
        nextVersion ≤ (history input.configId rows).length + 1
  | _ => True

/-- What holds in every run. -/
structure Sound (s : Sys) : Prop where
  versions : ∀ configId, Contiguous (history configId s.rows)
  canonical : ∀ r ∈ s.rows, Canonical r.configSnapshot
  calls : ∀ i pc, s.calls i = some pc → pc.Knows s.rows

/-- What a step does: a call goes on over the same rows, or its row is accepted. -/
inductive Moves (s : Sys) : Action → Sys → Prop
  | quiet {a : Action} {i : ℕ} {pc : Pc} (hknows : pc.Knows s.rows) (hok : Recorded s a) : Moves s a (s.goOn i pc)
  | insert {i : ℕ} {input : RecordConfigChangeInput} {previous : ConfigMap} {diff : Diff} {nextVersion : ℕ}
      (hcall : s.calls i = some (.insert input previous diff nextVersion))
      (haccepts : accepts s.rows input nextVersion = true) :
      Moves s (.move i) ({ s with rows := s.rows ++ [newRow input diff nextVersion] }.goOn i
        (.done (some (newRow input diff nextVersion))))

section Steps

variable {s s' : Sys} {a : Action}

theorem Sound.canonical_lastSnapshot (h : Sound s) (configId : String) :
    Canonical (lastSnapshot (history configId s.rows)) := by
  unfold lastSnapshot
  cases hlast : (history configId s.rows).getLast? with
  | none => exact canonical_empty
  | some r =>
      exact h.canonical r (List.mem_of_mem_filter (List.mem_of_getLast? hlast))

theorem moves_of_step (h : Sound s) (hs' : step s a = some s') : Moves s a s' := by
  cases a with
  | begin i input =>
      rw [step, Option.ite_none_right_eq_some, Option.some.injEq] at hs'
      obtain ⟨-, rfl⟩ := hs'
      exact .quiet trivial trivial
  | fail i =>
      rw [step, Option.ite_none_right_eq_some, Option.some.injEq] at hs'
      obtain ⟨-, rfl⟩ := hs'
      exact .quiet trivial trivial
  | move i =>
      simp only [step] at hs'
      split at hs'
      · cases hs'
      · rename_i pc hcall
        have hknows := h.calls i pc hcall
        cases pc with
        | findLatest input =>
            rw [advance, Option.some.injEq] at hs'
            subst hs'
            refine .quiet ⟨?_, rfl⟩ (by simp [Recorded, hcall])
            rw [findLatest_snapshot (h.versions _)]
            exact h.canonical_lastSnapshot _
        | getLatestVersion input previous diff =>
            rw [advance, Option.some.injEq] at hs'
            subst hs'
            refine .quiet ⟨hknows.1, hknows.2, Nat.succ_pos _, ?_⟩ (by simp [Recorded, hcall])
            rw [getLatestVersion_eq (h.versions _)]
        | insert input previous diff nextVersion =>
            simp only [advance] at hs'
            split at hs' <;> rw [Option.some.injEq] at hs' <;> subst hs'
            · rename_i haccepts
              exact .insert hcall haccepts
            · rename_i hrefused
              refine .quiet trivial ?_
              simp only [Recorded, hcall]
              intro haccepts
              exact absurd haccepts hrefused
        | done created => cases hs'

/-- An accepted row has the next number. -/
theorem Sound.version_eq (h : Sound s) {i : ℕ} {input : RecordConfigChangeInput} {previous : ConfigMap}
    {diff : Diff} {nextVersion : ℕ} (hcall : s.calls i = some (.insert input previous diff nextVersion))
    (haccepts : accepts s.rows input nextVersion = true) :
    nextVersion = (history input.configId s.rows).length + 1 := by
  obtain ⟨-, -, hpos, hle⟩ := h.calls i _ hcall
  exact version_of_accepts (h.versions _) hpos hle haccepts

/-- More rows take no call back. -/
theorem Pc.Knows.mono {rows : List SlaConfigVersion} {pc : Pc} (h : pc.Knows rows) (row : SlaConfigVersion) :
    pc.Knows (rows ++ [row]) := by
  cases pc with
  | insert input previous diff nextVersion =>
      obtain ⟨hprevious, hdiff, hpos, hle⟩ := h
      refine ⟨hprevious, hdiff, hpos, hle.trans ?_⟩
      rw [history_append]
      split
      · simp
      · exact Nat.le_refl _
  | _ => exact h

theorem Sound.move (h : Sound s) (hmove : Moves s a s') : Sound s' := by
  cases hmove with
  | quiet hknows hok => exact ⟨h.versions, h.canonical, forall_update h.calls hknows⟩
  | @insert i input previous diff nextVersion hcall haccepts =>
      refine ⟨fun configId => ?_, fun r hr => ?_, ?_⟩
      · simp only [Sys.goOn, history_append]
        split
        · rename_i hconfig
          refine contiguous_concat.mpr ⟨h.versions configId, ?_⟩
          rw [← hconfig]
          exact h.version_eq hcall haccepts
        · exact h.versions configId
      · rcases List.mem_append.mp hr with hold | hnew
        · exact h.canonical r hold
        · rw [List.mem_singleton.mp hnew]
          exact canonical_readBack input.newConfig
      · exact forall_update (fun j pc hj => (h.calls j pc hj).mono _) trivial

/-- A step keeps the law exactly when the change it records is one that its diff says. -/
theorem lawful_move_iff (h : Sound s) (hlawful : Lawful s.rows) (hmove : Moves s a s') :
    Lawful s'.rows ↔ Recorded s a := by
  cases hmove with
  | quiet hknows hok => exact iff_of_true hlawful hok
  | @insert i input previous diff nextVersion hcall haccepts =>
      obtain ⟨hprevious, rfl, -⟩ := h.calls i _ hcall
      have hversion : (newRow input (computeDiff previous input.newConfig) nextVersion).version
          = (history input.configId s.rows).length + 1 := h.version_eq hcall haccepts
      simp only [Recorded, hcall, haccepts, forall_const]
      rw [Sys.goOn, lawful_append_iff hlawful hversion]
      constructor
      · rintro ⟨hexact, hreplay⟩
        exact replayable_of_recorded hprevious hexact hreplay
      · exact recorded_of_replayable hprevious

end Steps

/-! ## Runs -/

theorem sound_init : Sound Sys.init := ⟨fun _ => rfl, by simp [Sys.init], by simp [Sys.init]⟩

theorem lawful_init : Lawful Sys.init.rows := by
  refine ⟨fun _ => rfl, fun _ rs r hprefix => ?_, fun _ rs r hprefix => ?_⟩ <;>
    simp [Sys.init, history] at hprefix

/-- Versions are distinct and contiguous in every run. Their diffs say what has changed, all along a run,
exactly when every insert that is accepted finds the version before as it was read, removes no key, and
writes every value as it is read back. -/
theorem history_exact_iff {actions : List Action} {s : Sys} (hrun : run step Sys.init actions = some s) :
    (∀ configId, Contiguous (history configId s.rows)) ∧
      ((∀ as t, as <+: actions → run step Sys.init as = some t → Lawful t.rows)
        ↔ Guarded step Recorded Sys.init actions) := by
  have hsound : ∀ s a s', Sound s → step s a = some s' → Sound s' :=
    fun s a s' h hs' => h.move (moves_of_step h hs')
  have hkeep : ∀ s a s', Sound s ∧ Lawful s.rows → step s a = some s' →
      (Sound s' ∧ Lawful s'.rows ↔ Recorded s a) := by
    intro s a s' ⟨h, hlawful⟩ hs'
    have hmove := moves_of_step h hs'
    rw [and_iff_right (h.move hmove)]
    exact lawful_move_iff h hlawful hmove
  refine ⟨(run_invariant hsound sound_init hrun).versions, ?_⟩
  rw [← forall_prefix_iff_guarded hkeep ⟨sound_init, lawful_init⟩ hrun]
  refine forall_congr' fun as => forall_congr' fun t => forall_congr' fun _ => forall_congr' fun ht => ?_
  rw [and_iff_right (run_invariant hsound sound_init ht)]

/-- A config with one number. -/
def config (n : ℤ) : ConfigMap := ⟨[("a", .num (.int n))], List.nodup_singleton _⟩

def change (newConfig : ConfigMap) : RecordConfigChangeInput := ⟨"c", "u", newConfig, none⟩

theorem get_config (n : ℤ) (key : String) :
    (config n).get key = if key = "a" then some (.num (.int n)) else none := by
  by_cases h : key = "a"
  · subst h
    rfl
  · have hne : ("a" : String) ≠ key := fun h' => h h'.symm
    simp [ConfigMap.get, config, h, hne]

/-- A change whose call has read the version before. -/
theorem replayable_config {latest : ConfigMap} {n : ℤ}
    (hkeys : ∀ key, key ≠ "a" → latest.get key = none) (hvalue : latest.get "a" ≠ some (.num (.int n))) :
    Replayable latest latest (config n) := by
  have hproto : latest.get "__proto__" = none := hkeys "__proto__" (by decide)
  refine ⟨fun _ _ => rfl, fun _ _ h => h, ?_, ?_, by rw [hproto, get_config, if_neg (by decide)]; rfl⟩
  · intro key _ hnone
    rw [get_config] at hnone
    split at hnone
    · cases hnone
    · rename_i hkey
      exact hkeys key hkey
  · intro key v _ hv hlatest
    rw [get_config] at hv
    split at hv
    · rename_i hkey
      cases hv
      exact absurd (hkey ▸ hlatest) hvalue
    · cases hv

/-- Two changes one after the other. -/
def twoChanges : List Action :=
  [.begin 0 (change (config 1)), .move 0, .move 0, .move 0, .begin 1 (change (config 2)), .move 1, .move 1,
    .move 1]

theorem history_exact_of_two :
    ∃ s, run step Sys.init twoChanges = some s ∧ (history "c" s.rows).length = 2 ∧ Lawful s.rows := by
  have hrun : run step Sys.init twoChanges = some _ := rfl
  refine ⟨_, hrun, rfl, ?_⟩
  refine (history_exact_iff hrun).2.mpr ?_ _ _ List.prefix_rfl hrun
  have hfirst : Replayable .empty .empty (config 1) :=
    replayable_config (fun _ _ => rfl) (by simp [ConfigMap.get, ConfigMap.empty])
  have hsecond : Replayable (config 1).readBack (config 1).readBack (config 2) := by
    refine replayable_config ?_ ?_
    · intro key hkey
      rw [ConfigMap.get_readBack, get_config, if_neg hkey]
      rfl
    · rw [ConfigMap.get_readBack, get_config, if_pos rfl]
      simp [Json.readBack, Json.orderBy]
  refine ⟨trivial, ?_⟩
  rintro _ ⟨⟩
  refine ⟨trivial, ?_⟩
  rintro _ ⟨⟩
  refine ⟨trivial, ?_⟩
  rintro _ ⟨⟩
  refine ⟨fun _ => hfirst, ?_⟩
  rintro _ ⟨⟩
  refine ⟨trivial, ?_⟩
  rintro _ ⟨⟩
  refine ⟨trivial, ?_⟩
  rintro _ ⟨⟩
  refine ⟨trivial, ?_⟩
  rintro _ ⟨⟩
  exact ⟨fun _ => hsecond, fun _ _ => trivial⟩

/-- The row of a change that was computed against `previous`. -/
def versionOf (previous newConfig : ConfigMap) (version : ℕ) : SlaConfigVersion :=
  newRow (change newConfig) (computeDiff previous newConfig) version

/-- A second call reads the version before while a third one records another; and a key is removed. -/
theorem change_unsaid :
    (∃ s, run step Sys.init
        [.begin 0 (change (config 1)), .move 0, .move 0, .move 0, .begin 1 (change (config 1)), .move 1,
          .begin 2 (change (config 2)), .move 2, .move 2, .move 2, .move 1, .move 1] = some s ∧
      ¬ Lawful s.rows) ∧
    ∃ s, run step Sys.init
        [.begin 0 (change (config 1)), .move 0, .move 0, .move 0, .begin 1 (change .empty), .move 1, .move 1,
          .move 1] = some s ∧
      ¬ Lawful s.rows := by
  refine ⟨⟨_, rfl, ?_⟩, _, rfl, ?_⟩
  · intro h
    have hexact := h.exact "c" [versionOf .empty (config 1) 1, versionOf (config 1).readBack (config 2) 2]
      (versionOf (config 1).readBack (config 1) 3) ⟨[], rfl⟩ "a"
    have hnone : (stored (config 1).readBack (config 1)).get "a" = none := stored_of_eq (by decide) rfl
    rw [show (versionOf (config 1).readBack (config 1) 3).diff = stored (config 1).readBack (config 1) from rfl,
      hnone] at hexact
    have hvalue : some (Json.num (.int 2)) = some (Json.num (.int 1)) := hexact
    simp at hvalue
  · intro h
    have hreplayed := congrFun (h.replayed "c" [versionOf .empty (config 1) 1]
      (versionOf (config 1).readBack .empty 2) ⟨[], rfl⟩) "a"
    have hne : (config 1).readBack.get "a" ≠ ConfigMap.empty.get "a" := by
      rw [ConfigMap.get_readBack, get_config, if_pos rfl]
      simp [ConfigMap.get, ConfigMap.empty]
    obtain ⟨e, he, -⟩ := stored_of_ne (canonical_readBack (config 1)) (by decide) hne
    rw [replayAll_concat] at hreplayed
    simp only [replay] at hreplayed
    rw [show (versionOf (config 1).readBack .empty 2).diff = stored (config 1).readBack .empty from rfl,
      he] at hreplayed
    cases hreplayed

end ApexChainx.Sla.ConfigHistory
