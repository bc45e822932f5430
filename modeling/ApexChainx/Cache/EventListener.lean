import ApexChainx.Lib.Cooldown
import ApexChainx.Lib.Dict
import ApexChainx.Lib.Expiring
import ApexChainx.Lib.JsonDumps
import ApexChainx.Lib.Keyed
import ApexChainx.Lib.Transition

/-!
# The cache of subscriber ids

`EventListenerCache` (`app/services/event_listener_cache.py`). Every process has one, and they share a Redis.
What a process reads is the list that was last stored for the event (`get_subscriber_ids_iff`), and an outage of
Redis costs it few commands (`commands_bound`).

A call is one command but for `invalidate_all`, which scans and then deletes key by key, while the other processes
go on. Times are numbers of ticks.
-/

namespace ApexChainx.Cache

open ApexChainx.Lib ApexChainx.Lib.Expiring

/-- `EventListenerCache`, without the client. -/
structure ListenerCache where
  ttl : ℤ
  failureThreshold : ℕ
  failureCooldown : ℤ
  consecutiveFailures : ℕ
  disabledUntil : ℤ
deriving DecidableEq, Repr

/-- A command to Redis. -/
inductive ListenerCommand
  | get (key : String)
  | setex (key : String) (ttl : ℤ) (payload : String)
  | delete (key : String)
  | scan (pattern : String)
deriving DecidableEq, Repr

/-- What a call leaves: the cache, its answer, and the commands it sent. -/
structure ListenerRan (α : Type) where
  cache : ListenerCache
  answer : α
  sent : List ListenerCommand
deriving DecidableEq, Repr

/-- `KEY_PREFIX`. -/
def keyStart : String := "event_listener:subscribers"

/-- `_key`. -/
def subscriberKey (event : String) : String := keyStart ++ ":" ++ event

/-- `str` of a value of the list; that of anything but a text is a parameter. -/
def strOf (other : JsonValue → String) : JsonValue → String
  | .str s => s
  | v => other v

/-- The text that is stored for a list of ids. -/
def idsPayload (ids : List String) : Option String :=
  (JsonData.dumps (.list (ids.map .str))).map String.ofList

/-- The ids in a text that was read, if there are any. -/
def idsOf (other : JsonValue → String) : Option String → Option (List String)
  | none => none
  | some raw =>
      if raw = "" then none
      else
        match loads raw with
        | some (.arr values) => some (values.map (strOf other))
        | _ => none

namespace ListenerCache

/-- `_redis_available`. -/
def redisAvailable (c : ListenerCache) (now : ℤ) : Bool := c.disabledUntil ≤ now

/-- `_record_failure`. -/
def recordFailure (c : ListenerCache) (now : ℤ) : ListenerCache :=
  if c.failureThreshold ≤ c.consecutiveFailures + 1 then
    { c with consecutiveFailures := c.consecutiveFailures + 1, disabledUntil := now + c.failureCooldown }
  else { c with consecutiveFailures := c.consecutiveFailures + 1 }

/-- `_record_success`. -/
def recordSuccess (c : ListenerCache) : ListenerCache := { c with consecutiveFailures := 0 }

/-- A call of one command: it is sent when Redis is available, and `reply` is what Redis answers unless the client
raises. The clock is read when the call starts, and when it fails. -/
def single {β α : Type} (c : ListenerCache) (start finish : ℤ) (command : ListenerCommand) (reply : Option β)
    (answer : β → α) (otherwise : α) : ListenerRan α :=
  if c.redisAvailable start then
    match reply with
    | none => ⟨c.recordFailure finish, otherwise, [command]⟩
    | some b => ⟨c.recordSuccess, answer b, [command]⟩
  else ⟨c, otherwise, []⟩

/-- `get_subscriber_ids`. -/
def getSubscriberIds (other : JsonValue → String) (c : ListenerCache) (event : String) (start finish : ℤ)
    (reply : Option (Option String)) : ListenerRan (Option (List String)) :=
  c.single start finish (.get (subscriberKey event)) reply (idsOf other) none

/-- `set_subscriber_ids`. -/
def setSubscriberIds (c : ListenerCache) (event : String) (ids : List String) (start finish : ℤ)
    (reply : Option Unit) : ListenerRan Unit :=
  match idsPayload ids with
  | none => ⟨c, (), []⟩
  | some payload => c.single start finish (.setex (subscriberKey event) c.ttl payload) reply id ()

/-- `invalidate`. -/
def invalidate (c : ListenerCache) (event : String) (start finish : ℤ) (reply : Option Unit) : ListenerRan Unit :=
  c.single start finish (.delete (subscriberKey event)) reply id ()

/-- The loop of `invalidate_all`: for each key that the scan gives, how many keys its deletion removed; the scan
or a deletion raises at a `none`. -/
def deleteScanned (removed : ℕ) : List (Option (String × Option ℕ)) → ℕ × List ListenerCommand × Bool
  | [] => (removed, [], true)
  | none :: _ => (removed, [], false)
  | some (key, none) :: _ => (removed, [.delete key], false)
  | some (key, some n) :: rest =>
      let (removed, sent, ok) := deleteScanned (removed + n) rest
      (removed, .delete key :: sent, ok)

/-- `invalidate_all`. -/
def invalidateAll (c : ListenerCache) (start finish : ℤ) (scanned : List (Option (String × Option ℕ))) :
    ListenerRan ℕ :=
  if c.redisAvailable start then
    let (removed, sent, ok) := deleteScanned 0 scanned
    ⟨if ok then c.recordSuccess else c.recordFailure finish, removed, .scan (keyStart ++ ":*") :: sent⟩
  else ⟨c, 0, []⟩

end ListenerCache

/-! ## Processes on one Redis -/

/-- What becomes of a command: Redis does and answers it, does it and its answer is lost, or does not do it. -/
inductive Delivery
  | done
  | lost
  | refused
deriving DecidableEq, Repr

def Delivery.executed (d : Delivery) : Bool := d ≠ .refused

/-- What the client returns, if it does not raise. -/
def Delivery.reply {β : Type} (d : Delivery) (b : β) : Option β := if d = .done then some b else none

/-- The keys of Redis, with the times at which they expire. -/
abbrev RedisKeys := String → Option (String × ℤ)

/-- A key is gone from the time on at which it expires. -/
def Gone (expiresAt now : ℤ) : Prop := expiresAt ≤ now

instance : DecidableRel Gone := fun expiresAt now => inferInstanceAs (Decidable (expiresAt ≤ now))

/-- `GET` of a key. -/
def redisGet (redis : RedisKeys) (now : ℤ) (key : String) : Option String := shown Gone redis now key

/-- The keys after a command. -/
def ListenerCommand.exec (now : ℤ) (redis : RedisKeys) : ListenerCommand → RedisKeys
  | .setex key ttl payload => (Write.put key payload (now + ttl)).apply redis
  | .delete key => (Write.remove (· = key)).apply redis
  | .get _ | .scan _ => redis

/-- `scans` has the keys that Redis still gives to the full invalidation of a process, and `queues` the commands
that this call still sends. -/
structure ListenerWorld where
  caches : ℕ → ListenerCache
  redis : RedisKeys
  scans : ℕ → List String
  queues : ℕ → List ListenerCommand

/-- A call of a process, with the readings of its clock and the clock of Redis, or the next deletion of its full
invalidation. -/
inductive ListenerStep
  | get (process : ℕ) (event : String) (start finish now : ℤ) (d : Delivery)
  | set (process : ℕ) (event : String) (ids : List String) (start finish now : ℤ) (d : Delivery)
  | invalidate (process : ℕ) (event : String) (start finish now : ℤ) (d : Delivery)
  | invalidateAll (process : ℕ) (start finish : ℤ) (scanned : List (Option (String × Option ℕ)))
  | deleteNext (process : ℕ) (executed : Bool) (now : ℤ)

namespace ListenerWorld

/-- Redis after a call whose commands it has done. -/
def ran {α : Type} (s : ListenerWorld) (process : ℕ) (call : ListenerRan α) (executed : Bool) (now : ℤ) :
    ListenerWorld :=
  { s with
    caches := Function.update s.caches process call.cache
    redis := if executed then call.sent.foldl (ListenerCommand.exec now) s.redis else s.redis }

/-- The keys a scan gives, up to one whose deletion raises. -/
def scannedKeys : List (Option (String × Option ℕ)) → List String
  | [] | none :: _ => []
  | some (key, none) :: _ => [key]
  | some (key, some _) :: rest => key :: scannedKeys rest

/-- One step. A call starts when the full invalidation of its process is over. -/
def step (other : JsonValue → String) (s : ListenerWorld) : ListenerStep → Option ListenerWorld
  | .get process event start finish now d =>
      if s.scans process ≠ [] then none
      else
        some (s.ran process ((s.caches process).getSubscriberIds other event start finish
          (d.reply (redisGet s.redis now (subscriberKey event)))) d.executed now)
  | .set process event ids start finish now d =>
      if s.scans process ≠ [] then none
      else some (s.ran process ((s.caches process).setSubscriberIds event ids start finish (d.reply ())) d.executed now)
  | .invalidate process event start finish now d =>
      if s.scans process ≠ [] then none
      else some (s.ran process ((s.caches process).invalidate event start finish (d.reply ())) d.executed now)
  | .invalidateAll process start finish scanned =>
      if s.scans process ≠ [] then none
      else
        let call := (s.caches process).invalidateAll start finish scanned
        some { s with
          caches := Function.update s.caches process call.cache
          scans := Function.update s.scans process
            (if (s.caches process).redisAvailable start then scannedKeys scanned else [])
          queues := Function.update s.queues process call.sent.tail }
  | .deleteNext process executed now =>
      match s.scans process with
      | [] => none
      | _ :: keys =>
          some { s with
            redis := if executed then ((s.queues process).take 1).foldl (ListenerCommand.exec now) s.redis else s.redis
            scans := Function.update s.scans process keys
            queues := Function.update s.queues process (s.queues process).tail }

/-- Before the first call. -/
def initial (caches : ℕ → ListenerCache) : ListenerWorld := ⟨caches, fun _ => none, fun _ => [], fun _ => []⟩

end ListenerWorld

/-! ## What the processes read -/

/-- What a call changes for the readers. -/
inductive ListenerWrite
  | set (event : String) (ids : List String) (ttl : ℤ) (now : ℤ)
  | delete (key : String)
deriving DecidableEq, Repr

def ListenerWrite.key : ListenerWrite → String
  | .set event _ _ _ => subscriberKey event
  | .delete key => key

/-- A write as Redis sees it. -/
def ListenerWrite.toWrite : ListenerWrite → Write String String ℤ
  | .set event ids ttl now => .put (subscriberKey event) ((idsPayload ids).getD "") (now + ttl)
  | .delete key => .remove (· = key)

/-- The ids of an event are stored, or a key deleted, if the process has not given up on Redis and Redis does it; a
full invalidation deletes the keys that its scan gives. -/
def writeOf (s : ListenerWorld) : ListenerStep → Option ListenerWrite
  | .set process event ids start _ now d =>
      if (s.caches process).disabledUntil ≤ start ∧ d.executed then some (.set event ids (s.caches process).ttl now)
      else none
  | .invalidate process event start _ _ d =>
      if (s.caches process).disabledUntil ≤ start ∧ d.executed then some (.delete (subscriberKey event)) else none
  | .deleteNext process executed _ => if executed then (s.scans process).head?.map .delete else none
  | .get .. | .invalidateAll .. => none

/-- The writes of a run. -/
def writesOf (other : JsonValue → String) : ListenerWorld → List ListenerStep → List ListenerWrite
  | _, [] => []
  | s, a :: as =>
      match s.step other a with
      | none => []
      | some s' => (writeOf s a).toList ++ writesOf other s' as

theorem subscriberKey_inj {event event' : String} (h : subscriberKey event = subscriberKey event') :
    event = event' := by
  have hchars := congrArg String.toList h
  simp only [subscriberKey, String.toList_append] at hchars
  exact String.toList_inj.mp (List.append_cancel_left hchars)

/-- A list of ids has a text, and the text is read back. -/
theorem exists_idsPayload (other : JsonValue → String) (ids : List String) :
    ∃ payload, idsPayload ids = some payload ∧ idsOf other (some payload) = some ids := by
  have hfits : (JsonData.dumps (.list (ids.map .str))).isSome = true := by
    rw [JsonData.isSome_dumps, JsonData.scalars, JsonData.itemScalars_eq_flatMap, List.flatMap_map]
    intro s hs
    obtain ⟨id, -, hid⟩ := List.mem_flatMap.mp hs
    rw [List.mem_singleton.mp hid]
    trivial
  obtain ⟨text, htext⟩ := Option.isSome_iff_exists.mp hfits
  have hwritten := (JsonData.written_dumps htext).loads
  refine ⟨String.ofList text, by rw [idsPayload, htext]; rfl, ?_⟩
  have hne : String.ofList text ≠ "" := by
    intro hempty
    rw [hempty] at hwritten
    cases hwritten
  rw [idsOf, if_neg hne, hwritten, JsonData.value, JsonData.values_eq_map]
  simp [JsonData.value, strOf, Function.comp_def]

theorem idsOf_getD (other : JsonValue → String) (ids : List String) :
    idsOf other (some ((idsPayload ids).getD "")) = some ids := by
  obtain ⟨payload, hpayload, hread⟩ := exists_idsPayload other ids
  rw [hpayload, Option.getD_some, hread]

/-- What was last stored for the event is still there. -/
def Stored (log : List ListenerWrite) (event : String) (now : ℤ) (ids : List String) : Prop :=
  ∃ before after ttl at', log = before ++ .set event ids ttl at' :: after ∧
    (∀ w ∈ after, w.key ≠ subscriberKey event) ∧ now < at' + ttl

theorem under_toWrite {w : ListenerWrite} {event : String} :
    w.toWrite.Under (subscriberKey event) ↔ w.key = subscriberKey event := by
  cases w with
  | set event' ids ttl now => exact Iff.rfl
  | delete key =>
      rw [ListenerWrite.toWrite, Write.Under, decide_eq_true_eq]
      exact eq_comm

/-- The text that Redis has for an event is that of the ids that were last stored, if the key has not expired. -/
theorem redisGet_eq_some_iff {log : List ListenerWrite} {event payload : String} {now : ℤ} :
    redisGet (entries (log.map ListenerWrite.toWrite)) now (subscriberKey event) = some payload ↔
      ∃ ids, Stored log event now ids ∧ (idsPayload ids).getD "" = payload := by
  rw [redisGet, shown_entries_eq_some_iff]
  constructor
  · rintro ⟨expiresAt, ⟨before, after, hlog, hafter⟩, halive⟩
    obtain ⟨before, rest, rfl, rfl, hrest⟩ := List.map_eq_append_iff.mp hlog
    obtain ⟨w, after, rfl, hput, rfl⟩ := List.map_eq_cons_iff.mp hrest
    cases w with
    | delete key => cases hput
    | set event' ids ttl at' =>
        simp only [ListenerWrite.toWrite, Write.put.injEq] at hput
        obtain ⟨hkey, hpayload, rfl⟩ := hput
        obtain rfl := subscriberKey_inj hkey
        refine ⟨ids, ⟨before, after, ttl, at', rfl, ?_, not_le.mp halive⟩, hpayload⟩
        intro v hv hevent
        exact hafter _ (List.mem_map_of_mem hv) (under_toWrite.mpr hevent)
  · rintro ⟨ids, ⟨before, after, ttl, at', rfl, hafter, halive⟩, rfl⟩
    refine ⟨at' + ttl, ⟨before.map ListenerWrite.toWrite, after.map ListenerWrite.toWrite, ?_, ?_⟩, not_le.mpr halive⟩
    · rw [List.map_append, List.map_cons]
      rfl
    · intro w hw
      obtain ⟨v, hv, rfl⟩ := List.mem_map.mp hw
      exact fun hunder => hafter v hv (under_toWrite.mp hunder)

namespace ListenerWorld

/-- Redis has what was written, and a full invalidation sends a deletion for every key that it is given. -/
structure Inv (log : List ListenerWrite) (s : ListenerWorld) : Prop where
  redis : s.redis = entries (log.map ListenerWrite.toWrite)
  queues : ∀ process, s.queues process = (s.scans process).map .delete

variable {other : JsonValue → String} {log : List ListenerWrite} {s s' : ListenerWorld}

/-- The commands of a call of one command, if its process has not given up on Redis. -/
theorem sent_single {β α : Type} (c : ListenerCache) (start finish : ℤ) (command : ListenerCommand) (reply : Option β)
    (answer : β → α) (otherwise : α) : (c.single start finish command reply answer otherwise).sent =
      if c.disabledUntil ≤ start then [command] else [] := by
  unfold ListenerCache.single ListenerCache.redisAvailable
  by_cases h : c.disabledUntil ≤ start
  · cases reply with
    | none => simp [h]
    | some b => simp [h]
  · simp [h]

theorem sent_deleteScanned (scanned : List (Option (String × Option ℕ))) (removed : ℕ) :
    (ListenerCache.deleteScanned removed scanned).2.1 = (scannedKeys scanned).map .delete := by
  induction scanned generalizing removed with
  | nil => rfl
  | cons key scanned ih =>
      obtain _ | ⟨key, _ | n⟩ := key
      · rfl
      · rfl
      · rw [scannedKeys, List.map_cons, ← ih (removed + n)]
        rfl

theorem sent_invalidateAll (c : ListenerCache) (start finish : ℤ) (scanned : List (Option (String × Option ℕ))) :
    (c.invalidateAll start finish scanned).sent.tail =
      (if c.redisAvailable start then scannedKeys scanned else []).map .delete := by
  unfold ListenerCache.invalidateAll
  by_cases h : c.redisAvailable start = true
  · rw [if_pos h, if_pos h, ← sent_deleteScanned scanned 0]
    rfl
  · rw [if_neg h, if_neg h]
    rfl

theorem Inv.write (hs : Inv log s) (w : Option ListenerWrite) :
    (w.map ListenerWrite.toWrite).elim s.redis (·.apply s.redis) =
      entries ((log ++ w.toList).map ListenerWrite.toWrite) := by
  rw [hs.redis]
  cases w with
  | none => simp
  | some w => simp [entries_concat]

/-- A call whose commands make up a write, or none. -/
theorem Inv.ran {α : Type} (hs : Inv log s) {process : ℕ} {call : ListenerRan α} {executed : Bool} {now : ℤ}
    (w : Option ListenerWrite) (h : (s.ran process call executed now).redis =
      (w.map ListenerWrite.toWrite).elim s.redis (·.apply s.redis)) :
    Inv (log ++ w.toList) (s.ran process call executed now) :=
  ⟨h.trans (hs.write w), hs.queues⟩

/-- The next deletion of a full invalidation. -/
theorem Inv.deleteNext (hs : Inv log s) {process : ℕ} {key : String} {keys : List String}
    (hscan : s.scans process = key :: keys) (executed : Bool) (now : ℤ) :
    Inv (log ++ (writeOf s (.deleteNext process executed now)).toList)
      { s with
        redis := if executed then ((s.queues process).take 1).foldl (ListenerCommand.exec now) s.redis else s.redis
        scans := Function.update s.scans process keys
        queues := Function.update s.queues process (s.queues process).tail } := by
  have hqueue : s.queues process = .delete key :: keys.map .delete := by
    rw [hs.queues process, hscan]
    rfl
  constructor
  · rw [← hs.write]
    cases executed with
    | false => rfl
    | true =>
        rw [writeOf, if_pos rfl, if_pos rfl, hscan, hqueue]
        rfl
  · intro other
    dsimp only
    by_cases h : other = process
    · subst h
      rw [Function.update_self, Function.update_self, hqueue, List.tail_cons]
    · rw [Function.update_of_ne h, Function.update_of_ne h, hs.queues other]

/-- Every step does to Redis what its call is to write. -/
theorem Inv.step {a : ListenerStep} (hs : Inv log s) (h : s.step other a = some s') :
    Inv (log ++ (writeOf s a).toList) s' := by
  cases a with
  | get process event start finish now d =>
      dsimp only [ListenerWorld.step] at h
      split at h
      · cases h
      obtain rfl := Option.some.inj h
      refine hs.ran none ?_
      rw [ListenerWorld.ran, ListenerCache.getSubscriberIds, sent_single]
      split_ifs <;> rfl
  | set process event ids start finish now d =>
      dsimp only [ListenerWorld.step] at h
      split at h
      · cases h
      obtain rfl := Option.some.inj h
      obtain ⟨payload, hpayload, -⟩ := exists_idsPayload (fun _ => "") ids
      refine hs.ran _ ?_
      dsimp only [ListenerWorld.ran, ListenerCache.setSubscriberIds, writeOf]
      rw [hpayload]
      dsimp only
      rw [sent_single]
      by_cases hopen : (s.caches process).disabledUntil ≤ start
      · cases hdone : d.executed with
        | false => simp
        | true => simp [hopen, ListenerCommand.exec, ListenerWrite.toWrite, hpayload]
      · simp [hopen]
  | invalidate process event start finish now d =>
      dsimp only [ListenerWorld.step] at h
      split at h
      · cases h
      obtain rfl := Option.some.inj h
      refine hs.ran _ ?_
      dsimp only [ListenerWorld.ran, ListenerCache.invalidate, writeOf]
      rw [sent_single]
      by_cases hopen : (s.caches process).disabledUntil ≤ start
      · cases hdone : d.executed with
        | false => simp
        | true => simp [hopen, ListenerCommand.exec, ListenerWrite.toWrite]
      · simp [hopen]
  | invalidateAll process start finish scanned =>
      dsimp only [ListenerWorld.step] at h
      split at h
      · cases h
      obtain rfl := Option.some.inj h
      refine ⟨by simpa [writeOf] using hs.redis, fun process' => ?_⟩
      dsimp only
      by_cases hsame : process' = process
      · subst hsame
        rw [Function.update_self, Function.update_self, sent_invalidateAll]
      · rw [Function.update_of_ne hsame, Function.update_of_ne hsame, hs.queues process']
  | deleteNext process executed now =>
      dsimp only [ListenerWorld.step] at h
      split at h
      · cases h
      · rename_i hscan
        obtain rfl := Option.some.inj h
        exact hs.deleteNext hscan executed now

/-- After every run Redis has what the calls were to write, in their order. -/
theorem Inv.run {steps : List ListenerStep} (hs : Inv log s)
    (h : Lib.run (ListenerWorld.step other) s steps = some s') :
    Inv (log ++ writesOf other s steps) s' := by
  induction steps generalizing s log with
  | nil =>
      obtain rfl := Option.some.inj h
      rwa [writesOf, List.append_nil]
  | cons a steps ih =>
      obtain ⟨t, ht, hrest⟩ := run_cons_eq_some.mp h
      rw [writesOf, ht, ← List.append_assoc]
      exact ih (hs.step ht) hrest

theorem inv_initial (caches : ℕ → ListenerCache) : Inv [] (initial caches) := ⟨rfl, fun _ => rfl⟩

end ListenerWorld

/-- What a process is told about an event, after any run of the processes: exactly the ids that were last stored for
it by any of them, in their order, if its key was not deleted since and has not expired; and nothing when the process
has given up on Redis or gets no answer. -/
theorem get_subscriber_ids_iff (other : JsonValue → String) (caches : ℕ → ListenerCache) {steps : List ListenerStep}
    {s : ListenerWorld} (hrun : run (ListenerWorld.step other) (.initial caches) steps = some s) (process : ℕ)
    (event : String) (start finish now : ℤ) (answered : Bool) (ids : List String) :
    ((s.caches process).getSubscriberIds other event start finish
        (if answered then some (redisGet s.redis now (subscriberKey event)) else none)).answer = some ids ↔
      (s.caches process).disabledUntil ≤ start ∧ answered = true ∧
        Stored (writesOf other (.initial caches) steps) event now ids := by
  have hredis := ((ListenerWorld.inv_initial caches).run hrun).redis
  rw [List.nil_append] at hredis
  rw [hredis]
  unfold ListenerCache.getSubscriberIds ListenerCache.single ListenerCache.redisAvailable
  by_cases havailable : (s.caches process).disabledUntil ≤ start
  · cases answered with
    | false => simp [havailable]
    | true =>
        simp only [havailable, decide_true, if_true, true_and]
        constructor
        · intro hanswer
          cases hread : redisGet (entries ((writesOf other (.initial caches) steps).map ListenerWrite.toWrite)) now
              (subscriberKey event) with
          | none =>
              rw [hread] at hanswer
              cases hanswer
          | some payload =>
              obtain ⟨ids', hstored, rfl⟩ := redisGet_eq_some_iff.mp hread
              rw [hread, idsOf_getD] at hanswer
              rwa [← Option.some.inj hanswer]
        · intro hstored
          rw [redisGet_eq_some_iff.mpr ⟨ids, hstored, rfl⟩, idsOf_getD]
  · simp [havailable]

/-- The ids that one process stores while the full invalidation of another is still deleting the ids before them. -/
def storedDuringSweep : List ListenerStep :=
  [.set 0 "sla.violation" ["a"] 0 0 100 .done, .set 1 "sla.resolved" ["b"] 0 0 100 .lost,
    .invalidateAll 1 1 1 [some (subscriberKey "sla.violation", some 1), some (subscriberKey "sla.resolved", some 1)],
    .deleteNext 1 true 101, .set 0 "sla.violation" ["a", "c"] 1 1 101 .done, .deleteNext 1 true 102]

theorem get_subscriber_ids_during_sweep : ∃ s,
    run (ListenerWorld.step fun _ => "") (.initial fun _ => ⟨15, 3, 30, 0, 0⟩) storedDuringSweep = some s ∧
    (((s.caches 1).getSubscriberIds (fun _ => "") "sla.violation" 2 2
        (if true then some (redisGet s.redis 103 (subscriberKey "sla.violation")) else none)).answer = some ["a", "c"] ↔
      (s.caches 1).disabledUntil ≤ 2 ∧ true = true ∧
        Stored (writesOf (fun _ => "") (.initial fun _ => ⟨15, 3, 30, 0, 0⟩) storedDuringSweep) "sla.violation" 103
          ["a", "c"]) :=
  ⟨_, rfl, get_subscriber_ids_iff (fun _ => "") (fun _ => ⟨15, 3, 30, 0, 0⟩) rfl 1 "sla.violation" 2 2 103 true
    ["a", "c"]⟩

/-! ## During an outage -/

/-- A call of a method, with the readings of the clock and what Redis answers. -/
inductive ListenerOp
  | get (event : String) (reply : Option (Option String))
  | set (event : String) (ids : List String) (reply : Option Unit)
  | invalidate (event : String) (reply : Option Unit)
  | invalidateAll (scanned : List (Option (String × Option ℕ)))
deriving DecidableEq, Repr

structure ListenerCall where
  op : ListenerOp
  start : ℤ
  finish : ℤ
deriving DecidableEq, Repr

/-- A call, and the commands it sends. -/
def listenerStep (other : JsonValue → String) (c : ListenerCache) (call : ListenerCall) :
    ListenerCache × List ListenerCommand :=
  match call.op with
  | .get event reply => let ran := c.getSubscriberIds other event call.start call.finish reply; (ran.cache, ran.sent)
  | .set event ids reply => let ran := c.setSubscriberIds event ids call.start call.finish reply; (ran.cache, ran.sent)
  | .invalidate event reply => let ran := c.invalidate event call.start call.finish reply; (ran.cache, ran.sent)
  | .invalidateAll scanned => let ran := c.invalidateAll call.start call.finish scanned; (ran.cache, ran.sent)

/-- Redis answers no command of the call. -/
def ListenerOp.Down : ListenerOp → Prop
  | .get _ reply => reply = none
  | .set _ _ reply => reply = none
  | .invalidate _ reply => reply = none
  | .invalidateAll scanned => scanned.head? = some none

instance (op : ListenerOp) : Decidable op.Down := by
  cases op <;> unfold ListenerOp.Down <;> infer_instance

/-- The commands that the calls send. -/
def commandsSent (other : JsonValue → String) (c : ListenerCache) (calls : List ListenerCall) : List ListenerCommand :=
  (answers (listenerStep other) c calls).flatMap Prod.snd

def ListenerCache.policy (c : ListenerCache) : Cooldown.Policy := ⟨c.failureThreshold, c.failureCooldown⟩

def ListenerCache.view (c : ListenerCache) : Cooldown.State := ⟨c.consecutiveFailures, c.disabledUntil⟩

/-- What a call that Redis does not answer leaves: it sent one command if Redis was available, and the failure is
recorded. -/
structure SentDown (c : ListenerCache) (start finish : ℤ) (c' : ListenerCache) (sent : List ListenerCommand) :
    Prop where
  policy : c'.policy = c.policy
  view : c'.view = Cooldown.step c.policy c.view ⟨start, finish, 1, false⟩
  length : sent.length = if start < c.disabledUntil then 0 else 1

theorem ListenerCache.view_recordFailure (c : ListenerCache) {start : ℤ} (hreached : ¬ start < c.disabledUntil)
    (finish : ℤ) :
    (c.recordFailure finish).view = Cooldown.step c.policy c.view ⟨start, finish, 1, false⟩ := by
  rw [Cooldown.step_failed hreached rfl, recordFailure]
  by_cases h : c.failureThreshold ≤ c.consecutiveFailures + 1
  · rw [if_pos h]
    exact (if_pos h).symm
  · rw [if_neg h]
    exact (if_neg h).symm

theorem ListenerCache.policy_recordFailure (c : ListenerCache) (finish : ℤ) :
    (c.recordFailure finish).policy = c.policy := by
  rw [recordFailure]
  split_ifs <;> rfl

theorem SentDown.unavailable {c : ListenerCache} {start : ℤ} (h : start < c.disabledUntil) (finish : ℤ) :
    SentDown c start finish c [] :=
  ⟨rfl, (if_pos h).symm, (if_pos h).symm⟩

theorem SentDown.failed {c : ListenerCache} {start : ℤ} (h : ¬ start < c.disabledUntil) (finish : ℤ)
    (command : ListenerCommand) : SentDown c start finish (c.recordFailure finish) [command] :=
  ⟨c.policy_recordFailure finish, c.view_recordFailure h finish, (if_neg h).symm⟩

theorem ListenerCache.single_down {β α : Type} (c : ListenerCache) (start finish : ℤ) (command : ListenerCommand)
    (answer : β → α) (otherwise : α) :
    let ran := c.single start finish command none answer otherwise
    SentDown c start finish ran.cache ran.sent := by
  by_cases h : start < c.disabledUntil
  · simp only [single, redisAvailable, not_le.mpr h, decide_false, Bool.false_eq_true, if_false]
    exact SentDown.unavailable h finish
  · simp only [single, redisAvailable, not_lt.mp h, decide_true, if_true]
    exact SentDown.failed h finish command

theorem listenerStep_down (other : JsonValue → String) (c : ListenerCache) {call : ListenerCall}
    (hdown : call.op.Down) :
    SentDown c call.start call.finish (listenerStep other c call).1 (listenerStep other c call).2 := by
  obtain ⟨op, start, finish⟩ := call
  cases op with
  | get event reply =>
      obtain rfl : reply = none := hdown
      exact c.single_down start finish _ (idsOf other) none
  | set event ids reply =>
      obtain rfl : reply = none := hdown
      obtain ⟨payload, hpayload, -⟩ := exists_idsPayload other ids
      simp only [listenerStep, ListenerCache.setSubscriberIds, hpayload]
      exact c.single_down start finish _ id ()
  | invalidate event reply =>
      obtain rfl : reply = none := hdown
      exact c.single_down start finish _ id ()
  | invalidateAll scanned =>
      cases scanned with
      | nil => cases hdown
      | cons key scanned =>
          obtain rfl : key = none := Option.some.inj hdown
          by_cases h : start < c.disabledUntil
          · simp only [listenerStep, ListenerCache.invalidateAll, ListenerCache.redisAvailable, not_le.mpr h,
              decide_false, Bool.false_eq_true, if_false]
            exact SentDown.unavailable h finish
          · simp only [listenerStep, ListenerCache.invalidateAll, ListenerCache.redisAvailable, not_lt.mp h,
              decide_true, if_true, ListenerCache.deleteScanned, Bool.false_eq_true, if_false]
            exact SentDown.failed h finish _

/-- The commands of an outage are those of the calls that get past the cooldown. -/
theorem length_commandsSent (other : JsonValue → String) (c : ListenerCache) {calls : List ListenerCall}
    (hdown : ∀ call ∈ calls, call.op.Down) :
    (commandsSent other c calls).length = (Cooldown.reached c.policy c.view
      (calls.map fun call => ⟨call.start, call.finish, 1, false⟩)).length := by
  induction calls generalizing c with
  | nil => rfl
  | cons call calls ih =>
      obtain ⟨hcall, hdown⟩ := List.forall_mem_cons.mp hdown
      obtain ⟨hpolicy, hview, hlength⟩ := listenerStep_down other c hcall
      have hrest := ih (listenerStep other c call).1 hdown
      rw [hpolicy, hview] at hrest
      have hcons : commandsSent other c (call :: calls)
          = (listenerStep other c call).2 ++ commandsSent other (listenerStep other c call).1 calls := rfl
      rw [hcons, List.length_append, hlength, hrest, List.map_cons, Cooldown.reached]
      show _ = (if call.start < c.disabledUntil then _ else _ : List Cooldown.Call).length
      split_ifs
      · exact Nat.zero_add _
      · rw [List.length_cons, Nat.add_comm]

/-- While Redis does not answer, a process sends as many commands as the threshold, and after that one for each
cooldown that goes by. -/
theorem commands_bound (other : JsonValue → String) (c : ListenerCache) (hcooldown : 0 ≤ c.failureCooldown)
    {calls : List ListenerCall} {first last : ℤ} (hspan : first ≤ last)
    (hwithin : ∀ call ∈ calls, first ≤ call.start ∧ call.start ≤ call.finish ∧ call.start ≤ last)
    (hdown : ∀ call ∈ calls, call.op.Down) :
    ((commandsSent other c calls).length - (max c.failureThreshold 1 : ℕ) : ℤ) * c.failureCooldown ≤ last - first := by
  rw [length_commandsSent other c hdown]
  have henough : c.failureThreshold ≤ max c.failureThreshold 1 * 1 := by
    rw [Nat.mul_one]
    exact Nat.le_max_left _ _
  refine Cooldown.reached_bound (Nat.le_max_right _ _) henough hcooldown hspan ?_ ?_
  · exact List.forall_mem_map.mpr hwithin
  · exact List.forall_mem_map.mpr fun _ _ => ⟨rfl, le_rfl⟩

/-- Five events in a minute, with a Redis whose answers take a second to time out. -/
theorem commands_bound_default :
    ((commandsSent (fun _ => "") ⟨15, 3, 30, 0, 0⟩
        [⟨.set "sla.violation" ["a"] none, 0, 1⟩, ⟨.set "sla.violation" ["a"] none, 1, 2⟩,
          ⟨.invalidateAll [none], 2, 3⟩, ⟨.set "sla.violation" ["a"] none, 10, 11⟩,
          ⟨.get "sla.violation" none, 40, 41⟩]).length - (3 : ℕ) : ℤ) * 30
      ≤ 60 - 0 :=
  commands_bound (fun _ => "") ⟨15, 3, 30, 0, 0⟩ (by decide) (by decide) (by decide) (by decide)

end ApexChainx.Cache
