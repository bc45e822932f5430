import ApexChainx.Core.Error
import ApexChainx.Ledger.Sanitize
import ApexChainx.Lib.JsonReader
import ApexChainx.Lib.JsonScan
import ApexChainx.Lib.Transition

/-!
# The idempotency middleware

`app/middleware/idempotency.py`, cut at its Redis commands and at the call of the downstream handler.
Requests are served by several processes; each has a circuit breaker of its own, all share one Redis.

Of a request the middleware reads the method, the path, the body and two headers. `json.loads` on the
bytes of a body is a parameter: it returns a JSON value, refuses the bytes, or raises something the
middleware does not catch (a number with too many digits, brackets too deep, half of a surrogate pair
that the fingerprint cannot be encoded with). `NaN` and `Infinity` are no JSON and are left out.

The response of `call_next` has a `media_type` and, among its headers, a content type; starlette leaves
the former empty. Time is the clock of Redis; a process writes its own reading of the time into the
index of completed keys.
-/

namespace ApexChainx.Idempotency

open ApexChainx.Lib

/-! ## Requests and responses -/

/-- A request, as far as the middleware and the handler can tell requests apart. -/
structure Request where
  method : String
  path : String
  query : String
  /-- The `Authorization` header, empty when there is none. -/
  authorization : String
  /-- The `Idempotency-Key` header. -/
  idempotencyKey : Option String
  body : ByteArray

/-- What `call_next` returns, its body read to the end. -/
structure HandlerResponse where
  status : ℕ
  body : ByteArray
  mediaType : Option String
  /-- The `content-type` header. -/
  contentType : Option String

/-- What a client receives: status, body bytes and content type. -/
structure Reply where
  status : ℕ
  body : ByteArray
  contentType : Option String

/-- The content type starlette writes for a media type. -/
def contentTypeOf (mediaType : String) : String :=
  if "text/".toList.isPrefixOf mediaType.toList ∧
      ¬ "charset=".toList <:+: mediaType.toList.map Char.toLower
  then mediaType ++ "; charset=utf-8" else mediaType

/-- The response as the middleware hands it on: a content type header stands, a media type fills in. -/
def HandlerResponse.direct (resp : HandlerResponse) : Reply :=
  ⟨resp.status, resp.body, resp.contentType.or (resp.mediaType.map contentTypeOf)⟩

/-- `json.dumps` of an object with the text under `detail`. -/
def detailBody (detail : String) : ByteArray :=
  (String.ofList ('\x7b' :: (quoteAscii "detail" ++ ':' :: ' ' ::
    (quoteAscii detail ++ ['\x7d'])))).toByteArray

/-- A response the middleware makes itself. -/
def problem (status : ℕ) (detail : String) : Reply :=
  ⟨status, detailBody detail, some "application/json"⟩

/-- The answer to a key that was used with another payload. -/
def conflict : Reply := problem 409 "Idempotency-Key already used with different payload"

/-! ## Settings -/

/-- What `json.loads` makes of the bytes of a body. -/
inductive Decoded
  | value (j : Json)
  /-- `JSONDecodeError` or `UnicodeDecodeError`. -/
  | malformed
  | raised (e : ApiError)

structure Settings where
  /-- The hexadecimal digest. -/
  sha256 : String → String
  loads : ByteArray → Decoded
  /-- `IDEMPOTENCY_KEY_TTL_HOURS * 3600`. -/
  ttl : ℤ
  maxCompletedKeys : ℤ

/-! ## Fingerprint and cache key -/

/-- The text that is hashed. -/
def fingerprintText (method path : String) (canonical : Json) : String :=
  method ++ ":" ++ path ++ ":" ++ canonical.sortKeys.text

inductive Fingerprint
  | of (digest : String)
  | malformedRequestBody (detail : String)
  | raised (e : ApiError)

/-- `_compute_fingerprint`. -/
def computeFingerprint (cfg : Settings) (method path : String) (body : ByteArray) : Fingerprint :=
  if body.isEmpty then .of (cfg.sha256 (fingerprintText method path (.obj [])))
  else
    match cfg.loads body with
    | .value decoded => .of (cfg.sha256 (fingerprintText method path decoded))
    | .malformed =>
        .malformedRequestBody "Request body is not valid JSON; cannot fingerprint Idempotency-Key"
    | .raised e => .raised e

/-- `str.removeprefix`. -/
def removeInitial (initial s : String) : String :=
  if initial.toList.isPrefixOf s.toList then String.ofList (s.toList.drop initial.length) else s

/-- `_actor_key`. -/
def actorKey (cfg : Settings) (r : Request) : String :=
  let token := Ledger.strip (removeInitial "Bearer " r.authorization)
  if token = "" then "" else String.ofList ((cfg.sha256 token).toList.take 16)

/-- The cache key of a request that carries an `Idempotency-Key`. -/
def cacheKey (cfg : Settings) (r : Request) : Option String :=
  r.idempotencyKey.map fun key => "idempotency:" ++ actorKey cfg r ++ ":" ++ key

/-! ## Cached responses -/

/-- The object that is stored under a completed key. -/
structure CachedResponse where
  fingerprint : String
  statusCode : ℕ
  body : String
  mediaType : String
deriving DecidableEq, Repr

/-- `json.dumps` of a cached response. -/
def CachedResponse.dumps (c : CachedResponse) : String :=
  String.ofList ('\x7b' :: (quoteAscii "fingerprint" ++ ':' :: ' ' :: (quoteAscii c.fingerprint ++
    ',' :: ' ' :: (quoteAscii "status_code" ++ ':' :: ' ' :: (c.statusCode.repr.toList ++
    ',' :: ' ' :: (quoteAscii "body" ++ ':' :: ' ' :: (quoteAscii c.body ++
    ',' :: ' ' :: (quoteAscii "media_type" ++ ':' :: ' ' :: (quoteAscii c.mediaType ++ ['\x7d'])))))))))

/-- A string member. -/
def stringMember (members : List (String × JsonValue)) (key : String) : Option String :=
  match JsonValue.member members key with
  | some (.str s) => some s
  | _ => none

/-- A member that is a number without sign, point or exponent. -/
def natMember (members : List (String × JsonValue)) (key : String) : Option ℕ :=
  match JsonValue.member members key with
  | some (.number text) =>
      if text.all Char.isDigit then some (Nat.ofDigitChars 10 text 0) else none
  | _ => none

/-- `json.loads` of a stored text, and the members the replay takes from it; `none` when it raises. The
default of `media_type` is for records older than the member. -/
def readCached (text : String) : Option CachedResponse :=
  match loads text with
  | some (.obj members) => do
      let fingerprint ← stringMember members "fingerprint"
      let statusCode ← natMember members "status_code"
      let body ← stringMember members "body"
      some ⟨fingerprint, statusCode, body,
        (stringMember members "media_type").getD "application/json"⟩
  | _ => none

/-- `cached_response`, for a body that decodes to a text. -/
def HandlerResponse.cached (resp : HandlerResponse) (fingerprint body : String) : CachedResponse :=
  ⟨fingerprint, resp.status, body,
    match resp.mediaType with
    | none => "application/json"
    | some mediaType => if mediaType = "" then "application/json" else mediaType⟩

/-- The replay of a cached response. -/
def CachedResponse.replay (c : CachedResponse) : Reply :=
  ⟨c.statusCode, c.body.toByteArray, some (contentTypeOf c.mediaType)⟩

/-! ## Redis -/

/-- The stored texts with the time they expire at, and the sorted set of completed keys. -/
structure Redis where
  values : String → Option (String × ℤ)
  completedIndex : List (String × ℤ)

namespace Redis

/-- `GET`: an expired key is not there. -/
def get (redis : Redis) (now : ℤ) (key : String) : Option String :=
  match redis.values key with
  | none => none
  | some (text, expiresAt) => if now < expiresAt then some text else none

/-- `SETEX`. -/
def setex (redis : Redis) (now : ℤ) (key : String) (ttl : ℤ) (text : String) : Redis :=
  { redis with values := Function.update redis.values key (some (text, now + ttl)) }

/-- `DEL`. -/
def delete (redis : Redis) (key : String) : Redis :=
  { redis with values := Function.update redis.values key none }

/-- `ZADD`. -/
def zadd (redis : Redis) (key : String) (score : ℤ) : Redis :=
  { redis with
    completedIndex := redis.completedIndex.filter (fun m => m.1 ≠ key) ++ [(key, score)] }

/-- `ZRANGE` of the first members: lowest score first, equal scores in the order of the members. -/
def zrange (redis : Redis) (count : ℕ) : List String :=
  let sorted := redis.completedIndex.insertionSort fun a b => a.2 < b.2 ∨ (a.2 = b.2 ∧ a.1 ≤ b.1)
  (sorted.take count).map Prod.fst

/-- `ZREM`. -/
def zrem (redis : Redis) (members : List String) : Redis :=
  { redis with completedIndex := redis.completedIndex.filter fun m => !members.contains m.1 }

end Redis

/-! ## Dispatch -/

/-- Where a request stands in `dispatch`. -/
inductive Pc
  /-- `call_next` for a request that the middleware leaves alone. -/
  | pass
  /-- `_redis_get`. -/
  | lookup (fingerprint key : String)
  /-- `call_next`. -/
  | handle (fingerprint key : String)
  /-- `_redis_setex`, with the text to store. -/
  | store (resp : HandlerResponse) (key text : String)
  /-- `_track_completed_key`. -/
  | track (resp : HandlerResponse) (key : String)
  /-- `_enforce_completed_key_cap`: `zcard`, `zrange`, a `delete` for each member, `zrem`. -/
  | countKeys (resp : HandlerResponse)
  | rangeKeys (resp : HandlerResponse) (overflow : ℕ)
  | evict (resp : HandlerResponse) (oldest : List String) (member : String) (rest : List String)
  | forget (resp : HandlerResponse) (oldest : List String)
  | returned (out : Outcome Reply)

/-- The methods the middleware looks at. -/
def stateChanging : List String := ["POST", "PUT", "PATCH", "DELETE"]

/-- `dispatch` up to its first await. -/
def start (cfg : Settings) (r : Request) : Pc :=
  if r.method ∈ stateChanging then
    match r.idempotencyKey, cacheKey cfg r with
    | some idempotencyKey, some key =>
        if idempotencyKey = "" then .pass
        else
          match computeFingerprint cfg r.method r.path r.body with
          | .of fingerprint => .lookup fingerprint key
          | .malformedRequestBody detail => .returned (.ok (problem 400 detail))
          | .raised e => .returned (.error e)
    | _, _ => .pass
  else .pass

/-- A request on its way in a process. `ran` records the response its handler ran to when that was a
2xx, and `stored` the time it was stored, both with the time; no code reads them. -/
structure Call where
  process : ℕ
  request : Request
  pc : Pc
  ran : Option (ℤ × HandlerResponse)
  stored : Option ℤ

/-- A 2xx response. -/
def HandlerResponse.success (resp : HandlerResponse) : Bool :=
  200 ≤ resp.status && resp.status < 300

/-- The handler's answer to a request that waits for it: a response, or an exception. -/
def answered (now : ℤ) (answer : Outcome HandlerResponse) (c : Call) : Option Call :=
  let ran := match answer with
    | .ok resp => if resp.success then some (now, resp) else none
    | .error _ => none
  match c.pc, answer with
  | .pass, .ok resp => some { c with pc := .returned (.ok resp.direct), ran := ran }
  | .pass, .error e => some { c with pc := .returned (.error e) }
  | .handle _ _, .error e => some { c with pc := .returned (.error e) }
  | .handle fingerprint key, .ok resp =>
      if resp.success then
        match String.fromUTF8? resp.body with
        | none =>
            some { c with
              pc := .returned (.error (.valueError "'utf-8' codec can't decode"))
              ran := ran }
        | some body =>
            some { c with pc := .store resp key (resp.cached fingerprint body).dumps, ran := ran }
      else some { c with pc := .returned (.ok resp.direct) }
  | _, _ => none

/-- What a lookup that found a text leads to. -/
def replayOrConflict (fingerprint text : String) : Outcome Reply :=
  match readCached text with
  | none => .error (.valueError "malformed cached response")
  | some cached => if cached.fingerprint ≠ fingerprint then .ok conflict else .ok cached.replay

/-- A Redis command that Redis answers. -/
def commanded (cfg : Settings) (now : ℤ) (redis : Redis) (writtenAt : ℤ) (c : Call) :
    Option (Redis × Call) :=
  match c.pc with
  | .lookup fingerprint key =>
      match redis.get now key with
      | none => some (redis, { c with pc := .handle fingerprint key })
      | some text => some (redis, { c with pc := .returned (replayOrConflict fingerprint text) })
  | .store resp key text =>
      some (redis.setex now key cfg.ttl text, { c with pc := .track resp key, stored := some now })
  | .track resp key => some (redis.zadd key writtenAt, { c with pc := .countKeys resp })
  | .countKeys resp =>
      let overflow := redis.completedIndex.length - cfg.maxCompletedKeys
      if overflow ≤ 0 then some (redis, { c with pc := .returned (.ok resp.direct) })
      else some (redis, { c with pc := .rangeKeys resp overflow.toNat })
  | .rangeKeys resp overflow =>
      match redis.zrange overflow with
      | [] => some (redis, { c with pc := .returned (.ok resp.direct) })
      | member :: rest => some (redis, { c with pc := .evict resp (member :: rest) member rest })
  | .evict resp oldest member [] => some (redis.delete member, { c with pc := .forget resp oldest })
  | .evict resp oldest member (next :: rest) =>
      some (redis.delete member, { c with pc := .evict resp oldest next rest })
  | .forget resp oldest => some (redis.zrem oldest, { c with pc := .returned (.ok resp.direct) })
  | _ => none

/-- A Redis command that is not sent, the circuit being open, or that fails. -/
def skipped (c : Call) : Option Call :=
  match c.pc with
  | .lookup fingerprint key => some { c with pc := .handle fingerprint key }
  | .store resp key _ => some { c with pc := .track resp key }
  | .track resp _ => some { c with pc := .countKeys resp }
  | .countKeys resp => some { c with pc := .returned (.ok resp.direct) }
  | .rangeKeys resp _ => some { c with pc := .returned (.ok resp.direct) }
  | .evict resp _ _ _ => some { c with pc := .returned (.ok resp.direct) }
  | .forget resp _ => some { c with pc := .returned (.ok resp.direct) }
  | _ => none

/-- The helpers look at the circuit once, before their first command. -/
def Pc.checksCircuit : Pc → Bool
  | .lookup _ _ => true
  | .store _ _ _ => true
  | .track _ _ => true
  | .countKeys _ => true
  | _ => false

/-- Redis refuses a time to live that is not positive. -/
def Pc.refused (cfg : Settings) : Pc → Bool
  | .store _ _ _ => cfg.ttl ≤ 0
  | _ => false

/-- `_CIRCUIT_OPEN_TTL`. -/
def circuitOpenTtl : ℤ := 30

/-! ## Interleavings -/

/-- The time, the circuit breaker of each process, Redis, and the requests in the order in which they
began. -/
structure Sys where
  now : ℤ
  disabledUntil : ℕ → ℤ
  redis : Redis
  calls : List Call

/-- Processes that have just started on a Redis without completed keys. -/
def Sys.init : Sys := ⟨0, fun _ => 0, ⟨fun _ => none, []⟩, []⟩

/-- Time passes, a request arrives in a process, the handler of the `i`-th request answers, or the
`i`-th request sends its next Redis command, which Redis answers or which fails. -/
inductive Action
  | tick (seconds : ℕ)
  | arrive (process : ℕ) (r : Request)
  | answer (i : ℕ) (answer : Outcome HandlerResponse)
  | command (i : ℕ) (available : Bool) (writtenAt : ℤ)

/-- The interleaving semantics. -/
def step (cfg : Settings) (s : Sys) : Action → Option Sys
  | .tick seconds => some { s with now := s.now + seconds }
  | .arrive process r =>
      some { s with calls := s.calls ++ [⟨process, r, start cfg r, none, none⟩] }
  | .answer i answer =>
      match s.calls[i]? with
      | none => none
      | some c => (answered s.now answer c).map fun c' => { s with calls := s.calls.set i c' }
  | .command i available writtenAt =>
      match s.calls[i]? with
      | none => none
      | some c =>
          if c.pc.checksCircuit ∧ s.now < s.disabledUntil c.process then
            (skipped c).map fun c' => { s with calls := s.calls.set i c' }
          else if available ∧ ¬ c.pc.refused cfg then
            (commanded cfg s.now s.redis writtenAt c).map fun next =>
              { s with redis := next.1, calls := s.calls.set i next.2 }
          else
            (skipped c).map fun c' =>
              { s with
                disabledUntil := Function.update s.disabledUntil c.process (s.now + circuitOpenTtl)
                calls := s.calls.set i c' }

end ApexChainx.Idempotency
