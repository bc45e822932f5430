import ApexChainx.Idempotency.Replay
import ApexChainx.Lib.Table

/-!
# Requests under one key

What the middleware promises for the requests that carry the same key for the same actor, in every
interleaving of their steps and those of any other requests: `Idempotent`. The key is looked up before
the handler runs and stored after it, with nothing in between, so the promise is kept by the runs in
which no request looks the key up while another one is on its way from its lookup to the store
(`Conforms`, which also says what the fingerprint and the replay leave out). The invariant `Inv` says
which of the requests are on that way, and that a response that was stored less than a time to live ago
is what Redis holds.
-/

namespace ApexChainx.Idempotency

open ApexChainx.Lib

/-! ## The property -/

/-- Both bodies are empty, or both are JSON and equal up to the order of members. -/
def JsonEqual (cfg : Settings) (b b' : ByteArray) : Prop :=
  b.isEmpty = true ∧ b'.isEmpty = true ∨
    b.isEmpty = false ∧ b'.isEmpty = false ∧ ∃ j j', cfg.loads b = .value j ∧ cfg.loads b' = .value j' ∧
      j.sortKeys = j'.sortKeys

/-- The requests agree in method, path, query string and body. -/
structure SameRequest (cfg : Settings) (r r' : Request) : Prop where
  method : r.method = r'.method
  path : r.path = r'.path
  query : r.query = r'.query
  body : JsonEqual cfg r.body r'.body

/-- The request carries the key, for the actor, that `k` is made of. -/
def Call.Carries (cfg : Settings) (k : String) (c : Call) : Prop :=
  cacheKey cfg c.request = some k

/-- The handler runs to a 2xx at most once in the time to live of the key. While the key is completed,
a request that agrees with the one that completed it is answered as that one was, any other one with a
conflict, and neither reaches the handler. -/
structure Idempotent (cfg : Settings) (k : String) (s : Sys) : Prop where
  once : ∀ (i j : ℕ) (ci cj : Call) (ti tj : ℤ) (ri rj : HandlerResponse), s.calls[i]? = some ci →
    s.calls[j]? = some cj → i ≠ j → ci.Carries cfg k → cj.Carries cfg k → ci.ran = some (ti, ri) →
      cj.ran = some (tj, rj) → ti ≤ tj → ti + cfg.ttl ≤ tj
  first : ∀ c ∈ s.calls, ∀ t resp out, c.Carries cfg k → c.ran = some (t, resp) →
    c.pc = .returned out → out = .ok resp.direct
  others : ∀ ci ∈ s.calls, ∀ (j : ℕ) (cj : Call) t resp u fingerprint key writtenAt s',
    s.calls[j]? = some cj → ci.Carries cfg k → cj.Carries cfg k → ci.ran = some (t, resp) →
      ci.stored = some u → s.now < u + cfg.ttl → cj.pc = .lookup fingerprint key →
        step cfg s (.command j true writtenAt) = some s' →
          ∃ reply, s'.calls[j]? = some { cj with pc := .returned (.ok reply) } ∧
            (SameRequest cfg ci.request cj.request → reply = resp.direct) ∧
            (¬ SameRequest cfg ci.request cj.request → reply = conflict)

/-! ## The condition -/

/-- What the fingerprint takes for the body: an empty body counts as an empty object. -/
def payload (cfg : Settings) (body : ByteArray) : Option Json :=
  if body.isEmpty then some (.obj [])
  else
    match cfg.loads body with
    | .value j => some j
    | _ => none

/-- Two requests that the fingerprint tells apart if they differ: they do not differ in the query string
only, nor one has no body where the other has an empty object, nor do their texts collide under
SHA-256. -/
structure ToldApart (cfg : Settings) (r r' : Request) : Prop where
  collision : ∀ j j', payload cfg r.body = some j → payload cfg r'.body = some j' →
    cfg.sha256 (fingerprintText r.method r.path j) = cfg.sha256 (fingerprintText r'.method r'.path j') →
      fingerprintText r.method r.path j = fingerprintText r'.method r'.path j'
  leftOut : ∀ j j', payload cfg r.body = some j → payload cfg r'.body = some j' →
    r.method = r'.method → r.path = r'.path → j.sortKeys = j'.sortKeys →
      r.query = r'.query ∧ r.body.isEmpty = r'.body.isEmpty

/-- A request that the middleware looks up: a state-changing method, a key that is not empty, and no body
that is not JSON. -/
structure LookedUp (cfg : Settings) (r : Request) : Prop where
  method : r.method ∈ stateChanging
  key : r.idempotencyKey ≠ some ""
  body : ∃ j, payload cfg r.body = some j

/-- On the way from a lookup that found nothing to the store. -/
def Pc.inFlight : Pc → Bool
  | .handle _ _ => true
  | .store _ _ _ => true
  | _ => false

/-- The requests under the key `k` reach nothing that the middleware gets wrong, with Redis available:
what arrives is looked up and told apart from what came before, a 2xx has a body of UTF-8 text and keeps
its content type in a replay, no lookup falls between another request's lookup and store, and the cap
evicts the key only when it has expired. -/
def Conforms (cfg : Settings) (k : String) (s : Sys) : Action → Prop
  | .tick _ => True
  | .arrive _ r => cacheKey cfg r = some k →
      LookedUp cfg r ∧ ∀ c ∈ s.calls, c.Carries cfg k → ToldApart cfg c.request r
  | .answer i answer => ∀ (c : Call) resp, s.calls[i]? = some c → c.Carries cfg k →
      answer = .ok resp → resp.success = true → (∃ body, String.fromUTF8? resp.body = some body) ∧ resp.KeepsContentType
  | .command i available _ => available = true ∧ ∀ c : Call, s.calls[i]? = some c →
      c.pc.refused cfg = false ∧
      (∀ fingerprint, c.pc = .lookup fingerprint k → ∀ d ∈ s.calls, d.Carries cfg k → d.pc.inFlight = false) ∧
      (∀ resp oldest rest, c.pc = .evict resp oldest k rest → s.redis.get s.now k = none)

/-! ## Fingerprints of requests that are told apart -/

variable {cfg : Settings} {k : String} {s s' : Sys}

theorem computeFingerprint_of_payload {method path : String} {body : ByteArray} {j : Json}
    (h : payload cfg body = some j) :
    computeFingerprint cfg method path body = .of (cfg.sha256 (fingerprintText method path j)) := by
  unfold payload at h
  unfold computeFingerprint
  by_cases hempty : body.isEmpty = true
  · rw [if_pos hempty] at h ⊢
    rw [Option.some.inj h]
  · rw [if_neg hempty] at h ⊢
    cases hloads : cfg.loads body with
    | value decoded =>
        rw [hloads] at h
        rw [Option.some.inj h]
    | malformed =>
        rw [hloads] at h
        cases h
    | raised e =>
        rw [hloads] at h
        cases h

theorem jsonEqual_iff {b b' : ByteArray} {j j' : Json} (hj : payload cfg b = some j)
    (hj' : payload cfg b' = some j') :
    JsonEqual cfg b b' ↔ b.isEmpty = b'.isEmpty ∧ j.sortKeys = j'.sortKeys := by
  unfold payload at hj hj'
  unfold JsonEqual
  cases hb : b.isEmpty <;> cases hb' : b'.isEmpty
  · rw [if_neg (by simp [hb])] at hj
    rw [if_neg (by simp [hb'])] at hj'
    cases hloads : cfg.loads b <;> rw [hloads] at hj <;> try cases hj
    cases hloads' : cfg.loads b' <;> rw [hloads'] at hj' <;> try cases hj'
    simp
  · simp
  · simp
  · rw [if_pos hb] at hj
    rw [if_pos hb'] at hj'
    rw [← Option.some.inj hj, ← Option.some.inj hj']
    simp

theorem ToldApart.symm {r r' : Request} (h : ToldApart cfg r r') : ToldApart cfg r' r where
  collision := by
    intro j j' hj hj' heq
    exact (h.collision j' j hj' hj heq.symm).symm
  leftOut := by
    intro j j' hj hj' hmethod hpath hsort
    obtain ⟨hquery, hempty⟩ := h.leftOut j' j hj' hj hmethod.symm hpath.symm hsort.symm
    exact ⟨hquery.symm, hempty.symm⟩

/-- The fingerprint that a request is looked up with. -/
def Fingerprinted (cfg : Settings) (r : Request) (fingerprint : String) : Prop :=
  computeFingerprint cfg r.method r.path r.body = .of fingerprint

/-- Requests that are told apart have the same fingerprint exactly when they agree. -/
theorem fingerprint_eq_iff {r r' : Request} {fingerprint fingerprint' : String} (hr : LookedUp cfg r)
    (hr' : LookedUp cfg r') (htold : ToldApart cfg r r') (h : Fingerprinted cfg r fingerprint)
    (h' : Fingerprinted cfg r' fingerprint') :
    fingerprint = fingerprint' ↔ SameRequest cfg r r' := by
  obtain ⟨j, hj⟩ := hr.body
  obtain ⟨j', hj'⟩ := hr'.body
  unfold Fingerprinted at h h'
  rw [computeFingerprint_of_payload hj] at h
  rw [computeFingerprint_of_payload hj'] at h'
  obtain rfl := Fingerprint.of.inj h
  obtain rfl := Fingerprint.of.inj h'
  constructor
  · intro heq
    obtain ⟨hmethod, hpath, hsort⟩ :=
      fingerprintText_inj hr.method hr'.method (htold.collision j j' hj hj' heq)
    obtain ⟨hquery, hempty⟩ := htold.leftOut j j' hj hj' hmethod hpath hsort
    exact ⟨hmethod, hpath, hquery, (jsonEqual_iff hj hj').mpr ⟨hempty, hsort⟩⟩
  · intro hsame
    obtain ⟨-, hsort⟩ := (jsonEqual_iff hj hj').mp hsame.body
    rw [hsame.method, hsame.path, fingerprintText, fingerprintText, hsort]

/-! ## The invariant -/

/-- The key a request still has to look up, store or track. -/
def Pc.key? : Pc → Option String
  | .lookup _ key => some key
  | .handle _ key => some key
  | .store _ key _ => some key
  | .track _ key => some key
  | _ => none

/-- A handler that ran to a 2xx at `t`, with what is stored for it. -/
structure Ran (cfg : Settings) (c : Call) (t : ℤ) (resp : HandlerResponse) (text : String) : Prop where
  ran : c.ran = some (t, resp)
  replays : ∃ fingerprint body, Fingerprinted cfg c.request fingerprint ∧ resp.success = true ∧
    String.fromUTF8? resp.body = some body ∧ resp.KeepsContentType ∧
    text = (resp.cached fingerprint body).dumps

/-- The response was stored after the handler ran to it. -/
def Completed (cfg : Settings) (now : ℤ) (c : Call) (resp : HandlerResponse) : Prop :=
  ∃ t u text, Ran cfg c t resp text ∧ c.stored = some u ∧ t ≤ u ∧ u ≤ now

/-- What is known of a request under the key, by where it stands. -/
def Stage (cfg : Settings) (now : ℤ) (c : Call) : Prop :=
  match c.pc with
  | .pass => False
  | .lookup fingerprint _ => Fingerprinted cfg c.request fingerprint ∧ c.ran = none ∧ c.stored = none
  | .handle fingerprint _ => Fingerprinted cfg c.request fingerprint ∧ c.ran = none ∧ c.stored = none
  | .store resp _ text => (∃ t ≤ now, Ran cfg c t resp text) ∧ c.stored = none
  | .track resp _ => Completed cfg now c resp
  | .countKeys resp => Completed cfg now c resp
  | .rangeKeys resp _ => Completed cfg now c resp
  | .evict resp _ _ _ => Completed cfg now c resp
  | .forget resp _ => Completed cfg now c resp
  | .returned out =>
      c.ran = none ∧ c.stored = none ∨ ∃ resp, Completed cfg now c resp ∧ out = .ok resp.direct

/-- The state of the requests under the key `k`. At most one of them is in flight, and then no response
that was stored for another one is still alive; a response that is alive is what Redis holds. -/
structure Inv (cfg : Settings) (k : String) (s : Sys) : Prop where
  closed : ∀ p, s.disabledUntil p ≤ s.now
  keys : ∀ (i : ℕ) (c : Call), s.calls[i]? = some c → ∀ key, c.pc.key? = some key →
    cacheKey cfg c.request = some key
  lookedUp : ∀ (i : ℕ) (c : Call), s.calls[i]? = some c → c.Carries cfg k → LookedUp cfg c.request
  toldApart : ∀ (i j : ℕ) (ci cj : Call), s.calls[i]? = some ci → s.calls[j]? = some cj → i ≠ j →
    ci.Carries cfg k → cj.Carries cfg k → ToldApart cfg ci.request cj.request
  stages : ∀ (i : ℕ) (c : Call), s.calls[i]? = some c → c.Carries cfg k → Stage cfg s.now c
  alone : ∀ (i j : ℕ) (ci cj : Call), s.calls[i]? = some ci → s.calls[j]? = some cj →
    ci.Carries cfg k → cj.Carries cfg k → ci.pc.inFlight = true → cj.pc.inFlight = true → i = j
  free : ∀ (i j : ℕ) (ci cj : Call), s.calls[i]? = some ci → s.calls[j]? = some cj →
    ci.Carries cfg k → cj.Carries cfg k → cj.pc.inFlight = true →
      ∀ u, ci.stored = some u → u + cfg.ttl ≤ s.now
  cached : ∀ (i : ℕ) (c : Call), s.calls[i]? = some c → c.Carries cfg k → ∀ u, c.stored = some u →
    s.now < u + cfg.ttl →
      ∃ t resp text, Ran cfg c t resp text ∧ s.redis.values k = some (text, u + cfg.ttl)
  apart : ∀ (i j : ℕ) (ci cj : Call) (ti tj : ℤ) (ri rj : HandlerResponse), s.calls[i]? = some ci →
    s.calls[j]? = some cj → i ≠ j → ci.Carries cfg k → cj.Carries cfg k → ci.ran = some (ti, ri) →
      cj.ran = some (tj, rj) → ti ≤ tj → ti + cfg.ttl ≤ tj

theorem inv_init : Inv cfg k Sys.init := by
  refine ⟨fun _ => Int.le_refl 0, ?_, ?_, ?_, ?_, ?_, ?_, ?_, ?_⟩ <;> simp [Sys.init]

/-- Redis holds a completed key. -/
theorem Inv.get {i : ℕ} {c : Call} {u : ℤ} (h : Inv cfg k s) (hc : s.calls[i]? = some c)
    (hk : c.Carries cfg k) (hu : c.stored = some u) (hnow : s.now < u + cfg.ttl) :
    ∃ t resp text, Ran cfg c t resp text ∧ s.redis.get s.now k = some text := by
  obtain ⟨t, resp, text, hran, hvalue⟩ := h.cached i c hc hk u hu hnow
  refine ⟨t, resp, text, hran, ?_⟩
  rw [Redis.get, hvalue]
  exact if_pos hnow

/-! ## Time and arrivals -/

theorem Completed.mono {now now' : ℤ} {c : Call} {resp : HandlerResponse} (hle : now ≤ now')
    (h : Completed cfg now c resp) : Completed cfg now' c resp := by
  obtain ⟨t, u, text, hran, hu, htu, hnow⟩ := h
  exact ⟨t, u, text, hran, hu, htu, by omega⟩

theorem Completed.goto {now : ℤ} {c : Call} {resp : HandlerResponse} (h : Completed cfg now c resp)
    (pc : Pc) : Completed cfg now { c with pc := pc } resp := by
  obtain ⟨t, u, text, hran, hu, htu, hnow⟩ := h
  exact ⟨t, u, text, ⟨hran.ran, hran.replays⟩, hu, htu, hnow⟩

theorem Stage.mono {now now' : ℤ} {c : Call} (hle : now ≤ now') (h : Stage cfg now c) :
    Stage cfg now' c := by
  unfold Stage at h ⊢
  cases hpc : c.pc <;> simp only [hpc] at h ⊢
  case lookup => exact h
  case handle => exact h
  case store =>
      obtain ⟨⟨t, ht, hran⟩, hstored⟩ := h
      exact ⟨⟨t, by omega, hran⟩, hstored⟩
  case track => exact h.mono hle
  case countKeys => exact h.mono hle
  case rangeKeys => exact h.mono hle
  case evict => exact h.mono hle
  case forget => exact h.mono hle
  case returned =>
      rcases h with hnone | ⟨resp, hcompleted, hout⟩
      · exact .inl hnone
      · exact .inr ⟨resp, hcompleted.mono hle, hout⟩

theorem Inv.tick (h : Inv cfg k s) (seconds : ℕ) : Inv cfg k { s with now := s.now + seconds } where
  closed p := by
    have := h.closed p
    show s.disabledUntil p ≤ s.now + seconds
    omega
  keys := h.keys
  lookedUp := h.lookedUp
  toldApart := h.toldApart
  stages i c hc hk := (h.stages i c hc hk).mono (by show s.now ≤ s.now + seconds; omega)
  alone := h.alone
  free i j ci cj hi hj hki hkj hflight u hu := by
    have := h.free i j ci cj hi hj hki hkj hflight u hu
    show u + cfg.ttl ≤ s.now + seconds
    omega
  cached i c hc hk u hu hnow := by
    have hnow' : s.now + seconds < u + cfg.ttl := hnow
    exact h.cached i c hc hk u hu (by omega)
  apart := h.apart

/-- A request that is looked up starts with its lookup. -/
theorem start_of_lookedUp {r : Request} (h : LookedUp cfg r) (hk : cacheKey cfg r = some k) :
    ∃ fingerprint, start cfg r = .lookup fingerprint k ∧ Fingerprinted cfg r fingerprint := by
  obtain ⟨j, hj⟩ := h.body
  have hfingerprint : Fingerprinted cfg r (cfg.sha256 (fingerprintText r.method r.path j)) :=
    computeFingerprint_of_payload hj
  refine ⟨_, ?_, hfingerprint⟩
  unfold Fingerprinted at hfingerprint
  unfold start
  rw [if_pos h.method]
  cases hkey : r.idempotencyKey with
  | none =>
      rw [cacheKey, hkey] at hk
      cases hk
  | some idempotencyKey =>
      have hne : idempotencyKey ≠ "" := by
        rintro rfl
        exact h.key hkey
      simp only [hk, if_neg hne, hfingerprint]

theorem start_inFlight (r : Request) : (start cfg r).inFlight = false := by
  unfold start
  split_ifs
  · split
    · split_ifs
      · rfl
      · split <;> rfl
    · rfl
  · rfl

theorem key?_start {r : Request} {key : String} (h : (start cfg r).key? = some key) :
    cacheKey cfg r = some key := by
  unfold start at h
  split_ifs at h
  · split at h
    · rename_i hk
      split_ifs at h
      · cases h
      · split at h
        · rw [hk]
          exact h
        · cases h
        · cases h
    · cases h
  · cases h

theorem Inv.arrive (h : Inv cfg k s) (process : ℕ) (r : Request)
    (hok : Conforms cfg k s (.arrive process r)) :
    Inv cfg k { s with calls := s.calls ++ [⟨process, r, start cfg r, none, none⟩] } where
  closed := h.closed
  keys i c hc := by
    rcases getElem?_insert hc with hc | ⟨-, rfl⟩
    · exact h.keys i c hc
    · exact fun key hkey => key?_start hkey
  lookedUp i c hc hk := by
    rcases getElem?_insert hc with hc | ⟨-, rfl⟩
    · exact h.lookedUp i c hc hk
    · exact (hok hk).1
  toldApart i j ci cj hi hj hne hki hkj := by
    rcases getElem?_insert hi with hi | ⟨rfl, rfl⟩ <;> rcases getElem?_insert hj with hj | ⟨rfl, rfl⟩
    · exact h.toldApart i j ci cj hi hj hne hki hkj
    · exact (hok hkj).2 ci (List.mem_of_getElem? hi) hki
    · exact ((hok hki).2 cj (List.mem_of_getElem? hj) hkj).symm
    · exact absurd rfl hne
  stages i c hc hk := by
    rcases getElem?_insert hc with hc | ⟨-, rfl⟩
    · exact h.stages i c hc hk
    · obtain ⟨fingerprint, hstart, hfingerprint⟩ := start_of_lookedUp (hok hk).1 hk
      simpa only [Stage, hstart, and_true] using hfingerprint
  alone i j ci cj hi hj hki hkj hfi hfj := by
    rcases getElem?_insert hi with hi | ⟨-, rfl⟩
    · rcases getElem?_insert hj with hj | ⟨-, rfl⟩
      · exact h.alone i j ci cj hi hj hki hkj hfi hfj
      · exact absurd hfj (by simp [start_inFlight])
    · exact absurd hfi (by simp [start_inFlight])
  free i j ci cj hi hj hki hkj hfj u hu := by
    rcases getElem?_insert hi with hi | ⟨-, rfl⟩
    · rcases getElem?_insert hj with hj | ⟨-, rfl⟩
      · exact h.free i j ci cj hi hj hki hkj hfj u hu
      · exact absurd hfj (by simp [start_inFlight])
    · cases hu
  cached i c hc hk u hu hnow := by
    rcases getElem?_insert hc with hc | ⟨-, rfl⟩
    · exact h.cached i c hc hk u hu hnow
    · cases hu
  apart i j ci cj ti tj ri rj hi hj hne hki hkj hri hrj hle := by
    rcases getElem?_insert hi with hi | ⟨-, rfl⟩
    · rcases getElem?_insert hj with hj | ⟨-, rfl⟩
      · exact h.apart i j ci cj ti tj ri rj hi hj hne hki hkj hri hrj hle
      · cases hrj
    · cases hri

/-! ## Moves -/

/-- The state after the `i`-th request has become `c'` and Redis `redis'`. -/
def Sys.moved (s : Sys) (i : ℕ) (redis' : Redis) (c' : Call) : Sys :=
  { s with redis := redis', calls := s.calls.set i c' }

/-- A move as it touches a request under the key: its request stays, and the key it is at. -/
structure SameCall (c c' : Call) : Prop where
  request : c'.request = c.request
  key : ∀ key, c'.pc.key? = some key → c.pc.key? = some key

variable {i : ℕ} {c c' : Call} {redis' : Redis}

theorem Call.Carries.of_request {d d₀ : Call} (hk : d.Carries cfg k) (h : d.request = d₀.request) :
    d₀.Carries cfg k := by
  unfold Call.Carries at *
  rw [← h, hk]

theorem SameCall.carries (h : SameCall c c') (hk : c'.Carries cfg k) : c.Carries cfg k :=
  hk.of_request h.request

/-- What every move keeps: the keys, and which requests there are. -/
theorem Inv.keys_moved (h : Inv cfg k s) (hc : s.calls[i]? = some c) (hsame : SameCall c c') :
    ∀ (j : ℕ) (d : Call), (s.moved i redis' c').calls[j]? = some d →
      (∀ key, d.pc.key? = some key → cacheKey cfg d.request = some key) ∧
      ∃ d₀, s.calls[j]? = some d₀ ∧ d.request = d₀.request := by
  intro j d hd
  rcases getElem?_replace hd with ⟨rfl, rfl⟩ | ⟨hne, hd⟩
  · refine ⟨fun key hkey => ?_, c, hc, hsame.request⟩
    rw [hsame.request]
    exact h.keys j c hc key (hsame.key key hkey)
  · exact ⟨h.keys j d hd, d, hd, rfl⟩

/-- The invariant after a move, from what the move changes for the requests under the key. -/
theorem Inv.of_moved (h : Inv cfg k s) (hc : s.calls[i]? = some c) (hsame : SameCall c c')
    (hstage : c.Carries cfg k → Stage cfg s.now c')
    (halone : c.Carries cfg k → c'.pc.inFlight = true → c.pc.inFlight = true ∨
      ∀ (j : ℕ) (d : Call), s.calls[j]? = some d → d.Carries cfg k → d.pc.inFlight = false)
    (hfree : ∀ (a b : ℕ) (ca cb : Call), (s.moved i redis' c').calls[a]? = some ca →
      (s.moved i redis' c').calls[b]? = some cb → ca.Carries cfg k → cb.Carries cfg k →
        cb.pc.inFlight = true → ∀ u, ca.stored = some u → u + cfg.ttl ≤ s.now)
    (hcached : ∀ (j : ℕ) (d : Call), (s.moved i redis' c').calls[j]? = some d → d.Carries cfg k →
      ∀ u, d.stored = some u → s.now < u + cfg.ttl →
        ∃ t resp text, Ran cfg d t resp text ∧ redis'.values k = some (text, u + cfg.ttl))
    (hapart : ∀ (j : ℕ) (d : Call) (t tj : ℤ) (r rj : HandlerResponse), c.Carries cfg k → j ≠ i →
      s.calls[j]? = some d → d.Carries cfg k → c'.ran = some (t, r) → d.ran = some (tj, rj) →
        (t ≤ tj → t + cfg.ttl ≤ tj) ∧ (tj ≤ t → tj + cfg.ttl ≤ t)) :
    Inv cfg k (s.moved i redis' c') where
  closed := h.closed
  keys j d hd := (h.keys_moved hc hsame j d hd).1
  lookedUp j d hd hk := by
    obtain ⟨-, d₀, hd₀, hrequest⟩ := h.keys_moved hc hsame j d hd
    rw [hrequest]
    exact h.lookedUp j d₀ hd₀ (hk.of_request hrequest)
  toldApart a b ca cb ha hb hne hka hkb := by
    obtain ⟨-, a₀, ha₀, hrequest⟩ := h.keys_moved hc hsame a ca ha
    obtain ⟨-, b₀, hb₀, hrequest'⟩ := h.keys_moved hc hsame b cb hb
    rw [hrequest, hrequest']
    exact h.toldApart a b a₀ b₀ ha₀ hb₀ hne (hka.of_request hrequest) (hkb.of_request hrequest')
  stages j d hd hk := by
    rcases getElem?_replace hd with ⟨rfl, rfl⟩ | ⟨-, hd⟩
    · exact hstage (hsame.carries hk)
    · exact h.stages j d hd hk
  alone a b ca cb ha hb hka hkb hfa hfb := by
    -- one of the two is the request that moved: it was in flight before, or nobody was
    have hmoved : ∀ (j : ℕ) (d : Call), j ≠ i → s.calls[j]? = some d → d.Carries cfg k →
        d.pc.inFlight = true → c'.Carries cfg k → c'.pc.inFlight = true → False := by
      intro j d hne hd hk hflight hk' hflight'
      have hkc := hsame.carries hk'
      rcases halone hkc hflight' with hbefore | hnone
      · exact hne (h.alone j i d c hd hc hk hkc hflight hbefore)
      · rw [hnone j d hd hk] at hflight
        cases hflight
    rcases getElem?_replace ha with ⟨rfl, rfl⟩ | ⟨hne, ha₀⟩ <;>
      rcases getElem?_replace hb with ⟨rfl, rfl⟩ | ⟨hne', hb₀⟩
    · rfl
    · exact (hmoved b cb hne' hb₀ hkb hfb hka hfa).elim
    · exact (hmoved a ca hne ha₀ hka hfa hkb hfb).elim
    · exact h.alone a b ca cb ha₀ hb₀ hka hkb hfa hfb
  free := hfree
  cached := hcached
  apart a b ca cb ta tb ra rb ha hb hne hka hkb hra hrb hle := by
    rcases getElem?_replace ha with ⟨rfl, rfl⟩ | ⟨hna, ha₀⟩ <;>
      rcases getElem?_replace hb with ⟨rfl, rfl⟩ | ⟨hnb, hb₀⟩
    · exact absurd rfl hne
    · exact (hapart b cb ta tb ra rb (hsame.carries hka) hnb hb₀ hkb hra hrb).1 hle
    · exact (hapart a ca tb ta rb ra (hsame.carries hkb) hna ha₀ hka hrb hra).2 hle
    · exact h.apart a b ca cb ta tb ra rb ha₀ hb₀ hne hka hkb hra hrb hle

/-- A move that runs no handler to a 2xx, stores nothing, and begins no lookup that finds nothing. -/
theorem Inv.quiet (h : Inv cfg k s) (hc : s.calls[i]? = some c) (hsame : SameCall c c')
    (hmine : c.Carries cfg k → c'.ran = c.ran ∧ c'.stored = c.stored ∧
      (c'.pc.inFlight = true → c.pc.inFlight = true) ∧ Stage cfg s.now c')
    (hvalue : redis'.values k = s.redis.values k ∨ s.redis.get s.now k = none) :
    Inv cfg k (s.moved i redis' c') := by
  -- a request under the key is as it was, but for where it stands
  have hbefore : ∀ (j : ℕ) (d : Call), (s.moved i redis' c').calls[j]? = some d → d.Carries cfg k →
      ∃ d₀, s.calls[j]? = some d₀ ∧ d₀.Carries cfg k ∧ d.request = d₀.request ∧ d.ran = d₀.ran ∧
        d.stored = d₀.stored ∧ (d.pc.inFlight = true → d₀.pc.inFlight = true) := by
    intro j d hd hk
    rcases getElem?_replace hd with ⟨rfl, rfl⟩ | ⟨-, hd⟩
    · have hkc := hsame.carries hk
      obtain ⟨hran, hstored, hflight, -⟩ := hmine hkc
      exact ⟨c, hc, hkc, hsame.request, hran, hstored, hflight⟩
    · exact ⟨d, hd, hk, rfl, rfl, rfl, id⟩
  refine h.of_moved hc hsame (fun hk => (hmine hk).2.2.2) ?_ ?_ ?_ ?_
  · exact fun hk hflight => .inl ((hmine hk).2.2.1 hflight)
  · intro a b ca cb ha hb hka hkb hflight u hu
    obtain ⟨a₀, ha₀, hka₀, -, -, hstored, -⟩ := hbefore a ca ha hka
    obtain ⟨b₀, hb₀, hkb₀, -, -, -, hflight₀⟩ := hbefore b cb hb hkb
    exact h.free a b a₀ b₀ ha₀ hb₀ hka₀ hkb₀ (hflight₀ hflight) u (hstored ▸ hu)
  · intro j d hd hk u hu hnow
    obtain ⟨d₀, hd₀, hk₀, hrequest, hran, hstored, -⟩ := hbefore j d hd hk
    rw [hstored] at hu
    obtain ⟨t, resp, text, ⟨hran₀, hreplays⟩, hvalue₀⟩ := h.cached j d₀ hd₀ hk₀ u hu hnow
    refine ⟨t, resp, text, ⟨by rw [hran, hran₀], ?_⟩, ?_⟩
    · rw [hrequest]
      exact hreplays
    · rcases hvalue with hvalue | hexpired
      · rw [hvalue, hvalue₀]
      · rw [Redis.get, hvalue₀] at hexpired
        simp only [if_pos hnow] at hexpired
        cases hexpired
  · intro j d t tj r rj hkc hne hd hk hr hrj
    rw [(hmine hkc).1] at hr
    exact ⟨h.apart i j c d t tj r rj hc hd hne.symm hkc hk hr hrj,
      h.apart j i d c tj t rj r hd hc hne hk hkc hrj hr⟩

/-- A lookup that finds nothing: no response is alive, and nobody else is in flight. -/
theorem Inv.miss {fingerprint key : String} (h : Inv cfg k s) (hc : s.calls[i]? = some c)
    (hpc : c.pc = .lookup fingerprint key) (hget : s.redis.get s.now key = none)
    (hnobody : c.Carries cfg k → ∀ d ∈ s.calls, d.Carries cfg k → d.pc.inFlight = false) :
    Inv cfg k (s.moved i s.redis { c with pc := .handle fingerprint key }) := by
  have hsame : SameCall c { c with pc := .handle fingerprint key } :=
    ⟨rfl, fun key' hkey => by rw [hpc]; exact hkey⟩
  by_cases hk : c.Carries cfg k
  · have hkey : key = k := by
      have hcarried := h.keys i c hc key (by rw [hpc]; rfl)
      exact Option.some.inj (hcarried.symm.trans hk)
    have hstage : Fingerprinted cfg c.request fingerprint ∧ c.ran = none ∧ c.stored = none := by
      simpa only [Stage, hpc] using h.stages i c hc hk
    have hdead : ∀ (j : ℕ) (d : Call), s.calls[j]? = some d → d.Carries cfg k → ∀ u,
        d.stored = some u → u + cfg.ttl ≤ s.now := by
      intro j d hd hkd u hu
      by_contra hlive
      obtain ⟨t, resp, text, -, hsome⟩ := h.get hd hkd hu (by omega)
      rw [← hkey, hget] at hsome
      cases hsome
    refine h.of_moved hc hsame (fun _ => hstage) ?_ ?_ ?_ ?_
    · exact fun hk _ => .inr fun j d hd => hnobody hk d (List.mem_of_getElem? hd)
    · intro a b ca cb ha hb hka hkb hflight u hu
      rcases getElem?_replace ha with ⟨rfl, rfl⟩ | ⟨-, ha₀⟩
      · exact hdead a c hc hk u hu
      · exact hdead a ca ha₀ hka u hu
    · intro j d hd hkd u hu hnow
      rcases getElem?_replace hd with ⟨rfl, rfl⟩ | ⟨-, hd₀⟩
      · have := hdead j c hc hk u hu
        omega
      · exact h.cached j d hd₀ hkd u hu hnow
    · intro j d t tj r rj _ _ _ _ hr
      rw [hstage.2.1] at hr
      cases hr
  · exact h.quiet hc hsame (fun hk' => absurd hk' hk) (.inl rfl)

/-- A handler that ran to a 2xx has its response stored, unless it is still in flight. -/
theorem Stage.stored_of_ran {now t : ℤ} {d : Call} {resp : HandlerResponse} (h : Stage cfg now d)
    (hran : d.ran = some (t, resp)) (hflight : d.pc.inFlight = false) :
    ∃ u, d.stored = some u ∧ t ≤ u := by
  have hcompleted : ∀ {resp' : HandlerResponse}, Completed cfg now d resp' →
      ∃ u, d.stored = some u ∧ t ≤ u := by
    rintro resp' ⟨t', u, text, hran', hu, hle, -⟩
    have heq := hran'.ran
    rw [hran] at heq
    obtain rfl := (Prod.mk.inj (Option.some.inj heq)).1
    exact ⟨u, hu, hle⟩
  unfold Stage at h
  cases hpc : d.pc <;> simp only [hpc] at h hflight
  case lookup =>
      rw [h.2.1] at hran
      cases hran
  case handle => cases hflight
  case store => cases hflight
  case track => exact hcompleted h
  case countKeys => exact hcompleted h
  case rangeKeys => exact hcompleted h
  case evict => exact hcompleted h
  case forget => exact hcompleted h
  case returned =>
      rcases h with ⟨hnone, -⟩ | ⟨resp', h, -⟩
      · rw [hnone] at hran
        cases hran
      · exact hcompleted h

/-- The handler runs to a 2xx: every response that was stored before has expired. -/
theorem Inv.ranTo {fingerprint key body : String} {resp : HandlerResponse} (h : Inv cfg k s)
    (hc : s.calls[i]? = some c) (hpc : c.pc = .handle fingerprint key) (hsuccess : resp.success = true)
    (hbody : String.fromUTF8? resp.body = some body)
    (hkeeps : c.Carries cfg k → resp.KeepsContentType) :
    Inv cfg k (s.moved i s.redis
      { c with
        pc := .store resp key (resp.cached fingerprint body).dumps
        ran := some (s.now, resp) }) := by
  set c' : Call :=
    { c with
      pc := .store resp key (resp.cached fingerprint body).dumps
      ran := some (s.now, resp) } with hc'
  have hsame : SameCall c c' := ⟨rfl, fun key' hkey => by rw [hpc]; exact hkey⟩
  have hflight : c.pc.inFlight = true := by rw [hpc]; rfl
  by_cases hk : c.Carries cfg k
  · have hstage : Fingerprinted cfg c.request fingerprint ∧ c.ran = none ∧ c.stored = none := by
      simpa only [Stage, hpc] using h.stages i c hc hk
    refine h.of_moved hc hsame (fun _ => ?_) (fun _ _ => .inl hflight) ?_ ?_ ?_
    · refine ⟨⟨s.now, Int.le_refl _, rfl, ?_⟩, hstage.2.2⟩
      exact ⟨fingerprint, body, hstage.1, hsuccess, hbody, hkeeps hk, rfl⟩
    · intro a b ca cb ha hb hka hkb hfb u hu
      rcases getElem?_replace ha with ⟨rfl, rfl⟩ | ⟨-, ha₀⟩
      · exact absurd (hstage.2.2.symm.trans hu) (by simp)
      · exact h.free a i ca c ha₀ hc hka hk hflight u hu
    · intro j d hd hkd u hu hnow
      rcases getElem?_replace hd with ⟨rfl, rfl⟩ | ⟨-, hd₀⟩
      · exact absurd (hstage.2.2.symm.trans hu) (by simp)
      · exact h.cached j d hd₀ hkd u hu hnow
    · intro j d t tj r rj _ hne hd hkd hr hrj
      have ht : t = s.now := (Prod.mk.inj (Option.some.inj hr)).1.symm
      -- one request is in flight at a time, so any other has stored its response, and that has expired
      have hnot : d.pc.inFlight = false := by
        by_contra hinflight
        exact hne (h.alone j i d c hd hc hkd hk (by simpa using hinflight) hflight)
      obtain ⟨u, hu, hle⟩ := (h.stages j d hd hkd).stored_of_ran hrj hnot
      have hdead := h.free j i d c hd hc hkd hk hflight u hu
      constructor <;> intro _ <;> omega
  · exact h.quiet hc hsame (fun hk' => absurd hk' hk) (.inl rfl)

/-- The response is stored: it is the only one that is alive. -/
theorem Inv.store {key text : String} {resp : HandlerResponse} (h : Inv cfg k s)
    (hc : s.calls[i]? = some c) (hpc : c.pc = .store resp key text) :
    Inv cfg k (s.moved i (s.redis.setex s.now key cfg.ttl text)
      { c with pc := .track resp key, stored := some s.now }) := by
  set c' : Call := { c with pc := .track resp key, stored := some s.now } with hc'
  have hsame : SameCall c c' := ⟨rfl, fun key' hkey => by rw [hpc]; exact hkey⟩
  have hcarried := h.keys i c hc key (by rw [hpc]; rfl)
  have hflight : c.pc.inFlight = true := by rw [hpc]; rfl
  by_cases hk : c.Carries cfg k
  · obtain rfl : key = k := Option.some.inj (hcarried.symm.trans hk)
    have hstage : (∃ t ≤ s.now, Ran cfg c t resp text) ∧ c.stored = none := by
      simpa only [Stage, hpc] using h.stages i c hc hk
    obtain ⟨⟨t, ht, hran⟩, -⟩ := hstage
    have hran' : Ran cfg c' t resp text := ⟨hran.ran, hran.replays⟩
    refine h.of_moved hc hsame (fun _ => ?_) (fun _ hflight' => by cases hflight') ?_ ?_ ?_
    · exact ⟨t, s.now, text, hran', rfl, ht, Int.le_refl _⟩
    · intro a b ca cb ha hb hka hkb hfb u hu
      rcases getElem?_replace hb with ⟨rfl, rfl⟩ | ⟨hne, hb₀⟩
      · cases hfb
      · exact absurd (h.alone b i cb c hb₀ hc hkb hk hfb hflight) hne
    · intro j d hd hkd u hu hnow
      rcases getElem?_replace hd with ⟨rfl, rfl⟩ | ⟨-, hd₀⟩
      · obtain rfl := Option.some.inj hu
        exact ⟨t, resp, text, hran', Function.update_self _ _ _⟩
      · have hdead := h.free j i d c hd₀ hc hkd hk hflight u hu
        omega
    · intro j d tc tj r rj _ hne hd hkd hr hrj
      exact ⟨h.apart i j c d tc tj r rj hc hd hne.symm hk hkd hr hrj,
        h.apart j i d c tj tc rj r hd hc hne hkd hk hrj hr⟩
  · refine h.quiet hc hsame (fun hk' => absurd hk' hk) (.inl ?_)
    refine Function.update_of_ne ?_ _ _
    rintro rfl
    exact hk hcarried

/-! ## Runs -/

/-- A request that leaves no key behind, keeps its records and is not in flight. -/
theorem Inv.goto (h : Inv cfg k s) (hc : s.calls[i]? = some c) {pc' : Pc}
    (hkey : ∀ key, pc'.key? = some key → c.pc.key? = some key) (hflight : pc'.inFlight = false)
    (hstage : c.Carries cfg k → Stage cfg s.now { c with pc := pc' })
    (hvalue : redis'.values k = s.redis.values k ∨ s.redis.get s.now k = none) :
    Inv cfg k (s.moved i redis' { c with pc := pc' }) := by
  refine h.quiet hc ⟨rfl, hkey⟩ (fun hk => ⟨rfl, rfl, fun hf => ?_, hstage hk⟩) hvalue
  rw [hflight] at hf
  cases hf

theorem Inv.answer {answer : Outcome HandlerResponse} (h : Inv cfg k s) (hc : s.calls[i]? = some c)
    (hok : Conforms cfg k s (.answer i answer)) (hmove : answered s.now answer c = some c') :
    Inv cfg k (s.moved i s.redis c') := by
  cases hpc : c.pc with
  | pass =>
      -- no request under the key passes by
      have hnot : ¬ c.Carries cfg k := by
        intro hk
        simpa only [Stage, hpc] using h.stages i c hc hk
      have hsame : SameCall c c' := by
        cases answer with
        | ok resp =>
            simp only [answered, hpc, Option.some.injEq] at hmove
            exact hmove ▸ ⟨rfl, fun key hkey => by cases hkey⟩
        | error e =>
            simp only [answered, hpc, Option.some.injEq] at hmove
            exact hmove ▸ ⟨rfl, fun key hkey => by cases hkey⟩
      exact h.quiet hc hsame (fun hk => absurd hk hnot) (.inl rfl)
  | handle fingerprint key =>
      have hstage : c.Carries cfg k → c.ran = none ∧ c.stored = none := by
        intro hk
        have hfull : Fingerprinted cfg c.request fingerprint ∧ c.ran = none ∧ c.stored = none := by
          simpa only [Stage, hpc] using h.stages i c hc hk
        exact hfull.2
      have hreturned : ∀ out, Inv cfg k (s.moved i s.redis { c with pc := .returned out }) := fun out =>
        h.goto hc (fun _ hkey => by cases hkey) rfl (fun hk => .inl (hstage hk)) (.inl rfl)
      cases answer with
      | error e =>
          simp only [answered, hpc, Option.some.injEq] at hmove
          exact hmove ▸ hreturned _
      | ok resp =>
          simp only [answered, hpc] at hmove
          by_cases hsuccess : resp.success = true
          · simp only [hsuccess, if_true] at hmove
            cases hbody : String.fromUTF8? resp.body with
            | none =>
                rw [hbody, Option.some.injEq] at hmove
                have hnot : ¬ c.Carries cfg k := by
                  intro hk
                  obtain ⟨⟨body, hsome⟩, -⟩ := hok c resp hc hk rfl hsuccess
                  rw [hbody] at hsome
                  cases hsome
                have hsame : SameCall c c' := hmove ▸ ⟨rfl, fun key hkey => by cases hkey⟩
                exact h.quiet hc hsame (fun hk => absurd hk hnot) (.inl rfl)
            | some body =>
                rw [hbody, Option.some.injEq] at hmove
                exact hmove ▸ h.ranTo hc hpc hsuccess hbody
                  fun hk => (hok c resp hc hk rfl hsuccess).2
          · simp only [hsuccess, Bool.false_eq_true, if_false, Option.some.injEq] at hmove
            exact hmove ▸ hreturned _
  | _ => simp [answered, hpc] at hmove

/-- Behind its stored response a request goes from one statement of the clean-up to another. -/
theorem Inv.cleanUp {resp : HandlerResponse} {pc' : Pc} (h : Inv cfg k s) (hc : s.calls[i]? = some c)
    (hstage : c.Carries cfg k → Completed cfg s.now c resp) (hkey : pc'.key? = none)
    (hflight : pc'.inFlight = false)
    (hnext : Completed cfg s.now { c with pc := pc' } resp → Stage cfg s.now { c with pc := pc' })
    (hvalue : redis'.values k = s.redis.values k ∨ s.redis.get s.now k = none) :
    Inv cfg k (s.moved i redis' { c with pc := pc' }) := by
  refine h.goto hc ?_ hflight (fun hk => hnext ((hstage hk).goto pc')) hvalue
  intro key hsome
  rw [hkey] at hsome
  cases hsome

/-- The clean-up is over, and the response is returned. -/
theorem Inv.finish {resp : HandlerResponse} (h : Inv cfg k s) (hc : s.calls[i]? = some c)
    (hstage : c.Carries cfg k → Completed cfg s.now c resp)
    (hvalue : redis'.values k = s.redis.values k ∨ s.redis.get s.now k = none) :
    Inv cfg k (s.moved i redis' { c with pc := .returned (.ok resp.direct) }) :=
  h.cleanUp hc hstage rfl rfl (fun hcompleted => .inr ⟨resp, hcompleted, rfl⟩) hvalue

/-- A request behind its stored response. -/
theorem Inv.completed {resp : HandlerResponse} (h : Inv cfg k s) (hc : s.calls[i]? = some c)
    (hstage : Stage cfg s.now c ↔ Completed cfg s.now c resp) (hk : c.Carries cfg k) : Completed cfg s.now c resp :=
  hstage.mp (h.stages i c hc hk)

theorem Inv.command {writtenAt : ℤ} (h : Inv cfg k s) (hc : s.calls[i]? = some c)
    (hok : Conforms cfg k s (.command i true writtenAt))
    (hmove : commanded cfg s.now s.redis writtenAt c = some (redis', c')) :
    Inv cfg k (s.moved i redis' c') := by
  obtain ⟨-, hok⟩ := hok
  obtain ⟨-, hlookup, hevict⟩ := hok c hc
  unfold commanded at hmove
  cases hpc : c.pc with
  | lookup fingerprint key =>
      simp only [hpc] at hmove
      cases hget : s.redis.get s.now key with
      | none =>
          rw [hget, Option.some.injEq, Prod.mk.injEq] at hmove
          obtain ⟨rfl, rfl⟩ := hmove
          refine h.miss hc hpc hget fun hk => ?_
          have hcarried := h.keys i c hc key (by rw [hpc]; rfl)
          obtain rfl : key = k := Option.some.inj (hcarried.symm.trans hk)
          exact hlookup fingerprint hpc
      | some text =>
          rw [hget, Option.some.injEq, Prod.mk.injEq] at hmove
          obtain ⟨rfl, rfl⟩ := hmove
          refine h.goto hc (fun _ hkey => by cases hkey) rfl (fun hk => .inl ?_) (.inl rfl)
          have hstage : Fingerprinted cfg c.request fingerprint ∧ c.ran = none ∧ c.stored = none := by
            simpa only [Stage, hpc] using h.stages i c hc hk
          exact hstage.2
  | store resp key text =>
      simp only [hpc, Option.some.injEq, Prod.mk.injEq] at hmove
      obtain ⟨rfl, rfl⟩ := hmove
      exact h.store hc hpc
  | track resp key =>
      have hstage : c.Carries cfg k → Completed cfg s.now c resp := h.completed hc (by simp only [Stage, hpc])
      simp only [hpc, Option.some.injEq, Prod.mk.injEq] at hmove
      obtain ⟨rfl, rfl⟩ := hmove
      exact h.cleanUp hc hstage rfl rfl id (.inl rfl)
  | countKeys resp =>
      have hstage : c.Carries cfg k → Completed cfg s.now c resp := h.completed hc (by simp only [Stage, hpc])
      simp only [hpc] at hmove
      split_ifs at hmove
      · obtain ⟨rfl, rfl⟩ := Prod.mk.inj (Option.some.inj hmove)
        exact h.finish hc hstage (.inl rfl)
      · obtain ⟨rfl, rfl⟩ := Prod.mk.inj (Option.some.inj hmove)
        exact h.cleanUp hc hstage rfl rfl id (.inl rfl)
  | rangeKeys resp overflow =>
      have hstage : c.Carries cfg k → Completed cfg s.now c resp := h.completed hc (by simp only [Stage, hpc])
      simp only [hpc] at hmove
      split at hmove
      · obtain ⟨rfl, rfl⟩ := Prod.mk.inj (Option.some.inj hmove)
        exact h.finish hc hstage (.inl rfl)
      · obtain ⟨rfl, rfl⟩ := Prod.mk.inj (Option.some.inj hmove)
        exact h.cleanUp hc hstage rfl rfl id (.inl rfl)
  | evict resp oldest member rest =>
      have hstage : c.Carries cfg k → Completed cfg s.now c resp := h.completed hc (by simp only [Stage, hpc])
      -- the evicted key is another one, or its response has expired
      have hvalue : (s.redis.delete member).values k = s.redis.values k ∨
          s.redis.get s.now k = none := by
        by_cases hmember : member = k
        · subst hmember
          exact .inr (hevict resp oldest rest hpc)
        · exact .inl (Function.update_of_ne (Ne.symm hmember) _ _)
      cases rest with
      | nil =>
          simp only [hpc, Option.some.injEq, Prod.mk.injEq] at hmove
          obtain ⟨rfl, rfl⟩ := hmove
          exact h.cleanUp hc hstage rfl rfl id hvalue
      | cons next rest =>
          simp only [hpc, Option.some.injEq, Prod.mk.injEq] at hmove
          obtain ⟨rfl, rfl⟩ := hmove
          exact h.cleanUp hc hstage rfl rfl id hvalue
  | forget resp oldest =>
      have hstage : c.Carries cfg k → Completed cfg s.now c resp := h.completed hc (by simp only [Stage, hpc])
      simp only [hpc, Option.some.injEq, Prod.mk.injEq] at hmove
      obtain ⟨rfl, rfl⟩ := hmove
      exact h.finish hc hstage (.inl rfl)
  | _ => simp [hpc] at hmove

/-- With Redis available and the circuits closed, a command is sent and answered. -/
theorem Inv.step_command {writtenAt : ℤ} (h : Inv cfg k s) (hc : s.calls[i]? = some c)
    (hrefused : c.pc.refused cfg = false) :
    step cfg s (.command i true writtenAt) =
      (commanded cfg s.now s.redis writtenAt c).map fun next => s.moved i next.1 next.2 := by
  have hclosed : ¬ (c.pc.checksCircuit = true ∧ s.now < s.disabledUntil c.process) := by
    rintro ⟨-, hopen⟩
    have := h.closed c.process
    omega
  simp only [step, hc]
  rw [if_neg hclosed, if_pos (by simp [hrefused])]
  rfl

/-- Every step that conforms keeps the invariant. -/
theorem inv_step (s : Sys) (a : Action) (s' : Sys) (h : Inv cfg k s) (hok : Conforms cfg k s a)
    (hstep : step cfg s a = some s') : Inv cfg k s' := by
  cases a with
  | tick seconds => exact Option.some.inj hstep ▸ h.tick seconds
  | arrive process r => exact Option.some.inj hstep ▸ h.arrive process r hok
  | answer i answer =>
      cases hc : s.calls[i]? with
      | none => simp [step, hc] at hstep
      | some c =>
          simp only [step, hc, Option.map_eq_some_iff] at hstep
          obtain ⟨c', hmove, rfl⟩ := hstep
          exact h.answer hc hok hmove
  | command i available writtenAt =>
      cases hc : s.calls[i]? with
      | none => simp [step, hc] at hstep
      | some c =>
          obtain ⟨rfl, -⟩ := id hok
          rw [h.step_command hc (hok.2 c hc).1, Option.map_eq_some_iff] at hstep
          obtain ⟨⟨redis', c'⟩, hmove, rfl⟩ := hstep
          exact h.command hc hok hmove

/-- A lookup of a completed key is answered from what was stored. -/
theorem Inv.hit {i j : ℕ} {ci cj : Call} {t u : ℤ} {resp : HandlerResponse}
    {fingerprint key : String} (writtenAt : ℤ) (h : Inv cfg k s) (hi : s.calls[i]? = some ci)
    (hj : s.calls[j]? = some cj) (hki : ci.Carries cfg k) (hkj : cj.Carries cfg k)
    (hran : ci.ran = some (t, resp)) (hu : ci.stored = some u) (hnow : s.now < u + cfg.ttl)
    (hpc : cj.pc = .lookup fingerprint key) :
    ∃ reply, step cfg s (.command j true writtenAt)
        = some (s.moved j s.redis { cj with pc := .returned (.ok reply) }) ∧
      (SameRequest cfg ci.request cj.request → reply = resp.direct) ∧
      (¬ SameRequest cfg ci.request cj.request → reply = conflict) := by
  have hcarried := h.keys j cj hj key (by rw [hpc]; rfl)
  obtain rfl : key = k := Option.some.inj (hcarried.symm.trans hkj)
  have hstage : Fingerprinted cfg cj.request fingerprint ∧ cj.ran = none ∧ cj.stored = none := by
    simpa only [Stage, hpc] using h.stages j cj hj hkj
  have hne : i ≠ j := by
    rintro rfl
    obtain rfl := Option.some.inj (hi.symm.trans hj)
    rw [hstage.2.2] at hu
    cases hu
  obtain ⟨t', resp', text, hran', hget⟩ := h.get hi hki hu hnow
  have heq := hran'.ran
  rw [hran] at heq
  obtain ⟨rfl, rfl⟩ := Prod.mk.inj (Option.some.inj heq)
  obtain ⟨stored, body, hstored, hsuccess, hbody, hkeeps, rfl⟩ := hran'.replays
  have hsame := fingerprint_eq_iff (h.lookedUp i ci hi hki) (h.lookedUp j cj hj hkj)
    (h.toldApart i j ci cj hi hj hne hki hkj) hstored hstage.1
  have hcommand : commanded cfg s.now s.redis writtenAt cj = some (s.redis, { cj with
      pc := .returned (if stored = fingerprint then .ok resp.direct else .ok conflict) }) := by
    simp only [commanded, hpc, hget, replayOrConflict_dumps hsuccess hbody hkeeps]
  rw [h.step_command hj (by rw [hpc]; rfl), hcommand]
  by_cases hagree : stored = fingerprint
  · refine ⟨resp.direct, by rw [if_pos hagree]; rfl, fun _ => rfl, fun hdiffer => ?_⟩
    exact absurd (hsame.mp hagree) hdiffer
  · refine ⟨conflict, by rw [if_neg hagree]; rfl, fun hagree' => ?_, fun _ => rfl⟩
    exact absurd (hsame.mpr hagree') hagree

theorem Inv.idempotent (h : Inv cfg k s) : Idempotent cfg k s where
  once := h.apart
  first c hc t resp out hk hran hpc := by
    obtain ⟨i, hi⟩ := List.mem_iff_getElem?.mp hc
    have hstage : c.ran = none ∧ c.stored = none ∨
        ∃ resp, Completed cfg s.now c resp ∧ out = .ok resp.direct := by
      simpa only [Stage, hpc] using h.stages i c hi hk
    rcases hstage with ⟨hnone, -⟩ | ⟨resp', ⟨t', u, text, hran', -⟩, hout⟩
    · rw [hran] at hnone
      cases hnone
    · have heq := hran'.ran
      rw [hran] at heq
      rw [hout, (Prod.mk.inj (Option.some.inj heq)).2]
  others ci hci j cj t resp u fingerprint key writtenAt s' hj hki hkj hran hu hnow hpc hstep := by
    obtain ⟨i, hi⟩ := List.mem_iff_getElem?.mp hci
    obtain ⟨reply, hstep', hreply⟩ := Inv.hit writtenAt h hi hj hki hkj hran hu hnow hpc
    rw [hstep'] at hstep
    obtain rfl := Option.some.inj hstep
    refine ⟨reply, ?_, hreply⟩
    exact List.getElem?_set_self (List.getElem?_eq_some_iff.mp hj).1

/-- In every run whose steps conform for the key, the requests under it are idempotent in every state
reached. -/
theorem idempotent_of_conforms (cfg : Settings) (k : String) {as : List Action} {s : Sys}
    (hok : Guarded (step cfg) (Conforms cfg k) Sys.init as) (hrun : run (step cfg) Sys.init as = some s) :
    Idempotent cfg k s :=
  (run_invariant_of_guarded inv_step inv_init hok hrun).idempotent

/-! ## Two runs -/

/-- The defaults of the settings. The two requests below have no body and one text is hashed, so the
stand-ins for `sha256` and `json.loads` are not asked for more. -/
def sampleSettings : Settings := ⟨fun text => text, fun _ => .malformed, 86400, 50000⟩

def sampleRequest : Request :=
  ⟨"POST", "/api/v1/outages/7/resolve", "", "", some "key-1", .empty⟩

def sampleKey : String := "idempotency::key-1"

def sampleResponse : HandlerResponse := ⟨200, "null".toByteArray, none, some "application/json"⟩

theorem sampleRequest_lookedUp : LookedUp sampleSettings sampleRequest :=
  ⟨by decide, by decide, .obj [], rfl⟩

theorem toldApart_self (cfg : Settings) (r : Request) : ToldApart cfg r r where
  collision j j' hj hj' _ := by rw [Option.some.inj (hj.symm.trans hj')]
  leftOut _ _ _ _ _ _ _ := ⟨rfl, rfl⟩

theorem sampleResponse_keeps : sampleResponse.KeepsContentType := by
  unfold HandlerResponse.KeepsContentType
  decide +kernel

theorem fromUTF8?_toByteArray (s : String) : String.fromUTF8? s.toByteArray = some s := by
  rw [String.fromUTF8?, dif_pos s.isValidUTF8]
  rfl

/-- A request, and the same one again after a minute. -/
def repeated : List Action :=
  [.arrive 0 sampleRequest, .command 0 true 0, .answer 0 (.ok sampleResponse), .command 0 true 0,
    .command 0 true 0, .command 0 true 0, .tick 60, .arrive 1 sampleRequest]

theorem guarded_repeated :
    Guarded (step sampleSettings) (Conforms sampleSettings sampleKey) Sys.init repeated := by
  -- a command of the only request there is
  have hquiet : ∀ (s : Sys) (c : Call) (writtenAt : ℤ), s.calls = [c] →
      c.pc.refused sampleSettings = false →
        c.pc.inFlight = false ∨ (∀ fingerprint key, c.pc ≠ .lookup fingerprint key) →
          (∀ resp oldest member rest, c.pc ≠ .evict resp oldest member rest) →
            Conforms sampleSettings sampleKey s (.command 0 true writtenAt) := by
    intro s c writtenAt hs hrefused hpc hevict
    refine ⟨rfl, ?_⟩
    intro d hd
    rw [hs] at hd ⊢
    obtain rfl : c = d := Option.some.inj hd
    refine ⟨hrefused, ?_, ?_⟩
    · intro fingerprint hlookup e he _
      obtain rfl : e = c := by simpa using he
      rcases hpc with hpc | hpc
      · exact hpc
      · exact absurd hlookup (hpc fingerprint _)
    · intro resp oldest rest heq
      exact absurd heq (hevict resp oldest _ rest)
  refine ⟨fun _ => ⟨sampleRequest_lookedUp, by simp [Sys.init]⟩, fun s₁ h₁ => ?_⟩
  obtain rfl := Option.some.inj h₁
  refine ⟨hquiet _ _ 0 rfl rfl (.inl rfl) (fun _ _ _ _ h => by cases h), fun s₂ h₂ => ?_⟩
  obtain rfl := Option.some.inj h₂
  refine ⟨?_, fun s₃ h₃ => ?_⟩
  · intro c resp _ _ hresp _
    cases hresp
    exact ⟨⟨"null", fromUTF8?_toByteArray "null"⟩, sampleResponse_keeps⟩
  obtain rfl := Option.some.inj h₃
  refine ⟨hquiet _ _ 0 rfl rfl (.inr fun _ _ h => by cases h) (fun _ _ _ _ h => by cases h),
    fun s₄ h₄ => ?_⟩
  obtain rfl := Option.some.inj h₄
  refine ⟨hquiet _ _ 0 rfl rfl (.inl rfl) (fun _ _ _ _ h => by cases h), fun s₅ h₅ => ?_⟩
  obtain rfl := Option.some.inj h₅
  refine ⟨hquiet _ _ 0 rfl rfl (.inl rfl) (fun _ _ _ _ h => by cases h), fun s₆ h₆ => ?_⟩
  obtain rfl := Option.some.inj h₆
  refine ⟨trivial, fun s₇ h₇ => ?_⟩
  obtain rfl := Option.some.inj h₇
  refine ⟨fun _ => ⟨sampleRequest_lookedUp, ?_⟩, fun s₈ _ => trivial⟩
  intro c hc _
  obtain rfl := List.mem_singleton.mp hc
  exact toldApart_self sampleSettings sampleRequest

/-- The run conforms, so the second request is answered as the first one was. -/
theorem idempotent_repeated :
    Guarded (step sampleSettings) (Conforms sampleSettings sampleKey) Sys.init repeated ∧
      ∃ s, run (step sampleSettings) Sys.init repeated = some s ∧
        Idempotent sampleSettings sampleKey s := by
  have hsome : (run (step sampleSettings) Sys.init repeated).isSome = true := by decide +kernel
  obtain ⟨s, hs⟩ := Option.isSome_iff_exists.mp hsome
  exact ⟨guarded_repeated, s, hs, idempotent_of_conforms sampleSettings sampleKey guarded_repeated hs⟩

/-- The same request twice, the second one looked up before the first one is stored. -/
def overlapping : List Action :=
  [.arrive 0 sampleRequest, .arrive 1 sampleRequest, .command 0 true 0, .command 1 true 0,
    .answer 0 (.ok sampleResponse), .answer 1 (.ok sampleResponse)]

/-- Two overlapping requests run the handler to a 2xx twice, with Redis available throughout. -/
theorem overlapping_handled_twice :
    (∀ i available writtenAt, Action.command i available writtenAt ∈ overlapping → available = true) ∧
      ∃ s, run (step sampleSettings) Sys.init overlapping = some s ∧
        ¬ Idempotent sampleSettings sampleKey s := by
  refine ⟨by simp [overlapping], ?_⟩
  have hsummary : (run (step sampleSettings) Sys.init overlapping).map
      (fun s => s.calls.map fun c => (cacheKey sampleSettings c.request, c.ran.map Prod.fst))
      = some [(some sampleKey, some 0), (some sampleKey, some 0)] := by decide +kernel
  obtain ⟨s, hs, hcalls⟩ := Option.map_eq_some_iff.mp hsummary
  refine ⟨s, hs, fun h => ?_⟩
  obtain ⟨c₀, rest, hrest, hc₀, htail⟩ := List.map_eq_cons_iff.mp hcalls
  obtain ⟨c₁, rest', rfl, hc₁, -⟩ := List.map_eq_cons_iff.mp htail
  obtain ⟨hk₀, hran₀⟩ := Prod.mk.inj hc₀
  obtain ⟨hk₁, hran₁⟩ := Prod.mk.inj hc₁
  obtain ⟨⟨t₀, r₀⟩, hr₀, ht₀⟩ := Option.map_eq_some_iff.mp hran₀
  obtain ⟨⟨t₁, r₁⟩, hr₁, ht₁⟩ := Option.map_eq_some_iff.mp hran₁
  have honce : t₀ ≤ t₁ → t₀ + 86400 ≤ t₁ :=
    h.once 0 1 c₀ c₁ t₀ t₁ r₀ r₁ (by rw [hrest]; rfl) (by rw [hrest]; rfl) (by decide) hk₀ hk₁ hr₀ hr₁
  simp only at ht₀ ht₁
  omega

end ApexChainx.Idempotency
