import ApexChainx.Idempotency.Replay
import ApexChainx.Payment.Callback
import ApexChainx.Payment.SingleUseToken

/-!
# Replayed provider callbacks

The checks that `provider_callback` (`app/api/v1/endpoints/payments.py`) makes before it reads the payment:
the nonce from the header or the body, the signature over `transaction_id:status:nonce`, and the store of
single-use tokens, over sequences of requests from somebody who has seen signed callbacks and does not have
the secret.

The signed text does not say where its parts end. `callbacks_secure_iff`: only the signed callbacks pass, each
at most once within the window, exactly when no signed nonce has a colon with something behind it.
-/

namespace ApexChainx.Payment.CallbackReplay

open ApexChainx.Lib ApexChainx.Webhooks ApexChainx.Payment.Repository ApexChainx.Payment.SingleUseToken

/-- `CALLBACK_NONCE_TTL_SECONDS`. -/
def callbackNonceTtlSeconds : ℤ := 300

/-- `single_use_token_store`, with Redis available. -/
def redisAvailable : TokenStoreConfig := ⟨callbackNonceTtlSeconds, true, true⟩

theorem serves_redisAvailable : redisAvailable.Serves := by decide

section Endpoint

variable (hmac : HmacSha256) (secret : String)

/-- The checks before the payment is read, with the call of `_is_replay` in its place: the exception they
raise, and the store of tokens afterwards. -/
def checkCallback (payload : ProviderCallbackRequest) (now : ℚ) (store : TokenStore) :
    Option ApiError × TokenStore :=
  match effectiveNonce payload with
  | none =>
      (some (.http 400 "Callback nonce is required (X-Callback-Nonce header or 'nonce' body field)"), store)
  | some nonce =>
      match authenticate hmac secret payload nonce with
      | some e => (some e, store)
      | none =>
          let answer := consume redisAvailable nonce now store
          (if answer.1 then some (.http 409 "Duplicate callback nonce – possible replay attack") else none,
            answer.2)

/-- A request that passed the checks. -/
structure Passed where
  transactionId : String
  status : String
  nonce : String
  time : ℚ
deriving DecidableEq, Repr

/-- The store of tokens with the requests that passed so far. -/
structure Gate where
  now : ℚ
  store : TokenStore
  passed : List Passed

def Gate.init : Gate := ⟨0, .init, []⟩

/-- A request at a time that is not before the last one. -/
def Gate.step (s : Gate) (request : ProviderCallbackRequest × ℚ) : Option Gate :=
  if s.now ≤ request.2 then
    let answer := checkCallback hmac secret request.1 request.2 s.store
    some
      { now := request.2
        store := answer.2
        passed :=
          if answer.1.isNone then
            s.passed ++
              [⟨request.1.transactionId, request.1.status, (effectiveNonce request.1).getD "", request.2⟩]
          else s.passed }
  else none

end Endpoint

/-! ## What an adversary can send -/

/-- A callback that the provider signed; its transaction id and status have no colon. -/
structure SignedCallback where
  transactionId : String
  status : String
  nonce : String
  transactionId_plain : ':' ∉ transactionId.toList
  status_plain : ':' ∉ status.toList

/-- The text that is signed. -/
def SignedCallback.message (c : SignedCallback) : String := c.transactionId ++ ":" ++ c.status ++ ":" ++ c.nonce

def SignedCallback.signature (hmac : HmacSha256) (secret : String) (c : SignedCallback) : String :=
  hmac.hexdigest secret c.message

/-- Signatures are not forged: one that is valid for some text is one of the provider's. -/
def Formed (hmac : HmacSha256) (secret : String) (signed : Set SignedCallback)
    (payload : ProviderCallbackRequest) : Prop :=
  ∀ message, payload.webhookSignature = some (hmac.hexdigest secret message) →
    ∃ c ∈ signed, payload.webhookSignature = some (c.signature hmac secret)

/-- The request that passed has the parts of the callback. -/
def Passed.Is (p : Passed) (c : SignedCallback) : Prop :=
  p.transactionId = c.transactionId ∧ p.status = c.status ∧ p.nonce = c.nonce

/-- Only signed callbacks pass, and each at most once within the lifetime of a nonce. -/
structure Secure (signed : Set SignedCallback) (s : Gate) : Prop where
  authentic : ∀ p ∈ s.passed, ∃ c ∈ signed, p.Is c
  once : s.passed.Pairwise fun p q => ∀ c ∈ signed, p.Is c → q.Is c →
    (callbackNonceTtlSeconds : ℚ) ≤ q.time - p.time

/-- The nonce has a colon with something behind it. -/
def Splits (nonce : String) : Prop := ∃ before behind, nonce.toList = before ++ ':' :: behind ∧ behind ≠ []

/-! ## Reading the signed text -/

/-- The parts of the text can be read back, unless a colon of the nonce is taken for a separator. -/
theorem parts_unique {t s n t' s' n' : List Char} (ht : ':' ∉ t) (hs : ':' ∉ s) (hn' : n' ≠ [])
    (hsplit : ∀ before behind, n = before ++ ':' :: behind → behind = [])
    (h : t ++ ':' :: (s ++ ':' :: n) = t' ++ ':' :: (s' ++ ':' :: n')) : t = t' ∧ s = s' ∧ n = n' := by
  have hlast : ∀ before, n ≠ before ++ ':' :: n' := fun before heq => hn' (hsplit before n' heq)
  by_cases ht' : ':' ∈ t'
  · -- the separator behind the id lies within the other id
    obtain ⟨a, b, rfl, ha⟩ := List.eq_append_cons_of_mem ht'
    rw [List.append_assoc, List.cons_append] at h
    have hrest := (Idempotency.append_colon_inj ht ha h).2
    by_cases hb : ':' ∈ b
    · obtain ⟨b₁, b₂, rfl, hb₁⟩ := List.eq_append_cons_of_mem hb
      rw [List.append_assoc, List.cons_append] at hrest
      have hnonce := (Idempotency.append_colon_inj hs hb₁ hrest).2
      exact absurd (by rw [hnonce, List.append_assoc, List.cons_append]) (hlast (b₂ ++ ':' :: s'))
    · exact absurd (Idempotency.append_colon_inj hs hb hrest).2 (hlast s')
  · obtain ⟨rfl, hrest⟩ := Idempotency.append_colon_inj ht ht' h
    by_cases hs' : ':' ∈ s'
    · obtain ⟨a, b, rfl, ha⟩ := List.eq_append_cons_of_mem hs'
      rw [List.append_assoc, List.cons_append] at hrest
      exact absurd (Idempotency.append_colon_inj hs ha hrest).2 (hlast b)
    · obtain ⟨rfl, rfl⟩ := Idempotency.append_colon_inj hs hs' hrest
      exact ⟨rfl, rfl, rfl⟩

theorem message_parts {c : SignedCallback} (hsplit : ¬ Splits c.nonce) {transactionId status nonce : String}
    (hnonce : nonce ≠ "") (h : transactionId ++ ":" ++ status ++ ":" ++ nonce = c.message) :
    transactionId = c.transactionId ∧ status = c.status ∧ nonce = c.nonce := by
  have hchars := congrArg String.toList h
  simp only [SignedCallback.message, String.toList_append, List.append_assoc] at hchars
  have hone : ":".toList = [':'] := rfl
  simp only [hone, List.singleton_append] at hchars
  have hne : nonce.toList ≠ [] := fun hnil => hnonce (String.toList_injective hnil)
  have hbehind : ∀ before behind, c.nonce.toList = before ++ ':' :: behind → behind = [] := by
    intro before behind heq
    by_contra hsome
    exact hsplit ⟨before, behind, heq, hsome⟩
  obtain ⟨ht, hs, hn⟩ := parts_unique c.transactionId_plain c.status_plain hne hbehind hchars.symm
  exact ⟨(String.toList_injective ht).symm, (String.toList_injective hs).symm, (String.toList_injective hn).symm⟩

/-! ## One request -/

section Request

variable {hmac : HmacSha256} {secret : String}

theorem truthy_eq_some {text : Option String} {nonce : String} (h : truthy text = some nonce) :
    text = some nonce ∧ nonce ≠ "" := by
  cases text with
  | none => cases h
  | some text =>
      simp only [truthy] at h
      split_ifs at h with hempty
      obtain rfl := Option.some.inj h
      exact ⟨rfl, hempty⟩

theorem ne_empty_of_effectiveNonce {payload : ProviderCallbackRequest} {nonce : String}
    (h : effectiveNonce payload = some nonce) : nonce ≠ "" := by
  unfold effectiveNonce at h
  cases hheader : truthy payload.callbackNonce with
  | some header =>
      rw [hheader, Option.some_or, Option.some.injEq] at h
      exact h ▸ (truthy_eq_some hheader).2
  | none =>
      rw [hheader, Option.none_or] at h
      exact (truthy_eq_some h).2

/-- A request that is authenticated shows the digest of its own parts. -/
theorem signature_of_authenticate (hsecret : secret ≠ "") {payload : ProviderCallbackRequest} {nonce : String}
    (h : authenticate hmac secret payload nonce = none) :
    payload.webhookSignature
      = some (hmac.hexdigest secret (payload.transactionId ++ ":" ++ payload.status ++ ":" ++ nonce)) := by
  unfold authenticate at h
  rw [if_neg hsecret] at h
  split at h
  · cases h
  · rename_i signature hsignature
    split at h
    · cases h
    · cases h
    · rename_i hverify
      unfold verifyCallbackSignature compareDigest at hverify
      split_ifs at hverify
      rw [Outcome.ok.injEq, beq_iff_eq] at hverify
      rw [(truthy_eq_some hsignature).1, hverify]

theorem authenticate_of_signature {payload : ProviderCallbackRequest} {nonce : String}
    (hdigest : hmac.hexdigest secret (payload.transactionId ++ ":" ++ payload.status ++ ":" ++ nonce) ≠ "")
    (h : payload.webhookSignature
      = some (hmac.hexdigest secret (payload.transactionId ++ ":" ++ payload.status ++ ":" ++ nonce))) :
    authenticate hmac secret payload nonce = none := by
  unfold authenticate
  split_ifs
  · rfl
  · simp only [h, truthy, if_neg hdigest, verifyCallbackSignature, compareDigest_hexdigest, beq_self_eq_true]

/-- What a request can do: be refused before its nonce is used, be refused for its nonce, or pass. -/
theorem Gate.step_cases {s s' : Gate} {payload : ProviderCallbackRequest} {time : ℚ}
    (h : Gate.step hmac secret s (payload, time) = some s') :
    s.now ≤ time ∧ s'.now = time ∧
      (s'.store = s.store ∧ s'.passed = s.passed ∨
        ∃ nonce, effectiveNonce payload = some nonce ∧ authenticate hmac secret payload nonce = none ∧
          s'.store = (consume redisAvailable nonce time s.store).2 ∧
          ((consume redisAvailable nonce time s.store).1 = true ∧ s'.passed = s.passed ∨
            (consume redisAvailable nonce time s.store).1 = false ∧
              s'.passed = s.passed ++ [⟨payload.transactionId, payload.status, nonce, time⟩])) := by
  rw [Gate.step, Option.ite_none_right_eq_some, Option.some.injEq] at h
  obtain ⟨hle, rfl⟩ := h
  refine ⟨hle, rfl, ?_⟩
  cases hnonce : effectiveNonce payload with
  | none => exact .inl (by simp [checkCallback, hnonce])
  | some nonce =>
      cases hauth : authenticate hmac secret payload nonce with
      | some e => exact .inl (by simp [checkCallback, hnonce, hauth])
      | none =>
          refine .inr ⟨nonce, rfl, hauth, by simp [checkCallback, hnonce, hauth], ?_⟩
          cases hreplay : (consume redisAvailable nonce time s.store).1 with
          | true => exact .inl ⟨rfl, by simp [checkCallback, hnonce, hauth, hreplay]⟩
          | false => exact .inr ⟨rfl, by simp [checkCallback, hnonce, hauth, hreplay]⟩

end Request

/-! ## Nonces are used once -/

/-- The accepted calls of a token, in the order in which they were made, are a lifetime apart. -/
theorem accepted_apart {ttl : ℤ} {log : List Consumed} (h : SingleUseToken.Lawful ttl log) :
    (log.filter (!·.replay)).Pairwise fun a b => a.token = b.token → (ttl : ℚ) ≤ b.time - a.time := by
  induction log using List.reverseRecOn with
  | nil => exact List.Pairwise.nil
  | append_singleton log c ih =>
      obtain ⟨hlog, hc⟩ := (lawful_concat_iff ttl log c).mp h
      rw [List.filter_append, List.pairwise_append]
      refine ⟨ih hlog, ?_, ?_⟩
      · exact (List.pairwise_singleton _ c).sublist List.filter_sublist
      · intro a ha b hb htoken
        obtain ⟨hmem, haccepted⟩ := List.mem_filter.mp ha
        obtain ⟨hlast, hfresh⟩ := List.mem_filter.mp hb
        obtain rfl := List.mem_singleton.mp hlast
        rw [Bool.not_eq_true'] at haccepted hfresh
        by_contra hlt
        rw [not_le] at hlt
        have hreplay : b.replay = true := hc.mpr ⟨a, hmem, htoken, haccepted, hlt⟩
        rw [hreplay] at hfresh
        cases hfresh

/-- The requests that passed are the calls of the store that were accepted. -/
structure Tracks (s : Gate) (t : TokenRun) : Prop where
  served : Served redisAvailable t
  now_le : t.now ≤ s.now
  store : t.store = s.store
  passed : s.passed.map (fun p => (p.nonce, p.time)) = (t.log.filter (!·.replay)).map fun c => (c.token, c.time)

section Run

variable {hmac : HmacSha256} {secret : String} {s s' : Gate}

theorem Tracks.init : Tracks .init .init where
  served := Served.init redisAvailable
  now_le := le_refl 0
  store := rfl
  passed := rfl

/-- A request that reaches the store is a call of it. -/
theorem Tracks.step {t : TokenRun} (h : Tracks s t) {request : ProviderCallbackRequest × ℚ}
    (hstep : Gate.step hmac secret s request = some s') : ∃ t', Tracks s' t' := by
  obtain ⟨payload, time⟩ := request
  obtain ⟨hle, hnow, ⟨hstore, hpassed⟩ | ⟨nonce, -, -, hstore, hanswer⟩⟩ := Gate.step_cases hstep
  · refine ⟨t, h.served, ?_, h.store.trans hstore.symm, hpassed ▸ h.passed⟩
    rw [hnow]
    exact h.now_le.trans hle
  · have hcall : TokenRun.step redisAvailable t (nonce, time)
        = some ⟨time, (consume redisAvailable nonce time s.store).2,
          t.log ++ [⟨nonce, time, (consume redisAvailable nonce time s.store).1⟩]⟩ := by
      rw [TokenRun.step, if_pos (h.now_le.trans hle), h.store]
    refine ⟨_, h.served.step serves_redisAvailable hcall, hnow.ge, hstore.symm, ?_⟩
    simp only [List.filter_append, List.map_append]
    rcases hanswer with ⟨hreplay, hpassed⟩ | ⟨hfresh, hpassed⟩
    · rw [hreplay, hpassed, h.passed]
      simp
    · rw [hfresh, hpassed, List.map_append, h.passed]
      simp

/-- Whoever sends the requests, no nonce passes twice within its lifetime. -/
theorem nonces_apart {requests : List (ProviderCallbackRequest × ℚ)}
    (hrun : run (Gate.step hmac secret) .init requests = some s) :
    s.passed.Pairwise fun p q => p.nonce = q.nonce → (callbackNonceTtlSeconds : ℚ) ≤ q.time - p.time := by
  have hkeep : ∀ s request s', (∃ t, Tracks s t) → Gate.step hmac secret s request = some s' → ∃ t, Tracks s' t := by
    rintro s request s' ⟨t, ht⟩ hstep
    exact ht.step hstep
  obtain ⟨t, ht⟩ := run_invariant hkeep ⟨_, Tracks.init⟩ hrun
  have hpairs : (s.passed.map fun p => (p.nonce, p.time)).Pairwise
      fun a b => a.1 = b.1 → (callbackNonceTtlSeconds : ℚ) ≤ b.2 - a.2 := by
    rw [ht.passed, List.pairwise_map]
    exact accepted_apart ht.served.lawful
  exact List.pairwise_map.mp hpairs

/-- What passed carries a nonce, and the digest of its parts is one of the provider's signatures. -/
def Vouched (hmac : HmacSha256) (secret : String) (signed : Set SignedCallback) (s : Gate) : Prop :=
  ∀ p ∈ s.passed, p.nonce ≠ "" ∧ ∃ c ∈ signed,
    hmac.hexdigest secret (p.transactionId ++ ":" ++ p.status ++ ":" ++ p.nonce) = c.signature hmac secret

theorem Vouched.step {signed : Set SignedCallback} (hsecret : secret ≠ "") (h : Vouched hmac secret signed s)
    {request : ProviderCallbackRequest × ℚ} (hformed : Formed hmac secret signed request.1)
    (hstep : Gate.step hmac secret s request = some s') : Vouched hmac secret signed s' := by
  obtain ⟨payload, time⟩ := request
  obtain ⟨-, -, ⟨-, hpassed⟩ | ⟨nonce, hnonce, hauth, -, ⟨-, hpassed⟩ | ⟨-, hpassed⟩⟩⟩ := Gate.step_cases hstep
  · rwa [Vouched, hpassed]
  · rwa [Vouched, hpassed]
  · intro p hp
    rw [hpassed, List.mem_append, List.mem_singleton] at hp
    rcases hp with hp | rfl
    · exact h p hp
    · have hsignature := signature_of_authenticate hsecret hauth
      obtain ⟨c, hc, hshown⟩ := hformed _ hsignature
      exact ⟨ne_empty_of_effectiveNonce hnonce, c, hc, Option.some.inj (hsignature.symm.trans hshown)⟩

theorem vouched_of_run {signed : Set SignedCallback} (hsecret : secret ≠ "")
    {requests : List (ProviderCallbackRequest × ℚ)} (hformed : ∀ r ∈ requests, Formed hmac secret signed r.1)
    (hrun : run (Gate.step hmac secret) .init requests = some s) : Vouched hmac secret signed s := by
  have hok : Guarded (Gate.step hmac secret) (fun _ r => Formed hmac secret signed r.1) .init requests :=
    guarded_of_forall (fun r hr _ => hformed r hr) _
  refine run_invariant_of_guarded (fun s r s' h hr hstep => h.step hsecret hr hstep) ?_ hok hrun
  intro p hp
  cases hp

/-- The signature of a callback with a colon in its nonce, shown with the first part of the nonce moved into
the status. -/
def movedRequest (hmac : HmacSha256) (secret : String) (c : SignedCallback) (before behind : String) :
    ProviderCallbackRequest where
  transactionId := c.transactionId
  status := c.status ++ ":" ++ before
  nonce := some behind
  webhookSignature := some (c.signature hmac secret)
  callbackNonce := none

/-- It passes. -/
theorem step_movedRequest (hdigest : ∀ message, hmac.hexdigest secret message ≠ "") {c : SignedCallback}
    {before behind : String} (hnonce : c.nonce = before ++ ":" ++ behind) (hbehind : behind ≠ "") :
    ∃ s, run (Gate.step hmac secret) .init [(movedRequest hmac secret c before behind, 0)] = some s ∧
      s.passed = [⟨c.transactionId, c.status ++ ":" ++ before, behind, 0⟩] := by
  have heffective : effectiveNonce (movedRequest hmac secret c before behind) = some behind := by
    simp [effectiveNonce, movedRequest, truthy, hbehind]
  have hmessage : c.transactionId ++ ":" ++ (c.status ++ ":" ++ before) ++ ":" ++ behind = c.message := by
    rw [SignedCallback.message, hnonce]
    simp only [String.append_assoc]
  have hauth : authenticate hmac secret (movedRequest hmac secret c before behind) behind = none := by
    refine authenticate_of_signature (hdigest _) ?_
    show some (c.signature hmac secret) = some (hmac.hexdigest secret
      (c.transactionId ++ ":" ++ (c.status ++ ":" ++ before) ++ ":" ++ behind))
    rw [hmessage, SignedCallback.signature]
  have hfresh : (consume redisAvailable behind 0 TokenStore.init).1 = false := rfl
  have hcheck : (checkCallback hmac secret (movedRequest hmac secret c before behind) 0 .init).1 = none := by
    simp only [checkCallback, heffective, hauth, hfresh, Bool.false_eq_true, if_false]
  refine ⟨_, rfl, ?_⟩
  simp only [Gate.init, hcheck, heffective]
  rfl

end Run

/-- Of what can be sent without the secret only the signed callbacks pass, each at most once within the
lifetime of a nonce, if and only if no signed nonce has a colon with something behind it. -/
theorem callbacks_secure_iff {hmac : HmacSha256} {secret : String} (hsecret : secret ≠ "")
    (hinj : Function.Injective (hmac.hexdigest secret)) (hdigest : ∀ message, hmac.hexdigest secret message ≠ "")
    (signed : Set SignedCallback) :
    (∀ requests s, (∀ r ∈ requests, Formed hmac secret signed r.1) →
        run (Gate.step hmac secret) .init requests = some s → Secure signed s) ↔
      ∀ c ∈ signed, ¬ Splits c.nonce := by
  constructor
  · rintro hsecure c hc ⟨before, behind, hnonce, hbehind⟩
    have htext : c.nonce = String.ofList before ++ ":" ++ String.ofList behind := by
      apply String.toList_injective
      rw [hnonce]
      simp
    have hne : String.ofList behind ≠ "" := fun h => hbehind (String.ofList_injective h)
    obtain ⟨s, hrun, hpassed⟩ := step_movedRequest hdigest htext hne
    have hformed : ∀ r ∈ [(movedRequest hmac secret c (String.ofList before) (String.ofList behind), (0 : ℚ))],
        Formed hmac secret signed r.1 := by
      intro r hr message _
      obtain rfl := List.mem_singleton.mp hr
      exact ⟨c, hc, rfl⟩
    obtain ⟨c', -, -, hstatus, -⟩ := (hsecure _ s hformed hrun).authentic _ (hpassed ▸ List.mem_singleton_self _)
    -- a signed status has no colon
    refine c'.status_plain ?_
    rw [← hstatus]
    simp
  · intro hplain requests s hformed hrun
    refine ⟨fun p hp => ?_, ?_⟩
    · obtain ⟨hnonce, c, hc, hdigests⟩ := vouched_of_run hsecret hformed hrun p hp
      exact ⟨c, hc, message_parts (hplain c hc) hnonce (hinj hdigests)⟩
    · exact (nonces_apart hrun).imp fun {p q} h c _ hp hq => h (hp.2.2.trans hq.2.2.symm)

/-! ## Samples -/

/-- A digest with a known value for one message, and a text of its own for every other one. -/
def pinnedHmac (data hex : String) (hhex : hex.toList.all (·.toNat < 128)) : HmacSha256 where
  hexdigest secret message := if message = data then hex else "=" ++ spellOut.hexdigest secret message
  hexdigest_ascii secret message := by
    by_cases hmessage : message = data
    · rw [if_pos hmessage]
      exact hhex
    · rw [if_neg hmessage, String.toList_append, List.all_append, spellOut.hexdigest_ascii]
      decide

theorem pinnedHmac_injective {data hex : String} (hhex : hex.toList.all (·.toNat < 128))
    (hhead : hex.toList.head? ≠ some '=') (secret : String) :
    Function.Injective ((pinnedHmac data hex hhex).hexdigest secret) := by
  have hother : ∀ message, hex ≠ "=" ++ spellOut.hexdigest secret message := by
    intro message heq
    rw [heq, String.toList_append] at hhead
    exact hhead rfl
  intro message message' h
  simp only [pinnedHmac] at h
  by_cases hm : message = data <;> by_cases hm' : message' = data
  · rw [hm, hm']
  · rw [if_pos hm, if_neg hm'] at h
    exact absurd h (hother message')
  · rw [if_neg hm, if_pos hm'] at h
    exact absurd h.symm (hother message)
  · rw [if_neg hm, if_neg hm'] at h
    have hchars := congrArg String.toList h
    rw [String.toList_append, String.toList_append] at hchars
    exact spellOut_injective secret (String.toList_injective (List.append_cancel_left hchars))

theorem pinnedHmac_ne_empty {data hex : String} (hhex : hex.toList.all (·.toNat < 128)) (hne : hex ≠ "")
    (secret message : String) : (pinnedHmac data hex hhex).hexdigest secret message ≠ "" := by
  simp only [pinnedHmac]
  split_ifs
  · exact hne
  · intro h
    have hchars := congrArg String.toList h
    rw [String.toList_append] at hchars
    cases hchars

/-- A payment is confirmed, under a plain nonce. -/
def plainCallback : SignedCallback where
  transactionId := "pay_1"
  status := "confirmed"
  nonce := "n-1"
  transactionId_plain := by decide
  status_plain := by decide

/-- HMAC-SHA256 under the key `s3cret`. -/
def plainHmac : HmacSha256 :=
  pinnedHmac "pay_1:confirmed:n-1" "11942dd6f526bf4fb96db1455bf9b88037b1513d96f506bf94dfbcef75c0d987" (by decide)

/-- Its nonce has no colon, and whatever is sent, no other callback passes. -/
theorem plainCallback_secure :
    ':' ∉ plainCallback.nonce.toList ∧
      ∀ requests s, (∀ r ∈ requests, Formed plainHmac "s3cret" {plainCallback} r.1) →
        run (Gate.step plainHmac "s3cret") .init requests = some s → Secure {plainCallback} s := by
  have hplain : ':' ∉ plainCallback.nonce.toList := by decide
  refine ⟨hplain, (callbacks_secure_iff (by decide) (pinnedHmac_injective _ (by decide) "s3cret")
    (pinnedHmac_ne_empty _ (by decide) "s3cret") {plainCallback}).mpr ?_⟩
  rintro c rfl ⟨before, behind, hnonce, -⟩
  have hcolon : ':' ∈ plainCallback.nonce.toList := by
    rw [hnonce]
    simp
  exact hplain hcolon

/-- A payment is confirmed, under a nonce made of a year and a number. -/
def numberedCallback : SignedCallback where
  transactionId := "pay_1"
  status := "confirmed"
  nonce := "2026:01"
  transactionId_plain := by decide
  status_plain := by decide

/-- HMAC-SHA256 under the key `s3cret`. -/
def numberedHmac : HmacSha256 :=
  pinnedHmac "pay_1:confirmed:2026:01" "30ab5e4cf0de0b2308262e930b23e31964383c4ab750ad35589d4ac8f02021eb"
    (by decide)

/-- The callback as it was sent, and its signature shown for another status and nonce a second later. -/
def numberedRequests : List (ProviderCallbackRequest × ℚ) :=
  [(⟨"pay_1", "confirmed", some "2026:01", some (numberedCallback.signature numberedHmac "s3cret"), none⟩, 0),
    (movedRequest numberedHmac "s3cret" numberedCallback "2026" "01", 1)]

/-- Both pass. -/
theorem numberedCallback_passes_twice :
    (∀ r ∈ numberedRequests, Formed numberedHmac "s3cret" {numberedCallback} r.1) ∧
      ∃ s, run (Gate.step numberedHmac "s3cret") .init numberedRequests = some s ∧
        s.passed = [⟨"pay_1", "confirmed", "2026:01", 0⟩, ⟨"pay_1", "confirmed:2026", "01", 1⟩] ∧
        ¬ Secure {numberedCallback} s := by
  refine ⟨?_, ?_⟩
  · intro r hr message _
    simp only [numberedRequests, List.mem_cons, List.not_mem_nil, or_false] at hr
    rcases hr with rfl | rfl <;> exact ⟨numberedCallback, rfl, rfl⟩
  · have hpassed : (run (Gate.step numberedHmac "s3cret") .init numberedRequests).map Gate.passed
        = some [⟨"pay_1", "confirmed", "2026:01", 0⟩, ⟨"pay_1", "confirmed:2026", "01", 1⟩] := by
      decide +kernel
    obtain ⟨s, hrun, hpassed⟩ := Option.map_eq_some_iff.mp hpassed
    refine ⟨s, hrun, hpassed, fun hsecure => ?_⟩
    obtain ⟨c, rfl, -, hstatus, -⟩ := hsecure.authentic ⟨"pay_1", "confirmed:2026", "01", 1⟩ (by simp [hpassed])
    exact absurd hstatus (by decide)

end ApexChainx.Payment.CallbackReplay
