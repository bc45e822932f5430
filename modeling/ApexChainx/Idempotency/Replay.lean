import ApexChainx.Idempotency.Middleware

/-!
# What is stored and what is told apart

A response that is stored under a key is read back as it was written (`readCached_dumps`), so its body
bytes survive the way through text and JSON. The hashed text of a fingerprint determines the method, the
path and the payload (`fingerprintText_inj`): the colon between path and payload is the last one that a
JSON text follows.
-/

namespace ApexChainx.Idempotency

open ApexChainx.Lib

/-! ## Stored responses -/

/-- The text of a 2xx status. -/
theorem repr_success {n : ℕ} (h₁ : 200 ≤ n) (h₂ : n < 300) :
    ∃ a b, n.repr.toList = ['2', a, b] ∧ a.isDigit = true ∧ b.isDigit = true := by
  have hall : ∀ n < 300, 200 ≤ n → n.repr.toList.length = 3 ∧ n.repr.toList.head? = some '2' ∧
      n.repr.toList.all Char.isDigit = true := by decide +kernel
  obtain ⟨hlength, hhead, hdigits⟩ := hall n h₂ h₁
  obtain ⟨c, a, b, habc⟩ := List.length_eq_three.mp hlength
  rw [habc] at hhead hdigits ⊢
  obtain rfl : c = '2' := by simpa using hhead
  simp only [List.all_cons, List.all_nil, Bool.and_true, Bool.and_eq_true] at hdigits
  exact ⟨a, b, rfl, hdigits.2.1, hdigits.2.2⟩

/-- A status that a comma follows is read as a number. -/
theorem readValue_status {n : ℕ} (h₁ : 200 ≤ n) (h₂ : n < 300) (fuel : ℕ) (rest : List Char) :
    readValue (fuel + 1) (n.repr.toList ++ ',' :: rest)
      = some (.number n.repr.toList, ',' :: rest) := by
  obtain ⟨a, b, htext, ha, hb⟩ := repr_success h₁ h₂
  have hnumber : readNumber ('2' :: a :: b :: ',' :: rest) = some (['2', a, b], ',' :: rest) := by
    simp [readNumber, readSign, readTail, maxIntDigits, ha, hb]
  have hscalar : readValue (fuel + 1) ('2' :: a :: b :: ',' :: rest)
      = readScalar ('2' :: a :: b :: ',' :: rest) := rfl
  have hliteral : literals.find? (·.1.isPrefixOf ('2' :: a :: b :: ',' :: rest)) = none := rfl
  rw [htext]
  show readValue (fuel + 1) ('2' :: a :: b :: ',' :: rest) = _
  rw [hscalar, readScalar, hliteral, hnumber]
  rfl

/-- The members of a stored response. -/
theorem loads_dumps (c : CachedResponse) (h₁ : 200 ≤ c.statusCode) (h₂ : c.statusCode < 300) :
    loads c.dumps = some (.obj [("fingerprint", .str c.fingerprint),
      ("status_code", .number c.statusCode.repr.toList), ("body", .str c.body),
      ("media_type", .str c.mediaType)]) := by
  obtain ⟨a, b, htext, ha, hb⟩ := repr_success h₁ h₂
  set mediaTail := quoteAscii "media_type" ++ ':' :: ' ' :: (quoteAscii c.mediaType ++ ['\x7d'])
    with hmedia
  set bodyTail := quoteAscii "body" ++ ':' :: ' ' :: (quoteAscii c.body ++ ',' :: ' ' :: mediaTail)
    with hbody
  set statusTail := quoteAscii "status_code" ++ ':' :: ' ' ::
    (c.statusCode.repr.toList ++ ',' :: ' ' :: bodyTail) with hstatus
  set tail := quoteAscii c.fingerprint ++ ',' :: ' ' :: statusTail with htail
  obtain ⟨n, hn⟩ : ∃ n, c.dumps.length + 1 = n + 7 := by
    refine ⟨c.dumps.length - 6, ?_⟩
    have hlength : 6 ≤ c.dumps.length := by
      rw [CachedResponse.dumps, String.length_ofList]
      simp only [quoteAscii, List.length_cons, List.length_append]
      omega
    omega
  have hopen : skipBlank c.dumps.toList
      = '\x7b' :: (quoteAscii "fingerprint" ++ ':' :: ' ' :: tail) := by
    rw [CachedResponse.dumps, String.toList_ofList]
    rfl
  have hcomma : ∀ cs, skipBlank (',' :: cs) = ',' :: cs := fun _ => rfl
  have hblank : ∀ key rest, skipBlank (' ' :: (quoteAscii key ++ rest)) = quoteAscii key ++ rest :=
    fun _ _ => rfl
  -- the members from the last one to the first
  have hread₄ : readMembers (n + 3) mediaTail = some ([("media_type", .str c.mediaType)], []) := by
    rw [hmedia, readMembers_quoteAscii]
    rfl
  have hread₃ : readMembers (n + 4) bodyTail
      = some ([("body", .str c.body), ("media_type", .str c.mediaType)], []) := by
    rw [hbody, readMembers_quoteAscii]
    simp only [hcomma]
    rw [hmedia, hblank, ← hmedia, hread₄]
    rfl
  have hread₂ : readMembers (n + 5) statusTail
      = some ([("status_code", .number c.statusCode.repr.toList), ("body", .str c.body),
          ("media_type", .str c.mediaType)], []) := by
    have hstart : skipBlank (c.statusCode.repr.toList ++ ',' :: ' ' :: bodyTail)
        = c.statusCode.repr.toList ++ ',' :: ' ' :: bodyTail := by
      rw [htext]
      rfl
    rw [hstatus, readMembers_value "status_code" hstart (readValue_status h₁ h₂ (n + 3) _)]
    simp only [hcomma]
    rw [hbody, hblank, ← hbody, hread₃]
    rfl
  have hread₁ : readMembers (n + 6) (quoteAscii "fingerprint" ++ ':' :: ' ' :: tail)
      = some ([("fingerprint", .str c.fingerprint),
          ("status_code", .number c.statusCode.repr.toList), ("body", .str c.body),
          ("media_type", .str c.mediaType)], []) := by
    rw [htail, readMembers_quoteAscii]
    simp only [hcomma]
    rw [hstatus, hblank, ← hstatus, hread₂]
    rfl
  unfold loads
  rw [hn, hopen, readValue_object, hread₁]
  rfl

/-- A stored response is read back. -/
theorem readCached_dumps (c : CachedResponse) (h₁ : 200 ≤ c.statusCode) (h₂ : c.statusCode < 300) :
    readCached c.dumps = some c := by
  obtain ⟨a, b, htext, ha, hb⟩ := repr_success h₁ h₂
  have hdigits : c.statusCode.repr.toList.all Char.isDigit = true := by
    rw [htext]
    simp [ha, hb]
  have hvalue : Nat.ofDigitChars 10 c.statusCode.repr.toList 0 = c.statusCode := by
    rw [Nat.repr, String.toList_ofList]
    exact Nat.ofDigitChars_toDigits (by decide) (by decide)
  set members : List (String × JsonValue) := [("fingerprint", .str c.fingerprint),
    ("status_code", .number c.statusCode.repr.toList), ("body", .str c.body),
    ("media_type", .str c.mediaType)]
  have hloads : loads c.dumps = some (.obj members) := loads_dumps c h₁ h₂
  have hfingerprint : stringMember members "fingerprint" = some c.fingerprint := rfl
  have hstatus : natMember members "status_code" = some c.statusCode := by
    have hmember : JsonValue.member members "status_code" = some (.number c.statusCode.repr.toList) := rfl
    unfold natMember
    rw [hmember]
    simp only [hdigits, if_true, hvalue]
  have hbody : stringMember members "body" = some c.body := rfl
  have hmedia : stringMember members "media_type" = some c.mediaType := rfl
  unfold readCached
  rw [hloads]
  simp only [hfingerprint, hstatus, hbody, hmedia, Option.bind_eq_bind, Option.bind_some,
    Option.getD_some]

theorem toByteArray_of_fromUTF8? {b : ByteArray} {s : String} (h : String.fromUTF8? b = some s) :
    s.toByteArray = b := by
  unfold String.fromUTF8? at h
  split at h
  · rw [← Option.some.inj h]
    rfl
  · cases h

/-- The response keeps its content type when it is replayed. -/
def HandlerResponse.KeepsContentType (resp : HandlerResponse) : Prop :=
  resp.direct.contentType = some (contentTypeOf (resp.cached "" "").mediaType)

/-- A lookup that finds a stored response replays it to the fingerprint it was stored with, and answers
any other one with a conflict. -/
theorem replayOrConflict_dumps {resp : HandlerResponse} {fingerprint stored body : String}
    (hsuccess : resp.success = true) (hbody : String.fromUTF8? resp.body = some body)
    (hkeeps : resp.KeepsContentType) :
    replayOrConflict fingerprint (resp.cached stored body).dumps
      = if stored = fingerprint then .ok resp.direct else .ok conflict := by
  have hstatus : 200 ≤ resp.status ∧ resp.status < 300 := by
    simpa [HandlerResponse.success] using hsuccess
  have hread : readCached (resp.cached stored body).dumps = some (resp.cached stored body) :=
    readCached_dumps _ hstatus.1 hstatus.2
  have hreplay : (resp.cached stored body).replay = resp.direct := by
    have htype : resp.direct.contentType = some (contentTypeOf (resp.cached stored body).mediaType) :=
      hkeeps
    rw [CachedResponse.replay, ← htype]
    simp only [HandlerResponse.cached, HandlerResponse.direct, toByteArray_of_fromUTF8? hbody]
  unfold replayOrConflict
  rw [hread]
  by_cases hfingerprint : stored = fingerprint
  · rw [if_pos hfingerprint, ← hreplay]
    simp only [HandlerResponse.cached, hfingerprint, ne_eq, not_true_eq_false, if_false]
  · rw [if_neg hfingerprint]
    simp only [HandlerResponse.cached, ne_eq, hfingerprint, not_false_eq_true, if_true]

/-! ## Fingerprints -/

/-- No method that is looked at has a colon. -/
theorem colon_notMem_method {method : String} (h : method ∈ stateChanging) : ':' ∉ method.toList := by
  have hall : ∀ method ∈ stateChanging, ':' ∉ method.toList := by decide
  exact hall method h

/-- What stands before the first colon. -/
theorem append_colon_inj {a a' r r' : List Char} (ha : ':' ∉ a) (ha' : ':' ∉ a')
    (h : a ++ ':' :: r = a' ++ ':' :: r') : a = a' ∧ r = r' := by
  induction a generalizing a' with
  | nil =>
      cases a' with
      | nil => exact ⟨rfl, (List.cons.inj h).2⟩
      | cons c a' => exact absurd (List.mem_cons.mpr (.inl (List.cons.inj h).1)) ha'
  | cons c a ih =>
      cases a' with
      | nil => exact absurd (List.mem_cons.mpr (.inl (List.cons.inj h).1.symm)) ha
      | cons c' a' =>
          obtain ⟨rfl, hrest⟩ := List.cons.inj h
          obtain ⟨rfl, hr⟩ := ih (fun hc => ha (List.mem_cons_of_mem _ hc))
            (fun hc => ha' (List.mem_cons_of_mem _ hc)) hrest
          exact ⟨rfl, hr⟩

/-- The hashed text determines the method, the path and the payload up to the order of members. -/
theorem fingerprintText_inj {method method' path path' : String} {j j' : Json}
    (hmethod : method ∈ stateChanging) (hmethod' : method' ∈ stateChanging)
    (h : fingerprintText method path j = fingerprintText method' path' j') :
    method = method' ∧ path = path' ∧ j.sortKeys = j'.sortKeys := by
  have hchars : method.toList ++ ':' :: (path.toList ++ ':' :: j.sortKeys.chars)
      = method'.toList ++ ':' :: (path'.toList ++ ':' :: j'.sortKeys.chars) := by
    simpa [fingerprintText, Json.text] using congrArg String.toList h
  obtain ⟨hm, hrest⟩ :=
    append_colon_inj (colon_notMem_method hmethod) (colon_notMem_method hmethod') hchars
  obtain ⟨hp, hj⟩ := Json.append_colon_chars_inj hrest
  exact ⟨String.toList_injective hm, String.toList_injective hp, hj⟩

end ApexChainx.Idempotency
