import Mathlib.Data.List.Dedup
import Mathlib.Data.List.Induction
import Mathlib.Data.List.Sort
import Mathlib.Data.String.Basic
import ApexChainx.Core.DateTime
import ApexChainx.Core.Error
import ApexChainx.Lib.Table

/-!
# API keys

The keys of `app/services/api_key_store.py` from their creation to their revocation by the endpoints of
`api_keys.py`, and the requests that carry them: `get_current_user_or_service` and `require_scope`
(`app/core/security.py`). The endpoints are for admins; what others are answered, the audit log and access-log
attribution are left out.

Every request is one statement on the table `api_keys`, up to `revoke_key`, which looks for a row before it updates
it: rows are never deleted. The database keeps instants, and gives them back in UTC. No text has a NUL in it, which the
driver refuses.
-/

namespace ApexChainx.Auth.ApiKeys

open Lib

/-! ## The table -/

/-- A row of `api_keys`. -/
structure ApiKeyORM where
  id : String
  hashedKey : String
  name : Option String
  scopes : List String
  expiresAt : Option DateTime
  revokedAt : Option DateTime
  createdAt : DateTime
  createdBy : String
deriving DecidableEq, Repr

/-- `KNOWN_SCOPES`. -/
def knownScopes : List String :=
  ["outages:read", "outages:write", "sla:read", "sla:write", "payments:read", "payments:write", "webhooks:read",
    "webhooks:write", "admin:full"]

/-- `ApiKeyCreateRequest`, before its validators. -/
structure ApiKeyCreateRequest where
  name : Option String
  scopes : List String
  expiresAt : Option DateTime
deriving DecidableEq, Repr

/-- `sorted(set(scopes) - KNOWN_SCOPES)`. -/
def unknownScopes (scopes : List String) : List String :=
  (scopes.dedup.filter (· ∉ knownScopes)).mergeSort fun a b => decide (a ≤ b)

/-- `validate_scopes`. -/
def validateScopes (scopes : List String) : Outcome (List String) :=
  if unknownScopes scopes = [] then .ok scopes
  else .error (.http 422 ("Unknown API key scope(s): " ++ ", ".intercalate (unknownScopes scopes)))

/-- `validate_expiry`. -/
def validateExpiry (now : DateTime) (expiresAt : Option DateTime) : Outcome (Option DateTime) :=
  match expiresAt with
  | none => .ok none
  | some e => if e.ticks ≤ now.ticks then .error (.http 422 "expires_at must be in the future") else .ok (some e)

/-- What an admin asks for. The key and the id of a new row are drawn, and its expiry is checked at a time before
that at which it is stored. -/
inductive ApiKeyRequest
  | create (payload : ApiKeyCreateRequest) (createdBy rawKey id : String) (checkedAt : DateTime)
  | revoke (keyId : String)
deriving DecidableEq, Repr

/-- A request and the time at which it writes. -/
structure ApiKeyStep where
  request : ApiKeyRequest
  now : DateTime
deriving DecidableEq, Repr

/-- What a `String(255)` column keeps of a text: the blanks behind its limit are cut off. -/
def varchar (text : String) : String := String.ofList (text.toList.take 255)

/-- A text has more than blanks behind the limit of a `String(255)` column. -/
def tooLong (text : String) : Bool := (text.toList.drop 255).any (· ≠ ' ')

section

variable (hashToken : String → String)

/-- `create_api_key_endpoint` with `create_api_key`. -/
def createApiKey (table : List ApiKeyORM) (payload : ApiKeyCreateRequest) (createdBy rawKey id : String)
    (checkedAt now : DateTime) : Outcome (List ApiKeyORM) :=
  match validateScopes payload.scopes, validateExpiry checkedAt payload.expiresAt with
  | .error e, _ | _, .error e => .error e
  | .ok scopes, .ok expiresAt =>
      if payload.name.any tooLong then .error (.dataError "name")
      else if tooLong createdBy then .error (.dataError "created_by")
      else if id ∈ table.map ApiKeyORM.id then .error (.integrityError "api_keys_pkey")
      else if hashToken rawKey ∈ table.map ApiKeyORM.hashedKey then .error (.integrityError "ix_api_keys_hashed_key")
      else .ok (table ++
        [⟨id, hashToken rawKey, payload.name.map varchar, scopes, expiresAt, none, now, varchar createdBy⟩])

/-- `revoke_api_key_endpoint` with `revoke_key`. -/
def revokeKey (table : List ApiKeyORM) (keyId : String) (now : DateTime) : Outcome (List ApiKeyORM) :=
  if keyId ∈ table.map ApiKeyORM.id then
    .ok (updateKey ApiKeyORM.id keyId (fun row => { row with revokedAt := some now }) table)
  else .error (.http 404 "API key not found")

/-- The answer of a request: the new table, or an error. -/
def ApiKeyStep.reply (table : List ApiKeyORM) (t : ApiKeyStep) : Outcome (List ApiKeyORM) :=
  match t.request with
  | .create payload createdBy rawKey id checkedAt =>
      createApiKey hashToken table payload createdBy rawKey id checkedAt t.now
  | .revoke keyId => revokeKey table keyId t.now

/-- The table after a request; one that fails leaves it alone. -/
def ApiKeyStep.apply (table : List ApiKeyORM) (t : ApiKeyStep) : List ApiKeyORM :=
  match t.reply hashToken table with
  | .ok table => table
  | .error _ => table

/-- The table after requests of admins, none of them before. -/
def keysAfter (steps : List ApiKeyStep) : List ApiKeyORM := steps.foldl (ApiKeyStep.apply hashToken) []

end

/-! ## Requests with a key -/

/-- The user that `get_current_user` returns. -/
structure AuthUser where
  id : String
  email : String
  role : String
deriving DecidableEq, Repr

/-- Who a request is from. -/
inductive Actor
  | service (keyId : String) (scopes : List String)
  | user (user : AuthUser)
deriving DecidableEq, Repr

/-- `actor["scopes"]`. -/
def Actor.scopes : Actor → List String
  | service _ scopes => scopes
  | user _ => []

/-- The header `X-Api-Key`, and what `get_current_user` makes of `Authorization` when that header is not empty. -/
structure Credentials where
  xApiKey : Option String
  authorization : Option (Outcome AuthUser)

/-- `get_current_user_or_service`. -/
def getCurrentUserOrService (hashToken : String → String) (table : List ApiKeyORM) (c : Credentials) (now : DateTime) :
    Outcome Actor :=
  if c.xApiKey.getD "" ≠ "" then
    match table.find? (·.hashedKey = hashToken (c.xApiKey.getD "")) with
    | none => .error (.http 401 "Invalid API key")
    | some key =>
        if key.revokedAt ≠ none then .error (.http 401 "API key has been revoked")
        else if key.expiresAt.any fun e => e.ticks < now.ticks then .error (.http 401 "API key has expired")
        else .ok (.service key.id key.scopes)
  else
    match c.authorization with
    | some (.ok user) => .ok (.user user)
    | some (.error e) => .error e
    | none => .error (.http 401 "Missing Authorization or X-Api-Key header")

/-- `require_scope(required_scope)`. -/
def requireScope (hashToken : String → String) (table : List ApiKeyORM) (requiredScope : String) (c : Credentials)
    (now : DateTime) : Outcome Actor :=
  match getCurrentUserOrService hashToken table c now with
  | .error e => .error e
  | .ok actor =>
      if requiredScope ∈ actor.scopes then .ok actor
      else .error (.http 403 ("Insufficient scope. Required scope: " ++ requiredScope))

/-! ## The list of keys -/

/-- `_is_expired`. -/
def isExpired (now : DateTime) (expiresAt : Option DateTime) : Bool := expiresAt.any fun e => e.ticks ≤ now.ticks

/-- `_key_status`. -/
def keyStatus (now : DateTime) (revokedAt expiresAt : Option DateTime) : String :=
  if revokedAt ≠ none then "revoked" else if isExpired now expiresAt then "expired" else "active"

/-- `ApiKeyItem`. -/
structure ApiKeyItem where
  id : String
  name : Option String
  scopes : List String
  expiresAt : Option DateTime
  revokedAt : Option DateTime
  createdAt : DateTime
  createdBy : String
  status : String
deriving DecidableEq, Repr

/-- The item of `list_api_keys_endpoint` for a key. -/
def itemFor (now : DateTime) (k : ApiKeyORM) : ApiKeyItem :=
  ⟨k.id, k.name, k.scopes, k.expiresAt, k.revokedAt, k.createdAt, k.createdBy, keyStatus now k.revokedAt k.expiresAt⟩

/-- `list_api_keys_endpoint`, with the keys in the order in which the database has them. -/
def listApiKeys (now : DateTime) (table : List ApiKeyORM) : List ApiKeyItem :=
  (table.mergeSort fun a b => decide (b.createdAt.ticks ≤ a.createdAt.ticks)).map (itemFor now)

/-! ## The life of a key -/

/-- A request for a new key. -/
structure Creation where
  payload : ApiKeyCreateRequest
  createdBy : String
  rawKey : String
  id : String
  checkedAt : DateTime
  now : DateTime

def Creation.step (c : Creation) : ApiKeyStep := ⟨.create c.payload c.createdBy c.rawKey c.id c.checkedAt, c.now⟩

/-- The last time at which a key was revoked. -/
def revocation (id : String) : List ApiKeyStep → Option DateTime
  | [] => none
  | t :: ts => (revocation id ts).or (if t.request = .revoke id then some t.now else none)

theorem revocation_concat (id : String) (ts : List ApiKeyStep) (t : ApiKeyStep) :
    revocation id (ts ++ [t]) = if t.request = .revoke id then some t.now else revocation id ts := by
  induction ts with
  | nil => simp [revocation]
  | cons u ts ih =>
      rw [List.cons_append, revocation, ih, revocation]
      split <;> simp

theorem revocation_eq_none_iff {id : String} {ts : List ApiKeyStep} :
    revocation id ts = none ↔ ∀ t ∈ ts, t.request ≠ .revoke id := by
  induction ts with
  | nil => simp [revocation]
  | cons t ts ih =>
      rw [revocation, Option.or_eq_none_iff, ih, List.forall_mem_cons, and_comm]
      simp

variable {hashToken : String → String} {steps after : List ApiKeyStep} {c : Creation} {table : List ApiKeyORM}

/-- The row of a key that was created and revoked at these times. -/
def Creation.row (hashToken : String → String) (c : Creation) (revokedAt : Option DateTime) : ApiKeyORM :=
  ⟨c.id, hashToken c.rawKey, c.payload.name.map varchar, c.payload.scopes, c.payload.expiresAt, revokedAt, c.now,
    varchar c.createdBy⟩

/-- The request was answered with a key, and the requests `after` came after it. -/
def Issued (hashToken : String → String) (steps : List ApiKeyStep) (c : Creation) (after : List ApiKeyStep) : Prop :=
  ∃ before, steps = before ++ c.step :: after ∧
    (c.step.reply hashToken (keysAfter hashToken before)).isOk = true

theorem validateScopes_eq_ok {scopes scopes' : List String} (h : validateScopes scopes = .ok scopes') :
    scopes' = scopes ∧ ∀ s ∈ scopes, s ∈ knownScopes := by
  unfold validateScopes at h
  split at h
  · rename_i hnone
    refine ⟨(Outcome.ok.inj h).symm, fun s hs => ?_⟩
    by_contra hunknown
    have hmem : s ∈ unknownScopes scopes :=
      List.mem_mergeSort.mpr (List.mem_filter.mpr ⟨List.mem_dedup.mpr hs, decide_eq_true hunknown⟩)
    rw [hnone] at hmem
    cases hmem
  · cases h

theorem validateExpiry_eq_ok {now : DateTime} {expiresAt e : Option DateTime}
    (h : validateExpiry now expiresAt = .ok e) : e = expiresAt ∧ ∀ e ∈ expiresAt, now.ticks < e.ticks := by
  unfold validateExpiry at h
  split at h
  · exact ⟨(Outcome.ok.inj h).symm, nofun⟩
  · rename_i expiry
    split at h
    · cases h
    · rename_i hfuture
      refine ⟨(Outcome.ok.inj h).symm, fun e he => ?_⟩
      rw [← Option.some.inj he]
      exact not_le.mp hfuture

/-- A key is issued when its scopes are known, it is still to expire, its texts fit, and its id and hash are new. -/
theorem reply_create_eq_ok {table' : List ApiKeyORM} (h : c.step.reply hashToken table = .ok table') :
    table' = table ++ [c.row hashToken none] ∧ (∀ s ∈ c.payload.scopes, s ∈ knownScopes) ∧
      c.id ∉ table.map ApiKeyORM.id ∧ hashToken c.rawKey ∉ table.map ApiKeyORM.hashedKey := by
  simp only [Creation.step, ApiKeyStep.reply, createApiKey] at h
  split at h
  · cases h
  · cases h
  · rename_i scopes expiresAt hscopes hexpiry
    obtain ⟨rfl, hknown⟩ := validateScopes_eq_ok hscopes
    obtain ⟨rfl, -⟩ := validateExpiry_eq_ok hexpiry
    split_ifs at h with _ _ hid hhash
    exact ⟨(Outcome.ok.inj h).symm, hknown, hid, hhash⟩

theorem keysAfter_concat (steps : List ApiKeyStep) (t : ApiKeyStep) :
    keysAfter hashToken (steps ++ [t]) = t.apply hashToken (keysAfter hashToken steps) := by
  rw [keysAfter, List.foldl_append]
  rfl

/-- A request issues a key, revokes a key that was issued, or leaves the table as it was. -/
theorem apply_cases (hashToken : String → String) (table : List ApiKeyORM) (t : ApiKeyStep) :
    (∃ c : Creation, t = c.step ∧ (c.step.reply hashToken table).isOk = true ∧
      t.apply hashToken table = table ++ [c.row hashToken none]) ∨
    (∃ id, t.request = .revoke id ∧ t.apply hashToken table
      = updateKey ApiKeyORM.id id (fun row => { row with revokedAt := some t.now }) table) ∨
    ((∀ id, t.request ≠ .revoke id) ∧ (t.reply hashToken table).isOk = false ∧ t.apply hashToken table = table) := by
  obtain ⟨request, now⟩ := t
  cases request with
  | revoke id =>
      refine .inr (.inl ⟨id, rfl, ?_⟩)
      by_cases hid : id ∈ table.map ApiKeyORM.id
      · simp only [ApiKeyStep.apply, ApiKeyStep.reply, revokeKey, if_pos hid]
      · simp only [ApiKeyStep.apply, ApiKeyStep.reply, revokeKey, if_neg hid, updateKey_of_not_mem hid]
  | create payload createdBy rawKey id checkedAt =>
      let c : Creation := ⟨payload, createdBy, rawKey, id, checkedAt, now⟩
      cases hreply : c.step.reply hashToken table with
      | ok table' =>
          refine .inl ⟨c, rfl, by rw [hreply]; rfl, ?_⟩
          show c.step.apply hashToken table = _
          rw [ApiKeyStep.apply, hreply, (reply_create_eq_ok hreply).1]
      | error e =>
          refine .inr (.inr ⟨nofun, ?_, ?_⟩)
          · show (c.step.reply hashToken table).isOk = false
            rw [hreply]
            rfl
          · show c.step.apply hashToken table = table
            rw [ApiKeyStep.apply, hreply]

/-- The ids and the hashes of a table differ. -/
structure Distinct (table : List ApiKeyORM) : Prop where
  ids : (table.map ApiKeyORM.id).Nodup
  hashes : (table.map ApiKeyORM.hashedKey).Nodup

theorem nodup_map_concat {κ : Type} {column : ApiKeyORM → κ} {row : ApiKeyORM} (h : (table.map column).Nodup)
    (hnew : column row ∉ table.map column) : ((table ++ [row]).map column).Nodup := by
  rw [List.map_append]
  exact List.nodup_append.mpr ⟨h, List.nodup_singleton _, fun k hk k' hk' heq => by
    rw [List.map_singleton, List.mem_singleton] at hk'
    exact hnew (hk' ▸ heq ▸ hk)⟩

theorem distinct_apply (h : Distinct table) (t : ApiKeyStep) : Distinct (t.apply hashToken table) := by
  rcases apply_cases hashToken table t with ⟨c, -, hok, happly⟩ | ⟨id, -, happly⟩ | ⟨-, -, happly⟩
  · rw [happly]
    cases hreply : c.step.reply hashToken table with
    | ok table' =>
        obtain ⟨-, -, hid, hhash⟩ := reply_create_eq_ok hreply
        exact ⟨nodup_map_concat h.ids hid, nodup_map_concat h.hashes hhash⟩
    | error e =>
        rw [hreply] at hok
        cases hok
  · have hids : (t.apply hashToken table).map ApiKeyORM.id = table.map ApiKeyORM.id := by
      have hkey : ∀ row : ApiKeyORM, ({ row with revokedAt := some t.now } : ApiKeyORM).id = row.id := fun _ => rfl
      rw [happly, map_key_updateKey hkey]
    have hhashes : (t.apply hashToken table).map ApiKeyORM.hashedKey = table.map ApiKeyORM.hashedKey := by
      rw [happly, updateKey, List.map_map]
      refine List.map_congr_left fun row _ => ?_
      simp only [Function.comp_apply]
      split <;> rfl
    exact ⟨hids ▸ h.ids, hhashes ▸ h.hashes⟩
  · rw [happly]
    exact h

theorem distinct_keysAfter (hashToken : String → String) (steps : List ApiKeyStep) :
    Distinct (keysAfter hashToken steps) := by
  induction steps using List.reverseRecOn with
  | nil => exact ⟨List.nodup_nil, List.nodup_nil⟩
  | append_singleton steps t ih =>
      rw [keysAfter_concat]
      exact distinct_apply ih t

/-- One more request comes after the keys that were issued, or issues a key itself. -/
theorem issued_concat {t : ApiKeyStep} :
    Issued hashToken (steps ++ [t]) c after ↔
      (after = [] ∧ t = c.step ∧ (c.step.reply hashToken (keysAfter hashToken steps)).isOk = true) ∨
      ∃ earlier, after = earlier ++ [t] ∧ Issued hashToken steps c earlier := by
  constructor
  · rintro ⟨before, hsteps, hok⟩
    rcases List.eq_nil_or_concat' after with rfl | ⟨earlier, u, rfl⟩
    · obtain ⟨rfl, ht⟩ := List.append_inj' hsteps rfl
      exact .inl ⟨rfl, List.singleton_inj.mp ht, hok⟩
    · rw [← List.cons_append, ← List.append_assoc] at hsteps
      obtain ⟨rfl, ht⟩ := List.append_inj' hsteps rfl
      exact .inr ⟨earlier, by rw [List.singleton_inj.mp ht], before, rfl, hok⟩
  · rintro (⟨rfl, rfl, hok⟩ | ⟨earlier, rfl, before, rfl, hok⟩)
    · exact ⟨steps, rfl, hok⟩
    · exact ⟨before, by simp, hok⟩

theorem creation_inj {c c' : Creation} (h : c.step = c'.step) : c = c' := by
  obtain ⟨⟩ := c
  obtain ⟨⟩ := c'
  simp only [Creation.step, ApiKeyStep.mk.injEq, ApiKeyRequest.create.injEq] at h
  obtain ⟨⟨rfl, rfl, rfl, rfl, rfl⟩, rfl⟩ := h
  rfl

/-- The table has the keys that were issued, each with the time at which it was last revoked. -/
theorem mem_keysAfter_iff {row : ApiKeyORM} :
    row ∈ keysAfter hashToken steps ↔
      ∃ c after, Issued hashToken steps c after ∧ row = c.row hashToken (revocation c.id after) := by
  induction steps using List.reverseRecOn generalizing row with
  | nil =>
      refine ⟨fun h => absurd h List.not_mem_nil, ?_⟩
      rintro ⟨c, after, ⟨before, hsteps, -⟩, -⟩
      simp at hsteps
  | append_singleton steps t ih =>
      rw [keysAfter_concat]
      simp only [issued_concat]
      rcases apply_cases hashToken (keysAfter hashToken steps) t with
        ⟨c₀, rfl, hok, happly⟩ | ⟨id, hrequest, happly⟩ | ⟨hother, hfailed, happly⟩
      · -- a new key is added to the others
        have hkeep : ∀ id ts, revocation id (ts ++ [c₀.step]) = revocation id ts :=
          fun id ts => by rw [revocation_concat, if_neg nofun]
        rw [happly, List.mem_append, List.mem_singleton, ih]
        constructor
        · rintro (⟨c, after, hissued, rfl⟩ | rfl)
          · exact ⟨c, after ++ [c₀.step], .inr ⟨after, rfl, hissued⟩, by rw [hkeep]⟩
          · exact ⟨c₀, [], .inl ⟨rfl, rfl, hok⟩, rfl⟩
        · rintro ⟨c, after, ⟨rfl, hstep, -⟩ | ⟨earlier, rfl, hissued⟩, rfl⟩
          · exact .inr (creation_inj hstep ▸ rfl)
          · exact .inl ⟨c, earlier, hissued, by rw [hkeep]⟩
      · rw [happly, mem_updateKey_iff]
        constructor
        · rintro (⟨hrow, hne⟩ | ⟨row', hrow', hid, rfl⟩)
          · obtain ⟨c, after, hissued, rfl⟩ := ih.mp hrow
            have hkeep : t.request ≠ .revoke c.id := by
              rw [hrequest]
              exact fun heq => hne (ApiKeyRequest.revoke.inj heq).symm
            exact ⟨c, after ++ [t], .inr ⟨after, rfl, hissued⟩, by rw [revocation_concat, if_neg hkeep]⟩
          · obtain ⟨c, after, hissued, rfl⟩ := ih.mp hrow'
            obtain rfl : c.id = id := hid
            exact ⟨c, after ++ [t], .inr ⟨after, rfl, hissued⟩, by rw [revocation_concat, if_pos hrequest]; rfl⟩
        · rintro ⟨c, after, ⟨-, rfl, -⟩ | ⟨earlier, rfl, hissued⟩, rfl⟩
          · cases hrequest
          · rw [revocation_concat]
            by_cases hid : c.id = id
            · subst hid
              rw [if_pos hrequest]
              exact .inr ⟨_, ih.mpr ⟨c, earlier, hissued, rfl⟩, rfl, rfl⟩
            · rw [if_neg (fun heq => hid (ApiKeyRequest.revoke.inj (heq.symm.trans hrequest)))]
              exact .inl ⟨ih.mpr ⟨c, earlier, hissued, rfl⟩, hid⟩
      · rw [happly, ih]
        constructor
        · rintro ⟨c, after, hissued, rfl⟩
          exact ⟨c, after ++ [t], .inr ⟨after, rfl, hissued⟩, by rw [revocation_concat, if_neg (hother _)]⟩
        · rintro ⟨c, after, ⟨-, rfl, hok⟩ | ⟨earlier, rfl, hissued⟩, rfl⟩
          · rw [hfailed] at hok
            cases hok
          · exact ⟨c, earlier, hissued, by rw [revocation_concat, if_neg (hother _)]⟩

/-! ## Who gets through -/

variable {credentials : Credentials} {now : DateTime} {key scope : String}

theorem known_of_issued (h : Issued hashToken steps c after) : ∀ s ∈ c.payload.scopes, s ∈ knownScopes := by
  obtain ⟨before, -, hok⟩ := h
  cases hreply : c.step.reply hashToken (keysAfter hashToken before) with
  | ok table' => exact (reply_create_eq_ok hreply).2.1
  | error e =>
      rw [hreply] at hok
      cases hok

/-- What a key gets its bearer. -/
theorem getCurrentUserOrService_key (hkey : key ≠ "") (authorization : Option (Outcome AuthUser)) {actor : Actor} :
    getCurrentUserOrService hashToken (keysAfter hashToken steps) ⟨some key, authorization⟩ now = .ok actor ↔
      ∃ c after, Issued hashToken steps c after ∧ hashToken c.rawKey = hashToken key ∧
        (∀ t ∈ after, t.request ≠ .revoke c.id) ∧ (∀ e ∈ c.payload.expiresAt, now.ticks ≤ e.ticks) ∧
        actor = .service c.id c.payload.scopes := by
  have hfind := fun row => find?_key_eq_some_iff (distinct_keysAfter hashToken steps).hashes
    (k := hashToken key) (r := row)
  rw [getCurrentUserOrService, Option.getD_some, if_pos hkey]
  constructor
  · intro h
    split at h
    · cases h
    · rename_i row hrow
      obtain ⟨hmem, hhash⟩ := (hfind row).mp hrow
      obtain ⟨c, after, hissued, rfl⟩ := mem_keysAfter_iff.mp hmem
      split at h
      · cases h
      · rename_i hlive
        split at h
        · cases h
        · rename_i hfuture
          refine ⟨c, after, hissued, hhash, ?_, ?_, (Outcome.ok.inj h).symm⟩
          · exact revocation_eq_none_iff.mp (not_not.mp hlive)
          · intro e he
            by_contra hpast
            have hany : c.payload.expiresAt.any (fun e => decide (e.ticks < now.ticks)) = true := by
              rw [Option.mem_def.mp he, Option.any_some]
              exact decide_eq_true (not_le.mp hpast)
            exact hfuture hany
  · rintro ⟨c, after, hissued, hhash, hlive, hfuture, rfl⟩
    have hmem := mem_keysAfter_iff.mpr ⟨c, after, hissued, rfl⟩
    rw [(hfind _).mpr ⟨hmem, hhash⟩]
    have hnone : revocation c.id after = none := revocation_eq_none_iff.mpr hlive
    have hany : c.payload.expiresAt.any (fun e => decide (e.ticks < now.ticks)) = false := by
      cases hexpiry : c.payload.expiresAt with
      | none => rfl
      | some e =>
          have hle : now.ticks ≤ e.ticks := hfuture e (hexpiry ▸ rfl)
          rw [Option.any_some]
          exact decide_eq_false (not_lt.mpr hle)
    simp only [Creation.row, hnone, ne_eq, not_true_eq_false, if_false, hany, Bool.false_eq_true]

/-- A request gets past `require_scope` exactly when it carries a key that was issued for the scope, was not revoked
since, and has not expired. A bearer token never does, not even an admin's. -/
theorem requireScope_iff (hashToken : String → String) (steps : List ApiKeyStep) (credentials : Credentials)
    (scope : String) (now : DateTime) :
    (∃ actor, requireScope hashToken (keysAfter hashToken steps) scope credentials now = .ok actor) ↔
      ∃ key, credentials.xApiKey = some key ∧ key ≠ "" ∧ ∃ c after, Issued hashToken steps c after ∧
        hashToken c.rawKey = hashToken key ∧ scope ∈ c.payload.scopes ∧ scope ∈ knownScopes ∧
        (∀ t ∈ after, t.request ≠ .revoke c.id) ∧ ∀ e ∈ c.payload.expiresAt, now.ticks ≤ e.ticks := by
  obtain ⟨xApiKey, authorization⟩ := credentials
  constructor
  · rintro ⟨actor, h⟩
    unfold requireScope at h
    split at h
    · cases h
    · rename_i holder hholder
      split at h
      · rename_i hscope
        by_cases hkey : xApiKey.getD "" = ""
        · -- a bearer token has no scopes
          simp only [getCurrentUserOrService, hkey, ne_eq, not_true_eq_false, if_false] at hholder
          split at hholder
          · rw [← Outcome.ok.inj hholder] at hscope
            cases hscope
          · cases hholder
          · cases hholder
        · obtain ⟨key, rfl⟩ : ∃ key, xApiKey = some key := by
            refine Option.ne_none_iff_exists'.mp ?_
            rintro rfl
            exact hkey rfl
          obtain ⟨c, after, hissued, hhash, hlive, hfuture, rfl⟩ :=
            (getCurrentUserOrService_key hkey authorization).mp hholder
          exact ⟨key, rfl, hkey, c, after, hissued, hhash, hscope, known_of_issued hissued scope hscope, hlive, hfuture⟩
      · cases h
  · rintro ⟨key, rfl, hkey, c, after, hissued, hhash, hscope, -, hlive, hfuture⟩
    have hholder := (getCurrentUserOrService_key hkey authorization).mpr ⟨c, after, hissued, hhash, hlive, hfuture, rfl⟩
    refine ⟨.service c.id c.payload.scopes, ?_⟩
    rw [requireScope, hholder]
    exact if_pos hscope

theorem keyStatus_eq_active_iff {revokedAt expiresAt : Option DateTime} :
    keyStatus now revokedAt expiresAt = "active" ↔ revokedAt = none ∧ ∀ e ∈ expiresAt, now.ticks < e.ticks := by
  unfold keyStatus isExpired
  cases revokedAt with
  | some r => simp
  | none =>
      rw [if_neg (not_not.mpr rfl)]
      cases expiresAt with
      | none => simp
      | some e =>
          rw [Option.any_some]
          by_cases hpast : e.ticks ≤ now.ticks
          · rw [if_pos (decide_eq_true hpast)]
            exact ⟨fun h => absurd h (by decide), fun h => absurd hpast (not_le.mpr (h.2 e rfl))⟩
          · rw [decide_eq_false hpast]
            refine ⟨fun _ => ⟨rfl, ?_⟩, fun _ => rfl⟩
            rintro e' ⟨⟩
            exact not_le.mp hpast

/-- The list has every key that was issued once, the newest first. A key is listed as active exactly as long as it
gets its bearer through, save at the instant at which it expires: then it still does, but is listed as expired. -/
theorem listed_active_iff (hashToken : String → String) (steps : List ApiKeyStep) (now : DateTime) :
    ((listApiKeys now (keysAfter hashToken steps)).map ApiKeyItem.id).Nodup ∧
    (listApiKeys now (keysAfter hashToken steps)).Pairwise (fun a b => b.createdAt.ticks ≤ a.createdAt.ticks) ∧
    ∀ c after, Issued hashToken steps c after → c.rawKey ≠ "" → ∀ authorization,
      ∃ item ∈ listApiKeys now (keysAfter hashToken steps), item.id = c.id ∧
        (item.status = "active" ↔
          (∃ actor, getCurrentUserOrService hashToken (keysAfter hashToken steps) ⟨some c.rawKey, authorization⟩ now
            = .ok actor) ∧ ∀ e ∈ c.payload.expiresAt, e.ticks ≠ now.ticks) := by
  let newest : ApiKeyORM → ApiKeyORM → Bool := fun a b => decide (b.createdAt.ticks ≤ a.createdAt.ticks)
  have hperm : ((keysAfter hashToken steps).mergeSort newest).Perm (keysAfter hashToken steps) :=
    List.mergeSort_perm _ _
  refine ⟨?_, ?_, fun c after hissued hkey authorization => ?_⟩
  · rw [listApiKeys, List.map_map]
    exact ((hperm.map ApiKeyORM.id).nodup_iff).mpr (distinct_keysAfter hashToken steps).ids
  · refine List.pairwise_map.mpr ((List.pairwise_mergeSort ?_ ?_ _).imp fun hle => of_decide_eq_true hle)
    · intro a b d hab hbd
      exact decide_eq_true ((of_decide_eq_true hbd).trans (of_decide_eq_true hab))
    · intro a b
      rw [Bool.or_eq_true, decide_eq_true_eq, decide_eq_true_eq]
      exact le_total _ _
  · have hmem := mem_keysAfter_iff.mpr ⟨c, after, hissued, rfl⟩
    refine ⟨itemFor now (c.row hashToken (revocation c.id after)),
      List.mem_map_of_mem (hperm.mem_iff.mpr hmem), rfl, ?_⟩
    show keyStatus now (revocation c.id after) c.payload.expiresAt = "active" ↔ _
    rw [keyStatus_eq_active_iff]
    constructor
    · rintro ⟨hlive, hfuture⟩
      refine ⟨⟨_, (getCurrentUserOrService_key hkey authorization).mpr ⟨c, after, hissued, rfl, ?_, ?_, rfl⟩⟩, ?_⟩
      · exact revocation_eq_none_iff.mp hlive
      · exact fun e he => (hfuture e he).le
      · exact fun e he => (hfuture e he).ne'
    · rintro ⟨⟨actor, h⟩, hinstant⟩
      obtain ⟨c', after', hissued', hhash, hlive, hfuture, -⟩ := (getCurrentUserOrService_key hkey authorization).mp h
      -- the key that is found by the hash is the one that was issued with it
      have hsame := List.inj_on_of_nodup_map (distinct_keysAfter hashToken steps).hashes
        (mem_keysAfter_iff.mpr ⟨c', after', hissued', rfl⟩) hmem hhash
      have hrevoked : revocation c'.id after' = revocation c.id after := congrArg ApiKeyORM.revokedAt hsame
      have hexpiry : c'.payload.expiresAt = c.payload.expiresAt := congrArg ApiKeyORM.expiresAt hsame
      refine ⟨hrevoked ▸ revocation_eq_none_iff.mpr hlive, fun e he => ?_⟩
      exact lt_of_le_of_ne (hfuture e (hexpiry ▸ he)) (Ne.symm (hinstant e he))

end ApexChainx.Auth.ApiKeys
