import Mathlib.Data.Int.Notation
import Mathlib.Data.List.Nodup
import ApexChainx.Core.Error
import ApexChainx.Lib.Table

/-!
# The table of wallets

`WalletRepository` (`app/repositories/wallet_repository.py`) over `WalletORM` (`app/models/orm/wallet.py`).
Times are microseconds. The two regular expressions are modelled by what they search for: the first has
restricted the text to printable ASCII before the second is tried, so a word is a run of ASCII letters,
digits and underscores.
-/

namespace ApexChainx.Wallets

open ApexChainx.Lib

/-- A row of `wallets`. -/
structure WalletORM where
  id : ℕ
  userId : String
  publicKey : String
  funded : Bool
  active : Bool
  trustlineReady : Bool
  createdAt : ℤ
  lastUpdated : ℤ
  cachedAt : Option ℤ
deriving DecidableEq, Repr

/-- The table with the sequence behind its primary key. -/
structure WalletTable where
  rows : List WalletORM
  nextId : ℕ
deriving DecidableEq, Repr

/-! ## Input validation -/

/-- `$` also matches before a newline that ends the text. -/
def withoutFinalNewline (cs : List Char) : List Char :=
  if cs.getLast? = some '\n' then cs.dropLast else cs

/-- `_SAFE_INPUT_RE`. -/
def safeInput (cs : List Char) : Bool :=
  let body := withoutFinalNewline cs
  !body.isEmpty && body.all fun c => decide (0x20 ≤ c.toNat ∧ c.toNat ≤ 0x7E)

/-- `\w`. -/
def wordChar (c : Char) : Bool := c.isAlphanum || c = '_'

/-- The keywords of `_SQLI_PATTERNS`. -/
def sqlKeywords : List String :=
  ["union", "select", "insert", "update", "delete", "drop", "alter", "exec", "execute", "declare", "cast",
    "convert", "xp_cmdshell", "waitfor", "sleep"]

/-- The maximal runs of word characters: a keyword between two word boundaries is one of them. -/
def wordRuns (cs : List Char) : List (List Char) := cs.splitOnP fun c => !wordChar c

/-- The text has `pattern` somewhere. -/
def occurs (pattern cs : List Char) : Bool := cs.tails.any pattern.isPrefixOf

/-- `'\s*word\s*'` at the start of the text. -/
def quotedWord (word cs : List Char) : Bool :=
  match cs with
  | '\'' :: cs =>
      let cs := cs.dropWhile Char.isWhitespace
      word.isPrefixOf cs && ((cs.drop word.length).dropWhile Char.isWhitespace).head? = some '\''
  | _ => false

/-- `_SQLI_PATTERNS.search`; the comparison ignores case. -/
def sqliPattern (cs : List Char) : Bool :=
  let cs := cs.map Char.toLower
  (wordRuns cs).any (fun run => sqlKeywords.any fun word => word.toList = run) ||
    ["--", ";", "/*", "*/"].any (fun token => occurs token.toList cs) ||
    cs.tails.any (quotedWord "or".toList) || cs.tails.any (quotedWord "and".toList)

/-- `_validate_input`: the exception it raises, if any. -/
def validateInput (value fieldName : String) : Option ApiError :=
  if value.isEmpty then some (.valueError (fieldName ++ " must not be empty"))
  else if !safeInput value.toList then
    some (.valueError (fieldName ++ " contains invalid characters. " ++
      "Only printable ASCII characters are allowed."))
  else if sqliPattern value.toList then
    some (.valueError (fieldName ++ " contains disallowed SQL keywords or characters."))
  else none

/-! ## The operations -/

namespace WalletTable

variable (t : WalletTable)

/-- The wallet of a user. -/
def ofUser (userId : String) : Option WalletORM := t.rows.find? fun r => r.userId = userId

/-- The wallet at an address. -/
def ofAddress (publicKey : String) : Option WalletORM := t.rows.find? fun r => r.publicKey = publicKey

/-- `get_by_user_id`. -/
def getByUserId (userId : String) : Outcome (Option WalletORM) :=
  match validateInput userId "user_id" with
  | some e => .error e
  | none => .ok (t.ofUser userId)

/-- `get_by_public_key`. -/
def getByPublicKey (publicKey : String) : Outcome (Option WalletORM) :=
  match validateInput publicKey "public_key" with
  | some e => .error e
  | none => .ok (t.ofAddress publicKey)

/-- The `INSERT` of a new wallet under the column types and the two unique constraints. -/
def insert (now : ℤ) (userId publicKey : String) (funded trustlineReady : Bool) :
    WalletTable × Outcome WalletORM :=
  if 255 < userId.length then (t, .error (.dataError "user_id"))
  else if 56 < publicKey.length then (t, .error (.dataError "public_key"))
  else if (t.ofUser userId).isSome then (t, .error (.integrityError "ix_wallets_user_id"))
  else if (t.ofAddress publicKey).isSome then (t, .error (.integrityError "ix_wallets_public_key"))
  else
    let wallet : WalletORM := ⟨t.nextId, userId, publicKey, funded, true, trustlineReady, now, now, some now⟩
    (⟨t.rows ++ [wallet], t.nextId + 1⟩, .ok wallet)

/-- `create`. -/
def create (now : ℤ) (userId publicKey : String) (funded trustlineReady : Bool) :
    WalletTable × Outcome WalletORM :=
  match validateInput userId "user_id" with
  | some e => (t, .error e)
  | none =>
      match validateInput publicKey "public_key" with
      | some e => (t, .error e)
      | none => t.insert now userId publicKey funded trustlineReady

/-- The `UPDATE` of one loaded wallet. -/
def write (wallet : WalletORM) (g : WalletORM → WalletORM) : WalletTable × WalletORM :=
  ({ t with rows := updateKey WalletORM.id wallet.id g t.rows }, g wallet)

/-- `update`; a flag that is `None` is not written. -/
def update (wallet : WalletORM) (now : ℤ) (funded trustlineReady active : Option Bool) :
    WalletTable × WalletORM :=
  t.write wallet fun r =>
    { r with
      funded := funded.getD r.funded
      trustlineReady := trustlineReady.getD r.trustlineReady
      active := active.getD r.active
      lastUpdated := now
      cachedAt := some now }

/-- `touch_cache`. -/
def touchCache (wallet : WalletORM) (now : ℤ) : WalletTable × WalletORM :=
  t.write wallet fun r => { r with cachedAt := some now }

end WalletTable

/-! ## What the table keeps -/

/-- One wallet for a user and one for an address, in rows whose texts were validated. No operation of the
registry writes `active`. -/
structure WalletTable.Sound (t : WalletTable) : Prop where
  users : (t.rows.map WalletORM.userId).Nodup
  addresses : (t.rows.map WalletORM.publicKey).Nodup
  ids : (t.rows.map WalletORM.id).Nodup
  id_lt : ∀ r ∈ t.rows, r.id < t.nextId
  validUser : ∀ r ∈ t.rows, validateInput r.userId "user_id" = none
  validAddress : ∀ r ∈ t.rows, validateInput r.publicKey "public_key" = none
  active : ∀ r ∈ t.rows, r.active = true

namespace WalletTable

variable {t t' : WalletTable} {now : ℤ} {userId publicKey : String} {funded trustlineReady : Bool}
  {out : Outcome WalletORM} {wallet r : WalletORM} {g : WalletORM → WalletORM}

theorem Sound.ofUser_eq_some_iff (h : t.Sound) :
    t.ofUser userId = some r ↔ r ∈ t.rows ∧ r.userId = userId := find?_key_eq_some_iff h.users

theorem Sound.ofAddress_eq_some_iff (h : t.Sound) :
    t.ofAddress publicKey = some r ↔ r ∈ t.rows ∧ r.publicKey = publicKey :=
  find?_key_eq_some_iff h.addresses

theorem ofUser_eq_none_iff : t.ofUser userId = none ↔ userId ∉ t.rows.map WalletORM.userId := by
  simp [ofUser]

theorem ofAddress_eq_none_iff : t.ofAddress publicKey = none ↔ publicKey ∉ t.rows.map WalletORM.publicKey := by
  simp [ofAddress]

/-- A user whose text is refused has no wallet. -/
theorem Sound.ofUser_of_invalid (h : t.Sound) {e : ApiError} (he : validateInput userId "user_id" = some e) :
    t.ofUser userId = none := by
  rw [ofUser_eq_none_iff]
  intro hmem
  obtain ⟨r, hr, rfl⟩ := List.mem_map.mp hmem
  rw [h.validUser r hr] at he
  cases he

theorem Sound.ofAddress_of_invalid (h : t.Sound) {e : ApiError}
    (he : validateInput publicKey "public_key" = some e) : t.ofAddress publicKey = none := by
  rw [ofAddress_eq_none_iff]
  intro hmem
  obtain ⟨r, hr, rfl⟩ := List.mem_map.mp hmem
  rw [h.validAddress r hr] at he
  cases he

/-! ## What a new wallet changes -/

/-- The wallet is a valid one that the table has room for. -/
structure Fresh (t : WalletTable) (wallet : WalletORM) : Prop where
  user : t.ofUser wallet.userId = none
  address : t.ofAddress wallet.publicKey = none
  id : wallet.id = t.nextId
  validUser : validateInput wallet.userId "user_id" = none
  validAddress : validateInput wallet.publicKey "public_key" = none
  active : wallet.active = true

/-- The table with one more wallet. -/
def add (t : WalletTable) (wallet : WalletORM) : WalletTable := ⟨t.rows ++ [wallet], t.nextId + 1⟩

/-- A creation adds the wallet that was asked for, or fails and leaves the table alone. -/
theorem create_cases (h : t.create now userId publicKey funded trustlineReady = (t', out)) :
    (∃ e, out = .error e ∧ t' = t) ∨
      ∃ wallet, out = .ok wallet ∧ t' = t.add wallet ∧ t.Fresh wallet ∧ wallet.userId = userId ∧
        wallet.publicKey = publicKey ∧ wallet.funded = funded ∧ wallet.trustlineReady = trustlineReady := by
  unfold create at h
  split at h
  · cases h
    exact .inl ⟨_, rfl, rfl⟩
  · rename_i huser
    split at h
    · cases h
      exact .inl ⟨_, rfl, rfl⟩
    · rename_i haddress
      simp only [insert] at h
      split_ifs at h with _ _ hofUser hofAddress <;> cases h
      · exact .inl ⟨_, rfl, rfl⟩
      · exact .inl ⟨_, rfl, rfl⟩
      · exact .inl ⟨_, rfl, rfl⟩
      · exact .inl ⟨_, rfl, rfl⟩
      · rw [Option.not_isSome_iff_eq_none] at hofUser hofAddress
        exact .inr ⟨_, rfl, rfl, ⟨hofUser, hofAddress, rfl, huser, haddress, rfl⟩, rfl, rfl, rfl, rfl⟩

theorem ofUser_add (hfresh : t.Fresh wallet) (userId : String) :
    (t.add wallet).ofUser userId = if userId = wallet.userId then some wallet else t.ofUser userId := by
  have hnew := hfresh.user
  simp only [ofUser, add, List.find?_append, List.find?_singleton] at hnew ⊢
  by_cases h : userId = wallet.userId
  · rw [if_pos h, h, hnew]
    simp
  · rw [if_neg h, if_neg (by simpa using fun h' => h h'.symm), Option.or_none]

theorem ofAddress_add (hfresh : t.Fresh wallet) (publicKey : String) :
    (t.add wallet).ofAddress publicKey
      = if publicKey = wallet.publicKey then some wallet else t.ofAddress publicKey := by
  have hnew := hfresh.address
  simp only [ofAddress, add, List.find?_append, List.find?_singleton] at hnew ⊢
  by_cases h : publicKey = wallet.publicKey
  · rw [if_pos h, h, hnew]
    simp
  · rw [if_neg h, if_neg (by simpa using fun h' => h h'.symm), Option.or_none]

theorem Sound.add (h : t.Sound) (hfresh : t.Fresh wallet) : (t.add wallet).Sound := by
  have hid : wallet.id ∉ t.rows.map WalletORM.id := by
    intro hmem
    obtain ⟨r, hr, hkey⟩ := List.mem_map.mp hmem
    have hlt := h.id_lt r hr
    rw [hkey, hfresh.id] at hlt
    exact Nat.lt_irrefl _ hlt
  have hforall : ∀ {P : WalletORM → Prop}, (∀ r ∈ t.rows, P r) → P wallet → ∀ r ∈ (t.add wallet).rows, P r := by
    intro P hrows hwallet r hr
    rcases List.mem_append.mp hr with hold | hlast
    · exact hrows r hold
    · exact List.mem_singleton.mp hlast ▸ hwallet
  have hconcat : ∀ {κ : Type} {key : WalletORM → κ}, (t.rows.map key).Nodup → key wallet ∉ t.rows.map key →
      ((t.add wallet).rows.map key).Nodup := by
    intro κ key hnodup hnew
    rw [WalletTable.add, List.map_append, List.map_singleton]
    exact List.nodup_append_comm.mp (List.nodup_cons.mpr ⟨hnew, hnodup⟩)
  refine ⟨hconcat h.users (ofUser_eq_none_iff.mp hfresh.user),
    hconcat h.addresses (ofAddress_eq_none_iff.mp hfresh.address), hconcat h.ids hid, ?_,
    hforall h.validUser hfresh.validUser, hforall h.validAddress hfresh.validAddress,
    hforall h.active hfresh.active⟩
  refine hforall (fun r hr => ?_) ?_
  · exact Nat.lt_succ_of_lt (h.id_lt r hr)
  · rw [hfresh.id]
    exact Nat.lt_succ_self _

/-! ## What a write changes -/

/-- A write leaves the identity of a wallet alone. -/
structure Keeps (g : WalletORM → WalletORM) : Prop where
  id : ∀ r, (g r).id = r.id
  userId : ∀ r, (g r).userId = r.userId
  publicKey : ∀ r, (g r).publicKey = r.publicKey
  active : ∀ r, (g r).active = r.active

/-- The rows after a write, each as it was or rewritten. -/
theorem map_write {κ : Type*} {key : WalletORM → κ} (hg : ∀ r, key (g r) = key r) :
    (t.write wallet g).1.rows.map key = t.rows.map key := by
  simp only [write, updateKey, List.map_map]
  refine List.map_congr_left fun r _ => ?_
  simp only [Function.comp_apply]
  split
  · exact hg r
  · rfl

theorem find?_write {κ : Type*} [DecidableEq κ] {key : WalletORM → κ} (hg : ∀ r, key (g r) = key r) (k : κ) :
    (t.write wallet g).1.rows.find? (fun r => decide (key r = k))
      = (t.rows.find? fun r => decide (key r = k)).map fun r => if r.id = wallet.id then g r else r := by
  simp only [write, updateKey, List.find?_map]
  congr 2
  funext r
  simp only [Function.comp_apply]
  split
  · rw [hg r]
  · rfl

theorem Sound.write (h : t.Sound) (hg : Keeps g) : (t.write wallet g).1.Sound := by
  have hforall : ∀ {P : WalletORM → Prop}, (∀ r, P r → P (g r)) → (∀ r ∈ t.rows, P r) →
      ∀ r ∈ (t.write wallet g).1.rows, P r := by
    intro P hP hrows r hr
    rcases mem_updateKey hr with hold | ⟨x, hx, -, rfl⟩
    · exact hrows r hold
    · exact hP x (hrows x hx)
  refine ⟨by rw [map_write hg.userId]; exact h.users, by rw [map_write hg.publicKey]; exact h.addresses,
    by rw [map_write hg.id]; exact h.ids, ?_, ?_, ?_, ?_⟩
  · exact hforall (fun r hr => by rw [hg.id]; exact hr) h.id_lt
  · exact hforall (fun r hr => by rw [hg.userId]; exact hr) h.validUser
  · exact hforall (fun r hr => by rw [hg.publicKey]; exact hr) h.validAddress
  · exact hforall (fun r hr => by rw [hg.active]; exact hr) h.active

end WalletTable

end ApexChainx.Wallets
