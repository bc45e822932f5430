import ApexChainx.Ledger.HorizonRecord
import ApexChainx.Ledger.TxMemo
import ApexChainx.Lib.Like

/-!
# The filters of the indexer's search

`app/services/tx_indexer_query.py`, with `normalize` of `app/utils/wallet_address.py`. Each validator takes what
a caller gave, brings a text into the form that the reader expects and checks it against a pattern.

A text that is in that form already goes through unchanged, and only such a text does
(`validatePattern_self_iff`, `validateAccount_self`).

`escape_like` is for a search inside texts: between two `%` of a `LIKE` pattern, what it returns matches the
texts that contain what it was given (`escapeLike_contains`).
-/

namespace ApexChainx.Ledger.IndexQuery

open ApexChainx.Lib

/-- What a caller can give in place of `None`. -/
inductive Argument
  | str (text : String)
  | int (n : ℤ)
  | bool (b : Bool)
  | datetime (t : IsoTime)
  | other
deriving DecidableEq, Repr

/-- The exceptions of the validators. -/
inductive QueryError
  /-- `TxIndexerQueryError`. -/
  | query (message : String)
  /-- The comparison of a naive with an aware `datetime`. -/
  | typeError
deriving DecidableEq, Repr

/-! ## Texts -/

/-- `_text`. -/
def text (field : String) (maxLength : ℕ) : Argument → Except QueryError String
  | .str raw =>
      let value := strip raw
      if value = "" then .error (.query (field ++ " must not be empty"))
      else if maxLength < value.toList.length then
        .error (.query (field ++ " must be at most " ++ toString maxLength ++ " characters"))
      else .ok value
  | _ => .error (.query (field ++ " must be a string"))

/-- A validator of a text: it is stripped, normalized and matched. -/
def validatePattern (field : String) (maxLength : ℕ) (normalize : String → String) (pattern : String → Bool)
    (message : String) : Option Argument → Except QueryError (Option String)
  | none => .ok none
  | some raw =>
      match text field maxLength raw with
      | .error e => .error e
      | .ok value => if pattern (normalize value) then .ok (some (normalize value)) else .error (.query message)

/-- `TRANSACTION_HASH_PATTERN`. -/
def transactionHashPattern (value : String) : Bool := value.toList.length = 64 && value.toList.all hexLower

/-- `[A-Z0-9]`. -/
def assetCodeChar (c : Char) : Bool := c.isUpper || c.isDigit

/-- `ASSET_CODE_PATTERN`. -/
def assetCodePattern (value : String) : Bool :=
  1 ≤ value.toList.length && value.toList.length ≤ 12 && value.toList.all assetCodeChar

/-- `[a-z0-9_]`. -/
def tokenChar (c : Char) : Bool := c.isLower || c.isDigit || c = '_'

/-- `TRANSACTION_TYPE_PATTERN`. -/
def transactionTypePattern (value : String) : Bool :=
  match value.toList with
  | [] => false
  | c :: cs => c.isLower && cs.length ≤ 31 && cs.all tokenChar

/-- `OUTAGE_ID_PATTERN`. -/
def outageIdPattern (value : String) : Bool :=
  1 ≤ value.toList.length && value.toList.length ≤ 64 && value.toList.all aggChar

section Validators

variable (cases : CaseMapping)

/-- `validate_transaction_hash`. -/
def validateTransactionHash : Option Argument → Except QueryError (Option String) :=
  validatePattern "transaction_hash" 64 cases.lower transactionHashPattern
    "transaction_hash must be a 64-character hex string"

/-- `validate_asset_code`. -/
def validateAssetCode : Option Argument → Except QueryError (Option String) :=
  validatePattern "asset_code" 12 cases.upper assetCodePattern "asset_code must be 1-12 alphanumeric characters"

/-- `validate_status`; `VALID_STATUSES` are the values of `PaymentStatus`. -/
def validateStatus : Option Argument → Except QueryError (Option String) :=
  validatePattern "status" 16 cases.lower (fun value => value ∈ ["confirmed", "failed", "pending"])
    "status must be one of: confirmed, failed, pending"

/-- `validate_transaction_type`. -/
def validateTransactionType : Option Argument → Except QueryError (Option String) :=
  validatePattern "type" 32 cases.lower transactionTypePattern
    "type must be lowercase letters, digits or underscores"

/-- `validate_outage_id`. -/
def validateOutageId : Option Argument → Except QueryError (Option String) :=
  validatePattern "outage_id" 64 id outageIdPattern "outage_id contains unsupported characters"

/-- `[A-Z2-7]`. -/
def keyChar (c : Char) : Bool := c.isUpper || ('2' ≤ c && c ≤ '7')

/-- `_STELLAR_PUBLIC_KEY_RE`. -/
def publicKeyPattern (value : String) : Bool :=
  match value.toList with
  | [] => false
  | c :: cs => c = 'G' && cs.length = 55 && cs.all keyChar

/-- `normalize` (`app/utils/wallet_address.py`); the error is the reason of the `WalletAddressError`. -/
def normalizeWallet (raw : String) : Except String String :=
  let stripped := strip raw
  if stripped = "" then .error "address must not be empty"
  else
    let upper := cases.upper stripped
    if upper.toList.length ≠ 56 then
      .error ("Stellar public keys must be exactly 56 characters (got " ++ toString upper.toList.length ++ ")")
    else if upper.toList.head? ≠ some 'G' then .error "Stellar public keys must start with 'G'"
    else if publicKeyPattern upper then .ok upper
    else
      .error ("Stellar public keys may only contain uppercase letters A-Z and digits 2-7 " ++
        "(base-32 alphabet, no 0/1/8/9)")

/-- `validate_account`. -/
def validateAccount (field : String) : Option Argument → Except QueryError (Option String)
  | none => .ok none
  | some raw =>
      match text field 56 raw with
      | .error e => .error e
      | .ok value =>
          match normalizeWallet cases value with
          | .error reason => .error (.query (field ++ " is not a valid Stellar account: " ++ reason))
          | .ok value => .ok (some value)

end Validators

/-! ## Numbers, times, order and limit -/

/-- `int(text)`; `none` is its `ValueError`. Single underscores between digits are left out, and there are at
most 4300 digits. -/
def readInt (raw : String) : Option ℤ :=
  let (negative, digits) := match (strip raw).toList.map asciiDigit with
    | '-' :: cs => (true, cs)
    | '+' :: cs => (false, cs)
    | cs => (false, cs)
  let groups := digits.splitOn '_'
  if (groups.all fun group => group ≠ [] && group.all Char.isDigit) && groups.flatten.length ≤ 4300 then
    some (if negative then -(digitsValue groups.flatten : ℤ) else digitsValue groups.flatten)
  else none

/-- The number that an amount stands for. -/
def readAmount : Argument → Option ℤ
  | .int n => some n
  | .str raw => readInt raw
  | _ => none

/-- `validate_amount`. -/
def validateAmount (field : String) : Option Argument → Except QueryError (Option ℤ)
  | none => .ok none
  | some raw =>
      match readAmount raw with
      | none => .error (.query (field ++ " must be an integer number of stroops"))
      | some value =>
          if -2 ^ 63 ≤ value ∧ value ≤ 2 ^ 63 - 1 then .ok (some value)
          else .error (.query (field ++ " is outside the supported amount range"))

/-- `validate_amount_range`. -/
def validateAmountRange (minAmount maxAmount : Option Argument) : Except QueryError (Option ℤ × Option ℤ) := do
  let low ← validateAmount "min_amount" minAmount
  let high ← validateAmount "max_amount" maxAmount
  if low.any fun low => high.any fun high => high < low then
    .error (.query "min_amount must not be greater than max_amount")
  else .ok (low, high)

/-- `validate_timestamp`. -/
def validateTimestamp (field : String) : Option Argument → Except QueryError (Option IsoTime)
  | none => .ok none
  | some (.datetime t) => .ok (some t)
  | some _ => .error (.query (field ++ " must be an ISO-8601 timestamp"))

/-- `validate_timestamp_range`. -/
def validateTimestampRange (createdAfter createdBefore : Option Argument) :
    Except QueryError (Option IsoTime × Option IsoTime) := do
  let start ← validateTimestamp "created_after" createdAfter
  let stop ← validateTimestamp "created_before" createdBefore
  if start.any fun start => stop.any fun stop => start.utcoffset.isSome ≠ stop.utcoffset.isSome then
    .error .typeError
  else if start.any fun start => stop.any fun stop => stop.ticks < start.ticks then
    .error (.query "created_after must not be later than created_before")
  else .ok (start, stop)

/-- `VALID_SORT_FIELDS`. -/
inductive SortField
  | amount
  | confirmedAt
  | createdAt
  | status
deriving DecidableEq, Repr

/-- The names of the sort fields. -/
def sortField : String → Option SortField
  | "amount" => some .amount
  | "confirmed_at" => some .confirmedAt
  | "created_at" => some .createdAt
  | "status" => some .status
  | _ => none

/-- `VALID_SORT_DIRECTIONS`: whether the order is ascending. -/
def sortDirection : String → Option Bool
  | "asc" => some true
  | "desc" => some false
  | _ => none

/-- `validate_sort`. -/
def validateSort (cases : CaseMapping) (sortBy sortDir : Option Argument) : Except QueryError (SortField × Bool) := do
  let field ← match sortBy with
    | none => .ok "created_at"
    | some raw => (text "sort_by" 32 raw).map cases.lower
  let direction ← match sortDir with
    | none => .ok "desc"
    | some raw => (text "sort_dir" 4 raw).map cases.lower
  match sortField field with
  | none => .error (.query "sort_by must be one of: amount, confirmed_at, created_at, status")
  | some field =>
      match sortDirection direction with
      | none => .error (.query "sort_dir must be one of: asc, desc")
      | some ascending => .ok (field, ascending)

/-- `validate_limit`. -/
def validateLimit : Option Argument → Except QueryError ℕ
  | none => .ok 50
  | some (.int n) =>
      if 1 ≤ n ∧ n ≤ 200 then .ok n.toNat else .error (.query "limit must be between 1 and 200")
  | some _ => .error (.query "limit must be an integer")

/-- `str.replace` of one character. -/
def replaceChar (old : Char) (new text : String) : String :=
  String.ofList (text.toList.flatMap fun c => if c = old then new.toList else [c])

/-- `escape_like`. -/
def escapeLike (value : String) : String :=
  replaceChar '_' "\\_" (replaceChar '%' "\\%" (replaceChar '\\' "\\\\" value))

example : escapeLike "100%_off\\" = "100\\%\\_off\\\\" := by decide

/-! ## What is accepted -/

theorem text_eq_ok {field value : String} {maxLength : ℕ} {raw : Argument} (h : text field maxLength raw = .ok value) :
    ∃ s, raw = .str s ∧ value = strip s := by
  unfold text at h
  cases raw with
  | str s =>
      simp only at h
      split_ifs at h
      exact ⟨s, rfl, (Except.ok.inj h).symm⟩
  | int n => cases h
  | bool b => cases h
  | datetime t => cases h
  | other => cases h

theorem validatePattern_some {field message : String} {maxLength : ℕ} {normalize : String → String}
    {pattern : String → Bool} {raw : Argument} {value : Option String}
    (h : validatePattern field maxLength normalize pattern message (some raw) = .ok value) :
    ∃ s, raw = .str s ∧ value = some (normalize (strip s)) := by
  unfold validatePattern at h
  rcases htext : text field maxLength raw with e | stripped
  · simp only [htext] at h
    cases h
  · simp only [htext] at h
    split_ifs at h
    obtain ⟨s, hraw, rfl⟩ := text_eq_ok htext
    exact ⟨s, hraw, (Except.ok.inj h).symm⟩

theorem validateAccount_some {cases : CaseMapping} {field : String} {raw : Argument} {value : Option String}
    (h : validateAccount cases field (some raw) = .ok value) :
    ∃ s v, raw = .str s ∧ normalizeWallet cases (strip s) = .ok v ∧ value = some v := by
  unfold validateAccount at h
  rcases htext : text field 56 raw with e | stripped
  · simp only [htext] at h
    cases h
  · obtain ⟨s, hraw, rfl⟩ := text_eq_ok htext
    rcases hnormalize : normalizeWallet cases (strip s) with reason | v
    · simp only [htext, hnormalize] at h
      cases h
    · simp only [htext, hnormalize] at h
      exact ⟨s, v, hraw, hnormalize, (Except.ok.inj h).symm⟩

theorem validateAmount_some {field : String} {raw : Argument} {value : Option ℤ}
    (h : validateAmount field (some raw) = .ok value) : ∃ n, readAmount raw = some n ∧ value = some n := by
  unfold validateAmount at h
  rcases hread : readAmount raw with _ | n
  · simp only [hread] at h
    cases h
  · simp only [hread] at h
    split_ifs at h
    exact ⟨n, rfl, (Except.ok.inj h).symm⟩

theorem validateAmountRange_eq_ok {minAmount maxAmount : Option Argument} {range : Option ℤ × Option ℤ}
    (h : validateAmountRange minAmount maxAmount = .ok range) :
    validateAmount "min_amount" minAmount = .ok range.1 ∧ validateAmount "max_amount" maxAmount = .ok range.2 := by
  obtain ⟨low, hlow, h⟩ := bind_eq_ok.mp h
  obtain ⟨high, hhigh, h⟩ := bind_eq_ok.mp h
  split_ifs at h
  obtain rfl := Except.ok.inj h
  exact ⟨hlow, hhigh⟩

theorem validateTimestamp_some {field : String} {raw : Argument} {value : Option IsoTime}
    (h : validateTimestamp field (some raw) = .ok value) : ∃ t, raw = .datetime t ∧ value = some t := by
  cases raw with
  | datetime t => exact ⟨t, rfl, (Except.ok.inj h).symm⟩
  | str s => cases h
  | int n => cases h
  | bool b => cases h
  | other => cases h

theorem validateTimestampRange_eq_ok {createdAfter createdBefore : Option Argument}
    {range : Option IsoTime × Option IsoTime} (h : validateTimestampRange createdAfter createdBefore = .ok range) :
    validateTimestamp "created_after" createdAfter = .ok range.1 ∧
      validateTimestamp "created_before" createdBefore = .ok range.2 := by
  obtain ⟨start, hstart, h⟩ := bind_eq_ok.mp h
  obtain ⟨stop, hstop, h⟩ := bind_eq_ok.mp h
  split_ifs at h
  obtain rfl := Except.ok.inj h
  exact ⟨hstart, hstop⟩

/-! ## Texts that go through unchanged -/

theorem toNat_of_isDigit {c : Char} (h : c.isDigit = true) : 48 ≤ c.toNat ∧ c.toNat ≤ 57 := by
  simpa [Char.isDigit, UInt32.le_iff_toNat_le, ← Char.toNat_val] using h

theorem isUpper_of_isDigit {c : Char} (h : c.isDigit = true) : c.isUpper = false := by
  have hdigit := toNat_of_isDigit h
  rw [Bool.eq_false_iff]
  intro hupper
  have hrange := toNat_of_isUpper hupper
  omega

theorem isLower_of_isDigit {c : Char} (h : c.isDigit = true) : c.isLower = false := by
  have hdigit := toNat_of_isDigit h
  rw [Bool.eq_false_iff]
  intro hlower
  have hrange := toNat_of_isLower hlower
  omega

theorem isUpper_of_isLower {c : Char} (h : c.isLower = true) : c.isUpper = false := by
  have hlower := toNat_of_isLower h
  rw [Bool.eq_false_iff]
  intro hupper
  have hrange := toNat_of_isUpper hupper
  omega

theorem toUpper_of_toNat {c : Char} (h : c.toNat < 97) : c.toUpper = c := by
  unfold Char.toUpper
  rw [dif_neg]
  rw [← Char.toNat_val] at h
  simp only [UInt32.le_iff_toNat_le]
  have hlower : 'a'.val.toNat = 97 := rfl
  omega

theorem toLower_of_toNat {c : Char} (h : c.toNat < 65 ∨ 90 < c.toNat) : c.toLower = c := by
  unfold Char.toLower
  rw [dif_neg]
  rw [← Char.toNat_val] at h
  simp only [ge_iff_le, UInt32.le_iff_toNat_le]
  have hupper : 'A'.val.toNat = 65 ∧ 'Z'.val.toNat = 90 := ⟨rfl, rfl⟩
  omega

section Validators

variable {cases : CaseMapping}

theorem text_of_plain {field value : String} {maxLength : ℕ} (hplain : ∀ c ∈ value.toList, isSpace c = false)
    (hpos : 1 ≤ value.toList.length) (hlength : value.toList.length ≤ maxLength) :
    text field maxLength (.str value) = .ok value := by
  have hne : value ≠ "" := by
    rintro rfl
    exact absurd hpos (by decide)
  simp only [text, strip_of_plain hplain]
  rw [if_neg hne, if_neg (Nat.not_lt.mpr hlength)]

/-- A pattern of texts that are neither stripped nor cut nor normalized. -/
structure CanonicalPattern (maxLength : ℕ) (normalize : String → String) (pattern : String → Bool) : Prop where
  length : ∀ value, pattern value = true → 1 ≤ value.toList.length ∧ value.toList.length ≤ maxLength
  plain : ∀ value, pattern value = true → ∀ c ∈ value.toList, isSpace c = false
  fixed : ∀ value, pattern value = true → normalize value = value

/-- A text comes out as it went in exactly when it has the pattern. -/
theorem validatePattern_self_iff {field message value : String} {maxLength : ℕ} {normalize : String → String}
    {pattern : String → Bool} (h : CanonicalPattern maxLength normalize pattern) :
    validatePattern field maxLength normalize pattern message (some (.str value)) = .ok (some value) ↔
      pattern value = true := by
  unfold validatePattern
  constructor
  · intro hself
    rcases htext : text field maxLength (.str value) with e | stripped
    · simp only [htext] at hself
      cases hself
    · simp only [htext] at hself
      split_ifs at hself with hpattern
      rwa [Option.some.inj (Except.ok.inj hself)] at hpattern
  · intro hpattern
    obtain ⟨hpos, hlength⟩ := h.length value hpattern
    simp only [text_of_plain (h.plain value hpattern) hpos hlength, h.fixed value hpattern]
    rw [if_pos hpattern]

/-- Such a text is a filter of its own, if it is given. -/
theorem validatePattern_own {field message value : String} {maxLength : ℕ} {normalize : String → String}
    {pattern : String → Bool} (h : CanonicalPattern maxLength normalize pattern) (hvalue : pattern value = true)
    (given : Bool) :
    validatePattern field maxLength normalize pattern message (if given then some (.str value) else none) =
      .ok (if given then some value else none) := by
  cases given with
  | false => rfl
  | true => exact (validatePattern_self_iff h).mpr hvalue

theorem hexLower_cases {c : Char} (h : hexLower c = true) : c.isDigit = true ∨ c.isLower = true := by
  have hall : "0123456789abcdef".toList.all (fun c => c.isDigit || c.isLower) = true := by decide
  exact Bool.or_eq_true_iff.mp (List.all_eq_true.mp hall c (of_decide_eq_true h))

theorem hexLower_range {c : Char} (h : hexLower c = true) : 48 ≤ c.toNat ∧ c.toNat ≤ 122 := by
  rcases hexLower_cases h with hdigit | hlower
  · have hrange := toNat_of_isDigit hdigit
    omega
  · have hrange := toNat_of_isLower hlower
    omega

theorem assetCodeChar_range {c : Char} (h : assetCodeChar c = true) : 48 ≤ c.toNat ∧ c.toNat ≤ 90 := by
  rcases Bool.or_eq_true_iff.mp h with hupper | hdigit
  · have hrange := toNat_of_isUpper hupper
    omega
  · have hrange := toNat_of_isDigit hdigit
    omega

theorem tokenChar_range {c : Char} (h : tokenChar c = true) :
    48 ≤ c.toNat ∧ c.toNat ≤ 122 ∧ (c.toNat < 65 ∨ 90 < c.toNat) := by
  unfold tokenChar at h
  simp only [Bool.or_eq_true, decide_eq_true_eq] at h
  rcases h with (hlower | hdigit) | rfl
  · have hrange := toNat_of_isLower hlower
    omega
  · have hrange := toNat_of_isDigit hdigit
    omega
  · decide

theorem keyChar_range {c : Char} (h : keyChar c = true) : 48 ≤ c.toNat ∧ c.toNat ≤ 90 := by
  unfold keyChar at h
  simp only [Bool.or_eq_true, Bool.and_eq_true, decide_eq_true_eq] at h
  rcases h with hupper | ⟨hlo, hhi⟩
  · have hrange := toNat_of_isUpper hupper
    omega
  · rw [Char.le_def, UInt32.le_iff_toNat_le] at hlo hhi
    have htwo : '2'.val.toNat = 50 ∧ '7'.val.toNat = 55 := ⟨rfl, rfl⟩
    rw [← Char.toNat_val]
    omega

theorem transactionHash_canonical : CanonicalPattern 64 cases.lower transactionHashPattern := by
  have hsplit : ∀ value, transactionHashPattern value = true →
      value.toList.length = 64 ∧ ∀ c ∈ value.toList, hexLower c = true := by
    intro value h
    unfold transactionHashPattern at h
    rw [Bool.and_eq_true, decide_eq_true_eq, List.all_eq_true] at h
    exact h
  refine ⟨fun value h => ?_, fun value h c hc => ?_, fun value h => lower_of_fixed fun c hc => ?_⟩
  · have hlength := (hsplit value h).1
    omega
  · have hrange := hexLower_range ((hsplit value h).2 c hc)
    exact isSpace_of_toNat (by omega) hrange.2
  · obtain ⟨hascii, hfixed, -⟩ := hexLower_ascii ((hsplit value h).2 c hc)
    exact ⟨hascii, hfixed⟩

theorem assetCode_canonical : CanonicalPattern 12 cases.upper assetCodePattern := by
  have hsplit : ∀ value, assetCodePattern value = true →
      (1 ≤ value.toList.length ∧ value.toList.length ≤ 12) ∧ ∀ c ∈ value.toList, assetCodeChar c = true := by
    intro value h
    unfold assetCodePattern at h
    rw [Bool.and_eq_true, Bool.and_eq_true, decide_eq_true_eq, decide_eq_true_eq, List.all_eq_true] at h
    exact h
  refine ⟨fun value h => (hsplit value h).1, fun value h c hc => ?_, fun value h => upper_of_fixed fun c hc => ?_⟩
  · have hrange := assetCodeChar_range ((hsplit value h).2 c hc)
    exact isSpace_of_toNat (by omega) (by omega)
  · have hrange := assetCodeChar_range ((hsplit value h).2 c hc)
    exact ⟨by omega, toUpper_of_toNat (by omega)⟩

theorem transactionType_canonical : CanonicalPattern 32 cases.lower transactionTypePattern := by
  have hsplit : ∀ value, transactionTypePattern value = true →
      (1 ≤ value.toList.length ∧ value.toList.length ≤ 32) ∧ ∀ c ∈ value.toList, tokenChar c = true := by
    intro value h
    unfold transactionTypePattern at h
    rcases hcs : value.toList with _ | ⟨c, cs⟩
    · rw [hcs] at h
      cases h
    · rw [hcs] at h
      simp only [Bool.and_eq_true, decide_eq_true_eq, List.all_eq_true] at h
      obtain ⟨⟨hlower, hlength⟩, hall⟩ := h
      rw [List.length_cons]
      refine ⟨by omega, fun d hd => ?_⟩
      rcases List.mem_cons.mp hd with rfl | hd
      · unfold tokenChar
        rw [hlower]
        rfl
      · exact hall d hd
  refine ⟨fun value h => (hsplit value h).1, fun value h c hc => ?_, fun value h => lower_of_fixed fun c hc => ?_⟩
  · have hrange := tokenChar_range ((hsplit value h).2 c hc)
    exact isSpace_of_toNat (by omega) hrange.2.1
  · have hrange := tokenChar_range ((hsplit value h).2 c hc)
    exact ⟨by omega, toLower_of_toNat hrange.2.2⟩

theorem publicKeyPattern_iff {value : String} : publicKeyPattern value = true ↔
    value.toList.length = 56 ∧ value.toList.head? = some 'G' ∧ ∀ c ∈ value.toList, keyChar c = true := by
  unfold publicKeyPattern
  rcases hcs : value.toList with _ | ⟨c, cs⟩
  · simp
  · simp only [Bool.and_eq_true, decide_eq_true_eq, List.all_eq_true, List.length_cons, List.head?_cons,
      Option.some.injEq, List.forall_mem_cons]
    constructor
    · rintro ⟨⟨rfl, hlength⟩, hall⟩
      exact ⟨by omega, rfl, by decide, hall⟩
    · rintro ⟨hlength, rfl, -, hall⟩
      exact ⟨⟨rfl, by omega⟩, hall⟩

theorem isSpace_of_publicKey {value : String} (h : publicKeyPattern value = true) :
    ∀ c ∈ value.toList, isSpace c = false := by
  intro c hc
  have hrange := keyChar_range ((publicKeyPattern_iff.mp h).2.2 c hc)
  exact isSpace_of_toNat (by omega) (by omega)

/-- What `normalize` returns is the upper case of the stripped text, when this is a key. -/
theorem normalizeWallet_eq_ok_iff {raw value : String} : normalizeWallet cases raw = .ok value ↔
    publicKeyPattern (cases.upper (strip raw)) = true ∧ value = cases.upper (strip raw) := by
  have hempty : strip raw = "" → publicKeyPattern (cases.upper (strip raw)) ≠ true := by
    intro hstrip h
    rw [hstrip, cases.upper_ascii "" rfl] at h
    cases h
  by_cases hkey : publicKeyPattern (cases.upper (strip raw)) = true
  · obtain ⟨hlength, hhead, -⟩ := publicKeyPattern_iff.mp hkey
    simp only [normalizeWallet]
    rw [if_neg fun hstrip => hempty hstrip hkey, if_neg (not_not.mpr hlength), if_neg (not_not.mpr hhead),
      if_pos hkey, Except.ok.injEq, eq_comm]
    exact (and_iff_right hkey).symm
  · refine ⟨fun h => ?_, fun h => absurd h.1 hkey⟩
    simp only [normalizeWallet, if_neg hkey] at h
    split at h
    · cases h
    split at h
    · cases h
    split at h <;> cases h

theorem upper_of_publicKey {value : String} (h : publicKeyPattern value = true) : cases.upper value = value :=
  upper_of_fixed fun c hc => by
    have hrange := keyChar_range ((publicKeyPattern_iff.mp h).2.2 c hc)
    exact ⟨by omega, toUpper_of_toNat (by omega)⟩

/-- A public key is normalized already. -/
theorem normalizeWallet_self {value : String} (h : publicKeyPattern value = true) :
    normalizeWallet cases value = .ok value := by
  rw [normalizeWallet_eq_ok_iff, strip_of_plain (isSpace_of_publicKey h), upper_of_publicKey h]
  exact ⟨h, rfl⟩

/-- A public key comes out as it went in. -/
theorem validateAccount_self {field value : String} (h : publicKeyPattern value = true) :
    validateAccount cases field (some (.str value)) = .ok (some value) := by
  have hlength := (publicKeyPattern_iff.mp h).1
  unfold validateAccount
  simp only [text_of_plain (isSpace_of_publicKey h) (show 1 ≤ value.toList.length by omega) hlength.le,
    normalizeWallet_self h]

end Validators

/-! ## Escaped texts -/

theorem toList_replaceChar (old : Char) (new text : String) :
    (replaceChar old new text).toList = text.toList.flatMap fun c => if c = old then new.toList else [c] :=
  String.toList_ofList

/-- What the three replacements make of one character. Only the first one meets a backslash: the backslashes
that they put in themselves come after it. -/
theorem replaceChar_char (c : Char) :
    (((if c = '\\' then "\\\\".toList else [c]).flatMap fun c => if c = '%' then "\\%".toList else [c]).flatMap
      fun c => if c = '_' then "\\_".toList else [c]) = if isMeta c then ['\\', c] else [c] := by
  by_cases hslash : c = '\\'
  · rw [hslash]
    rfl
  by_cases hpercent : c = '%'
  · rw [hpercent]
    rfl
  by_cases hunderscore : c = '_'
  · rw [hunderscore]
    rfl
  simp [isMeta, hslash, hpercent, hunderscore]

theorem toList_escapeLike (value : String) : (escapeLike value).toList = likeEscape value.toList := by
  unfold escapeLike likeEscape
  rw [toList_replaceChar, toList_replaceChar, toList_replaceChar, List.flatMap_assoc, List.flatMap_assoc]
  refine List.flatMap_congr fun c _ => ?_
  rw [← List.flatMap_assoc]
  exact replaceChar_char c

/-- `t LIKE '%' || escape_like(v) || '%'` holds exactly of the texts that contain `v`. -/
theorem escapeLike_contains (v t : String) :
    like ("%" ++ escapeLike v ++ "%").toList t.toList = true ↔ v.toList <:+: t.toList := by
  rw [String.toList_append, String.toList_append, toList_escapeLike]
  exact (standsFor_likeEscape v.toList).contains

end ApexChainx.Ledger.IndexQuery
