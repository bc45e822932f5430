import ApexChainx.Lib.Fallible
import ApexChainx.Lib.Json
import ApexChainx.Lib.PyText

/-!
# Block payloads

`sanitize_block_payload` (`app/services/block_poller_hardening.py`). A payload is whatever the fetch
function returns: `PyValue` has the types the sanitiser tells apart, with `other` for the rest. The limits
are those of the settings. `str.isdigit` and the digit values that `int` knows are those of the Unicode
database, which is a parameter.
-/

namespace ApexChainx.Ledger

open ApexChainx.Lib

/-! ## Values -/

/-- A `float`: a finite one by its text, or `nan`, `inf` or `-inf`. -/
inductive PyFloat
  | finite (f : FloatText)
  | nonFinite (text : String)
deriving DecidableEq, Repr

/-- A Python value. -/
inductive PyValue
  | none
  | bool (b : Bool)
  | int (n : ℤ)
  | float (f : PyFloat)
  | str (s : String)
  | list (items : List PyValue)
  | tuple (items : List PyValue)
  | dict (members : List (PyValue × PyValue))
  | other (typeName : String)
deriving Repr

/-- A dictionary with text keys. -/
abbrev Members : Type := List (String × PyValue)

/-- `d.get(key)`, with `none` for a missing key. -/
def Members.get? (d : Members) (key : String) : Option PyValue :=
  (d.find? fun m => m.1 = key).map Prod.snd

/-- `d[key] = value`. -/
def Members.set (d : Members) (key : String) (value : PyValue) : Members :=
  if d.any fun m => m.1 = key then d.map fun m => if m.1 = key then (key, value) else m
  else d ++ [(key, value)]

/-- The limits of the settings. -/
structure PayloadLimits where
  maxPayloadBytes : ℕ
  maxTransactions : ℕ
  maxIdentifierLength : ℕ
  maxStringLength : ℕ
  maxCollectionItems : ℕ
  maxDepth : ℕ

/-- The digits of the Unicode database: `str.isdigit`, and the value of a decimal digit. -/
structure UnicodeDigits where
  isdigit : Char → Bool
  decimal : Char → Option ℕ

/-- Why a payload is rejected, with the field the message names. -/
inductive Invalid
  /-- "Block payload must be an object." -/
  | notObject
  /-- "Block payload must be JSON serializable." -/
  | notSerializable
  /-- "Block payload exceeds the maximum size of … bytes." -/
  | tooLarge
  /-- "… must not contain null bytes." -/
  | nullBytes (field : String)
  /-- "… exceeds the maximum length of … characters." -/
  | tooLong (field : String) (maxLength : ℕ)
  /-- "… keys must be strings." -/
  | keyNotString (field : String)
  /-- "… keys must not be empty." -/
  | emptyKey (field : String)
  /-- "… contains too many keys." -/
  | tooManyKeys (field : String)
  /-- "… contains duplicate keys after sanitization: …" -/
  | duplicateKey (field key : String)
  /-- "… contains too many items." -/
  | tooManyItems (field : String)
  /-- "… exceeds the maximum nesting depth." -/
  | tooDeep (field : String)
  /-- "… must be a finite number." -/
  | notFinite (field : String)
  /-- "… contains an unsupported value of type …" -/
  | unsupported (field typeName : String)
  /-- "Block payload must include a sequence or ledger number." -/
  | noSequence
  /-- "Block sequence must be an integer." -/
  | sequenceNotInteger
  /-- "Block sequence must be a non-negative integer." -/
  | sequenceNotDigits
  /-- "Block sequence must be between 0 and …" -/
  | sequenceOutOfRange
  /-- "… must be a string." -/
  | identifierNotString (field : String)
  /-- "… contains invalid characters." -/
  | identifierInvalid (field : String)
  /-- "Block transactions must be a list." -/
  | transactionsNotList
  /-- "Block contains more than … transactions." -/
  | tooManyTransactions
  /-- "transactions[…] must be an object." -/
  | transactionNotObject (index : ℕ)
deriving DecidableEq, Repr

/-- What the sanitiser raises: `BlockPollerValidationError`, or the `ValueError` of `int`. -/
inductive SanitizeError
  | validation (reason : Invalid)
  | valueError (detail : String)
deriving DecidableEq, Repr

/-! ## Size -/

/-- The longest decimal text that `int` converts from or to. -/
def maxStrDigits : ℕ := 4300

/-- The text of a number; `none` for a `ValueError`. -/
def dumpsInt (n : ℤ) : Option (List Char) :=
  if n.natAbs.repr.length ≤ maxStrDigits then some n.repr.toList else none

def dumpsFloat : PyFloat → List Char
  | .finite f => f.chars
  | .nonFinite text => text.toList

/-- How a key is written; `none` for a `TypeError`. -/
def dumpsKey : PyValue → Option (List Char)
  | .str s => some (quote s)
  | .none => some (quote "null")
  | .bool true => some (quote "true")
  | .bool false => some (quote "false")
  | .int n => (dumpsInt n).map fun cs => '"' :: (cs ++ ['"'])
  | .float f => some ('"' :: (dumpsFloat f ++ ['"']))
  | _ => none

mutual

/-- `json.dumps` with compact separators and `ensure_ascii=False`; `none` for an exception. -/
def dumps : PyValue → Option (List Char)
  | .none => some ['n', 'u', 'l', 'l']
  | .bool true => some ['t', 'r', 'u', 'e']
  | .bool false => some ['f', 'a', 'l', 's', 'e']
  | .int n => dumpsInt n
  | .float f => some (dumpsFloat f)
  | .str s => some (quote s)
  | .list items => (dumpsItems items).map fun texts => '[' :: ([','].intercalate texts ++ [']'])
  | .tuple items => (dumpsItems items).map fun texts => '[' :: ([','].intercalate texts ++ [']'])
  | .dict members =>
      (dumpsMembers members).map fun texts => '\x7b' :: ([','].intercalate texts ++ ['\x7d'])
  | .other _ => none

def dumpsItems : List PyValue → Option (List (List Char))
  | [] => some []
  | v :: vs => do
      let text ← dumps v
      let texts ← dumpsItems vs
      return text :: texts

def dumpsMembers : List (PyValue × PyValue) → Option (List (List Char))
  | [] => some []
  | (k, v) :: ms => do
      let key ← dumpsKey k
      let text ← dumps v
      let texts ← dumpsMembers ms
      return (key ++ ':' :: text) :: texts

end

/-- The number of bytes of a text in UTF-8. -/
def utf8Length (cs : List Char) : ℕ := (cs.map Char.utf8Size).sum

/-- `_validate_payload_size`. -/
def validatePayloadSize (limits : PayloadLimits) (payload : PyValue) : Except SanitizeError Unit :=
  match dumps payload with
  | none => .error (.validation .notSerializable)
  | some encoded =>
      if utf8Length encoded > limits.maxPayloadBytes then .error (.validation .tooLarge) else .ok ()

/-! ## Texts and collections -/

/-- The characters `_CONTROL_CHARS_RE` removes. -/
def isControl (c : Char) : Bool :=
  c.toNat ≤ 8 || c.toNat = 11 || c.toNat = 12 || (14 ≤ c.toNat && c.toNat ≤ 31) || c.toNat = 127

/-- `str.strip`. -/
def strip (s : String) : String := String.ofList (Lib.strip s.toList)

theorem strip_of_plain {s : String} (h : ∀ c ∈ s.toList, isSpace c = false) : strip s = s := by
  rw [strip, strip_eq_self h, String.ofList_toList]

/-- `_clean_text`. -/
def cleanText (value field : String) (maxLength : ℕ) : Except SanitizeError String :=
  if value.toList.contains '\x00' then .error (.validation (.nullBytes field))
  else
    let cleaned := String.ofList (value.toList.filter fun c => !isControl c)
    if cleaned.length > maxLength then .error (.validation (.tooLong field maxLength)) else .ok cleaned

/-- `_sanitize_key`. -/
def sanitizeKey (limits : PayloadLimits) (field : String) : PyValue → Except SanitizeError String
  | .str key => do
      let cleaned ← cleanText key (field ++ " key") limits.maxIdentifierLength
      if strip cleaned = "" then .error (.validation (.emptyKey field)) else .ok cleaned
  | _ => .error (.validation (.keyNotString field))

/-- The check of the nesting depth, before the rest of `_sanitize_value`. -/
def withinDepth (limits : PayloadLimits) (depth : ℕ) (field : String)
    (rest : Except SanitizeError PyValue) : Except SanitizeError PyValue :=
  if depth > limits.maxDepth then .error (.validation (.tooDeep field)) else rest

mutual

/-- `_sanitize_value`, with `_sanitize_sequence_value` and `_sanitize_mapping`. -/
def sanitizeValue (limits : PayloadLimits) (depth : ℕ) (field : String) :
    PyValue → Except SanitizeError PyValue
  | .none => withinDepth limits depth field (.ok .none)
  | .bool b => withinDepth limits depth field (.ok (.bool b))
  | .int n => withinDepth limits depth field (.ok (.int n))
  | .float (.finite f) => withinDepth limits depth field (.ok (.float (.finite f)))
  | .float (.nonFinite _) => withinDepth limits depth field (.error (.validation (.notFinite field)))
  | .str s => withinDepth limits depth field ((cleanText s field limits.maxStringLength).map .str)
  | .list items =>
      withinDepth limits depth field <|
        if items.length > limits.maxCollectionItems then .error (.validation (.tooManyItems field))
        else (sanitizeItems limits (depth + 1) field 0 items).map .list
  | .tuple items =>
      withinDepth limits depth field <|
        if items.length > limits.maxCollectionItems then .error (.validation (.tooManyItems field))
        else (sanitizeItems limits (depth + 1) field 0 items).map .list
  | .dict members =>
      withinDepth limits depth field <|
        if members.length > limits.maxCollectionItems then .error (.validation (.tooManyKeys field))
        else
          (sanitizeMembers limits (depth + 1) field [] members).map fun ms =>
            .dict (ms.map fun m => (.str m.1, m.2))
  | .other typeName =>
      withinDepth limits depth field (.error (.validation (.unsupported field typeName)))

def sanitizeItems (limits : PayloadLimits) (depth : ℕ) (field : String) (index : ℕ) :
    List PyValue → Except SanitizeError (List PyValue)
  | [] => .ok []
  | v :: vs => do
      let value ← sanitizeValue limits depth (field ++ "[" ++ toString index ++ "]") v
      let values ← sanitizeItems limits depth field (index + 1) vs
      return value :: values

/-- The loop of `_sanitize_mapping`, with the members already sanitised. -/
def sanitizeMembers (limits : PayloadLimits) (depth : ℕ) (field : String) (sanitized : Members) :
    List (PyValue × PyValue) → Except SanitizeError Members
  | [] => .ok sanitized
  | (k, v) :: ms => do
      let key ← sanitizeKey limits field k
      if sanitized.any fun m => m.1 = key then .error (.validation (.duplicateKey field key))
      else
        let value ← sanitizeValue limits depth (field ++ "." ++ key) v
        sanitizeMembers limits depth field (sanitized ++ [(key, value)]) ms

end

/-! ## The sequence -/

/-- `_SEQUENCE_FIELDS`. -/
def sequenceFields : List String := ["sequence", "ledger", "ledger_sequence"]

/-- `_MAX_SEQUENCE`. -/
def maxSequence : ℕ := 2 ^ 63 - 1

/-- `int` of a text of digits. -/
def intOfDigits (unicode : UnicodeDigits) (cs : List Char) : Except SanitizeError ℕ :=
  if cs.length > maxStrDigits then .error (.valueError "Exceeds the limit for integer string conversion")
  else
    match cs.mapM unicode.decimal with
    | none => .error (.valueError "invalid literal for int() with base 10")
    | some digits => .ok (digits.foldl (fun n d => 10 * n + d) 0)

/-- `_extract_sequence`. -/
def extractSequence (unicode : UnicodeDigits) (block : Members) : Except SanitizeError ℕ := do
  let sequence : ℤ ←
    match (sequenceFields.filterMap block.get?).head? with
    | none | some .none => .error (.validation .noSequence)
    | some (.str raw) =>
        let candidate := (strip raw).toList
        if candidate.isEmpty || !candidate.all unicode.isdigit then
          .error (.validation .sequenceNotDigits)
        else (intOfDigits unicode candidate).map Int.ofNat
    | some (.int n) => .ok n
    | some _ => .error (.validation .sequenceNotInteger)
  if 0 ≤ sequence ∧ sequence ≤ maxSequence then .ok sequence.toNat
  else .error (.validation .sequenceOutOfRange)

/-! ## Identifiers and transactions -/

/-- `_IDENTIFIER_FIELDS`. -/
def identifierFields : List String := ["hash", "id", "tx_hash", "transaction_hash", "paging_token"]

def isAsciiAlphanumeric (c : Char) : Bool :=
  ('A' ≤ c && c ≤ 'Z') || ('a' ≤ c && c ≤ 'z') || ('0' ≤ c && c ≤ '9')

/-- `_IDENTIFIER_RE.fullmatch`. -/
def matchesIdentifier : List Char → Bool
  | [] => false
  | c :: cs => isAsciiAlphanumeric c && cs.all fun d => isAsciiAlphanumeric d || "._:+/=-".toList.contains d

/-- `_sanitize_identifier`. -/
def sanitizeIdentifier (limits : PayloadLimits) (field : String) :
    PyValue → Except SanitizeError PyValue
  | .str value => do
      let cleaned := strip (← cleanText value field limits.maxIdentifierLength)
      if matchesIdentifier cleaned.toList then .ok (.str cleaned)
      else .error (.validation (.identifierInvalid field))
  | _ => .error (.validation (.identifierNotString field))

/-- `_sanitize_identifiers`, for the fields that are left. -/
def sanitizeIdentifiers (limits : PayloadLimits) (namePrefix : String) :
    List String → Members → Except SanitizeError Members
  | [], record => .ok record
  | key :: keys, record =>
      match record.get? key with
      | none => sanitizeIdentifiers limits namePrefix keys record
      | some value => do
          let cleaned ← sanitizeIdentifier limits (namePrefix ++ "." ++ key) value
          sanitizeIdentifiers limits namePrefix keys (record.set key cleaned)

/-- The members of a sanitised dictionary, whose keys are texts. -/
def PyValue.textMembers : PyValue → Members
  | .dict members =>
      members.filterMap fun
        | (.str k, v) => some (k, v)
        | _ => Option.none
  | _ => []

/-- The loop of `_sanitize_transactions`. -/
def sanitizeTransactionList (limits : PayloadLimits) :
    ℕ → List PyValue → Except SanitizeError (List PyValue)
  | _, [] => .ok []
  | index, .dict members :: rest => do
      let transaction ← sanitizeIdentifiers limits ("transactions[" ++ toString index ++ "]")
        identifierFields (PyValue.textMembers (.dict members))
      let transactions ← sanitizeTransactionList limits (index + 1) rest
      return .dict (transaction.map fun m => (.str m.1, m.2)) :: transactions
  | index, _ :: _ => .error (.validation (.transactionNotObject index))

/-- `_sanitize_transactions`. -/
def sanitizeTransactions (limits : PayloadLimits) (block : Members) : Except SanitizeError Members :=
  match block.get? "transactions" with
  | none | some .none => .ok block
  | some (.list transactions) => do
      if transactions.length > limits.maxTransactions then .error (.validation .tooManyTransactions)
      else
        let sanitized ← sanitizeTransactionList limits 0 transactions
        return block.set "transactions" (.list sanitized)
  | some _ => .error (.validation .transactionsNotList)

/-- A sanitised block, with the number under `sequence`. -/
structure SanitizedBlock where
  members : Members
  sequence : ℕ

/-- `sanitize_block_payload`. -/
def sanitizeBlockPayload (limits : PayloadLimits) (unicode : UnicodeDigits) :
    PyValue → Except SanitizeError SanitizedBlock
  | .dict payload => do
      validatePayloadSize limits (.dict payload)
      let value ← sanitizeValue limits 0 "block" (.dict payload)
      let block := value.textMembers
      let sequence ← extractSequence unicode block
      let block := block.set "sequence" (.int sequence)
      let block ← sanitizeIdentifiers limits "block" identifierFields block
      let block ← sanitizeTransactions limits block
      return ⟨block, sequence⟩
  | _ => .error (.validation .notObject)

/-! ## The number a block carries -/

theorem Members.get?_set_self (d : Members) (key : String) (value : PyValue) :
    (d.set key value).get? key = some value := by
  unfold Members.set Members.get?
  split
  · rename_i hany
    induction d with
    | nil => simp at hany
    | cons m d ih =>
        by_cases hm : m.1 = key
        · simp [hm]
        · have hrest : (d.any fun m => m.1 = key) = true := by simpa [hm] using hany
          simpa [List.find?_cons, hm] using ih hrest
  · rename_i hany
    have hnone : d.find? (fun m => m.1 = key) = none := by
      rw [List.find?_eq_none]
      intro m hm
      have := List.any_eq_false.mp (Bool.eq_false_iff.mpr hany) m hm
      exact this
    simp [List.find?_append, hnone]

theorem Members.get?_set_ne {d : Members} {key other : String} (h : other ≠ key) (value : PyValue) :
    (d.set key value).get? other = d.get? other := by
  have hne : key ≠ other := h.symm
  unfold Members.set Members.get?
  split
  · rename_i hany
    clear hany
    induction d with
    | nil => rfl
    | cons m d ih =>
        by_cases hm : m.1 = key
        · simpa [List.find?_cons, hm, hne] using ih
        · by_cases ho : m.1 = other
          · simp [ho, h]
          · simpa [List.find?_cons, hm, ho] using ih
  · simp [List.find?_append, hne]

end ApexChainx.Ledger
