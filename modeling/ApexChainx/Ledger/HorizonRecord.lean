import ApexChainx.Core.Error
import ApexChainx.Core.IsoFormat
import ApexChainx.Ledger.Sanitize
import ApexChainx.Lib.Rounding

/-!
# Horizon payment records

`parse_horizon_record` (`app/services/tx_indexer.py`) with `_to_stroops` and `_parse_created_at`, and
`IndexedTransaction`. A record is a JSON object whose members Horizon sends as strings or leaves out.
Amounts go through `decimal.Decimal`: the product with the number of stroops is rounded to the 28 digits
of the default context, which has no exponents above 999999, and then cut to an integer.
-/

namespace ApexChainx.Ledger

open ApexChainx.Lib

/-- A record of the `/payments` stream, the members that the indexer reads. -/
structure HorizonRecord where
  pagingToken : String
  transactionHash : Option String
  type : Option String
  amount : Option String
  assetCode : Option String
  sender : Option String
  receiver : Option String
  createdAt : Option String
deriving DecidableEq, Repr

/-- What of a payment the ledger of record keeps apart from its times. -/
structure PaymentData where
  transactionHash : String
  type : String
  amount : ℕ
  assetCode : String
  fromAddress : String
  toAddress : String
deriving DecidableEq, Repr

/-- `IndexedTransaction`. -/
structure IndexedTransaction extends PaymentData where
  createdAt : IsoTime
deriving DecidableEq, Repr

/-- `IndexedTransaction.id`: the prefix and the first 24 characters of the hash. -/
def PaymentData.id (tx : PaymentData) : String :=
  "txidx_" ++ String.ofList (tx.transactionHash.toList.take 24)

/-- Why a record is not parsed: a `TxIndexerError`, or the exception of a product that is too large. -/
inductive RecordError
  | missingHash
  | invalidAmount (raw : String)
  | invalidCreatedAt (raw : String)
  /-- `decimal.Overflow`, which is not a `TxIndexerError`. -/
  | decimalOverflow
deriving DecidableEq, Repr

/-- `value or default` for a member that is a string. -/
def memberOr (value : Option String) (default : String) : String :=
  match value with
  | some text => if text = "" then default else text
  | none => default

/-- A `decimal.Decimal`: a finite one is its sign, coefficient and exponent. -/
inductive Decimal
  | finite (negative : Bool) (coefficient : ℕ) (exponent : ℤ)
  | special
deriving DecidableEq, Repr

/-- The value of a list of digits. -/
def digitsValue (cs : List Char) : ℕ := cs.foldl (fun n c => n * 10 + (c.toNat - '0'.toNat)) 0

/-- The exponent of a decimal text; the empty text stands for zero. -/
def readExponent : List Char → Option ℤ
  | [] => some 0
  | c :: cs =>
      if c = 'e' ∨ c = 'E' then
        let (negative, digits) := match cs with
          | '-' :: rest => (true, rest)
          | '+' :: rest => (false, rest)
          | rest => (false, rest)
        if digits ≠ [] ∧ digits.all Char.isDigit then
          some (if negative then -(digitsValue digits : ℤ) else digitsValue digits)
        else none
      else none

/-- The special values, in lower case. -/
def isSpecial (cs : List Char) : Bool :=
  let cs := cs.map Char.toLower
  cs = "inf".toList || cs = "infinity".toList ||
    ("nan".toList.isPrefixOf cs && (cs.drop 3).all Char.isDigit) ||
    ("snan".toList.isPrefixOf cs && (cs.drop 4).all Char.isDigit)

/-- The text of a number without its sign. -/
def readUnsigned (negative : Bool) (cs : List Char) : Option Decimal :=
  let whole := cs.takeWhile Char.isDigit
  let rest := cs.dropWhile Char.isDigit
  let (fraction, rest) := match rest with
    | '.' :: rest => (rest.takeWhile Char.isDigit, rest.dropWhile Char.isDigit)
    | rest => ([], rest)
  if whole ++ fraction = [] then (if isSpecial cs then some .special else none)
  else (readExponent rest).map fun exponent =>
    .finite negative (digitsValue (whole ++ fraction)) (exponent - fraction.length)

/-- A decimal digit as the ASCII digit of its value. -/
def asciiDigit (c : Char) : Char :=
  match decimalZeros.find? fun start => start ≤ c.toNat ∧ c.toNat < start + 10 with
  | some start => Char.ofNat ('0'.toNat + (c.toNat - start))
  | none => c

/-- Whether `MIN_ETINY` and `MAX_EMAX` of the module leave room for a number. -/
def Decimal.inLimits : Decimal → Bool
  | .finite _ coefficient exponent =>
      -1999999999999999997 ≤ exponent && exponent + Nat.log 10 coefficient ≤ 999999999999999999
  | .special => true

/-- `Decimal(text)`; `none` when it raises `InvalidOperation`. Surrounding blanks and underscores are
left out. -/
def parseDecimal (text : String) : Option Decimal :=
  let parsed := match ((strip text).toList.filter (· ≠ '_')).map asciiDigit with
    | '-' :: cs => readUnsigned true cs
    | '+' :: cs => readUnsigned false cs
    | cs => readUnsigned false cs
  parsed.filter Decimal.inLimits

/-- The context's rounding of a coefficient to 28 digits: the coefficient kept and the digits cut off. -/
def roundToContext (coefficient : ℕ) : ℕ × ℕ :=
  let cut := Nat.log 10 coefficient + 1 - 28
  (roundHalfEven coefficient (10 ^ cut), cut)

/-- The product with `STROOPS_PER_UNIT` in the default context; `none` when it raises `Overflow`. Digits
below the least exponent of the context are not cut off here, `int` drops them. -/
def timesStroops (coefficient : ℕ) (exponent : ℤ) : Option (ℕ × ℤ) :=
  let (rounded, cut) := roundToContext (coefficient * 10 ^ 7)
  if rounded ≠ 0 ∧ 999999 < exponent + cut + Nat.log 10 rounded then none
  else some (rounded, exponent + cut)

/-- `int` of a coefficient and an exponent. -/
def truncate (coefficient : ℕ) (exponent : ℤ) : ℕ :=
  if 0 ≤ exponent then coefficient * 10 ^ exponent.toNat else coefficient / 10 ^ (-exponent).toNat

/-- `_to_stroops`. -/
def toStroops (raw : String) : Except RecordError ℕ :=
  match parseDecimal raw with
  | some (.finite negative coefficient exponent) =>
      if negative ∧ coefficient ≠ 0 then .error (.invalidAmount raw)
      else
        match timesStroops coefficient exponent with
        | none => .error .decimalOverflow
        | some (rounded, exponent) => .ok (truncate rounded exponent)
  | _ => .error (.invalidAmount raw)

/-- `str.replace("Z", "+00:00")`. -/
def replaceZulu (text : String) : String :=
  String.ofList (text.toList.flatMap fun c => if c = 'Z' then "+00:00".toList else [c])

/-- `_parse_created_at`, at the time `now`. -/
def parseCreatedAt (now : IsoTime) (raw : Option String) : Except RecordError IsoTime :=
  match raw with
  | none => .ok now
  | some raw =>
      if raw = "" then .ok now
      else
        match fromisoformat (replaceZulu raw) with
        | none => .error (.invalidCreatedAt raw)
        | some parsed => .ok { parsed with utcoffset := some (parsed.utcoffset.getD 0) }

/-- `parse_horizon_record`. -/
def parseHorizonRecord (now : IsoTime) (record : HorizonRecord) :
    Except RecordError IndexedTransaction := do
  let transactionHash := strip (memberOr record.transactionHash "")
  if transactionHash = "" then .error .missingHash
  else do
    let amount ← toStroops (record.amount.getD "0")
    let createdAt ← parseCreatedAt now record.createdAt
    .ok { transactionHash := transactionHash
          type := memberOr record.type "payment"
          amount := amount
          assetCode := memberOr record.assetCode "XLM"
          fromAddress := memberOr record.sender ""
          toAddress := memberOr record.receiver ""
          createdAt := createdAt }

/-- Where the values of a parsed record come from. -/
theorem parseHorizonRecord_eq_ok {now : IsoTime} {record : HorizonRecord} {tx : IndexedTransaction}
    (h : parseHorizonRecord now record = .ok tx) :
    tx.transactionHash = strip (memberOr record.transactionHash "") ∧ tx.type = memberOr record.type "payment" ∧
      toStroops (record.amount.getD "0") = .ok tx.amount ∧ tx.assetCode = memberOr record.assetCode "XLM" ∧
      tx.fromAddress = memberOr record.sender "" ∧ tx.toAddress = memberOr record.receiver "" ∧
      parseCreatedAt now record.createdAt = .ok tx.createdAt := by
  unfold parseHorizonRecord at h
  simp only at h
  split_ifs at h with hhash
  obtain ⟨amount, hamount, h⟩ := bind_eq_ok.mp h
  obtain ⟨createdAt, hcreated, h⟩ := bind_eq_ok.mp h
  obtain rfl := Except.ok.inj h
  exact ⟨rfl, rfl, hamount, rfl, rfl, rfl, hcreated⟩

end ApexChainx.Ledger
