import Mathlib.Data.List.TakeWhile
import Mathlib.Data.String.Basic
import Mathlib.Tactic.SplitIfs

/-!
# Memos of settlement transactions

`app/services/tx_memo.py`: a memo `<op>:<agg>:v<hash>` of at most 28 bytes, decoded by a regular expression and
by the validators of its fields, built by the validators alone.

`memo_codec_iff`: a text that is accepted is encoded again exactly when it does not end with a line feed, and a
memo that is built is read back exactly when its aggregation key has the characters of the expression.
-/

namespace ApexChainx.Ledger

/-! ## The validators -/

/-- `str.upper` and `str.lower`; what they do to a text that is not ASCII is left open. -/
structure CaseMapping where
  upper : String → String
  lower : String → String
  upper_ascii : ∀ s, s.toList.all (·.toNat < 128) = true → upper s = String.ofList (s.toList.map Char.toUpper)
  lower_ascii : ∀ s, s.toList.all (·.toNat < 128) = true → lower s = String.ofList (s.toList.map Char.toLower)

/-- `hashlib.sha256(text.encode("utf-8")).hexdigest()`. -/
structure HexSha where
  hexdigest : String → String
  hexdigest_length : ∀ text, (hexdigest text).toList.length = 64
  hexdigest_hex : ∀ text, ∀ c ∈ (hexdigest text).toList, c ∈ "0123456789abcdef".toList

/-- `VALID_OP_CODES`. -/
def validOpCodes : List String := ["SLP", "SLR", "DSP", "DSR", "RCA", "CFG"]

/-- `MEMO_MAX_BYTES`. -/
def memoMaxBytes : ℕ := 28

/-- `[a-f0-9]`. -/
def hexLower (c : Char) : Bool := c ∈ "0123456789abcdef".toList

/-- `[A-Za-z0-9_-]`. -/
def aggChar (c : Char) : Bool := c.isAlphanum || c = '_' || c = '-'

/-- An error of a `ValidationError`. -/
structure FieldError where
  field : String
  message : String
deriving DecidableEq, Repr

/-- A `ValueError`, or the `ValidationError` that is one. -/
inductive MemoError
  | valueError (detail : String)
  | validationError (errors : List FieldError)
deriving DecidableEq, Repr

/-- A `TxMemo` that has been validated. -/
@[ext] structure TxMemo where
  op : String
  agg : String
  contentHash : String
  op_valid : op ∈ validOpCodes
  agg_length : 1 ≤ agg.toList.length ∧ agg.toList.length ≤ 16
  hash_length : contentHash.toList.length = 8
  hash_hex : contentHash.toList.all hexLower = true
deriving DecidableEq

/-- `min_length` and `max_length`, which count characters. -/
def lengthErrors (field : String) (lo hi : ℕ) (v : String) : List FieldError :=
  if v.toList.length < lo then
    [⟨field, "String should have at least " ++ toString lo ++ (if lo = 1 then " character" else " characters")⟩]
  else if hi < v.toList.length then [⟨field, "String should have at most " ++ toString hi ++ " characters"⟩]
  else []

section Memo

variable (cases : CaseMapping)

/-- `op_must_be_whitelisted`, behind the bounds of the field. -/
def opErrors (v : String) : List FieldError :=
  match lengthErrors "op" 2 3 v with
  | [] =>
      if cases.upper v ∈ validOpCodes then []
      else
        [⟨"op", "Value error, Unknown operation code '" ++ v ++
          "'. Must be one of: ['CFG', 'DSP', 'DSR', 'RCA', 'SLP', 'SLR']"⟩]
  | errors => errors

/-- `hash_must_be_hex`, behind the bounds of the field. -/
def hashErrors (v : String) : List FieldError :=
  match lengthErrors "content_hash" 8 8 v with
  | [] =>
      if (cases.lower v).toList.length = 8 ∧ (cases.lower v).toList.all hexLower then []
      else [⟨"content_hash", "Value error, content_hash must be exactly 8 lowercase hex characters"⟩]
  | errors => errors

theorem lengthErrors_eq_nil {field : String} {lo hi : ℕ} {v : String} :
    lengthErrors field lo hi v = [] ↔ lo ≤ v.toList.length ∧ v.toList.length ≤ hi := by
  unfold lengthErrors
  split_ifs <;> simp <;> omega

theorem opErrors_eq_nil {v : String} : opErrors cases v = [] ↔
    (2 ≤ v.toList.length ∧ v.toList.length ≤ 3) ∧ cases.upper v ∈ validOpCodes := by
  have hbounds : 2 ≤ v.toList.length ∧ v.toList.length ≤ 3 ↔ lengthErrors "op" 2 3 v = [] := lengthErrors_eq_nil.symm
  rw [hbounds]
  unfold opErrors
  cases lengthErrors "op" 2 3 v <;> simp

theorem hashErrors_eq_nil {v : String} : hashErrors cases v = [] ↔ v.toList.length = 8 ∧
    (cases.lower v).toList.length = 8 ∧ (cases.lower v).toList.all hexLower = true := by
  have hlength : v.toList.length = 8 ↔ lengthErrors "content_hash" 8 8 v = [] := by
    rw [lengthErrors_eq_nil]
    omega
  rw [hlength]
  unfold hashErrors
  cases lengthErrors "content_hash" 8 8 v <;> simp

/-- `TxMemo(op=op, agg=agg, content_hash=content_hash)`. -/
def TxMemo.validate (op agg contentHash : String) : Except MemoError TxMemo :=
  let errors := opErrors cases op ++ lengthErrors "agg" 1 16 agg ++ hashErrors cases contentHash
  if h : errors = [] then
    .ok
      { op := cases.upper op
        agg := agg
        contentHash := cases.lower contentHash
        op_valid := ((opErrors_eq_nil cases).mp (List.append_eq_nil_iff.mp (List.append_eq_nil_iff.mp h).1).1).2
        agg_length := lengthErrors_eq_nil.mp (List.append_eq_nil_iff.mp (List.append_eq_nil_iff.mp h).1).2
        hash_length := ((hashErrors_eq_nil cases).mp (List.append_eq_nil_iff.mp h).2).2.1
        hash_hex := ((hashErrors_eq_nil cases).mp (List.append_eq_nil_iff.mp h).2).2.2 }
  else .error (.validationError errors)

/-- `TxMemo.encode`. -/
def TxMemo.encode (m : TxMemo) : String := m.op ++ ":" ++ m.agg ++ ":v" ++ m.contentHash

/-- `TxMemo.byte_length`. -/
def TxMemo.byteLength (m : TxMemo) : ℕ := m.encode.utf8ByteSize

/-! ## Decoding and building -/

/-- `MEMO_PATTERN.match(raw).groups()`. The `$` of the pattern also matches before a line feed at the end. -/
def matchMemo (raw : List Char) : Option (List Char × List Char × List Char) :=
  let op := raw.takeWhile Char.isAlpha
  if 2 ≤ op.length ∧ op.length ≤ 3 then
    match raw.dropWhile Char.isAlpha with
    | ':' :: rest =>
        let agg := rest.takeWhile aggChar
        if 1 ≤ agg.length ∧ agg.length ≤ 16 then
          match rest.dropWhile aggChar with
          | ':' :: 'v' :: tail =>
              if (tail.take 8).length = 8 ∧ (tail.take 8).all hexLower ∧
                  (tail.drop 8 = [] ∨ tail.drop 8 = ['\n']) then
                some (op, agg, tail.take 8)
              else none
          | _ => none
        else none
    | _ => none
  else none

/-- `TxMemo.parse`. -/
def TxMemo.parse (raw : String) : Except MemoError TxMemo :=
  if memoMaxBytes < raw.utf8ByteSize then
    .error (.valueError ("Memo exceeds 28 bytes (got " ++ toString raw.utf8ByteSize ++ ")"))
  else
    match matchMemo raw.toList with
    | none =>
        .error (.valueError ("Invalid memo format '" ++ raw ++
          "'. Expected: <OP>:<agg>:v<hash8> (e.g. SLP:OUT001:va3f2c1b9)"))
    | some (op, agg, contentHash) =>
        TxMemo.validate cases (String.ofList op) (String.ofList agg) (String.ofList contentHash)

/-- `TxMemo.build`. -/
def TxMemo.build (sha : HexSha) (op agg payload algorithm : String) : Except MemoError TxMemo :=
  if algorithm ≠ "sha256" then .error (.valueError ("Unsupported hash algorithm: " ++ algorithm))
  else
    match TxMemo.validate cases op (String.ofList (agg.toList.take 16))
        (String.ofList ((sha.hexdigest payload).toList.take 8)) with
    | .error e => .error e
    | .ok memo =>
        if memoMaxBytes < memo.byteLength then
          .error (.valueError ("Encoded memo '" ++ memo.encode ++ "' is " ++ toString memo.byteLength ++
            " bytes, exceeds 28 byte limit"))
        else .ok memo

/-- `TxMemo.is_suspicious`. -/
def TxMemo.isSuspicious (raw : String) : Bool :=
  match TxMemo.parse cases raw with
  | .ok _ => false
  | .error _ => true

end Memo

/-! ## The language of the expression -/

/-- A text that the expression matches, with what its groups capture. -/
structure MemoText (raw op agg hash : List Char) : Prop where
  op_alpha : ∀ c ∈ op, c.isAlpha = true
  op_length : 2 ≤ op.length ∧ op.length ≤ 3
  agg_chars : ∀ c ∈ agg, aggChar c = true
  agg_length : 1 ≤ agg.length ∧ agg.length ≤ 16
  hash_hex : hash.all hexLower = true
  hash_length : hash.length = 8
  eq : raw = op ++ ':' :: (agg ++ ':' :: 'v' :: hash) ∨ raw = op ++ ':' :: (agg ++ ':' :: 'v' :: (hash ++ ['\n']))

/-- A run of characters of a class, up to the first one that is not. -/
theorem span_append {p : Char → Bool} {xs : List Char} {stop : Char} (rest : List Char)
    (hxs : ∀ c ∈ xs, p c = true) (hstop : p stop = false) :
    (xs ++ stop :: rest).takeWhile p = xs ∧ (xs ++ stop :: rest).dropWhile p = stop :: rest := by
  induction xs with
  | nil => simp [hstop]
  | cons x xs ih =>
      obtain ⟨htake, hdrop⟩ := ih fun c hc => hxs c (List.mem_cons_of_mem x hc)
      have hx := hxs x List.mem_cons_self
      rw [List.cons_append, List.takeWhile_cons_of_pos hx, List.dropWhile_cons_of_pos hx, htake, hdrop]
      exact ⟨rfl, rfl⟩

theorem mem_takeWhile {p : Char → Bool} {xs : List Char} {c : Char} (h : c ∈ xs.takeWhile p) : p c = true :=
  List.mem_takeWhile_imp h

theorem matchMemo_iff {raw op agg hash : List Char} :
    matchMemo raw = some (op, agg, hash) ↔ MemoText raw op agg hash := by
  constructor
  · intro h
    unfold matchMemo at h
    simp only at h
    split_ifs at h with hop
    split at h
    · rename_i rest hrest
      split_ifs at h with hagg
      split at h
      · rename_i tail htail
        split_ifs at h with hhash
        simp only [Option.some.injEq, Prod.mk.injEq] at h
        obtain ⟨rfl, rfl, rfl⟩ := h
        have hraw : raw = raw.takeWhile Char.isAlpha ++ ':' :: (rest.takeWhile aggChar ++ ':' :: 'v' ::
            (tail.take 8 ++ tail.drop 8)) := by
          rw [List.take_append_drop, ← htail, List.takeWhile_append_dropWhile, ← hrest,
            List.takeWhile_append_dropWhile]
        refine ⟨fun c hc => mem_takeWhile hc, hop, fun c hc => mem_takeWhile hc, hagg, hhash.2.1, hhash.1, ?_⟩
        rcases hhash.2.2 with hend | hend
        · rw [hend, List.append_nil] at hraw
          exact .inl hraw
        · rw [hend] at hraw
          exact .inr hraw
      · cases h
    · cases h
  · rintro ⟨hop, hopLength, hagg, haggLength, hhash, hhashLength, heq⟩
    obtain ⟨tail, hraw, htail⟩ : ∃ tail, raw = op ++ ':' :: (agg ++ ':' :: 'v' :: (hash ++ tail)) ∧
        (tail = [] ∨ tail = ['\n']) := by
      rcases heq with rfl | rfl
      · exact ⟨[], by rw [List.append_nil], .inl rfl⟩
      · exact ⟨['\n'], rfl, .inr rfl⟩
    obtain ⟨htakeOp, hdropOp⟩ := span_append (agg ++ ':' :: 'v' :: (hash ++ tail)) hop
      (show Char.isAlpha ':' = false by decide)
    obtain ⟨htakeAgg, hdropAgg⟩ := span_append ('v' :: (hash ++ tail)) hagg
      (show aggChar ':' = false by decide)
    have htake : (hash ++ tail).take 8 = hash := by
      rw [← hhashLength, List.take_left]
    have hdrop : (hash ++ tail).drop 8 = tail := by
      rw [← hhashLength, List.drop_left]
    unfold matchMemo
    simp only [hraw, htakeOp, hdropOp, htakeAgg, hdropAgg, htake, hdrop, hhash, hhashLength, htail,
      if_pos hopLength, if_pos haggLength, and_self, if_true]

/-! ## Texts of ASCII -/

theorem utf8Len_of_ascii {cs : List Char} (h : ∀ c ∈ cs, c.toNat < 128) : String.utf8Len cs = cs.length := by
  induction cs with
  | nil => rfl
  | cons c cs ih =>
      have hc : c.utf8Size = 1 := by
        have hlt := h c List.mem_cons_self
        unfold Char.utf8Size
        rw [if_pos]
        rw [UInt32.le_iff_toNat_le]
        exact Nat.le_of_lt_succ hlt
      rw [String.utf8Len_cons, hc, ih fun d hd => h d (List.mem_cons_of_mem c hd), List.length_cons]

theorem toNat_of_isUpper {c : Char} (h : c.isUpper = true) : 65 ≤ c.toNat ∧ c.toNat ≤ 90 := by
  have hrange : 'A'.val ≤ c.val ∧ c.val ≤ 'Z'.val := of_decide_eq_true h
  rw [UInt32.le_iff_toNat_le, UInt32.le_iff_toNat_le] at hrange
  exact hrange

theorem toNat_of_isLower {c : Char} (h : c.isLower = true) : 97 ≤ c.toNat ∧ c.toNat ≤ 122 := by
  obtain ⟨hlo, hhi⟩ := Bool.and_eq_true_iff.mp h
  exact ⟨UInt32.le_iff_toNat_le.mp (of_decide_eq_true hlo), UInt32.le_iff_toNat_le.mp (of_decide_eq_true hhi)⟩

theorem toNat_lt_of_isAlpha {c : Char} (h : c.isAlpha = true) : c.toNat < 128 := by
  have hcases : c.isUpper = true ∨ c.isLower = true := Bool.or_eq_true_iff.mp h
  rcases hcases with hupper | hlower
  · have hrange := toNat_of_isUpper hupper
    omega
  · have hrange := toNat_of_isLower hlower
    omega

theorem hexLower_ascii {c : Char} (h : hexLower c = true) : c.toNat < 128 ∧ c.toLower = c ∧ c ≠ '\n' := by
  have hall : "0123456789abcdef".toList.all (fun c => c.toNat < 128 && c.toLower = c && c ≠ '\n') = true := by
    decide
  have hc := List.all_eq_true.mp hall c (of_decide_eq_true h)
  rw [Bool.and_eq_true, Bool.and_eq_true, decide_eq_true_eq, decide_eq_true_eq, decide_eq_true_eq] at hc
  exact ⟨hc.1.1, hc.1.2, hc.2⟩

theorem length_of_valid {op : String} (h : op ∈ validOpCodes) : op.toList.length = 3 := by
  have hall : ∀ op ∈ validOpCodes, op.toList.length = 3 := by decide
  exact hall op h

/-- The codes are written in capital letters. -/
theorem capital_of_valid {op : String} (h : op ∈ validOpCodes) :
    ∀ c ∈ op.toList, c.isAlpha = true ∧ c.toUpper = c := by
  have hall : ∀ op ∈ validOpCodes, op.toList.all (fun c => c.isAlpha && c.toUpper = c) = true := by decide
  intro c hc
  have hcapital := List.all_eq_true.mp (hall op h) c hc
  rwa [Bool.and_eq_true, decide_eq_true_eq] at hcapital

section Memo

variable {cases : CaseMapping}

theorem upper_of_fixed {value : String} (h : ∀ c ∈ value.toList, c.toNat < 128 ∧ c.toUpper = c) :
    cases.upper value = value := by
  have hascii : value.toList.all (·.toNat < 128) = true :=
    List.all_eq_true.mpr fun c hc => decide_eq_true (h c hc).1
  have hmap : value.toList.map Char.toUpper = value.toList :=
    (List.map_congr_left fun c hc => (h c hc).2).trans (List.map_id _)
  rw [cases.upper_ascii value hascii, hmap, String.ofList_toList]

theorem lower_of_fixed {value : String} (h : ∀ c ∈ value.toList, c.toNat < 128 ∧ c.toLower = c) :
    cases.lower value = value := by
  have hascii : value.toList.all (·.toNat < 128) = true :=
    List.all_eq_true.mpr fun c hc => decide_eq_true (h c hc).1
  have hmap : value.toList.map Char.toLower = value.toList :=
    (List.map_congr_left fun c hc => (h c hc).2).trans (List.map_id _)
  rw [cases.lower_ascii value hascii, hmap, String.ofList_toList]

theorem lower_of_hex {text : String} (h : text.toList.all hexLower = true) : cases.lower text = text := by
  refine lower_of_fixed fun c hc => ?_
  obtain ⟨hascii, hlower, -⟩ := hexLower_ascii (List.all_eq_true.mp h c hc)
  exact ⟨hascii, hlower⟩

theorem upper_of_valid {op : String} (h : op ∈ validOpCodes) : cases.upper op = op := by
  refine upper_of_fixed fun c hc => ?_
  obtain ⟨halpha, hupper⟩ := capital_of_valid h c hc
  exact ⟨toNat_lt_of_isAlpha halpha, hupper⟩

theorem upper_of_alpha {op : List Char} (h : ∀ c ∈ op, c.isAlpha = true) :
    cases.upper (String.ofList op) = String.ofList (op.map Char.toUpper) := by
  have hascii : (String.ofList op).toList.all (·.toNat < 128) = true := by
    rw [String.toList_ofList, List.all_eq_true]
    exact fun c hc => decide_eq_true (toNat_lt_of_isAlpha (h c hc))
  rw [cases.upper_ascii _ hascii, String.toList_ofList]

/-! ## What is accepted -/

theorem validate_eq_ok_iff {op agg contentHash : String} {m : TxMemo} :
    TxMemo.validate cases op agg contentHash = .ok m ↔
      ((2 ≤ op.toList.length ∧ op.toList.length ≤ 3) ∧ (1 ≤ agg.toList.length ∧ agg.toList.length ≤ 16) ∧
        contentHash.toList.length = 8) ∧
      m.op = cases.upper op ∧ m.agg = agg ∧ m.contentHash = cases.lower contentHash := by
  constructor
  · intro h
    simp only [TxMemo.validate] at h
    split_ifs at h with herrors
    obtain rfl := Except.ok.inj h
    obtain ⟨hfront, hhash⟩ := List.append_eq_nil_iff.mp herrors
    obtain ⟨hop, hagg⟩ := List.append_eq_nil_iff.mp hfront
    exact ⟨⟨((opErrors_eq_nil cases).mp hop).1, lengthErrors_eq_nil.mp hagg, ((hashErrors_eq_nil cases).mp hhash).1⟩,
      rfl, rfl, rfl⟩
  · rintro ⟨⟨hop, hagg, hlength⟩, hmop, hmagg, hmhash⟩
    have hopErrors : opErrors cases op = [] := (opErrors_eq_nil cases).mpr ⟨hop, hmop ▸ m.op_valid⟩
    have haggErrors : lengthErrors "agg" 1 16 agg = [] := lengthErrors_eq_nil.mpr hagg
    have hhashErrors : hashErrors cases contentHash = [] :=
      (hashErrors_eq_nil cases).mpr ⟨hlength, hmhash ▸ m.hash_length, hmhash ▸ m.hash_hex⟩
    simp only [TxMemo.validate]
    rw [dif_pos (by rw [hopErrors, haggErrors, hhashErrors]; rfl), Except.ok.injEq]
    exact TxMemo.ext hmop.symm hmagg.symm hmhash.symm

/-- An accepted text, and the memo that it is read as. -/
theorem parse_eq_ok_iff {raw : String} {m : TxMemo} : TxMemo.parse cases raw = .ok m ↔
    raw.utf8ByteSize ≤ memoMaxBytes ∧ ∃ op, MemoText raw.toList op m.agg.toList m.contentHash.toList ∧
      m.op = String.ofList (op.map Char.toUpper) := by
  unfold TxMemo.parse
  constructor
  · intro h
    split_ifs at h with hlong
    split at h
    · cases h
    · rename_i op agg hash hmatch
      have htext := matchMemo_iff.mp hmatch
      obtain ⟨-, hop, hagg, hhash⟩ := validate_eq_ok_iff.mp h
      rw [upper_of_alpha htext.op_alpha] at hop
      rw [lower_of_hex (by rw [String.toList_ofList]; exact htext.hash_hex)] at hhash
      refine ⟨Nat.not_lt.mp hlong, op, ?_, hop⟩
      rw [hagg, hhash, String.toList_ofList, String.toList_ofList]
      exact htext
  · rintro ⟨hshort, op, htext, hop⟩
    rw [if_neg (Nat.not_lt.mpr hshort), matchMemo_iff.mpr htext]
    simp only [String.ofList_toList]
    refine validate_eq_ok_iff.mpr ⟨⟨?_, m.agg_length, m.hash_length⟩, ?_, rfl, ?_⟩
    · rw [String.toList_ofList]
      exact htext.op_length
    · rw [hop, upper_of_alpha htext.op_alpha]
    · exact (lower_of_hex m.hash_hex).symm

/-! ## Encoding again -/

/-- The text with its operation code, the part before the first colon, upper-cased. -/
def upperOp (cases : CaseMapping) (raw : String) : String :=
  cases.upper (String.ofList (raw.toList.takeWhile (· ≠ ':'))) ++ String.ofList (raw.toList.dropWhile (· ≠ ':'))

theorem TxMemo.toList_encode (m : TxMemo) :
    m.encode.toList = m.op.toList ++ ':' :: (m.agg.toList ++ ':' :: 'v' :: m.contentHash.toList) := by
  rw [TxMemo.encode]
  simp only [String.toList_append, List.append_assoc]
  rfl

/-- Fourteen bytes, and those of the aggregation key. -/
theorem TxMemo.byteLength_eq (m : TxMemo) : m.byteLength = 14 + String.utf8Len m.agg.toList := by
  have hop : String.utf8Len m.op.toList = 3 := by
    rw [utf8Len_of_ascii fun c hc => toNat_lt_of_isAlpha (capital_of_valid m.op_valid c hc).1,
      length_of_valid m.op_valid]
  have hhash : String.utf8Len m.contentHash.toList = 8 := by
    rw [utf8Len_of_ascii fun c hc => (hexLower_ascii (List.all_eq_true.mp m.hash_hex c hc)).1, m.hash_length]
  have hcolon : ':'.utf8Size = 1 := rfl
  have hv : 'v'.utf8Size = 1 := rfl
  rw [TxMemo.byteLength, ← String.ofList_toList (s := m.encode), String.utf8ByteSize_ofList, m.toList_encode]
  simp only [String.utf8Len_append, String.utf8Len_cons, hop, hhash, hcolon, hv]
  omega

variable (cases) in
theorem upperOp_of_memoText {raw : String} {m : TxMemo} {op : List Char}
    (htext : MemoText raw.toList op m.agg.toList m.contentHash.toList)
    (hop : m.op = String.ofList (op.map Char.toUpper)) :
    (raw.toList.getLast? ≠ some '\n' ∧ upperOp cases raw = m.encode) ∨
      (raw.toList.getLast? = some '\n' ∧ upperOp cases raw = m.encode ++ "\n") := by
  have hplain : ∀ c ∈ op, decide (c ≠ ':') = true := by
    intro c hc
    refine decide_eq_true fun heq => ?_
    have halpha := htext.op_alpha c hc
    rw [heq] at halpha
    exact absurd halpha (by decide)
  have hspan : ∀ rest, raw.toList = op ++ ':' :: rest →
      (upperOp cases raw).toList = m.op.toList ++ ':' :: rest := by
    intro rest hraw
    obtain ⟨htake, hdrop⟩ := span_append rest hplain (show decide (':' ≠ ':') = false by decide)
    rw [upperOp, hraw, htake, hdrop, upper_of_alpha htext.op_alpha, ← hop, String.toList_append,
      String.toList_ofList]
  rcases htext.eq with hraw | hraw
  · refine .inl ⟨?_, String.toList_injective ?_⟩
    · obtain ⟨init, last, hlast⟩ : ∃ init last, m.contentHash.toList = init ++ [last] := by
        rcases List.eq_nil_or_concat m.contentHash.toList with hnil | ⟨init, last, h⟩
        · have hlength := htext.hash_length
          rw [hnil] at hlength
          cases hlength
        · exact ⟨init, last, by rw [h, List.concat_eq_append]⟩
      have hhex : hexLower last = true := List.all_eq_true.mp htext.hash_hex last (by rw [hlast]; simp)
      rw [hraw, hlast, ← List.cons_append, ← List.cons_append, ← List.append_assoc, ← List.cons_append,
        ← List.append_assoc, List.getLast?_concat]
      intro heq
      exact (hexLower_ascii hhex).2.2 (Option.some.inj heq)
    · rw [hspan _ hraw, m.toList_encode]
  · refine .inr ⟨?_, String.toList_injective ?_⟩
    · rw [hraw, ← List.cons_append, ← List.cons_append, ← List.append_assoc, ← List.cons_append,
        ← List.append_assoc, List.getLast?_concat]
    · rw [hspan _ hraw, String.toList_append, m.toList_encode]
      simp

/-- The memo is no longer than the text it was read from. -/
theorem byteLength_le_of_memoText {raw : String} {m : TxMemo} {op : List Char}
    (htext : MemoText raw.toList op m.agg.toList m.contentHash.toList)
    (hop : m.op = String.ofList (op.map Char.toUpper)) : m.byteLength ≤ raw.utf8ByteSize := by
  have hopLength : op.length = 3 := by
    have hlength := length_of_valid m.op_valid
    rwa [hop, String.toList_ofList, List.length_map] at hlength
  have hopSize : String.utf8Len op = 3 := by
    rw [utf8Len_of_ascii fun c hc => toNat_lt_of_isAlpha (htext.op_alpha c hc), hopLength]
  have hhash : String.utf8Len m.contentHash.toList = 8 := by
    rw [utf8Len_of_ascii fun c hc => (hexLower_ascii (List.all_eq_true.mp m.hash_hex c hc)).1, m.hash_length]
  have hcolon : ':'.utf8Size = 1 := rfl
  have hv : 'v'.utf8Size = 1 := rfl
  have hraw : raw.utf8ByteSize = String.utf8Len raw.toList := by
    rw [← String.utf8ByteSize_ofList, String.ofList_toList]
  rw [m.byteLength_eq, hraw]
  rcases htext.eq with heq | heq <;> rw [heq] <;>
    simp only [String.utf8Len_append, String.utf8Len_cons, hopSize, hhash, hcolon, hv] <;> omega

/-- What was built is read back, if the key has the characters of the expression. -/
theorem parse_encode_iff {m : TxMemo} (hlength : m.byteLength ≤ memoMaxBytes) :
    TxMemo.parse cases m.encode = .ok m ↔ ∀ c ∈ m.agg.toList, aggChar c = true := by
  rw [parse_eq_ok_iff]
  constructor
  · rintro ⟨-, op, htext, -⟩
    exact htext.agg_chars
  · intro hagg
    have hcapital := capital_of_valid m.op_valid
    have hop := length_of_valid m.op_valid
    have hupper : m.op.toList.map Char.toUpper = m.op.toList :=
      (List.map_congr_left fun c hc => (hcapital c hc).2).trans (List.map_id _)
    refine ⟨hlength, m.op.toList, ⟨fun c hc => (hcapital c hc).1, by omega, hagg, m.agg_length, m.hash_hex,
      m.hash_length, ?_⟩, by rw [hupper, String.ofList_toList]⟩
    exact .inl m.toList_encode

theorem build_eq_ok {sha : HexSha} {op agg payload algorithm : String} {m : TxMemo}
    (h : TxMemo.build cases sha op agg payload algorithm = .ok m) :
    m.byteLength ≤ memoMaxBytes ∧ m.agg.toList = agg.toList.take 16 := by
  unfold TxMemo.build at h
  split_ifs at h
  split at h
  · cases h
  · rename_i memo hvalidate
    split_ifs at h with hlong
    obtain rfl := Except.ok.inj h
    obtain ⟨-, -, hagg, -⟩ := validate_eq_ok_iff.mp hvalidate
    exact ⟨Nat.not_lt.mp hlong, by rw [hagg, String.toList_ofList]⟩

end Memo

/-- A text that is accepted gives itself with its operation code upper-cased, in at most 28 bytes, unless it
ends with a line feed; a memo that is built is read back exactly when the first sixteen characters of the key
are letters, digits, underscores and hyphens of ASCII. -/
theorem memo_codec_iff (cases : CaseMapping) (sha : HexSha) :
    (∀ raw m, TxMemo.parse cases raw = .ok m →
      (m.encode = upperOp cases raw ∧ m.encode.utf8ByteSize ≤ 28 ↔ raw.toList.getLast? ≠ some '\n')) ∧
    ∀ op agg payload m, TxMemo.build cases sha op agg payload "sha256" = .ok m →
      (TxMemo.parse cases m.encode = .ok m ↔ ∀ c ∈ agg.toList.take 16, aggChar c = true) := by
  constructor
  · intro raw m hparse
    obtain ⟨hshort, op, htext, hop⟩ := parse_eq_ok_iff.mp hparse
    rcases upperOp_of_memoText cases htext hop with ⟨hlast, hupper⟩ | ⟨hlast, hupper⟩
    · exact iff_of_true ⟨hupper.symm, (byteLength_le_of_memoText htext hop).trans hshort⟩ hlast
    · refine iff_of_false (fun h => ?_) (fun h => h hlast)
      have hlength := congrArg String.length (h.1.trans hupper)
      rw [String.length_append] at hlength
      have hone : "\n".length = 1 := rfl
      omega
  · intro op agg payload m hbuild
    obtain ⟨hlength, hagg⟩ := build_eq_ok hbuild
    rw [parse_encode_iff hlength, hagg]

/-! ## Samples -/

/-- The case mapping of ASCII. -/
def asciiCases : CaseMapping where
  upper s := String.ofList (s.toList.map Char.toUpper)
  lower s := String.ofList (s.toList.map Char.toLower)
  upper_ascii _ _ := rfl
  lower_ascii _ _ := rfl

/-- SHA-256 of `hello-world`, and zeros for every other text. -/
def helloSha : HexSha where
  hexdigest text :=
    if text = "hello-world" then "afa27b44d43b02a9fea41d13cedc2e4016cfcf87c5dbf990e593669aa8ce286d"
    else String.ofList (List.replicate 64 '0')
  hexdigest_length text := by
    split_ifs
    · decide
    · simp
  hexdigest_hex text := by
    split_ifs
    · have hall : "afa27b44d43b02a9fea41d13cedc2e4016cfcf87c5dbf990e593669aa8ce286d".toList.all
          (fun c => c ∈ "0123456789abcdef".toList) = true := by decide
      exact fun c hc => of_decide_eq_true (List.all_eq_true.mp hall c hc)
    · rw [String.toList_ofList]
      intro c hc
      rw [List.eq_of_mem_replicate hc]
      decide

/-- A settled penalty. -/
def penaltyMemo : TxMemo := ⟨"SLP", "OUT001", "a3f2c1b9", by decide, by decide, by decide, by decide⟩

/-- The memo of `hello-world`. -/
def helloMemo : TxMemo := ⟨"SLP", "OUT001", "afa27b44", by decide, by decide, by decide, by decide⟩

/-- A memo whose key has a blank. -/
def blankMemo : TxMemo := ⟨"SLP", "site 42", "afa27b44", by decide, by decide, by decide, by decide⟩

example : (TxMemo.parse asciiCases "BAD:OUT001:va3f2c1b9").toOption = none := by decide +kernel

/-- A lower-case operation code is accepted, and a memo with a plain key is read back. -/
theorem plain_memos :
    (penaltyMemo.encode = upperOp asciiCases "slp:OUT001:va3f2c1b9" ∧ penaltyMemo.encode.utf8ByteSize ≤ 28) ∧
      TxMemo.parse asciiCases helloMemo.encode = .ok helloMemo := by
  obtain ⟨hparse, hbuild⟩ := memo_codec_iff asciiCases helloSha
  have haccepted : TxMemo.parse asciiCases "slp:OUT001:va3f2c1b9" = .ok penaltyMemo := by rfl
  have hbuilt : TxMemo.build asciiCases helloSha "SLP" "OUT001" "hello-world" "sha256" = .ok helloMemo := by rfl
  have hplain : ∀ c ∈ "OUT001".toList.take 16, aggChar c = true :=
    List.all_eq_true.mp (show ("OUT001".toList.take 16).all aggChar = true by decide)
  exact ⟨(hparse _ _ haccepted).mpr (by decide), (hbuild _ _ _ _ hbuilt).mpr hplain⟩

/-- A text with a line feed at its end is accepted and loses it; a memo whose key has a blank is built and
refused. -/
theorem line_feed_and_blank :
    (TxMemo.parse asciiCases "SLP:OUT001:va3f2c1b9\n" = .ok penaltyMemo ∧
      penaltyMemo.encode ≠ upperOp asciiCases "SLP:OUT001:va3f2c1b9\n") ∧
    TxMemo.build asciiCases helloSha "SLP" "site 42" "hello-world" "sha256" = .ok blankMemo ∧
      (TxMemo.parse asciiCases blankMemo.encode).toOption = none := by
  refine ⟨⟨by rfl, by decide +kernel⟩, by rfl, by decide +kernel⟩

end ApexChainx.Ledger
