import ApexChainx.Core.Error
import ApexChainx.Lib.JsonReader
import ApexChainx.Lib.PyText

/-!
# The body of a response

What a delivery keeps of the text that a receiver answers with: `_scrub_response_body` of
`app/services/webhook_service.py`. The receiver chooses the text, and the charset it is decoded by; it is given by its
code points, since a NUL or a surrogate may be among them. The driver refuses to store either (`storeError`).
-/

namespace ApexChainx.Webhooks

open ApexChainx.Lib

/-! ## Redaction -/

/-- `[REDACTED]`. -/
def redacted : List ℕ := "[REDACTED]".toList.map Char.toNat

/-- `re.sub` of a pattern by `[REDACTED]`. The pattern is given by the length of its match at the head of a text, 0 if
there is none; `skip` is what is left of the last match. -/
def substitute (matchLength : List ℕ → ℕ) : ℕ → List ℕ → List ℕ
  | _, [] => []
  | skip + 1, _ :: cs => substitute matchLength skip cs
  | 0, c :: cs =>
      match matchLength (c :: cs) with
      | 0 => c :: substitute matchLength 0 cs
      | n + 1 => redacted ++ substitute matchLength n cs

/-- `[A-Za-z0-9]`. -/
def isAlphanumeric (n : ℕ) : Bool := (48 ≤ n && n ≤ 57) || (65 ≤ n && n ≤ 90) || (97 ≤ n && n ≤ 122)

/-- `S[A-Za-z0-9]{55}`. -/
def stellarSecret : List ℕ → ℕ
  | [] => 0
  | c :: cs =>
      if c = 'S'.toNat ∧ (cs.take 55).length = 55 ∧ (cs.take 55).all isAlphanumeric then 56 else 0

/-- A lower-case letter of a pattern under `(?i)`. Three letters also match characters outside ASCII. -/
def matchesLetter (letter : Char) (n : ℕ) : Bool :=
  n = letter.toNat || n + 32 = letter.toNat || (letter = 's' && n = 0x17f) || (letter = 'k' && n = 0x212a) ||
    (letter = 'i' && (n = 0x130 || n = 0x131))

/-- What follows a word, if the text begins with it in some letter case. -/
def afterWord : List Char → List ℕ → Option (List ℕ)
  | [], cs => some cs
  | _ :: _, [] => none
  | letter :: word, c :: cs => if matchesLetter letter c then afterWord word cs else none

/-- `api[_-]?key`. -/
def afterApiKey (cs : List ℕ) : Option (List ℕ) :=
  (afterWord "api".toList cs).bind fun rest =>
    match rest with
    | c :: rest' => afterWord "key".toList (if c = '_'.toNat ∨ c = '-'.toNat then rest' else rest)
    | [] => none

/-- `(?i)(password|secret|token|api[_-]?key)\s*[:=]\s*\S+`. -/
def credential (cs : List ℕ) : ℕ :=
  let name := (afterWord "password".toList cs).or <| (afterWord "secret".toList cs).or <|
    (afterWord "token".toList cs).or (afterApiKey cs)
  match name.map (List.dropWhile whitespace) with
  | some (c :: rest) =>
      let value := rest.dropWhile whitespace
      if (c = ':'.toNat ∨ c = '='.toNat) ∧ value ≠ [] then
        cs.length - (value.dropWhile fun n => !whitespace n).length
      else 0
  | _ => 0

/-- `RESPONSE_BODY_STORAGE_LIMIT`. -/
def responseBodyStorageLimit : ℕ := 500

/-- `_scrub_response_body`. -/
def scrubResponseBody (body : List ℕ) : List ℕ :=
  (substitute credential 0 (substitute stellarSecret 0 body)).take responseBodyStorageLimit

/-! ## Storing a text -/

def isSurrogate (n : ℕ) : Bool := 0xd800 ≤ n && n ≤ 0xdfff

/-- The `UnicodeEncodeError` for the surrogates that begin at a position. -/
def surrogatesError (position : ℕ) (surrogates : List ℕ) : ApiError :=
  let characters := match surrogates with
    | [n] => "character '" ++ String.ofList (unicodeEscape n) ++ "' in position " ++ toString position
    | _ => "characters in position " ++ toString position ++ "-" ++ toString (position + surrogates.length - 1)
  .valueError ("'utf-8' codec can't encode " ++ characters ++ ": surrogates not allowed")

/-- What psycopg2 raises for a text that is a parameter of a statement, if it does not take it. -/
def storeError (text : List ℕ) : Option ApiError :=
  match text.findIdx? isSurrogate with
  | some i => some (surrogatesError i ((text.drop i).takeWhile isSurrogate))
  | none => if 0 ∈ text then some .nulLiteral else none

/-- The text has neither a NUL nor a surrogate in it. -/
def Storable (text : List ℕ) : Prop := ∀ n ∈ text, n ≠ 0 ∧ isSurrogate n = false

instance (text : List ℕ) : Decidable (Storable text) := inferInstanceAs (Decidable (∀ n ∈ text, _))

theorem storeError_eq_none_iff {text : List ℕ} : storeError text = none ↔ Storable text := by
  have hsurrogates : text.findIdx? isSurrogate = none ↔ ∀ n ∈ text, isSurrogate n = false :=
    List.findIdx?_eq_none_iff
  constructor
  · intro h n hn
    cases hfind : text.findIdx? isSurrogate with
    | some i => simp [storeError, hfind] at h
    | none =>
        refine ⟨?_, hsurrogates.mp hfind n hn⟩
        rintro rfl
        simp [storeError, hfind, hn] at h
  · intro h
    have hnul : 0 ∉ text := fun hmem => (h 0 hmem).1 rfl
    simp [storeError, hsurrogates.mpr fun n hn => (h n hn).2, hnul]

/-- A password in a body, and a NUL behind what is kept of it. -/
example : scrubResponseBody ("no PASSWORD = hunter2 ok".toList.map Char.toNat) =
      "no [REDACTED] ok".toList.map Char.toNat ∧
    Storable (scrubResponseBody (List.replicate 500 120 ++ [0])) := by
  decide +kernel

end ApexChainx.Webhooks
