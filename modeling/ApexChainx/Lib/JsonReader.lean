import ApexChainx.Lib.Json

/-!
# Reading JSON text

A reader for JSON text as `json.loads` accepts it: blanks between the tokens, both cases of hexadecimal
digits, and the tokens `NaN`, `Infinity` and `-Infinity`. A number keeps its text; an integer of too many
digits is refused. An escape may stand for half of a surrogate pair, which is no character: strings are read
as code points, and one with such a half in it is a value of its own kind.

`quoteAscii` writes a string with every character outside printable ASCII escaped, and `readValue_quoteAscii`
says that it is read back.
-/

namespace ApexChainx.Lib

/-- A value as it stands in the text. -/
inductive JsonValue
  | null
  | bool (b : Bool)
  | number (text : List Char)
  | str (s : String)
  /-- A string that has half of a surrogate pair in it, by its code points. -/
  | halfStr (codePoints : List ℕ)
  | arr (elements : List JsonValue)
  | obj (members : List (String × JsonValue))

/-! ## Strings -/

/-- The text of code points; `none` when one of them is half of a surrogate pair. -/
def textOf (codePoints : List ℕ) : Option String :=
  if codePoints.all fun n => decide (Nat.isValidChar n) then some (String.ofList (codePoints.map Char.ofNat))
  else none

/-- The value of a string. -/
def stringValue (codePoints : List ℕ) : JsonValue :=
  match textOf codePoints with
  | some s => .str s
  | none => .halfStr codePoints

/-- A member of an object, if its key is a text. No program asks for another key, and the others are left
out. -/
def memberValue (key : List ℕ) (v : JsonValue) : List (String × JsonValue) :=
  match textOf key with
  | some key => [(key, v)]
  | none => []

/-- The value of a hexadecimal digit of either case. -/
def readHexDigit (c : Char) : Option ℕ :=
  if c ∈ "0123456789abcdef".toList then some ("0123456789abcdef".toList.idxOf c)
  else if c ∈ "ABCDEF".toList then some (10 + "ABCDEF".toList.idxOf c)
  else none

/-- Four hexadecimal digits. -/
def readHex : List Char → Option (ℕ × List Char)
  | a :: b :: c :: d :: rest => do
      let a ← readHexDigit a
      let b ← readHexDigit b
      let c ← readHexDigit c
      let d ← readHexDigit d
      some (((a * 16 + b) * 16 + c) * 16 + d, rest)
  | _ => none

/-- The code point after `\u`: two escapes when they are the halves of a surrogate pair. -/
def readUnicode (cs : List Char) : Option (ℕ × List Char) := do
  let (high, rest) ← readHex cs
  if 0xD800 ≤ high ∧ high < 0xDC00 then
    match rest with
    | '\\' :: 'u' :: rest' =>
        match readHex rest' with
        | some (low, rest'') =>
            if 0xDC00 ≤ low ∧ low < 0xE000 then
              some (0x10000 + (high - 0xD800) * 0x400 + (low - 0xDC00), rest'')
            else some (high, rest)
        | none => none
    | _ => some (high, rest)
  else some (high, rest)

/-- The code point after a backslash. -/
def readEscape : List Char → Option (ℕ × List Char)
  | '"' :: rest => some ('"'.toNat, rest)
  | '\\' :: rest => some ('\\'.toNat, rest)
  | '/' :: rest => some ('/'.toNat, rest)
  | 'b' :: rest => some ('\x08'.toNat, rest)
  | 'f' :: rest => some ('\x0c'.toNat, rest)
  | 'n' :: rest => some ('\n'.toNat, rest)
  | 'r' :: rest => some ('\r'.toNat, rest)
  | 't' :: rest => some ('\t'.toNat, rest)
  | 'u' :: rest => readUnicode rest
  | _ => none

/-- The code points up to the closing quote. -/
def readString : ℕ → List Char → Option (List ℕ × List Char)
  | 0, _ => none
  | _ + 1, [] => none
  | _ + 1, '"' :: rest => some ([], rest)
  | fuel + 1, '\\' :: rest => do
      let (n, rest) ← readEscape rest
      let (ns, rest) ← readString fuel rest
      some (n :: ns, rest)
  | fuel + 1, c :: rest =>
      if c.toNat < 32 then none
      else do
        let (ns, rest) ← readString fuel rest
        some (c.toNat :: ns, rest)

/-! ## Values -/

/-- Blanks, tabs and line ends. -/
def skipBlank (cs : List Char) : List Char :=
  cs.dropWhile fun c => c = ' ' || c = '\t' || c = '\n' || c = '\r'

/-- A sign, if there is one. -/
def readSign (allowed : List Char) : List Char → List Char × List Char
  | c :: rest => if c ∈ allowed then ([c], rest) else ([], c :: rest)
  | [] => ([], [])

/-- A fraction or an exponent: its digits, when there is at least one. -/
def readTail (mark signs : List Char) (cs : List Char) : List Char × List Char :=
  match cs with
  | c :: rest =>
      let (sign, rest) := readSign signs rest
      let digits := rest.takeWhile Char.isDigit
      if c ∈ mark ∧ digits ≠ [] then (c :: (sign ++ digits), rest.drop digits.length) else ([], cs)
  | [] => ([], [])

/-- The longest integer that is read, in digits. -/
def maxIntDigits : ℕ := 4300

/-- The text of a number. -/
def readNumber (cs : List Char) : Option (List Char × List Char) :=
  let (sign, rest) := readSign ['-'] cs
  let digits := if rest.head? = some '0' then ['0'] else rest.takeWhile Char.isDigit
  if digits = [] then none
  else
    let (fraction, rest) := readTail ['.'] [] (rest.drop digits.length)
    let (exponent, rest) := readTail ['e', 'E'] ['+', '-'] rest
    if fraction = [] ∧ exponent = [] ∧ maxIntDigits < digits.length then none
    else some (sign ++ digits ++ fraction ++ exponent, rest)

/-- The tokens that are not a string, a number, an array or an object. -/
def literals : List (List Char × JsonValue) :=
  [("null".toList, .null), ("true".toList, .bool true), ("false".toList, .bool false),
    ("NaN".toList, .number "NaN".toList), ("Infinity".toList, .number "Infinity".toList),
    ("-Infinity".toList, .number "-Infinity".toList)]

/-- A token or a number. -/
def readScalar (cs : List Char) : Option (JsonValue × List Char) :=
  match literals.find? (·.1.isPrefixOf cs) with
  | some (token, v) => some (v, cs.drop token.length)
  | none => (readNumber cs).map fun r => (.number r.1, r.2)

mutual

/-- A value, no blanks in front of it. -/
def readValue : ℕ → List Char → Option (JsonValue × List Char)
  | 0, _ => none
  | fuel + 1, cs =>
      match cs with
      | '"' :: rest => (readString (rest.length + 1) rest).map fun r => (stringValue r.1, r.2)
      | '\x7b' :: rest =>
          match skipBlank rest with
          | '\x7d' :: rest => some (.obj [], rest)
          | rest => (readMembers fuel rest).map fun r => (.obj r.1, r.2)
      | '[' :: rest =>
          match skipBlank rest with
          | ']' :: rest => some (.arr [], rest)
          | rest => (readElements fuel rest).map fun r => (.arr r.1, r.2)
      | cs => readScalar cs

/-- The elements of an array, at least one, and the closing bracket. -/
def readElements : ℕ → List Char → Option (List JsonValue × List Char)
  | 0, _ => none
  | fuel + 1, cs => do
      let (v, rest) ← readValue fuel cs
      match skipBlank rest with
      | ']' :: rest => some ([v], rest)
      | ',' :: rest => (readElements fuel (skipBlank rest)).map fun r => (v :: r.1, r.2)
      | _ => none

/-- The members of an object, at least one, and the closing brace. -/
def readMembers : ℕ → List Char → Option (List (String × JsonValue) × List Char)
  | 0, _ => none
  | fuel + 1, cs =>
      match cs with
      | '"' :: rest => do
          let (key, rest) ← readString (rest.length + 1) rest
          match skipBlank rest with
          | ':' :: rest => do
              let (v, rest) ← readValue fuel (skipBlank rest)
              match skipBlank rest with
              | '\x7d' :: rest => some (memberValue key v, rest)
              | ',' :: rest =>
                  (readMembers fuel (skipBlank rest)).map fun r => (memberValue key v ++ r.1, r.2)
              | _ => none
          | _ => none
      | _ => none

end

/-- `json.loads`; `none` when the text is no JSON. -/
def loads (text : String) : Option JsonValue := do
  let (v, rest) ← readValue (text.length + 1) (skipBlank text.toList)
  if skipBlank rest = [] then some v else none

/-- The member of an object under a key, the last one if there are several. -/
def JsonValue.member (members : List (String × JsonValue)) (key : String) : Option JsonValue :=
  (members.reverse.find? (·.1 = key)).map (·.2)

/-! ## Writing strings -/

/-- The escape of a number below 2^16. -/
def unicodeEscape (n : ℕ) : List Char :=
  ['\\', 'u', hexDigit (n / 4096), hexDigit (n / 256 % 16), hexDigit (n / 16 % 16), hexDigit (n % 16)]

/-- How a character is written inside a string, with `ensure_ascii`. -/
def escapeAscii (c : Char) : List Char :=
  if c = '"' then ['\\', '"']
  else if c = '\\' then ['\\', '\\']
  else if c = '\n' then ['\\', 'n']
  else if c = '\r' then ['\\', 'r']
  else if c = '\t' then ['\\', 't']
  else if c = '\x0c' then ['\\', 'f']
  else if c = '\x08' then ['\\', 'b']
  else if 32 ≤ c.toNat ∧ c.toNat ≤ 126 then [c]
  else if c.toNat < 0x10000 then unicodeEscape c.toNat
  else unicodeEscape (0xD800 + (c.toNat - 0x10000) / 0x400) ++
    unicodeEscape (0xDC00 + (c.toNat - 0x10000) % 0x400)

/-- A string as it is written, with `ensure_ascii`. -/
def quoteAscii (s : String) : List Char := '"' :: (s.toList.flatMap escapeAscii ++ ['"'])

theorem readHexDigit_hexDigit {n : ℕ} (h : n < 16) : readHexDigit (hexDigit n) = some n := by
  have hall : ∀ n < 16, readHexDigit (hexDigit n) = some n := by decide
  exact hall n h

theorem readHex_unicodeEscape {n : ℕ} (h : n < 0x10000) (rest : List Char) :
    readHex (hexDigit (n / 4096) :: hexDigit (n / 256 % 16) :: hexDigit (n / 16 % 16) ::
      hexDigit (n % 16) :: rest) = some (n, rest) := by
  simp only [readHex, readHexDigit_hexDigit (show n / 4096 < 16 by omega),
    readHexDigit_hexDigit (show n / 256 % 16 < 16 by omega),
    readHexDigit_hexDigit (show n / 16 % 16 < 16 by omega),
    readHexDigit_hexDigit (show n % 16 < 16 by omega), Option.bind_eq_bind, Option.bind_some,
    Option.some.injEq, Prod.mk.injEq, and_true]
  omega

theorem readUnicode_bmp {c : Char} (h : c.toNat < 0x10000) (rest : List Char) :
    readUnicode (hexDigit (c.toNat / 4096) :: hexDigit (c.toNat / 256 % 16) ::
      hexDigit (c.toNat / 16 % 16) :: hexDigit (c.toNat % 16) :: rest) = some (c.toNat, rest) := by
  have hvalid : c.toNat < 0xD800 ∨ 0xDFFF < c.toNat ∧ c.toNat < 0x110000 := c.valid
  unfold readUnicode
  rw [readHex_unicodeEscape h]
  simp only [Option.bind_eq_bind, Option.bind_some]
  rw [if_neg (by omega)]

/-- The two halves of a surrogate pair. -/
theorem readUnicode_pair {high low : ℕ} (h₁ : 0xD800 ≤ high) (h₂ : high < 0xDC00)
    (h₃ : 0xDC00 ≤ low) (h₄ : low < 0xE000) (rest : List Char) :
    readUnicode (hexDigit (high / 4096) :: hexDigit (high / 256 % 16) :: hexDigit (high / 16 % 16) ::
      hexDigit (high % 16) :: (unicodeEscape low ++ rest)) =
      some (0x10000 + (high - 0xD800) * 0x400 + (low - 0xDC00), rest) := by
  unfold readUnicode unicodeEscape
  rw [readHex_unicodeEscape (by omega)]
  simp only [Option.bind_eq_bind, Option.bind_some, List.cons_append, List.nil_append]
  rw [if_pos ⟨h₁, h₂⟩, readHex_unicodeEscape (by omega)]
  simp only
  rw [if_pos ⟨h₃, h₄⟩]

/-- An escape is read as its code point. -/
theorem readString_backslash {fuel n : ℕ} {cs rest : List Char} (h : readEscape cs = some (n, rest)) :
    readString (fuel + 1) ('\\' :: cs) = (readString fuel rest).map fun r => (n :: r.1, r.2) := by
  simp only [readString, h, Option.bind_eq_bind, Option.bind_some]
  cases readString fuel rest <;> rfl

/-- One written character is read back. -/
theorem readString_escapeAscii (c : Char) (fuel : ℕ) (rest : List Char) :
    readString (fuel + 1) (escapeAscii c ++ rest)
      = (readString fuel rest).map fun r => (c.toNat :: r.1, r.2) := by
  unfold escapeAscii
  split_ifs with h₁ h₂ h₃ h₄ h₅ h₆ h₇ h₈ h₉
  · rw [h₁]; exact readString_backslash rfl
  · rw [h₂]; exact readString_backslash rfl
  · rw [h₃]; exact readString_backslash rfl
  · rw [h₄]; exact readString_backslash rfl
  · rw [h₅]; exact readString_backslash rfl
  · rw [h₆]; exact readString_backslash rfl
  · rw [h₇]; exact readString_backslash rfl
  · rw [List.cons_append, List.nil_append, readString.eq_def]
    simp only [if_neg (show ¬ c.toNat < 32 by omega)]
    cases readString fuel rest <;> rfl
  · exact readString_backslash (readUnicode_bmp h₉ rest)
  · have hvalid : c.toNat < 0xD800 ∨ 0xDFFF < c.toNat ∧ c.toNat < 0x110000 := c.valid
    have hpair := @readUnicode_pair (0xD800 + (c.toNat - 0x10000) / 0x400)
      (0xDC00 + (c.toNat - 0x10000) % 0x400) (by omega) (by omega) (by omega) (by omega) rest
    rw [show 0x10000 + (0xD800 + (c.toNat - 0x10000) / 0x400 - 0xD800) * 0x400 +
      (0xDC00 + (c.toNat - 0x10000) % 0x400 - 0xDC00) = c.toNat by omega] at hpair
    rw [List.append_assoc]
    exact readString_backslash hpair

/-- A written string is read back up to its closing quote. -/
theorem readString_flatMap_escapeAscii (cs rest : List Char) {fuel : ℕ} (h : cs.length < fuel) :
    readString fuel (cs.flatMap escapeAscii ++ '"' :: rest) = some (cs.map Char.toNat, rest) := by
  induction cs generalizing fuel with
  | nil =>
      cases fuel with
      | zero => cases h
      | succ fuel => rfl
  | cons c cs ih =>
      cases fuel with
      | zero => cases h
      | succ fuel =>
          rw [List.length_cons] at h
          rw [List.flatMap_cons, List.append_assoc, readString_escapeAscii, ih (by omega)]
          rfl

/-- The code points of a text are those of its characters. -/
theorem textOf_toNat (s : String) : textOf (s.toList.map Char.toNat) = some s := by
  have hvalid : (s.toList.map Char.toNat).all (fun n => decide (Nat.isValidChar n)) = true := by
    rw [List.all_map, List.all_eq_true]
    exact fun c _ => decide_eq_true c.valid
  have hchars : (s.toList.map Char.toNat).map Char.ofNat = s.toList := by
    rw [List.map_map]
    exact List.map_id'' Char.ofNat_toNat s.toList
  rw [textOf, if_pos hvalid, hchars, String.ofList_toList]

theorem stringValue_toNat (s : String) : stringValue (s.toList.map Char.toNat) = .str s := by
  rw [stringValue, textOf_toNat]

theorem memberValue_toNat (key : String) (v : JsonValue) :
    memberValue (key.toList.map Char.toNat) v = [(key, v)] := by
  rw [memberValue, textOf_toNat]

theorem one_le_length_escapeAscii (c : Char) : 1 ≤ (escapeAscii c).length := by
  unfold escapeAscii unicodeEscape
  split_ifs <;> simp

/-- What stands behind the opening quote of a written string. -/
theorem readString_quoteAscii_tail (s : String) (rest : List Char) :
    readString ((s.toList.flatMap escapeAscii ++ '"' :: rest).length + 1)
      (s.toList.flatMap escapeAscii ++ '"' :: rest) = some (s.toList.map Char.toNat, rest) := by
  have hlength := length_le_flatMap one_le_length_escapeAscii s.toList
  refine readString_flatMap_escapeAscii _ _ ?_
  rw [List.length_append, List.length_cons]
  omega

/-- A written string, whatever follows it, is read as a value. -/
theorem readValue_quoteAscii (s : String) (fuel : ℕ) (rest : List Char) :
    readValue (fuel + 1) (quoteAscii s ++ rest) = some (.str s, rest) := by
  unfold quoteAscii
  rw [List.cons_append, List.append_assoc, List.singleton_append, readValue, readString_quoteAscii_tail]
  rw [Option.map_some, stringValue_toNat]

theorem skipBlank_quoteAscii (s : String) (rest : List Char) :
    skipBlank (quoteAscii s ++ rest) = quoteAscii s ++ rest := rfl

/-- An object that starts with a key. -/
theorem readValue_object (key : String) (fuel : ℕ) (rest : List Char) :
    readValue (fuel + 1) ('\x7b' :: (quoteAscii key ++ rest))
      = (readMembers fuel (quoteAscii key ++ rest)).map fun r => (.obj r.1, r.2) := by
  rw [readValue, skipBlank_quoteAscii]
  rfl

/-- A member whose value starts right after the blank. -/
theorem readMembers_value (key : String) {fuel : ℕ} {text rest : List Char} {v : JsonValue}
    (hblank : skipBlank (text ++ rest) = text ++ rest)
    (hvalue : readValue fuel (text ++ rest) = some (v, rest)) :
    readMembers (fuel + 1) (quoteAscii key ++ ':' :: ' ' :: (text ++ rest)) =
      match skipBlank rest with
      | '\x7d' :: rest => some ([(key, v)], rest)
      | ',' :: rest => (readMembers fuel (skipBlank rest)).map fun r => ((key, v) :: r.1, r.2)
      | _ => none := by
  have hspace : skipBlank (' ' :: (text ++ rest)) = text ++ rest := hblank
  have hcolon : ∀ cs, skipBlank (':' :: cs) = ':' :: cs := fun _ => rfl
  rw [show quoteAscii key ++ ':' :: ' ' :: (text ++ rest)
    = '"' :: (key.toList.flatMap escapeAscii ++ '"' :: (':' :: ' ' :: (text ++ rest))) by
      simp [quoteAscii]]
  rw [readMembers, readString_quoteAscii_tail]
  simp only [Option.bind_eq_bind, Option.bind_some, hcolon, hspace, hvalue, memberValue_toNat, List.singleton_append]

/-- A member with a string under its key. -/
theorem readMembers_quoteAscii (key s : String) (fuel : ℕ) (rest : List Char) :
    readMembers (fuel + 2) (quoteAscii key ++ ':' :: ' ' :: (quoteAscii s ++ rest)) =
      match skipBlank rest with
      | '\x7d' :: rest => some ([(key, .str s)], rest)
      | ',' :: rest =>
          (readMembers (fuel + 1) (skipBlank rest)).map fun r => ((key, .str s) :: r.1, r.2)
      | _ => none :=
  readMembers_value key (skipBlank_quoteAscii s rest) (readValue_quoteAscii s fuel rest)

end ApexChainx.Lib
