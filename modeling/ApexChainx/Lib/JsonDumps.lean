import ApexChainx.Lib.JsonNesting

/-!
# Writing values as JSON

`dumps` is `json.dumps` with its default separators, on the values that a JSON serializer hands on. It can
fail, for `int.__repr__` refuses integers of too many digits (`isSome_dumps`), and a float that is not finite
is written as a token that is no JSON. A text that was written is read back, in a list of texts with commas
between them too (`written_dumps`, `written_list`); it is a JSON document when every float in it is finite
(`document_written`).
-/

namespace ApexChainx.Lib

/-! ## Numbers that are read back -/

/-- What can follow a value. -/
def EndsValue (rest : List Char) : Prop := ∀ c ∈ rest.head?, c = ',' ∨ c = ']' ∨ c = '\x7d'

theorem endsValue_nil : EndsValue [] := nofun

theorem endsValue_cons {c : Char} {rest : List Char} (hc : c = ',' ∨ c = ']' ∨ c = '\x7d') : EndsValue (c :: rest) := by
  intro d hd
  obtain rfl := Option.some.inj hd
  exact hc

variable {text rest : List Char}

theorem EndsValue.not_mem (h : EndsValue rest) {allowed : List Char}
    (hallowed : ∀ c ∈ [',', ']', '\x7d'], c ∉ allowed) : ∀ c ∈ rest.head?, c ∉ allowed := by
  intro c hc
  refine hallowed c ?_
  simpa using h c hc

theorem EndsValue.takeWhile_digits (h : EndsValue rest) (cs : List Char) :
    (cs ++ rest).takeWhile Char.isDigit = cs.takeWhile Char.isDigit := by
  have hrest : rest.takeWhile Char.isDigit = [] := by
    cases rest with
    | nil => rfl
    | cons c rest =>
        refine List.takeWhile_cons_of_neg ?_
        rcases h c rfl with rfl | rfl | rfl <;> decide
  rw [List.takeWhile_append, hrest, List.append_nil]
  split_ifs with hall
  · exact (List.IsPrefix.eq_of_length (List.takeWhile_prefix _) hall).symm
  · rfl

theorem readSign_append {allowed : List Char} (h : ∀ c ∈ rest.head?, c ∉ allowed) (cs : List Char) :
    readSign allowed (cs ++ rest) = ((readSign allowed cs).1, (readSign allowed cs).2 ++ rest) := by
  cases cs with
  | nil =>
      cases rest with
      | nil => rfl
      | cons c rest => exact if_neg (h c rfl)
  | cons c cs =>
      rw [List.cons_append, readSign, readSign]
      split_ifs <;> rfl

theorem readTail_append {mark signs : List Char} (hends : EndsValue rest) (hmark : ∀ c ∈ rest.head?, c ∉ mark)
    (hsigns : ∀ c ∈ rest.head?, c ∉ signs) (cs : List Char) :
    readTail mark signs (cs ++ rest) = ((readTail mark signs cs).1, (readTail mark signs cs).2 ++ rest) := by
  cases cs with
  | nil =>
      cases rest with
      | nil => rfl
      | cons c rest => exact if_neg fun h => hmark c rfl h.1
  | cons c cs =>
      rw [List.cons_append, readTail, readTail]
      rw [readSign_append hsigns]
      dsimp only
      rw [hends.takeWhile_digits]
      split_ifs
      · rw [List.drop_append_of_le_length (List.takeWhile_prefix _).length_le]
      · rfl

/-- A number that is read to its end is read as far with something behind it. -/
theorem readNumber_append (hends : EndsValue rest) (h : readNumber text = some (text, [])) :
    readNumber (text ++ rest) = some (text, rest) := by
  have hminus : ∀ c ∈ rest.head?, c ∉ ['-'] := hends.not_mem (by simp)
  have hpoint : ∀ c ∈ rest.head?, c ∉ ['.'] := hends.not_mem (by simp)
  have hexponent : ∀ c ∈ rest.head?, c ∉ ['e', 'E'] := hends.not_mem (by simp)
  have hsigns : ∀ c ∈ rest.head?, c ∉ ['+', '-'] := hends.not_mem (by simp)
  unfold readNumber at h ⊢
  rw [readSign_append hminus]
  generalize readSign ['-'] text = signed at h ⊢
  obtain ⟨sign, tail⟩ := signed
  dsimp only at h ⊢
  -- neither a zero nor another digit is added behind the digits that are there
  have hdigits : (if (tail ++ rest).head? = some '0' then ['0'] else (tail ++ rest).takeWhile Char.isDigit)
      = if tail.head? = some '0' then ['0'] else tail.takeWhile Char.isDigit := by
    rw [hends.takeWhile_digits]
    cases tail with
    | cons c tail => rfl
    | nil =>
        rw [List.nil_append, if_neg fun hzero => ?_, if_neg nofun]
        have hlist := hends '0' hzero
        revert hlist
        decide
  have hle : (if tail.head? = some '0' then ['0'] else tail.takeWhile Char.isDigit).length ≤ tail.length := by
    split_ifs with hzero
    · cases tail with
      | nil => contradiction
      | cons c tail => simp
    · exact (List.takeWhile_prefix _).length_le
  rw [hdigits]
  generalize (if tail.head? = some '0' then ['0'] else tail.takeWhile Char.isDigit) = digits at h hle ⊢
  by_cases hnone : digits = []
  · rw [if_pos hnone] at h
    contradiction
  · rw [if_neg hnone] at h ⊢
    rw [List.drop_append_of_le_length hle, readTail_append hends hpoint fun _ _ => List.not_mem_nil]
    dsimp only
    rw [readTail_append hends hexponent hsigns]
    dsimp only
    split_ifs at h ⊢
    obtain ⟨htext, hnil⟩ := Prod.mk.inj (Option.some.inj h)
    rw [htext, hnil, List.nil_append]

/-- No decimal text but that of zero starts with a zero. -/
theorem eq_zero_of_head_repr {n : ℕ} (h : n.repr.toList.head? = some '0') : n = 0 := by
  rw [Nat.toList_repr] at h
  induction n using Nat.strongRecOn with
  | ind n ih =>
      by_cases hsmall : n < 10
      · rw [Nat.toDigits_of_lt_base hsmall, List.head?_cons, Option.some.injEq] at h
        interval_cases n <;> first | rfl | cases h
      · -- the last digit goes, the first one stays
        rw [Nat.toDigits_of_base_le (by decide) (by omega), List.head?_append_of_ne_nil _ Nat.toDigits_ne_nil] at h
        have hzero := ih (n / 10) (by omega) h
        omega

theorem takeWhile_natRepr (n : ℕ) : n.repr.toList.takeWhile Char.isDigit = n.repr.toList :=
  List.takeWhile_eq_self_iff.mpr fun _ hc => isDigit_of_mem_natRepr hc

/-- The digits of a number, behind its sign. -/
theorem digits_natRepr (n : ℕ) :
    (if n.repr.toList.head? = some '0' then ['0'] else n.repr.toList.takeWhile Char.isDigit) = n.repr.toList := by
  split_ifs with hzero
  · rw [eq_zero_of_head_repr hzero]
    rfl
  · exact takeWhile_natRepr n

theorem intRepr_toList (n : ℤ) :
    n.repr.toList = (if 0 ≤ n then [] else ['-']) ++ n.natAbs.repr.toList := by
  rw [Int.repr_eq_if]
  split_ifs with hsign
  · rw [show n.toNat = n.natAbs by omega]
    rfl
  · rw [String.toList_append, show (-n).toNat = n.natAbs by omega]
    rfl

theorem readSign_intRepr (n : ℤ) :
    readSign ['-'] n.repr.toList = (if 0 ≤ n then [] else ['-'], n.natAbs.repr.toList) := by
  rw [intRepr_toList]
  split_ifs
  · rcases hdigits : n.natAbs.repr.toList with _ | ⟨c, cs⟩
    · rfl
    · have hc : c.isDigit = true := by
        refine isDigit_of_mem_natRepr (n := n.natAbs) ?_
        rw [hdigits]
        exact List.mem_cons_self
      refine if_neg fun hminus => ?_
      rw [List.mem_singleton.mp hminus] at hc
      cases hc
  · rfl

/-- An integer is read back unless it has too many digits. -/
theorem readNumber_intRepr {n : ℤ} (h : n.natAbs.repr.toList.length ≤ maxIntDigits) :
    readNumber n.repr.toList = some (n.repr.toList, []) := by
  have hne : n.natAbs.repr.toList ≠ [] := by
    rw [Nat.toList_repr]
    exact Nat.toDigits_ne_nil
  unfold readNumber
  rw [readSign_intRepr]
  dsimp only
  rw [digits_natRepr, if_neg hne, List.drop_length]
  simp only [readTail]
  rw [if_neg fun hlong => absurd h (Nat.not_le.mpr hlong.2.2), intRepr_toList, List.append_nil, List.append_nil]

/-! ## Texts that are read back -/

/-- A text that is read as one value, whatever can follow it. -/
structure Written (text : List Char) (v : JsonValue) : Prop where
  starts : ∀ rest, skipBlank (text ++ rest) = text ++ rest
  opens : ∀ rest rest', text ++ rest ≠ ']' :: rest'
  reads : ∀ rest, EndsValue rest → ∃ fuel, readValue fuel (text ++ rest) = some (v, rest)

/-- One unit of fuel for each character is enough. -/
theorem Written.readValue {v : JsonValue} (h : Written text v) (hends : EndsValue rest) {fuel : ℕ}
    (hfuel : text.length ≤ fuel) : readValue fuel (text ++ rest) = some (v, rest) := by
  obtain ⟨fuel', hread⟩ := h.reads rest hends
  refine ((enough_readers fuel').1 _ _ _ hread).2 fuel ?_
  rw [List.length_append]
  omega

/-- A written text is the text of its value. -/
theorem Written.loads {v : JsonValue} (h : Written text v) : loads (String.ofList text) = some v := by
  have hstart := h.starts []
  have hread := h.readValue endsValue_nil le_rfl
  rw [List.append_nil] at hstart hread
  rw [loads_eq_some_iff, String.toList_ofList, hstart]
  exact ⟨text.length, [], hread, rfl⟩

/-- What a token or a number does not start with. -/
def notScalar : List Char := [' ', '\t', '\n', '\r', '"', '\x7b', '[', ']']

/-- A token or a number, which needs no other reader. -/
theorem written_of_readScalar {c : Char} {cs : List Char} {v : JsonValue}
    (hc : c ∉ notScalar) (h : ∀ rest, EndsValue rest → readScalar (c :: cs ++ rest) = some (v, rest)) :
    Written (c :: cs) v := by
  simp only [notScalar, List.mem_cons, List.not_mem_nil, or_false, not_or] at hc
  obtain ⟨hspace, htab, hnewline, hreturn, hquote, hbrace, hbracket, hclose⟩ := hc
  refine ⟨fun rest => List.dropWhile_cons_of_neg ?_, fun rest rest' heq => hclose (List.cons.inj heq).1,
    fun rest hends => ⟨1, ?_⟩⟩
  · simp [hspace, htab, hnewline, hreturn]
  · rw [← h rest hends]
    unfold readValue
    split
    · rename_i heq
      exact absurd (List.cons.inj heq).1 hquote
    · rename_i heq
      exact absurd (List.cons.inj heq).1 hbrace
    · rename_i heq
      exact absurd (List.cons.inj heq).1 hbracket
    · rfl

theorem written_quoteAscii (s : String) : Written (quoteAscii s) (.str s) :=
  ⟨fun _ => rfl, nofun, fun rest _ => ⟨1, readValue_quoteAscii s 0 rest⟩⟩

/-! ### Arrays and objects -/

/-- Elements or members with commas between them, and blanks behind the commas. -/
def separated (blanks : List Char) (texts : List (List Char)) : List Char := (',' :: blanks).intercalate texts

theorem separated_singleton (blanks text : List Char) : separated blanks [text] = text := by
  simp [separated, List.intercalate]

theorem separated_cons_cons (blanks text text' : List Char) (texts : List (List Char)) :
    separated blanks (text :: text' :: texts) = text ++ ',' :: (blanks ++ separated blanks (text' :: texts)) := by
  simp [separated, List.intercalate]

/-- What is written starts with the first text, and each of the others has its comma in front of it. -/
theorem separated_cons (blanks text : List Char) (texts : List (List Char)) :
    separated blanks (text :: texts) = text ++ texts.flatMap fun text' => ',' :: (blanks ++ text') := by
  induction texts generalizing text with
  | nil => rw [separated_singleton, List.flatMap_nil, List.append_nil]
  | cons text' texts ih =>
      rw [separated_cons_cons, ih, List.flatMap_cons, List.cons_append, List.append_assoc]

/-- Elements are read up to the closing bracket. -/
theorem readElements_separated {blanks : List Char} (hblanks : ∀ cs, skipBlank (blanks ++ cs) = skipBlank cs)
    {texts : List (List Char)} {v : JsonValue} {vs : List JsonValue} (h : Written text v)
    (hs : List.Forall₂ Written texts vs) (rest : List Char) :
    ∃ fuel, readElements fuel (separated blanks (text :: texts) ++ ']' :: rest) = some (v :: vs, rest) := by
  have hclose : skipBlank (']' :: rest) = ']' :: rest := rfl
  induction hs generalizing text v with
  | nil =>
      refine ⟨text.length + 1, ?_⟩
      rw [separated_singleton, readElements, h.readValue (endsValue_cons (.inr (.inl rfl))) le_rfl]
      simp only [Option.bind_eq_bind, Option.bind_some, hclose]
  | @cons text' v' texts vs h' hs ih =>
      obtain ⟨fuel, hread⟩ := ih h'
      have hstart : skipBlank (separated blanks (text' :: texts) ++ ']' :: rest)
          = separated blanks (text' :: texts) ++ ']' :: rest := by
        rw [separated_cons, List.append_assoc]
        exact h'.starts _
      generalize hcs : separated blanks (text' :: texts) ++ ']' :: rest = cs at hread hstart
      -- one amount of fuel that is enough for the element and for the others
      have hmore := ((enough_readers fuel).2.1 _ _ _ hread).2 (text.length + cs.length) (by omega)
      have hcomma : skipBlank (',' :: (blanks ++ cs)) = ',' :: (blanks ++ cs) := rfl
      refine ⟨text.length + cs.length + 1, ?_⟩
      rw [separated_cons_cons, List.append_assoc, List.cons_append, List.append_assoc, hcs, readElements,
        h.readValue (endsValue_cons (.inl rfl)) (Nat.le_add_right _ _)]
      simp only [Option.bind_eq_bind, Option.bind_some, hcomma, hblanks, hstart, hmore, Option.map_some]

/-- A list of texts is read as an array. -/
theorem written_list {blanks : List Char} (hblanks : ∀ cs, skipBlank (blanks ++ cs) = skipBlank cs)
    {texts : List (List Char)} {vs : List JsonValue} (h : List.Forall₂ Written texts vs) :
    Written ('[' :: (separated blanks texts ++ [']'])) (.arr vs) := by
  refine ⟨fun _ => rfl, nofun, fun rest _ => ?_⟩
  rw [List.cons_append, List.append_assoc, List.singleton_append]
  cases h with
  | nil => exact ⟨1, rfl⟩
  | @cons text v texts vs h hs =>
      obtain ⟨fuel, hread⟩ := readElements_separated hblanks h hs rest
      refine ⟨fuel + 1, ?_⟩
      rw [separated_cons, List.append_assoc] at hread ⊢
      rw [Lib.readValue, h.starts]
      split
      · rename_i heq
        exact absurd heq (h.opens _ _)
      · rw [hread]
        rfl

/-- A member that is written. -/
def WrittenMember (text : List Char) (member : String × JsonValue) : Prop :=
  ∃ value, text = quoteAscii member.1 ++ ':' :: ' ' :: value ∧ Written value member.2

/-- Members are read up to the closing brace. -/
theorem readMembers_separated {texts : List (List Char)} {member : String × JsonValue}
    {members : List (String × JsonValue)} (h : WrittenMember text member)
    (hs : List.Forall₂ WrittenMember texts members) (rest : List Char) :
    ∃ fuel, readMembers fuel (separated [' '] (text :: texts) ++ '\x7d' :: rest) = some (member :: members, rest) := by
  have hclose : skipBlank ('\x7d' :: rest) = '\x7d' :: rest := rfl
  induction hs generalizing text member with
  | nil =>
      obtain ⟨value, rfl, h⟩ := h
      refine ⟨value.length + 1, ?_⟩
      have hends : EndsValue ('\x7d' :: rest) := endsValue_cons (.inr (.inr rfl))
      rw [separated_singleton, List.append_assoc, List.cons_append, List.cons_append,
        readMembers_value member.1 (h.starts _) (h.readValue hends le_rfl), hclose]
      rfl
  | @cons text' member' texts members h' hs ih =>
      obtain ⟨fuel, hread⟩ := ih h'
      obtain ⟨value, rfl, h⟩ := h
      obtain ⟨value', htext', -⟩ := h'
      have hstart : skipBlank (separated [' '] (text' :: texts) ++ '\x7d' :: rest)
          = separated [' '] (text' :: texts) ++ '\x7d' :: rest := by
        rw [separated_cons, htext', List.append_assoc, List.append_assoc]
        exact skipBlank_quoteAscii _ _
      generalize hcs : separated [' '] (text' :: texts) ++ '\x7d' :: rest = cs at hread hstart
      have hmore := ((enough_readers fuel).2.2 _ _ _ hread).2 (value.length + cs.length) (by omega)
      have hspace : skipBlank (' ' :: cs) = skipBlank cs := rfl
      have hcomma : skipBlank (',' :: ' ' :: cs) = ',' :: ' ' :: cs := rfl
      have hends : EndsValue (',' :: ' ' :: cs) := endsValue_cons (.inl rfl)
      refine ⟨value.length + cs.length + 1, ?_⟩
      rw [separated_cons_cons, List.append_assoc, List.append_assoc, List.cons_append, List.cons_append,
        List.cons_append, List.singleton_append, List.cons_append, hcs,
        readMembers_value member.1 (h.starts _) (h.readValue hends (Nat.le_add_right _ _)), hcomma]
      simp only [hspace, hstart, hmore, Option.map_some]

/-- A list of members is read as an object. -/
theorem written_dict {texts : List (List Char)} {members : List (String × JsonValue)}
    (h : List.Forall₂ WrittenMember texts members) :
    Written ('\x7b' :: (separated [' '] texts ++ ['\x7d'])) (.obj members) := by
  refine ⟨fun _ => rfl, nofun, fun rest _ => ?_⟩
  rw [List.cons_append, List.append_assoc, List.singleton_append]
  cases h with
  | nil => exact ⟨1, rfl⟩
  | @cons text member texts members h hs =>
      obtain ⟨fuel, hread⟩ := readMembers_separated h hs rest
      obtain ⟨value, rfl, -⟩ := h
      refine ⟨fuel + 1, ?_⟩
      rw [separated_cons, List.append_assoc, List.append_assoc] at hread ⊢
      rw [readValue_object, hread]
      rfl

/-! ## Writing -/

/-- A finite float, by the text that is read back as it stands. -/
structure FloatNumber extends FloatText where
  number : readNumber chars = some (chars, [])
deriving DecidableEq, Repr

inductive FloatData
  | finite (x : FloatNumber)
  | nan
  | infinity (negative : Bool)
deriving DecidableEq, Repr

namespace FloatData

def isFinite : FloatData → Bool
  | .finite _ => true
  | .nan => false
  | .infinity _ => false

/-- `float.__repr__`, with the names that JSON encoders have for what is not finite. -/
def chars : FloatData → List Char
  | .finite x => x.chars
  | .nan => "NaN".toList
  | .infinity false => "Infinity".toList
  | .infinity true => "-Infinity".toList

end FloatData

/-- What `json.dumps` is given: a dictionary has texts as its keys. -/
inductive JsonData
  | null
  | bool (b : Bool)
  | int (n : ℤ)
  | float (x : FloatData)
  | str (s : String)
  | list (items : List JsonData)
  | dict (members : List (String × JsonData))

/-- An integer that has a text. -/
def HasText (n : ℤ) : Prop := n.natAbs.repr.toList.length ≤ maxIntDigits

instance (n : ℤ) : Decidable (HasText n) := inferInstanceAs (Decidable (_ ≤ _))

theorem hasText_iff {n : ℤ} : HasText n ↔ n.natAbs < 10 ^ maxIntDigits := by
  have hpos : 0 < maxIntDigits := by decide
  rw [HasText, String.length_toList]
  generalize maxIntDigits = k at hpos ⊢
  exact Nat.length_repr_le_iff hpos

/-- `int.__repr__`; `none` is its `ValueError`. -/
def intRepr (n : ℤ) : Option (List Char) := if HasText n then some n.repr.toList else none

namespace JsonData

mutual

/-- `json.dumps`; `none` is a `ValueError`. -/
def dumps : JsonData → Option (List Char)
  | .null => some "null".toList
  | .bool true => some "true".toList
  | .bool false => some "false".toList
  | .int n => intRepr n
  | .float x => some x.chars
  | .str s => some (quoteAscii s)
  | .list items => (dumpsItems items).map fun texts => '[' :: (separated [' '] texts ++ [']'])
  | .dict members => (dumpsMembers members).map fun texts => '\x7b' :: (separated [' '] texts ++ ['\x7d'])

def dumpsItems : List JsonData → Option (List (List Char))
  | [] => some []
  | item :: items => do
      let text ← dumps item
      let texts ← dumpsItems items
      some (text :: texts)

def dumpsMembers : List (String × JsonData) → Option (List (List Char))
  | [] => some []
  | (key, value) :: members => do
      let text ← dumps value
      let texts ← dumpsMembers members
      some ((quoteAscii key ++ ':' :: ' ' :: text) :: texts)

end

mutual

/-- The value that a text of the data stands for. -/
def value : JsonData → JsonValue
  | .null => .null
  | .bool b => .bool b
  | .int n => .number n.repr.toList
  | .float x => .number x.chars
  | .str s => .str s
  | .list items => .arr (values items)
  | .dict members => .obj (memberValues members)

def values : List JsonData → List JsonValue
  | [] => []
  | item :: items => item.value :: values items

def memberValues : List (String × JsonData) → List (String × JsonValue)
  | [] => []
  | (key, d) :: members => (key, d.value) :: memberValues members

end

end JsonData

/-- A text that is read by its first character and its end. -/
theorem readScalar_literal {token : List Char} {v : JsonValue} (h : (token, v) ∈ literals) (rest : List Char) :
    readScalar (token ++ rest) = some (v, rest) := by
  simp only [literals, List.mem_cons, Prod.mk.injEq, List.not_mem_nil, or_false] at h
  rcases h with ⟨rfl, rfl⟩ | ⟨rfl, rfl⟩ | ⟨rfl, rfl⟩ | ⟨rfl, rfl⟩ | ⟨rfl, rfl⟩ | ⟨rfl, rfl⟩ <;> rfl

/-- A number is none of the tokens. -/
theorem readScalar_number (hends : EndsValue rest) (hnumeric : ∀ c ∈ text, isNumeric c = true)
    (h : readNumber text = some (text, [])) : readScalar (text ++ rest) = some (.number text, rest) := by
  have hnone : literals.find? (·.1.isPrefixOf (text ++ rest)) = none := by
    rw [List.find?_eq_none]
    intro l hl hprefix
    obtain ⟨tail, htail⟩ := List.isPrefixOf_iff_prefix.mp hprefix
    obtain ⟨c, cs, rfl⟩ : ∃ c cs, text = c :: cs := by
      refine List.exists_cons_of_ne_nil ?_
      rintro rfl
      cases h
    have hc := hnumeric c List.mem_cons_self
    have hlater : ∀ d ds, cs ++ rest = d :: ds → d ≠ 'I' := by
      rintro d ds hd rfl
      cases cs with
      | nil =>
          rw [List.nil_append] at hd
          have hlist := hends 'I' (by rw [hd]; rfl)
          simp at hlist
      | cons e es =>
          have he := hnumeric e (List.mem_cons_of_mem _ List.mem_cons_self)
          rw [(List.cons.inj hd).1] at he
          cases he
    simp only [literals, List.mem_cons, List.not_mem_nil, or_false] at hl
    rcases hl with rfl | rfl | rfl | rfl | rfl | rfl
    case inr.inr.inr.inr.inr =>
      -- the sign is numeric, but what follows it is not
      exact hlater 'I' _ (List.cons.inj htail).2.symm rfl
    all_goals
      rw [← (List.cons.inj htail).1] at hc
      cases hc
  rw [readScalar, hnone]
  dsimp only
  rw [readNumber_append hends h]
  rfl

/-- A number that is read to its end. -/
theorem written_number (hnumeric : ∀ c ∈ text, isNumeric c = true) (h : readNumber text = some (text, [])) :
    Written text (.number text) := by
  obtain ⟨c, cs, rfl⟩ : ∃ c cs, text = c :: cs := by
    refine List.exists_cons_of_ne_nil ?_
    rintro rfl
    cases h
  refine written_of_readScalar ?_ fun rest hends => readScalar_number hends hnumeric h
  intro hc
  have hnumeric := hnumeric c List.mem_cons_self
  simp only [notScalar, List.mem_cons, List.not_mem_nil, or_false] at hc
  rcases hc with rfl | rfl | rfl | rfl | rfl | rfl | rfl | rfl <;> cases hnumeric

theorem written_literal {token : List Char} {v : JsonValue} (h : (token, v) ∈ literals) : Written token v := by
  have hall : (literals.all fun l => l.1.head?.any fun c => c ∉ notScalar) = true := by decide
  obtain ⟨c, hhead, hc⟩ := (Option.any_eq_true _ _).mp (List.all_eq_true.mp hall _ h)
  obtain ⟨cs, rfl⟩ := List.head?_eq_some_iff.mp hhead
  exact written_of_readScalar (of_decide_eq_true hc) fun rest _ => readScalar_literal h rest

theorem written_int {n : ℤ} (h : HasText n) : Written n.repr.toList (.number n.repr.toList) :=
  written_number (fun _ hc => @Number.isNumeric_of_mem (.int n) _ hc) (readNumber_intRepr h)

theorem FloatData.written (x : FloatData) : Written x.chars (.number x.chars) := by
  cases x with
  | finite x => exact written_number (List.all_eq_true.mp x.numeric) x.number
  | nan => exact written_literal (.tail _ (.tail _ (.tail _ (.head _))))
  | infinity negative =>
      cases negative with
      | false => exact written_literal (.tail _ (.tail _ (.tail _ (.tail _ (.head _)))))
      | true => exact written_literal (.tail _ (.tail _ (.tail _ (.tail _ (.tail _ (.head _))))))

namespace JsonData

mutual

/-- What is written is read back. -/
theorem written_dumps {d : JsonData} {text : List Char} (h : d.dumps = some text) : Written text d.value := by
  match d with
  | .null =>
      obtain rfl := Option.some.inj h
      exact written_literal (.head _)
  | .bool true =>
      obtain rfl := Option.some.inj h
      exact written_literal (.tail _ (.head _))
  | .bool false =>
      obtain rfl := Option.some.inj h
      exact written_literal (.tail _ (.tail _ (.head _)))
  | .int n =>
      rw [dumps, intRepr] at h
      split_ifs at h with hn
      obtain rfl := Option.some.inj h
      exact written_int hn
  | .float x =>
      obtain rfl := Option.some.inj h
      exact x.written
  | .str s =>
      obtain rfl := Option.some.inj h
      exact written_quoteAscii s
  | .list items =>
      rw [dumps, Option.map_eq_some_iff] at h
      obtain ⟨texts, htexts, rfl⟩ := h
      exact written_list (fun _ => rfl) (written_dumpsItems htexts)
  | .dict members =>
      rw [dumps, Option.map_eq_some_iff] at h
      obtain ⟨texts, htexts, rfl⟩ := h
      exact written_dict (written_dumpsMembers htexts)

theorem written_dumpsItems {items : List JsonData} {texts : List (List Char)} (h : dumpsItems items = some texts) :
    List.Forall₂ Written texts (values items) := by
  match items with
  | [] =>
      obtain rfl := Option.some.inj h
      exact .nil
  | item :: items =>
      simp only [dumpsItems, Option.bind_eq_bind, Option.bind_eq_some_iff] at h
      obtain ⟨text, htext, texts, htexts, h⟩ := h
      obtain rfl := Option.some.inj h
      exact .cons (written_dumps htext) (written_dumpsItems htexts)

theorem written_dumpsMembers {members : List (String × JsonData)} {texts : List (List Char)}
    (h : dumpsMembers members = some texts) : List.Forall₂ WrittenMember texts (memberValues members) := by
  match members with
  | [] =>
      obtain rfl := Option.some.inj h
      exact .nil
  | (key, d) :: members =>
      simp only [dumpsMembers, Option.bind_eq_bind, Option.bind_eq_some_iff] at h
      obtain ⟨text, htext, texts, htexts, h⟩ := h
      obtain rfl := Option.some.inj h
      exact .cons ⟨text, rfl, written_dumps htext⟩ (written_dumpsMembers htexts)

end

mutual

/-- What a value is made of: the data in it that are neither lists nor dictionaries. -/
def scalars : JsonData → List JsonData
  | .null => [.null]
  | .bool b => [.bool b]
  | .int n => [.int n]
  | .float x => [.float x]
  | .str s => [.str s]
  | .list items => itemScalars items
  | .dict members => memberScalars members

def itemScalars : List JsonData → List JsonData
  | [] => []
  | item :: items => item.scalars ++ itemScalars items

def memberScalars : List (String × JsonData) → List JsonData
  | [] => []
  | (_, d) :: members => d.scalars ++ memberScalars members

end

theorem values_eq_map (items : List JsonData) : values items = items.map value := by
  induction items with
  | nil => rfl
  | cons item items ih => rw [values, List.map_cons, ih]

theorem itemScalars_eq_flatMap (items : List JsonData) : itemScalars items = items.flatMap scalars := by
  induction items with
  | nil => rfl
  | cons item items ih => rw [itemScalars, List.flatMap_cons, ih]

/-- An integer has a text. -/
def Fits : JsonData → Prop
  | .int n => HasText n
  | _ => True

/-- A float is finite. -/
def Finite : JsonData → Prop
  | .float x => x.isFinite = true
  | _ => True

mutual

/-- Only an integer of too many digits has no text. -/
theorem isSome_dumps {d : JsonData} : d.dumps.isSome = true ↔ ∀ s ∈ d.scalars, s.Fits := by
  match d with
  | .null | .bool true | .bool false | .float _ | .str _ => simp [dumps, scalars, Fits]
  | .int n =>
      rw [dumps, scalars, intRepr, List.forall_mem_singleton, Fits]
      split_ifs with hn <;> simp [hn]
  | .list items => rw [dumps, scalars, Option.isSome_map, isSome_dumpsItems]
  | .dict members => rw [dumps, scalars, Option.isSome_map, isSome_dumpsMembers]

theorem isSome_dumpsItems {items : List JsonData} :
    (dumpsItems items).isSome = true ↔ ∀ s ∈ itemScalars items, s.Fits := by
  match items with
  | [] => simp [dumpsItems, itemScalars]
  | item :: items =>
      rw [itemScalars, List.forall_mem_append, ← isSome_dumps, ← isSome_dumpsItems]
      simp only [dumpsItems, Option.bind_eq_bind]
      cases item.dumps <;> cases dumpsItems items <;> simp

theorem isSome_dumpsMembers {members : List (String × JsonData)} :
    (dumpsMembers members).isSome = true ↔ ∀ s ∈ memberScalars members, s.Fits := by
  match members with
  | [] => simp [dumpsMembers, memberScalars]
  | (key, d) :: members =>
      rw [memberScalars, List.forall_mem_append, ← isSome_dumps, ← isSome_dumpsMembers]
      simp only [dumpsMembers, Option.bind_eq_bind]
      cases d.dumps <;> cases dumpsMembers members <;> simp

end

end JsonData

/-! ## Documents -/

namespace JsonValue

mutual

/-- None of the names that JSON has no numbers for. -/
def standard : JsonValue → Bool
  | .number text => text ∉ ["NaN".toList, "Infinity".toList, "-Infinity".toList]
  | .arr elements => standardElements elements
  | .obj members => standardMembers members
  | _ => true

def standardElements : List JsonValue → Bool
  | [] => true
  | v :: elements => v.standard && standardElements elements

def standardMembers : List (String × JsonValue) → Bool
  | [] => true
  | (_, v) :: members => v.standard && standardMembers members

end

theorem standard_number (hnumeric : ∀ c ∈ text, isNumeric c = true) : (JsonValue.number text).standard = true := by
  rw [standard, decide_eq_true_eq]
  intro hmem
  have hall :
      (["NaN".toList, "Infinity".toList, "-Infinity".toList].all fun cs => cs.any fun c => !isNumeric c) = true := by
    decide
  obtain ⟨c, hc, hnot⟩ := List.any_eq_true.mp (List.all_eq_true.mp hall _ hmem)
  rw [hnumeric c hc] at hnot
  cases hnot

end JsonValue

namespace JsonData

mutual

/-- The names stand for the floats that are not finite. -/
theorem standard_value {d : JsonData} : d.value.standard = true ↔ ∀ s ∈ d.scalars, s.Finite := by
  match d with
  | .null | .bool _ | .str _ => simp [value, JsonValue.standard, scalars, Finite]
  | .int n =>
      have hnumeric : ∀ c ∈ n.repr.toList, isNumeric c = true := fun _ hc => @Number.isNumeric_of_mem (.int n) _ hc
      rw [value, scalars, List.forall_mem_singleton]
      exact iff_of_true (JsonValue.standard_number hnumeric) trivial
  | .float (.finite x) =>
      have hnumeric : ∀ c ∈ x.chars, isNumeric c = true := List.all_eq_true.mp x.numeric
      rw [value, scalars, List.forall_mem_singleton]
      exact iff_of_true (JsonValue.standard_number hnumeric) rfl
  | .float .nan | .float (.infinity false) | .float (.infinity true) =>
      rw [value, scalars, List.forall_mem_singleton]
      exact iff_of_false (by decide) Bool.false_ne_true
  | .list items => rw [value, JsonValue.standard, scalars, standard_values]
  | .dict members => rw [value, JsonValue.standard, scalars, standard_memberValues]

theorem standard_values {items : List JsonData} :
    JsonValue.standardElements (values items) = true ↔ ∀ s ∈ itemScalars items, s.Finite := by
  match items with
  | [] => simp [values, JsonValue.standardElements, itemScalars]
  | item :: items =>
      rw [values, JsonValue.standardElements, itemScalars, Bool.and_eq_true, List.forall_mem_append, standard_value,
        standard_values]

theorem standard_memberValues {members : List (String × JsonData)} :
    JsonValue.standardMembers (memberValues members) = true ↔ ∀ s ∈ memberScalars members, s.Finite := by
  match members with
  | [] => simp [memberValues, JsonValue.standardMembers, memberScalars]
  | (key, d) :: members =>
      rw [memberValues, JsonValue.standardMembers, memberScalars, Bool.and_eq_true, List.forall_mem_append,
        standard_value, standard_memberValues]

end

end JsonData

/-- The value of a JSON document; `none` when the text is none. -/
def document (text : String) : Option JsonValue := (loads text).filter JsonValue.standard

/-- A written text is a document when its value has no name for a number in it. -/
theorem Written.document {v v' : JsonValue} (h : Written text v) :
    document (String.ofList text) = some v' ↔ v = v' ∧ v.standard = true := by
  rw [Lib.document, h.loads, Option.filter_eq_some_iff, Option.some.injEq]
  constructor
  · rintro ⟨rfl, hstandard⟩
    exact ⟨rfl, hstandard⟩
  · rintro ⟨rfl, hstandard⟩
    exact ⟨rfl, hstandard⟩

end ApexChainx.Lib
