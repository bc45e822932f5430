import Mathlib

/-!
# JSON values and their text

JSON values as a program holds them after decoding, and the text the compact encoder writes: no blanks,
characters outside ASCII written as they are, the control characters, the quote and the backslash
escaped. The text determines the value (`text_injective`). The proof reads two equal texts from the left:
a string ends at its first quote that is not escaped, a number at the first character that no number
contains, and an array or object closes with a bracket of its own.

An object is the list of its members in the order in which they were inserted; as a value it does not
depend on that order. `sortKeys` puts the members of every object into the order of their keys.
-/

namespace ApexChainx.Lib

/-! ## Numbers -/

/-- The characters of the texts of numbers. -/
def isNumeric (c : Char) : Bool := c.isDigit || c = '-' || c = '+' || c = '.' || c = 'e'

/-- A finite float, given by its shortest decimal text. The text has a point or an exponent, which the
text of an integer has not. -/
structure FloatText where
  chars : List Char
  numeric : chars.all isNumeric = true
  marked : (chars.any fun c => c = '.' || c = 'e') = true
deriving DecidableEq, Repr

inductive Number
  | int (n : ℤ)
  | float (f : FloatText)
deriving DecidableEq, Repr

def Number.chars : Number → List Char
  | .int n => n.repr.toList
  | .float f => f.chars

theorem isDigit_of_mem_natRepr {n : ℕ} {c : Char} (hc : c ∈ n.repr.toList) : c.isDigit = true := by
  rw [Nat.repr, String.toList_ofList] at hc
  exact Nat.isDigit_of_mem_toDigits (by decide : 0 < 10) (by decide) hc

theorem isDigit_of_mem_intRepr {n : ℤ} {c : Char} (hc : c ∈ n.repr.toList) :
    c.isDigit = true ∨ c = '-' := by
  rw [Int.repr_eq_if] at hc
  split at hc
  · exact .inl (isDigit_of_mem_natRepr hc)
  · rw [String.toList_append, List.mem_append] at hc
    rcases hc with hsign | hdigit
    · exact .inr (by simpa using hsign)
    · exact .inl (isDigit_of_mem_natRepr hdigit)

theorem Number.isNumeric_of_mem {n : Number} {c : Char} (hc : c ∈ n.chars) : isNumeric c = true := by
  cases n with
  | int n =>
      rcases isDigit_of_mem_intRepr hc with hdigit | rfl
      · simp [isNumeric, hdigit]
      · decide
  | float f => exact List.all_eq_true.mp f.numeric c hc

theorem Number.chars_ne_nil (n : Number) : n.chars ≠ [] := by
  intro h
  cases n with
  | int n =>
      rw [Number.chars, Int.repr_eq_if] at h
      split at h <;> simp at h
  | float f =>
      have hmarked := f.marked
      rw [show f.chars = [] from h] at hmarked
      cases hmarked

theorem Number.int_ne_float {n : ℤ} {f : FloatText} : Number.chars (.int n) ≠ f.chars := by
  intro h
  obtain ⟨c, hc, hmark⟩ := List.any_eq_true.mp f.marked
  rw [← h] at hc
  rcases isDigit_of_mem_intRepr hc with hdigit | rfl
  · simp only [Bool.or_eq_true, decide_eq_true_eq] at hmark
    rcases hmark with rfl | rfl <;> cases hdigit
  · cases hmark

theorem Number.chars_injective {m n : Number} (h : m.chars = n.chars) : m = n := by
  cases m with
  | int a =>
      cases n with
      | int b => exact congrArg Number.int (Int.repr_injective (String.toList_injective h))
      | float g => exact absurd h Number.int_ne_float
  | float f =>
      cases n with
      | int b => exact absurd h.symm Number.int_ne_float
      | float g =>
          obtain ⟨f, _, _⟩ := f
          obtain ⟨g, _, _⟩ := g
          obtain rfl : f = g := h
          rfl

/-- The rest of a text after a number: it does not go on with a character of a number. -/
def Stops (r : List Char) : Prop := ∀ c ∈ r.head?, isNumeric c = false

theorem stops_nil : Stops [] := by
  intro c hc
  cases hc

theorem stops_cons {c : Char} {r : List Char} (hc : isNumeric c = false) : Stops (c :: r) := by
  intro d hd
  obtain rfl := Option.some.inj hd
  exact hc

/-- Two numbers in front of texts that do not go on with a number. -/
theorem numeric_append_inj {a b r r' : List Char} (ha : ∀ c ∈ a, isNumeric c = true)
    (hb : ∀ c ∈ b, isNumeric c = true) (hr : Stops r) (hr' : Stops r') (h : a ++ r = b ++ r') :
    a = b ∧ r = r' := by
  induction a generalizing b with
  | nil =>
      cases b with
      | nil => exact ⟨rfl, h⟩
      | cons d b =>
          have hd := hb d List.mem_cons_self
          rw [List.nil_append] at h
          rw [hr d (by rw [h]; rfl)] at hd
          cases hd
  | cons c a ih =>
      cases b with
      | nil =>
          have hc := ha c List.mem_cons_self
          rw [List.nil_append] at h
          rw [hr' c (by rw [← h]; rfl)] at hc
          cases hc
      | cons d b =>
          obtain ⟨rfl, htail⟩ := List.cons.inj h
          obtain ⟨rfl, hrest⟩ := ih (fun x hx => ha x (List.mem_cons_of_mem _ hx))
            (fun x hx => hb x (List.mem_cons_of_mem _ hx)) htail
          exact ⟨rfl, hrest⟩

/-! ## Strings -/

/-- The lower-case hexadecimal digit. -/
def hexDigit (n : ℕ) : Char := "0123456789abcdef".toList.getD n '0'

/-- How a character is written inside a string. -/
def escape (c : Char) : List Char :=
  if c = '"' then ['\\', '"']
  else if c = '\\' then ['\\', '\\']
  else if c = '\n' then ['\\', 'n']
  else if c = '\r' then ['\\', 'r']
  else if c = '\t' then ['\\', 't']
  else if c = '\x0c' then ['\\', 'f']
  else if c = '\x08' then ['\\', 'b']
  else if c.toNat < 32 then
    ['\\', 'u', '0', '0', hexDigit (c.toNat / 16), hexDigit (c.toNat % 16)]
  else [c]

/-- The value of a hexadecimal digit. -/
def hexValue (c : Char) : ℕ := "0123456789abcdef".toList.idxOf c

/-- Read one written character. -/
def unescape : List Char → Option (Char × List Char)
  | '\\' :: '"' :: r => some ('"', r)
  | '\\' :: '\\' :: r => some ('\\', r)
  | '\\' :: 'n' :: r => some ('\n', r)
  | '\\' :: 'r' :: r => some ('\r', r)
  | '\\' :: 't' :: r => some ('\t', r)
  | '\\' :: 'f' :: r => some ('\x0c', r)
  | '\\' :: 'b' :: r => some ('\x08', r)
  | '\\' :: 'u' :: _ :: _ :: a :: b :: r => some (Char.ofNat (16 * hexValue a + hexValue b), r)
  | c :: r => some (c, r)
  | [] => none

theorem hexValue_hexDigit {n : ℕ} (h : n < 16) : hexValue (hexDigit n) = n := by
  have hall : ∀ n < 16, hexValue (hexDigit n) = n := by decide
  exact hall n h

/-- What is written is read back, whatever follows it. -/
theorem unescape_escape (c : Char) (r : List Char) : unescape (escape c ++ r) = some (c, r) := by
  unfold escape
  split_ifs with h₁ h₂ h₃ h₄ h₅ h₆ h₇ h₈
  · rw [h₁]; rfl
  · rw [h₂]; rfl
  · rw [h₃]; rfl
  · rw [h₄]; rfl
  · rw [h₅]; rfl
  · rw [h₆]; rfl
  · rw [h₇]; rfl
  · have hvalue : 16 * hexValue (hexDigit (c.toNat / 16)) + hexValue (hexDigit (c.toNat % 16))
        = c.toNat := by
      rw [hexValue_hexDigit (by omega), hexValue_hexDigit (by omega)]
      omega
    simp only [List.cons_append, List.nil_append, unescape, hvalue, Char.ofNat_toNat]
  · simp only [List.cons_append, List.nil_append]
    unfold unescape
    split <;> simp_all

/-- No written character starts with a quote. -/
theorem escape_ne_quote (c : Char) (r r' : List Char) : escape c ++ r ≠ '"' :: r' := by
  intro h
  unfold escape at h
  split_ifs at h <;> simp_all

theorem one_le_length_escape (c : Char) : 1 ≤ (escape c).length := by
  unfold escape
  split_ifs <;> simp

/-- A text of which every character is written does not get shorter. -/
theorem length_le_flatMap {write : Char → List Char} (h : ∀ c, 1 ≤ (write c).length) (cs : List Char) :
    cs.length ≤ (cs.flatMap write).length := by
  rw [List.length_flatMap]
  calc cs.length
      = (cs.map fun c => (write c).length).length := (List.length_map _).symm
    _ ≤ (cs.map fun c => (write c).length).sum := by
        refine List.length_le_sum_of_one_le _ fun n hn => ?_
        obtain ⟨c, -, rfl⟩ := List.mem_map.mp hn
        exact h c

/-- A written string ends at its closing quote. -/
theorem escape_flatMap_inj {a b r r' : List Char}
    (h : a.flatMap escape ++ '"' :: r = b.flatMap escape ++ '"' :: r') : a = b ∧ r = r' := by
  induction a generalizing b with
  | nil =>
      cases b with
      | nil => exact ⟨rfl, (List.cons.inj h).2⟩
      | cons d b =>
          rw [List.flatMap_cons, List.append_assoc] at h
          exact absurd h.symm (escape_ne_quote d _ _)
  | cons c a ih =>
      cases b with
      | nil =>
          rw [List.flatMap_cons, List.append_assoc] at h
          exact absurd h (escape_ne_quote c _ _)
      | cons d b =>
          rw [List.flatMap_cons, List.flatMap_cons, List.append_assoc, List.append_assoc] at h
          have hread := congrArg unescape h
          rw [unescape_escape, unescape_escape, Option.some.injEq, Prod.mk.injEq] at hread
          obtain ⟨rfl, hrest⟩ := hread
          obtain ⟨rfl, hr⟩ := ih hrest
          exact ⟨rfl, hr⟩

/-- A string as it is written. -/
def quote (s : String) : List Char := '"' :: (s.toList.flatMap escape ++ ['"'])

theorem quote_append_inj {s s' : String} {r r' : List Char} (h : quote s ++ r = quote s' ++ r') :
    s = s' ∧ r = r' := by
  unfold quote at h
  simp only [List.cons_append, List.append_assoc, List.nil_append] at h
  obtain ⟨hs, hr⟩ := escape_flatMap_inj (List.cons.inj h).2
  exact ⟨String.toList_injective hs, hr⟩

/-! ## Values -/

/-- A JSON value. -/
inductive Json
  | null
  | bool (b : Bool)
  | num (n : Number)
  | str (s : String)
  | arr (elems : List Json)
  | obj (members : List (String × Json))
deriving Repr

namespace Json

mutual

/-- The characters of a value. -/
def chars : Json → List Char
  | .null => ['n', 'u', 'l', 'l']
  | .bool true => ['t', 'r', 'u', 'e']
  | .bool false => ['f', 'a', 'l', 's', 'e']
  | .num n => n.chars
  | .str s => quote s
  | .arr [] => ['[', ']']
  | .arr (x :: xs) => '[' :: (x.chars ++ restChars xs)
  | .obj [] => ['\x7b', '\x7d']
  | .obj ((k, v) :: ms) => '\x7b' :: (quote k ++ ':' :: (v.chars ++ memberChars ms))

/-- The elements after the first one, with the closing bracket. -/
def restChars : List Json → List Char
  | [] => [']']
  | x :: xs => ',' :: (x.chars ++ restChars xs)

/-- The members after the first one, with the closing brace. -/
def memberChars : List (String × Json) → List Char
  | [] => ['\x7d']
  | (k, v) :: ms => ',' :: (quote k ++ ':' :: (v.chars ++ memberChars ms))

end

/-- The text of a value. -/
def text (j : Json) : String := String.ofList j.chars

/-- Which kind of value a text is, by its first character; none starts with any other character. -/
def kindOf (c : Char) : ℕ :=
  if c = 'n' then 0 else if c = 't' then 1 else if c = 'f' then 2 else if isNumeric c then 3
  else if c = '"' then 4 else if c = '[' then 5 else if c = '\x7b' then 6 else 7

def kind : Json → ℕ
  | .null => 0
  | .bool true => 1
  | .bool false => 2
  | .num _ => 3
  | .str _ => 4
  | .arr _ => 5
  | .obj _ => 6

theorem kindOf_numeric {c : Char} (h : isNumeric c = true) : kindOf c = 3 := by
  unfold kindOf
  split_ifs with h₁ h₂ h₃
  · rw [h₁] at h
    cases h
  · rw [h₂] at h
    cases h
  · rw [h₃] at h
    cases h
  · rfl

/-- The first character of a text tells the kind of the value. -/
theorem chars_head (j : Json) : ∃ c cs, j.chars = c :: cs ∧ kindOf c = j.kind := by
  match j with
  | .null => exact ⟨_, _, rfl, rfl⟩
  | .bool true => exact ⟨_, _, rfl, rfl⟩
  | .bool false => exact ⟨_, _, rfl, rfl⟩
  | .num n =>
      obtain ⟨c, cs, hcs⟩ := List.exists_cons_of_ne_nil n.chars_ne_nil
      have hc : c ∈ n.chars := by
        rw [hcs]
        exact List.mem_cons_self
      exact ⟨c, cs, hcs, kindOf_numeric (Number.isNumeric_of_mem hc)⟩
  | .str s => exact ⟨_, _, rfl, rfl⟩
  | .arr [] => exact ⟨_, _, rfl, rfl⟩
  | .arr (x :: xs) => exact ⟨_, _, rfl, rfl⟩
  | .obj [] => exact ⟨_, _, rfl, rfl⟩
  | .obj ((k, v) :: ms) => exact ⟨_, _, rfl, rfl⟩

/-- Values whose texts start two equal texts are of the same kind. -/
theorem kind_eq_of_append {j j' : Json} {r r' : List Char} (h : j.chars ++ r = j'.chars ++ r') :
    j.kind = j'.kind := by
  obtain ⟨c, cs, hj, hc⟩ := chars_head j
  obtain ⟨c', cs', hj', hc'⟩ := chars_head j'
  rw [hj, hj', List.cons_append, List.cons_append] at h
  rw [← hc, ← hc', (List.cons.inj h).1]

/-- No text starts with a closing bracket. -/
theorem chars_ne_bracket (j : Json) (r r' : List Char) : j.chars ++ r ≠ ']' :: r' := by
  intro h
  obtain ⟨c, cs, hj, hc⟩ := chars_head j
  rw [hj, List.cons_append] at h
  rw [(List.cons.inj h).1] at hc
  match j with
  | .null | .bool true | .bool false | .num _ | .str _ | .arr _ | .obj _ => cases hc

theorem stops_restChars (xs : List Json) (r : List Char) : Stops (restChars xs ++ r) := by
  cases xs with
  | nil => exact stops_cons (by decide)
  | cons x xs => exact stops_cons (by decide)

theorem stops_memberChars (ms : List (String × Json)) (r : List Char) :
    Stops (memberChars ms ++ r) := by
  cases ms with
  | nil => exact stops_cons (by decide)
  | cons m ms => exact stops_cons (by decide)

mutual

/-- A value's text can be told from what follows it, as long as that is not more of a number. -/
theorem chars_append_inj (j j' : Json) {r r' : List Char} (hr : Stops r) (hr' : Stops r')
    (h : j.chars ++ r = j'.chars ++ r') : j = j' ∧ r = r' := by
  -- the first character tells the kind, so only pairs of one kind are left to match
  have hkind := kind_eq_of_append h
  match j, j' with
  | .null, .null => exact ⟨rfl, List.append_cancel_left h⟩
  | .bool true, .bool true => exact ⟨rfl, List.append_cancel_left h⟩
  | .bool false, .bool false => exact ⟨rfl, List.append_cancel_left h⟩
  | .num m, .num n =>
      have hm : ∀ c ∈ m.chars, isNumeric c = true := fun c => Number.isNumeric_of_mem
      have hn : ∀ c ∈ n.chars, isNumeric c = true := fun c => Number.isNumeric_of_mem
      obtain ⟨hchars, hrest⟩ := numeric_append_inj hm hn hr hr' h
      exact ⟨congrArg Json.num (Number.chars_injective hchars), hrest⟩
  | .str s, .str s' =>
      obtain ⟨rfl, hrest⟩ := quote_append_inj h
      exact ⟨rfl, hrest⟩
  | .arr [], .arr [] => exact ⟨rfl, List.append_cancel_left h⟩
  | .arr [], .arr (x :: xs) =>
      simp only [chars, List.cons_append, List.append_assoc, List.nil_append] at h
      exact absurd (List.cons.inj h).2.symm (chars_ne_bracket x _ _)
  | .arr (x :: xs), .arr [] =>
      simp only [chars, List.cons_append, List.append_assoc, List.nil_append] at h
      exact absurd (List.cons.inj h).2 (chars_ne_bracket x _ _)
  | .arr (x :: xs), .arr (x' :: xs') =>
      simp only [chars, List.cons_append, List.append_assoc] at h
      obtain ⟨rfl, hxs⟩ := chars_append_inj x x' (stops_restChars xs r) (stops_restChars xs' r')
        (List.cons.inj h).2
      obtain ⟨rfl, hrest⟩ := restChars_append_inj xs xs' hxs
      exact ⟨rfl, hrest⟩
  | .obj [], .obj [] => exact ⟨rfl, List.append_cancel_left h⟩
  | .obj [], .obj ((k, v) :: ms) =>
      simp only [chars, List.cons_append, List.append_assoc, List.nil_append, quote] at h
      cases (List.cons.inj (List.cons.inj h).2).1
  | .obj ((k, v) :: ms), .obj [] =>
      simp only [chars, List.cons_append, List.append_assoc, List.nil_append, quote] at h
      cases (List.cons.inj (List.cons.inj h).2).1
  | .obj ((k, v) :: ms), .obj ((k', v') :: ms') =>
      simp only [chars, List.cons_append, List.append_assoc] at h
      obtain ⟨rfl, hcolon⟩ := quote_append_inj (List.cons.inj h).2
      obtain ⟨rfl, hms⟩ := chars_append_inj v v' (stops_memberChars ms r)
        (stops_memberChars ms' r') (List.cons.inj hcolon).2
      obtain ⟨rfl, hrest⟩ := memberChars_append_inj ms ms' hms
      exact ⟨rfl, hrest⟩

theorem restChars_append_inj (xs xs' : List Json) {r r' : List Char}
    (h : restChars xs ++ r = restChars xs' ++ r') : xs = xs' ∧ r = r' := by
  match xs, xs' with
  | [], [] => exact ⟨rfl, List.append_cancel_left h⟩
  | [], x :: xs =>
      simp only [restChars, List.cons_append] at h
      cases (List.cons.inj h).1
  | x :: xs, [] =>
      simp only [restChars, List.cons_append] at h
      cases (List.cons.inj h).1
  | x :: xs, x' :: xs' =>
      simp only [restChars, List.cons_append, List.append_assoc] at h
      obtain ⟨rfl, hxs⟩ := chars_append_inj x x' (stops_restChars xs r) (stops_restChars xs' r')
        (List.cons.inj h).2
      obtain ⟨rfl, hrest⟩ := restChars_append_inj xs xs' hxs
      exact ⟨rfl, hrest⟩

theorem memberChars_append_inj (ms ms' : List (String × Json)) {r r' : List Char}
    (h : memberChars ms ++ r = memberChars ms' ++ r') : ms = ms' ∧ r = r' := by
  match ms, ms' with
  | [], [] => exact ⟨rfl, List.append_cancel_left h⟩
  | [], (k, v) :: ms =>
      simp only [memberChars, List.cons_append] at h
      cases (List.cons.inj h).1
  | (k, v) :: ms, [] =>
      simp only [memberChars, List.cons_append] at h
      cases (List.cons.inj h).1
  | (k, v) :: ms, (k', v') :: ms' =>
      simp only [memberChars, List.cons_append, List.append_assoc] at h
      obtain ⟨rfl, hcolon⟩ := quote_append_inj (List.cons.inj h).2
      obtain ⟨rfl, hms⟩ := chars_append_inj v v' (stops_memberChars ms r)
        (stops_memberChars ms' r') (List.cons.inj hcolon).2
      obtain ⟨rfl, hrest⟩ := memberChars_append_inj ms ms' hms
      exact ⟨rfl, hrest⟩

end

/-- The text determines the value. -/
theorem text_injective {j j' : Json} (h : j.text = j'.text) : j = j' := by
  have hchars : j.chars ++ [] = j'.chars ++ [] := by
    rw [List.append_nil, List.append_nil]
    exact String.ofList_injective h
  exact (chars_append_inj j j' stops_nil stops_nil hchars).1

/-! ## Key order -/

mutual

/-- The value with the members of every object in the order of their keys. -/
def sortKeys : Json → Json
  | .null => .null
  | .bool b => .bool b
  | .num n => .num n
  | .str s => .str s
  | .arr xs => .arr (sortElems xs)
  | .obj ms => .obj ((sortMembers ms).insertionSort fun a b => a.1 ≤ b.1)

def sortElems : List Json → List Json
  | [] => []
  | x :: xs => x.sortKeys :: sortElems xs

def sortMembers : List (String × Json) → List (String × Json)
  | [] => []
  | (k, v) :: ms => (k, v.sortKeys) :: sortMembers ms

end

theorem mem_sortMembers {ms : List (String × Json)} {k : String} {w : Json} :
    (k, w) ∈ sortMembers ms ↔ ∃ v, (k, v) ∈ ms ∧ w = v.sortKeys := by
  induction ms with
  | nil => simp [sortMembers]
  | cons m ms ih =>
      obtain ⟨l, v⟩ := m
      simp only [sortMembers, List.mem_cons, Prod.mk.injEq, ih]
      constructor
      · rintro (⟨rfl, rfl⟩ | ⟨u, hu, rfl⟩)
        · exact ⟨v, .inl ⟨rfl, rfl⟩, rfl⟩
        · exact ⟨u, .inr hu, rfl⟩
      · rintro ⟨u, ⟨rfl, rfl⟩ | hu, rfl⟩
        · exact .inl ⟨rfl, rfl⟩
        · exact .inr ⟨u, hu, rfl⟩

/-- Objects that are equal up to the order of their members agree on a key that is there once. -/
theorem member_eq_of_sortKeys {ms ms' : List (String × Json)} {k : String} {v w : Json}
    (h : (Json.obj ms).sortKeys = (Json.obj ms').sortKeys) (hv : (k, v) ∈ ms)
    (hw : ∀ u, (k, u) ∈ ms' → u = w) : v.sortKeys = w.sortKeys := by
  simp only [sortKeys, Json.obj.injEq] at h
  have hmem : (k, v.sortKeys) ∈ (sortMembers ms).insertionSort fun a b => a.1 ≤ b.1 :=
    List.mem_insertionSort _ |>.mpr (mem_sortMembers.mpr ⟨v, hv, rfl⟩)
  rw [h, List.mem_insertionSort, mem_sortMembers] at hmem
  obtain ⟨u, hu, heq⟩ := hmem
  rw [heq, hw u hu]

end Json

end ApexChainx.Lib
