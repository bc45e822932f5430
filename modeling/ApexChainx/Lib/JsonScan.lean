import ApexChainx.Lib.Json

/-!
# Where a JSON text can end

`scan` follows a text from the left and keeps whether it stands inside a string and how deep the open
brackets are. A whole JSON text brings it back to where it started (`scan_chars`), and takes it from
inside a string to inside a string, or fails (`scan_chars_inString`). So what follows a colon in a JSON
text is never a JSON text: the brackets around the colon are still open, or its string is
(`chars_ne_append_colon`).
-/

namespace ApexChainx.Lib

/-- Outside of a string, inside one, or after a backslash, with the number of open brackets. -/
inductive Scan
  | outside (depth : ℕ)
  | inString (depth : ℕ)
  | escaped (depth : ℕ)
deriving DecidableEq, Repr

/-- One character. A backslash or a closing bracket has no place at the top, nor has a colon. -/
def scanChar : Scan → Char → Option Scan
  | .outside d, c =>
      if c = '"' then some (.inString d)
      else if c = '\\' then none
      else if c = '[' ∨ c = '\x7b' then some (.outside (d + 1))
      else if d = 0 then if c = ']' ∨ c = '\x7d' ∨ c = ':' then none else some (.outside 0)
      else if c = ']' ∨ c = '\x7d' then some (.outside (d - 1))
      else some (.outside d)
  | .inString d, c =>
      if c = '"' then some (.outside d)
      else if c = '\\' then some (.escaped d)
      else some (.inString d)
  | .escaped d, _ => some (.inString d)

/-- A whole text. -/
def scan : Scan → List Char → Option Scan
  | st, [] => some st
  | st, c :: cs => (scanChar st c).bind fun st => scan st cs

theorem scan_append (st : Scan) (a b : List Char) :
    scan st (a ++ b) = (scan st a).bind fun st => scan st b := by
  induction a generalizing st with
  | nil => rfl
  | cons c a ih =>
      rw [List.cons_append, scan, scan, Option.bind_assoc]
      exact Option.bind_congr fun st _ => ih st

/-! ## From outside of a string -/

/-- No hexadecimal digit is a quote or a backslash. -/
theorem hexDigit_plain (n : ℕ) : hexDigit n ≠ '"' ∧ hexDigit n ≠ '\\' := by
  unfold hexDigit
  rcases Nat.lt_or_ge n 16 with h | h
  · have hall : ∀ n < 16, "0123456789abcdef".toList.getD n '0' ≠ '"' ∧
        "0123456789abcdef".toList.getD n '0' ≠ '\\' := by decide
    exact hall n h
  · rw [List.getD_eq_default _ _ h]
    decide

/-- A written character leaves the scan inside its string. -/
theorem scan_escape (d : ℕ) (c : Char) : scan (.inString d) (escape c) = some (.inString d) := by
  unfold escape
  split_ifs with h₁ h₂ h₃ h₄ h₅ h₆ h₇ h₈
  · rfl
  · rfl
  · rfl
  · rfl
  · rfl
  · rfl
  · rfl
  · simp [scan, scanChar, hexDigit_plain]
  · simp [scan, scanChar, h₁, h₂]

theorem scan_flatMap_escape (d : ℕ) (cs : List Char) :
    scan (.inString d) (cs.flatMap escape) = some (.inString d) := by
  induction cs with
  | nil => rfl
  | cons c cs ih => rw [List.flatMap_cons, scan_append, scan_escape, Option.bind_some, ih]

theorem scan_quote (d : ℕ) (s : String) : scan (.outside d) (quote s) = some (.outside d) := by
  unfold quote
  rw [scan, show scanChar (.outside d) '"' = some (.inString d) from rfl, Option.bind_some, scan_append,
    scan_flatMap_escape, Option.bind_some]
  rfl

/-- A character of a number, like a comma, changes nothing. -/
theorem scanChar_numeric (d : ℕ) {c : Char} (h : isNumeric c = true) :
    scanChar (.outside d) c = some (.outside d) := by
  have hne : ∀ x : Char, isNumeric x = false → c ≠ x := by
    rintro x hx rfl
    rw [h] at hx
    cases hx
  unfold scanChar
  simp only [hne '"' (by decide), hne '\\' (by decide), hne '[' (by decide), hne '\x7b' (by decide),
    hne ']' (by decide), hne '\x7d' (by decide), hne ':' (by decide), or_self, if_false]
  split_ifs with hd
  · rw [hd]
  · rfl

theorem scan_numeric (d : ℕ) {cs : List Char} (h : ∀ c ∈ cs, isNumeric c = true) :
    scan (.outside d) cs = some (.outside d) := by
  induction cs with
  | nil => rfl
  | cons c cs ih =>
      rw [scan, scanChar_numeric d (h c List.mem_cons_self), Option.bind_some]
      exact ih fun x hx => h x (List.mem_cons_of_mem c hx)

theorem scanChar_comma (d : ℕ) : scanChar (.outside (d + 1)) ',' = some (.outside (d + 1)) := rfl

theorem scanChar_colon (d : ℕ) : scanChar (.outside (d + 1)) ':' = some (.outside (d + 1)) := rfl

namespace Json

mutual

/-- A JSON text leaves the scan where it was. -/
theorem scan_chars (d : ℕ) (j : Json) : scan (.outside d) j.chars = some (.outside d) := by
  cases j with
  | null => cases d <;> rfl
  | bool b => cases b <;> cases d <;> rfl
  | num n => exact scan_numeric d fun c hc => n.isNumeric_of_mem hc
  | str s => exact scan_quote d s
  | arr xs =>
      cases xs with
      | nil => rfl
      | cons x xs =>
          rw [chars, scan, show scanChar (.outside d) '[' = some (.outside (d + 1)) from rfl,
            Option.bind_some, scan_append, scan_chars, Option.bind_some, scan_restChars]
  | obj ms =>
      cases ms with
      | nil => rfl
      | cons m ms =>
          obtain ⟨k, v⟩ := m
          rw [chars, scan, show scanChar (.outside d) '\x7b' = some (.outside (d + 1)) from rfl,
            Option.bind_some, scan_append, scan_quote, Option.bind_some, scan, scanChar_colon,
            Option.bind_some, scan_append, scan_chars, Option.bind_some, scan_memberChars]

theorem scan_restChars (d : ℕ) (xs : List Json) :
    scan (.outside (d + 1)) (restChars xs) = some (.outside d) := by
  cases xs with
  | nil => rfl
  | cons x xs =>
      rw [restChars, scan, scanChar_comma, Option.bind_some, scan_append, scan_chars, Option.bind_some,
        scan_restChars]

theorem scan_memberChars (d : ℕ) (ms : List (String × Json)) :
    scan (.outside (d + 1)) (memberChars ms) = some (.outside d) := by
  cases ms with
  | nil => rfl
  | cons m ms =>
      obtain ⟨k, v⟩ := m
      rw [memberChars, scan, scanChar_comma, Option.bind_some, scan_append, scan_quote,
        Option.bind_some, scan, scanChar_colon, Option.bind_some, scan_append, scan_chars,
        Option.bind_some, scan_memberChars]

end

end Json

/-! ## From inside a string -/

/-- The text leads from inside a string to inside a string, unless the scan fails. -/
def StaysInString (cs : List Char) : Prop :=
  ∀ d, scan (.inString d) cs = none ∨ ∃ d', scan (.inString d) cs = some (.inString d')

theorem StaysInString.append {a b : List Char} (ha : StaysInString a) (hb : StaysInString b) :
    StaysInString (a ++ b) := by
  intro d
  rw [scan_append]
  rcases ha d with hnone | ⟨d', hsome⟩
  · exact .inl (by rw [hnone]; rfl)
  · rw [hsome, Option.bind_some]
    exact hb d'

theorem staysInString_nil : StaysInString [] := fun d => .inr ⟨d, rfl⟩

theorem StaysInString.cons {c : Char} {cs : List Char} (hquote : c ≠ '"') (hslash : c ≠ '\\')
    (h : StaysInString cs) : StaysInString (c :: cs) := by
  intro d
  rw [scan, scanChar, if_neg hquote, if_neg hslash, Option.bind_some]
  exact h d

/-- Read from outside of its string, a written character has no place there or keeps the scan
outside. -/
theorem scan_escape_outside (d : ℕ) (c : Char) :
    scan (.outside d) (escape c) = none ∨ ∃ d', scan (.outside d) (escape c) = some (.outside d') := by
  unfold escape
  split_ifs with h₁ h₂ h₃ h₄ h₅ h₆ h₇ h₈
  · exact .inl rfl
  · exact .inl rfl
  · exact .inl rfl
  · exact .inl rfl
  · exact .inl rfl
  · exact .inl rfl
  · exact .inl rfl
  · exact .inl rfl
  · simp only [scan, scanChar, if_neg h₁, if_neg h₂]
    split_ifs
    · exact .inr ⟨_, rfl⟩
    · exact .inl rfl
    · exact .inr ⟨_, rfl⟩
    · exact .inr ⟨_, rfl⟩
    · exact .inr ⟨_, rfl⟩

theorem scan_flatMap_escape_outside (d : ℕ) (cs : List Char) :
    scan (.outside d) (cs.flatMap escape) = none ∨
      ∃ d', scan (.outside d) (cs.flatMap escape) = some (.outside d') := by
  induction cs generalizing d with
  | nil => exact .inr ⟨d, rfl⟩
  | cons c cs ih =>
      rw [List.flatMap_cons, scan_append]
      rcases scan_escape_outside d c with hnone | ⟨d', hsome⟩
      · exact .inl (by rw [hnone]; rfl)
      · rw [hsome, Option.bind_some]
        exact ih d'

/-- The opening quote ends the string the scan is in, the closing quote opens one. -/
theorem staysInString_quote (s : String) : StaysInString (quote s) := by
  intro d
  unfold quote
  rw [scan, show scanChar (.inString d) '"' = some (.outside d) from rfl, Option.bind_some, scan_append]
  rcases scan_flatMap_escape_outside d s.toList with hnone | ⟨d', hsome⟩
  · exact .inl (by rw [hnone]; rfl)
  · exact .inr ⟨d', by rw [hsome]; rfl⟩

theorem staysInString_numeric {cs : List Char} (h : ∀ c ∈ cs, isNumeric c = true) :
    StaysInString cs := by
  induction cs with
  | nil => exact staysInString_nil
  | cons c cs ih =>
      have hc := h c List.mem_cons_self
      refine .cons ?_ ?_ (ih fun x hx => h x (List.mem_cons_of_mem c hx))
      · rintro rfl
        exact absurd hc (by decide)
      · rintro rfl
        exact absurd hc (by decide)

namespace Json

mutual

/-- A JSON text read from inside a string. -/
theorem staysInString_chars (j : Json) : StaysInString j.chars := by
  cases j with
  | null => exact fun d => .inr ⟨d, rfl⟩
  | bool b => cases b <;> exact fun d => .inr ⟨d, rfl⟩
  | num n => exact staysInString_numeric fun c hc => n.isNumeric_of_mem hc
  | str s => exact staysInString_quote s
  | arr xs =>
      cases xs with
      | nil => exact fun d => .inr ⟨d, rfl⟩
      | cons x xs =>
          rw [chars]
          exact .cons (by decide) (by decide) ((staysInString_chars x).append (staysInString_restChars xs))
  | obj ms =>
      cases ms with
      | nil => exact fun d => .inr ⟨d, rfl⟩
      | cons m ms =>
          obtain ⟨k, v⟩ := m
          rw [chars]
          refine .cons (by decide) (by decide) ((staysInString_quote k).append ?_)
          exact .cons (by decide) (by decide)
            ((staysInString_chars v).append (staysInString_memberChars ms))

theorem staysInString_restChars (xs : List Json) : StaysInString (restChars xs) := by
  cases xs with
  | nil => exact fun d => .inr ⟨d, rfl⟩
  | cons x xs =>
      rw [restChars]
      exact .cons (by decide) (by decide) ((staysInString_chars x).append (staysInString_restChars xs))

theorem staysInString_memberChars (ms : List (String × Json)) : StaysInString (memberChars ms) := by
  cases ms with
  | nil => exact fun d => .inr ⟨d, rfl⟩
  | cons m ms =>
      obtain ⟨k, v⟩ := m
      rw [memberChars]
      refine .cons (by decide) (by decide) ((staysInString_quote k).append ?_)
      exact .cons (by decide) (by decide)
        ((staysInString_chars v).append (staysInString_memberChars ms))

end

/-! ## Colons -/

/-- After a colon the scan stands inside a bracket or a string. -/
theorem scanChar_colon_eq_some {st st' : Scan} (h : scanChar st ':' = some st') :
    (∃ d, st' = .outside (d + 1)) ∨ ∃ d, st' = .inString d := by
  cases st with
  | outside d =>
      cases d with
      | zero => cases h
      | succ d => exact .inl ⟨d, (Option.some.inj h).symm⟩
  | inString d => exact .inr ⟨d, (Option.some.inj h).symm⟩
  | escaped d => exact .inr ⟨d, (Option.some.inj h).symm⟩

/-- What follows a colon in a JSON text is no JSON text. -/
theorem chars_ne_append_colon (j j' : Json) (a : List Char) : j.chars ≠ a ++ ':' :: j'.chars := by
  intro h
  have hscan := scan_chars 0 j
  rw [h, scan_append, Option.bind_eq_some_iff] at hscan
  obtain ⟨st, -, hscan⟩ := hscan
  rw [scan, Option.bind_eq_some_iff] at hscan
  obtain ⟨st', hcolon, hscan⟩ := hscan
  rcases scanChar_colon_eq_some hcolon with ⟨d, rfl⟩ | ⟨d, rfl⟩
  · rw [scan_chars] at hscan
    cases hscan
  · rcases staysInString_chars j' d with hnone | ⟨d', hsome⟩
    · rw [hnone] at hscan
      cases hscan
    · rw [hsome] at hscan
      cases hscan

/-- A JSON text after a colon is found again, whatever stands before the colon. -/
theorem append_colon_chars_inj {a a' : List Char} {j j' : Json}
    (h : a ++ ':' :: j.chars = a' ++ ':' :: j'.chars) : a = a' ∧ j = j' := by
  have hsplit : ∀ {a a' c : List Char} {j j' : Json}, a' = a ++ c → ':' :: j.chars = c ++ ':' :: j'.chars →
      a = a' ∧ j = j' := by
    intro a a' c j j' ha hc
    cases c with
    | nil =>
        have hchars : j.chars = j'.chars := (List.cons.inj hc).2
        refine ⟨by rw [ha, List.append_nil], text_injective ?_⟩
        rw [text, text, hchars]
    | cons x c => exact absurd (List.cons.inj hc).2 (chars_ne_append_colon j j' c)
  rcases List.append_eq_append_iff.mp h with ⟨c, ha, hc⟩ | ⟨c, ha, hc⟩
  · exact hsplit ha hc
  · obtain ⟨h₁, h₂⟩ := hsplit ha hc
    exact ⟨h₁.symm, h₂.symm⟩

end Json

end ApexChainx.Lib
