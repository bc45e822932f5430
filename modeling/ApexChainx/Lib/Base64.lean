import Mathlib.Data.List.DropRight
import Mathlib.Data.Nat.Notation

/-!
# Base64

The URL-safe base64 text of a list of bytes, and its lenient decoder, which skips characters outside the
alphabet and stops at a complete padding. What is encoded is decoded again (`decode_encode`), also when
the padding was stripped and is put back from the length (`pad_strip_encode`).
-/

namespace ApexChainx.Lib.Base64

/-- The characters of the URL-safe alphabet, in the order of their values. -/
def alphabet : List Char :=
  "ABCDEFGHIJKLMNOPQRSTUVWXYZabcdefghijklmnopqrstuvwxyz0123456789-_".toList

/-- The character for a value below 64. -/
def symbol (n : ℕ) : Char := alphabet.getD n 'A'

/-- The value of a character; the standard alphabet's `+` and `/` are read as well. -/
def value (c : Char) : Option ℕ :=
  if c = '+' then some 62
  else if c = '/' then some 63
  else if c ∈ alphabet then some (alphabet.idxOf c)
  else none

/-- The text of a list of bytes, padded with `=` to a multiple of four characters. -/
def encode : List UInt8 → List Char
  | [] => []
  | [a] => [symbol (a.toNat / 4), symbol (a.toNat % 4 * 16), '=', '=']
  | [a, b] =>
      [symbol (a.toNat / 4), symbol (a.toNat % 4 * 16 + b.toNat / 16), symbol (b.toNat % 16 * 4), '=']
  | a :: b :: c :: rest =>
      symbol (a.toNat / 4) :: symbol (a.toNat % 4 * 16 + b.toNat / 16) ::
        symbol (b.toNat % 16 * 4 + c.toNat / 64) :: symbol (c.toNat % 64) :: encode rest

/-- The decoder inside a group of four: how many characters of the group were read, the bits that no byte
has taken yet, and the padding characters seen since. -/
def decodeFrom (quad left pads : ℕ) : List Char → Option (List UInt8)
  | [] => if quad = 0 then some [] else none
  | c :: cs =>
      if c = '=' then
        if quad < 2 then decodeFrom quad left pads cs
        else if 4 ≤ quad + (pads + 1) then some []
        else decodeFrom quad left (pads + 1) cs
      else
        match value c with
        | none => decodeFrom quad left pads cs
        | some v =>
            match quad with
            | 0 => decodeFrom 1 v 0 cs
            | 1 => (decodeFrom 2 (v % 16) 0 cs).map (UInt8.ofNat (left * 4 + v / 16) :: ·)
            | 2 => (decodeFrom 3 (v % 4) 0 cs).map (UInt8.ofNat (left * 16 + v / 4) :: ·)
            | _ => (decodeFrom 0 0 0 cs).map (UInt8.ofNat (left * 64 + v) :: ·)

/-- The bytes of a text; `none` when it ends inside a group. -/
def decode (cs : List Char) : Option (List UInt8) := decodeFrom 0 0 0 cs

/-- The text without its padding. -/
def strip (cs : List Char) : List Char := cs.rdropWhile (· = '=')

/-- The text padded to a multiple of four characters. -/
def pad (cs : List Char) : List Char :=
  if cs.length % 4 = 0 then cs else cs ++ List.replicate (4 - cs.length % 4) '='

theorem value_symbol {n : ℕ} (h : n < 64) : value (symbol n) = some n := by
  have hall : ∀ n < 64, value (symbol n) = some n := by decide +kernel
  exact hall n h

theorem symbol_ne_pad {n : ℕ} (h : n < 64) : symbol n ≠ '=' := by
  intro hpad
  have hvalue := value_symbol h
  rw [hpad] at hvalue
  cases hvalue

section Groups

variable {left pads n : ℕ} (h : n < 64) (cs : List Char)
include h

theorem decodeFrom_first : decodeFrom 0 left pads (symbol n :: cs) = decodeFrom 1 n 0 cs := by
  simp only [decodeFrom, if_neg (symbol_ne_pad h), value_symbol h]

theorem decodeFrom_second : decodeFrom 1 left pads (symbol n :: cs)
    = (decodeFrom 2 (n % 16) 0 cs).map (UInt8.ofNat (left * 4 + n / 16) :: ·) := by
  simp only [decodeFrom, if_neg (symbol_ne_pad h), value_symbol h]

theorem decodeFrom_third : decodeFrom 2 left pads (symbol n :: cs)
    = (decodeFrom 3 (n % 4) 0 cs).map (UInt8.ofNat (left * 16 + n / 4) :: ·) := by
  simp only [decodeFrom, if_neg (symbol_ne_pad h), value_symbol h]

theorem decodeFrom_fourth : decodeFrom 3 left pads (symbol n :: cs)
    = (decodeFrom 0 0 0 cs).map (UInt8.ofNat (left * 64 + n) :: ·) := by
  simp only [decodeFrom, if_neg (symbol_ne_pad h), value_symbol h]

end Groups

theorem ofNat_eq {a : UInt8} {n : ℕ} (h : n = a.toNat) : UInt8.ofNat n = a := by
  rw [h, UInt8.ofNat_toNat]

theorem decode_encode (bs : List UInt8) : decode (encode bs) = some bs := by
  unfold decode
  induction bs using encode.induct with
  | case1 => rfl
  | case2 a =>
      have ha := a.toNat_lt
      have hpad (left : ℕ) : decodeFrom 2 left 0 ['=', '='] = some [] := rfl
      rw [encode, decodeFrom_first (by omega), decodeFrom_second (by omega), hpad, Option.map_some,
        ofNat_eq (a := a) (by omega)]
  | case3 a b =>
      have ha := a.toNat_lt
      have hb := b.toNat_lt
      have hpad (left : ℕ) : decodeFrom 3 left 0 ['='] = some [] := rfl
      rw [encode, decodeFrom_first (by omega), decodeFrom_second (by omega),
        decodeFrom_third (by omega), hpad, Option.map_some, Option.map_some,
        ofNat_eq (a := a) (by omega), ofNat_eq (a := b) (by omega)]
  | case4 a b c rest ih =>
      have ha := a.toNat_lt
      have hb := b.toNat_lt
      have hc := c.toNat_lt
      rw [encode, decodeFrom_first (by omega), decodeFrom_second (by omega),
        decodeFrom_third (by omega), decodeFrom_fourth (by omega), ih, Option.map_some,
        Option.map_some, Option.map_some, ofNat_eq (a := a) (by omega), ofNat_eq (a := b) (by omega),
        ofNat_eq (a := c) (by omega)]

theorem symbol_mem (n : ℕ) : symbol n ∈ alphabet := by
  unfold symbol
  rw [List.getD_eq_getElem?_getD]
  cases h : alphabet[n]? with
  | none => decide
  | some c => exact List.mem_of_getElem? h

theorem ascii_of_mem_alphabet {c : Char} (h : c ∈ alphabet) : c.toNat < 128 := by
  have hall : alphabet.all (fun c => c.toNat < 128) = true := by decide
  exact of_decide_eq_true (List.all_eq_true.mp hall c h)

theorem ne_pad_of_mem_alphabet {c : Char} (h : c ∈ alphabet) : c ≠ '=' := by
  rintro rfl
  exact absurd h (by decide)

/-- The text is a multiple of four characters: characters of the alphabet, and at most two `=`. -/
theorem encode_eq_append (bs : List UInt8) : ∃ body n, encode bs = body ++ List.replicate n '=' ∧
    (∀ c ∈ body, c ∈ alphabet) ∧ n < 3 ∧ (body.length + n) % 4 = 0 := by
  induction bs using encode.induct with
  | case1 => exact ⟨[], 0, rfl, by simp, by decide, rfl⟩
  | case2 a =>
      exact ⟨[symbol (a.toNat / 4), symbol (a.toNat % 4 * 16)], 2, rfl, by simp [symbol_mem],
        by decide, by simp⟩
  | case3 a b =>
      exact ⟨[symbol (a.toNat / 4), symbol (a.toNat % 4 * 16 + b.toNat / 16),
        symbol (b.toNat % 16 * 4)], 1, rfl, by simp [symbol_mem], by decide, by simp⟩
  | case4 a b c rest ih =>
      obtain ⟨body, n, heq, hbody, hn, hlength⟩ := ih
      refine ⟨symbol (a.toNat / 4) :: symbol (a.toNat % 4 * 16 + b.toNat / 16) ::
        symbol (b.toNat % 16 * 4 + c.toNat / 64) :: symbol (c.toNat % 64) :: body, n, ?_, ?_, hn, ?_⟩
      · rw [encode, heq]
        rfl
      · simpa [symbol_mem] using hbody
      · simp only [List.length_cons]
        omega

theorem strip_append {body : List Char} {n : ℕ} (hbody : ∀ c ∈ body, c ∈ alphabet) :
    strip (body ++ List.replicate n '=') = body := by
  rw [strip, List.rdropWhile, List.reverse_append, List.reverse_replicate,
    List.dropWhile_append_of_pos (by simp)]
  rw [← List.rdropWhile, List.rdropWhile_eq_self_iff]
  intro hne
  rw [decide_eq_true_eq]
  exact ne_pad_of_mem_alphabet (hbody _ (List.getLast_mem hne))

/-- The padding can be stripped and put back. -/
theorem pad_strip_encode (bs : List UInt8) : pad (strip (encode bs)) = encode bs := by
  obtain ⟨body, n, heq, hbody, hn, hlength⟩ := encode_eq_append bs
  rw [heq, strip_append hbody, pad]
  split_ifs with hmod
  · have hzero : n = 0 := by omega
    rw [hzero, List.replicate_zero, List.append_nil]
  · rw [show 4 - body.length % 4 = n by omega]

theorem ascii_of_mem_strip_encode {bs : List UInt8} {c : Char} (h : c ∈ strip (encode bs)) :
    c.toNat < 128 := by
  obtain ⟨body, n, heq, hbody, -, -⟩ := encode_eq_append bs
  rw [heq, strip_append hbody] at h
  exact ascii_of_mem_alphabet (hbody c h)

end ApexChainx.Lib.Base64
