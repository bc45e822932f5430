import Mathlib.Algebra.CharP.Two
import Mathlib.Algebra.Field.ZMod
import Mathlib.Algebra.Polynomial.FieldDivision
import Mathlib.Data.Nat.Bitwise
import Mathlib.Data.ZMod.Basic
import Mathlib.Tactic.LinearCombination

/-!
# Binary polynomials in registers

A number stands for the polynomial over GF(2) whose coefficients are its bits: exclusive or is addition and a
shift to the left is multiplication by a power of `X`. A register of `w` bits that is shifted and fed back
where `taps` has a bit keeps the remainder after division by `X ^ w + taps` (`bitPoly_shifts`).

A message of bytes stands for the polynomial of its bits, the first one highest. A change within `w` bits in a
row is a polynomial that such a generator with a constant term does not divide (`not_dvd_of_burst`).
-/

namespace ApexChainx.Lib

open Polynomial

/-- The polynomial with the bits of a number as its coefficients. -/
noncomputable def bitPoly (n : ℕ) : (ZMod 2)[X] :=
  ∑ i ∈ Finset.range n, if n.testBit i then X ^ i else 0

theorem coeff_bitPoly (n i : ℕ) : (bitPoly n).coeff i = if n.testBit i then 1 else 0 := by
  have hterm : ∀ j, (if n.testBit j then X ^ j else (0 : (ZMod 2)[X])).coeff i =
      if j = i then (if n.testBit i then 1 else 0) else 0 := by
    intro j
    by_cases hj : j = i
    · subst hj
      split <;> simp
    · split <;> simp [coeff_X_pow, Ne.symm hj]
  rw [bitPoly, finsetSum_coeff, Finset.sum_congr rfl fun j _ => hterm j, Finset.sum_ite_eq']
  split
  · rfl
  · rename_i hrange
    have hsmall : n.testBit i = false :=
      Nat.testBit_lt_two_pow ((not_lt.mp (mt Finset.mem_range.mpr hrange)).trans_lt Nat.lt_two_pow_self)
    rw [hsmall]
    rfl

@[simp] theorem bitPoly_zero : bitPoly 0 = 0 := rfl

theorem bitPoly_xor (m n : ℕ) : bitPoly (m ^^^ n) = bitPoly m + bitPoly n := by
  ext i
  rw [coeff_add, coeff_bitPoly, coeff_bitPoly, coeff_bitPoly, Nat.testBit_xor]
  cases m.testBit i <;> cases n.testBit i <;> decide

theorem bitPoly_shiftLeft (n k : ℕ) : bitPoly (n <<< k) = X ^ k * bitPoly n := by
  ext i
  rw [coeff_bitPoly, Nat.testBit_shiftLeft, coeff_X_pow_mul', coeff_bitPoly]
  by_cases hk : k ≤ i <;> simp [hk]

theorem bitPoly_two_pow (k : ℕ) : bitPoly (2 ^ k) = X ^ k := by
  ext i
  rw [coeff_bitPoly, Nat.testBit_two_pow, coeff_X_pow]
  simp [eq_comm]

theorem bitPoly_injective : Function.Injective bitPoly := by
  intro m n h
  refine Nat.eq_of_testBit_eq fun i => ?_
  have hcoeff := congrArg (fun p => p.coeff i) h
  simp only [coeff_bitPoly] at hcoeff
  revert hcoeff
  cases m.testBit i <;> cases n.testBit i <;> decide

theorem degree_bitPoly_lt {n k : ℕ} (h : n < 2 ^ k) : (bitPoly n).degree < k := by
  rw [degree_lt_iff_coeff_zero]
  intro i hi
  rw [coeff_bitPoly, Nat.testBit_lt_two_pow (h.trans_le (Nat.pow_le_pow_right Nat.two_pos hi))]
  rfl

/-! ## The register -/

section Register

variable {w taps : ℕ}

/-- One shift of a register of `w` bits: the bit that falls out is fed back at the taps. -/
def shiftRegister (w taps r : ℕ) : ℕ :=
  if r.testBit (w - 1) then ((r <<< 1) ^^^ taps) &&& (2 ^ w - 1) else (r <<< 1) &&& (2 ^ w - 1)

/-- The polynomial that the register divides by. -/
noncomputable def generator (w taps : ℕ) : (ZMod 2)[X] := X ^ w + bitPoly taps

theorem monic_generator (htaps : taps < 2 ^ w) : (generator w taps).Monic :=
  monic_X_pow_add (degree_bitPoly_lt htaps)

theorem degree_generator (htaps : taps < 2 ^ w) : (generator w taps).degree = w := by
  rw [generator, degree_add_eq_left_of_degree_lt, degree_X_pow]
  rw [degree_X_pow]
  exact degree_bitPoly_lt htaps

theorem shiftRegister_lt (r : ℕ) : shiftRegister w taps r < 2 ^ w := by
  unfold shiftRegister
  split <;> exact Nat.and_lt_two_pow _ (Nat.sub_lt (Nat.two_pow_pos w) Nat.one_pos)

/-- What a shift adds to `X` times the register. -/
theorem bitPoly_shiftRegister (hw : 0 < w) (htaps : taps < 2 ^ w) {r : ℕ} (hr : r < 2 ^ w) :
    bitPoly (shiftRegister w taps r) =
      X * bitPoly r + if r.testBit (w - 1) then generator w taps else 0 := by
  have hhigh : ∀ {n i : ℕ}, n < 2 ^ w → w ≤ i → n.testBit i = false := fun hn hi =>
    Nat.testBit_lt_two_pow (hn.trans_le (Nat.pow_le_pow_right Nat.two_pos hi))
  unfold shiftRegister
  split
  · rename_i hbit
    have hmask : ((r <<< 1) ^^^ taps) &&& (2 ^ w - 1) = (r <<< 1) ^^^ (2 ^ w ^^^ taps) := by
      refine Nat.eq_of_testBit_eq fun i => ?_
      simp only [Nat.testBit_and, Nat.testBit_xor, Nat.testBit_shiftLeft, Nat.testBit_two_pow_sub_one,
        Nat.testBit_two_pow]
      rcases Nat.lt_trichotomy i w with hlt | rfl | hgt
      · simp [hlt, Nat.ne_of_gt hlt]
      · simp [hbit, hhigh htaps (Nat.le_refl i), show 1 ≤ i from hw]
      · simp [Nat.not_lt.mpr hgt.le, Nat.ne_of_lt hgt, hhigh htaps hgt.le, hhigh hr (Nat.le_sub_one_of_lt hgt)]
    rw [hmask, bitPoly_xor, bitPoly_xor, bitPoly_shiftLeft, bitPoly_two_pow, pow_one, generator]
  · rename_i hbit
    have hfits : (r <<< 1) &&& (2 ^ w - 1) = r <<< 1 := by
      refine Nat.eq_of_testBit_eq fun i => ?_
      simp only [Nat.testBit_and, Nat.testBit_shiftLeft, Nat.testBit_two_pow_sub_one]
      rcases Nat.lt_trichotomy i w with hlt | rfl | hgt
      · simp [hlt]
      · simp [Bool.eq_false_iff.mpr hbit]
      · simp [hhigh hr (Nat.le_sub_one_of_lt hgt)]
    rw [hfits, bitPoly_shiftLeft, pow_one, add_zero]

/-- A shift multiplies by `X` and takes the remainder. -/
theorem bitPoly_shiftRegister_eq_mod (hw : 0 < w) (htaps : taps < 2 ^ w) {r : ℕ} (hr : r < 2 ^ w) :
    bitPoly (shiftRegister w taps r) = (X * bitPoly r) %ₘ generator w taps := by
  have hdegree : (bitPoly (shiftRegister w taps r)).degree < (generator w taps).degree := by
    rw [degree_generator htaps]
    exact degree_bitPoly_lt (shiftRegister_lt r)
  refine ((div_modByMonic_unique (if r.testBit (w - 1) then 1 else 0) _ (monic_generator htaps)
    ⟨?_, hdegree⟩).2).symm
  rw [bitPoly_shiftRegister hw htaps hr]
  split
  · rw [mul_one, add_assoc, CharTwo.add_self_eq_zero, add_zero]
  · rw [mul_zero, add_zero, add_zero]

/-- Remainders may be taken before a multiplication. -/
theorem mul_modByMonic_mod {g : (ZMod 2)[X]} (hg : g.Monic) (p q : (ZMod 2)[X]) :
    (p * (q %ₘ g)) %ₘ g = (p * q) %ₘ g := by
  refine modByMonic_eq_of_dvd_sub hg ⟨-(p * (q /ₘ g)), ?_⟩
  have hsplit := modByMonic_add_div q g
  linear_combination p * hsplit

theorem bitPoly_shifts (hw : 0 < w) (htaps : taps < 2 ^ w) {r : ℕ} (hr : r < 2 ^ w) (k : ℕ) :
    bitPoly ((shiftRegister w taps)^[k] r) = (X ^ k * bitPoly r) %ₘ generator w taps ∧
      (shiftRegister w taps)^[k] r < 2 ^ w := by
  induction k with
  | zero =>
      refine ⟨?_, hr⟩
      rw [pow_zero, one_mul, Function.iterate_zero_apply, (modByMonic_eq_self_iff (monic_generator htaps)).mpr]
      rw [degree_generator htaps]
      exact degree_bitPoly_lt hr
  | succ k ih =>
      rw [Function.iterate_succ_apply']
      refine ⟨?_, shiftRegister_lt _⟩
      rw [bitPoly_shiftRegister_eq_mod hw htaps ih.2, ih.1, mul_modByMonic_mod (monic_generator htaps),
        ← mul_assoc, ← pow_succ']

end Register

/-! ## Messages -/

/-- The bit of a message at a position, the highest bit of each byte first. -/
def bitAt (data : List UInt8) (k : ℕ) : Bool := (data.getD (k / 8) 0).toNat.testBit (7 - k % 8)

/-- The polynomial of a message. -/
noncomputable def messagePoly (data : List UInt8) : (ZMod 2)[X] :=
  data.foldl (fun p byte => p * X ^ 8 + bitPoly byte.toNat) 0

theorem messagePoly_concat (data : List UInt8) (byte : UInt8) :
    messagePoly (data ++ [byte]) = messagePoly data * X ^ 8 + bitPoly byte.toNat := by
  rw [messagePoly, List.foldl_append]
  rfl

/-- The first bit of a message is its highest coefficient. -/
theorem coeff_messagePoly (data : List UInt8) (i : ℕ) : (messagePoly data).coeff i =
    if i < 8 * data.length ∧ bitAt data (8 * data.length - 1 - i) = true then 1 else 0 := by
  induction data using List.reverseRecOn generalizing i with
  | nil => simp [messagePoly]
  | append_singleton data byte ih =>
      rw [messagePoly_concat, coeff_add, coeff_mul_X_pow', coeff_bitPoly, List.length_append,
        List.length_singleton]
      by_cases hi : 8 ≤ i
      · -- a coefficient of the message before the last byte
        have hbyte : byte.toNat.testBit i = false :=
          Nat.testBit_lt_two_pow (byte.toNat_lt.trans_le (Nat.pow_le_pow_right Nat.two_pos hi))
        rw [if_pos hi, hbyte, ih (i - 8)]
        by_cases hlt : i - 8 < 8 * data.length
        · have hbit : bitAt (data ++ [byte]) (8 * (data.length + 1) - 1 - i) =
              bitAt data (8 * data.length - 1 - (i - 8)) := by
            have hposition : 8 * (data.length + 1) - 1 - i = 8 * data.length - 1 - (i - 8) := by omega
            rw [hposition]
            unfold bitAt
            rw [List.getD_append _ _ _ _ (by omega)]
          rw [hbit]
          simp [hlt, show i < 8 * (data.length + 1) by omega]
        · simp [hlt, show ¬ i < 8 * (data.length + 1) by omega]
      · have hbit : bitAt (data ++ [byte]) (8 * (data.length + 1) - 1 - i) = byte.toNat.testBit i := by
          unfold bitAt
          have hbyte : (8 * (data.length + 1) - 1 - i) / 8 = data.length := by omega
          have hplace : 7 - (8 * (data.length + 1) - 1 - i) % 8 = i := by omega
          rw [hbyte, hplace, List.getD_append_right _ _ _ _ (Nat.le_refl _), Nat.sub_self]
          rfl
        rw [if_neg hi, hbit, zero_add]
        simp [show i < 8 * (data.length + 1) by omega]

/-- The bytes of two messages of one length, combined by exclusive or. -/
def xorBytes (a b : List UInt8) : List UInt8 := List.zipWith (· ^^^ ·) a b

theorem messagePoly_xorBytes {a b : List UInt8} (h : a.length = b.length) :
    messagePoly (xorBytes a b) = messagePoly a + messagePoly b := by
  induction a using List.reverseRecOn generalizing b with
  | nil =>
      obtain rfl := List.length_eq_zero_iff.mp h.symm
      simp [xorBytes, messagePoly]
  | append_singleton a x ih =>
      rcases List.eq_nil_or_concat b with rfl | ⟨b, y, rfl⟩
      · simp at h
      · rw [List.concat_eq_append] at h ⊢
        have hlength : a.length = b.length := by simpa using h
        have hxor : xorBytes (a ++ [x]) (b ++ [y]) = xorBytes a b ++ [x ^^^ y] := by
          unfold xorBytes
          rw [List.zipWith_append hlength]
          rfl
        rw [hxor, messagePoly_concat, messagePoly_concat, messagePoly_concat, ih hlength, UInt8.toNat_xor,
          bitPoly_xor]
        ring

theorem messagePoly_inj {a b : List UInt8} (hlength : a.length = b.length)
    (h : messagePoly a = messagePoly b) : a = b := by
  induction a using List.reverseRecOn generalizing b with
  | nil => exact (List.length_eq_zero_iff.mp hlength.symm).symm
  | append_singleton a x ih =>
      rcases List.eq_nil_or_concat b with rfl | ⟨b, y, rfl⟩
      · simp at hlength
      · rw [List.concat_eq_append] at h hlength ⊢
        rw [messagePoly_concat, messagePoly_concat] at h
        have hlow : ∀ (byte : UInt8) (i : ℕ), byte.toNat.testBit i = true → i < 8 := by
          intro byte i hbit
          by_contra hi
          have hpow := Nat.ge_two_pow_of_testBit hbit
          have hlt : (2 : ℕ) ^ 8 ≤ 2 ^ i := Nat.pow_le_pow_right Nat.two_pos (not_lt.mp hi)
          have hbyte := byte.toNat_lt
          omega
        have hbyte : x = y := by
          refine UInt8.toNat_inj.mp (Nat.eq_of_testBit_eq fun i => ?_)
          have hcoeff := congrArg (fun p => p.coeff i) h
          simp only [coeff_add, coeff_mul_X_pow', coeff_bitPoly] at hcoeff
          by_cases hi : 8 ≤ i
          · rw [Bool.eq_false_iff.mpr fun hbit => (hlow x i hbit).not_ge hi,
              Bool.eq_false_iff.mpr fun hbit => (hlow y i hbit).not_ge hi]
          · rw [if_neg hi, if_neg hi, zero_add, zero_add] at hcoeff
            revert hcoeff
            cases x.toNat.testBit i <;> cases y.toNat.testBit i <;> decide
        subst hbyte
        have hfront := mul_right_cancel₀ (pow_ne_zero 8 X_ne_zero) (add_right_cancel h)
        rw [ih (by simpa using hlength) hfront]

/-! ## Bursts -/

/-- The messages have one length and differ, and only in bits of `w` places in a row. -/
structure Burst (w : ℕ) (a b : List UInt8) : Prop where
  length : a.length = b.length
  ne : a ≠ b
  near : ∃ start, ∀ k < 8 * a.length, bitAt a k ≠ bitAt b k → start ≤ k ∧ k < start + w

/-- A generator with a constant term divides no multiple by a power of `X` of a polynomial that is not zero and
has its coefficients within `w` places. -/
theorem not_dvd_of_burst {w taps : ℕ} (hw : 0 < w) (htaps : taps < 2 ^ w) (hconst : taps.testBit 0 = true)
    {p : (ZMod 2)[X]} (hp : p ≠ 0) {low : ℕ} (hburst : ∀ i, p.coeff i ≠ 0 → low ≤ i ∧ i < low + w) (k : ℕ) :
    ¬ generator w taps ∣ p * X ^ k := by
  obtain ⟨q, rfl⟩ : X ^ low ∣ p := by
    rw [X_pow_dvd_iff]
    intro i hi
    by_contra hne
    exact absurd (hburst i hne).1 (not_le.mpr hi)
  have hq : q ≠ 0 := right_ne_zero_of_mul hp
  have hdegree : q.degree < (generator w taps).degree := by
    rw [degree_generator htaps, degree_lt_iff_coeff_zero]
    intro i hi
    by_contra hne
    have hcoeff : (X ^ low * q).coeff (i + low) ≠ 0 := by
      rw [coeff_X_pow_mul]
      exact hne
    have hnear := (hburst _ hcoeff).2
    omega
  have hcoprime : IsCoprime (generator w taps) (X ^ (low + k)) := by
    refine IsCoprime.pow_right ⟨1, -(generator w taps).divX, ?_⟩
    have hsplit := divX_mul_X_add (generator w taps)
    have hone : (generator w taps).coeff 0 = 1 := by
      rw [generator, coeff_add, coeff_X_pow, coeff_bitPoly, if_neg (Nat.ne_of_lt hw), hconst]
      rfl
    rw [hone, C_1] at hsplit
    linear_combination -hsplit
  intro hdvd
  have hmul : X ^ low * q * X ^ k = X ^ (low + k) * q := by ring
  rw [hmul] at hdvd
  exact (monic_generator htaps).not_dvd_of_degree_lt hq hdegree (hcoprime.dvd_of_dvd_mul_left hdvd)

theorem Burst.not_dvd {w taps : ℕ} (hw : 0 < w) (htaps : taps < 2 ^ w) (hconst : taps.testBit 0 = true)
    {a b : List UInt8} (h : Burst w a b) (k : ℕ) :
    ¬ generator w taps ∣ (messagePoly a + messagePoly b) * X ^ k := by
  obtain ⟨start, hnear⟩ := h.near
  have hne : messagePoly a + messagePoly b ≠ 0 := by
    intro hzero
    exact h.ne (messagePoly_inj h.length (CharTwo.add_eq_zero.mp hzero))
  have hcoeffs : ∀ i, (messagePoly a + messagePoly b).coeff i ≠ 0 →
      8 * a.length - (start + w) ≤ i ∧ i < 8 * a.length - (start + w) + w := by
    intro i hi
    rw [coeff_add, coeff_messagePoly, coeff_messagePoly, ← h.length] at hi
    have hlt : i < 8 * a.length := by
      by_contra hge
      rw [if_neg fun hand => hge hand.1, if_neg fun hand => hge hand.1] at hi
      exact hi (add_zero 0)
    have hbits : bitAt a (8 * a.length - 1 - i) ≠ bitAt b (8 * a.length - 1 - i) := by
      intro heq
      rw [heq] at hi
      exact hi (CharTwo.add_self_eq_zero _)
    have hrange := hnear _ (by omega) hbits
    omega
  exact not_dvd_of_burst hw htaps hconst hne hcoeffs k

end ApexChainx.Lib
