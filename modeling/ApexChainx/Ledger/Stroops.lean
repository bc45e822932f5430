import ApexChainx.Ledger.HorizonRecord
import Mathlib.Algebra.Order.Field.Power
import Mathlib.Data.Rat.Cast.Order
import Mathlib.Tactic.FieldSimp
import Mathlib.Tactic.Positivity

/-!
# The amounts of Horizon records

`_to_stroops` against the column it fills: an amount is a number of stroops if it is a multiple of `10 ^ -7`,
and the column holds up to `2 ^ 63 - 1` of them. Up to there the 28 digits of the context are enough, whatever
the number of digits of the text; a finer or larger amount is stored as something else or raises `Overflow`.
-/

namespace ApexChainx.Ledger

open ApexChainx.Lib

/-- The number that a finite decimal is. -/
def Decimal.toRat : Decimal → Option ℚ
  | .finite negative coefficient exponent =>
      some ((if negative then -1 else 1) * (coefficient * 10 ^ exponent))
  | .special => none

/-- The number that an amount stands for. -/
def amountValue (raw : String) : Option ℚ := (parseDecimal raw).bind Decimal.toRat

/-- `MAX` of the column `amount`. -/
def columnMax : ℕ := 2 ^ 63 - 1

/-- A whole number of stroops that the column has room for. -/
def Storable (raw : String) : Prop := ∃ n : ℕ, n ≤ columnMax ∧ amountValue raw = some ((n : ℚ) / 10 ^ 7)

/-- No finite number, or one below zero. -/
def Rejected (raw : String) : Prop := ∀ q, amountValue raw = some q → q < 0

/-- Whether it is a `TxIndexerError`. -/
def RecordError.isTxIndexerError : RecordError → Bool
  | .decimalOverflow => false
  | _ => true

/-- A record with the amount is stored exactly or refused. -/
structure Faithful (raw : String) (result : Except RecordError IndexedTransaction) : Prop where
  exact : ∀ tx, result = .ok tx → amountValue raw = some ((tx.amount : ℚ) / 10 ^ 7) ∧ tx.amount ≤ columnMax
  refused : ¬ Storable raw → ∃ e, result = .error e ∧ e.isTxIndexerError = true

/-! ## The product -/

theorem log_mul_pow {n : ℕ} (hn : n ≠ 0) (k : ℕ) : Nat.log 10 (n * 10 ^ k) = Nat.log 10 n + k := by
  induction k with
  | zero => rw [Nat.pow_zero, Nat.mul_one, Nat.add_zero]
  | succ k ih =>
      have hne : n * 10 ^ k ≠ 0 := Nat.mul_ne_zero hn (Nat.pow_pos (by decide)).ne'
      rw [Nat.pow_succ, ← Nat.mul_assoc, Nat.log_mul_base (by decide) hne, ih, Nat.add_assoc]

/-- A product of 28 digits is not rounded, nor is one whose other digits are zeros. -/
theorem roundToContext_of_trailing {n : ℕ} (hlt : n < 10 ^ 28) (k : ℕ) :
    ∃ cut ≤ k, roundToContext (n * 10 ^ k) = (n * 10 ^ (k - cut), cut) := by
  rcases Nat.eq_zero_or_pos n with rfl | hpos
  · refine ⟨0, Nat.zero_le k, ?_⟩
    simp only [Nat.zero_mul]
    rfl
  · have hdigits : Nat.log 10 n < 28 := Nat.log_lt_of_lt_pow hpos.ne' hlt
    obtain ⟨cut, hcut⟩ : ∃ cut, cut = Nat.log 10 n + k + 1 - 28 := ⟨_, rfl⟩
    have hsplit : n * 10 ^ k = n * 10 ^ (k - cut) * 10 ^ cut := by
      rw [Nat.mul_assoc, ← Nat.pow_add, Nat.sub_add_cancel (by omega)]
    refine ⟨cut, by omega, ?_⟩
    unfold roundToContext
    rw [log_mul_pow hpos.ne', ← hcut, hsplit]
    simp only [roundHalfEven_mul _ (Nat.pow_pos (show 0 < 10 by decide))]

theorem timesStroops_eq {coefficient rounded cut : ℕ} {exponent : ℤ}
    (hround : roundToContext (coefficient * 10 ^ 7) = (rounded, cut))
    (hfits : rounded ≠ 0 → exponent + cut + Nat.log 10 rounded ≤ 999999) :
    timesStroops coefficient exponent = some (rounded, exponent + cut) := by
  simp only [timesStroops, hround]
  rw [if_neg fun h => absurd (hfits h.1) (not_le.mpr h.2)]

theorem truncate_natCast (n k : ℕ) : truncate n k = n * 10 ^ k := by
  unfold truncate
  rw [if_pos (Int.natCast_nonneg k), Int.toNat_natCast]

theorem truncate_neg (n k : ℕ) : truncate (n * 10 ^ k) (-k) = n := by
  unfold truncate
  split_ifs with hk
  · obtain rfl : k = 0 := by omega
    rw [Nat.pow_zero, Nat.mul_one]
    exact Nat.mul_one n
  · rw [Int.neg_neg, Int.toNat_natCast, Nat.mul_div_left n (Nat.pow_pos (by decide))]

/-- With an exponent that is not negative, the product of the coefficient has no more digits than the number. -/
theorem timesStroops_natCast {coefficient n k : ℕ} (hlt : n < 10 ^ 28)
    (hn : coefficient * 10 ^ 7 * 10 ^ k = n) :
    ∃ rounded e, timesStroops coefficient k = some (rounded, e) ∧ truncate rounded e = n := by
  have hle : coefficient * 10 ^ 7 ≤ n := by
    rw [← hn]
    exact Nat.le_mul_of_pos_right _ (Nat.pow_pos (by decide))
  obtain ⟨cut, hcut, hround⟩ := roundToContext_of_trailing (hle.trans_lt hlt) 0
  obtain rfl := Nat.le_zero.mp hcut
  rw [Nat.pow_zero, Nat.mul_one] at hround
  refine ⟨coefficient * 10 ^ 7, _, timesStroops_eq hround ?_, ?_⟩
  · intro hne
    have hdigits : Nat.log 10 n < 28 := Nat.log_lt_of_lt_pow' (by decide) hlt
    rw [← hn, log_mul_pow hne] at hdigits
    omega
  · rw [Nat.cast_zero, add_zero, truncate_natCast, hn]

/-- With a negative one, the digits after the point are zeros. -/
theorem timesStroops_neg {coefficient n k : ℕ} (hlt : n < 10 ^ 28) (hn : coefficient * 10 ^ 7 = n * 10 ^ k) :
    ∃ rounded e, timesStroops coefficient (-k) = some (rounded, e) ∧ truncate rounded e = n := by
  obtain ⟨cut, hcut, hround⟩ := roundToContext_of_trailing hlt k
  rw [← hn] at hround
  have hexponent : -(k : ℤ) + cut = -(k - cut : ℕ) := by omega
  refine ⟨n * 10 ^ (k - cut), _, timesStroops_eq hround ?_, ?_⟩
  · intro hne
    have hdigits : Nat.log 10 n < 28 := Nat.log_lt_of_lt_pow' (by decide) hlt
    rw [log_mul_pow (Nat.ne_zero_of_mul_ne_zero_left hne)]
    omega
  · rw [hexponent, truncate_neg]

/-- A product below `10 ^ 28` that is an integer comes out as it is. -/
theorem timesStroops_of_integer {coefficient n : ℕ} {exponent : ℤ} (hlt : n < 10 ^ 28)
    (hn : (coefficient : ℚ) * 10 ^ exponent = n / 10 ^ 7) :
    ∃ rounded e, timesStroops coefficient exponent = some (rounded, e) ∧ truncate rounded e = n := by
  have hproduct : (coefficient : ℚ) * 10 ^ 7 * 10 ^ exponent = n := by
    rw [mul_right_comm, hn, div_mul_cancel₀ _ (by norm_num)]
  obtain ⟨k, rfl | rfl⟩ := Int.eq_nat_or_neg exponent
  · apply timesStroops_natCast hlt
    rw [zpow_natCast] at hproduct
    exact_mod_cast hproduct
  · apply timesStroops_neg hlt
    rw [zpow_neg, zpow_natCast, ← div_eq_mul_inv, div_eq_iff (pow_ne_zero _ (by norm_num))] at hproduct
    exact_mod_cast hproduct

/-! ## The conversion -/

theorem toRat_of_not_negative {negative : Bool} {coefficient : ℕ} {exponent : ℤ}
    (h : ¬ (negative = true ∧ coefficient ≠ 0)) :
    (Decimal.finite negative coefficient exponent).toRat = some ((coefficient : ℚ) * 10 ^ exponent) := by
  simp only [Decimal.toRat]
  rcases Bool.eq_false_or_eq_true negative with rfl | rfl
  · obtain rfl : coefficient = 0 := by
      by_contra hne
      exact h ⟨rfl, hne⟩
    simp
  · rw [if_neg Bool.false_ne_true, one_mul]

theorem toRat_of_negative {coefficient : ℕ} (exponent : ℤ) (hne : coefficient ≠ 0) :
    ∃ q < 0, (Decimal.finite true coefficient exponent).toRat = some q := by
  refine ⟨-1 * ((coefficient : ℚ) * 10 ^ exponent), ?_, rfl⟩
  have hpos : (0 : ℚ) < coefficient := Nat.cast_pos.mpr (Nat.pos_of_ne_zero hne)
  have hmul : (0 : ℚ) < coefficient * 10 ^ exponent := by positivity
  linarith

/-- What is rejected raises `Invalid payment amount`; the product of everything else is cut to an integer. -/
theorem toStroops_cases (raw : String) :
    (Rejected raw ∧ toStroops raw = .error (.invalidAmount raw)) ∨
      ∃ (coefficient : ℕ) (exponent : ℤ), amountValue raw = some ((coefficient : ℚ) * 10 ^ exponent) ∧
        toStroops raw = match timesStroops coefficient exponent with
          | none => .error .decimalOverflow
          | some (rounded, e) => .ok (truncate rounded e) := by
  unfold Rejected amountValue toStroops
  rcases parseDecimal raw with _ | ⟨negative, coefficient, exponent⟩ | _
  · refine .inl ⟨fun q h => ?_, rfl⟩
    cases h
  · simp only [Option.bind_some]
    by_cases hsign : negative = true ∧ coefficient ≠ 0
    · rw [if_pos hsign]
      obtain ⟨rfl, hne⟩ := hsign
      obtain ⟨q, hneg, hvalue⟩ := toRat_of_negative exponent hne
      refine .inl ⟨fun q' h => ?_, rfl⟩
      rw [hvalue] at h
      exact Option.some.inj h ▸ hneg
    · rw [if_neg hsign]
      exact .inr ⟨coefficient, exponent, toRat_of_not_negative hsign, rfl⟩
  · refine .inl ⟨fun q h => ?_, rfl⟩
    cases h

/-- An amount that is a number of stroops is converted to it. -/
theorem toStroops_of_storable {raw : String} {n : ℕ} (hn : n ≤ columnMax)
    (hraw : amountValue raw = some ((n : ℚ) / 10 ^ 7)) : toStroops raw = .ok n := by
  have hnonneg : (0 : ℚ) ≤ n / 10 ^ 7 := by positivity
  rcases toStroops_cases raw with ⟨hrejected, -⟩ | ⟨coefficient, exponent, hvalue, heq⟩
  · exact absurd (hrejected _ hraw) (not_lt.mpr hnonneg)
  · rw [hraw] at hvalue
    obtain ⟨rounded, e, htimes, htruncate⟩ :=
      timesStroops_of_integer (hn.trans_lt (by decide)) (Option.some.inj hvalue).symm
    rw [heq, htimes]
    simp only [htruncate]

/-- Only what is rejected raises a `TxIndexerError`. -/
theorem rejected_of_error {raw : String} {e : RecordError} (h : toStroops raw = .error e)
    (herror : e.isTxIndexerError = true) : Rejected raw := by
  rcases toStroops_cases raw with ⟨hrejected, -⟩ | ⟨coefficient, exponent, -, heq⟩
  · exact hrejected
  · rw [h] at heq
    split at heq
    · obtain rfl := Except.error.inj heq
      cases herror
    · cases heq

/-! ## The record -/

/-- An amount that raises a `TxIndexerError` makes the record raise one. -/
theorem parse_of_rejected (now : IsoTime) {record : HorizonRecord} {e : RecordError}
    (h : toStroops (record.amount.getD "0") = .error e) (herror : e.isTxIndexerError = true) :
    ∃ e, parseHorizonRecord now record = .error e ∧ e.isTxIndexerError = true := by
  unfold parseHorizonRecord
  simp only
  split_ifs with hhash
  · exact ⟨.missingHash, rfl, rfl⟩
  · rw [h]
    exact ⟨e, rfl, herror⟩

/-- A record of a hash and an amount. -/
def bareRecord (raw : String) : HorizonRecord where
  pagingToken := "100"
  transactionHash := some "9c1f4f2f"
  type := none
  amount := some raw
  assetCode := none
  sender := none
  receiver := none
  createdAt := none

theorem parse_bareRecord (now : IsoTime) (raw : String) :
    parseHorizonRecord now (bareRecord raw) =
      (toStroops raw).map fun amount => ⟨⟨"9c1f4f2f", "payment", amount, "XLM", "", ""⟩, now⟩ := by
  have hstrip : strip "9c1f4f2f" = "9c1f4f2f" := by decide +kernel
  have hhash : strip (memberOr (bareRecord raw).transactionHash "") = "9c1f4f2f" := by
    rw [show memberOr (bareRecord raw).transactionHash "" = "9c1f4f2f" by rfl, hstrip]
  unfold parseHorizonRecord
  simp only [hhash]
  rw [if_neg (by decide)]
  cases htoStroops : toStroops raw with
  | error e =>
      rw [show (bareRecord raw).amount.getD "0" = raw from rfl, htoStroops]
      rfl
  | ok amount =>
      rw [show (bareRecord raw).amount.getD "0" = raw from rfl, htoStroops]
      rfl

/-- Every record with the amount is stored exactly or refused, if and only if the amount is a number of stroops
from zero to `2 ^ 63 - 1`, or no finite number, or below zero. -/
theorem stroops_faithful_iff (raw : String) :
    (∀ now record, record.amount.getD "0" = raw → Faithful raw (parseHorizonRecord now record)) ↔
      Storable raw ∨ Rejected raw := by
  constructor
  · intro h
    have hbare := h ⟨0, some 0⟩ (bareRecord raw) rfl
    rw [parse_bareRecord] at hbare
    by_cases hstorable : Storable raw
    · exact .inl hstorable
    · obtain ⟨e, he, herror⟩ := hbare.refused hstorable
      cases hamount : toStroops raw with
      | error e' =>
          rw [hamount] at he
          obtain rfl := Except.error.inj he
          exact .inr (rejected_of_error hamount herror)
      | ok n =>
          rw [hamount] at he
          cases he
  · intro h now record hget
    rcases h with hstorable | hrejected
    · refine ⟨fun tx hparse => ?_, fun hnot => absurd hstorable hnot⟩
      obtain ⟨n, hn, hvalue⟩ := hstorable
      obtain ⟨-, -, hamount, -⟩ := parseHorizonRecord_eq_ok hparse
      rw [hget, toStroops_of_storable hn hvalue] at hamount
      obtain rfl := Except.ok.inj hamount
      exact ⟨hvalue, hn⟩
    · obtain ⟨e, herror, htype⟩ : ∃ e, toStroops raw = .error e ∧ e.isTxIndexerError = true := by
        rcases toStroops_cases raw with ⟨-, heq⟩ | ⟨coefficient, exponent, hvalue, -⟩
        · exact ⟨_, heq, rfl⟩
        · have hneg := hrejected _ hvalue
          have hnonneg : (0 : ℚ) ≤ coefficient * 10 ^ exponent := by positivity
          exact absurd hneg (not_lt.mpr hnonneg)
      obtain ⟨e', hparse, htype'⟩ := parse_of_rejected now (hget ▸ herror) htype
      refine ⟨fun tx hok => ?_, fun _ => ⟨e', hparse, htype'⟩⟩
      rw [hparse] at hok
      cases hok

example : toStroops "12.5" = .ok 125000000 := by decide +kernel

/-- Half a stroop is stored as nothing, `2 ^ 63` stroops are stored although the column has no room for them,
and a number with a large exponent raises `Overflow`. -/
theorem amounts_not_faithful :
    (∃ tx, parseHorizonRecord ⟨0, some 0⟩ (bareRecord "0.00000005") = .ok tx ∧ tx.amount = 0 ∧
      amountValue "0.00000005" = some (5 / 10 ^ 8)) ∧
    (∃ tx, parseHorizonRecord ⟨0, some 0⟩ (bareRecord "922337203685.4775808") = .ok tx ∧
      columnMax < tx.amount) ∧
    (∃ e, parseHorizonRecord ⟨0, some 0⟩ (bareRecord "1E+999993") = .error e ∧ e.isTxIndexerError = false) := by
  have hhalf : toStroops "0.00000005" = .ok 0 := by decide +kernel
  have hlarge : toStroops "922337203685.4775808" = .ok (2 ^ 63) := by decide +kernel
  have hoverflow : toStroops "1E+999993" = .error .decimalOverflow := by decide +kernel
  have hvalue : parseDecimal "0.00000005" = some (.finite false 5 (-8)) := by decide +kernel
  rw [parse_bareRecord, parse_bareRecord, parse_bareRecord, hhalf, hlarge, hoverflow]
  refine ⟨⟨_, rfl, rfl, ?_⟩, ⟨_, rfl, by decide⟩, ⟨_, rfl, rfl⟩⟩
  rw [amountValue, hvalue, Option.bind_some, toRat_of_not_negative (by decide)]
  norm_num

end ApexChainx.Ledger
