import Mathlib.Data.Nat.Notation
import Mathlib.Data.Int.Notation

/-!
# Payment status transitions

`PaymentStatus`, `VALID_TRANSITIONS` and `validate_transition` of `app/models/payment.py`.
-/

namespace ApexChainx.Payment

/-- `PaymentStatus`. -/
inductive PaymentStatus
  | pending
  | confirmed
  | failed
deriving DecidableEq, Repr

namespace PaymentStatus

/-- The stored text. -/
def value : PaymentStatus → String
  | pending => "pending"
  | confirmed => "confirmed"
  | failed => "failed"

/-- `PaymentStatus(text)`; `none` is its `ValueError`. -/
def ofString (text : String) : Option PaymentStatus :=
  [pending, confirmed, failed].find? fun s => s.value = text

@[simp] theorem ofString_value (s : PaymentStatus) : ofString s.value = some s := by
  cases s <;> decide

end PaymentStatus

/-- `VALID_TRANSITIONS`. -/
def validTransitions : PaymentStatus → List PaymentStatus
  | .pending => [.confirmed, .failed]
  | .confirmed => []
  | .failed => [.pending]

/-- `PaymentTransitionError` with the data it carries. -/
structure PaymentTransitionError where
  current : String
  nextStatus : String
  allowed : List String
deriving DecidableEq, Repr

/-- `validate_transition`: the error it raises, if any. The statuses are the texts of the row and of
the request, so either may be no member of the enumeration. -/
def validateTransition (current nextStatus : String) : Option PaymentTransitionError :=
  let allowed := match PaymentStatus.ofString current with
    | some c => (validTransitions c).map PaymentStatus.value
    | none => []
  match PaymentStatus.ofString current, PaymentStatus.ofString nextStatus with
  | some c, some n => if n ∈ validTransitions c then none else some ⟨current, nextStatus, allowed⟩
  | _, _ => some ⟨current, nextStatus, allowed⟩

/-- A transition passes exactly when it is an edge of `VALID_TRANSITIONS`. -/
theorem validateTransition_eq_none {current : PaymentStatus} {nextStatus : String} :
    validateTransition current.value nextStatus = none ↔
      ∃ n, PaymentStatus.ofString nextStatus = some n ∧ n ∈ validTransitions current := by
  unfold validateTransition
  simp only [PaymentStatus.ofString_value]
  cases hn : PaymentStatus.ofString nextStatus with
  | none => simp
  | some n => simp

/-- `MAX_RETRIES`. -/
def maxRetries : ℕ := 3

end ApexChainx.Payment
