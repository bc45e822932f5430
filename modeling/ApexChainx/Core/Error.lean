import Mathlib.Data.Nat.Notation

/-!
# How a request can fail

One type for the exceptions the modelled code raises or lets through: `CodedHTTPException`
(`app/api/coded_errors.py`), the built-in exceptions, the database errors of SQLAlchemy, and
`ApexTransientError` (`app/core/exceptions.py`), into which the advisory-lock context managers turn
every exception they see.
-/

namespace ApexChainx

/-- The exceptions of the modelled code. -/
inductive ApiError
  /-- `CodedHTTPException(status_code, detail)`. -/
  | http (status : ℕ) (detail : String)
  /-- `ValueError`. -/
  | valueError (detail : String)
  /-- `TypeError`: an operator applied to `None`. -/
  | typeError (detail : String)
  /-- `OverflowError`: a date outside the years 1 to 9999. -/
  | overflowError (detail : String)
  /-- `RecursionError`: a text that is nested too deeply. -/
  | recursionError (detail : String)
  /-- `AttributeError`: an attribute that an object of the class does not have. -/
  | attributeError (object name : String)
  /-- `IntegrityError`, with the constraint that was violated. -/
  | integrityError (constraint : String)
  /-- `DataError`: a value that does not fit its column. -/
  | dataError (column : String)
  /-- `ObjectDeletedError`, `StaleDataError` or `InvalidRequestError`: the row of a loaded object is no
  longer in its table. -/
  | staleRow (table : String)
  /-- `InternalError`: an exception raised inside the database, such as by a trigger. -/
  | databaseError (detail : String)
  /-- `ApexTransientError`, answered as 503. -/
  | transient (detail : String)
deriving DecidableEq, Repr

/-- The text an exception carries. -/
def ApiError.detail : ApiError → String
  | http _ detail => detail
  | valueError detail => detail
  | typeError detail => detail
  | overflowError detail => detail
  | recursionError detail => detail
  | attributeError object name => "'" ++ object ++ "' object has no attribute '" ++ name ++ "'"
  | integrityError constraint => constraint
  | dataError column => column
  | staleRow table => table
  | databaseError detail => detail
  | transient detail => detail

/-- The `ValueError` with which psycopg2 refuses a text parameter that has a NUL in it. -/
def ApiError.nulLiteral : ApiError := .valueError "A string literal cannot contain NUL (0x00) characters."

/-- Result of a call: its return value, or the exception it raised. -/
inductive Outcome (α : Type*)
  | ok (a : α)
  | error (e : ApiError)
deriving DecidableEq, Repr

namespace Outcome

variable {α : Type*}

/-- The call returned normally. -/
def isOk : Outcome α → Bool
  | .ok _ => true
  | .error _ => false

/-- The return value, if there is one. -/
def value? : Outcome α → Option α
  | .ok a => some a
  | .error _ => none

/-- What leaves an advisory-lock context manager (`app/core/lock.py`): every exception but a transient
one becomes a transient one. -/
def locked : Outcome α → Outcome α
  | .error (.transient detail) => .error (.transient detail)
  | .error e => .error (.transient ("Unexpected error in locked section: " ++ e.detail))
  | .ok a => .ok a

end Outcome

end ApexChainx
