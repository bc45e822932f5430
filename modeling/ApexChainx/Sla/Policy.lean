import Mathlib.Data.Nat.Notation

/-!
# Severities and their SLA policy

The module-level state of `app/services/sla/config.py`: per severity the thresholds of `SLA_CONFIG`,
the version of `_policy_versions` and the token of `_publish_tokens`. The three dictionaries have the
four severities as their keys from import on, and a publish only replaces values, so the state is a
total function of the severity.
-/

namespace ApexChainx.Sla

/-- `Severity` (`app/models/enums.py`), the keys of `SLA_CONFIG`. -/
inductive Severity
  | critical
  | high
  | medium
  | low
deriving DecidableEq, Repr

/-- `str.lower` on ASCII letters. -/
def lower (s : String) : String := String.ofList (s.toList.map Char.toLower)

namespace Severity

/-- The key of `SLA_CONFIG`. -/
def value : Severity → String
  | critical => "critical"
  | high => "high"
  | medium => "medium"
  | low => "low"

/-- `severity.lower()` looked up among the keys of `SLA_CONFIG`. The keys are ASCII and no other
character lower-cases into them, so ASCII lower-casing decides the same strings. -/
def ofString (severity : String) : Option Severity :=
  [critical, high, medium, low].find? fun s => s.value = lower severity

end Severity

/-- `SLASeverityConfig`: three integers that the model constrains to be non-negative. -/
structure SLASeverityConfig where
  thresholdMinutes : ℕ
  penaltyPerMinute : ℕ
  rewardBase : ℕ
deriving DecidableEq, Repr

/-- What one process holds for one severity: the entries of `SLA_CONFIG`, `_policy_versions` and
`_publish_tokens`. -/
structure CachedPolicy where
  config : SLASeverityConfig
  policyVersion : ℕ
  publishToken : String
deriving DecidableEq, Repr

/-- The policy state of one process. -/
abbrev LivePolicy := Severity → CachedPolicy

/-- The built-in `SLA_CONFIG`. -/
def defaultConfig : Severity → SLASeverityConfig
  | .critical => ⟨15, 100, 750⟩
  | .high => ⟨30, 50, 750⟩
  | .medium => ⟨60, 25, 750⟩
  | .low => ⟨120, 10, 600⟩

/-- The dictionaries as the module initialises them: the built-in values, version 1, no token. -/
def initialPolicy : LivePolicy := fun s => ⟨defaultConfig s, 1, ""⟩

end ApexChainx.Sla
