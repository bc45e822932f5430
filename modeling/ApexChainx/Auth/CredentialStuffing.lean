import Mathlib
import ApexChainx.Lib.PyText
import ApexChainx.Lib.WindowedSet

/-!
# Credential-stuffing detection

The detector of `app/services/credential_stuffing_detector.py` on its sorted sets in Redis, and the login
endpoint that asks it (`_enforce_login_rate_limits` and `login` of `app/api/v1/endpoints/auth.py`). Texts
are lists of characters. Every reading of the clock is a reading of its own; a request names its readings
in order. The rate limiter's two answers are inputs of the request.

The count of prefixes in the database only goes into the audit log, and is left out with it.
-/

namespace ApexChainx.Auth

open ApexChainx.Lib

/-- The settings of the detector, with `str.lower` and the SHA-256 hex digest of a text. -/
structure Detector where
  /-- `AUTH_CREDENTIAL_STUFFING_WINDOW_MINUTES`. -/
  windowMinutes : ℕ
  /-- `AUTH_LOCKOUT_ENTROPY_THRESHOLD`. -/
  entropyThreshold : ℕ
  /-- `AUTH_ACCOUNT_STUFFING_ENTROPY_THRESHOLD`. -/
  accountEntropyThreshold : ℕ
  lockoutDurationMinutes : ℤ
  lockoutMultiplier : ℤ
  lockoutMaxMinutes : ℤ
  lower : List Char → List Char
  sha256 : List Char → List Char

/-- The sorted sets by their keys. -/
abbrev SetStore := List Char → SortedSet (List Char)

namespace Detector

variable (d : Detector)

/-- The window, in microseconds. -/
def window : ℤ := d.windowMinutes * 60 * 1000000

/-- What the expiry of a key adds to the window. -/
def grace : ℤ := 60 * 1000000

/-- `_bounded_ip`. -/
def boundedIp (ip : List Char) : List Char := if ip.length ≤ 64 then ip else d.sha256 ip

/-- `_normalize_account`. -/
def normalizeAccount (account : List Char) : List Char := d.lower (strip account)

/-- `_account_hash`. -/
def accountHash (account : List Char) : List Char := d.sha256 (d.normalizeAccount account)

/-- `_ip_key`. -/
def ipKey (ip : List Char) : List Char := "cred_stuffing:ip:".toList ++ d.boundedIp ip

/-- `_pair_key`. -/
def pairKey (ip account : List Char) : List Char :=
  "cred_stuffing:pair:".toList ++ d.boundedIp ip ++ ':' :: d.accountHash account

/-- `_account_key`. -/
def accountKey (account : List Char) : List Char :=
  "cred_stuffing:account:".toList ++ d.accountHash account

/-- What `record_attempt` writes: the members, and the keys they go under. -/
def entries (ip password account : List Char) : List (List Char × List Char) :=
  let pre := password.take 4
  (d.ipKey ip, if account = [] then pre else d.accountHash account ++ ':' :: pre) ::
    if account = [] then []
    else [(d.pairKey ip account, pre), (d.accountKey account, d.boundedIp ip ++ ':' :: pre)]

/-- `record_attempt` at time `now`. -/
def recordAttempt (ip password account : List Char) (now : ℤ) (r : SetStore) : SetStore :=
  (d.entries ip password account).foldl
    (fun r entry => Function.update r entry.1 ((r entry.1).record d.window grace entry.2 now)) r

/-- `_count` at time `now`. -/
def count (key : List Char) (now : ℤ) (r : SetStore) : SetStore × ℕ :=
  let z := (r key).slide d.window now
  (Function.update r key z, (z.membersFrom (now - d.window)).dedup.length)

/-- `detect_stuffing`. -/
def detectStuffing (ip account : List Char) (now : ℤ) (r : SetStore) : SetStore × Bool :=
  let (r, n) := d.count (if account = [] then d.ipKey ip else d.pairKey ip account) now r
  (r, d.entropyThreshold ≤ n)

/-- `is_ip_flagged`. -/
def isIpFlagged (ip : List Char) (now : ℤ) (r : SetStore) : SetStore × Bool :=
  let (r, n) := d.count (d.ipKey ip) now r
  (r, d.entropyThreshold ≤ n)

/-- `is_account_locked`. -/
def isAccountLocked (account : List Char) (now : ℤ) (r : SetStore) : SetStore × Bool :=
  if account = [] then (r, false)
  else
    let (r, n) := d.count (d.accountKey account) now r
    (r, d.accountEntropyThreshold ≤ n)

/-- `lockout_minutes`. -/
def lockoutMinutes : ℤ :=
  max 1 (min (d.lockoutDurationMinutes * d.lockoutMultiplier) d.lockoutMaxMinutes)

end Detector

/-- A request to the login endpoint: the client's address, the credentials, the readings of the clock and
the two answers of the rate limiter. `LoginRequest` asks for an address of mail and for six characters of
password. -/
structure LoginAttempt where
  ip : List Char
  account : List Char
  password : List Char
  now : ℕ → ℤ
  allowed : Bool
  allowedAgain : Bool
  account_ne : account ≠ []
  password_length : 6 ≤ password.length
  now_mono : Monotone now

/-- How the endpoint goes on. -/
inductive LoginDecision
  /-- 429, with the detail and the error code. -/
  | tooMany (detail : String) (errorCode : Option String)
  /-- `AuthStore.login` is called. -/
  | passwordChecked
deriving DecidableEq, Repr

namespace Detector

variable (d : Detector)

/-- `_enforce_login_rate_limits`; `none` where it returns. -/
def enforceLoginRateLimits (q : LoginAttempt) (r : SetStore) : SetStore × Option LoginDecision :=
  let r := d.recordAttempt q.ip q.password q.account (q.now 0) r
  match d.detectStuffing q.ip q.account (q.now 1) r with
  | (r, true) =>
      -- the count for the audit log
      let r := (d.count (d.ipKey q.ip) (q.now 2) r).1
      (r, some (.tooMany
        s!"Too many login attempts for this account from your address. Account locked for {d.lockoutMinutes} minutes."
        (some "credential_stuffing_detected")))
  | (r, false) =>
      match d.isAccountLocked q.account (q.now 2) r with
      | (r, true) =>
          -- the spray is logged, and the request goes on
          ((d.count (d.accountKey q.account) (q.now 3) r).1, none)
      | (r, false) => (r, none)

/-- `login`, up to the call of `AuthStore.login`. -/
def login (q : LoginAttempt) (r : SetStore) : SetStore × LoginDecision :=
  match d.enforceLoginRateLimits q r with
  | (r, some decision) => (r, decision)
  | (r, none) =>
      if q.allowed then
        match d.isIpFlagged q.ip (q.now 4) r with
        | (r, flagged) =>
            let r := if flagged then (d.count (d.ipKey q.ip) (q.now 5) r).1 else r
            if q.allowedAgain then (r, .passwordChecked)
            else (r, .tooMany "Too many login attempts from this IP. Please try again later." none)
      else
        (r, .tooMany
          s!"Too many login attempts for this account. Account locked for {d.lockoutMinutes} minutes."
          none)

/-- The requests are served one after the other. -/
def serve (h : List LoginAttempt) : SetStore :=
  h.foldl (fun r q => (d.login q r).1) fun _ => SortedSet.empty

end Detector

end ApexChainx.Auth
