import ApexChainx.Ledger.TxIndexer
import Mathlib.Algebra.Order.Field.Rat
import Mathlib.Tactic.Linarith

/-!
# The retry policy of the indexer

`RetryPolicy` and `is_retryable` (`app/services/tx_indexer.py`). The numbers of a policy are the exact values of
its floats, and so are the delays; but the power of two is an `int`, which a float is multiplied with only up to
`2 ^ 1023`.

`call_spec_iff`: a call goes as it should exactly when the policy has at most 1025 attempts or one of the first
1025 calls is the last one. `retryFrom_eq_call` is the link to the loop of `Ledger.TxIndexer`.
-/

namespace ApexChainx.Ledger

/-- A `RetryPolicy` that its constructor accepts, without `sleep` and `rng`. Its delays and its ratio are finite
floats: the constructor accepts NaN as well, and a `base_delay` that is an `int` never overflows. -/
structure RetryPolicy where
  maxAttempts : ℕ
  baseDelay : ℚ
  maxDelay : ℚ
  jitterRatio : ℚ
  attempts_pos : 1 ≤ maxAttempts
  base_pos : 0 < baseDelay
  base_le_max : baseDelay ≤ maxDelay
  jitter_nonneg : 0 ≤ jitterRatio
  jitter_le_one : jitterRatio ≤ 1

/-- The exceptions of `compute_delay`. -/
inductive DelayError
  | valueError (message : String)
  | overflowError (message : String)
deriving DecidableEq, Repr

namespace RetryPolicy

/-- The constructor with `__post_init__`. -/
def make (maxAttempts : ℤ) (baseDelay maxDelay jitterRatio : ℚ) : Except String RetryPolicy :=
  if hattempts : maxAttempts < 1 then .error "max_attempts must be >= 1"
  else if hbase : baseDelay ≤ 0 then .error "base_delay must be > 0"
  else if hmax : maxDelay < baseDelay then .error "max_delay must be >= base_delay"
  else if hjitter : ¬ (0 ≤ jitterRatio ∧ jitterRatio ≤ 1) then .error "jitter_ratio must be between 0 and 1"
  else
    .ok
      { maxAttempts := maxAttempts.toNat
        baseDelay := baseDelay
        maxDelay := maxDelay
        jitterRatio := jitterRatio
        attempts_pos := by omega
        base_pos := not_le.mp hbase
        base_le_max := not_lt.mp hmax
        jitter_nonneg := (not_not.mp hjitter).1
        jitter_le_one := (not_not.mp hjitter).2 }

variable (policy : RetryPolicy)

/-- `raw` of `compute_delay`. -/
def rawDelay (attempt : ℕ) : ℚ := min (policy.baseDelay * 2 ^ (attempt - 1)) policy.maxDelay

/-- What `compute_delay` returns, with the random number `u`. -/
def delay (u : ℚ) (attempt : ℕ) : ℚ :=
  min (max (policy.rawDelay attempt * (1 + policy.jitterRatio * (2 * u - 1))) 0) policy.maxDelay

/-- `compute_delay`; no float is as large as `2 ** 1024`. -/
def computeDelay (u : ℚ) (attempt : ℕ) : Except DelayError ℚ :=
  if attempt < 1 then .error (.valueError "attempt must be >= 1")
  else if 1024 ≤ attempt - 1 then .error (.overflowError "int too large to convert to float")
  else .ok (policy.delay u attempt)

end RetryPolicy

/-! ## The loop -/

/-- What the loop asks of an exception: its class, the status code of an `HTTPStatusError`, and its text. -/
structure Exceptions (ε : Type) where
  isTimeoutException : ε → Bool
  isTransportError : ε → Bool
  statusCode : ε → Option ℕ
  text : ε → String

/-- `is_retryable`. -/
def Exceptions.isRetryable {ε : Type} (x : Exceptions ε) (exc : ε) : Bool :=
  if x.isTimeoutException exc then true
  else if x.isTransportError exc then true
  else
    match x.statusCode exc with
    | some code => retryableStatusCodes.contains code
    | none => false

/-- How `call` ends. -/
inductive CallResult (α ε : Type)
  | returned (value : α)
  | raised (exc : ε)
  /-- `TxIndexerRetryExhausted`, raised from the last error. -/
  | retryExhausted (message : String) (cause : ε)
  | delayError (e : DelayError)

/-- What `on_retry` is called with before a sleep. -/
structure Retry (ε : Type) where
  attempt : ℕ
  delay : ℚ
  error : ε

/-- What `call` has done: how often it called the function, its end, and the retries with their sleeps. -/
structure CallTrace (α ε : Type) where
  calls : ℕ
  result : CallResult α ε
  retries : List (Retry ε)

section Call

variable {α ε : Type} (policy : RetryPolicy) (x : Exceptions ε) (rng : ℕ → ℚ) (fn : ℕ → Except ε α)
  (description : String)

/-- The text of the `TxIndexerRetryExhausted`. -/
def exhaustedMessage (attempt : ℕ) (exc : ε) : String :=
  description ++ " failed after " ++ toString attempt ++ " attempt(s): " ++ x.text exc

/-- The loop of `call` after `attempt` attempts. The function gives `fn i` at its call number `i`, and the random
source `rng i` for the delay after it. -/
def callFrom (attempt : ℕ) : CallTrace α ε :=
  match fn (attempt + 1) with
  | .ok value => ⟨attempt + 1, .returned value, []⟩
  | .error exc =>
      if x.isRetryable exc = false ∨ policy.maxAttempts ≤ attempt + 1 then
        if x.isRetryable exc then
          ⟨attempt + 1, .retryExhausted (exhaustedMessage x description (attempt + 1) exc) exc, []⟩
        else ⟨attempt + 1, .raised exc, []⟩
      else
        match policy.computeDelay (rng (attempt + 1)) (attempt + 1) with
        | .error e => ⟨attempt + 1, .delayError e, []⟩
        | .ok delay =>
            let rest := callFrom (attempt + 1)
            ⟨rest.calls, rest.result, ⟨attempt + 1, delay, exc⟩ :: rest.retries⟩
termination_by policy.maxAttempts - attempt

/-- `RetryPolicy.call`. -/
def RetryPolicy.call : CallTrace α ε := callFrom policy x rng fn description 0

/-! ## What a call should do -/

/-- The call raises an error that is worth another attempt. -/
def Retries (i : ℕ) : Prop := ∃ exc, fn i = .error exc ∧ x.isRetryable exc = true

/-- The first call that does not, or the last one that there may be. -/
structure LastCall (k : ℕ) : Prop where
  pos : 1 ≤ k
  le : k ≤ policy.maxAttempts
  retries : ∀ i, 1 ≤ i → i < k → Retries x fn i
  last : k = policy.maxAttempts ∨ ¬ Retries x fn k

/-- What the last call gives, passed on; a retryable error becomes the cause of another one. -/
def finalResult (k : ℕ) : CallResult α ε :=
  match fn k with
  | .ok value => .returned value
  | .error exc =>
      if x.isRetryable exc then .retryExhausted (exhaustedMessage x description k exc) exc else .raised exc

/-- The function is called up to its last call, whose result is passed on; before every further call there is one
sleep, no shorter than the exponential backoff less its jitter and no longer than the maximum. -/
structure CallSpec (trace : CallTrace α ε) : Prop where
  calls : LastCall policy x fn trace.calls
  result : trace.result = finalResult x fn description trace.calls
  exhausted : (∃ message cause, trace.result = .retryExhausted message cause) ↔
    ∀ i, 1 ≤ i → i ≤ policy.maxAttempts → Retries x fn i
  sleeps : trace.retries.length = trace.calls - 1
  bounds : ∀ i (hi : i < trace.retries.length),
    (1 - policy.jitterRatio) * min (policy.baseDelay * 2 ^ i) policy.maxDelay ≤ (trace.retries[i]).delay ∧
      (trace.retries[i]).delay ≤ policy.maxDelay

end Call

/-! ## Delays -/

/-- A delay is within the jitter below the backoff, and never above the maximum. -/
theorem RetryPolicy.delay_bounds (policy : RetryPolicy) {u : ℚ} (hlo : 0 ≤ u) (attempt : ℕ) :
    (1 - policy.jitterRatio) * policy.rawDelay attempt ≤ policy.delay u attempt ∧
      policy.delay u attempt ≤ policy.maxDelay := by
  have hpos : 0 ≤ policy.rawDelay attempt := by
    have hbase := policy.base_pos
    have hmax := policy.base_le_max
    exact le_min (by positivity) (by linarith)
  have hraw : policy.rawDelay attempt ≤ policy.maxDelay := min_le_right _ _
  have hjitter : 0 ≤ policy.jitterRatio * policy.rawDelay attempt := mul_nonneg policy.jitter_nonneg hpos
  have hfactor : policy.jitterRatio * (policy.rawDelay attempt * u) ≥ 0 :=
    mul_nonneg policy.jitter_nonneg (mul_nonneg hpos hlo)
  refine ⟨le_min (le_max_of_le_left ?_) ?_, min_le_right _ _⟩
  · calc (1 - policy.jitterRatio) * policy.rawDelay attempt
        ≤ (1 - policy.jitterRatio) * policy.rawDelay attempt
            + 2 * (policy.jitterRatio * (policy.rawDelay attempt * u)) := by linarith
      _ = policy.rawDelay attempt * (1 + policy.jitterRatio * (2 * u - 1)) := by ring
  · calc (1 - policy.jitterRatio) * policy.rawDelay attempt
        = policy.rawDelay attempt - policy.jitterRatio * policy.rawDelay attempt := by ring
      _ ≤ policy.maxDelay := by linarith

theorem RetryPolicy.computeDelay_eq_ok (policy : RetryPolicy) (u : ℚ) {attempt : ℕ} (hpos : 1 ≤ attempt)
    (hlt : attempt < 1025) : policy.computeDelay u attempt = .ok (policy.delay u attempt) := by
  unfold computeDelay
  rw [if_neg (by omega), if_neg (by omega)]

/-! ## One round of the loop -/

section Call

variable {α ε : Type} {policy : RetryPolicy} {x : Exceptions ε} {rng : ℕ → ℚ} {fn : ℕ → Except ε α}
  {description : String}

/-- The last round. -/
theorem callFrom_last {attempt : ℕ} (h : policy.maxAttempts ≤ attempt + 1 ∨ ¬ Retries x fn (attempt + 1)) :
    callFrom policy x rng fn description attempt =
      ⟨attempt + 1, finalResult x fn description (attempt + 1), []⟩ := by
  rw [callFrom]
  unfold finalResult
  cases hfn : fn (attempt + 1) with
  | ok value => rfl
  | error exc =>
      have hlast : x.isRetryable exc = false ∨ policy.maxAttempts ≤ attempt + 1 := by
        rcases h with hmax | hnot
        · exact .inr hmax
        · exact .inl (Bool.eq_false_iff.mpr fun hretry => hnot ⟨exc, hfn, hretry⟩)
      simp only
      rw [if_pos hlast]
      split_ifs <;> rfl

/-- A round that ends in a sleep. -/
theorem callFrom_retry {attempt : ℕ} {exc : ε} (hfn : fn (attempt + 1) = .error exc)
    (hretry : x.isRetryable exc = true) (hmore : attempt + 1 < policy.maxAttempts) (hlt : attempt < 1024) :
    callFrom policy x rng fn description attempt =
      ⟨(callFrom policy x rng fn description (attempt + 1)).calls,
        (callFrom policy x rng fn description (attempt + 1)).result,
        ⟨attempt + 1, policy.delay (rng (attempt + 1)) (attempt + 1), exc⟩ ::
          (callFrom policy x rng fn description (attempt + 1)).retries⟩ := by
  have hgo : ¬ (x.isRetryable exc = false ∨ policy.maxAttempts ≤ attempt + 1) := by
    rintro (hnot | hmax)
    · rw [hretry] at hnot
      cases hnot
    · omega
  rw [callFrom]
  simp only [hfn]
  rw [if_neg hgo, policy.computeDelay_eq_ok _ (by omega) (by omega)]

/-- The round whose delay cannot be computed. -/
theorem callFrom_overflow {attempt : ℕ} {exc : ε} (hfn : fn (attempt + 1) = .error exc)
    (hretry : x.isRetryable exc = true) (hmore : attempt + 1 < policy.maxAttempts) (hge : 1024 ≤ attempt) :
    (callFrom policy x rng fn description attempt).result =
      .delayError (.overflowError "int too large to convert to float") := by
  have hgo : ¬ (x.isRetryable exc = false ∨ policy.maxAttempts ≤ attempt + 1) := by
    rintro (hnot | hmax)
    · rw [hretry] at hnot
      cases hnot
    · omega
  have hdelay : policy.computeDelay (rng (attempt + 1)) (attempt + 1) =
      .error (.overflowError "int too large to convert to float") := by
    unfold RetryPolicy.computeDelay
    rw [if_neg (by omega), if_pos (by omega)]
  rw [callFrom]
  simp only [hfn]
  rw [if_neg hgo, hdelay]

/-! ## The rounds together -/

variable (rng description) in
/-- Up to call number 1025 the loop gets to its last call, with a sleep for each one before it. -/
theorem callFrom_of_le {n k : ℕ} (hn : n < k) (hk : k ≤ 1025) (hmax : k ≤ policy.maxAttempts)
    (hretries : ∀ i, n < i → i < k → Retries x fn i) (hlast : k = policy.maxAttempts ∨ ¬ Retries x fn k) :
    (callFrom policy x rng fn description n).calls = k ∧
      (callFrom policy x rng fn description n).result = finalResult x fn description k ∧
      (callFrom policy x rng fn description n).retries.map (·.delay) =
        (List.range' (n + 1) (k - 1 - n)).map fun i => policy.delay (rng i) i := by
  induction hd : k - 1 - n generalizing n with
  | zero =>
      obtain rfl : k = n + 1 := by omega
      rw [callFrom_last (hlast.imp_left ge_of_eq)]
      exact ⟨rfl, rfl, rfl⟩
  | succ d ih =>
      obtain ⟨exc, hfn, hretry⟩ := hretries (n + 1) (by omega) (by omega)
      obtain ⟨hcalls, hresult, hdelays⟩ :=
        ih (n := n + 1) (by omega) (fun i hi => hretries i (by omega)) (by omega)
      rw [callFrom_retry hfn hretry (by omega) (by omega)]
      refine ⟨hcalls, hresult, ?_⟩
      rw [List.map_cons, hdelays, List.range'_succ, List.map_cons]

/-- With more attempts than that, and no call that ends it, the loop ends in an `OverflowError`. -/
theorem callFrom_of_retries {n : ℕ} (hn : n ≤ 1024) (hmax : 1025 < policy.maxAttempts)
    (hretries : ∀ i, n < i → i ≤ 1025 → Retries x fn i) :
    (callFrom policy x rng fn description n).result =
      .delayError (.overflowError "int too large to convert to float") := by
  induction hd : 1024 - n generalizing n with
  | zero =>
      obtain ⟨exc, hfn, hretry⟩ := hretries (n + 1) (by omega) (by omega)
      exact callFrom_overflow hfn hretry (by omega) (by omega)
  | succ d ih =>
      obtain ⟨exc, hfn, hretry⟩ := hretries (n + 1) (by omega) (by omega)
      rw [callFrom_retry hfn hretry (by omega) (by omega)]
      exact ih (n := n + 1) (by omega) (fun i hi => hretries i (by omega)) (by omega)

/-- There is a last call. -/
theorem exists_lastCall (policy : RetryPolicy) (x : Exceptions ε) (fn : ℕ → Except ε α) :
    ∃ k, LastCall policy x fn k := by
  by_cases hall : ∀ i, 1 ≤ i → i < policy.maxAttempts → Retries x fn i
  · exact ⟨policy.maxAttempts, policy.attempts_pos, le_refl _, hall, .inl rfl⟩
  · classical
    push Not at hall
    obtain ⟨hpos, hlt, hnot⟩ := Nat.find_spec hall
    refine ⟨Nat.find hall, hpos, hlt.le, fun i hi hfirst => ?_, .inr hnot⟩
    by_contra hretries
    exact Nat.find_min hall hfirst ⟨hi, hfirst.trans hlt, hretries⟩

theorem finalResult_retryExhausted_iff {k : ℕ} :
    (∃ message cause, finalResult x fn description k = .retryExhausted message cause) ↔ Retries x fn k := by
  unfold finalResult Retries
  cases hfn : fn k with
  | ok value =>
      constructor
      · rintro ⟨message, cause, h⟩
        cases h
      · rintro ⟨exc, h, -⟩
        cases h
  | error exc =>
      simp only
      split_ifs with hretry
      · exact iff_of_true ⟨_, _, rfl⟩ ⟨exc, rfl, hretry⟩
      · refine iff_of_false ?_ ?_
        · rintro ⟨message, cause, h⟩
          cases h
        · rintro ⟨exc', h, hretry'⟩
          obtain rfl := Except.error.inj h
          exact hretry hretry'

/-- A call whose last one is among the first 1025. -/
theorem callSpec_of_lastCall {k : ℕ} (hrng : ∀ i, 0 ≤ rng i ∧ rng i < 1) (hlast : LastCall policy x fn k)
    (hk : k ≤ 1025) : CallSpec policy x fn description (policy.call x rng fn description) := by
  obtain ⟨hcalls, hresult, hdelays⟩ := callFrom_of_le rng description
    (show 0 < k from hlast.pos) hk hlast.le (fun i hi => hlast.retries i hi) hlast.last
  have hlength : (policy.call x rng fn description).retries.length = k - 1 := by
    have hmap := congrArg List.length hdelays
    rwa [List.length_map, List.length_map, List.length_range'] at hmap
  refine ⟨hcalls.symm ▸ hlast, hcalls.symm ▸ hresult, ?_, hcalls.symm ▸ hlength, fun i hi => ?_⟩
  · rw [show (policy.call x rng fn description).result = _ from hresult, finalResult_retryExhausted_iff]
    constructor
    · intro hretries i hpos hle
      rcases hlast.last with rfl | hnot
      · rcases Nat.lt_or_eq_of_le hle with hlt | rfl
        · exact hlast.retries i hpos hlt
        · exact hretries
      · exact absurd hretries hnot
    · exact fun hall => hall k hlast.pos hlast.le
  · have hdelay : ((policy.call x rng fn description).retries[i]).delay = policy.delay (rng (i + 1)) (i + 1) := by
      have hget : ((policy.call x rng fn description).retries.map (·.delay))[i]? =
          ((List.range' 1 (k - 1)).map fun i => policy.delay (rng i) i)[i]? :=
        congrArg (fun delays : List ℚ => delays[i]?) hdelays
      rw [List.getElem?_map, List.getElem?_map, List.getElem?_eq_getElem hi,
        List.getElem?_range' (by omega), Nat.one_mul, Nat.add_comm 1 i] at hget
      exact Option.some.inj hget
    rw [hdelay]
    exact policy.delay_bounds (hrng (i + 1)).1 (i + 1)

/-- An error of `compute_delay` is none that the function has given. -/
theorem not_callSpec_of_delayError {trace : CallTrace α ε} {e : DelayError} (h : trace.result = .delayError e) :
    ¬ CallSpec policy x fn description trace := by
  intro hspec
  have hfinal := hspec.result
  rw [h] at hfinal
  unfold finalResult at hfinal
  split at hfinal
  · cases hfinal
  · split_ifs at hfinal

end Call

/-- For every policy, random source and function: the call goes as it should if and only if there are at most
1025 attempts or one of the first 1025 calls does not raise a retryable error. -/
theorem call_spec_iff {α ε : Type} (policy : RetryPolicy) (x : Exceptions ε) {rng : ℕ → ℚ}
    (hrng : ∀ i, 0 ≤ rng i ∧ rng i < 1) (fn : ℕ → Except ε α) (description : String) :
    CallSpec policy x fn description (policy.call x rng fn description) ↔
      policy.maxAttempts ≤ 1025 ∨ ∃ i, 1 ≤ i ∧ i ≤ 1025 ∧ ¬ Retries x fn i := by
  constructor
  · intro hspec
    by_contra hbad
    push Not at hbad
    obtain ⟨hmax, hretries⟩ := hbad
    exact not_callSpec_of_delayError (callFrom_of_retries (by omega) hmax fun i hi => hretries i hi) hspec
  · intro h
    obtain ⟨k, hlast⟩ := exists_lastCall policy x fn
    refine callSpec_of_lastCall hrng hlast ?_
    rcases h with hmax | ⟨i, hpos, hle, hnot⟩
    · exact hlast.le.trans hmax
    · by_contra hlt
      exact hnot (hlast.retries i hpos (by omega))

/-! ## The fetch of a page -/

/-- The exceptions of a fetch, with their texts. -/
def fetchErrors (text : FetchError → String) : Exceptions FetchError where
  isTimeoutException e := e = .timeout
  isTransportError e := e = .transport
  statusCode
    | .status code => some code
    | _ => none
  text := text

theorem isRetryable_fetchErrors (text : FetchError → String) (e : FetchError) :
    (fetchErrors text).isRetryable e = isRetryable e := by
  cases e <;> rfl

/-- A pass goes on with what the call returned, or raises what the call raised. -/
inductive SameEnd {α : Type} (trace : CallTrace α FetchError) : Except PassError α → Prop
  | returned (value : α) (h : trace.result = .returned value) : SameEnd trace (.ok value)
  | raised (e : FetchError) (h : trace.result = .raised e) : SameEnd trace (.error (.fetch e))
  | exhausted (message : String) (e : FetchError) (h : trace.result = .retryExhausted message e) :
      SameEnd trace (.error (.retryExhausted trace.calls e))

theorem SameEnd.of_eq {α : Type} {trace trace' : CallTrace α FetchError} {r : Except PassError α} (h : SameEnd trace r)
    (hresult : trace'.result = trace.result) (hcalls : trace'.calls = trace.calls) : SameEnd trace' r := by
  cases h with
  | returned value h => exact .returned value (hresult.trans h)
  | raised e h => exact .raised e (hresult.trans h)
  | exhausted message e h => exact hcalls ▸ .exhausted message e (hresult.trans h)

theorem sameEnd_callFrom {α : Type} (policy : RetryPolicy) (hmax : policy.maxAttempts ≤ 1025)
    (text : FetchError → String) (rng : ℕ → ℚ) (fn : ℕ → Except FetchError α) (description : String)
    {left attempt : ℕ} (hleft : policy.maxAttempts = attempt + 1 + left) :
    SameEnd (callFrom policy (fetchErrors text) rng fn description attempt) (retryFrom fn left (attempt + 1)) := by
  induction left generalizing attempt with
  | zero =>
      rw [callFrom_last (.inl (by omega)), retryFrom]
      unfold finalResult
      cases fn (attempt + 1) with
      | ok value => exact .returned value rfl
      | error e =>
          simp only [isRetryable_fetchErrors]
          split
          · exact .exhausted _ e rfl
          · exact .raised e rfl
  | succ left ih =>
      rw [retryFrom]
      by_cases hretries : Retries (fetchErrors text) fn (attempt + 1)
      · obtain ⟨e, hfn, hretry⟩ := hretries
        rw [callFrom_retry hfn hretry (by omega) (by omega)]
        rw [isRetryable_fetchErrors] at hretry
        simp only [hfn, hretry, if_true]
        exact (ih (by omega)).of_eq rfl rfl
      · rw [callFrom_last (.inr hretries)]
        unfold finalResult
        cases hfn : fn (attempt + 1) with
        | ok value => exact .returned value rfl
        | error e =>
            have hnot : isRetryable e = false := by
              rw [← isRetryable_fetchErrors text]
              exact Bool.eq_false_iff.mpr fun hretry => hretries ⟨e, hfn, hretry⟩
            simp only [isRetryable_fetchErrors, hnot, Bool.false_eq_true, if_false]
            exact .raised e rfl

/-- Up to 1025 attempts the loop of the passes ends as the call does. -/
theorem retryFrom_eq_call {α : Type} (policy : RetryPolicy) (hmax : policy.maxAttempts ≤ 1025)
    (text : FetchError → String) (rng : ℕ → ℚ) (fn : ℕ → Except FetchError α) (description : String) :
    SameEnd (policy.call (fetchErrors text) rng fn description) (retryFrom fn (policy.maxAttempts - 1) 1) :=
  sameEnd_callFrom policy hmax text rng fn description (by have := policy.attempts_pos; omega)

/-! ## Samples -/

/-- The policy of the default settings. -/
def defaultPolicy : RetryPolicy where
  maxAttempts := 4
  baseDelay := 1 / 2
  maxDelay := 8
  jitterRatio := 1 / 2
  attempts_pos := Nat.le_add_left 1 3
  base_pos := by norm_num
  base_le_max := by norm_num
  jitter_nonneg := by norm_num
  jitter_le_one := by norm_num

/-- The same with 1026 attempts. -/
def patientPolicy : RetryPolicy := { defaultPolicy with maxAttempts := 1026, attempts_pos := by decide }

/-- A connection that always times out. -/
def timeouts : ℕ → Except FetchError ℕ := fun _ => .error .timeout

/-- Four timeouts under the default policy. -/
theorem default_policy_spec : CallSpec defaultPolicy (fetchErrors fun _ => "timed out") timeouts
    "horizon payments fetch"
    (defaultPolicy.call (fetchErrors fun _ => "timed out") (fun _ => 0) timeouts "horizon payments fetch") :=
  (call_spec_iff defaultPolicy (fetchErrors fun _ => "timed out") (fun _ => ⟨le_refl 0, one_pos⟩) timeouts
    "horizon payments fetch").mpr (.inl (by decide))

/-- 1025 timeouts under a policy that the constructor accepts end in an `OverflowError`. -/
theorem patient_policy_overflows :
    (RetryPolicy.make 1026 (1 / 2) 8 (1 / 2)).toOption = some patientPolicy ∧
      (patientPolicy.call (fetchErrors fun _ => "timed out") (fun _ => 0) timeouts "horizon payments fetch").result =
        .delayError (.overflowError "int too large to convert to float") ∧
      ¬ CallSpec patientPolicy (fetchErrors fun _ => "timed out") timeouts "horizon payments fetch"
        (patientPolicy.call (fetchErrors fun _ => "timed out") (fun _ => 0) timeouts "horizon payments fetch") := by
  have hretries : ∀ i, Retries (fetchErrors fun _ => "timed out") timeouts i := fun _ => ⟨.timeout, rfl, rfl⟩
  have hresult : (patientPolicy.call (fetchErrors fun _ => "timed out") (fun _ => 0) timeouts
      "horizon payments fetch").result = .delayError (.overflowError "int too large to convert to float") :=
    callFrom_of_retries (by omega) (by decide) fun i _ _ => hretries i
  refine ⟨?_, hresult, not_callSpec_of_delayError hresult⟩
  unfold RetryPolicy.make
  norm_num
  rfl

end ApexChainx.Ledger
