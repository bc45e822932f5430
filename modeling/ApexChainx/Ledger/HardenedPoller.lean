import ApexChainx.Lib.Transition
import ApexChainx.Ledger.PayloadSize

/-!
# The hardened block poller

`BlockPoller` (`app/services/block_poller_hardening.py`) asks for one block at a time, by its number, within
a budget of requests and with retries. The next number it asks for is taken from the block it was given,
through whichever of three fields holds it, and is not compared with the number it asked for: the blocks
are consecutive exactly as long as the source answers each request with the block of that number.

`HardenedEnv` holds what one `poll_once` meets. A payload nested deeper than the stack allows makes `json.dumps` raise
`RecursionError`, which is neither a `TypeError` nor a `ValueError`, so that the fetch is retried. Times are in any
unit, and the delays between two attempts are left out. `process_block` does not alter the dictionary it is given.
-/

namespace ApexChainx.Ledger

open ApexChainx.Lib

/-! ## Rate limiting -/

/-- The options of `SlidingWindowRateLimiter`. -/
structure RateLimit where
  maxRequests : ℕ
  windowSeconds : ℤ
  maxRequests_pos : 0 < maxRequests
  windowSeconds_pos : 0 < windowSeconds

/-- `_discard_expired`. -/
def discardExpired (limit : RateLimit) (now : ℤ) (timestamps : List ℤ) : List ℤ :=
  timestamps.dropWhile fun t => t ≤ now - limit.windowSeconds

/-- `try_acquire`: whether a slot was reserved, and the timestamps after it. -/
def tryAcquire (limit : RateLimit) (now : ℤ) (timestamps : List ℤ) : Bool × List ℤ :=
  let kept := discardExpired limit now timestamps
  if kept.length ≥ limit.maxRequests then (false, kept) else (true, kept ++ [now])

/-! ## Polling -/

/-- What `fetch_block` does: it returns a payload, or raises `BlockPollerValidationError` or another
exception. -/
inductive FetchBlock
  | payload (value : PyValue)
  | invalid (reason : Invalid)
  | raised (detail : String)

/-- What one `poll_once` meets: the clock, how many containers `json.dumps` can be inside of, the answer of
`fetch_block` to each attempt for a number, and the exception of `process_block`, if it raises one. -/
structure HardenedEnv where
  now : ℤ
  levels : ℕ
  fetchBlock : ℕ → ℕ → FetchBlock
  processBlock : SanitizedBlock → Option String

/-- The options of a poller. -/
structure HardenedOptions where
  maxRetries : ℕ
  rateLimit : RateLimit
  limits : PayloadLimits
  unicode : UnicodeDigits

/-- What `poll_once` raises. -/
inductive HardenedError
  | validation (reason : Invalid)
  /-- `BlockPollerFetchError`. -/
  | fetch (sequence attempts : ℕ)
  /-- The exception of `process_block`. -/
  | processing (detail : String)
deriving DecidableEq, Repr

/-- A poller. `processed` records the blocks `process_block` has accepted; no method reads it. -/
structure HardenedPoller where
  nextSequence : ℕ
  timestamps : List ℤ
  processed : List SanitizedBlock

def HardenedPoller.init (startSequence : ℕ) : HardenedPoller := ⟨startSequence, [], []⟩

/-- `PollResult`. -/
inductive PollResult
  | rateLimited
  | processed (sequence attempts : ℕ) (block : SanitizedBlock)

/-- One attempt of `_fetch_with_retry`: a block, an exception that ends the fetch, or one that does not. -/
inductive Attempt
  | fetched (block : SanitizedBlock)
  | final (reason : Invalid)
  | transient

def attemptBlock (opts : HardenedOptions) (levels : ℕ) : FetchBlock → Attempt
  | .invalid reason => .final reason
  | .raised _ => .transient
  | .payload value =>
      match sanitizeWithin levels opts.limits opts.unicode value with
      | .ok block => .fetched block
      | .error (.raised (.validation reason)) => .final reason
      | .error (.raised (.valueError _)) => .transient
      | .error .recursionError => .transient

/-- The loop of `_fetch_with_retry` from attempt `attempts` on, with `left` retries after it. -/
def fetchBlockLoop (opts : HardenedOptions) (env : HardenedEnv) (sequence : ℕ) :
    ℕ → ℕ → Except HardenedError (SanitizedBlock × ℕ)
  | left, attempts =>
      match attemptBlock opts env.levels (env.fetchBlock sequence attempts) with
      | .fetched block => .ok (block, attempts)
      | .final reason => .error (.validation reason)
      | .transient =>
          match left with
          | 0 => .error (.fetch sequence attempts)
          | left + 1 => fetchBlockLoop opts env sequence left (attempts + 1)

/-- `_fetch_with_retry`. -/
def fetchBlockWithRetry (opts : HardenedOptions) (env : HardenedEnv) (sequence : ℕ) :
    Except HardenedError (SanitizedBlock × ℕ) :=
  fetchBlockLoop opts env sequence opts.maxRetries 1

/-- `poll_once`: what it returns or raises, and the poller after it. -/
def hardenedPollOnce (opts : HardenedOptions) (env : HardenedEnv) (p : HardenedPoller) :
    Except HardenedError PollResult × HardenedPoller :=
  match tryAcquire opts.rateLimit env.now p.timestamps with
  | (false, timestamps) => (.ok .rateLimited, { p with timestamps := timestamps })
  | (true, timestamps) =>
      let p := { p with timestamps := timestamps }
      match fetchBlockWithRetry opts env p.nextSequence with
      | .error e => (.error e, p)
      | .ok (block, attempts) =>
          match env.processBlock block with
          | some detail => (.error (.processing detail), p)
          | none =>
              (.ok (.processed block.sequence attempts block),
                { p with nextSequence := block.sequence + 1, processed := p.processed ++ [block] })

def hardenedStep (opts : HardenedOptions) (p : HardenedPoller) (env : HardenedEnv) :
    Option HardenedPoller :=
  some (hardenedPollOnce opts env p).2

/-! ## Blocks and requests -/

variable {opts : HardenedOptions}

/-- The block a poll gets from the source, within its budget and its retries, and `process_block` accepts. -/
def accepted (opts : HardenedOptions) (p : HardenedPoller) (env : HardenedEnv) : Option SanitizedBlock :=
  if (tryAcquire opts.rateLimit env.now p.timestamps).1 then
    match fetchBlockWithRetry opts env p.nextSequence with
    | .ok (block, _) => if (env.processBlock block).isNone then some block else none
    | .error _ => none
  else none

/-- The block that is accepted has the number that was asked for. -/
def AnswersRequest (opts : HardenedOptions) (p : HardenedPoller) (env : HardenedEnv) : Prop :=
  ∀ block ∈ accepted opts p env, block.sequence = p.nextSequence

instance (p : HardenedPoller) (env : HardenedEnv) : Decidable (AnswersRequest opts p env) :=
  inferInstanceAs (Decidable (∀ block ∈ accepted opts p env, block.sequence = p.nextSequence))

/-- What a poll does: it accepts no block and goes on asking for the same number, or it accepts one and
asks for the number after that block's. -/
theorem hardenedStep_cases {p p' : HardenedPoller} {env : HardenedEnv}
    (h : hardenedStep opts p env = some p') :
    (accepted opts p env = none ∧ p'.nextSequence = p.nextSequence ∧ p'.processed = p.processed) ∨
      ∃ block, accepted opts p env = some block ∧ p'.nextSequence = block.sequence + 1 ∧
        p'.processed = p.processed ++ [block] := by
  obtain rfl := Option.some.inj h
  unfold accepted hardenedPollOnce
  rcases tryAcquire opts.rateLimit env.now p.timestamps with ⟨acquired, timestamps⟩
  cases acquired with
  | false => exact .inl ⟨rfl, rfl, rfl⟩
  | true =>
      simp only [if_true]
      cases hfetch : fetchBlockWithRetry opts env p.nextSequence with
      | error e => exact .inl ⟨rfl, rfl, rfl⟩
      | ok fetched =>
          obtain ⟨block, attempts⟩ := fetched
          dsimp only
          cases hprocess : env.processBlock block with
          | some detail => exact .inl ⟨rfl, rfl, rfl⟩
          | none => exact .inr ⟨block, rfl, rfl, rfl⟩

/-- What a run adds: the blocks accepted on the way, which are consecutive from the next number on exactly
when each of them answered its request. -/
theorem run_processed {polls : List HardenedEnv} {p p' : HardenedPoller}
    (hrun : run (hardenedStep opts) p polls = some p') :
    ∃ blocks, p'.processed = p.processed ++ blocks ∧
      (Guarded (hardenedStep opts) (AnswersRequest opts) p polls ↔
        blocks.map SanitizedBlock.sequence = List.range' p.nextSequence blocks.length) ∧
      (blocks.map SanitizedBlock.sequence = List.range' p.nextSequence blocks.length →
        p'.nextSequence = p.nextSequence + blocks.length) := by
  induction polls generalizing p with
  | nil =>
      obtain rfl := Option.some.inj hrun
      exact ⟨[], by simp, by simp [Guarded], by simp⟩
  | cons env polls ih =>
      obtain ⟨p₁, hstep, hrest⟩ := run_cons_eq_some.mp hrun
      obtain ⟨blocks, hblocks, hguard, hnext⟩ := ih hrest
      have htail : Guarded (hardenedStep opts) (AnswersRequest opts) p (env :: polls) ↔
          AnswersRequest opts p env ∧
            blocks.map SanitizedBlock.sequence = List.range' p₁.nextSequence blocks.length := by
        rw [← hguard]
        simp [Guarded, hstep]
      rcases hardenedStep_cases hstep with ⟨hnone, hsame, hprocessed⟩ | ⟨block, hblock, hseq, hprocessed⟩
      · have hanswers : AnswersRequest opts p env := by
          intro block hmem
          rw [hnone] at hmem
          cases hmem
        refine ⟨blocks, by rw [hblocks, hprocessed], ?_, ?_⟩
        · rw [htail, hsame]
          exact and_iff_right hanswers
        · intro hrange
          rw [hnext (hsame ▸ hrange), hsame]
      · have hanswers : AnswersRequest opts p env ↔ block.sequence = p.nextSequence := by
          simp [AnswersRequest, hblock]
        have hcons : (block :: blocks).map SanitizedBlock.sequence
              = List.range' p.nextSequence (block :: blocks).length ↔
            block.sequence = p.nextSequence ∧
              blocks.map SanitizedBlock.sequence = List.range' (p.nextSequence + 1) blocks.length := by
          rw [List.map_cons, List.length_cons, List.range'_succ, List.cons.injEq]
        refine ⟨block :: blocks, ?_, ?_, ?_⟩
        · rw [hblocks, hprocessed, List.append_assoc, List.singleton_append]
        · rw [htail, hanswers, hcons, hseq]
          refine and_congr_right ?_
          intro heq
          rw [heq]
        · intro hrange
          obtain ⟨heq, hrange⟩ := hcons.mp hrange
          rw [heq] at hseq
          rw [hnext (hseq ▸ hrange), hseq, List.length_cons]
          omega

/-- In every run of `poll_once`, from any start number, with any answers of the source and any failures:
the accepted blocks carry consecutive numbers from the start number on, and the next number follows them,
if and only if each accepted block had the number it was asked for by. -/
theorem processed_consecutive_iff (opts : HardenedOptions) (startSequence : ℕ)
    {polls : List HardenedEnv} {p : HardenedPoller}
    (hrun : run (hardenedStep opts) (HardenedPoller.init startSequence) polls = some p) :
    (p.processed.map SanitizedBlock.sequence = List.range' startSequence p.processed.length ∧
        p.nextSequence = startSequence + p.processed.length) ↔
      Guarded (hardenedStep opts) (AnswersRequest opts) (HardenedPoller.init startSequence) polls := by
  obtain ⟨blocks, hblocks, hguard, hnext⟩ := run_processed hrun
  obtain rfl : p.processed = blocks := hblocks
  rw [hguard]
  constructor
  · rintro ⟨hrange, -⟩
    exact hrange
  · intro hrange
    exact ⟨hrange, hnext hrange⟩

/-- The settings' defaults, and the ASCII digits. -/
def sampleHardened : HardenedOptions where
  maxRetries := 3
  rateLimit := ⟨10, 1, by decide, by decide⟩
  limits := ⟨5 * 1024 * 1024, 1000, 256, 4096, 10000, 8⟩
  unicode := ⟨Char.isDigit, fun c => if c.isDigit then some (c.toNat - '0'.toNat) else none⟩

/-- A source that fails once and then answers with one and the same payload. -/
def answers (failure : FetchBlock) (payload : PyValue) (now : ℤ) : HardenedEnv where
  now := now
  levels := 2
  fetchBlock _ attempts := if attempts = 1 then failure else .payload payload
  processBlock _ := none

/-- A ledger under each of the field names and encodings; the source times out first, and then it answers with a block
that is nested too deep. -/
def consecutivePolls : List HardenedEnv :=
  [answers (.raised "timeout") (.dict [(.str "sequence", .int 7)]) 0,
    answers (.payload (.dict [(.str "sequence", .list [.list []])])) (.dict [(.str "ledger", .str " 8 ")]) 5]

theorem processed_consecutive_sample : ∃ p,
    run (hardenedStep sampleHardened) (HardenedPoller.init 7) consecutivePolls = some p ∧
      p.processed.map SanitizedBlock.sequence = [7, 8] ∧ p.nextSequence = 9 ∧
      Guarded (hardenedStep sampleHardened) (AnswersRequest sampleHardened) (HardenedPoller.init 7)
        consecutivePolls := by
  obtain ⟨p, hrun, hprocessed, hnext⟩ : ∃ p,
      run (hardenedStep sampleHardened) (HardenedPoller.init 7) consecutivePolls = some p ∧
        p.processed.map SanitizedBlock.sequence = [7, 8] ∧ p.nextSequence = 9 :=
    ⟨_, rfl, rfl, rfl⟩
  have hlen : p.processed.length = 2 := by simpa using congrArg List.length hprocessed
  refine ⟨p, hrun, hprocessed, hnext, ?_⟩
  refine (processed_consecutive_iff sampleHardened 7 hrun).mp ?_
  rw [hlen]
  exact ⟨hprocessed, hnext⟩

/-- Block 7 is asked for and block 3 comes back: it is processed, and the poller goes on with block 4. -/
theorem other_block_processed : ∃ p,
    run (hardenedStep sampleHardened) (HardenedPoller.init 7)
        [answers (.raised "timeout") (.dict [(.str "sequence", .int 3)]) 0] = some p ∧
      p.processed.map SanitizedBlock.sequence ≠ List.range' 7 p.processed.length ∧
      p.nextSequence = 4 :=
  ⟨_, rfl, by decide, rfl⟩

end ApexChainx.Ledger
