import ApexChainx.Core.DateTime
import ApexChainx.Lib.Transition

/-!
# The block poller

`BlockPoller` (`app/services/block_poller.py`) asks a source for the blocks after its cursor and hands
them one by one to a handler. The cursor moves only after the handler has returned, so that whatever
fails, the next poll goes on with the first block that is not done.

The source and the handler are given by what they answer: `PollEnv` holds the answers met by one
`poll_once`, and every poll may meet others. The delays between two attempts have no effect on the state
and are left out, as are the log records.
-/

namespace ApexChainx.Ledger

open ApexChainx.Lib

variable {π : Type}

/-- `Block`, with the bounds its constructor enforces. -/
structure Block (π : Type) where
  cursor : String
  height : ℕ
  payload : π
  cursor_ne : cursor ≠ ""

/-- `BlockFetchError`. -/
structure BlockFetchError where
  message : String
  retryable : Bool
  statusCode : Option ℕ
deriving DecidableEq, Repr

/-- The errors `poll_once` raises. -/
inductive BlockPollerError (π : Type)
  | fetch (e : BlockFetchError)
  /-- `BlockHandlerError`. -/
  | handler (message : String) (block : Block π)

def BlockPollerError.message : BlockPollerError π → String
  | .fetch e => e.message
  | .handler message _ => message

/-- `type(error).__name__`. -/
def BlockPollerError.typeName : BlockPollerError π → String
  | .fetch _ => "BlockFetchError"
  | .handler _ _ => "BlockHandlerError"

/-- What `fetch_blocks` answers; an element that is not a `Block` is `none`. -/
inductive Answer (π : Type)
  | raised (e : BlockFetchError)
  /-- Any other exception. -/
  | exception (message : String)
  | notSequence
  | blocks (items : List (Option (Block π)))

/-- What one `poll_once` meets: the source's answer to each attempt, the exception the handler raises on
the `n`-th block, if there is a handler, and the clock. -/
structure PollEnv (π : Type) where
  fetchBlocks : ℕ → Option String → ℕ → Answer π
  handler : Option (ℕ → Block π → Option String)
  startedAt : DateTime
  endedAt : DateTime

/-- The options of a poller. -/
structure PollerOptions where
  batchSize : ℕ
  maxAttempts : ℕ
  batchSize_bounds : 1 ≤ batchSize ∧ batchSize ≤ 200
  maxAttempts_pos : 1 ≤ maxAttempts

/-- A poller. `handled` records the blocks it is done with; no method reads it. -/
structure BlockPoller (π : Type) where
  cursor : Option String
  lastPollAt : Option DateTime
  lastSuccessAt : Option DateTime
  lastError : Option String
  lastErrorType : Option String
  consecutiveFailures : ℕ
  handled : List (Block π)

def BlockPoller.init (startCursor : Option String) : BlockPoller π :=
  ⟨startCursor, none, none, none, none, 0, []⟩

/-- `PollCycleResult`. -/
structure PollCycleResult where
  blocksProcessed : ℕ
  cursor : Option String
  latestHeight : Option ℕ
  attempts : ℕ
  startedAt : DateTime
  completedAt : DateTime

/-- `_validate_blocks`. -/
def validateBlocks (items : List (Option (Block π))) : Except BlockFetchError (List (Block π)) :=
  if items.all Option.isSome then .ok (items.filterMap id)
  else .error ⟨"block source returned a non-Block value", false, none⟩

/-- One attempt of `_fetch_with_retry`. -/
def attemptFetch : Answer π → Except BlockFetchError (List (Block π))
  | .raised e => .error e
  | .exception message => .error ⟨"unexpected block source error: " ++ message, true, none⟩
  | .notSequence => .error ⟨"block source must return a sequence of Block objects", false, none⟩
  | .blocks items => validateBlocks items

/-- The loop of `_fetch_with_retry` from attempt `attempt` on, with `left` attempts after it. -/
def fetchLoop (opts : PollerOptions) (env : PollEnv π) (cursor : Option String) :
    ℕ → ℕ → Except BlockFetchError (List (Block π) × ℕ)
  | left, attempt =>
      match attemptFetch (env.fetchBlocks attempt cursor opts.batchSize) with
      | .ok blocks => .ok (blocks, attempt)
      | .error e =>
          match left with
          | 0 => .error e
          | left + 1 => if e.retryable then fetchLoop opts env cursor left (attempt + 1) else .error e

/-- `_fetch_with_retry`. -/
def fetchWithRetry (opts : PollerOptions) (env : PollEnv π) (cursor : Option String) :
    Except BlockFetchError (List (Block π) × ℕ) :=
  fetchLoop opts env cursor (opts.maxAttempts - 1) 1

/-- The number of the last attempt that the loop makes. -/
def attemptsFrom (opts : PollerOptions) (env : PollEnv π) (cursor : Option String) : ℕ → ℕ → ℕ
  | left, attempt =>
      match attemptFetch (env.fetchBlocks attempt cursor opts.batchSize) with
      | .ok _ => attempt
      | .error e =>
          match left with
          | 0 => attempt
          | left + 1 => if e.retryable then attemptsFrom opts env cursor left (attempt + 1) else attempt

/-- The number of attempts that `_fetch_with_retry` makes, which it returns or logs. -/
def attemptsMade (opts : PollerOptions) (env : PollEnv π) (cursor : Option String) : ℕ :=
  attemptsFrom opts env cursor (opts.maxAttempts - 1) 1

/-- `_record_failure`. -/
def BlockPoller.recordFailure (p : BlockPoller π) (now : DateTime) (e : BlockPollerError π) :
    BlockPoller π :=
  { p with
    lastPollAt := some now
    lastError := some e.message
    lastErrorType := some e.typeName
    consecutiveFailures := p.consecutiveFailures + 1 }

/-- The poller after a block is done. -/
def BlockPoller.advance (p : BlockPoller π) (block : Block π) : BlockPoller π :=
  { p with cursor := some block.cursor, handled := p.handled ++ [block] }

/-- The loop of `poll_once` over the blocks of a page, after `processed` of them. -/
def processBlocks (env : PollEnv π) :
    List (Block π) → ℕ → Option ℕ → BlockPoller π →
      Except (BlockPollerError π) (ℕ × Option ℕ) × BlockPoller π
  | [], processed, latestHeight, p => (.ok (processed, latestHeight), p)
  | block :: rest, processed, _, p =>
      match env.handler.bind fun handle => handle processed block with
      | some message =>
          let e : BlockPollerError π := .handler
            ("block handler failed at height " ++ toString block.height ++ ": " ++ message) block
          (.error e, p.recordFailure env.endedAt e)
      | none => processBlocks env rest (processed + 1) (some block.height) (p.advance block)

/-- `poll_once`: what it returns or raises, and the poller after it. -/
def pollOnce (opts : PollerOptions) (env : PollEnv π) (p : BlockPoller π) :
    Except (BlockPollerError π) PollCycleResult × BlockPoller π :=
  match fetchWithRetry opts env p.cursor with
  | .error e => (.error (.fetch e), p.recordFailure env.endedAt (.fetch e))
  | .ok (blocks, attempts) =>
      match processBlocks env blocks 0 none p with
      | (.error e, p') => (.error e, p')
      | (.ok (processed, latestHeight), p') =>
          (.ok ⟨processed, p'.cursor, latestHeight, attempts, env.startedAt, env.endedAt⟩,
            { p' with
              lastPollAt := some env.endedAt
              lastSuccessAt := some env.endedAt
              consecutiveFailures := 0
              lastError := none
              lastErrorType := none })

/-- A poll, for its effect. -/
def pollStep (opts : PollerOptions) (p : BlockPoller π) (env : PollEnv π) : Option (BlockPoller π) :=
  some (pollOnce opts env p).2

/-! ## The chain -/

/-- The blocks strictly after a cursor. A cursor that no block of the chain bears stands before the block
numbered `gap c`. -/
def blocksAfter (chain : List (Block π)) (gap : String → ℕ) : Option String → List (Block π)
  | none => chain
  | some c =>
      match chain.findIdx? fun b => b.cursor = c with
      | some i => chain.drop (i + 1)
      | none => chain.drop (gap c)

/-- The source answers with an error, or with at most `limit` blocks, the first of those after the
cursor. -/
def PollEnv.Serves (chain : List (Block π)) (gap : String → ℕ) (env : PollEnv π) : Prop :=
  ∀ attempt cursor limit blocks, env.fetchBlocks attempt cursor limit = .blocks (blocks.map some) →
    blocks.length ≤ limit ∧ blocks <+: blocksAfter chain gap cursor

variable {chain : List (Block π)} {gap : String → ℕ}

theorem blocksAfter_eq_drop (chain : List (Block π)) (gap : String → ℕ) (c : Option String) :
    ∃ k, blocksAfter chain gap c = chain.drop k := by
  cases c with
  | none => exact ⟨0, rfl⟩
  | some c =>
      unfold blocksAfter
      cases hfind : chain.findIdx? fun b => b.cursor = c with
      | none => exact ⟨gap c, by simp only [hfind]⟩
      | some i => exact ⟨i + 1, by simp only [hfind]⟩

/-- After the first of the blocks after a cursor come the others. -/
theorem blocksAfter_cons (hnodup : (chain.map Block.cursor).Nodup) {c : Option String} {b : Block π}
    {rest : List (Block π)} (h : blocksAfter chain gap c = b :: rest) :
    blocksAfter chain gap (some b.cursor) = rest := by
  obtain ⟨k, hk⟩ := blocksAfter_eq_drop chain gap c
  rw [h] at hk
  have hlt : k < chain.length := by
    by_contra hge
    rw [List.drop_eq_nil_of_le (by omega)] at hk
    cases hk
  rw [List.drop_eq_getElem_cons hlt] at hk
  obtain ⟨rfl, rfl⟩ := List.cons.inj hk
  have hfind : chain.findIdx? (fun x => x.cursor = chain[k].cursor) = some k := by
    rw [List.findIdx?_eq_some_iff_getElem]
    refine ⟨hlt, by simp, ?_⟩
    intro j hj
    have hne := List.pairwise_iff_getElem.mp (List.nodup_iff_pairwise_ne.mp hnodup) j k
      (by simpa using Nat.lt_trans hj hlt) (by simpa using hlt) hj
    simpa using hne
  simp [blocksAfter, hfind]

/-! ## The invariant -/

/-- The poller is done with the first blocks after `startCursor`, its cursor is that of the last of them,
and the blocks after the cursor are the others. -/
structure Segment (chain : List (Block π)) (gap : String → ℕ) (startCursor : Option String)
    (p : BlockPoller π) : Prop where
  split : p.handled ++ blocksAfter chain gap p.cursor = blocksAfter chain gap startCursor
  cursor : p.cursor = (p.handled.getLast?.map Block.cursor).or startCursor

theorem segment_init (startCursor : Option String) :
    Segment chain gap startCursor (BlockPoller.init startCursor) :=
  ⟨rfl, rfl⟩

theorem Segment.advance (hnodup : (chain.map Block.cursor).Nodup) {startCursor : Option String}
    {p : BlockPoller π} (h : Segment chain gap startCursor p) {b : Block π} {rest : List (Block π)}
    (hb : blocksAfter chain gap p.cursor = b :: rest) :
    Segment chain gap startCursor (p.advance b) := by
  refine ⟨?_, ?_⟩
  · have hsplit := h.split
    rw [hb] at hsplit
    simp only [BlockPoller.advance, blocksAfter_cons hnodup hb, List.append_assoc,
      List.singleton_append]
    exact hsplit
  · simp [BlockPoller.advance]

/-- Going through a page of the blocks after the cursor keeps the invariant, whether or not the handler
fails on the way. -/
theorem Segment.processBlocks (hnodup : (chain.map Block.cursor).Nodup) (env : PollEnv π)
    {startCursor : Option String} {p : BlockPoller π} (h : Segment chain gap startCursor p)
    {blocks : List (Block π)} (hinitial : blocks <+: blocksAfter chain gap p.cursor) (processed : ℕ)
    (latestHeight : Option ℕ) :
    Segment chain gap startCursor (processBlocks env blocks processed latestHeight p).2 := by
  induction blocks generalizing p processed latestHeight with
  | nil => exact h
  | cons b rest ih =>
      obtain ⟨others, hothers⟩ := hinitial
      have hb : blocksAfter chain gap p.cursor = b :: (rest ++ others) := hothers.symm
      unfold Ledger.processBlocks
      split
      · exact ⟨h.split, h.cursor⟩
      · refine ih (h.advance hnodup hb) ?_ _ _
        show rest <+: blocksAfter chain gap (some b.cursor)
        rw [blocksAfter_cons hnodup hb]
        exact List.prefix_append rest others

theorem validateBlocks_eq_ok {items : List (Option (Block π))} {blocks : List (Block π)}
    (h : validateBlocks items = .ok blocks) : items = blocks.map some := by
  unfold validateBlocks at h
  split at h
  · rename_i hall
    obtain rfl := Except.ok.inj h
    clear h
    induction items with
    | nil => rfl
    | cons item items ih =>
        rw [List.all_cons, Bool.and_eq_true] at hall
        obtain ⟨b, rfl⟩ := Option.isSome_iff_exists.mp hall.1
        simpa using ih hall.2
  · cases h

theorem attemptFetch_eq_ok {answer : Answer π} {blocks : List (Block π)}
    (h : attemptFetch answer = .ok blocks) : answer = .blocks (blocks.map some) := by
  cases answer with
  | blocks items => rw [validateBlocks_eq_ok h]
  | raised e => cases h
  | exception message => cases h
  | notSequence => cases h

/-- What a fetch returns after any number of attempts is an answer of the source. -/
theorem fetchLoop_eq_ok {opts : PollerOptions} {env : PollEnv π} {cursor : Option String}
    {left attempt attempts : ℕ} {blocks : List (Block π)}
    (h : fetchLoop opts env cursor left attempt = .ok (blocks, attempts)) :
    env.fetchBlocks attempts cursor opts.batchSize = .blocks (blocks.map some) := by
  induction left generalizing attempt with
  | zero =>
      unfold fetchLoop at h
      split at h
      · rename_i fetched hanswer
        obtain ⟨rfl, rfl⟩ := Prod.mk.inj (Except.ok.inj h)
        exact attemptFetch_eq_ok hanswer
      · cases h
  | succ left ih =>
      unfold fetchLoop at h
      split at h
      · rename_i fetched hanswer
        obtain ⟨rfl, rfl⟩ := Prod.mk.inj (Except.ok.inj h)
        exact attemptFetch_eq_ok hanswer
      · dsimp only at h
        split at h
        · exact ih h
        · cases h

/-- A fetch ends with the outcome of its last attempt. -/
theorem fetchLoop_eq {opts : PollerOptions} {env : PollEnv π} {cursor : Option String} {left attempt : ℕ} :
    fetchLoop opts env cursor left attempt =
      (attemptFetch (env.fetchBlocks (attemptsFrom opts env cursor left attempt) cursor opts.batchSize)).map
        fun blocks => (blocks, attemptsFrom opts env cursor left attempt) := by
  induction left generalizing attempt with
  | zero =>
      unfold fetchLoop attemptsFrom
      split <;> rename_i hanswer <;> simp only [hanswer, Except.map]
  | succ left ih =>
      unfold fetchLoop attemptsFrom
      split <;> rename_i hanswer
      · simp only [hanswer, Except.map]
      · dsimp only
        split
        · exact ih
        · simp only [hanswer, Except.map]

/-- An error that is not retryable ends the fetch with the attempt that met it. -/
theorem attemptsFrom_of_terminal {opts : PollerOptions} {env : PollEnv π} {cursor : Option String}
    {left attempt : ℕ} {e : BlockFetchError}
    (h : attemptFetch (env.fetchBlocks attempt cursor opts.batchSize) = .error e) (hterminal : e.retryable = false) :
    attemptsFrom opts env cursor left attempt = attempt := by
  unfold attemptsFrom
  rw [h]
  cases left with
  | zero => rfl
  | succ left => simp [hterminal]

theorem Segment.pollOnce (hnodup : (chain.map Block.cursor).Nodup) (opts : PollerOptions)
    {env : PollEnv π} (hserves : env.Serves chain gap) {startCursor : Option String}
    {p : BlockPoller π} (h : Segment chain gap startCursor p) :
    Segment chain gap startCursor (pollOnce opts env p).2 := by
  unfold Ledger.pollOnce
  cases hfetch : fetchWithRetry opts env p.cursor with
  | error e => exact ⟨h.split, h.cursor⟩
  | ok fetched =>
      obtain ⟨blocks, attempts⟩ := fetched
      have hinitial := (hserves _ _ _ _ (fetchLoop_eq_ok hfetch)).2
      have hdone := h.processBlocks hnodup env hinitial 0 none
      dsimp only
      split
      · rename_i e p' hresult
        rw [hresult] at hdone
        exact hdone
      · rename_i processed latestHeight p' hresult
        rw [hresult] at hdone
        exact ⟨hdone.split, hdone.cursor⟩

/-! ## Runs -/

/-- For every finite chain of blocks with distinct cursors, every source that answers with an error or
with the first of the blocks after the cursor, every handler, failing where it may, and any number of
polls: the blocks that are done are a contiguous segment of the chain, the first blocks after
`start_cursor`, each once and in order, and the cursor is that of the last of them. -/
theorem handled_blocks_segment (opts : PollerOptions) {chain : List (Block π)} (gap : String → ℕ)
    (hnodup : (chain.map Block.cursor).Nodup) (startCursor : Option String)
    {polls : List (PollEnv π)} (hserves : ∀ env ∈ polls, env.Serves chain gap) {p : BlockPoller π}
    (hrun : run (pollStep opts) (BlockPoller.init startCursor) polls = some p) :
    p.handled <+: blocksAfter chain gap startCursor ∧ p.handled <:+: chain ∧
      (p.handled.map Block.cursor).Nodup ∧
      p.cursor = (p.handled.getLast?.map Block.cursor).or startCursor := by
  have hpoll : ∀ p env p', Segment chain gap startCursor p → env.Serves chain gap →
      pollStep opts p env = some p' → Segment chain gap startCursor p' := by
    intro p env p' h hserves hstep
    obtain rfl := Option.some.inj hstep
    exact h.pollOnce hnodup opts hserves
  have hguard : Guarded (pollStep opts) (fun _ env => env.Serves chain gap)
      (BlockPoller.init startCursor) polls :=
    guarded_of_forall (fun env henv _ => hserves env henv) _
  have hinv := run_invariant_of_guarded hpoll (segment_init startCursor) hguard hrun
  have hinitial : p.handled <+: blocksAfter chain gap startCursor := ⟨_, hinv.split⟩
  have hsegment : p.handled <:+: chain := by
    obtain ⟨k, hk⟩ := blocksAfter_eq_drop chain gap startCursor
    rw [hk] at hinitial
    exact hinitial.isInfix.trans (List.drop_suffix k chain).isInfix
  exact ⟨hinitial, hsegment, hnodup.sublist (hsegment.sublist.map _), hinv.cursor⟩

/-- Two blocks. -/
def sampleBlock (cursor : String) (height : ℕ) (h : cursor ≠ "") : Block Unit := ⟨cursor, height, (), h⟩

def sampleChain : List (Block Unit) :=
  [sampleBlock "100" 1 (by decide), sampleBlock "200" 2 (by decide)]

theorem valid_sampleClock : DateTime.Valid 2026 1 2 3 4 5 0 := by decide

def sampleClock : DateTime := .ofValid valid_sampleClock

/-- A source that fails on the first attempt and then answers with a full page. -/
def flakySource (attempt : ℕ) (cursor : Option String) (limit : ℕ) : Answer Unit :=
  if attempt = 1 then .raised ⟨"Horizon returned retryable HTTP 503", true, some 503⟩
  else .blocks (((blocksAfter sampleChain (fun _ => 0) cursor).take limit).map some)

theorem flakySource_serves (handler : Option (ℕ → Block Unit → Option String)) :
    PollEnv.Serves sampleChain (fun _ => 0) ⟨flakySource, handler, sampleClock, sampleClock⟩ := by
  intro attempt cursor limit blocks h
  simp only [flakySource] at h
  split at h
  · cases h
  · have hblocks := List.map_injective_iff.mpr (fun _ _ => Option.some.inj) (Answer.blocks.inj h)
    rw [← hblocks]
    exact ⟨List.length_take_le _ _, List.take_prefix _ _⟩

/-- The handler fails on the second block in the first poll and accepts it in the second. -/
def samplePolls : List (PollEnv Unit) :=
  [⟨flakySource, some fun n _ => if n = 1 then some "disk full" else none, sampleClock, sampleClock⟩,
    ⟨flakySource, some fun _ _ => none, sampleClock, sampleClock⟩]

def sampleOptions : PollerOptions := ⟨50, 3, by decide, by decide⟩

theorem handled_blocks_resumed : ∃ p,
    run (pollStep sampleOptions) (BlockPoller.init none) samplePolls = some p ∧
      p.handled.map Block.cursor = ["100", "200"] ∧ p.cursor = some "200" ∧
      p.handled <:+: sampleChain := by
  obtain ⟨p, hrun, hhandled, hcursor⟩ : ∃ p,
      run (pollStep sampleOptions) (BlockPoller.init none) samplePolls = some p ∧
        p.handled.map Block.cursor = ["100", "200"] ∧ p.cursor = some "200" :=
    ⟨_, rfl, rfl, rfl⟩
  have hserves : ∀ env ∈ samplePolls, env.Serves sampleChain fun _ => 0 := by
    intro env henv
    rcases List.mem_pair.mp henv with rfl | rfl
    · exact flakySource_serves _
    · exact flakySource_serves _
  have h := handled_blocks_segment sampleOptions (fun _ => 0) (by decide) none hserves hrun
  exact ⟨p, hrun, hhandled, hcursor, h.2.1⟩

end ApexChainx.Ledger
