import ApexChainx.Lib.Polling
import ApexChainx.Lib.Table
import ApexChainx.Lib.Transition

/-!
# Advisory locks

The context managers of `app/core/lock.py`, any number of them at once, each in a transaction of its own:
`advisory_lock`, which asks for its lock until a deadline, `advisory_lock_nowait`, and `blocking_advisory_lock`. Keys
are hashed to the numbers that PostgreSQL locks, and a transaction gives its lock back when it ends.

The clock is in microseconds and goes on by itself. Between two statements of one transaction the others may move.
What the locked section does, and how an exception in it leaves the context manager, is left out.
-/

namespace ApexChainx.AdvisoryLock

open Lib

/-- `_lock_id_from_key`: the first eight bytes of the hash as a signed integer. -/
def lockIdFromKey (sha256 : String → List UInt8) (key : String) : ℤ :=
  let n : ℕ := ((sha256 key).take 8).foldl (fun n b => n * 256 + b.toNat) 0
  if n < 2 ^ 63 then n else n - 2 ^ 64

/-- The longest sleep between two attempts. -/
def pollInterval : ℤ := 50000

/-- A call of a context manager. A timeout that is not finite is `none`. -/
inductive LockCall
  | wait (timeout : Option ℤ)
  | nowait
  | blocking
deriving DecidableEq, Repr

/-- Where a transaction is. -/
inductive LockStage
  /-- In the loop of `advisory_lock`. -/
  | waiting (poller : Poller)
  /-- `pg_try_advisory_xact_lock` of `advisory_lock_nowait`. -/
  | trying
  /-- `pg_advisory_xact_lock`. -/
  | blocked
  | inside
  | ended
  | refused (detail : String)
deriving DecidableEq, Repr

/-- A transaction, with its poller when it last polled and the holders of the lock each time it asked in vain. -/
structure LockSession where
  key : String
  call : LockCall
  stage : LockStage
  poller : Option Poller
  found : List ℕ
deriving DecidableEq, Repr

/-- The clock, the transactions that hold each lock, and all transactions. -/
structure LockState where
  clock : ℤ
  holder : ℤ → Option ℕ
  sessions : List LockSession

/-- The clock goes on, a context manager is called, or a transaction executes its next statement. -/
inductive LockAction
  | tick (duration : ℕ)
  | enter (key : String) (call : LockCall)
  | move (i : ℕ)
deriving DecidableEq, Repr

/-- The start of a context manager. -/
def LockSession.new (key : String) (call : LockCall) (now : ℤ) : LockSession :=
  match call with
  | .wait none => ⟨key, call, .refused "timeout_seconds must be a finite, non-negative number", none, []⟩
  | .wait (some timeout) =>
      if timeout < 0 then ⟨key, call, .refused "timeout_seconds must be a finite, non-negative number", none, []⟩
      else ⟨key, call, .waiting (.start now timeout), some (.start now timeout), []⟩
  | .nowait => ⟨key, call, .trying, none, []⟩
  | .blocking => ⟨key, call, .blocked, none, []⟩

section

variable (sha256 : String → List UInt8)

/-- The stage of a poller's transaction after its step. -/
def stageAfter (key : String) (p : Poller) : LockStage :=
  match p.stage with
  | .answered => .inside
  | .gaveUp => .refused ("Could not acquire lock for '" ++ key ++ "'. Another operation is in progress.")
  | _ => .waiting p

/-- The next statement of transaction `i`: the transaction after it, and the lock's holder. -/
def LockSession.next (now : ℤ) (holder : Option ℕ) (i : ℕ) (c : LockSession) : Option (LockSession × Option ℕ) :=
  match c.stage with
  | .waiting p =>
      (p.next pollInterval now holder.isNone).map fun p' =>
        ({ c with
          stage := stageAfter c.key p'
          poller := some p'
          found := if p'.asked = p.asked then c.found else c.found ++ holder.toList },
          if p'.stage = .answered then some i else holder)
  | .trying =>
      if holder = none then some ({ c with stage := .inside }, some i)
      else
        some ({ c with
          stage := .refused ("Operation for '" ++ c.key ++ "' is already in progress. Please retry later.")
          found := holder.toList }, holder)
  | .blocked => if holder = none then some ({ c with stage := .inside }, some i) else none
  | .inside => some ({ c with stage := .ended }, none)
  | .ended | .refused _ => none

/-- The interleaving semantics. -/
def LockState.step (s : LockState) : LockAction → Option LockState
  | .tick duration => some { s with clock := s.clock + duration }
  | .enter key call => some { s with sessions := s.sessions ++ [.new key call s.clock] }
  | .move i =>
      match s.sessions[i]? with
      | none => none
      | some c =>
          let id := lockIdFromKey sha256 c.key
          (c.next s.clock (s.holder id) i).map fun (c', h) =>
            { s with holder := Function.update s.holder id h, sessions := s.sessions.set i c' }

end

/-- No transaction has called yet. -/
def LockState.init (clock : ℤ) : LockState := ⟨clock, fun _ => none, []⟩

/-! ## What one statement does -/

variable {sha256 : String → List UInt8} {s s' : LockState} {c c' : LockSession} {h h' : Option ℕ} {i : ℕ} {now : ℤ}

/-- What a statement of transaction `i` does to it and to the holder of its lock. -/
inductive LockSession.Moves (now : ℤ) (i : ℕ) (c : LockSession) : Option ℕ → LockSession → Option ℕ → Prop
  | enter : c.stage = .trying ∨ c.stage = .blocked → Moves now i c none { c with stage := .inside } (some i)
  | take {p p' : Poller} : c.stage = .waiting p → p.next pollInterval now true = some p' → p'.stage = .answered →
      Moves now i c none { c with stage := .inside, poller := some p' } (some i)
  | refuse {j : ℕ} {detail : String} : c.stage = .trying →
      Moves now i c (some j) { c with stage := .refused detail, found := [j] } (some j)
  | miss {p p' : Poller} {j : ℕ} : c.stage = .waiting p → p.next pollInterval now false = some p' →
      p'.stage = .checking → p'.asked = p.asked + 1 →
      Moves now i c (some j) { c with stage := .waiting p', poller := some p', found := c.found ++ [j] } (some j)
  | go {h : Option ℕ} {p p' : Poller} : c.stage = .waiting p → p.next pollInterval now h.isNone = some p' →
      p'.stage = .asking ∨ (∃ wakeAt, p'.stage = .sleeping wakeAt) → p'.asked = p.asked →
      Moves now i c h { c with stage := .waiting p', poller := some p' } h
  | giveUp {h : Option ℕ} {p p' : Poller} {detail : String} : c.stage = .waiting p →
      p.next pollInterval now h.isNone = some p' → p'.stage = .gaveUp → p'.asked = p.asked →
      Moves now i c h { c with stage := .refused detail, poller := some p' } h
  | leave {h : Option ℕ} : c.stage = .inside → Moves now i c h { c with stage := .ended } none

theorem moves_of_next (hnext : c.next now h i = some (c', h')) : c.Moves now i h c' h' := by
  obtain ⟨key, call, stage, poller, found⟩ := c
  cases stage with
  | waiting p =>
      obtain ⟨p', hp, heq⟩ := Option.map_eq_some_iff.mp hnext
      obtain ⟨startedAt, deadline, stage, asked⟩ := p
      cases stage with
      | asking =>
          have hp' := Option.some.inj hp
          cases h with
          | none =>
              subst hp'
              simp only [Option.isNone_none, if_true, stageAfter, Option.toList_none, List.append_nil, ite_self] at heq
              cases heq
              exact .take rfl hp rfl
          | some j =>
              subst hp'
              simp only [Option.isNone_some, Bool.false_eq_true, if_false, stageAfter, Nat.add_eq_left, one_ne_zero,
                Option.toList_some, reduceCtorEq] at heq
              cases heq
              exact .miss rfl hp rfl rfl
      | checking =>
          have hp' := hp
          unfold Poller.next at hp'
          simp only at hp'
          split at hp'
          · cases hp'
            simp only [if_true, stageAfter, reduceCtorEq, if_false] at heq
            cases heq
            exact .giveUp rfl hp rfl rfl
          · cases hp'
            simp only [if_true, stageAfter, reduceCtorEq, if_false] at heq
            cases heq
            exact .go rfl hp (.inr ⟨_, rfl⟩) rfl
      | sleeping wakeAt =>
          have hp' := hp
          unfold Poller.next at hp'
          simp only at hp'
          split at hp'
          · cases hp'
            simp only [if_true, stageAfter, reduceCtorEq, if_false] at heq
            cases heq
            exact .go rfl hp (.inl rfl) rfl
          · cases hp'
      | answered => cases hp
      | gaveUp => cases hp
  | trying =>
      cases h with
      | none =>
          cases hnext
          exact .enter (.inl rfl)
      | some j =>
          cases hnext
          exact .refuse rfl
  | blocked =>
      cases h with
      | none =>
          cases hnext
          exact .enter (.inr rfl)
      | some j => cases hnext
  | inside =>
      cases hnext
      exact .leave rfl
  | ended => cases hnext
  | refused detail => cases hnext

theorem step_move {a : ℕ} (hs' : s.step sha256 (.move a) = some s') :
    ∃ c c' h', s.sessions[a]? = some c ∧ c.Moves s.clock a (s.holder (lockIdFromKey sha256 c.key)) c' h' ∧
      s' = { s with
        holder := Function.update s.holder (lockIdFromKey sha256 c.key) h'
        sessions := s.sessions.set a c' } := by
  simp only [LockState.step] at hs'
  split at hs'
  · cases hs'
  · rename_i c hc
    obtain ⟨⟨c', h'⟩, hnext, rfl⟩ := Option.map_eq_some_iff.mp hs'
    exact ⟨c, c', h', hc, moves_of_next hnext, rfl⟩

/-! ## The invariant -/

/-- What a transaction has on record of its waiting. -/
structure Recorded (now : ℤ) (c : LockSession) : Prop where
  paced : ∀ p, c.poller = some p → p.Paced pollInterval now
  waiting : ∀ p, c.stage = .waiting p → c.poller = some p ∧ c.found.length = p.asked
  bounded : ∀ timeout, c.call = .wait (some timeout) → 0 ≤ timeout →
    ∃ p, c.poller = some p ∧ p.deadline = p.startedAt + timeout
  plain : c.stage = .trying ∨ c.stage = .blocked → c.poller = none
  refused : ∀ detail p, c.stage = .refused detail → c.poller = some p → p.stage = .gaveUp ∧ c.found.length = p.asked

/-- Who holds a lock is inside, and who found it held found one that was. -/
structure Inv (sha256 : String → List UInt8) (s : LockState) : Prop where
  inside : ∀ (i : ℕ) (c : LockSession), s.sessions[i]? = some c →
    (c.stage = .inside ↔ s.holder (lockIdFromKey sha256 c.key) = some i)
  holder : ∀ (id : ℤ) (i : ℕ), s.holder id = some i →
    ∃ c : LockSession, s.sessions[i]? = some c ∧ lockIdFromKey sha256 c.key = id
  recorded : ∀ c ∈ s.sessions, Recorded s.clock c
  found : ∀ (i : ℕ) (c : LockSession), s.sessions[i]? = some c → ∀ j ∈ c.found, j ≠ i ∧
    ∃ d : LockSession, s.sessions[j]? = some d ∧ lockIdFromKey sha256 d.key = lockIdFromKey sha256 c.key ∧
      (d.stage = .inside ∨ d.stage = .ended)

theorem Recorded.later (hc : Recorded now c) {now' : ℤ} (hle : now ≤ now') : Recorded now' c :=
  { hc with paced := fun p hp => (hc.paced p hp).later hle }

theorem recorded_new (key : String) (call : LockCall) (now : ℤ) : Recorded now (.new key call now) := by
  have hpos : 0 < pollInterval := by decide
  cases call with
  | wait timeout =>
      cases timeout with
      | none => exact ⟨nofun, nofun, nofun, fun _ => rfl, nofun⟩
      | some timeout =>
          rcases lt_or_ge timeout 0 with hneg | hnonneg
          · rw [show LockSession.new key (.wait (some timeout)) now = _ from if_pos hneg]
            refine ⟨nofun, nofun, fun t ht hnonneg => ?_, fun _ => rfl, nofun⟩
            cases ht
            exact absurd hneg (not_lt.mpr hnonneg)
          · rw [show LockSession.new key (.wait (some timeout)) now = _ from if_neg (not_lt.mpr hnonneg)]
            refine ⟨fun p hp => ?_, fun p hp => ?_, fun t ht _ => ?_, fun h => by simp at h, nofun⟩
            · cases hp
              exact Poller.paced_start hpos hnonneg now
            · cases hp
              exact ⟨rfl, rfl⟩
            · cases ht
              exact ⟨_, rfl, rfl⟩
  | nowait => exact ⟨nofun, nofun, nofun, fun _ => rfl, nofun⟩
  | blocking => exact ⟨nofun, nofun, nofun, fun _ => rfl, nofun⟩

/-- What a step of a poller leaves of its deadline. -/
theorem deadline_next {interval : ℤ} {answer : Bool} {p p' : Poller} (h : p.next interval now answer = some p') :
    p'.startedAt = p.startedAt ∧ p'.deadline = p.deadline := by
  unfold Poller.next at h
  split at h
  · cases h
    exact ⟨rfl, rfl⟩
  · split at h <;> cases h <;> exact ⟨rfl, rfl⟩
  · split at h
    · cases h
      exact ⟨rfl, rfl⟩
    · cases h
  · cases h
  · cases h

theorem recorded_moves (hc : Recorded now c) (hmoves : c.Moves now i h c' h') : Recorded now c' := by
  have hbounded : ∀ {p p' : Poller} {answer : Bool}, c.stage = .waiting p → p.next pollInterval now answer = some p' →
      ∀ timeout, c.call = .wait (some timeout) → 0 ≤ timeout →
        ∃ q, some p' = some q ∧ q.deadline = q.startedAt + timeout := by
    intro p p' answer hstage hnext timeout hcall hnonneg
    obtain ⟨q, hq, hdeadline⟩ := hc.bounded timeout hcall hnonneg
    rw [(hc.waiting p hstage).1, Option.some.injEq] at hq
    subst hq
    obtain ⟨hstart, hend⟩ := deadline_next hnext
    exact ⟨p', rfl, by rw [hstart, hend, hdeadline]⟩
  have hpaced : ∀ {p p' : Poller} {answer : Bool}, c.stage = .waiting p → p.next pollInterval now answer = some p' →
      ∀ q, some p' = some q → q.Paced pollInterval now := by
    intro p p' answer hstage hnext q hq
    rw [← Option.some.inj hq]
    exact (hc.paced p (hc.waiting p hstage).1).next hnext
  cases hmoves with
  | enter hstage => exact ⟨hc.paced, nofun, hc.bounded, fun h => by simp at h, nofun⟩
  | take hstage hnext _ => exact ⟨hpaced hstage hnext, nofun, hbounded hstage hnext, fun h => by simp at h, nofun⟩
  | refuse hstage =>
      refine ⟨hc.paced, nofun, hc.bounded, fun h => by simp at h, fun detail p _ hp => ?_⟩
      cases (hc.plain (.inl hstage)).symm.trans hp
  | miss hstage hnext _ hasked =>
      refine ⟨hpaced hstage hnext, fun q hq => ?_, hbounded hstage hnext, fun h => by simp at h, nofun⟩
      cases hq
      rw [List.length_append, (hc.waiting _ hstage).2, hasked]
      exact ⟨rfl, rfl⟩
  | go hstage hnext _ hasked =>
      refine ⟨hpaced hstage hnext, fun q hq => ?_, hbounded hstage hnext, fun h => by simp at h, nofun⟩
      cases hq
      exact ⟨rfl, by rw [(hc.waiting _ hstage).2, hasked]⟩
  | giveUp hstage hnext hgaveUp hasked =>
      refine ⟨hpaced hstage hnext, nofun, hbounded hstage hnext, fun h => by simp at h, fun detail q _ hq => ?_⟩
      cases hq
      exact ⟨hgaveUp, by rw [(hc.waiting _ hstage).2, hasked]⟩
  | leave hstage => exact ⟨hc.paced, nofun, hc.bounded, fun h => by simp at h, nofun⟩

/-- A statement moves the lock to or from its own transaction only. -/
theorem holder_of_moves (hmoves : c.Moves now i h c' h') (hc : c.stage = .inside ↔ h = some i) :
    (c'.stage = .inside ↔ h' = some i) ∧ ∀ j, j ≠ i → (h' = some j ↔ h = some j) := by
  cases hmoves with
  | enter _ => simp +contextual [eq_comm]
  | take _ _ _ => simp +contextual [eq_comm]
  | refuse hstage => exact ⟨by simpa [hstage] using hc, fun _ _ => Iff.rfl⟩
  | miss hstage _ _ _ => exact ⟨by simpa [hstage] using hc, fun _ _ => Iff.rfl⟩
  | go hstage _ _ _ => exact ⟨by simpa [hstage] using hc, fun _ _ => Iff.rfl⟩
  | giveUp hstage _ _ _ => exact ⟨by simpa [hstage] using hc, fun _ _ => Iff.rfl⟩
  | leave hstage =>
      obtain rfl := hc.mp hstage
      exact ⟨by simp, fun j hj => by simp [hj.symm]⟩

/-- A statement leaves the key and the call, and who was inside has ended. -/
theorem frame_of_moves (hmoves : c.Moves now i h c' h') :
    c'.key = c.key ∧ c'.call = c.call ∧
      (c.stage = .inside ∨ c.stage = .ended → c'.stage = .inside ∨ c'.stage = .ended) := by
  cases hmoves with
  | enter _ | take _ _ _ | leave _ => exact ⟨rfl, rfl, fun _ => by simp⟩
  | refuse hstage | miss hstage _ _ _ | go hstage _ _ _ | giveUp hstage _ _ _ =>
      exact ⟨rfl, rfl, fun h => by simp [hstage] at h⟩

/-- A statement finds the holder there is, and not from inside. -/
theorem found_of_moves (hmoves : c.Moves now i h c' h') {j : ℕ} (hj : j ∈ c'.found) :
    j ∈ c.found ∨ (h = some j ∧ c.stage ≠ .inside) := by
  cases hmoves with
  | enter _ | take _ _ _ | go _ _ _ _ | giveUp _ _ _ _ | leave _ => exact .inl hj
  | refuse hstage =>
      rw [List.mem_singleton.mp hj]
      exact .inr ⟨rfl, by simp [hstage]⟩
  | miss hstage _ _ _ =>
      rcases List.mem_append.mp hj with hj | hj
      · exact .inl hj
      · rw [List.mem_singleton.mp hj]
        exact .inr ⟨rfl, by simp [hstage]⟩

theorem new_key (key : String) (call : LockCall) (now : ℤ) :
    (LockSession.new key call now).key = key ∧ (LockSession.new key call now).stage ≠ .inside ∧
      (LockSession.new key call now).found = [] := by
  unfold LockSession.new
  split
  · exact ⟨rfl, nofun, rfl⟩
  · split <;> exact ⟨rfl, nofun, rfl⟩
  · exact ⟨rfl, nofun, rfl⟩
  · exact ⟨rfl, nofun, rfl⟩

theorem inv_init (clock : ℤ) : Inv sha256 (.init clock) where
  inside _ _ hc := nomatch hc
  holder _ _ hi := nomatch hi
  recorded _ hc := nomatch hc
  found _ _ hc := nomatch hc

theorem inv_enter (h : Inv sha256 s) (key : String) (call : LockCall) :
    Inv sha256 { s with sessions := s.sessions ++ [.new key call s.clock] } := by
  obtain ⟨-, hstage, hfound⟩ := new_key key call s.clock
  have hkept : ∀ {j : ℕ} {d : LockSession}, s.sessions[j]? = some d →
      (s.sessions ++ [LockSession.new key call s.clock])[j]? = some d := fun {j d} hd => by
    rw [List.getElem?_append_left (List.getElem?_eq_some_iff.mp hd).1, hd]
  refine ⟨fun i c hc => ?_, fun id i hi => ?_, fun c hc => ?_, fun i c hc j hj => ?_⟩
  · rcases getElem?_insert hc with hc | ⟨rfl, rfl⟩
    · exact h.inside i c hc
    · refine iff_of_false hstage fun hheld => ?_
      obtain ⟨d, hd, -⟩ := h.holder _ _ hheld
      exact absurd (List.getElem?_eq_some_iff.mp hd).1 (lt_irrefl _)
  · obtain ⟨c, hc, hid⟩ := h.holder id i hi
    exact ⟨c, hkept hc, hid⟩
  · rcases List.mem_append.mp hc with hc | hc
    · exact h.recorded c hc
    · exact List.mem_singleton.mp hc ▸ recorded_new key call s.clock
  · rcases getElem?_insert hc with hc | ⟨rfl, rfl⟩
    · obtain ⟨hne, d, hd, hrest⟩ := h.found i c hc j hj
      exact ⟨hne, d, hkept hd, hrest⟩
    · rw [hfound] at hj
      cases hj

theorem inv_move (h : Inv sha256 s) (hs' : s.step sha256 (.move i) = some s') : Inv sha256 s' := by
  obtain ⟨c, c', h', hc, hmoves, rfl⟩ := step_move hs'
  obtain ⟨hinside, hothers⟩ := holder_of_moves hmoves (h.inside i c hc)
  obtain ⟨hkey, -, hover⟩ := frame_of_moves hmoves
  have hi : (s.sessions.set i c')[i]? = some c' :=
    List.getElem?_set_self (List.getElem?_eq_some_iff.mp hc).1
  have hrow : ∀ {j : ℕ} {d : LockSession}, j ≠ i → s.sessions[j]? = some d → (s.sessions.set i c')[j]? = some d :=
    fun hne hd => by rw [List.getElem?_set_ne hne.symm, hd]
  -- Only the lock that the statement is about changes hands, and only to or from `i`.
  have hheld : ∀ (id : ℤ) (j : ℕ), j ≠ i →
      (Function.update s.holder (lockIdFromKey sha256 c.key) h' id = some j ↔ s.holder id = some j) := by
    intro id j hne
    rcases eq_or_ne id (lockIdFromKey sha256 c.key) with rfl | hid
    · rw [Function.update_self]
      exact hothers j hne
    · rw [Function.update_of_ne hid]
  refine ⟨fun j d hd => ?_, fun id j hj => ?_, ?_, fun j d hd k hk => ?_⟩
  · rcases getElem?_replace hd with ⟨rfl, rfl⟩ | ⟨hne, hd⟩
    · show d.stage = .inside ↔ Function.update s.holder (lockIdFromKey sha256 c.key) h' _ = some j
      rw [hkey, Function.update_self]
      exact hinside
    · exact (h.inside j d hd).trans (hheld _ j hne).symm
  · rcases eq_or_ne j i with rfl | hne
    · refine ⟨c', hi, ?_⟩
      rw [hkey]
      by_contra hid
      have hj : s.holder id = some j := by
        rw [← hj]
        exact (Function.update_of_ne (Ne.symm hid) _ _).symm
      obtain ⟨d, hd, hid'⟩ := h.holder id j hj
      rw [hc, Option.some.injEq] at hd
      exact hid (hd ▸ hid')
    · obtain ⟨d, hd, hid⟩ := h.holder id j ((hheld id j hne).mp hj)
      exact ⟨d, hrow hne hd, hid⟩
  · exact forall_mem_set h.recorded (recorded_moves (h.recorded c (List.mem_of_getElem? hc)) hmoves)
  · -- A holder that was found is inside or has ended from then on.
    have hsince : ∀ {d : LockSession} {id : ℤ}, s.sessions[k]? = some d → lockIdFromKey sha256 d.key = id →
        d.stage = .inside ∨ d.stage = .ended → ∃ e, (s.sessions.set i c')[k]? = some e ∧
          lockIdFromKey sha256 e.key = id ∧ (e.stage = .inside ∨ e.stage = .ended) := by
      intro d id hfound hid hstage
      rcases eq_or_ne k i with rfl | hne
      · rw [hc, Option.some.injEq] at hfound
        subst hfound
        exact ⟨c', hi, by rw [hkey, hid], hover hstage⟩
      · exact ⟨d, hrow hne hfound, hid, hstage⟩
    rcases getElem?_replace hd with ⟨rfl, rfl⟩ | ⟨hne, hd⟩
    · rw [hkey]
      rcases found_of_moves hmoves hk with hk | ⟨hk, hout⟩
      · obtain ⟨hne, e, he, hid, hstage⟩ := h.found j c hc k hk
        exact ⟨hne, hsince he hid hstage⟩
      · obtain ⟨e, he, hid⟩ := h.holder _ k hk
        refine ⟨?_, hsince he hid (.inl ((h.inside k e he).mpr (hid ▸ hk)))⟩
        rintro rfl
        exact hout ((h.inside k c hc).mpr hk)
    · obtain ⟨hnek, e, he, hid, hstage⟩ := h.found j d hd k hk
      exact ⟨hnek, hsince he hid hstage⟩

theorem inv_step {a : LockAction} (h : Inv sha256 s) (hs' : s.step sha256 a = some s') : Inv sha256 s' := by
  cases a with
  | tick duration =>
      cases hs'
      have hle : s.clock ≤ s.clock + duration := by omega
      exact { h with recorded := fun c hc => (h.recorded c hc).later hle }
  | enter key call =>
      cases hs'
      exact inv_enter h key call
  | move i => exact inv_move h hs'

theorem inv_run {clock : ℤ} {as : List LockAction}
    (hrun : run (LockState.step sha256) (.init clock) as = some s) : Inv sha256 s :=
  run_invariant (fun _ _ _ h hs' => inv_step h hs') (inv_init clock) hrun

/-! ## Exclusion, and how long a caller waits -/

theorem exclusive (h : Inv sha256 s) {j : ℕ} {d : LockSession} (hc : s.sessions[i]? = some c)
    (hd : s.sessions[j]? = some d) (hi : c.stage = .inside) (hj : d.stage = .inside)
    (hid : lockIdFromKey sha256 c.key = lockIdFromKey sha256 d.key) : i = j := by
  have hheld := (h.inside i c hc).mp hi
  rw [hid, (h.inside j d hd).mp hj] at hheld
  exact (Option.some.inj hheld).symm

theorem step_of_next (hc : s.sessions[i]? = some c) (hheld : s.holder (lockIdFromKey sha256 c.key) = h)
    (hnext : c.next s.clock h i = some (c', h')) :
    s.step sha256 (.move i) = some { s with
      holder := Function.update s.holder (lockIdFromKey sha256 c.key) h'
      sessions := s.sessions.set i c' } := by
  simp only [LockState.step, hc, hheld, hnext, Option.map_some]

/-- A caller that sleeps while its lock is free has it before another interval is over, if it is woken and no other
transaction asks first. -/
theorem sleeper_enters (h : Inv sha256 s) {p : Poller} {wakeAt : ℤ} (hc : s.sessions[i]? = some c)
    (hwaiting : c.stage = .waiting p) (hsleeping : p.stage = .sleeping wakeAt)
    (hfree : s.holder (lockIdFromKey sha256 c.key) = none) :
    ∃ (duration : ℕ) (s' : LockState), (duration : ℤ) ≤ pollInterval ∧
      run (LockState.step sha256) s [.tick duration, .move i, .move i] = some s' ∧
      s'.holder (lockIdFromKey sha256 c.key) = some i := by
  have hrecorded := h.recorded c (List.mem_of_getElem? hc)
  obtain ⟨-, hsoon, -, -⟩ := (hrecorded.paced p (hrecorded.waiting p hwaiting).1).sleeping wakeAt hsleeping
  have hnonneg : 0 ≤ pollInterval := by decide
  have hi : i < s.sessions.length := (List.getElem?_eq_some_iff.mp hc).1
  have hawake : wakeAt ≤ s.clock + (wakeAt - s.clock).toNat := by omega
  -- It wakes and finds itself about to ask, then asks.
  let awake : Poller := { p with stage := .asking }
  let waking : LockSession := { c with stage := .waiting awake, poller := some awake }
  have hwakes : c.next (s.clock + (wakeAt - s.clock).toNat) none i = some (waking, none) := by
    have hp : p.next pollInterval (s.clock + (wakeAt - s.clock).toNat) true = some awake := by
      simp only [Poller.next, hsleeping, if_pos hawake, awake]
    simp only [LockSession.next, hwaiting, Option.isNone_none, hp, Option.map_some, stageAfter, awake, waking, if_true,
      reduceCtorEq, if_false]
  obtain ⟨inside, hasks⟩ : ∃ inside, waking.next (s.clock + (wakeAt - s.clock).toNat) none i = some (inside, some i) :=
    ⟨_, rfl⟩
  let later : LockState := { s with clock := s.clock + (wakeAt - s.clock).toNat }
  have hfirst := step_of_next (s := later) hc hfree hwakes
  obtain ⟨last, hsecond, hheld⟩ : ∃ last : LockState,
      LockState.step sha256 ⟨later.clock, Function.update s.holder (lockIdFromKey sha256 c.key) none,
        s.sessions.set i waking⟩ (.move i) = some last ∧ last.holder (lockIdFromKey sha256 c.key) = some i :=
    ⟨_, step_of_next (List.getElem?_set_self hi) (Function.update_self _ _ _) hasks, Function.update_self _ _ _⟩
  refine ⟨(wakeAt - s.clock).toNat, last, by omega, ?_, hheld⟩
  refine run_cons_eq_some.mpr ⟨later, rfl, run_cons_eq_some.mpr ⟨_, hfirst, ?_⟩⟩
  exact run_cons_eq_some.mpr ⟨last, hsecond, rfl⟩

theorem foldl_lt (bytes : List UInt8) (n : ℕ) :
    bytes.foldl (fun n b => n * 256 + b.toNat) n < (n + 1) * 256 ^ bytes.length := by
  induction bytes generalizing n with
  | nil => simp
  | cons b bytes ih =>
      have hb : b.toNat < 256 := b.toNat_lt
      calc bytes.foldl (fun n b => n * 256 + b.toNat) (n * 256 + b.toNat)
          < (n * 256 + b.toNat + 1) * 256 ^ bytes.length := ih _
        _ ≤ ((n + 1) * 256) * 256 ^ bytes.length := Nat.mul_le_mul_right _ (by omega)
        _ = (n + 1) * 256 ^ (b :: bytes).length := by rw [List.length_cons, pow_succ', mul_assoc]

/-- The number that is locked is a `bigint`. -/
theorem lockIdFromKey_range (sha256 : String → List UInt8) (key : String) :
    -2 ^ 63 ≤ lockIdFromKey sha256 key ∧ lockIdFromKey sha256 key < 2 ^ 63 := by
  have hlength : ((sha256 key).take 8).length ≤ 8 := List.length_take_le _ _
  have hlt : ((sha256 key).take 8).foldl (fun n b => n * 256 + b.toNat) 0 < 2 ^ 64 :=
    calc _ < (0 + 1) * 256 ^ ((sha256 key).take 8).length := foldl_lt _ 0
      _ ≤ (0 + 1) * 256 ^ 8 := Nat.mul_le_mul_left _ (Nat.pow_le_pow_right (by decide) hlength)
      _ = 2 ^ 64 := by decide
  unfold lockIdFromKey
  simp only
  generalize List.foldl _ _ _ = n at hlt
  split <;> omega

/-- In every interleaving: two transactions are never inside under one key, and only `bigint`s are locked. A call of
`advisory_lock` asks no more often than its timeout allows. It is refused no earlier than at its deadline, and only when
each time it asked some other transaction that got the same lock was in its way. While it sleeps and the lock is free,
it needs one more interval. -/
theorem advisory_lock_spec {clock : ℤ} {as : List LockAction}
    (hrun : run (LockState.step sha256) (.init clock) as = some s) :
    (∀ (i j : ℕ) (c d : LockSession), s.sessions[i]? = some c → s.sessions[j]? = some d →
      c.stage = .inside → d.stage = .inside → c.key = d.key → i = j) ∧
    (∀ (id : ℤ) (i : ℕ), s.holder id = some i → -2 ^ 63 ≤ id ∧ id < 2 ^ 63) ∧
    ∀ (i : ℕ) (c : LockSession) (timeout : ℤ), s.sessions[i]? = some c → c.call = .wait (some timeout) → 0 ≤ timeout →
      ∃ p : Poller, c.poller = some p ∧ p.deadline = p.startedAt + timeout ∧
        ((p.asked : ℤ) - 2) * pollInterval < timeout ∧
        (∀ detail, c.stage = .refused detail → p.deadline ≤ s.clock ∧ 0 < p.asked ∧ c.found.length = p.asked ∧
          ∀ j ∈ c.found, j ≠ i ∧ ∃ d : LockSession, s.sessions[j]? = some d ∧
            lockIdFromKey sha256 d.key = lockIdFromKey sha256 c.key ∧ (d.stage = .inside ∨ d.stage = .ended)) ∧
        ∀ wakeAt, c.stage = .waiting p → p.stage = .sleeping wakeAt →
          s.holder (lockIdFromKey sha256 c.key) = none → ∃ (duration : ℕ) (s' : LockState),
            (duration : ℤ) ≤ pollInterval ∧
            run (LockState.step sha256) s [.tick duration, .move i, .move i] = some s' ∧
            s'.holder (lockIdFromKey sha256 c.key) = some i := by
  have h := inv_run hrun
  refine ⟨fun i j c d hc hd hi hj hkey => exclusive h hc hd hi hj (by rw [hkey]), fun id i hi => ?_, ?_⟩
  · obtain ⟨c, -, rfl⟩ := h.holder id i hi
    exact lockIdFromKey_range sha256 c.key
  intro i c timeout hc hcall hnonneg
  have hrecorded := h.recorded c (List.mem_of_getElem? hc)
  obtain ⟨p, hp, hdeadline⟩ := hrecorded.bounded timeout hcall hnonneg
  have hpaced := hrecorded.paced p hp
  refine ⟨p, hp, hdeadline, ?_, fun detail hrefused => ?_, fun wakeAt => sleeper_enters h hc⟩
  · have hasked := hpaced.asked
    rwa [hdeadline, add_sub_cancel_left] at hasked
  · obtain ⟨hgaveUp, hlength⟩ := hrecorded.refused detail p hrefused hp
    obtain ⟨hpos, hlate⟩ := hpaced.gaveUp hgaveUp
    exact ⟨hlate, hpos, hlength, h.found i c hc⟩

/-- The first bytes of the hash of the key that the sample locks. -/
def sampleHash (_ : String) : List UInt8 := [214, 225, 86, 65, 98, 12, 199, 60]

/-- One transaction holds the lock, and another waits for it for 60 milliseconds. -/
def sampleLocking : List LockAction :=
  [.enter "resolve:out-1" .nowait, .enter "resolve:out-1" (.wait (some 60000)), .move 0, .move 1, .tick 1000, .move 1,
    .tick 50000, .move 1, .move 1, .move 1, .tick 9000, .move 1, .move 1, .move 1]

/-- Where `sampleLocking` ends. -/
def sampleLockState : LockState := (run (LockState.step sampleHash) (.init 0) sampleLocking).get (by decide +kernel)

/-- The transaction that waits, when it has given up. -/
def sampleWaiter : LockSession :=
  ⟨"resolve:out-1", .wait (some 60000),
    .refused "Could not acquire lock for 'resolve:out-1'. Another operation is in progress.",
    some ⟨0, 60000, .gaveUp, 3⟩, [0, 0, 0]⟩

theorem advisory_lock_spec_sample :
    sampleLockState.sessions[1]? = some sampleWaiter ∧ sampleWaiter.call = .wait (some 60000) ∧
      ∃ p, sampleWaiter.poller = some p ∧ p.deadline ≤ sampleLockState.clock ∧ sampleWaiter.found.length = p.asked := by
  have hrun : run (LockState.step sampleHash) (.init 0) sampleLocking = some sampleLockState :=
    (Option.some_get _).symm
  have hwaiter : sampleLockState.sessions[1]? = some sampleWaiter := by decide +kernel
  obtain ⟨p, hp, -, -, hrefused, -⟩ := (advisory_lock_spec hrun).2.2 1 sampleWaiter 60000 hwaiter rfl (by decide)
  obtain ⟨hlate, -, hlength, -⟩ := hrefused _ rfl
  exact ⟨hwaiter, rfl, p, hp, hlate, hlength⟩

end ApexChainx.AdvisoryLock
