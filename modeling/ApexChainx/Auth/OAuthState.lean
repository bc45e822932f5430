import Mathlib.Data.Int.Notation
import Mathlib.Data.List.Nodup
import Mathlib.Logic.Function.Basic
import ApexChainx.Lib.Transition

/-!
# Single-use OAuth states

`OAuthStateRepository` (`app/services/oauth_session.py`): calls of any number of workers on one Redis,
cut at their Redis commands and at their readings of the clock. A state is a key, and its row the payload
that `create_state` wrote: the JSON text and the ISO texts of its times are read back as they were
written, and the payload fields that no check reads are left out.

`consume_state` reads the key with one command and deletes it with another. The lifecycle of a state that
ought to hold over all calls is stated apart (`Ledger`), and the calls follow it as long as no two of
them stand between the two commands.
-/

namespace ApexChainx.Auth.OAuthState

open ApexChainx.Lib

/-! ## Calls and commands -/

/-- The field `expires_at` of a row. -/
inductive Stamp
  /-- A row from before the field existed. -/
  | missing
  | unreadable
  | at (t : ℤ)
deriving DecidableEq, Repr

/-- The JSON value of a row. -/
structure Payload where
  provider : String
  redirectUri : String
  codeChallenge : Option String
  expiresAt : Stamp
deriving DecidableEq, Repr

/-- What is stored under a key. -/
inductive Stored
  /-- Not JSON. -/
  | corrupt
  | row (p : Payload)
deriving DecidableEq, Repr

/-- `_is_expired`. -/
def isExpired (p : Payload) (now : ℤ) : Bool :=
  match p.expiresAt with
  | .missing => false
  | .unreadable => true
  | .at t => t ≤ now

/-- The row is to be deleted where it is read without being consumed. -/
def Stored.unusable (now : ℤ) : Stored → Bool
  | .corrupt => true
  | .row p => isExpired p now

/-- A key with the time at which its TTL fires. -/
structure Entry where
  value : Stored
  deadline : ℤ
deriving DecidableEq, Repr

/-- What a call returns. -/
inductive Reply
  | created (state : String)
  | payload (p : Option Payload)
  | pruned (deleted : ℕ)
deriving DecidableEq, Repr

/-- The command or the clock reading a call executes next, with what it has read so far. -/
inductive Pc
  /-- `token_hex` and `datetime.now` of `create_state`. -/
  | createStamp (provider redirectUri : String) (codeChallenge : Option String)
  /-- `SETEX`. -/
  | createSet (state : String) (p : Payload)
  /-- `GET` of `consume_state`. -/
  | consumeGet (state : String)
  /-- `DEL` of `consume_state`. -/
  | consumeDelete (state : String) (value : Stored)
  /-- The expiry check of `consume_state`. -/
  | consumeCheck (state : String) (value : Stored)
  /-- `GET` of `get_state`. -/
  | loadGet (state : String)
  | loadCheck (state : String) (value : Stored)
  /-- `DEL` of `get_state`. -/
  | loadDelete (state : String)
  /-- `SCAN` of `prune_expired_states`. -/
  | scan (deleted : ℕ)
  | pruneGet (deleted : ℕ) (state : String)
  | pruneCheck (deleted : ℕ) (state : String) (value : Stored)
  | pruneDelete (deleted : ℕ) (state : String)
  | done (reply : Reply)
deriving DecidableEq, Repr

/-- The four methods. -/
inductive Call
  | createState (provider redirectUri : String) (codeChallenge : Option String)
  | consumeState (state : String)
  | getState (state : String)
  | pruneExpiredStates
deriving DecidableEq, Repr

/-- A call before its first command. -/
def Pc.start : Call → Pc
  | .createState provider redirectUri codeChallenge => .createStamp provider redirectUri codeChallenge
  | .consumeState state => .consumeGet state
  | .getState state => .loadGet state
  | .pruneExpiredStates => .scan 0

/-- The TTL in microseconds, and the stamp of a creation time: the sum is one of floating-point
numbers. -/
structure Config where
  ttl : ℕ
  expiresAt : ℤ → ℤ

/-- Redis and the calls on it. `issued` has the expiry of every state ever created, `returned` the states
that `consume_state` returned with the times, `removed` what the other two methods deleted. -/
structure Sys where
  now : ℤ
  entries : String → Option Entry
  calls : ℕ → Option Pc
  issued : String → Option ℤ
  returned : List (String × ℤ)
  removed : List (String × ℤ)

def Sys.init (now : ℤ) : Sys := ⟨now, fun _ => none, fun _ => none, fun _ => none, [], []⟩

/-- What `GET` answers: a key whose TTL has fired is gone. -/
def Sys.get (s : Sys) (state : String) : Option Stored :=
  match s.entries state with
  | none => none
  | some e => if s.now < e.deadline then some e.value else none

/-- `DEL`. -/
def Sys.del (s : Sys) (state : String) : Sys :=
  { s with entries := Function.update s.entries state none }

/-- `DEL` by a call that does not consume. -/
def Sys.remove (s : Sys) (state : String) : Sys :=
  { s.del state with
    removed := if (s.get state).isSome then s.removed ++ [(state, s.now)] else s.removed }

/-- The call goes on with its next command. -/
def Sys.goOn (s : Sys) (id : ℕ) (pc : Pc) : Sys :=
  { s with calls := Function.update s.calls id (some pc) }

section

variable (cfg : Config)

/-- One command or clock reading of a call. -/
def advance (s : Sys) (id : ℕ) : Pc → Option Sys
  | .createStamp _ _ _ => none
  | .createSet state p =>
      some ({ s with entries := Function.update s.entries state (some ⟨.row p, s.now + cfg.ttl⟩) }.goOn id
        (.done (.created state)))
  | .consumeGet state =>
      match s.get state with
      | none => some (s.goOn id (.done (.payload none)))
      | some value => some (s.goOn id (.consumeDelete state value))
  | .consumeDelete state value => some ((s.del state).goOn id (.consumeCheck state value))
  | .consumeCheck _ .corrupt => some (s.goOn id (.done (.payload none)))
  | .consumeCheck state (.row p) =>
      if isExpired p s.now then some (s.goOn id (.done (.payload none)))
      else some ({ s with returned := s.returned ++ [(state, s.now)] }.goOn id (.done (.payload (some p))))
  | .loadGet state =>
      match s.get state with
      | none => some (s.goOn id (.done (.payload none)))
      | some value => some (s.goOn id (.loadCheck state value))
  | .loadCheck state .corrupt => some (s.goOn id (.loadDelete state))
  | .loadCheck state (.row p) =>
      if isExpired p s.now then some (s.goOn id (.loadDelete state))
      else some (s.goOn id (.done (.payload (some p))))
  | .loadDelete state => some ((s.remove state).goOn id (.done (.payload none)))
  | .scan deleted => some (s.goOn id (.done (.pruned deleted)))
  | .pruneGet deleted state =>
      match s.get state with
      | none => some (s.goOn id (.scan deleted))
      | some value => some (s.goOn id (.pruneCheck deleted state value))
  | .pruneCheck deleted state value =>
      if value.unusable s.now then some (s.goOn id (.pruneDelete deleted state))
      else some (s.goOn id (.scan deleted))
  | .pruneDelete deleted state => some ((s.remove state).goOn id (.scan (deleted + 1)))
  | .done _ => none

/-- Time passes, a call begins or executes its next command. The random token of `create_state` and the
keys that `SCAN` yields come from outside; a token of 128 random bits is taken to be a new one. -/
inductive Action
  | tick (n : ℕ)
  | begin (id : ℕ) (call : Call)
  | generate (id : ℕ) (state : String)
  | scanned (id : ℕ) (state : String)
  | move (id : ℕ)
deriving DecidableEq, Repr

/-- The interleaving semantics. -/
def step (s : Sys) : Action → Option Sys
  | .tick n => some { s with now := s.now + n }
  | .begin id call => if (s.calls id).isNone then some (s.goOn id (.start call)) else none
  | .generate id state =>
      match s.calls id with
      | some (.createStamp provider redirectUri codeChallenge) =>
          if (s.issued state).isNone then
            let expires := cfg.expiresAt s.now
            some ({ s with issued := Function.update s.issued state (some expires) }.goOn id
              (.createSet state ⟨provider, redirectUri, codeChallenge, .at expires⟩))
          else none
      | _ => none
  | .scanned id state =>
      match s.calls id with
      | some (.scan deleted) => some (s.goOn id (.pruneGet deleted state))
      | _ => none
  | .move id =>
      match s.calls id with
      | none => none
      | some pc => advance cfg s id pc

end

/-! ## The lifecycle of a state -/

/-- What a call is about to do with a state. -/
inductive Role
  | idle
  /-- It has drawn the state and will store it. -/
  | creates (k : String)
  /-- It has read the row to consume it. -/
  | holds (k : String)
  /-- It has deleted the row it read. -/
  | took (k : String)
deriving DecidableEq, Repr

/-- The state a call deals with. -/
def Role.about : Role → Option String
  | idle => none
  | creates k => some k
  | holds k => some k
  | took k => some k

/-- Which states are stored, which were returned, and what the calls are about to do. -/
structure Ledger where
  stored : String → Prop
  returned : List String
  role : ℕ → Role

/-- The steps of a state's life. A row may disappear at any of them. -/
inductive Ledger.Move (l l' : Ledger) : Prop
  | still (hrole : l'.role = l.role) (hreturned : l'.returned = l.returned)
      (hstored : ∀ k, l'.stored k → l.stored k)
  | quiet (i : ℕ) (hrole : l'.role = Function.update l.role i .idle)
      (hreturned : l'.returned = l.returned) (hstored : ∀ k, l'.stored k → l.stored k)
  | issue (i : ℕ) (k : String) (hrole : l'.role = Function.update l.role i (.creates k))
      (hreturned : l'.returned = l.returned) (hstored : ∀ k, l'.stored k → l.stored k)
      (habsent : ¬ l.stored k) (hnew : k ∉ l.returned) (hfree : ∀ j, (l.role j).about ≠ some k)
  | store (i : ℕ) (k : String) (hcreates : l.role i = .creates k)
      (hrole : l'.role = Function.update l.role i .idle) (hreturned : l'.returned = l.returned)
      (hstored : ∀ k', l'.stored k' → k' = k ∨ l.stored k')
  | find (i : ℕ) (k : String) (hfound : l.stored k) (halone : ∀ j, l.role j ≠ .holds k)
      (hrole : l'.role = Function.update l.role i (.holds k)) (hreturned : l'.returned = l.returned)
      (hstored : ∀ k, l'.stored k → l.stored k)
  | take (i : ℕ) (k : String) (hholds : l.role i = .holds k) (hgone : ¬ l'.stored k)
      (hrole : l'.role = Function.update l.role i (.took k)) (hreturned : l'.returned = l.returned)
      (hstored : ∀ k, l'.stored k → l.stored k)
  | give (i : ℕ) (k : String) (htook : l.role i = .took k)
      (hrole : l'.role = Function.update l.role i .idle) (hreturned : l'.returned = l.returned ++ [k])
      (hstored : ∀ k, l'.stored k → l.stored k)

/-- Every state has one call that deals with it at most, and is not stored any more once it was taken. -/
structure Ledger.Single (l : Ledger) : Prop where
  alone : ∀ i j k, (l.role i).about = some k → (l.role j).about = some k → i = j
  returned_free : ∀ k ∈ l.returned, ∀ i, (l.role i).about ≠ some k
  returned_gone : ∀ k ∈ l.returned, ¬ l.stored k
  creates_absent : ∀ i k, l.role i = .creates k → ¬ l.stored k
  took_gone : ∀ i k, l.role i = .took k → ¬ l.stored k
  once : l.returned.Nodup

namespace Ledger

variable {l l' : Ledger}

theorem about_update {role : ℕ → Role} {i j : ℕ} {r : Role} {k : String}
    (h : (Function.update role i r j).about = some k) :
    j = i ∧ r.about = some k ∨ j ≠ i ∧ (role j).about = some k := by
  by_cases hj : j = i
  · subst hj
    exact .inl ⟨rfl, by rwa [Function.update_self] at h⟩
  · exact .inr ⟨hj, by rwa [Function.update_of_ne hj] at h⟩

/-- A call that turns to a state which no other call deals with leaves every state to one call. -/
theorem alone_update {role : ℕ → Role} {i : ℕ} {r : Role}
    (h : ∀ i j k, (role i).about = some k → (role j).about = some k → i = j)
    (hr : ∀ k, r.about = some k → ∀ j, (role j).about = some k → j = i) (a b : ℕ) (k : String)
    (ha : (Function.update role i r a).about = some k)
    (hb : (Function.update role i r b).about = some k) : a = b := by
  rcases about_update ha with ⟨hai, hra⟩ | ⟨hai, hra⟩ <;> rcases about_update hb with ⟨hbi, hrb⟩ | ⟨hbi, hrb⟩
  · exact hai.trans hbi.symm
  · exact absurd (hr k hra b hrb) hbi
  · exact absurd (hr k hrb a hra) hai
  · exact h a b k hra hrb

theorem role_update {role : ℕ → Role} {i j : ℕ} {r r' : Role} (h : Function.update role i r j = r') :
    j = i ∧ r = r' ∨ j ≠ i ∧ role j = r' := by
  by_cases hj : j = i
  · subst hj
    exact .inl ⟨rfl, by rwa [Function.update_self] at h⟩
  · exact .inr ⟨hj, by rwa [Function.update_of_ne hj] at h⟩

/-- One call turns to something else, and nothing is returned. -/
theorem Single.turn (h : l.Single) {i : ℕ} {r : Role} (hrole : l'.role = Function.update l.role i r)
    (hreturned : l'.returned = l.returned)
    (halone : ∀ k, r.about = some k → ∀ j, (l.role j).about = some k → j = i)
    (hfree : ∀ k, r.about = some k → k ∉ l.returned) (hgone : ∀ k ∈ l.returned, ¬ l'.stored k)
    (hcreates : ∀ k, r = .creates k → ¬ l'.stored k) (htook : ∀ k, r = .took k → ¬ l'.stored k)
    (hothers : ∀ j k, j ≠ i → (l.role j).about = some k → l'.stored k → l.stored k) : l'.Single where
  alone := by
    rw [hrole]
    exact alone_update h.alone halone
  returned_free := by
    intro k hk j hj
    rw [hreturned] at hk
    rw [hrole] at hj
    rcases about_update hj with ⟨-, hr⟩ | ⟨-, hr⟩
    · exact hfree k hr hk
    · exact h.returned_free k hk j hr
  returned_gone := by
    rw [hreturned]
    exact hgone
  creates_absent := by
    intro j k hj hk
    rw [hrole] at hj
    rcases role_update hj with ⟨-, hr⟩ | ⟨hne, hr⟩
    · exact hcreates k hr hk
    · exact h.creates_absent j k hr (hothers j k hne (by rw [hr]; rfl) hk)
  took_gone := by
    intro j k hj hk
    rw [hrole] at hj
    rcases role_update hj with ⟨-, hr⟩ | ⟨hne, hr⟩
    · exact htook k hr hk
    · exact h.took_gone j k hr (hothers j k hne (by rw [hr]; rfl) hk)
  once := hreturned ▸ h.once

/-- A turn that stores nothing: what was returned stays gone, and what the other calls deal with is stored only
if it was before. -/
theorem Single.turn_quiet (h : l.Single) {i : ℕ} {r : Role} (hrole : l'.role = Function.update l.role i r)
    (hreturned : l'.returned = l.returned) (hstored : ∀ k, l'.stored k → l.stored k)
    (halone : ∀ k, r.about = some k → ∀ j, (l.role j).about = some k → j = i)
    (hfree : ∀ k, r.about = some k → k ∉ l.returned)
    (hcreates : ∀ k, r = .creates k → ¬ l'.stored k) (htook : ∀ k, r = .took k → ¬ l'.stored k) : l'.Single := by
  refine h.turn hrole hreturned halone hfree ?_ hcreates htook ?_
  · exact fun k hk hs => h.returned_gone k hk (hstored k hs)
  · exact fun _ k _ _ hs => hstored k hs

/-- A state that is neither stored nor dealt with any more is returned for the first time. -/
theorem Single.append (h : l.Single) {k : String} (hfree : ∀ i, (l.role i).about ≠ some k)
    (hgone : ¬ l.stored k) (hnew : k ∉ l.returned) :
    Ledger.Single { l with returned := l.returned ++ [k] } := by
  refine { h with returned_free := ?_, returned_gone := ?_, once := ?_ }
  · intro k' hk'
    rcases List.mem_append.mp hk' with hk' | hk'
    · exact h.returned_free k' hk'
    · rw [List.mem_singleton.mp hk']
      exact hfree
  · intro k' hk'
    rcases List.mem_append.mp hk' with hk' | hk'
    · exact h.returned_gone k' hk'
    · rw [List.mem_singleton.mp hk']
      exact hgone
  · rw [List.nodup_append]
    refine ⟨h.once, List.nodup_singleton k, ?_⟩
    rintro k' hk' _ hlast rfl
    exact hnew (List.mem_singleton.mp hlast ▸ hk')

/-- A call that deals with a stored state has read its row and not deleted it: a stored state is neither
about to be stored nor taken. -/
theorem Single.holds_of_stored (h : l.Single) {j : ℕ} {k : String} (hstored : l.stored k)
    (hj : (l.role j).about = some k) : l.role j = .holds k := by
  cases hr : l.role j with
  | idle => simp [hr, Role.about] at hj
  | creates k' =>
      obtain rfl : k' = k := by simpa [hr, Role.about] using hj
      exact absurd hstored (h.creates_absent j k' hr)
  | holds k' =>
      obtain rfl : k' = k := by simpa [hr, Role.about] using hj
      rfl
  | took k' =>
      obtain rfl : k' = k := by simpa [hr, Role.about] using hj
      exact absurd hstored (h.took_gone j k' hr)

/-- A step of a state's life leaves it to one call. -/
theorem Single.move (h : l.Single) (hmove : Move l l') : l'.Single := by
  cases hmove with
  | still hrole hreturned hstored =>
      refine h.turn_quiet (i := 0) (r := l.role 0) ?_ hreturned hstored ?_ ?_ ?_ ?_
      · rw [hrole, Function.update_eq_self]
      · exact fun k h0 j hj => h.alone j 0 k hj h0
      · exact fun k h0 hk => h.returned_free k hk 0 h0
      · exact fun k h0 hs => h.creates_absent 0 k h0 (hstored k hs)
      · exact fun k h0 hs => h.took_gone 0 k h0 (hstored k hs)
  | quiet i hrole hreturned hstored =>
      refine h.turn_quiet hrole hreturned hstored ?_ ?_ ?_ ?_
      · simp [Role.about]
      · simp [Role.about]
      · simp
      · simp
  | issue i k hrole hreturned hstored habsent hnew hfree =>
      refine h.turn_quiet hrole hreturned hstored ?_ ?_ ?_ ?_
      · rintro k' ⟨⟩ j hj
        exact absurd hj (hfree j)
      · rintro k' ⟨⟩
        exact hnew
      · rintro k' ⟨⟩ hs
        exact habsent (hstored k hs)
      · simp
  | store i k hcreates hrole hreturned hstored =>
      have habout : (l.role i).about = some k := by rw [hcreates]; rfl
      refine h.turn hrole hreturned ?_ ?_ ?_ ?_ ?_ ?_
      · simp [Role.about]
      · simp [Role.about]
      · intro k' hk' hs
        rcases hstored k' hs with rfl | hs
        · exact h.returned_free k' hk' i habout
        · exact h.returned_gone k' hk' hs
      · simp
      · simp
      · -- another call deals with another state, which was not stored now
        intro j k' hne hj hs
        rcases hstored k' hs with rfl | hs
        · exact absurd (h.alone j i k' hj habout) hne
        · exact hs
  | find i k hfound halone hrole hreturned hstored =>
      refine h.turn_quiet hrole hreturned hstored ?_ ?_ ?_ ?_
      · rintro k' ⟨⟩ j hj
        exact absurd (h.holds_of_stored hfound hj) (halone j)
      · rintro k' ⟨⟩ hk
        exact h.returned_gone k hk hfound
      · simp
      · simp
  | take i k hholds hgone hrole hreturned hstored =>
      have habout : (l.role i).about = some k := by rw [hholds]; rfl
      refine h.turn_quiet hrole hreturned hstored ?_ ?_ ?_ ?_
      · rintro k' ⟨⟩ j hj
        exact h.alone j i k hj habout
      · rintro k' ⟨⟩ hk
        exact h.returned_free k hk i habout
      · simp
      · rintro k' ⟨⟩
        exact hgone
  | give i k htook hrole hreturned hstored =>
      have habout : (l.role i).about = some k := by rw [htook]; rfl
      have hturn : Ledger.Single { l' with returned := l.returned } := by
        refine h.turn_quiet hrole rfl hstored ?_ ?_ ?_ ?_
        · simp [Role.about]
        · simp [Role.about]
        · simp
        · simp
      have hdropped : ∀ j, (l'.role j).about ≠ some k := by
        intro j hj
        rw [hrole] at hj
        rcases about_update hj with ⟨-, hr⟩ | ⟨hne, hr⟩
        · simp [Role.about] at hr
        · exact hne (h.alone j i k hr habout)
      have hgone : ¬ l'.stored k := fun hs => h.took_gone i k htook (hstored k hs)
      have hnew : k ∉ l.returned := fun hk => h.returned_free k hk i habout
      have hgiven := hturn.append hdropped hgone hnew
      rw [← hreturned] at hgiven
      exact hgiven

end Ledger

/-! ## What the calls know -/

/-- The role of a call at its place. -/
def Pc.role : Pc → Role
  | .createSet state _ => .creates state
  | .consumeDelete state _ => .holds state
  | .consumeCheck state _ => .took state
  | _ => .idle

/-- The ledger of the system. -/
def Sys.ledger (s : Sys) : Ledger where
  stored k := (s.entries k).isSome
  returned := s.returned.map Prod.fst
  role i := match s.calls i with
    | none => .idle
    | some pc => pc.role

/-- The payload was written for the state, with the expiry it was issued with. -/
def Sys.Issued (s : Sys) (k : String) (value : Stored) : Prop :=
  ∃ p t, value = .row p ∧ p.expiresAt = .at t ∧ s.issued k = some t

/-- What a call knows at its place. -/
def Pc.Sound (s : Sys) : Pc → Prop
  | .createSet k p => s.Issued k (.row p)
  | .consumeDelete k value => s.Issued k value
  | .consumeCheck k value => s.Issued k value
  | .loadCheck k value => s.Issued k value
  | .pruneCheck _ k value => s.Issued k value
  | .loadDelete k => ∃ t, s.issued k = some t ∧ t ≤ s.now
  | .pruneDelete _ k => ∃ t, s.issued k = some t ∧ t ≤ s.now
  | _ => True

/-- Every row is one that was issued, every call knows what it should, a returned state had not expired
and a removed one had. -/
structure Sound (s : Sys) : Prop where
  entries : ∀ k e, s.entries k = some e → s.Issued k e.value
  calls : ∀ i pc, s.calls i = some pc → pc.Sound s
  returned : ∀ k t, (k, t) ∈ s.returned → ∃ expires, s.issued k = some expires ∧ t < expires
  removed : ∀ k t, (k, t) ∈ s.removed → ∃ expires, s.issued k = some expires ∧ expires ≤ t

theorem Sound.init (now : ℤ) : Sound (Sys.init now) := by
  constructor <;> simp [Sys.init]

/-- What was issued stays issued, and what expired stays expired. -/
structure Later (s s' : Sys) : Prop where
  now : s.now ≤ s'.now
  issued : ∀ k t, s.issued k = some t → s'.issued k = some t

theorem Sys.Issued.later {s s' : Sys} {k : String} {value : Stored} (h : s.Issued k value)
    (hlater : Later s s') : s'.Issued k value := by
  obtain ⟨p, t, hvalue, hstamp, hissued⟩ := h
  exact ⟨p, t, hvalue, hstamp, hlater.issued k t hissued⟩

theorem Pc.Sound.later {s s' : Sys} {pc : Pc} (h : pc.Sound s) (hlater : Later s s') : pc.Sound s' := by
  have hexpired : ∀ k, (∃ t, s.issued k = some t ∧ t ≤ s.now) → ∃ t, s'.issued k = some t ∧ t ≤ s'.now :=
    fun k ⟨t, hissued, hle⟩ => ⟨t, hlater.issued k t hissued, Int.le_trans hle hlater.now⟩
  cases pc with
  | createSet k p => exact Sys.Issued.later h hlater
  | consumeDelete k value => exact Sys.Issued.later h hlater
  | consumeCheck k value => exact Sys.Issued.later h hlater
  | loadCheck k value => exact Sys.Issued.later h hlater
  | pruneCheck n k value => exact Sys.Issued.later h hlater
  | loadDelete k => exact hexpired k h
  | pruneDelete n k => exact hexpired k h
  | createStamp | consumeGet | loadGet | scan | pruneGet | done => trivial

theorem Later.of_eq {s s' : Sys} (hnow : s'.now = s.now) (hissued : s'.issued = s.issued) : Later s s' := by
  refine ⟨Int.le_of_eq hnow.symm, fun k t ht => ?_⟩
  rw [hissued]
  exact ht

/-- What the calls know they know later. -/
theorem Sound.calls_later {s s' : Sys} (h : Sound s) (hcalls : s'.calls = s.calls) (hlater : Later s s') :
    ∀ i pc, s'.calls i = some pc → pc.Sound s' := by
  intro i pc hi
  rw [hcalls] at hi
  exact (h.calls i pc hi).later hlater

/-- An issued row is a payload that is expired when the time it was issued with has come. -/
theorem Sys.Issued.isExpired_iff {s : Sys} {k : String} {value : Stored} (h : s.Issued k value) :
    ∃ p t, value = .row p ∧ s.issued k = some t ∧ (isExpired p s.now = true ↔ t ≤ s.now) := by
  obtain ⟨p, t, hvalue, hstamp, hissued⟩ := h
  exact ⟨p, t, hvalue, hissued, by simp [isExpired, hstamp]⟩

/-- What `GET` answers is a row that was issued. -/
theorem Sound.get {s : Sys} (h : Sound s) {k : String} {value : Stored} (hget : s.get k = some value) :
    s.Issued k value ∧ (s.entries k).isSome := by
  unfold Sys.get at hget
  cases he : s.entries k with
  | none => simp [he] at hget
  | some e =>
      simp only [he, Option.ite_none_right_eq_some, Option.some.injEq] at hget
      obtain ⟨-, rfl⟩ := hget
      exact ⟨h.entries k e he, rfl⟩

/-- A call goes on to a place it is fit for. -/
theorem Sound.goOn {s : Sys} (h : Sound s) (id : ℕ) {pc : Pc} (hpc : pc.Sound s) : Sound (s.goOn id pc) where
  entries := h.entries
  calls := by
    have hsame : Later s (s.goOn id pc) := .of_eq rfl rfl
    exact forall_update (fun i r hr => (h.calls i r hr).later hsame) (hpc.later hsame)
  returned := h.returned
  removed := h.removed

theorem Sound.del {s : Sys} (h : Sound s) (k : String) : Sound (s.del k) where
  entries := by
    intro k' e he
    simp only [Sys.del] at he
    by_cases hk : k' = k
    · simp [hk] at he
    · rw [Function.update_of_ne hk] at he
      exact h.entries k' e he
  calls := h.calls_later rfl (.of_eq rfl rfl)
  returned := h.returned
  removed := h.removed

/-- Deleting a state that has expired. -/
theorem Sound.remove {s : Sys} (h : Sound s) {k : String} (hexpired : ∃ t, s.issued k = some t ∧ t ≤ s.now) :
    Sound (s.remove k) := by
  have hdel := h.del k
  refine ⟨hdel.entries, hdel.calls_later rfl (.of_eq rfl rfl), h.returned, ?_⟩
  intro k' t hmem
  simp only [Sys.remove] at hmem
  split at hmem
  · rcases List.mem_append.mp hmem with hold | hlast
    · exact h.removed k' t hold
    · rw [List.mem_singleton, Prod.mk.injEq] at hlast
      obtain ⟨rfl, rfl⟩ := hlast
      exact hexpired
  · exact h.removed k' t hmem

/-- Storing a row under the state it was issued for. -/
theorem Sound.store {s : Sys} (h : Sound s) {k : String} {e : Entry} (he : s.Issued k e.value) :
    Sound { s with entries := Function.update s.entries k (some e) } where
  entries := by
    intro k' e' he'
    simp only at he'
    by_cases hk : k' = k
    · subst hk
      rw [Function.update_self, Option.some.injEq] at he'
      exact he' ▸ he
    · rw [Function.update_of_ne hk] at he'
      exact h.entries k' e' he'
  calls := h.calls_later rfl (.of_eq rfl rfl)
  returned := h.returned
  removed := h.removed

/-- Returning a state that has not expired. -/
theorem Sound.give {s : Sys} (h : Sound s) {k : String} {t : ℤ} (hissued : s.issued k = some t)
    (hvalid : s.now < t) : Sound { s with returned := s.returned ++ [(k, s.now)] } where
  entries := h.entries
  calls := h.calls_later rfl (.of_eq rfl rfl)
  returned := by
    intro k' t' hmem
    rcases List.mem_append.mp hmem with hold | hlast
    · exact h.returned k' t' hold
    · rw [List.mem_singleton, Prod.mk.injEq] at hlast
      obtain ⟨rfl, rfl⟩ := hlast
      exact ⟨t, hissued, hvalid⟩
  removed := h.removed

/-! ## One command -/

theorem ledger_goOn (s : Sys) (id : ℕ) (pc : Pc) :
    (s.goOn id pc).ledger = { s.ledger with role := Function.update s.ledger.role id pc.role } := by
  have hrole : (s.goOn id pc).ledger.role = Function.update s.ledger.role id pc.role := by
    funext i
    by_cases hi : i = id
    · simp [hi, Sys.ledger, Sys.goOn]
    · simp [hi, Sys.ledger, Sys.goOn]
  rw [← hrole]
  rfl

theorem stored_del {s : Sys} {k k' : String} (h : (s.del k).ledger.stored k') : k' ≠ k ∧ s.ledger.stored k' := by
  by_cases hk : k' = k
  · simp [hk, Sys.ledger, Sys.del] at h
  · exact ⟨hk, by simpa [hk, Sys.ledger, Sys.del] using h⟩

/-- The `GET` of a `consume_state` that finds the row meets no other call between its two commands. -/
def Apart (s : Sys) : Action → Prop
  | .move id => ∀ k, s.calls id = some (.consumeGet k) → (s.get k).isSome →
      ∀ j value, s.calls j ≠ some (.consumeDelete k value)
  | _ => True

theorem role_eq_holds {s : Sys} {j : ℕ} {k : String} (h : s.ledger.role j = .holds k) :
    ∃ value, s.calls j = some (.consumeDelete k value) := by
  simp only [Sys.ledger] at h
  cases hc : s.calls j with
  | none => simp [hc] at h
  | some pc =>
      cases pc <;> simp [hc, Pc.role] at h
      subst h
      exact ⟨_, rfl⟩

/-- A call that turns from no state, or drops the one it is about. -/
theorem quiet_goOn {s s' : Sys} {id : ℕ} {pc : Pc} (hpc : pc.role = .idle)
    (hrole : s'.ledger.role = s.ledger.role) (hreturned : s'.returned = s.returned)
    (hstored : ∀ k, s'.ledger.stored k → s.ledger.stored k) :
    Ledger.Move s.ledger (s'.goOn id pc).ledger := by
  rw [ledger_goOn]
  refine .quiet id ?_ ?_ hstored
  · simp only [hpc, hrole]
  · simp only [Sys.ledger, hreturned]

/-- Nothing but the place of the call changes. -/
theorem Sound.quiet {s : Sys} (h : Sound s) (id : ℕ) {pc : Pc} (hidle : pc.role = .idle) (hpc : pc.Sound s) :
    Sound (s.goOn id pc) ∧ (Apart s (.move id) → Ledger.Move s.ledger (s.goOn id pc).ledger) :=
  ⟨h.goOn id hpc, fun _ => quiet_goOn hidle rfl rfl fun _ hs => hs⟩

/-- A row that has expired is deleted. -/
theorem Sound.removed_quiet {s : Sys} (h : Sound s) (id : ℕ) {pc : Pc} {k : String} (hidle : pc.role = .idle)
    (hexpired : ∃ t, s.issued k = some t ∧ t ≤ s.now) (hpc : pc.Sound (s.remove k)) :
    Sound ((s.remove k).goOn id pc)
      ∧ (Apart s (.move id) → Ledger.Move s.ledger ((s.remove k).goOn id pc).ledger) :=
  ⟨(h.remove hexpired).goOn id hpc, fun _ => quiet_goOn hidle rfl rfl fun _ hs => (stored_del hs).2⟩

/-- A `GET` of a call that does not consume: it goes on with the row it found, or without one. -/
theorem Sound.read {s s' : Sys} (h : Sound s) (id : ℕ) {k : String} {missing : Pc} {found : Stored → Pc}
    (hmissing : missing.role = .idle ∧ missing.Sound s)
    (hfound : ∀ value, (found value).role = .idle ∧ (s.Issued k value → (found value).Sound s))
    (hs' : (match s.get k with
      | none => some (s.goOn id missing)
      | some value => some (s.goOn id (found value))) = some s') :
    Sound s' ∧ (Apart s (.move id) → Ledger.Move s.ledger s'.ledger) := by
  cases hget : s.get k with
  | none =>
      rw [hget, Option.some.injEq] at hs'
      subst hs'
      exact h.quiet id hmissing.1 hmissing.2
  | some value =>
      rw [hget, Option.some.injEq] at hs'
      subst hs'
      exact h.quiet id (hfound value).1 ((hfound value).2 (h.get hget).1)

/-- The expiry check of a call that does not consume. -/
theorem Sound.check {s s' : Sys} (h : Sound s) (id : ℕ) {k : String} {t : ℤ} {expired : Prop}
    [Decidable expired] {past valid : Pc} (hissued : s.issued k = some t) (hexpired : expired ↔ t ≤ s.now)
    (hpast : past.role = .idle ∧ ((∃ t, s.issued k = some t ∧ t ≤ s.now) → past.Sound s))
    (hvalid : valid.role = .idle ∧ valid.Sound s)
    (hs' : (if expired then some (s.goOn id past) else some (s.goOn id valid)) = some s') :
    Sound s' ∧ (Apart s (.move id) → Ledger.Move s.ledger s'.ledger) := by
  split at hs' <;> rw [Option.some.injEq] at hs' <;> subst hs'
  · rename_i hnow
    exact h.quiet id hpast.1 (hpast.2 ⟨t, hissued, hexpired.mp hnow⟩)
  · exact h.quiet id hvalid.1 hvalid.2

variable {cfg : Config}

/-- `SETEX` of `create_state`. -/
theorem Sound.createSet {s : Sys} {id : ℕ} {k : String} {p : Payload} (h : Sound s)
    (hpc : s.calls id = some (.createSet k p)) (e : Entry) (he : e.value = .row p) (state : String) :
    let s' := { s with entries := Function.update s.entries k (some e) }.goOn id (.done (.created state))
    Sound s' ∧ Ledger.Move s.ledger s'.ledger := by
  have hissued : s.Issued k e.value := by
    rw [he]
    exact h.calls id _ hpc
  refine ⟨(h.store hissued).goOn id trivial, ?_⟩
  rw [ledger_goOn]
  refine .store id k (by simp [Sys.ledger, hpc, Pc.role]) rfl rfl ?_
  intro k' hs
  by_cases hk : k' = k
  · exact .inl hk
  · exact .inr (by simpa [Sys.ledger, hk] using hs)

/-- A command keeps what is known of the rows and the calls, and is a step of a state's life unless it
makes a second call hold the row. -/
theorem Sound.advance {s s' : Sys} {id : ℕ} {pc : Pc} (h : Sound s) (hpc : s.calls id = some pc)
    (hs' : OAuthState.advance cfg s id pc = some s') :
    Sound s' ∧ (Apart s (.move id) → Ledger.Move s.ledger s'.ledger) := by
  have hknown := h.calls id pc hpc
  have hrole : s.ledger.role id = pc.role := by simp [Sys.ledger, hpc]
  cases pc with
  | createStamp provider redirectUri codeChallenge => simp [OAuthState.advance] at hs'
  | createSet k p =>
      rw [OAuthState.advance, Option.some.injEq] at hs'
      subst hs'
      obtain ⟨hsound, hmove⟩ := h.createSet hpc ⟨.row p, s.now + cfg.ttl⟩ rfl k
      exact ⟨hsound, fun _ => hmove⟩
  | consumeGet k =>
      rw [OAuthState.advance] at hs'
      cases hget : s.get k with
      | none =>
          rw [hget, Option.some.injEq] at hs'
          subst hs'
          exact h.quiet id rfl trivial
      | some value =>
          rw [hget, Option.some.injEq] at hs'
          subst hs'
          obtain ⟨hissued, hstored⟩ := h.get hget
          -- the row becomes held by this call; that no other holds it is what keeping the calls apart means
          refine ⟨h.goOn id hissued, fun hapart => ?_⟩
          rw [ledger_goOn]
          refine .find id k hstored ?_ rfl rfl fun _ hs => hs
          intro j hj
          obtain ⟨value', hcall⟩ := role_eq_holds hj
          exact hapart k hpc (by simp [hget]) j value' hcall
  | consumeDelete k value =>
      rw [OAuthState.advance, Option.some.injEq] at hs'
      subst hs'
      refine ⟨(h.del k).goOn id hknown, fun _ => ?_⟩
      rw [ledger_goOn]
      exact .take id k hrole (fun hs => (stored_del hs).1 rfl) rfl rfl fun _ hs => (stored_del hs).2
  | consumeCheck k value =>
      obtain ⟨p, t, rfl, hissued, hexpired⟩ := hknown.isExpired_iff
      rw [OAuthState.advance] at hs'
      split at hs' <;> rw [Option.some.injEq] at hs' <;> subst hs'
      · exact h.quiet id rfl trivial
      · rename_i hvalid
        rw [hexpired, Int.not_le] at hvalid
        refine ⟨(h.give hissued hvalid).goOn id trivial, fun _ => ?_⟩
        rw [ledger_goOn]
        exact .give id k hrole rfl (by simp [Sys.ledger]) fun _ hs => hs
  | loadGet k =>
      rw [OAuthState.advance] at hs'
      refine h.read id ?_ ?_ hs'
      · exact ⟨rfl, trivial⟩
      · exact fun value => ⟨rfl, fun hissued => hissued⟩
  | loadCheck k value =>
      obtain ⟨p, t, rfl, hissued, hexpired⟩ := hknown.isExpired_iff
      rw [OAuthState.advance] at hs'
      refine h.check id hissued hexpired ?_ ?_ hs'
      · exact ⟨rfl, fun hpast => hpast⟩
      · exact ⟨rfl, trivial⟩
  | loadDelete k =>
      rw [OAuthState.advance, Option.some.injEq] at hs'
      subst hs'
      exact h.removed_quiet id rfl hknown trivial
  | scan n =>
      rw [OAuthState.advance, Option.some.injEq] at hs'
      subst hs'
      exact h.quiet id rfl trivial
  | pruneGet n k =>
      rw [OAuthState.advance] at hs'
      refine h.read id ?_ ?_ hs'
      · exact ⟨rfl, trivial⟩
      · exact fun value => ⟨rfl, fun hissued => hissued⟩
  | pruneCheck n k value =>
      obtain ⟨p, t, rfl, hissued, hexpired⟩ := hknown.isExpired_iff
      rw [OAuthState.advance] at hs'
      refine h.check id hissued hexpired ?_ ?_ hs'
      · exact ⟨rfl, fun hpast => hpast⟩
      · exact ⟨rfl, trivial⟩
  | pruneDelete n k =>
      rw [OAuthState.advance, Option.some.injEq] at hs'
      subst hs'
      exact h.removed_quiet id rfl hknown trivial
  | done reply => simp [OAuthState.advance] at hs'

/-- The states that no call deals with any more: an unissued one is nowhere. -/
theorem Sound.free {s : Sys} (h : Sound s) {k : String} (hk : s.issued k = none) :
    ¬ s.ledger.stored k ∧ k ∉ s.ledger.returned ∧ ∀ i, (s.ledger.role i).about ≠ some k := by
  have hissued : ∀ value, ¬ s.Issued k value := by
    rintro value ⟨_, t, -, -, ht⟩
    rw [hk] at ht
    cases ht
  refine ⟨?_, ?_, ?_⟩
  · intro hs
    obtain ⟨e, he⟩ := Option.isSome_iff_exists.mp hs
    exact hissued _ (h.entries k e he)
  · intro hmem
    obtain ⟨⟨k', t⟩, ht, rfl⟩ := List.mem_map.mp hmem
    obtain ⟨expires, hexpires, -⟩ := h.returned k' t ht
    rw [hk] at hexpires
    cases hexpires
  · intro i hi
    simp only [Sys.ledger] at hi
    cases hc : s.calls i with
    | none => simp [hc, Role.about] at hi
    | some pc =>
        have hknown := h.calls i pc hc
        cases pc <;> simp [hc, Role.about, Pc.role] at hi
        all_goals
          subst hi
          exact hissued _ hknown

/-- One action of the system. -/
theorem Sound.step {s s' : Sys} {a : Action} (h : Sound s) (hs' : OAuthState.step cfg s a = some s') :
    Sound s' ∧ (Apart s a → Ledger.Move s.ledger s'.ledger) := by
  cases a with
  | tick n =>
      rw [OAuthState.step, Option.some.injEq] at hs'
      subst hs'
      have hnow : s.now ≤ s.now + n := by omega
      have hlater : Later s { s with now := s.now + n } := ⟨hnow, fun _ _ h => h⟩
      refine ⟨⟨?_, h.calls_later rfl hlater, h.returned, h.removed⟩, fun _ => ?_⟩
      · exact fun k e he => (h.entries k e he).later hlater
      · exact .still rfl rfl fun _ hs => hs
  | begin id call =>
      rw [OAuthState.step, Option.ite_none_right_eq_some, Option.some.injEq] at hs'
      obtain ⟨hidle, rfl⟩ := hs'
      have hstart : (Pc.start call).role = .idle ∧ (Pc.start call).Sound s := by
        cases call <;> exact ⟨rfl, trivial⟩
      exact ⟨h.goOn id hstart.2, fun _ => quiet_goOn hstart.1 rfl rfl fun _ hs => hs⟩
  | generate id k =>
      simp only [OAuthState.step] at hs'
      split at hs'
      · rename_i provider redirectUri codeChallenge hpc
        rw [Option.ite_none_right_eq_some, Option.some.injEq] at hs'
        obtain ⟨hnew, rfl⟩ := hs'
        rw [Option.isNone_iff_eq_none] at hnew
        obtain ⟨habsent, hreturned, hfree⟩ := h.free hnew
        set issued : Sys := { s with issued := Function.update s.issued k (some (cfg.expiresAt s.now)) }
          with hissued
        -- the key is new, so everything issued before is issued still
        have hlater : Later s issued := by
          refine ⟨Int.le_refl _, fun k' t ht => ?_⟩
          by_cases hk : k' = k
          · rw [hk, hnew] at ht
            cases ht
          · simpa [hissued, hk] using ht
        have hsound : Sound issued := by
          refine ⟨fun k' e he => (h.entries k' e he).later hlater,
            h.calls_later rfl hlater, ?_, ?_⟩
          · intro k' t ht
            obtain ⟨expires, hexpires, hlt⟩ := h.returned k' t ht
            exact ⟨expires, hlater.issued k' expires hexpires, hlt⟩
          · intro k' t ht
            obtain ⟨expires, hexpires, hle⟩ := h.removed k' t ht
            exact ⟨expires, hlater.issued k' expires hexpires, hle⟩
        refine ⟨hsound.goOn id ⟨_, _, rfl, rfl, by simp [hissued]⟩, fun _ => ?_⟩
        rw [ledger_goOn]
        exact .issue id k rfl rfl (fun _ hs => hs) habsent hreturned hfree
      · cases hs'
  | scanned id k =>
      simp only [OAuthState.step] at hs'
      split at hs'
      · rw [Option.some.injEq] at hs'
        subst hs'
        exact ⟨h.goOn id trivial, fun _ => quiet_goOn rfl rfl rfl fun _ hs => hs⟩
      · cases hs'
  | move id =>
      simp only [OAuthState.step] at hs'
      split at hs'
      · cases hs'
      · rename_i pc hpc
        exact h.advance hpc hs'

theorem single_init (now : ℤ) : (Sys.init now).ledger.Single := by
  constructor <;> simp [Sys.init, Sys.ledger, Role.about]

/-- A consumed state had not expired and a removed one had, in every run; and a state is consumed once in
the runs in which no two calls stand between reading a row and deleting it. -/
theorem state_single_use {now : ℤ} {as : List Action} {s : Sys}
    (hrun : run (OAuthState.step cfg) (Sys.init now) as = some s) :
    (∀ k t, (k, t) ∈ s.returned → ∃ expires, s.issued k = some expires ∧ t < expires)
    ∧ (∀ k t, (k, t) ∈ s.removed → ∃ expires, s.issued k = some expires ∧ expires ≤ t)
    ∧ (Guarded (OAuthState.step cfg) Apart (Sys.init now) as → (s.returned.map Prod.fst).Nodup) := by
  have hsound : Sound s := run_invariant (fun s a s' h hs' => (h.step hs').1) (Sound.init now) hrun
  refine ⟨hsound.returned, hsound.removed, fun hguarded => ?_⟩
  have hstep : ∀ s a s', Sound s ∧ s.ledger.Single → Apart s a → OAuthState.step cfg s a = some s' →
      Sound s' ∧ s'.ledger.Single := by
    rintro s a s' ⟨hs, hsingle⟩ hapart hs'
    obtain ⟨hsound', hmove⟩ := hs.step hs'
    exact ⟨hsound', hsingle.move (hmove hapart)⟩
  have hboth := run_invariant_of_guarded hstep ⟨Sound.init now, single_init now⟩ hguarded hrun
  exact hboth.2.once

/-- A state that is created and then consumed. -/
def consumedSchedule : List Action :=
  [.begin 0 (.createState "google" "/callback" none), .generate 0 "s", .move 0,
    .begin 1 (.consumeState "s"), .move 1, .move 1, .move 1]

theorem consumedSchedule_apart :
    Guarded (OAuthState.step ⟨600, fun t => t + 600⟩) Apart (Sys.init 0) consumedSchedule := by
  -- only the second move of the second call is a `GET`, and the first call has ended by then
  have hother : ∀ s id, (∀ k, s.calls id ≠ some (.consumeGet k)) → Apart s (.move id) :=
    fun s id hne k hk => absurd hk (hne k)
  refine ⟨trivial, fun s₁ h₁ => ⟨trivial, fun s₂ h₂ => ⟨hother _ _ ?_, fun s₃ h₃ => ⟨trivial, fun s₄ h₄ =>
    ⟨?_, fun s₅ h₅ => ⟨hother _ _ ?_, fun s₆ h₆ => ⟨hother _ _ ?_, fun _ _ => trivial⟩⟩⟩⟩⟩⟩⟩
  all_goals
    cases h₁
    cases h₂
  · exact fun k => by simp [Sys.goOn]
  all_goals
    cases h₃
    cases h₄
  · intro k _ _ j value hj
    simp only [Sys.goOn, Sys.init, Function.update_apply] at hj
    split_ifs at hj <;> simp_all [Pc.start]
  all_goals cases h₅
  · exact fun k => by simp [Sys.goOn]
  · cases h₆
    exact fun k => by simp [Sys.goOn]

/-- The state is returned once. -/
theorem state_single_use_consumed :
    ∃ s, run (OAuthState.step ⟨600, fun t => t + 600⟩) (Sys.init 0) consumedSchedule = some s
      ∧ s.returned = [("s", 0)] ∧ (s.returned.map Prod.fst).Nodup := by
  have hrun : run (OAuthState.step ⟨600, fun t => t + 600⟩) (Sys.init 0) consumedSchedule = some _ := rfl
  exact ⟨_, hrun, rfl, (state_single_use hrun).2.2 consumedSchedule_apart⟩

/-- Two callbacks with one state: both read the row before either deletes it, and both get it. -/
theorem state_consumed_twice :
    ∃ s, run (OAuthState.step ⟨600, fun t => t + 600⟩) (Sys.init 0)
        [.begin 0 (.createState "google" "/callback" none), .generate 0 "s", .move 0,
          .begin 1 (.consumeState "s"), .begin 2 (.consumeState "s"), .move 1, .move 2, .move 1, .move 2,
          .move 1, .move 2] = some s
      ∧ s.returned = [("s", 0), ("s", 0)] ∧ ¬ (s.returned.map Prod.fst).Nodup :=
  ⟨_, rfl, rfl, by decide⟩

end ApexChainx.Auth.OAuthState
