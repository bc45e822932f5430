import Mathlib.Data.Int.Notation
import Mathlib.Data.List.DropRight
import Mathlib.Order.Nat
import ApexChainx.Lib.JsonReader
import ApexChainx.Lib.Transition
import ApexChainx.Middleware.ETag

/-!
# The limit on request bodies

`PayloadSizeMiddleware` (`app/middleware/payload_size.py`) around an arbitrary app. An app chooses what it
does next from what it has received and sent so far; which message the server delivers is left open at each
`receive`, so the runs are all ways of splitting a body and all orders of receiving and sending.

The limit is enforced by an exception in the app's own `receive`. What the server gets then depends on what
the app makes of it: the middleware answers 413 whether or not a response is on its way.
-/

namespace ApexChainx.Middleware.PayloadSize

open ApexChainx.Lib

/-! ## Content-Length -/

/-- The white space that `int` skips. -/
def isSpace (c : UInt8) : Bool := c = 32 || decide (9 ≤ c ∧ c ≤ 13)

def isDigit (c : UInt8) : Bool := decide (48 ≤ c ∧ c ≤ 57)

/-- The digits of a number in which single underscores may stand between digits. -/
def digits (text : Bytes) : Option (List ℕ) :=
  let parts := text.splitOn 95
  if parts.all fun part => !part.isEmpty && part.all isDigit then
    some (parts.flatten.map fun c => c.toNat - 48)
  else none

/-- `int(value)`; `none` for a `ValueError`. More than 4300 digits are refused. -/
def int (value : Bytes) : Option ℤ :=
  let text := (value.dropWhile isSpace).rdropWhile isSpace
  let signed : Bool × Bytes :=
    match text with
    | 45 :: rest => (true, rest)
    | 43 :: rest => (false, rest)
    | rest => (false, rest)
  match digits signed.2 with
  | none => none
  | some ds =>
      if 4300 < ds.length then none
      else
        let n : ℤ := (ds.foldl (fun n d => 10 * n + d) 0 : ℕ)
        some (if signed.1 then -n else n)

/-- The request goes through `size_limited_receive`, unless its `Content-Length` is refused. -/
def Limited (scope : Scope) : Prop :=
  scope.type = "http" ∧ scope.method ∉ ["GET", "HEAD", "OPTIONS"]

instance (scope : Scope) : Decidable (Limited scope) := inferInstanceAs (Decidable (_ ∧ _))

/-- The fast path: the header states a number above the limit. -/
def tooLong (limit : ℕ) (scope : Scope) : Bool :=
  match scope.requestHeader (encodeAscii "content-length") with
  | none => false
  | some value =>
      !value.isEmpty &&
        match int value with
        | none => false
        | some n => decide ((limit : ℤ) < n)

/-! ## The 413 -/

/-- A member of the problem, as `json.dumps` writes it. -/
def problemMember (name : String) (value : List Char) : List Char := quoteAscii name ++ ':' :: ' ' :: value

/-- `_problem_413_body`. -/
def problem413Body (limit : ℕ) (correlationId : String) : Bytes :=
  encodeAscii <| String.ofList <| '\x7b' :: ([',', ' '].intercalate
    [problemMember "type" (quoteAscii "https://developer.apexchainx.io/errors/413"),
      problemMember "title" (quoteAscii "Payload Too Large"),
      problemMember "status" "413".toList,
      problemMember "detail" (quoteAscii ("Request body too large. Maximum allowed size is " ++
        toString limit ++ " bytes.")),
      problemMember "correlation_id" (quoteAscii correlationId),
      problemMember "error_code" (quoteAscii "payload_too_large")] ++ ['\x7d'])

/-- The two messages of `_send_413`. -/
def send413 (limit : ℕ) (correlationId : String) : List Message :=
  let body := problem413Body limit correlationId
  [.start 413 (some
      [(encodeAscii "content-type", encodeAscii "application/problem+json"),
        (encodeAscii "content-length", encodeAscii (toString body.length)),
        (encodeAscii "X-Correlation-ID", correlationId.toUTF8.toList)]),
    .body (some body) none]

/-! ## Apps -/

/-- A message for the app: a part of the request body, or the disconnect. -/
structure Received where
  type : String
  body : Option Bytes
  moreBody : Option Bool
deriving DecidableEq, Repr

/-- `len(message.get("body", b""))`. -/
def Received.size (m : Received) : ℕ := (m.body.getD []).length

/-- What has happened between the app and the middleware. -/
inductive Event
  | received (m : Received)
  /-- A `receive` of the app raised `_PayloadTooLarge`. -/
  | tooLarge
  | sent (m : Message)
deriving DecidableEq, Repr

/-- An exception that the app lets out. -/
inductive AppError
  | payloadTooLarge
  | other (name : String)
deriving DecidableEq, Repr

/-- What an app does next. -/
inductive Act
  | receive
  | send (m : Message)
  | finish
  | raise (e : AppError)
deriving DecidableEq, Repr

/-- The messages the app has sent. -/
def sentOf (history : List Event) : List Message :=
  history.filterMap fun
    | .sent m => some m
    | _ => none

/-- The app has received this many bytes. -/
def delivered (history : List Event) : ℕ :=
  (history.map fun
    | .received m => m.size
    | _ => 0).sum

/-- The message begins a response. -/
def isStart : Message → Bool
  | .start _ _ => true
  | _ => false

/-- The message is a part of the body of a response. -/
def isBody : Message → Bool
  | .body _ _ => true
  | _ => false

/-- An ASGI app: it starts its response before it sends a part of it, starts no other one, and does not
return without a response. It may let out an exception at any time. -/
structure AsgiApp where
  next : List Event → Act
  send_start : ∀ history m, next history = .send m → sentOf history = [] → isStart m = true
  send_body : ∀ history m, next history = .send m → sentOf history ≠ [] → isBody m = true
  finish : ∀ history, next history = .finish → sentOf history ≠ []

/-! ## A request -/

/-- How `__call__` ended. -/
inductive Ending
  | returned
  | raised (e : AppError)
deriving DecidableEq, Repr

/-- The state of a call: what the app has done, the variable `total`, and what the server got. -/
structure Sys where
  history : List Event
  total : ℕ
  sent : List Message
  ended : Option Ending
deriving DecidableEq, Repr

/-- The server delivers a message to a waiting `receive`, or the app does something else. -/
inductive Action
  | deliver (m : Received)
  | act
deriving DecidableEq, Repr

/-- `__call__` up to the call of the app. -/
def start (limit : ℕ) (correlationId : String) (scope : Scope) : Sys :=
  if Limited scope ∧ tooLong limit scope then ⟨[], 0, send413 limit correlationId, some .returned⟩
  else ⟨[], 0, [], none⟩

/-- `size_limited_receive`, or the plain `receive` of a request that is not limited. -/
def deliver (limit : ℕ) (scope : Scope) (s : Sys) (m : Received) : Sys :=
  if Limited scope then
    let total := s.total + m.size
    if limit < total then { s with history := s.history ++ [.tooLarge], total := total }
    else { s with history := s.history ++ [.received m], total := total }
  else { s with history := s.history ++ [.received m] }

/-- A step of the call. -/
def step (app : AsgiApp) (limit : ℕ) (correlationId : String) (scope : Scope) (s : Sys) (a : Action) :
    Option Sys :=
  if s.ended.isSome then none
  else
    match app.next s.history, a with
    | .receive, .deliver m => some (deliver limit scope s m)
    | .send m, .act => some { s with history := s.history ++ [.sent m], sent := s.sent ++ [m] }
    | .finish, .act => some { s with ended := some .returned }
    | .raise e, .act =>
        if Limited scope ∧ e = .payloadTooLarge then
          some { s with sent := s.sent ++ send413 limit correlationId, ended := some .returned }
        else some { s with ended := some (.raised e) }
    | _, _ => none

/-! ## The law of the limit -/

/-- One start, and after it only parts of the body. -/
def IsResponse (sent : List Message) : Prop :=
  ∃ first rest, sent = first :: rest ∧ isStart first = true ∧ ∀ m ∈ rest, isBody m = true

/-- The app got no more bytes than the limit, and the server gets one response: nothing at first, and a
response once the call has ended. -/
structure Lawful (limit : ℕ) (s : Sys) : Prop where
  delivered_le : delivered s.history ≤ limit
  response : s.sent = [] ∨ IsResponse s.sent
  ended : s.ended.isSome → s.sent ≠ []

/-- The app lets `_PayloadTooLarge` out only before its response, and another exception only after it has
started one. -/
def Contained (app : AsgiApp) (s : Sys) : Action → Prop
  | .act =>
      match app.next s.history with
      | .raise .payloadTooLarge => s.sent = []
      | .raise (.other _) => s.sent ≠ []
      | _ => True
  | .deliver _ => True

/-! ## The steps of a limited request -/

section Histories

variable (history : List Event)

@[simp] theorem sentOf_received (m : Received) : sentOf (history ++ [.received m]) = sentOf history := by
  simp [sentOf]

@[simp] theorem sentOf_tooLarge : sentOf (history ++ [.tooLarge]) = sentOf history := by
  simp [sentOf]

@[simp] theorem sentOf_sent (m : Message) : sentOf (history ++ [.sent m]) = sentOf history ++ [m] := by
  simp [sentOf]

@[simp] theorem delivered_received (m : Received) :
    delivered (history ++ [.received m]) = delivered history + m.size := by
  simp [delivered]

@[simp] theorem delivered_tooLarge : delivered (history ++ [.tooLarge]) = delivered history := by
  simp [delivered]

@[simp] theorem delivered_sent (m : Message) : delivered (history ++ [.sent m]) = delivered history := by
  simp [delivered]

end Histories

/-- What a step of a limited request can be. -/
inductive Moves (app : AsgiApp) (limit : ℕ) (correlationId : String) (s : Sys) : Action → Sys → Prop
  | received {m : Received} (hnext : app.next s.history = .receive) (hle : s.total + m.size ≤ limit) :
      Moves app limit correlationId s (.deliver m)
        { s with history := s.history ++ [.received m], total := s.total + m.size }
  | tooLarge {m : Received} (hnext : app.next s.history = .receive) :
      Moves app limit correlationId s (.deliver m)
        { s with history := s.history ++ [.tooLarge], total := s.total + m.size }
  | send {m : Message} (hnext : app.next s.history = .send m) :
      Moves app limit correlationId s .act { s with history := s.history ++ [.sent m], sent := s.sent ++ [m] }
  | finish (hnext : app.next s.history = .finish) :
      Moves app limit correlationId s .act { s with ended := some .returned }
  | refuse (hnext : app.next s.history = .raise .payloadTooLarge) :
      Moves app limit correlationId s .act
        { s with sent := s.sent ++ send413 limit correlationId, ended := some .returned }
  | raise {name : String} (hnext : app.next s.history = .raise (.other name)) :
      Moves app limit correlationId s .act { s with ended := some (.raised (.other name)) }

section Steps

variable {app : AsgiApp} {limit : ℕ} {correlationId : String} {scope : Scope} {s s' : Sys} {a : Action}

theorem moves_of_step (hscope : Limited scope) (h : step app limit correlationId scope s a = some s') :
    s.ended = none ∧ Moves app limit correlationId s a s' := by
  simp only [step] at h
  split at h
  · cases h
  · rename_i hrunning
    refine ⟨by simpa using hrunning, ?_⟩
    split at h
    · rename_i m hnext
      cases h
      simp only [deliver, if_pos hscope]
      split
      · exact .tooLarge hnext
      · rename_i hle
        exact .received hnext (Nat.le_of_not_lt hle)
    · rename_i m hnext
      cases h
      exact .send hnext
    · rename_i hnext
      cases h
      exact .finish hnext
    · rename_i e hnext
      cases e with
      | payloadTooLarge =>
          simp only [hscope, and_self, if_true, Option.some.injEq] at h
          subst h
          exact .refuse hnext
      | other name =>
          simp only [reduceCtorEq, and_false, if_false, Option.some.injEq] at h
          subst h
          exact .raise hnext
    · cases h

/-- While the app runs, the server has its messages; and what the app got was counted. -/
structure Tracks (s : Sys) : Prop where
  sent : s.ended = none → s.sent = sentOf s.history
  delivered_le : delivered s.history ≤ s.total

theorem Tracks.move (h : Tracks s) (hrunning : s.ended = none) (hmove : Moves app limit correlationId s a s') :
    Tracks s' := by
  have hsent := h.sent hrunning
  have hle := h.delivered_le
  cases hmove with
  | @received m hnext hroom =>
      refine ⟨fun _ => by simpa using hsent, ?_⟩
      rw [delivered_received]
      exact Nat.add_le_add_right hle m.size
  | @tooLarge m hnext =>
      refine ⟨fun _ => by simpa using hsent, ?_⟩
      rw [delivered_tooLarge]
      exact hle.trans (Nat.le_add_right _ _)
  | send hnext => exact ⟨fun _ => by simp [hsent], by simpa using hle⟩
  | finish | refuse | raise => exact ⟨fun hended => absurd hended (by simp), hle⟩

theorem isResponse_append {sent : List Message} (h : IsResponse sent) {ms : List Message} :
    IsResponse (sent ++ ms) ↔ ∀ m ∈ ms, isBody m = true := by
  obtain ⟨first, rest, rfl, hfirst, hrest⟩ := h
  constructor
  · rintro ⟨first', rest', heq, -, hrest'⟩ m hm
    rw [List.cons_append, List.cons.injEq] at heq
    exact hrest' m (heq.2 ▸ List.mem_append_right _ hm)
  · intro hms
    refine ⟨first, rest ++ ms, rfl, hfirst, ?_⟩
    intro m hm
    rcases List.mem_append.mp hm with hold | hnew
    · exact hrest m hold
    · exact hms m hnew

theorem isResponse_singleton {m : Message} (h : isStart m = true) : IsResponse [m] :=
  ⟨m, [], rfl, h, by simp⟩

theorem isResponse_send413 : IsResponse (send413 limit correlationId) := by
  refine ⟨_, _, rfl, rfl, ?_⟩
  simp [isBody]

/-- A message of an ASGI app goes on with its response. -/
theorem response_send (h : Lawful limit s) (htracks : s.sent = sentOf s.history) {m : Message}
    (hnext : app.next s.history = .send m) : IsResponse (s.sent ++ [m]) := by
  rcases h.response with hnil | hresponse
  · rw [hnil, List.nil_append]
    exact isResponse_singleton (app.send_start s.history m hnext (htracks ▸ hnil))
  · rw [isResponse_append hresponse]
    obtain ⟨first, rest, hsent, -⟩ := hresponse
    intro m' hm'
    rw [List.mem_singleton.mp hm']
    exact app.send_body s.history m hnext (by rw [← htracks, hsent]; exact List.cons_ne_nil _ _)

theorem not_isResponse_append_send413 (h : IsResponse s.sent) :
    ¬ IsResponse (s.sent ++ send413 limit correlationId) := by
  rw [isResponse_append h]
  intro hbodies
  cases hbodies _ List.mem_cons_self

/-- A step keeps the law exactly when the app contains its exceptions. -/
theorem lawful_move_iff (htracks : Tracks s) (hrunning : s.ended = none) (h : Lawful limit s)
    (hmove : Moves app limit correlationId s a s') : Lawful limit s' ↔ Contained app s a := by
  have hsent := htracks.sent hrunning
  have hle := htracks.delivered_le
  cases hmove with
  | @received m hnext hroom =>
      refine iff_of_true ⟨?_, h.response, h.ended⟩ trivial
      rw [delivered_received]
      omega
  | tooLarge hnext =>
      refine iff_of_true ⟨?_, h.response, h.ended⟩ trivial
      rw [delivered_tooLarge]
      exact h.delivered_le
  | @send m hnext =>
      have hresponse := response_send h hsent hnext
      refine iff_of_true ⟨?_, .inr hresponse, fun _ => by simp⟩ (by simp [Contained, hnext])
      rw [delivered_sent]
      exact h.delivered_le
  | finish hnext =>
      refine iff_of_true ⟨h.delivered_le, h.response, fun _ => ?_⟩ (by simp [Contained, hnext])
      rw [hsent]
      exact app.finish s.history hnext
  | refuse hnext =>
      simp only [Contained, hnext]
      constructor
      · intro h'
        rcases h.response with hnil | hresponse
        · exact hnil
        · rcases h'.response with hempty | hboth
          · cases (List.append_eq_nil_iff.mp hempty).2
          · exact absurd hboth (not_isResponse_append_send413 hresponse)
      · intro hnil
        refine ⟨h.delivered_le, .inr ?_, fun _ => by simp [send413]⟩
        simp only [hnil, List.nil_append]
        exact isResponse_send413
  | raise hnext =>
      simp only [Contained, hnext]
      constructor
      · intro h'
        exact h'.ended rfl
      · intro hne
        exact ⟨h.delivered_le, h.response, fun _ => hne⟩

end Steps

/-! ## Runs -/

theorem lawful_start (limit : ℕ) (correlationId : String) (scope : Scope) :
    Lawful limit (start limit correlationId scope) := by
  unfold start
  split
  · exact ⟨Nat.zero_le _, .inr isResponse_send413, fun _ => by simp [send413]⟩
  · exact ⟨Nat.zero_le _, .inl rfl, by simp⟩

theorem tracks_start (limit : ℕ) (correlationId : String) (scope : Scope) :
    Tracks (start limit correlationId scope) := by
  unfold start
  split
  · exact ⟨by simp, Nat.le_refl _⟩
  · exact ⟨fun _ => rfl, Nat.le_refl _⟩

/-- Behind the middleware an app gets no more than the limit and the server gets one response, all along a
run, exactly when the app lets `_PayloadTooLarge` out before its response and other exceptions after it. -/
theorem one_response_iff (app : AsgiApp) (limit : ℕ) (correlationId : String) (scope : Scope)
    (hscope : Limited scope) {actions : List Action} {s : Sys}
    (hrun : run (step app limit correlationId scope) (start limit correlationId scope) actions = some s) :
    (∀ as t, as <+: actions →
        run (step app limit correlationId scope) (start limit correlationId scope) as = some t → Lawful limit t)
      ↔ Guarded (step app limit correlationId scope) (Contained app) (start limit correlationId scope)
          actions := by
  have htracks : ∀ s a s', Tracks s → step app limit correlationId scope s a = some s' → Tracks s' := by
    intro s a s' h hs'
    obtain ⟨hrunning, hmove⟩ := moves_of_step hscope hs'
    exact h.move hrunning hmove
  have hkeep : ∀ s a s', Tracks s ∧ Lawful limit s → step app limit correlationId scope s a = some s' →
      (Tracks s' ∧ Lawful limit s' ↔ Contained app s a) := by
    intro s a s' ⟨htrack, hlawful⟩ hs'
    obtain ⟨hrunning, hmove⟩ := moves_of_step hscope hs'
    rw [and_iff_right (htrack.move hrunning hmove)]
    exact lawful_move_iff htrack hrunning hlawful hmove
  rw [← forall_prefix_iff_guarded hkeep
    ⟨tracks_start limit correlationId scope, lawful_start limit correlationId scope⟩ hrun]
  refine forall_congr' fun as => forall_congr' fun t => forall_congr' fun _ => forall_congr' fun ht => ?_
  rw [and_iff_right (run_invariant htracks (tracks_start limit correlationId scope) ht)]

/-! ## An app that answers the exception -/

/-- Reads the request and answers 200. What `receive` raises it lets out, after a response of 500 where a
handler for all exceptions is installed. -/
def answer (handled : Bool) (history : List Event) : Act :=
  match sentOf history with
  | [] =>
      if Event.tooLarge ∈ history then
        if handled then .send (.start 500 none) else .raise .payloadTooLarge
      else if history = [] then .receive
      else .send (.start 200 none)
  | [_] => .send (.body none none)
  | _ => if Event.tooLarge ∈ history then .raise .payloadTooLarge else .finish

def answeringApp (handled : Bool) : AsgiApp where
  next := answer handled
  send_start := by
    intro history m hnext hsent
    rw [answer, hsent] at hnext
    split_ifs at hnext <;> cases hnext <;> rfl
  send_body := by
    intro history m hnext hsent
    unfold answer at hnext
    split at hnext
    · exact absurd ‹_› hsent
    · cases hnext
      rfl
    · split_ifs at hnext
  finish := by
    intro history hnext hsent
    rw [answer, hsent] at hnext
    split_ifs at hnext

/-- A `POST` without a `Content-Length`. -/
def post : Scope := ⟨"http", "POST", some "/", none⟩

/-- A body of five bytes in one message. -/
def fiveBytes : Received := ⟨"http.request", some [1, 2, 3, 4, 5], none⟩

/-- The exception leaves the app: the 413 is the only response. -/
theorem one_response_of_unhandled :
    ∃ s, run (step (answeringApp false) 3 "c" post) (start 3 "c" post) [.deliver fiveBytes, .act] = some s ∧
      (s.sent.filter isStart).length = 1 ∧ Lawful 3 s := by
  have hrun : run (step (answeringApp false) 3 "c" post) (start 3 "c" post) [.deliver fiveBytes, .act] = some _ :=
    rfl
  refine ⟨_, hrun, rfl, ?_⟩
  refine (one_response_iff (answeringApp false) 3 "c" post (by decide) hrun).mpr ?_ _ _ List.prefix_rfl hrun
  refine ⟨trivial, fun s₁ h₁ => ⟨?_, fun s₂ h₂ => trivial⟩⟩
  cases h₁
  rfl

/-- A handler has answered 500 by then: the 413 is a second response. -/
theorem two_responses_of_handled :
    ∃ s, run (step (answeringApp true) 3 "c" post) (start 3 "c" post)
        [.deliver fiveBytes, .act, .act, .act] = some s ∧
      (s.sent.filter isStart).length = 2 ∧ ¬ Lawful 3 s := by
  refine ⟨_, rfl, rfl, ?_⟩
  intro h
  rcases h.response with hnil | ⟨first, rest, hsent, -, hbodies⟩
  · cases hnil
  · cases hsent
    cases hbodies _ (List.mem_cons_of_mem _ List.mem_cons_self)

end ApexChainx.Middleware.PayloadSize
