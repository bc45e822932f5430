import Mathlib.Logic.Function.Basic
import ApexChainx.Core.Error
import ApexChainx.Lib.Base64
import ApexChainx.Lib.Json

/-!
# The ETag middleware

`app/middleware/etag.py`: `_compute_etag` and `ETagMiddleware.__call__`, whose `send_with_etag` stands
between the messages a downstream app sends and the server. A call is modelled by the list of messages the
app sends for it; the app learns nothing from `send`, unless `send` raises and the call ends there.

The tag is fixed at the first body message, over at most `MAX_ETAG_BODY_BYTES` of it (`hashedPrefix`).
`call_of_tagged` says what the server gets for every way of splitting the body; when nothing is tagged, it
gets the app's messages as they are (`call_of_not_tagged`). A 304 speaks for the hashed part of a body and for no
more of it, and it is not a complete response either (`conditional_request_iff`). SHA-256 is a parameter.
-/

namespace ApexChainx.Middleware

open ApexChainx.Lib

/-! ## Bytes -/

abbrev Bytes := List UInt8

abbrev Header := Bytes × Bytes

/-- `str.encode("ascii")`, for a text in ASCII. -/
def encodeAscii (s : String) : Bytes := s.toList.map fun c => UInt8.ofNat c.toNat

/-- `bytes.decode("latin-1")`. -/
def decodeLatin1 (b : Bytes) : String := String.ofList (b.map fun c => Char.ofNat c.toNat)

/-- `bytes.decode("ascii")`: it raises `UnicodeDecodeError`, a `ValueError`. -/
def decodeAscii (b : Bytes) : Outcome String :=
  match b.findIdx? (128 ≤ ·.toNat) with
  | none => .ok (decodeLatin1 b)
  | some i =>
      let byte := (b.getD i 0).toNat
      .error (.valueError ("'ascii' codec can't decode byte 0x" ++
        String.ofList [hexDigit (byte / 16), hexDigit (byte % 16)] ++ " in position " ++ toString i ++
        ": ordinal not in range(128)"))

/-- `bytes.lower`. -/
def lower (b : Bytes) : Bytes := b.map fun c => if 65 ≤ c.toNat ∧ c.toNat ≤ 90 then c + 32 else c

/-- `hashlib.sha256(data).hexdigest()`. -/
structure Sha256 where
  hexdigest : Bytes → String
  hexdigest_ascii : ∀ data, (hexdigest data).toList.all (·.toNat < 128)

/-! ## Messages and requests -/

/-- An ASGI message of an app; a key that may be missing is an option. -/
inductive Message
  | start (status : ℤ) (headers : Option (List Header))
  | body (body : Option Bytes) (moreBody : Option Bool)
  | other (type : String)
deriving DecidableEq, Repr

/-- `message.get("body", b"")` of a body message. -/
def Message.content : Message → Bytes
  | .body content _ => content.getD []
  | _ => []

/-- The bodies of the messages, one after the other. -/
def completeBody (messages : List Message) : Bytes := messages.flatMap Message.content

/-- What the middleware reads of the ASGI scope; the method is there when the type is `http`. -/
structure Scope where
  type : String
  method : String
  path : Option String
  headers : Option (List Header)

/-- `dict(scope.get("headers", []))` at a name: of several entries the last one counts. -/
def Scope.requestHeader (scope : Scope) (name : Bytes) : Option Bytes :=
  ((scope.headers.getD []).reverse.find? (·.1 = name)).map (·.2)

/-- `if_none_match`. -/
def Scope.ifNoneMatch (scope : Scope) : Option String :=
  (scope.requestHeader (encodeAscii "if-none-match")).map decodeLatin1

/-- The value of the first header whose name is `name` in lower case. -/
def firstHeader (name : Bytes) (headers : List Header) : Option Bytes :=
  (headers.find? (lower ·.1 = name)).map (·.2)

/-! ## The middleware -/

/-- `MAX_ETAG_BODY_BYTES`. -/
def maxEtagBodyBytes : ℕ := 1024 * 1024

/-- What the digest of a tag is taken of. -/
def etagInput (body : Bytes) (contentLength : Option String) : Bytes :=
  match contentLength with
  | none => body
  | some length => body ++ encodeAscii "|" ++ encodeAscii length

/-- `_compute_etag`. -/
def computeEtag (sha : Sha256) (body : Bytes) (contentLength : Option String) : String :=
  "W/\"" ++ sha.hexdigest (etagInput body contentLength) ++ "\""

/-- `content_length` in `send_with_etag`. -/
def contentLength (headers : List Header) : Outcome (Option String) :=
  match firstHeader (encodeAscii "content-length") headers with
  | none => .ok none
  | some value =>
      match decodeAscii value with
      | .ok length => .ok (some length)
      | .error e => .error e

/-- `any(name.lower() == b"etag" for name, _ in response_headers)`. -/
def hasEtag (headers : List Header) : Bool := headers.any (lower ·.1 = encodeAscii "etag")

/-- The headers of a 304. -/
def notModifiedHeaders (etag : String) (responseHeaders : List Header) : List Header :=
  (encodeAscii "etag", encodeAscii etag) ::
    ((firstHeader (encodeAscii "x-correlation-id") responseHeaders).map
      (encodeAscii "x-correlation-id", ·)).toList

/-- The variables `send_with_etag` keeps from message to message. -/
structure SendState where
  responseStatus : Option ℤ := none
  responseHeaders : List Header := []
  bodyPrefix : Bytes := []
  etag : Option String := none
  notModified : Bool := false
  startForwarded : Bool := false
  bufferResponse : Bool := false

/-- The tail of `send_with_etag` at the first body message of a response it holds back. -/
def sendFirstBody (sha : Sha256) (ifNoneMatch : Option String) (s : SendState) (body : Option Bytes)
    (moreBody : Option Bool) : Outcome (SendState × List Message) :=
  let remaining := maxEtagBodyBytes - s.bodyPrefix.length
  let s := if 0 < remaining then
    { s with bodyPrefix := s.bodyPrefix ++ (body.getD []).take remaining } else s
  match contentLength s.responseHeaders with
  | .error e => .error e
  | .ok length =>
      let etag := computeEtag sha s.bodyPrefix length
      if ifNoneMatch = some etag then
        .ok ({ s with etag := some etag, notModified := true },
          [.start 304 (some (notModifiedHeaders etag s.responseHeaders))])
      else
        -- the start was held back, so the status is set
        .ok ({ s with etag := some etag, notModified := false },
          [.start (s.responseStatus.getD 0)
              (some (s.responseHeaders ++ [(encodeAscii "etag", encodeAscii etag)])),
            .body body moreBody])

/-- `send_with_etag`: the variables afterwards and the messages sent to the server. -/
def sendWithEtag (sha : Sha256) (ifNoneMatch : Option String) (s : SendState) :
    Message → Outcome (SendState × List Message)
  | .start status headers =>
      let s := { s with
        responseStatus := some status
        responseHeaders := headers.getD []
        bufferResponse := decide (200 ≤ status ∧ status < 300) }
      if !s.bufferResponse then .ok (s, [.start status headers])
      else if hasEtag s.responseHeaders then
        .ok ({ s with startForwarded := true }, [.start status headers])
      else .ok (s, [])
  | .other type => .ok (s, [.other type])
  | .body body moreBody =>
      if !s.bufferResponse || s.startForwarded then .ok (s, [.body body moreBody])
      else if s.etag.isNone then sendFirstBody sha ifNoneMatch s body moreBody
      else .ok (s, if s.notModified then [] else [.body body moreBody])

/-- What a call comes to: the messages the server got, and the exception that ended it. -/
structure Served where
  sent : List Message
  raised : Option ApiError
deriving DecidableEq, Repr

/-- The messages of the app, sent one after the other through `send_with_etag`. -/
def sendAll (sha : Sha256) (ifNoneMatch : Option String) : SendState → List Message → Served
  | _, [] => ⟨[], none⟩
  | s, m :: ms =>
      match sendWithEtag sha ifNoneMatch s m with
      | .error e => ⟨[], some e⟩
      | .ok (s', out) =>
          let rest := sendAll sha ifNoneMatch s' ms
          ⟨out ++ rest.sent, rest.raised⟩

/-- `_is_excluded`. -/
def isExcluded (excludePathPrefixes : List String) (path : String) : Bool :=
  excludePathPrefixes.any fun initial => initial.toList.isPrefixOf path.toList

/-- The two guards of `__call__`: whether the messages go through `send_with_etag`. -/
def Handled (excludePathPrefixes : List String) (scope : Scope) : Prop :=
  scope.type = "http" ∧ scope.method ∈ ["GET", "HEAD"] ∧
    ¬ isExcluded excludePathPrefixes (scope.path.getD "")

instance (excludePathPrefixes : List String) (scope : Scope) :
    Decidable (Handled excludePathPrefixes scope) :=
  inferInstanceAs (Decidable (_ ∧ _ ∧ ¬ _))

/-- `__call__`, around an app that sends `messages`. -/
def call (sha : Sha256) (excludePathPrefixes : List String) (scope : Scope)
    (messages : List Message) : Served :=
  if Handled excludePathPrefixes scope then sendAll sha scope.ifNoneMatch {} messages
  else ⟨messages, none⟩

/-! ## What an app sends -/

/-- Body messages of which exactly the last has `more_body` false. -/
inductive ClosedBody : List Message → Prop
  | last (body : Option Bytes) {moreBody : Option Bool} (h : moreBody.getD false = false) :
      ClosedBody [.body body moreBody]
  | more (body : Option Bytes) {rest : List Message} (h : ClosedBody rest) :
      ClosedBody (.body body (some true) :: rest)

/-- One start, and then body messages of which exactly the last has `more_body` false. -/
def Framed (messages : List Message) : Prop :=
  ∃ status headers bodies, messages = .start status headers :: bodies ∧ ClosedBody bodies

/-- The complete response of an app. -/
structure AppResponse where
  status : ℤ
  headers : Option (List Header)
  bodies : List Message
  closed : ClosedBody bodies

namespace AppResponse

variable (app : AppResponse)

/-- The messages it sends, in order. -/
def messages : List Message := .start app.status app.headers :: app.bodies

/-- `list(message.get("headers", []))`. -/
def responseHeaders : List Header := app.headers.getD []

/-- `200 <= status < 300`. -/
def Successful : Prop := 200 ≤ app.status ∧ app.status < 300

/-- The content length, if one is declared, is written in ASCII. -/
def ContentLengthAscii : Prop :=
  ∀ value, firstHeader (encodeAscii "content-length") app.responseHeaders = some value →
    ∀ b ∈ value, b.toNat < 128

/-- The part of the body the tag is computed from. -/
def hashedPrefix : Bytes := (app.bodies.head?.elim [] Message.content).take maxEtagBodyBytes

/-- The part of the body that the tag is not computed from. -/
def unhashed : Bytes := (completeBody app.messages).drop app.hashedPrefix.length

end AppResponse

theorem not_closedBody_nil : ¬ ClosedBody [] := by
  intro h
  cases h

theorem ClosedBody.body_of_mem {messages : List Message} (h : ClosedBody messages) {m : Message}
    (hm : m ∈ messages) : ∃ body moreBody, m = .body body moreBody := by
  induction h with
  | @last body moreBody hlast => exact ⟨body, moreBody, List.mem_singleton.mp hm⟩
  | @more body rest hrest ih =>
      rcases List.mem_cons.mp hm with rfl | htail
      · exact ⟨body, some true, rfl⟩
      · exact ih htail

theorem ClosedBody.start_notMem {messages : List Message} (h : ClosedBody messages) (status : ℤ)
    (headers : Option (List Header)) : .start status headers ∉ messages := by
  intro hm
  obtain ⟨body, moreBody, heq⟩ := h.body_of_mem hm
  exact Message.noConfusion heq

/-! ## What the server gets -/

section Relay

variable {sha : Sha256} {ifNoneMatch : Option String} {s : SendState} {messages : List Message}

/-- A state that hands every message on as it is. -/
theorem sendAll_of_relayed
    (h : ∀ m ∈ messages, sendWithEtag sha ifNoneMatch s m = .ok (s, [m])) :
    sendAll sha ifNoneMatch s messages = ⟨messages, none⟩ := by
  induction messages with
  | nil => rfl
  | cons m ms ih =>
      rw [sendAll, h m List.mem_cons_self]
      simp only [ih fun x hx => h x (List.mem_cons_of_mem _ hx), List.singleton_append]

/-- A state that drops every message. -/
theorem sendAll_of_dropped
    (h : ∀ m ∈ messages, sendWithEtag sha ifNoneMatch s m = .ok (s, [])) :
    sendAll sha ifNoneMatch s messages = ⟨[], none⟩ := by
  induction messages with
  | nil => rfl
  | cons m ms ih =>
      rw [sendAll, h m List.mem_cons_self]
      simp only [ih fun x hx => h x (List.mem_cons_of_mem _ hx), List.nil_append]

end Relay

variable {sha : Sha256} {excludePathPrefixes : List String} {scope : Scope} {app : AppResponse}

/-- The middleware holds the start back and computes a tag. -/
structure Tagged (excludePathPrefixes : List String) (scope : Scope) (app : AppResponse) : Prop where
  handled : Handled excludePathPrefixes scope
  successful : app.Successful
  untagged : hasEtag app.responseHeaders = false

theorem call_of_not_tagged (h : ¬ Tagged excludePathPrefixes scope app) :
    call sha excludePathPrefixes scope app.messages = ⟨app.messages, none⟩ := by
  by_cases hhandled : Handled excludePathPrefixes scope
  · rw [call, if_pos hhandled, AppResponse.messages, sendAll]
    by_cases hstatus : app.Successful
    · have hetag : hasEtag app.responseHeaders = true := by
        by_contra hnone
        exact h ⟨hhandled, hstatus, by simpa using hnone⟩
      have hstart : sendWithEtag sha scope.ifNoneMatch {} (.start app.status app.headers) =
          .ok ({ responseStatus := some app.status, responseHeaders := app.responseHeaders,
                 bufferResponse := true, startForwarded := true },
            [.start app.status app.headers]) := by
        simp [sendWithEtag, show 200 ≤ app.status ∧ app.status < 300 from hstatus,
          show hasEtag (app.headers.getD []) = true from hetag, AppResponse.responseHeaders]
      rw [hstart]
      simp only
      rw [sendAll_of_relayed fun m hm => ?_, List.singleton_append]
      obtain ⟨body, moreBody, rfl⟩ := app.closed.body_of_mem hm
      simp [sendWithEtag]
    · have hstart : sendWithEtag sha scope.ifNoneMatch {} (.start app.status app.headers) =
          .ok ({ responseStatus := some app.status, responseHeaders := app.responseHeaders },
            [.start app.status app.headers]) := by
        simp [sendWithEtag, show ¬ (200 ≤ app.status ∧ app.status < 300) from hstatus,
          AppResponse.responseHeaders]
      rw [hstart]
      simp only
      rw [sendAll_of_relayed fun m hm => ?_, List.singleton_append]
      obtain ⟨body, moreBody, rfl⟩ := app.closed.body_of_mem hm
      simp [sendWithEtag]
  · rw [call, if_neg hhandled]

/-- The tag of a response, with the content length it declares. -/
def AppResponse.tag (app : AppResponse) (sha : Sha256) (length : Option String) : String :=
  computeEtag sha app.hashedPrefix length

/-- The state while the start of a response is held back. -/
def AppResponse.held (app : AppResponse) : SendState :=
  { responseStatus := some app.status, responseHeaders := app.responseHeaders, bufferResponse := true }

theorem sendWithEtag_start {ifNoneMatch : Option String} (hstatus : app.Successful)
    (hetag : hasEtag app.responseHeaders = false) :
    sendWithEtag sha ifNoneMatch {} (.start app.status app.headers) = .ok (app.held, []) := by
  simp [sendWithEtag, show 200 ≤ app.status ∧ app.status < 300 from hstatus,
    show hasEtag (app.headers.getD []) = false from hetag, AppResponse.held,
    AppResponse.responseHeaders]

theorem sendFirstBody_held {ifNoneMatch length : Option String} {body : Option Bytes}
    {moreBody : Option Bool} {rest : List Message} (hbodies : app.bodies = .body body moreBody :: rest)
    (hlength : contentLength app.responseHeaders = .ok length) :
    sendFirstBody sha ifNoneMatch app.held body moreBody =
      if ifNoneMatch = some (app.tag sha length) then
        .ok ({ app.held with
            bodyPrefix := app.hashedPrefix, etag := some (app.tag sha length), notModified := true },
          [.start 304 (some (notModifiedHeaders (app.tag sha length) app.responseHeaders))])
      else
        .ok ({ app.held with
            bodyPrefix := app.hashedPrefix, etag := some (app.tag sha length), notModified := false },
          [.start app.status
              (some (app.responseHeaders ++
                [(encodeAscii "etag", encodeAscii (app.tag sha length))])),
            .body body moreBody]) := by
  have hhashed : app.hashedPrefix = (body.getD []).take maxEtagBodyBytes := by
    rw [AppResponse.hashedPrefix, hbodies]
    rfl
  have hroom : 0 < maxEtagBodyBytes := by decide
  simp [sendFirstBody, AppResponse.held, AppResponse.tag, hhashed, hlength, hroom]

/-- A tagged response: on a match a 304 without any body message, else the start with the tag and the
body as the app splits it. -/
theorem call_of_tagged (sha : Sha256) {length : Option String} (h : Tagged excludePathPrefixes scope app)
    (hlength : contentLength app.responseHeaders = .ok length) :
    call sha excludePathPrefixes scope app.messages =
      if scope.ifNoneMatch = some (app.tag sha length) then
        ⟨[.start 304 (some (notModifiedHeaders (app.tag sha length) app.responseHeaders))], none⟩
      else
        ⟨.start app.status (some (app.responseHeaders ++
          [(encodeAscii "etag", encodeAscii (app.tag sha length))])) :: app.bodies, none⟩ := by
  rw [call, if_pos h.handled, AppResponse.messages, sendAll,
    sendWithEtag_start h.successful h.untagged]
  cases hbodies : app.bodies with
  | nil => exact absurd (hbodies ▸ app.closed) not_closedBody_nil
  | cons first rest =>
      obtain ⟨body, moreBody, rfl⟩ := app.closed.body_of_mem (hbodies ▸ List.mem_cons_self)
      have hrest : ∀ m ∈ rest, ∃ body moreBody, m = .body body moreBody := fun m hm =>
        app.closed.body_of_mem (hbodies ▸ List.mem_cons_of_mem _ hm)
      have hfirst : sendWithEtag sha scope.ifNoneMatch app.held (.body body moreBody) =
          sendFirstBody sha scope.ifNoneMatch app.held body moreBody := by
        simp [sendWithEtag, AppResponse.held]
      simp only [sendAll, hfirst, sendFirstBody_held hbodies hlength, List.nil_append]
      by_cases hmatch : scope.ifNoneMatch = some (app.tag sha length)
      · -- the 304 has been sent; what is left of the body is dropped
        simp only [if_pos hmatch]
        rw [sendAll_of_dropped fun m hm => ?_, List.append_nil]
        obtain ⟨body', moreBody', rfl⟩ := hrest m hm
        simp [sendWithEtag, AppResponse.held]
      · simp only [if_neg hmatch]
        rw [sendAll_of_relayed fun m hm => ?_]
        · rfl
        · obtain ⟨body', moreBody', rfl⟩ := hrest m hm
          simp [sendWithEtag, AppResponse.held]

/-! ## Tags -/

theorem decodeLatin1_encodeAscii {s : String} (h : s.toList.all (·.toNat < 128)) :
    decodeLatin1 (encodeAscii s) = s := by
  have hchar : ∀ c ∈ s.toList, Char.ofNat (UInt8.ofNat c.toNat).toNat = c := by
    intro c hc
    have hlt : c.toNat < 128 := by simpa using List.all_eq_true.mp h c hc
    rw [UInt8.toNat_ofNat', Nat.mod_eq_of_lt (by omega), Char.ofNat_toNat]
  rw [decodeLatin1, encodeAscii, List.map_map]
  calc String.ofList (s.toList.map _) = String.ofList (s.toList.map id) :=
        congrArg String.ofList (List.map_congr_left hchar)
    _ = s := by simp

theorem computeEtag_ascii (sha : Sha256) (body : Bytes) (length : Option String) :
    (computeEtag sha body length).toList.all (·.toNat < 128) := by
  have hquote : ("W/\"".toList.all (·.toNat < 128) ∧ "\"".toList.all (·.toNat < 128)) := by decide
  simp only [computeEtag, String.toList_append, List.all_append, hquote, sha.hexdigest_ascii,
    Bool.and_self]

theorem etagInput_inj {body body' : Bytes} {length : Option String}
    (h : etagInput body length = etagInput body' length) : body = body' := by
  cases length with
  | none => exact h
  | some length =>
      rw [etagInput, etagInput, List.append_assoc, List.append_assoc] at h
      exact List.append_cancel_right h

/-- With one content length, a collision-free digest tells hashed prefixes apart. -/
theorem computeEtag_inj {body body' : Bytes} {length : Option String}
    (hsha : Function.Injective sha.hexdigest)
    (h : computeEtag sha body length = computeEtag sha body' length) : body = body' := by
  have hlist := congrArg String.toList h
  simp only [computeEtag, String.toList_append, List.append_assoc, List.append_cancel_left_eq,
    List.append_cancel_right_eq] at hlist
  exact etagInput_inj (hsha (String.toList_inj.mp hlist))

theorem contentLength_of_ascii (h : app.ContentLengthAscii) :
    ∃ length, contentLength app.responseHeaders = .ok length := by
  cases hvalue : firstHeader (encodeAscii "content-length") app.responseHeaders with
  | none => exact ⟨none, by rw [contentLength, hvalue]⟩
  | some value =>
      have hnone : value.findIdx? (128 ≤ ·.toNat) = none := by
        rw [List.findIdx?_eq_none_iff]
        intro b hb
        simpa using h value hvalue b hb
      exact ⟨some (decodeLatin1 value), by simp only [contentLength, hvalue, decodeAscii, hnone]⟩

theorem ascii_of_contentLength {length : Option String}
    (h : contentLength app.responseHeaders = .ok length) : app.ContentLengthAscii := by
  intro value hvalue b hb
  by_contra hlarge
  obtain ⟨i, hi⟩ : ∃ i, value.findIdx? (128 ≤ ·.toNat) = some i := by
    rw [← Option.isSome_iff_exists, List.findIdx?_isSome, List.any_eq_true]
    exact ⟨b, hb, by simpa using hlarge⟩
  simp [contentLength, hvalue, decodeAscii, hi] at h

/-- A content length that is not ASCII raises before anything is sent. -/
theorem call_of_contentLength_error {e : ApiError} (h : Tagged excludePathPrefixes scope app)
    (hlength : contentLength app.responseHeaders = .error e) :
    call sha excludePathPrefixes scope app.messages = ⟨[], some e⟩ := by
  rw [call, if_pos h.handled, AppResponse.messages, sendAll, sendWithEtag_start h.successful h.untagged]
  cases hbodies : app.bodies with
  | nil => exact absurd (hbodies ▸ app.closed) not_closedBody_nil
  | cons first rest =>
      obtain ⟨body, moreBody, rfl⟩ := app.closed.body_of_mem (hbodies ▸ List.mem_cons_self)
      have hroom : 0 < maxEtagBodyBytes := by decide
      have hfirst : sendWithEtag sha scope.ifNoneMatch app.held (.body body moreBody) = .error e := by
        simp [sendWithEtag, sendFirstBody, AppResponse.held, hlength, hroom]
      simp only [sendAll, hfirst, List.nil_append]

/-- A start among the messages has a header `etag` with this value. -/
def CarriesEtag (messages : List Message) (value : Bytes) : Prop :=
  ∃ status headers name, .start status (some headers) ∈ messages ∧ (name, value) ∈ headers ∧
    lower name = encodeAscii "etag"

/-- A 304 is sent. -/
def NotModified (messages : List Message) : Prop := ∃ headers, .start 304 headers ∈ messages

theorem AppResponse.not_notModified (h : app.Successful) (headers : Option (List Header)) :
    ¬ NotModified (.start app.status headers :: app.bodies) := by
  rintro ⟨headers', hmem⟩
  rcases List.mem_cons.mp hmem with heq | hbody
  · have hstatus : app.status = 304 := (Message.start.inj heq).1.symm
    obtain ⟨-, hlt⟩ := h
    omega
  · exact app.closed.start_notMem _ _ hbody

/-- What a response that is not tagged carries, the app put there. -/
theorem hasEtag_of_carriesEtag {value : Bytes} (h : CarriesEtag app.messages value) :
    hasEtag app.responseHeaders = true := by
  obtain ⟨status, headers, name, hstart, hmem, hname⟩ := h
  rcases List.mem_cons.mp hstart with heq | hbody
  · have hheaders : app.responseHeaders = headers := by
      rw [AppResponse.responseHeaders, ← (Message.start.inj heq).2]
      rfl
    rw [hheaders, hasEtag, List.any_eq_true]
    exact ⟨(name, value), hmem, by simpa using hname⟩
  · exact absurd hbody (app.closed.start_notMem _ _)

theorem lower_ne_etag_of_not_hasEtag {headers : List Header} {name value : Bytes}
    (h : hasEtag headers = false) (hmem : (name, value) ∈ headers) :
    lower name ≠ encodeAscii "etag" := by
  have hname := List.any_eq_false.mp h (name, value) hmem
  simpa using hname

theorem eq_of_mem_notModifiedHeaders {etag : String} {headers : List Header} {name value : Bytes}
    (hmem : (name, value) ∈ notModifiedHeaders etag headers) (hname : lower name = encodeAscii "etag") :
    value = encodeAscii etag := by
  rcases List.mem_cons.mp hmem with heq | hcorrelation
  · exact congrArg Prod.snd heq
  · obtain ⟨id, -, heq⟩ : ∃ id, firstHeader (encodeAscii "x-correlation-id") headers = some id ∧
        (encodeAscii "x-correlation-id", id) = (name, value) := by
      simpa only [Option.mem_toList, Option.map_eq_some_iff] using hcorrelation
    -- the one header that is copied is no tag
    have hne : lower (encodeAscii "x-correlation-id") ≠ encodeAscii "etag" := by decide
    exact absurd (congrArg (lower ·.1) heq ▸ hname) hne

/-- A tagged response carries its tag and no other. -/
theorem eq_tag_of_carriesEtag {length : Option String} {value : Bytes}
    (h : Tagged excludePathPrefixes scope app)
    (hlength : contentLength app.responseHeaders = .ok length)
    (hcarries : CarriesEtag (call sha excludePathPrefixes scope app.messages).sent value) :
    value = encodeAscii (app.tag sha length) := by
  obtain ⟨status, headers, name, hstart, hmem, hname⟩ := hcarries
  rw [call_of_tagged sha h hlength] at hstart
  by_cases hmatch : scope.ifNoneMatch = some (app.tag sha length)
  · rw [if_pos hmatch, List.mem_singleton] at hstart
    obtain rfl : headers = notModifiedHeaders (app.tag sha length) app.responseHeaders :=
      Option.some.inj (Message.start.inj hstart).2
    exact eq_of_mem_notModifiedHeaders hmem hname
  · rw [if_neg hmatch] at hstart
    rcases List.mem_cons.mp hstart with heq | hbody
    · obtain rfl := Option.some.inj (Message.start.inj heq).2
      rcases List.mem_append.mp hmem with happ | htag
      · exact absurd hname (lower_ne_etag_of_not_hasEtag h.untagged happ)
      · exact congrArg Prod.snd (List.mem_singleton.mp htag)
    · exact absurd hbody (app.closed.start_notMem _ _)

/-! ## Conditional requests -/

theorem completeBody_start (status : ℤ) (headers : Option (List Header)) (bodies : List Message) :
    completeBody (.start status headers :: bodies) = completeBody bodies := rfl

/-- The request presents the tag of the response. -/
def Matched (sha : Sha256) (scope : Scope) (app : AppResponse) : Prop :=
  ∃ length, contentLength app.responseHeaders = .ok length ∧ scope.ifNoneMatch = some (app.tag sha length)

/-- The start that is held back reaches the server, with the body behind it. -/
def Forwarded (sha : Sha256) (excludePathPrefixes : List String) (scope : Scope) (app : AppResponse) : Prop :=
  Tagged excludePathPrefixes scope app → app.ContentLengthAscii ∧ ¬ Matched sha scope app

theorem call_of_forwarded (h : Forwarded sha excludePathPrefixes scope app) : ∃ headers,
    call sha excludePathPrefixes scope app.messages = ⟨.start app.status headers :: app.bodies, none⟩ := by
  by_cases htagged : Tagged excludePathPrefixes scope app
  · obtain ⟨hascii, hmatch⟩ := h htagged
    obtain ⟨length, hlength⟩ := contentLength_of_ascii hascii
    rw [call_of_tagged sha htagged hlength, if_neg fun hsame => hmatch ⟨length, hlength, hsame⟩]
    exact ⟨_, rfl⟩
  · exact ⟨app.headers, call_of_not_tagged htagged⟩

/-- Otherwise the server gets a 304 alone, or nothing at all. -/
theorem sent_of_not_forwarded (h : ¬ Forwarded sha excludePathPrefixes scope app) :
    (Matched sha scope app ∧
      ∃ headers, (call sha excludePathPrefixes scope app.messages).sent = [.start 304 headers]) ∨
      (call sha excludePathPrefixes scope app.messages).sent = [] := by
  obtain ⟨htagged, hrest⟩ := Classical.not_imp.mp h
  cases hlength : contentLength app.responseHeaders with
  | error e => exact .inr (congrArg Served.sent (call_of_contentLength_error htagged hlength))
  | ok length =>
      have hmatch : Matched sha scope app := by
        by_contra hne
        exact hrest ⟨ascii_of_contentLength hlength, hne⟩
      obtain ⟨length', hlength', hsame⟩ := hmatch
      refine .inl ⟨⟨length', hlength', hsame⟩, ?_⟩
      rw [call_of_tagged sha htagged hlength', if_pos hsame]
      exact ⟨_, rfl⟩

/-- The 304 is sent for a tagged response whose tag the request presents. -/
theorem matched_of_notModified (hstatus : app.Successful)
    (h : NotModified (call sha excludePathPrefixes scope app.messages).sent) :
    Tagged excludePathPrefixes scope app ∧ Matched sha scope app := by
  by_cases hforwarded : Forwarded sha excludePathPrefixes scope app
  · obtain ⟨headers, hcall⟩ := call_of_forwarded hforwarded
    rw [hcall] at h
    exact absurd h (app.not_notModified hstatus headers)
  · refine ⟨(Classical.not_imp.mp hforwarded).1, ?_⟩
    rcases sent_of_not_forwarded hforwarded with ⟨hmatch, -⟩ | hnone
    · exact hmatch
    · obtain ⟨headers, hmem⟩ := h
      rw [hnone] at hmem
      exact absurd hmem List.not_mem_nil

/-- What a matching tag says of the response that carried it. -/
theorem hashedPrefix_eq_of_notModified {earlier : Scope} {app₀ : AppResponse} {value : Bytes}
    (hsha : Function.Injective sha.hexdigest) (hstatus : app.Successful)
    (hheaders : app₀.responseHeaders = app.responseHeaders)
    (hcarries : CarriesEtag (call sha excludePathPrefixes earlier app₀.messages).sent value)
    (hpresented : scope.requestHeader (encodeAscii "if-none-match") = some value)
    (h : NotModified (call sha excludePathPrefixes scope app.messages).sent) :
    app.hashedPrefix = app₀.hashedPrefix := by
  obtain ⟨htagged, length, hlength, hmatch⟩ := matched_of_notModified hstatus h
  by_cases htagged₀ : Tagged excludePathPrefixes earlier app₀
  · have hvalue := eq_tag_of_carriesEtag htagged₀ (hheaders ▸ hlength) hcarries
    have htags : app.tag sha length = app₀.tag sha length := by
      rw [Scope.ifNoneMatch, hpresented, Option.map_some, hvalue,
        decodeLatin1_encodeAscii (s := app₀.tag sha length) (computeEtag_ascii sha _ _)] at hmatch
      exact (Option.some.inj hmatch).symm
    exact computeEtag_inj hsha htags
  · -- the earlier tag is the app's own, and the headers are the same now
    rw [call_of_not_tagged htagged₀] at hcarries
    have hetag := hasEtag_of_carriesEtag hcarries
    rw [hheaders, htagged.untagged] at hetag
    exact absurd hetag (by decide)

/-- An earlier response on the path, with the same headers, carried the tag that the request presents. -/
structure Presented (sha : Sha256) (excludePathPrefixes : List String) (scope : Scope) (app : AppResponse)
    (earlier : Scope) (app₀ : AppResponse) : Prop where
  path : earlier.path = scope.path
  headers : app₀.responseHeaders = app.responseHeaders
  carried : ∃ value, CarriesEtag (call sha excludePathPrefixes earlier app₀.messages).sent value ∧
    scope.requestHeader (encodeAscii "if-none-match") = some value

/-- A request is answered by one complete response: with the app's body, unless it is a 304, and a 304 only says
that the body is still the one that came with the presented tag. -/
structure AnsweredInFull (sha : Sha256) (excludePathPrefixes : List String) (scope : Scope)
    (app : AppResponse) : Prop where
  framed : Framed (call sha excludePathPrefixes scope app.messages).sent
  body : ¬ NotModified (call sha excludePathPrefixes scope app.messages).sent →
    completeBody (call sha excludePathPrefixes scope app.messages).sent = completeBody app.messages
  unchanged : NotModified (call sha excludePathPrefixes scope app.messages).sent →
    ∀ earlier app₀, Presented sha excludePathPrefixes scope app earlier app₀ →
      completeBody app.messages = completeBody app₀.messages

theorem not_framed_start (status : ℤ) (headers : Option (List Header)) :
    ¬ Framed [.start status headers] := by
  rintro ⟨_, _, bodies, heq, hclosed⟩
  rw [← (List.cons.inj heq).2] at hclosed
  exact not_closedBody_nil hclosed

theorem answeredInFull_iff (hstatus : app.Successful) :
    AnsweredInFull sha excludePathPrefixes scope app ↔ Forwarded sha excludePathPrefixes scope app := by
  constructor
  · intro h
    by_contra hnot
    have hframed := h.framed
    rcases sent_of_not_forwarded hnot with ⟨-, headers, hshort⟩ | hnone
    · exact not_framed_start 304 headers (hshort ▸ hframed)
    · rw [hnone] at hframed
      obtain ⟨_, _, _, heq, -⟩ := hframed
      cases heq
  · intro h
    obtain ⟨headers, hcall⟩ := call_of_forwarded h
    have hsent : (call sha excludePathPrefixes scope app.messages).sent = .start app.status headers :: app.bodies :=
      congrArg Served.sent hcall
    refine ⟨?_, fun _ => ?_, fun hnot => ?_⟩
    · exact hsent ▸ ⟨app.status, headers, app.bodies, rfl, app.closed⟩
    · rw [hsent, AppResponse.messages, completeBody_start, completeBody_start]
    · exact absurd (hsent ▸ hnot) (app.not_notModified hstatus headers)

/-- The digest covers a beginning of the body. -/
theorem AppResponse.hashedPrefix_append_unhashed (app : AppResponse) :
    app.hashedPrefix ++ app.unhashed = completeBody app.messages := by
  have hprefix : app.hashedPrefix <+: completeBody app.messages := by
    rw [AppResponse.hashedPrefix, AppResponse.messages, completeBody_start]
    cases hbodies : app.bodies with
    | nil => exact List.nil_prefix
    | cons first rest =>
        rw [completeBody, List.flatMap_cons]
        exact (List.take_prefix _ _).trans (List.prefix_append _ _)
  obtain ⟨rest, hrest⟩ := hprefix
  rw [AppResponse.unhashed, ← hrest, List.drop_left]

/-- A request is answered by one complete response exactly when the start is forwarded. A 304 is right about the body
exactly when what the digest leaves out of it is unchanged. -/
theorem conditional_request_iff (sha : Sha256) (hsha : Function.Injective sha.hexdigest)
    (excludePathPrefixes : List String) (scope : Scope) (app : AppResponse) (hstatus : app.Successful) :
    (AnsweredInFull sha excludePathPrefixes scope app ↔ Forwarded sha excludePathPrefixes scope app) ∧
      (NotModified (call sha excludePathPrefixes scope app.messages).sent →
        ∀ earlier app₀, Presented sha excludePathPrefixes scope app earlier app₀ →
          (completeBody app.messages = completeBody app₀.messages ↔ app.unhashed = app₀.unhashed)) := by
  refine ⟨answeredInFull_iff hstatus, fun h earlier app₀ hpresented => ?_⟩
  obtain ⟨value, hcarries, hvalue⟩ := hpresented.carried
  have hhashed := hashedPrefix_eq_of_notModified hsha hstatus hpresented.headers hcarries hvalue h
  rw [← app.hashedPrefix_append_unhashed, ← app₀.hashedPrefix_append_unhashed, hhashed]
  exact List.append_right_inj _

/-! ## A response that carries its tag, and one that a stale tag suppresses -/

/-- A digest with a known value at `data` and a distinct text for everything else. -/
def pinnedSha (data : Bytes) (hex : String) (hhex : hex.toList.all (·.toNat < 128)) : Sha256 where
  hexdigest b := if b = data then hex else String.ofList ('=' :: Base64.strip (Base64.encode b))
  hexdigest_ascii b := by
    by_cases hb : b = data
    · rw [if_pos hb]
      exact hhex
    · rw [if_neg hb, String.toList_ofList, List.all_cons, List.all_eq_true.mpr]
      · decide
      · intro c hc
        simpa using Base64.ascii_of_mem_strip_encode hc

theorem strip_encode_injective :
    Function.Injective fun b => String.ofList ('=' :: Base64.strip (Base64.encode b)) := by
  intro b b' h
  have htail := (List.cons.inj (String.ofList_injective h)).2
  have hencode := congrArg Base64.pad htail
  rw [Base64.pad_strip_encode, Base64.pad_strip_encode] at hencode
  have hdecode := congrArg Base64.decode hencode
  rw [Base64.decode_encode, Base64.decode_encode] at hdecode
  exact Option.some.inj hdecode

theorem pinnedSha_injective {data : Bytes} {hex : String} (hhex : hex.toList.all (·.toNat < 128))
    (hhead : hex.toList.head? ≠ some '=') : Function.Injective (pinnedSha data hex hhex).hexdigest := by
  have hother : ∀ b, hex ≠ String.ofList ('=' :: Base64.strip (Base64.encode b)) := by
    intro b heq
    rw [heq, String.toList_ofList, List.head?_cons] at hhead
    exact hhead rfl
  intro b b' h
  simp only [pinnedSha] at h
  by_cases hb : b = data <;> by_cases hb' : b' = data
  · rw [hb, hb']
  · rw [if_pos hb, if_neg hb'] at h
    exact absurd h (hother b')
  · rw [if_neg hb, if_pos hb'] at h
    exact absurd h.symm (hother b)
  · rw [if_neg hb, if_neg hb'] at h
    exact strip_encode_injective h

theorem closedBody_chunks (chunks : List Bytes) (last : Bytes) :
    ClosedBody (chunks.map (fun c => .body (some c) (some true)) ++ [.body (some last) (some false)]) := by
  induction chunks with
  | nil => exact .last (some last) rfl
  | cons c cs ih => exact .more (some c) ih

/-- A response 200 whose body is sent in these pieces. -/
def respond (headers : List Header) (chunks : List Bytes) (last : Bytes) : AppResponse where
  status := 200
  headers := some headers
  bodies := chunks.map (fun c => .body (some c) (some true)) ++ [.body (some last) (some false)]
  closed := closedBody_chunks chunks last

theorem respond_successful (headers : List Header) (chunks : List Bytes) (last : Bytes) :
    (respond headers chunks last).Successful :=
  ⟨show (200 : ℤ) ≤ 200 by decide, show (200 : ℤ) < 300 by decide⟩

theorem respond_responseHeaders (headers : List Header) (chunks : List Bytes) (last : Bytes) :
    (respond headers chunks last).responseHeaders = headers := rfl

/-- `GET` of the path, with the headers. -/
def getRequest (path : String) (headers : List Header) : Scope := ⟨"http", "GET", path, some headers⟩

/-- `GET` of the path, with the tag of an earlier response. -/
def conditionalGet (path etag : String) : Scope :=
  getRequest path [(encodeAscii "if-none-match", encodeAscii etag)]

/-- A 304 although the body is not the one that came with the presented tag: path and headers are the same,
and the client has the tag from the earlier response. -/
structure FalseNotModified (sha : Sha256) (earlier scope : Scope) (app₀ app : AppResponse) : Prop where
  successful : app.Successful
  path : earlier.path = scope.path
  headers : app₀.responseHeaders = app.responseHeaders
  presented : ∃ value, CarriesEtag (call sha [] earlier app₀.messages).sent value ∧
    scope.requestHeader (encodeAscii "if-none-match") = some value
  notModified : NotModified (call sha [] scope app.messages).sent
  not_framed : ¬ Framed (call sha [] scope app.messages).sent
  changed : completeBody app.messages ≠ completeBody app₀.messages

theorem decodeLatin1_ifNoneMatch (path etag : String) (h : etag.toList.all (·.toNat < 128)) :
    (conditionalGet path etag).ifNoneMatch = some etag := by
  have hheader : (conditionalGet path etag).requestHeader (encodeAscii "if-none-match") =
      some (encodeAscii etag) := by
    simp [conditionalGet, getRequest, Scope.requestHeader]
  rw [Scope.ifNoneMatch, hheader, Option.map_some, decodeLatin1_encodeAscii h]

/-- Bodies that agree on their hashed part are told apart by no tag. -/
theorem falseNotModified_of_hashedPrefix_eq {length : Option String} {path : String}
    {app₀ : AppResponse} (hsuccess₀ : app₀.Successful) (hsuccess : app.Successful)
    (hetag : hasEtag app.responseHeaders = false)
    (hlength : contentLength app.responseHeaders = .ok length)
    (hheaders : app₀.responseHeaders = app.responseHeaders)
    (hhashed : app.hashedPrefix = app₀.hashedPrefix)
    (hchanged : completeBody app.messages ≠ completeBody app₀.messages) :
    FalseNotModified sha (getRequest path []) (conditionalGet path (app₀.tag sha length)) app₀ app := by
  have htag : app.tag sha length = app₀.tag sha length := by
    rw [AppResponse.tag, hhashed, AppResponse.tag]
  have hhandled : ∀ headers, Handled [] (getRequest path headers) := fun _ =>
    ⟨rfl, List.mem_cons_self, by simp [isExcluded]⟩
  have hmatch : (conditionalGet path (app₀.tag sha length)).ifNoneMatch = some (app.tag sha length) := by
    rw [htag]
    exact decodeLatin1_ifNoneMatch path _ (computeEtag_ascii sha _ _)
  have htagged : Tagged [] (conditionalGet path (app₀.tag sha length)) app :=
    ⟨hhandled _, hsuccess, hetag⟩
  have hsecond := call_of_tagged sha htagged hlength
  rw [if_pos hmatch] at hsecond
  have htagged₀ : Tagged [] (getRequest path []) app₀ := ⟨hhandled [], hsuccess₀, hheaders ▸ hetag⟩
  have hfirst := call_of_tagged sha htagged₀ (hheaders ▸ hlength)
  rw [if_neg (by simp [Scope.ifNoneMatch, Scope.requestHeader, getRequest])] at hfirst
  exact {
    successful := hsuccess
    path := rfl
    headers := hheaders
    presented := by
      refine ⟨encodeAscii (app₀.tag sha length), ?_, ?_⟩
      · rw [hfirst]
        exact ⟨_, _, encodeAscii "etag", List.mem_cons_self,
          List.mem_append_right _ (List.mem_singleton_self _), by decide⟩
      · simp [conditionalGet, getRequest, Scope.requestHeader]
    notModified := by
      rw [hsecond]
      exact ⟨_, List.mem_singleton_self _⟩
    not_framed := by
      rw [hsecond]
      exact not_framed_start _ _
    changed := hchanged }

/-- The digest of the first mebibyte of `x`s, with the length of one byte more. -/
def longSha : Sha256 :=
  pinnedSha (etagInput (List.replicate maxEtagBodyBytes 120) (some "1048577"))
    "e23e946e46e6084c45c6d5fc05b31254a1a90d32f5597e8e2c612ba442a725ac" (by decide)

/-- A body of one byte more than the digest covers, in one message. -/
def longResponse (lastByte : UInt8) : AppResponse :=
  respond [(encodeAscii "content-length", encodeAscii "1048577")] []
    (List.replicate maxEtagBodyBytes 120 ++ [lastByte])

/-- The digest of an opening bracket. -/
def bracketSha : Sha256 :=
  pinnedSha (encodeAscii "[") "245843abef9e72e7efac30138a994bf6301e7e1d7d7042a33d42e863d2638811"
    (by decide)

/-- A streamed export of one row. -/
def exportResponse (row : String) : AppResponse :=
  respond [] [encodeAscii "[", encodeAscii row] (encodeAscii "]")

theorem hashedPrefix_longResponse (lastByte : UInt8) :
    (longResponse lastByte).hashedPrefix = List.replicate maxEtagBodyBytes 120 :=
  List.take_left' List.length_replicate

/-- A changed last byte of a long body, and a changed row of a streamed export, are answered with a 304;
and no body message follows it. -/
theorem not_modified_although_changed :
    (Function.Injective longSha.hexdigest ∧
      FalseNotModified longSha (getRequest "/large" [])
        (conditionalGet "/large" ((longResponse 121).tag longSha (some "1048577")))
        (longResponse 121) (longResponse 122)) ∧
    (Function.Injective bracketSha.hexdigest ∧
      FalseNotModified bracketSha (getRequest "/export" [])
        (conditionalGet "/export" ((exportResponse "1").tag bracketSha none))
        (exportResponse "1") (exportResponse "2")) := by
  refine ⟨⟨pinnedSha_injective _ (by decide), ?_⟩, pinnedSha_injective _ (by decide), ?_⟩
  · have hetag : hasEtag [(encodeAscii "content-length", encodeAscii "1048577")] = false := by decide
    have hlength : contentLength [(encodeAscii "content-length", encodeAscii "1048577")] =
        .ok (some "1048577") := by decide
    have hheaders : ∀ b, (longResponse b).responseHeaders =
        [(encodeAscii "content-length", encodeAscii "1048577")] := fun b =>
      respond_responseHeaders _ _ _
    refine falseNotModified_of_hashedPrefix_eq (respond_successful _ _ _) (respond_successful _ _ _)
      (hheaders 122 ▸ hetag) (hheaders 122 ▸ hlength) ((hheaders 121).trans (hheaders 122).symm) ?_ ?_
    · rw [hashedPrefix_longResponse, hashedPrefix_longResponse]
    · intro heq
      simp [completeBody, AppResponse.messages, longResponse, respond, Message.content] at heq
  · exact falseNotModified_of_hashedPrefix_eq (respond_successful _ _ _) (respond_successful _ _ _)
      (by decide) (by decide) rfl rfl (by decide)

/-- The digest of the text `small body` with its length. -/
def smallSha : Sha256 :=
  pinnedSha (encodeAscii "small body|10")
    "c74296e00912d6eb5cdb26e77119c3df707a306a9a3f241775b38a81ce91f90b" (by decide)

/-- The response to `/small`. -/
def smallResponse : AppResponse :=
  respond [(encodeAscii "content-length", encodeAscii "10")] [] (encodeAscii "small body")

theorem smallSha_injective : Function.Injective smallSha.hexdigest :=
  pinnedSha_injective _ (by decide)

theorem smallResponse_ascii : smallResponse.ContentLengthAscii := by
  have hlength : contentLength smallResponse.responseHeaders = .ok (some "10") := by
    rw [smallResponse, respond_responseHeaders]
    decide
  exact ascii_of_contentLength hlength

theorem conditional_request_small :
    AnsweredInFull smallSha [] (getRequest "/small" []) smallResponse ∧
      ¬ AnsweredInFull smallSha [] (conditionalGet "/small" (smallResponse.tag smallSha (some "10")))
        smallResponse := by
  have hsuccess := respond_successful [(encodeAscii "content-length", encodeAscii "10")] [] (encodeAscii "small body")
  constructor
  · refine (conditional_request_iff smallSha smallSha_injective [] _ smallResponse hsuccess).1.mpr fun _ =>
      ⟨smallResponse_ascii, ?_⟩
    -- a request without a tag matches none
    rintro ⟨length, -, hmatch⟩
    simp [Scope.ifNoneMatch, Scope.requestHeader, getRequest] at hmatch
  · intro h
    have hforwarded := (conditional_request_iff smallSha smallSha_injective [] _ smallResponse hsuccess).1.mp h
    have htagged : Tagged [] (conditionalGet "/small" (smallResponse.tag smallSha (some "10"))) smallResponse :=
      ⟨⟨rfl, List.mem_cons_self, by simp [isExcluded]⟩, hsuccess, by decide⟩
    refine (hforwarded htagged).2 ⟨some "10", by decide, ?_⟩
    exact decodeLatin1_ifNoneMatch "/small" _ (computeEtag_ascii smallSha _ _)

end ApexChainx.Middleware
