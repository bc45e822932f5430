import ApexChainx.Lib.Fallible
import ApexChainx.Webhooks.NetworkValidation
import ApexChainx.Webhooks.Recovery

/-!
# The addresses of a delivery attempt

What `_attempt_delivery` (`app/services/webhook_service.py`) does on the network. The URL is validated with
one lookup of its host, and handed as it is to the HTTP client, which looks the host up again and may
connect to any address of that answer. The resolver may answer every lookup differently.
-/

namespace ApexChainx.Webhooks

open ApexChainx.Lib NetworkValidation

variable {cfg : NetworkSettings} {u : Unicode} {url : String} {webhook : Webhook} {breakerAllows : Bool}

/-! ## What the validation has looked at -/

/-- Distinct addresses in the order of the answer, up to a number. -/
theorem collect_eq_take {maxResults : ℕ} {ips : List String} (h : ips.length < maxResults)
    (addrInfo : List String) : collect maxResults ips addrInfo
      = (ips ++ (addrInfo.filter (· ∉ ips)).eraseDups).take maxResults := by
  induction addrInfo generalizing ips with
  | nil => simp [collect, List.take_of_length_le (Nat.le_of_lt h)]
  | cons ip rest ih =>
      rw [collect]
      by_cases hmem : ip ∈ ips
      · simp only [if_pos hmem, if_neg (Nat.not_le.mpr h)]
        rw [ih h, List.filter_cons_of_neg (by simpa using hmem)]
      · have hfilter : (ip :: rest).filter (· ∉ ips) = ip :: rest.filter (· ∉ ips) :=
          List.filter_cons_of_pos (by simpa using hmem)
        have hrest : (rest.filter (· ∉ ips)).filter (fun b => !b == ip)
            = rest.filter (· ∉ ips ++ [ip]) := by
          rw [List.filter_filter]
          apply List.filter_congr
          intro b _
          by_cases hb : b = ip
          · simp [hb]
          · simp [hb]
        rw [hfilter, List.eraseDups_cons, hrest,
          List.append_cons ips ip (rest.filter (· ∉ ips ++ [ip])).eraseDups]
        simp only [if_neg hmem]
        split
        · rename_i hfull
          rw [List.take_append_of_le_length hfull, List.take_of_length_le]
          rw [List.length_append, List.length_singleton]
          omega
        · rename_i hmore
          exact ih (Nat.not_le.mp hmore)

/-- The addresses of an answer for the host of a URL. -/
def answered (u : Unicode) (lookup : List Char → Lookup) (url : String) : List String :=
  match Url.urlsplit u url.toList with
  | none => []
  | some parsed =>
      match lookup ((parsed.hostname u).getD []) with
      | .addresses ips => ips
      | .gaierror | .valueError => []

/-- The addresses that `_resolve_host` returns. -/
def firstFive (ips : List String) : List String := ips.eraseDups.take 5

theorem resolveHost_eq_ok {lookup : List Char → Lookup} {hostname : List Char} {ips : List String}
    (h : resolveHost lookup hostname 5 = .ok ips) :
    ∃ addrInfo, lookup hostname = .addresses addrInfo ∧ ips = firstFive addrInfo := by
  obtain ⟨-, h⟩ := refuse_bind_eq_ok.mp h
  cases hlookup : lookup hostname with
  | gaierror =>
      rw [hlookup] at h
      cases h
  | valueError =>
      rw [hlookup] at h
      cases h
  | addresses addrInfo =>
      rw [hlookup] at h
      obtain ⟨-, h⟩ := refuse_bind_eq_ok.mp h
      refine ⟨addrInfo, rfl, ?_⟩
      rw [← Except.ok.inj h, collect_eq_take (by simp)]
      simp [firstFive]

/-- The validation returns the first five addresses of its answer, and each has passed. -/
theorem validated (hbypass : ¬ (cfg.validatorBypass = true ∧ cfg.environment = "local"))
    {lookup : List Char → Lookup} {ips : List String}
    (h : validateWebhookUrl cfg u lookup url = .ok ips) :
    ips = firstFive (answered u lookup url) ∧ ∀ ip ∈ ips, validateIpAddress cfg ip = .ok () := by
  unfold validateWebhookUrl at h
  unfold answered
  cases hsplit : Url.urlsplit u url.toList with
  | none =>
      rw [hsplit] at h
      cases h
  | some parsed =>
      simp only [hsplit] at h ⊢
      split at h
      · cases h
      · simp only [refuse_bind_eq_ok, if_neg hbypass] at h
        obtain ⟨-, -, -, -, -, -, h⟩ := h
        obtain ⟨resolvedIps, hresolve, h⟩ := bind_eq_ok.mp h
        obtain ⟨addrInfo, hlookup, hfirst⟩ := resolveHost_eq_ok hresolve
        obtain ⟨passed, hpassed, h⟩ := bind_eq_ok.mp h
        obtain rfl : resolvedIps = ips := Except.ok.inj h
        rw [hlookup]
        exact ⟨hfirst, forM_eq_ok hpassed⟩

/-! ## The attempt -/

/-- `_attempt_delivery` on the network: the addresses to which the client may open a connection, when the
`n`-th lookup is the one of the validation. -/
def connections (cfg : NetworkSettings) (u : Unicode) (url : String) (webhook : Webhook)
    (breakerAllows : Bool) (answers : ℕ → List Char → Lookup) (n : ℕ) : List String :=
  match validateWebhookUrl cfg u (answers n) url with
  | .error _ => []
  | .ok currentIps =>
      if webhook.resolvedIps ≠ [] ∧ ∀ ip ∈ webhook.resolvedIps, ip ∉ currentIps then []
      else if breakerAllows = false then []
      else answered u (answers (n + 1)) url

/-- Every address the client may connect to was in the answer to the validation, passed it, and is an
approved one if some are approved. -/
def AttemptPinned (cfg : NetworkSettings) (u : Unicode) (url : String) (webhook : Webhook)
    (breakerAllows : Bool) (answers : ℕ → List Char → Lookup) (n : ℕ) : Prop :=
  ∀ ip ∈ connections cfg u url webhook breakerAllows answers n,
    ip ∈ answered u (answers n) url ∧
      (∃ currentIps, validateWebhookUrl cfg u (answers n) url = .ok currentIps ∧ ip ∈ currentIps) ∧
      validateIpAddress cfg ip = .ok () ∧ (webhook.resolvedIps ≠ [] → ip ∈ webhook.resolvedIps)

/-- The attempt gets to the request: the URL is accepted, one of its addresses is an approved one if some are
approved, and the circuit breaker lets it through. -/
def RequestMade (cfg : NetworkSettings) (u : Unicode) (url : String) (webhook : Webhook)
    (breakerAllows : Bool) (lookup : List Char → Lookup) : Prop :=
  ∃ currentIps, validateWebhookUrl cfg u lookup url = .ok currentIps ∧
    (webhook.resolvedIps = [] ∨ ∃ ip ∈ webhook.resolvedIps, ip ∈ currentIps) ∧ breakerAllows = true

theorem connections_eq {answers : ℕ → List Char → Lookup} {n : ℕ}
    (h : RequestMade cfg u url webhook breakerAllows (answers n)) :
    connections cfg u url webhook breakerAllows answers n = answered u (answers (n + 1)) url := by
  obtain ⟨currentIps, hvalid, happroved, hbreaker⟩ := h
  have hoverlap : ¬ (webhook.resolvedIps ≠ [] ∧ ∀ ip ∈ webhook.resolvedIps, ip ∉ currentIps) := by
    rintro ⟨hne, hnone⟩
    rcases happroved with hempty | ⟨ip, hip, hmem⟩
    · exact hne hempty
    · exact hnone ip hip hmem
  simp [connections, hvalid, hoverlap, hbreaker]

theorem requestMade_of_connection {answers : ℕ → List Char → Lookup} {n : ℕ} {ip : String}
    (h : ip ∈ connections cfg u url webhook breakerAllows answers n) :
    RequestMade cfg u url webhook breakerAllows (answers n) := by
  unfold connections at h
  split at h
  · cases h
  · rename_i currentIps hvalid
    split at h
    · cases h
    · rename_i hoverlap
      split at h
      · cases h
      · rename_i hbreaker
        refine ⟨currentIps, hvalid, ?_, by simpa using hbreaker⟩
        by_contra hnone
        rw [not_or] at hnone
        refine hoverlap ⟨hnone.1, fun ip hip hmem => hnone.2 ⟨ip, hip, hmem⟩⟩

/-- What the client is answered is among the first five addresses of what the validation was answered, and
approved if some are. -/
def AnswersPinned (u : Unicode) (url : String) (webhook : Webhook) (answers : ℕ → List Char → Lookup)
    (n : ℕ) : Prop :=
  ∀ ip ∈ answered u (answers (n + 1)) url,
    ip ∈ firstFive (answered u (answers n) url) ∧ (webhook.resolvedIps = [] ∨ ip ∈ webhook.resolvedIps)

/-- An attempt connects to validated and approved addresses only, exactly if it makes no request or the
client's answer holds no other. -/
theorem attemptPinned_iff (hbypass : ¬ (cfg.validatorBypass = true ∧ cfg.environment = "local"))
    (answers : ℕ → List Char → Lookup) (n : ℕ) :
    AttemptPinned cfg u url webhook breakerAllows answers n ↔
      (RequestMade cfg u url webhook breakerAllows (answers n) → AnswersPinned u url webhook answers n) := by
  constructor
  · intro hpinned hmade ip hip
    rw [← connections_eq hmade] at hip
    obtain ⟨-, ⟨currentIps, hvalid, hmem⟩, -, happroved⟩ := hpinned ip hip
    refine ⟨(validated hbypass hvalid).1 ▸ hmem, ?_⟩
    by_cases hnone : webhook.resolvedIps = []
    · exact .inl hnone
    · exact .inr (happroved hnone)
  · intro hanswers ip hip
    have hmade := requestMade_of_connection hip
    rw [connections_eq hmade] at hip
    obtain ⟨hfirst, happroved⟩ := hanswers hmade ip hip
    obtain ⟨currentIps, hvalid, -⟩ := hmade
    obtain ⟨rfl, hpassed⟩ := validated hbypass hvalid
    refine ⟨?_, ⟨_, hvalid, hfirst⟩, hpassed ip hfirst, happroved.resolve_left⟩
    exact List.mem_eraseDups.mp (List.mem_of_mem_take hfirst)

/-- The same answer twice, of one approved address. -/
theorem attemptPinned_of_steady_answer :
    AttemptPinned (oneEntry "https://hooks.example.com/") asciiOnly "https://hooks.example.com/sla"
      ⟨["93.184.216.34"], 3⟩ true (fun _ _ => .addresses ["93.184.216.34"]) 0 := by
  refine (attemptPinned_iff (by decide) _ _).mpr fun _ => ?_
  intro ip hip
  have hanswer : answered asciiOnly (fun _ => .addresses ["93.184.216.34"]) "https://hooks.example.com/sla"
      = ["93.184.216.34"] := by decide
  rw [hanswer] at hip
  rw [hanswer, List.mem_singleton.mp hip]
  decide

/-- A name that points to the metadata service by the time of the client's lookup, and an answer with a
sixth address. -/
theorem connected_to_unvalidated :
    ¬ AttemptPinned (oneEntry "https://hooks.example.com/") asciiOnly "https://hooks.example.com/sla"
      ⟨["93.184.216.34"], 3⟩ true
      (fun n _ => .addresses [if n = 0 then "93.184.216.34" else "169.254.169.254"]) 0 ∧
    ¬ AttemptPinned (oneEntry "https://hooks.example.com/") asciiOnly "https://hooks.example.com/sla"
      ⟨[], 3⟩ true (fun _ _ => .addresses ["93.184.216.34", "93.184.216.35", "93.184.216.36",
        "93.184.216.37", "93.184.216.38", "127.0.0.1"]) 0 := by
  constructor
  · intro hpinned
    obtain ⟨hmem, -⟩ := hpinned "169.254.169.254" (by decide)
    exact absurd hmem (by decide)
  · intro hpinned
    obtain ⟨-, -, hpassed, -⟩ := hpinned "127.0.0.1" (by decide)
    exact absurd hpassed (by decide)

end ApexChainx.Webhooks
