import ApexChainx.Lib.Url

/-!
# Validation of webhook URLs

`app/utils/network_validation.py`. The URL is split by `Lib.Url`; what the resolver answers for a hostname is
a parameter.

The allowlist is a list of prefixes of the URL as text. A prefix that ends in the authority says neither
where the host ends nor whether it is a host at all and not the user before an `@` (`hostsAllowed_iff`).
-/

namespace ApexChainx.Webhooks.NetworkValidation

open ApexChainx.Lib

/-- What the settings say on webhook URLs. -/
structure NetworkSettings where
  environment : String
  /-- `WEBHOOK_URL_ALLOWLIST`. -/
  urlAllowlist : List String
  /-- `WEBHOOK_URL_VALIDATOR_BYPASS`. -/
  validatorBypass : Bool
  /-- `WEBHOOK_ALLOW_PRIVATE_NETWORKS`. -/
  allowPrivateNetworks : Bool
deriving DecidableEq, Repr

/-- What `socket.getaddrinfo` does: the addresses of its entries, or an exception; the second for a
name that cannot be encoded. -/
inductive Lookup
  | addresses (ips : List String)
  | gaierror
  | valueError
deriving DecidableEq, Repr

/-- `NetworkValidationError` with its text, or another `ValueError`. -/
inductive ValidationError
  | network (message : String)
  | valueError
deriving DecidableEq, Repr

/-- A check that raises `NetworkValidationError`. -/
def refuse (bad : Prop) [Decidable bad] (message : String) : Except ValidationError Unit :=
  if bad then .error (.network message) else .ok ()

@[simp] theorem refuse_bind_eq_ok {α : Type} {bad : Prop} [Decidable bad] {message : String}
    {f : Unit → Except ValidationError α} {a : α} :
    (refuse bad message >>= f) = .ok a ↔ ¬ bad ∧ f () = .ok a := by
  unfold refuse
  by_cases h : bad
  · simp [h, bind, Except.bind]
  · simp [h, bind, Except.bind]

/-- The loop of `_resolve_host`: distinct addresses, until there are `maxResults`. -/
def collect (maxResults : ℕ) : List String → List String → List String
  | ips, [] => ips
  | ips, ip :: rest =>
      let ips := if ip ∈ ips then ips else ips ++ [ip]
      if maxResults ≤ ips.length then ips else collect maxResults ips rest

/-- `_resolve_host`. -/
def resolveHost (lookup : List Char → Lookup) (hostname : List Char) (maxResults : ℕ) :
    Except ValidationError (List String) := do
  refuse (hostname = []) "Webhook URL must include a hostname."
  match lookup hostname with
  | .gaierror => .error (.network ("Could not resolve hostname: " ++ String.ofList hostname))
  | .valueError => .error .valueError
  | .addresses addrInfo =>
      let ips := collect maxResults [] addrInfo
      refuse (ips = []) ("Could not resolve hostname: " ++ String.ofList hostname)
      .ok ips

/-- `CLOUD_METADATA_ADDRESSES`. -/
def cloudMetadataAddresses : List IpAddress := [.v4 0xa9fea9fe]

/-- `_validate_ip_address`. -/
def validateIpAddress (cfg : NetworkSettings) (ipStr : String) : Except ValidationError Unit :=
  match ipAddress ipStr.toList with
  | none => .error (.network ("Invalid IP address: " ++ ipStr))
  | some ip => do
      refuse ip.isLoopback "Loopback addresses are not allowed."
      refuse ip.isLinkLocal "Link-local addresses are not allowed."
      refuse ip.isMulticast "Multicast addresses are not allowed."
      refuse (ip ∈ cloudMetadataAddresses) "Cloud metadata service addresses are not allowed."
      refuse ip.isReserved "Reserved IP addresses are not allowed."
      refuse (ip.isPrivate ∧ ¬ cfg.allowPrivateNetworks) "Private network addresses are not allowed."
      .ok ()

/-- `validate_webhook_url`. -/
def validateWebhookUrl (cfg : NetworkSettings) (u : Unicode) (lookup : List Char → Lookup) (url : String) :
    Except ValidationError (List String) :=
  match Url.urlsplit u url.toList with
  | none => .error .valueError
  | some parsed =>
      match parsed.port with
      | .error _ => .error (.network "Webhook URL contains an invalid port.")
      | .ok port => do
          refuse (∃ p ∈ port, p ≠ 80 ∧ p ≠ 443) "Webhook URL must use port 80 or 443."
          refuse (parsed.fragment ≠ []) "Webhook URL must not contain a fragment."
          refuse (parsed.scheme ≠ "http".toList ∧ parsed.scheme ≠ "https".toList)
            "Webhook URL must use http or https."
          refuse (cfg.environment ≠ "local" ∧ parsed.scheme ≠ "https".toList)
            "In non-local environments, webhook URLs must use https."
          refuse (cfg.urlAllowlist ≠ [] ∧
              ¬ ∃ allowed ∈ cfg.urlAllowlist, allowed.toList <+: url.toList)
            "Webhook URL is not in the configured allowlist."
          if cfg.validatorBypass ∧ cfg.environment = "local" then
            resolveHost lookup ((parsed.hostname u).getD []) 5
          else
            let hostname := (parsed.hostname u).getD []
            refuse (u.lower hostname = "localhost".toList) "Localhost is not allowed for webhook URLs."
            let resolvedIps ← resolveHost lookup hostname 5
            resolvedIps.forM (validateIpAddress cfg)
            .ok resolvedIps

/-! ## The allowlist -/

/-- The host and the scheme of two URLs are the same. -/
def SameHost (u : Unicode) (a b : String) : Prop :=
  ∃ p q, Url.urlsplit u a.toList = some p ∧ Url.urlsplit u b.toList = some q ∧
    p.hostname u = q.hostname u ∧ p.scheme = q.scheme

/-- Every URL that is accepted, whatever the resolver answers, has the host and the scheme of an entry. -/
def HostsAllowed (cfg : NetworkSettings) (u : Unicode) : Prop :=
  ∀ lookup url ips, validateWebhookUrl cfg u lookup url = .ok ips →
    ∃ e ∈ cfg.urlAllowlist, SameHost u e url

/-- An absolute URL for HTTP. -/
def AbsoluteHttp (u : Unicode) (e : String) : Prop :=
  ∃ p, Url.urlsplit u e.toList = some p ∧ (p.scheme = "http".toList ∨ p.scheme = "https".toList) ∧
    p.hostname u ≠ none

/-- URLs with the scheme of the entry are accepted here. -/
def Usable (cfg : NetworkSettings) (e : String) : Prop :=
  cfg.environment = "local" ∨ Url.scheme e.toList = "https".toList

/-- The entry goes on after its authority, with a `/`, a `?` or a `#`. -/
def ClosedAuthority (e : String) : Prop :=
  (Url.authority e.toList).2 ≠ []

section Accepted

variable {cfg : NetworkSettings} {u : Unicode} {lookup : List Char → Lookup} {url : String}
  {ips : List String}

/-- What holds of every URL that is accepted. -/
theorem accepted (h : validateWebhookUrl cfg u lookup url = .ok ips) :
    ∃ parsed, Url.urlsplit u url.toList = some parsed ∧
      (cfg.environment = "local" ∨ parsed.scheme = "https".toList) ∧
      (cfg.urlAllowlist ≠ [] → ∃ allowed ∈ cfg.urlAllowlist, allowed.toList <+: url.toList) := by
  unfold validateWebhookUrl at h
  cases hsplit : Url.urlsplit u url.toList with
  | none =>
      rw [hsplit] at h
      cases h
  | some parsed =>
      simp only [hsplit] at h
      split at h
      · cases h
      · simp only [refuse_bind_eq_ok] at h
        obtain ⟨-, -, -, hscheme, hallowed, -⟩ := h
        refine ⟨parsed, rfl, ?_, ?_⟩
        · by_contra hneither
          exact hscheme (not_or.mp hneither)
        · intro hlist
          by_contra hnone
          exact hallowed ⟨hlist, hnone⟩

end Accepted

section Entries

variable {cfg : NetworkSettings} {u : Unicode} {e url : String}

theorem AbsoluteHttp.scheme_ne (h : AbsoluteHttp u e) : Url.scheme e.toList ≠ [] := by
  obtain ⟨p, hsplit, hscheme, -⟩ := h
  obtain ⟨-, -, -, rfl⟩ := Url.urlsplit_eq_some.mp hsplit
  intro hnil
  simp [hnil] at hscheme

theorem AbsoluteHttp.netloc_ne (h : AbsoluteHttp u e) : (Url.authority e.toList).1 ≠ [] := by
  obtain ⟨p, hsplit, -, hhost⟩ := h
  obtain ⟨-, -, -, rfl⟩ := Url.urlsplit_eq_some.mp hsplit
  intro hnil
  apply hhost
  simp [SplitUrl.hostname, hnil, Url.hostInfo, Url.afterLast, Url.partition]

/-- An accepted URL has the host of an entry it begins with, if the entry has come to the end of its
authority. -/
theorem sameHost_of_closed (he : AbsoluteHttp u e) (hclosed : ClosedAuthority e)
    (hbegins : e.toList <+: url.toList) {parsed : SplitUrl}
    (hsplit : Url.urlsplit u url.toList = some parsed) : SameHost u e url := by
  have hscheme := he.scheme_ne
  have hnetloc := he.netloc_ne
  obtain ⟨p, hp, -, -⟩ := he
  refine ⟨p, parsed, hp, hsplit, ?_⟩
  obtain ⟨-, -, -, rfl⟩ := Url.urlsplit_eq_some.mp hp
  obtain ⟨-, -, -, rfl⟩ := Url.urlsplit_eq_some.mp hsplit
  obtain ⟨t, ht⟩ := hbegins
  have hsame : Url.scheme url.toList = Url.scheme e.toList := by
    rw [← ht]
    exact Url.scheme_append hscheme t
  have hsame' : (Url.authority url.toList).1 = (Url.authority e.toList).1 := by
    rw [← ht]
    exact Url.authority_append_of_closed hscheme hnetloc hclosed t
  simp only [SplitUrl.hostname, hsame, hsame', and_self]

/-- An entry that an accepted URL begins with is usable. -/
theorem usable_of_accepted (he : AbsoluteHttp u e) (hbegins : e.toList <+: url.toList) {parsed : SplitUrl}
    (hsplit : Url.urlsplit u url.toList = some parsed)
    (hscheme : cfg.environment = "local" ∨ parsed.scheme = "https".toList) : Usable cfg e := by
  obtain ⟨-, -, -, rfl⟩ := Url.urlsplit_eq_some.mp hsplit
  obtain ⟨t, ht⟩ := hbegins
  refine hscheme.imp_right fun hhttps => ?_
  rw [← hhttps, ← ht]
  exact (Url.scheme_append he.scheme_ne t).symm

end Entries

/-! ### An entry that ends in its authority -/

/-- A host of a future version of IP, of any length. -/
def futureHost (k : ℕ) : List Char := 'v' :: '1' :: '.' :: List.replicate (k + 1) 'a'

/-- The entry as the user before another host. -/
def behindAt (k : ℕ) : List Char := '@' :: '[' :: (futureHost k ++ [']'])

theorem checkBracketedHost_futureHost (k : ℕ) : Url.checkBracketedHost (futureHost k) = true := by
  have hnewline : '\n' ∉ List.replicate (k + 1) 'a' := by
    intro hmem
    exact absurd (List.eq_of_mem_replicate hmem) (by decide)
  have hversion : ('1' :: '.' :: List.replicate (k + 1) 'a').takeWhile IpAddress.isHexDigit = ['1'] ∧
      ('1' :: '.' :: List.replicate (k + 1) 'a').dropWhile IpAddress.isHexDigit
        = '.' :: List.replicate (k + 1) 'a' := by
    rw [List.takeWhile_cons_of_pos (by decide), List.takeWhile_cons_of_neg (by decide),
      List.dropWhile_cons_of_pos (by decide), List.dropWhile_cons_of_neg (by decide)]
    exact ⟨rfl, rfl⟩
  simp only [futureHost, Url.checkBracketedHost, hversion, hnewline]
  rfl

theorem afterLast_behindAt (netloc : List Char) (k : ℕ) :
    Url.afterLast '@' (netloc ++ behindAt k) = '[' :: (futureHost k ++ [']']) := by
  apply Url.afterLast_append
  simp [futureHost]

theorem partition_futureHost (k : ℕ) : Url.partition ']' (futureHost k ++ [']']) = (futureHost k, []) := by
  apply Url.partition_append
  simp [futureHost]

theorem hostInfo_behindAt (netloc : List Char) (k : ℕ) :
    Url.hostInfo (netloc ++ behindAt k) = (futureHost k, none) := by
  have hbracket : Url.partition '[' ('[' :: (futureHost k ++ [']'])) = ([], futureHost k ++ [']']) :=
    Url.partition_append (s := []) (by simp) _
  simp only [Url.hostInfo, afterLast_behindAt, List.mem_cons, true_or, if_true, hbracket,
    partition_futureHost]
  rfl

theorem checkBracketedNetloc_behindAt (netloc : List Char) (k : ℕ) :
    Url.checkBracketedNetloc (netloc ++ behindAt k) = true := by
  have hbracket : Url.partition '[' ('[' :: (futureHost k ++ [']'])) = ([], futureHost k ++ [']']) :=
    Url.partition_append (s := []) (by simp) _
  simp only [Url.checkBracketedNetloc, afterLast_behindAt, List.mem_cons, true_or, if_true, hbracket,
    partition_futureHost, checkBracketedHost_futureHost]
  rfl

section Behind

variable {cfg : NetworkSettings} {u : Unicode} {e : String}

/-- The URL is split into the scheme of the entry and an authority with another host. -/
theorem urlsplit_behindAt (he : AbsoluteHttp u e) (hopen : ¬ ClosedAuthority e) (k : ℕ) :
    Url.urlsplit u (e.toList ++ behindAt k)
      = some ⟨Url.scheme e.toList, (Url.authority e.toList).1 ++ behindAt k, []⟩ := by
  have hscheme := he.scheme_ne
  have hnetloc := he.netloc_ne
  obtain ⟨p, hp, -, -⟩ := he
  obtain ⟨-, -, hcheck, -⟩ := Url.urlsplit_eq_some.mp hp
  have hchars : ∀ c ∈ behindAt k, c.toNat < 128 ∧ c ∉ ['/', '?', '#'] ∧ c ∉ ['\t', '\r', '\n'] := by
    intro c hc
    simp only [behindAt, futureHost, List.cons_append, List.mem_cons, List.mem_append,
      List.mem_replicate, List.not_mem_nil, or_false] at hc
    rcases hc with rfl | rfl | rfl | rfl | rfl | ⟨-, rfl⟩ | rfl <;> decide
  have hauthority := Url.authority_append_of_open hscheme hnetloc (not_not.mp hopen)
    fun c hc => (hchars c hc).2
  apply Url.urlsplit_eq_some.mpr
  rw [hauthority, Url.scheme_append hscheme]
  refine ⟨?_, fun _ => checkBracketedNetloc_behindAt _ k, ?_, rfl⟩
  · simp [behindAt]
  · apply Url.checkNetloc_append hcheck
    · intro c hc
      exact (hchars c hc).1
    · intro hslash
      exact absurd (hchars '/' hslash).2.1 (by decide)

theorem lower_futureHost (u : Unicode) (k : ℕ) : u.lower (futureHost k) = futureHost k := by
  rw [u.lower_ascii]
  · simp only [futureHost, List.map_cons, List.map_replicate]
    rfl
  · intro c hc
    simp only [futureHost, List.mem_cons, List.mem_replicate] at hc
    rcases hc with rfl | rfl | rfl | ⟨-, rfl⟩ <;> decide

theorem hostname_behindAt (u : Unicode) (scheme netloc fragment : List Char) (k : ℕ) :
    SplitUrl.hostname u ⟨scheme, netloc ++ behindAt k, fragment⟩ = some (futureHost k) := by
  have hnozone : ∀ c ∈ futureHost k, decide (c ≠ '%') = true := by
    intro c hc
    simp only [futureHost, List.mem_cons, List.mem_replicate] at hc
    rcases hc with rfl | rfl | rfl | ⟨-, rfl⟩ <;> decide
  have hne : futureHost k ≠ [] := List.cons_ne_nil _ _
  simp only [SplitUrl.hostname, hostInfo_behindAt, if_neg hne, List.takeWhile_eq_self_iff.mpr hnozone,
    List.dropWhile_eq_nil_iff.mpr hnozone, lower_futureHost, List.append_nil]

theorem resolveHost_of_addresses {hostname : List Char} (h : hostname ≠ []) (ip : String) :
    resolveHost (fun _ => .addresses [ip]) hostname 5 = .ok [ip] :=
  refuse_bind_eq_ok.mpr ⟨h, rfl⟩

/-- An address outside all special-purpose networks. -/
theorem validateIpAddress_public (cfg : NetworkSettings) :
    validateIpAddress cfg "93.184.216.34" = .ok () := by
  have hparse : ipAddress "93.184.216.34".toList = some (.v4 0x5db8d822) := by decide
  have hprivate : IpAddress.isPrivate (.v4 0x5db8d822) = false := by decide
  simp only [validateIpAddress, hparse, refuse_bind_eq_ok, hprivate]
  refine ⟨by decide, by decide, by decide, by decide, by decide, by simp, trivial⟩

/-- The URL is accepted, since its host has an address. -/
theorem accepted_behindAt (hmem : e ∈ cfg.urlAllowlist) (he : AbsoluteHttp u e) (husable : Usable cfg e)
    (hopen : ¬ ClosedAuthority e) (k : ℕ) :
    validateWebhookUrl cfg u (fun _ => .addresses ["93.184.216.34"])
      (String.ofList (e.toList ++ behindAt k)) = .ok ["93.184.216.34"] := by
  have hport : SplitUrl.port ⟨Url.scheme e.toList, (Url.authority e.toList).1 ++ behindAt k, []⟩
      = .ok none := by
    rw [SplitUrl.port, hostInfo_behindAt]
  have hscheme : Url.scheme e.toList = "http".toList ∨ Url.scheme e.toList = "https".toList := by
    obtain ⟨p, hp, hhttp, -⟩ := he
    obtain ⟨-, -, -, rfl⟩ := Url.urlsplit_eq_some.mp hp
    exact hhttp
  have hne : futureHost k ≠ [] := List.cons_ne_nil _ _
  have hlocalhost : futureHost k ≠ "localhost".toList := by
    intro heq
    have hfirst : 'v' = 'l' := (List.cons.inj heq).1
    exact absurd hfirst (by decide)
  have hallowed : ∃ allowed ∈ cfg.urlAllowlist, allowed.toList <+: e.toList ++ behindAt k :=
    ⟨e, hmem, List.prefix_append _ _⟩
  simp only [validateWebhookUrl, String.toList_ofList, urlsplit_behindAt he hopen, hport,
    refuse_bind_eq_ok, hostname_behindAt, Option.getD_some, lower_futureHost]
  refine ⟨by simp, by simp, ?_, ?_, fun h => h.2 hallowed, ?_⟩
  · rintro ⟨hhttp, hhttps⟩
    exact hscheme.elim hhttp hhttps
  · rintro ⟨hlocal, hhttps⟩
    exact husable.elim hlocal hhttps
  · split
    · exact resolveHost_of_addresses hne _
    · rw [refuse_bind_eq_ok, resolveHost_of_addresses hne]
      refine ⟨hlocalhost, ?_⟩
      have hvalid : ["93.184.216.34"].forM (validateIpAddress cfg) = .ok () := by
        rw [List.forM_eq_forM, List.forM_cons, validateIpAddress_public]
        rfl
      show ((["93.184.216.34"].forM (validateIpAddress cfg)) >>= fun _ => .ok ["93.184.216.34"]) = _
      rw [hvalid]
      rfl

end Behind

theorem exists_forall_lt (ns : List ℕ) : ∃ k, ∀ n ∈ ns, n < k := by
  induction ns with
  | nil => exact ⟨0, by simp⟩
  | cons n ns ih =>
      obtain ⟨k, hk⟩ := ih
      refine ⟨max k (n + 1), ?_⟩
      intro m hm
      rcases List.mem_cons.mp hm with rfl | hrest
      · omega
      · have := hk m hrest
        omega

/-- Some future host is longer than the hosts of all entries. -/
theorem exists_fresh_host (u : Unicode) (entries : List String) : ∃ k, ∀ e ∈ entries, ∀ p,
    Url.urlsplit u e.toList = some p → p.hostname u ≠ some (futureHost k) := by
  obtain ⟨k, hk⟩ := exists_forall_lt (entries.map fun e =>
    ((Url.urlsplit u e.toList).bind fun p => p.hostname u).elim 0 List.length)
  refine ⟨k, ?_⟩
  intro e he p hp hhost
  have hlt := hk _ (List.mem_map_of_mem he)
  rw [hp, Option.bind_some, hhost] at hlt
  simp only [Option.elim_some, futureHost, List.length_cons, List.length_replicate] at hlt
  omega

/-- Every accepted URL has the host and the scheme of an entry exactly if every entry whose scheme is
accepted goes on after its authority. -/
theorem hostsAllowed_iff {cfg : NetworkSettings} {u : Unicode} (hlist : cfg.urlAllowlist ≠ [])
    (habsolute : ∀ e ∈ cfg.urlAllowlist, AbsoluteHttp u e) :
    HostsAllowed cfg u ↔ ∀ e ∈ cfg.urlAllowlist, Usable cfg e → ClosedAuthority e := by
  constructor
  · intro hallowed e he husable
    by_contra hopen
    obtain ⟨k, hfresh⟩ := exists_fresh_host u cfg.urlAllowlist
    obtain ⟨e', he', p, q, hp, hq, hhost, -⟩ :=
      hallowed _ _ _ (accepted_behindAt he (habsolute e he) husable hopen k)
    rw [String.toList_ofList, urlsplit_behindAt (habsolute e he) hopen, Option.some.injEq] at hq
    rw [← hq, hostname_behindAt] at hhost
    exact hfresh e' he' p hp hhost
  · intro hclosed lookup url ips h
    obtain ⟨parsed, hsplit, hscheme, hallowed⟩ := accepted h
    obtain ⟨e, he, hbegins⟩ := hallowed hlist
    have husable := usable_of_accepted (habsolute e he) hbegins hsplit hscheme
    exact ⟨e, he, sameHost_of_closed (habsolute e he) (hclosed e he husable) hbegins hsplit⟩

/-- Unicode on texts of ASCII. -/
def asciiOnly : Unicode := ⟨id, List.map Char.toLower, fun _ _ _ => rfl, fun _ _ => rfl⟩

/-- Settings in production with one entry. -/
def oneEntry (entry : String) : NetworkSettings := ⟨"production", [entry], false, false⟩

theorem absoluteHttp_hooks (entry : String) (netloc : List Char)
    (h : Url.urlsplit asciiOnly entry.toList = some ⟨"https".toList, netloc, []⟩)
    (hhost : (Url.hostInfo netloc).1 ≠ []) : ∀ e ∈ (oneEntry entry).urlAllowlist, AbsoluteHttp asciiOnly e := by
  intro e he
  rw [List.mem_singleton.mp he]
  refine ⟨_, h, .inr rfl, ?_⟩
  simp [SplitUrl.hostname, hhost]

/-- An entry with a path of `/`. -/
theorem hostsAllowed_of_slash : HostsAllowed (oneEntry "https://hooks.example.com/") asciiOnly := by
  refine (hostsAllowed_iff (List.cons_ne_nil _ _)
    (absoluteHttp_hooks _ "hooks.example.com".toList (by decide) (by decide))).mpr ?_
  intro e he _
  rw [List.mem_singleton.mp he]
  exact (by decide : (Url.authority "https://hooks.example.com/".toList).2 ≠ [])

/-- Without it, the host of the entry may be the user before another host. -/
theorem other_host_accepted :
    validateWebhookUrl (oneEntry "https://hooks.example.com") asciiOnly
      (fun _ => .addresses ["93.184.216.34"]) "https://hooks.example.com@evil.example/hook"
        = .ok ["93.184.216.34"] ∧
    ¬ HostsAllowed (oneEntry "https://hooks.example.com") asciiOnly := by
  have haccepted : validateWebhookUrl (oneEntry "https://hooks.example.com") asciiOnly
      (fun _ => .addresses ["93.184.216.34"]) "https://hooks.example.com@evil.example/hook"
        = .ok ["93.184.216.34"] := by decide
  refine ⟨haccepted, fun hallowed => ?_⟩
  obtain ⟨e, he, p, q, hp, hq, hhost, -⟩ := hallowed _ _ _ haccepted
  rw [List.mem_singleton.mp he] at hp
  have hentry : (Url.urlsplit asciiOnly "https://hooks.example.com".toList).map (·.hostname asciiOnly)
      = some (some "hooks.example.com".toList) := by decide
  have hurl : (Url.urlsplit asciiOnly "https://hooks.example.com@evil.example/hook".toList).map
      (·.hostname asciiOnly) = some (some "evil.example".toList) := by decide
  rw [hp, Option.map_some, Option.some.injEq] at hentry
  rw [hq, Option.map_some, Option.some.injEq, ← hhost, hentry] at hurl
  exact absurd hurl (by decide)

end ApexChainx.Webhooks.NetworkValidation
