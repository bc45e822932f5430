import ApexChainx.Auth.CredentialStuffing

/-!
# What the detector counts, and what the endpoint does about it

Each sorted set holds the hits of its key: the detector's counts are the distinct prefixes, and the
distinct pairs of address and prefix, of the window. The endpoint refuses a request on the first count. On
the second it writes to the audit log and goes on.
-/

namespace ApexChainx.Auth

open ApexChainx.Lib

/-! ## The property -/

/-- The clock never goes back from one request to the next. -/
def Nondecreasing (h : List LoginAttempt) : Prop := h.Pairwise fun a b => a.now 5 ≤ b.now 0

namespace Detector

variable (d : Detector)

/-- The attempt is on the account, up to letter case and surrounding blanks, and inside the window that
ends at `now`. -/
def recentOn (account : List Char) (now : ℤ) (a : LoginAttempt) : Bool :=
  d.normalizeAccount a.account = d.normalizeAccount account ∧ now - d.window < a.now 0

/-- The distinct prefixes tried from the address against the account. -/
def pairCount (h : List LoginAttempt) (ip account : List Char) (now : ℤ) : ℕ :=
  ((h.filter fun a => a.ip = ip && d.recentOn account now a).map (·.password.take 4)).dedup.length

/-- The distinct pairs of address and prefix tried against the account. -/
def accountCount (h : List LoginAttempt) (account : List Char) (now : ℤ) : ℕ :=
  ((h.filter (d.recentOn account now)).map fun a => (a.ip, a.password.take 4)).dedup.length

/-- After the requests of `h`, the request has tried too many prefixes from its address. -/
def PairSpray (h : List LoginAttempt) (q : LoginAttempt) : Prop :=
  d.entropyThreshold ≤ d.pairCount (h ++ [q]) q.ip q.account (q.now 1)

/-- After the requests of `h`, too many pairs of address and prefix have been tried on its account. -/
def AccountSpray (h : List LoginAttempt) (q : LoginAttempt) : Prop :=
  d.accountEntropyThreshold ≤ d.accountCount (h ++ [q]) q.account (q.now 2)

/-- The request is refused with 429 when either count has reached its threshold. -/
def Enforced (h : List LoginAttempt) (q : LoginAttempt) : Prop :=
  d.PairSpray h q ∨ d.AccountSpray h q →
    ∃ detail errorCode, (d.login q (d.serve h)).2 = .tooMany detail errorCode

/-- SHA-256 as the detector relies on it: 64 hex digits, and on the addresses and accounts of the requests
no two different ones go under one key. -/
structure Distinguishes (h : List LoginAttempt) : Prop where
  length : ∀ s, (d.sha256 s).length = 64
  ip : ∀ a ∈ h, ∀ b ∈ h, d.boundedIp a.ip = d.boundedIp b.ip → a.ip = b.ip
  account : ∀ a ∈ h, ∀ b ∈ h, d.accountHash a.account = d.accountHash b.account →
    d.normalizeAccount a.account = d.normalizeAccount b.account

/-! ## The hits of a key -/

/-- What the requests have recorded under the key. -/
def hits (key : List Char) (h : List LoginAttempt) : List (List Char × ℤ) :=
  h.flatMap fun a => ((d.entries a.ip a.password a.account).filter (·.1 = key)).map fun e => (e.2, a.now 0)

/-- The text between blanks. -/
def Padded (s account : List Char) : Prop :=
  ∃ l r : List Char, (∀ c ∈ l, isSpace c) ∧ (∀ c ∈ r, isSpace c) ∧ account = l ++ s ++ r

/-- A text that neither begins nor ends with a blank. -/
def Trimmed (s : List Char) : Prop := (∀ c ∈ s.head?, ¬isSpace c) ∧ ∀ c ∈ s.getLast?, ¬isSpace c

/-- The same request, but for the letter case of the account and the blanks around it. -/
structure Respelt (a b : LoginAttempt) : Prop where
  ip : b.ip = a.ip
  password : b.password = a.password
  now : b.now = a.now
  allowed : b.allowed = a.allowed
  allowedAgain : b.allowedAgain = a.allowedAgain
  account : ∃ s t, Trimmed s ∧ Trimmed t ∧ d.lower s = d.lower t ∧ Padded s a.account ∧ Padded t b.account

variable {d} {r : SetStore} {key : List Char} {now now' : ℤ} {H : List (List Char × ℤ)}

theorem tracks_entries (es : List (List Char × List Char)) (h : Tracks d.window H now (r key)) :
    Tracks d.window (H ++ (es.filter (·.1 = key)).map fun e => (e.2, now)) now
      (es.foldl (fun r entry => Function.update r entry.1 ((r entry.1).record d.window grace entry.2 now)) r
        key) := by
  induction es generalizing r H with
  | nil => simpa using h
  | cons entry es ih =>
      rw [List.foldl_cons]
      by_cases hkey : entry.1 = key
      · rw [List.filter_cons_of_pos (by simpa using hkey), List.map_cons, List.append_cons]
        refine ih ?_
        rw [← hkey, Function.update_self]
        exact (hkey ▸ h).record (by decide) entry.2
      · rw [List.filter_cons_of_neg (by simpa using hkey)]
        refine ih ?_
        rw [Function.update_of_ne (fun heq => hkey heq.symm)]
        exact h

theorem tracks_count (key' : List Char) (h : Tracks d.window H now (r key)) :
    Tracks d.window H now ((d.count key' now r).1 key) := by
  unfold count
  by_cases hkey : key' = key
  · subst hkey
    simp only [Function.update_self]
    exact h.slide
  · simp only [Function.update_of_ne (fun heq : key = key' => hkey heq.symm)]
    exact h

/-- The detector's count of a key is the number of distinct members recorded in the window. -/
theorem count_eq (h : Tracks d.window H now (r key)) :
    (d.count key now r).2 = (recentMembers d.window now H).dedup.length := h.card_members

theorem tracks_isAccountLocked (account : List Char) (h : Tracks d.window H now (r key)) :
    Tracks d.window H now ((d.isAccountLocked account now r).1 key) := by
  unfold isAccountLocked
  split
  · exact h
  · exact tracks_count _ h

theorem tracks_recordAttempt (q : LoginAttempt) (h : Tracks d.window H now (r key))
    (hle : now ≤ q.now 0) :
    Tracks d.window (H ++ d.hits key [q]) (q.now 0)
      (d.recordAttempt q.ip q.password q.account (q.now 0) r key) := by
  have hhits : d.hits key [q] = ((d.entries q.ip q.password q.account).filter (·.1 = key)).map
      fun e => (e.2, q.now 0) := List.append_nil _
  rw [hhits]
  exact tracks_entries _ (h.later hle)

theorem tracks_enforce (q : LoginAttempt) (h : Tracks d.window H now (r key)) (hle : now ≤ q.now 0) :
    Tracks d.window (H ++ d.hits key [q]) (q.now 3) ((d.enforceLoginRateLimits q r).1 key) := by
  have hrecorded := tracks_recordAttempt q h hle
  have h₁ : q.now 0 ≤ q.now 1 := q.now_mono (by decide)
  have h₂ : q.now 1 ≤ q.now 2 := q.now_mono (by decide)
  have h₃ : q.now 2 ≤ q.now 3 := q.now_mono (by decide)
  unfold enforceLoginRateLimits
  have hdetected : Tracks d.window (H ++ d.hits key [q]) (q.now 1)
      ((d.detectStuffing q.ip q.account (q.now 1)
        (d.recordAttempt q.ip q.password q.account (q.now 0) r)).1 key) :=
    tracks_count _ (hrecorded.later h₁)
  rcases hd : d.detectStuffing q.ip q.account (q.now 1)
      (d.recordAttempt q.ip q.password q.account (q.now 0) r) with ⟨r₁, detected⟩
  rw [hd] at hdetected
  simp only [hd]
  cases detected with
  | true => exact (tracks_count _ (hdetected.later h₂)).later h₃
  | false =>
      have hchecked : Tracks d.window (H ++ d.hits key [q]) (q.now 2)
          ((d.isAccountLocked q.account (q.now 2) r₁).1 key) :=
        tracks_isAccountLocked _ (hdetected.later h₂)
      rcases hl : d.isAccountLocked q.account (q.now 2) r₁ with ⟨r₂, locked⟩
      rw [hl] at hchecked
      simp only [hl]
      cases locked with
      | true => exact tracks_count _ (hchecked.later h₃)
      | false => exact hchecked.later h₃

theorem tracks_login (q : LoginAttempt) (h : Tracks d.window H now (r key)) (hle : now ≤ q.now 0) :
    Tracks d.window (H ++ d.hits key [q]) (q.now 5) ((d.login q r).1 key) := by
  have henforced := tracks_enforce q h hle
  have h₄ : q.now 3 ≤ q.now 4 := q.now_mono (by decide)
  have h₅ : q.now 4 ≤ q.now 5 := q.now_mono (by decide)
  unfold login
  rcases he : d.enforceLoginRateLimits q r with ⟨r₁, decision⟩
  rw [he] at henforced
  cases decision with
  | some decision => exact (henforced.later h₄).later h₅
  | none =>
      simp only
      split
      · have hflagged : Tracks d.window (H ++ d.hits key [q]) (q.now 4)
            ((d.isIpFlagged q.ip (q.now 4) r₁).1 key) := tracks_count _ (henforced.later h₄)
        rcases hf : d.isIpFlagged q.ip (q.now 4) r₁ with ⟨r₂, flagged⟩
        rw [hf] at hflagged
        have hcounted : Tracks d.window (H ++ d.hits key [q]) (q.now 5)
            ((if flagged = true then (d.count (d.ipKey q.ip) (q.now 5) r₂).1 else r₂) key) := by
          split
          · exact tracks_count _ (hflagged.later h₅)
          · exact hflagged.later h₅
        simp only
        split
        · exact hcounted
        · exact hcounted
      · exact (henforced.later h₄).later h₅

theorem hits_append (key : List Char) (h h' : List LoginAttempt) :
    d.hits key (h ++ h') = d.hits key h ++ d.hits key h' := List.flatMap_append

/-- Every sorted set holds the hits of its key. -/
theorem tracks_serve {h : List LoginAttempt} (hclock : Nondecreasing h) {c : ℤ}
    (hc : ∀ a ∈ h, a.now 5 ≤ c) (key : List Char) :
    Tracks d.window (d.hits key h) c (d.serve h key) := by
  induction h using List.reverseRecOn generalizing c with
  | nil => exact Tracks.empty d.window c
  | append_singleton h q ih =>
      obtain ⟨hbefore, -, hlast⟩ := List.pairwise_append.mp hclock
      have hserve : d.serve (h ++ [q]) = (d.login q (d.serve h)).1 := by
        unfold serve
        rw [List.foldl_append]
        rfl
      rw [hserve, hits_append]
      have hprevious : ∀ a ∈ h, a.now 5 ≤ q.now 0 := fun a ha => hlast a ha q List.mem_cons_self
      have hlogin := tracks_login q (ih hbefore hprevious) (Int.le_refl _)
      exact hlogin.later (hc q (List.mem_append_right _ List.mem_cons_self))

/-! ## The counts -/

theorem pairKey_inj {h : List LoginAttempt} (hd : d.Distinguishes h) {a b : LoginAttempt} (ha : a ∈ h)
    (hb : b ∈ h) (heq : d.pairKey a.ip a.account = d.pairKey b.ip b.account) :
    a.ip = b.ip ∧ d.normalizeAccount a.account = d.normalizeAccount b.account := by
  unfold pairKey at heq
  rw [List.append_assoc, List.append_assoc] at heq
  have hlength : (':' :: d.accountHash a.account).length = (':' :: d.accountHash b.account).length := by
    rw [List.length_cons, List.length_cons, accountHash, accountHash, hd.length, hd.length]
  obtain ⟨hip, haccount⟩ := List.append_inj' (List.append_cancel_left heq) hlength
  exact ⟨hd.ip a ha b hb hip, hd.account a ha b hb (List.cons.inj haccount).2⟩

/-- Keys with different beginnings differ. -/
theorem append_ne_append {p q : List Char} (n : ℕ) (hp : n ≤ p.length) (hq : n ≤ q.length)
    (hne : p.take n ≠ q.take n) (s t : List Char) : p ++ s ≠ q ++ t := by
  intro heq
  have htake := congrArg (List.take n) heq
  rw [List.take_append_of_le_length hp, List.take_append_of_le_length hq] at htake
  exact hne htake

theorem ipKey_ne_pairKey (ip ip' account : List Char) : d.ipKey ip ≠ d.pairKey ip' account := by
  unfold ipKey pairKey
  rw [List.append_assoc]
  exact append_ne_append 15 (by decide) (by decide) (by decide) _ _

theorem accountKey_ne_pairKey (account ip account' : List Char) :
    d.accountKey account ≠ d.pairKey ip account' := by
  unfold accountKey pairKey
  rw [List.append_assoc]
  exact append_ne_append 15 (by decide) (by decide) (by decide) _ _

/-- Where each request records at most one member under the key, these are the members of the window. -/
theorem recentMembers_hits (f : LoginAttempt → List Char) (p : LoginAttempt → Bool)
    {h : List LoginAttempt} (now : ℤ)
    (hentries : ∀ a ∈ h, (d.entries a.ip a.password a.account).filter (·.1 = key)
      = if p a then [(key, f a)] else []) :
    recentMembers d.window now (d.hits key h)
      = (h.filter fun a => p a && now - d.window < a.now 0).map f := by
  induction h with
  | nil => rfl
  | cons a h ih =>
      have htail := ih fun b hb => hentries b (List.mem_cons_of_mem _ hb)
      have hhits : d.hits key (a :: h) = d.hits key [a] ++ d.hits key h := hits_append key [a] h
      rw [hhits, recentMembers, List.filter_append, List.map_append]
      have hhead : d.hits key [a] = (if p a then [(key, f a)] else []).map fun e => (e.2, a.now 0) := by
        rw [← hentries a List.mem_cons_self]
        exact List.append_nil _
      rw [hhead]
      rw [recentMembers] at htail
      rw [htail, List.filter_cons]
      by_cases hp : p a = true
      · by_cases hnow : now - d.window < a.now 0
        · simp [hp, hnow]
        · simp [hp, hnow]
      · simp [hp]

theorem entries_eq (a : LoginAttempt) : d.entries a.ip a.password a.account =
    [(d.ipKey a.ip, d.accountHash a.account ++ ':' :: a.password.take 4),
      (d.pairKey a.ip a.account, a.password.take 4),
      (d.accountKey a.account, d.boundedIp a.ip ++ ':' :: a.password.take 4)] := by
  simp only [entries, if_neg a.account_ne]

theorem entries_pairKey {h : List LoginAttempt} (hd : d.Distinguishes h) {a q : LoginAttempt} (ha : a ∈ h)
    (hq : q ∈ h) :
    (d.entries a.ip a.password a.account).filter (·.1 = d.pairKey q.ip q.account)
      = if a.ip = q.ip ∧ d.normalizeAccount a.account = d.normalizeAccount q.account
        then [(d.pairKey q.ip q.account, a.password.take 4)] else [] := by
  have hip := ipKey_ne_pairKey (d := d) a.ip q.ip q.account
  have haccount := accountKey_ne_pairKey (d := d) a.account q.ip q.account
  rw [entries_eq, List.filter_cons_of_neg (by simpa using hip)]
  by_cases hsame : a.ip = q.ip ∧ d.normalizeAccount a.account = d.normalizeAccount q.account
  · have hkey : d.pairKey a.ip a.account = d.pairKey q.ip q.account := by
      unfold pairKey accountHash
      rw [hsame.1, hsame.2]
    rw [if_pos hsame, List.filter_cons_of_pos (by simpa using hkey),
      List.filter_cons_of_neg (by simpa using haccount), hkey]
    rfl
  · have hkey : d.pairKey a.ip a.account ≠ d.pairKey q.ip q.account :=
      fun heq => hsame (pairKey_inj hd ha hq heq)
    rw [if_neg hsame, List.filter_cons_of_neg (by simpa using hkey),
      List.filter_cons_of_neg (by simpa using haccount)]
    rfl

/-- The count of the pair's key is the number of distinct prefixes. -/
theorem count_pairKey {h : List LoginAttempt} (hd : d.Distinguishes h) {q : LoginAttempt} (hq : q ∈ h)
    (htracks : Tracks d.window (d.hits (d.pairKey q.ip q.account) h) now (r (d.pairKey q.ip q.account))) :
    (d.count (d.pairKey q.ip q.account) now r).2 = d.pairCount h q.ip q.account now := by
  rw [count_eq htracks, recentMembers_hits (fun a => a.password.take 4)
    (fun a => a.ip = q.ip ∧ d.normalizeAccount a.account = d.normalizeAccount q.account) now
    (fun a ha => by simpa using entries_pairKey hd ha hq)]
  unfold pairCount recentOn
  congr 3
  apply List.filter_congr
  intro a _
  simp [Bool.and_assoc]

/-! ## What the endpoint does about them -/

variable {h : List LoginAttempt} {q : LoginAttempt}

/-- A request in the history's turn finds every set with the hits up to its own. -/
theorem tracks_recorded (hclock : Nondecreasing (h ++ [q])) (key : List Char) :
    Tracks d.window (d.hits key (h ++ [q])) (q.now 0)
      (d.recordAttempt q.ip q.password q.account (q.now 0) (d.serve h) key) := by
  obtain ⟨hbefore, -, hlast⟩ := List.pairwise_append.mp hclock
  have hserved : Tracks d.window (d.hits key h) (q.now 0) (d.serve h key) :=
    tracks_serve hbefore (fun a ha => hlast a ha q List.mem_cons_self) key
  rw [hits_append]
  exact tracks_recordAttempt q hserved (Int.le_refl _)

theorem detectStuffing_iff (hclock : Nondecreasing (h ++ [q])) (hd : d.Distinguishes (h ++ [q])) :
    (d.detectStuffing q.ip q.account (q.now 1)
      (d.recordAttempt q.ip q.password q.account (q.now 0) (d.serve h))).2 = true ↔ d.PairSpray h q := by
  have hq : q ∈ h ++ [q] := List.mem_append_right _ List.mem_cons_self
  have hrecorded := (tracks_recorded (d := d) hclock (d.pairKey q.ip q.account)).later (q.now_mono (by decide : 0 ≤ 1))
  have hcount := count_pairKey hd hq hrecorded
  unfold detectStuffing PairSpray
  rw [if_neg q.account_ne, ← hcount]
  exact decide_eq_true_iff

theorem enforce_snd (q : LoginAttempt) (r : SetStore) :
    (d.enforceLoginRateLimits q r).2 =
      if (d.detectStuffing q.ip q.account (q.now 1) (d.recordAttempt q.ip q.password q.account (q.now 0) r)).2
      then some (.tooMany
        s!"Too many login attempts for this account from your address. Account locked for {d.lockoutMinutes} minutes."
        (some "credential_stuffing_detected"))
      else none := by
  unfold enforceLoginRateLimits
  rcases hd : d.detectStuffing q.ip q.account (q.now 1)
      (d.recordAttempt q.ip q.password q.account (q.now 0) r) with ⟨r₁, detected⟩
  simp only [hd]
  cases detected with
  | true => rfl
  | false =>
      rcases hl : d.isAccountLocked q.account (q.now 2) r₁ with ⟨r₂, locked⟩
      cases locked with
      | true => simp [hl]
      | false => simp [hl]

/-- The request is refused on the pair's count and by the rate limiter, and on nothing else. -/
theorem login_tooMany_iff (hclock : Nondecreasing (h ++ [q])) (hd : d.Distinguishes (h ++ [q])) :
    (∃ detail errorCode, (d.login q (d.serve h)).2 = .tooMany detail errorCode) ↔
      d.PairSpray h q ∨ q.allowed = false ∨ q.allowedAgain = false := by
  have hsnd := enforce_snd (d := d) q (d.serve h)
  rw [← detectStuffing_iff hclock hd]
  unfold login
  rcases he : d.enforceLoginRateLimits q (d.serve h) with ⟨r₁, decision⟩
  rw [he] at hsnd
  cases hdetected : (d.detectStuffing q.ip q.account (q.now 1)
      (d.recordAttempt q.ip q.password q.account (q.now 0) (d.serve h))).2 with
  | true =>
      rw [hdetected, if_pos rfl] at hsnd
      obtain rfl : decision = _ := hsnd
      exact ⟨fun _ => .inl rfl, fun _ => ⟨_, _, rfl⟩⟩
  | false =>
      rw [hdetected, if_neg (by decide)] at hsnd
      obtain rfl : decision = none := hsnd
      cases hallowed : q.allowed with
      | false => simp
      | true =>
          cases hagain : q.allowedAgain with
          | false => simp
          | true => simp

/-! ## Other spellings of the account -/

theorem strip_padded {s account : List Char} (hs : Trimmed s) (hpad : Padded s account) :
    strip account = s := by
  obtain ⟨l, r, hl, hr, rfl⟩ := hpad
  unfold strip
  rw [List.append_assoc, List.dropWhile_append_of_pos hl]
  cases s with
  | nil =>
      rw [List.nil_append, List.dropWhile_eq_nil_iff.mpr hr]
      rfl
  | cons c s =>
      have hhead : ¬isSpace c := hs.1 c rfl
      rw [List.cons_append, List.dropWhile_cons_of_neg hhead, ← List.cons_append, List.rdropWhile,
        List.reverse_append, List.dropWhile_append_of_pos fun a ha => hr a (List.mem_reverse.mp ha)]
      have hlast : ∀ a ∈ (c :: s).reverse.head?, ¬isSpace a := by
        rw [List.head?_reverse]
        exact hs.2
      have hdrop : (c :: s).reverse.dropWhile isSpace = (c :: s).reverse := by
        rcases hrev : (c :: s).reverse with _ | ⟨a, t⟩
        · rfl
        · rw [hrev] at hlast
          exact List.dropWhile_cons_of_neg (hlast a rfl)
      rw [hdrop, List.reverse_reverse]

theorem Respelt.normalizeAccount_eq {a b : LoginAttempt} (h : d.Respelt a b) :
    d.normalizeAccount b.account = d.normalizeAccount a.account := by
  obtain ⟨s, t, hs, ht, hlower, ha, hb⟩ := h.account
  unfold normalizeAccount
  rw [strip_padded hs ha, strip_padded ht hb, hlower]

/-- The keys and the members of the two requests are the same. -/
theorem Respelt.keys_eq {a b : LoginAttempt} (h : d.Respelt a b) :
    d.pairKey b.ip b.account = d.pairKey a.ip a.account ∧ d.accountKey b.account = d.accountKey a.account ∧
      d.entries b.ip b.password b.account = d.entries a.ip a.password a.account := by
  have hhash : d.accountHash b.account = d.accountHash a.account := congrArg d.sha256 h.normalizeAccount_eq
  have hpair : d.pairKey b.ip b.account = d.pairKey a.ip a.account := by
    unfold pairKey
    rw [hhash, h.ip]
  have haccount : d.accountKey b.account = d.accountKey a.account := by
    unfold accountKey
    rw [hhash]
  refine ⟨hpair, haccount, ?_⟩
  rw [entries_eq, entries_eq, hpair, haccount, hhash, h.ip, h.password]

theorem Respelt.login_eq {a b : LoginAttempt} (h : d.Respelt a b) (r : SetStore) :
    d.login b r = d.login a r := by
  obtain ⟨hpair, haccount, hentries⟩ := h.keys_eq
  have hrecord : d.recordAttempt b.ip b.password b.account = d.recordAttempt a.ip a.password a.account := by
    funext now r
    unfold recordAttempt
    rw [hentries]
  have hdetect : d.detectStuffing b.ip b.account = d.detectStuffing a.ip a.account := by
    funext now r
    unfold detectStuffing
    rw [if_neg a.account_ne, if_neg b.account_ne, hpair]
  have hlocked : d.isAccountLocked b.account = d.isAccountLocked a.account := by
    funext now r
    unfold isAccountLocked
    rw [if_neg a.account_ne, if_neg b.account_ne, haccount]
  unfold login enforceLoginRateLimits
  rw [hrecord, hdetect, hlocked, haccount, h.ip, h.now, h.allowed, h.allowedAgain]

theorem serve_respelt {h h' : List LoginAttempt} (hall : List.Forall₂ d.Respelt h h') :
    d.serve h' = d.serve h := by
  unfold serve
  generalize (fun _ => SortedSet.empty : SetStore) = r
  induction hall generalizing r with
  | nil => rfl
  | cons hab _ ih =>
      rw [List.foldl_cons, List.foldl_cons, hab.login_eq]
      exact ih _

theorem recentOn_respelt {a b a' b' : LoginAttempt} (hab : d.Respelt a b) (hab' : d.Respelt a' b') (now : ℤ) :
    d.recentOn b.account now b' = d.recentOn a.account now a' := by
  unfold recentOn
  rw [hab.normalizeAccount_eq, hab'.normalizeAccount_eq, hab'.now]

/-- What is kept and read of respelt requests is the same. -/
theorem map_filter_respelt {β : Type*} {f : LoginAttempt → β} {p p' : LoginAttempt → Bool}
    {h h' : List LoginAttempt} (hf : ∀ a b, d.Respelt a b → f b = f a)
    (hp : ∀ a b, d.Respelt a b → p' b = p a) (hall : List.Forall₂ d.Respelt h h') :
    (h'.filter p').map f = (h.filter p).map f := by
  induction hall with
  | nil => rfl
  | cons hab _ ih =>
      rw [List.filter_cons, List.filter_cons, hp _ _ hab]
      split
      · rw [List.map_cons, List.map_cons, hf _ _ hab, ih]
      · exact ih

theorem pairCount_respelt {h h' : List LoginAttempt} (hall : List.Forall₂ d.Respelt h h')
    {q q' : LoginAttempt} (hq : d.Respelt q q') (now : ℤ) :
    d.pairCount h' q'.ip q'.account now = d.pairCount h q.ip q.account now := by
  unfold pairCount
  rw [map_filter_respelt (fun a b hab => by rw [hab.password])
    (fun a b hab => by rw [hab.ip, hq.ip, recentOn_respelt hq hab]) hall]

theorem accountCount_respelt {h h' : List LoginAttempt} (hall : List.Forall₂ d.Respelt h h')
    {q q' : LoginAttempt} (hq : d.Respelt q q') (now : ℤ) :
    d.accountCount h' q'.account now = d.accountCount h q.account now := by
  unfold accountCount
  rw [map_filter_respelt (fun a b hab => by rw [hab.ip, hab.password])
    (fun a b hab => recentOn_respelt hq hab now) hall]

/-- The endpoint refuses a spray that the pair's count has seen. One that only the account's count has seen
goes on to the password, unless the rate limiter stops it. The spelling of an account changes nothing. -/
theorem spray_refused_iff (hclock : Nondecreasing (h ++ [q])) (hd : d.Distinguishes (h ++ [q])) :
    (d.Enforced h q ↔
      (d.AccountSpray h q → d.PairSpray h q ∨ q.allowed = false ∨ q.allowedAgain = false)) ∧
    ∀ h' q', List.Forall₂ d.Respelt h h' → d.Respelt q q' →
      d.pairCount (h' ++ [q']) q'.ip q'.account (q'.now 1)
        = d.pairCount (h ++ [q]) q.ip q.account (q.now 1) ∧
      d.accountCount (h' ++ [q']) q'.account (q'.now 2)
        = d.accountCount (h ++ [q]) q.account (q.now 2) ∧
      d.login q' (d.serve h') = d.login q (d.serve h) := by
  have htooMany := login_tooMany_iff hclock hd
  refine ⟨⟨fun henforced hspray => htooMany.mp (henforced (.inr hspray)), ?_⟩, ?_⟩
  · rintro hcond (hpair | haccount)
    · exact htooMany.mpr (.inl hpair)
    · exact htooMany.mpr (hcond haccount)
  · intro h' q' hall hq
    have happend : List.Forall₂ d.Respelt (h ++ [q]) (h' ++ [q']) :=
      List.rel_append hall (.cons hq .nil)
    refine ⟨?_, ?_, ?_⟩
    · rw [hq.now]
      exact pairCount_respelt happend hq _
    · rw [hq.now]
      exact accountCount_respelt happend hq _
    · rw [serve_respelt hall]
      exact hq.login_eq _

end Detector

/-! ## A spray from two addresses -/

/-- The default settings, but for an account's threshold of two. Of the digests only that of the account is
spelt out. -/
def sampleDetector : Detector where
  windowMinutes := 60
  entropyThreshold := 20
  accountEntropyThreshold := 2
  lockoutDurationMinutes := 15
  lockoutMultiplier := 4
  lockoutMaxMinutes := 60
  lower := List.map Char.toLower
  sha256 := fun s =>
    if s = "noc@apexchain.io".toList then
      "6862438fc12b974f6c6351328bc1061a8859c000a466a4c9ea67cfd4326f181b".toList
    else List.replicate 64 '0'

def guessFrom (ip : String) (t : ℤ) : LoginAttempt where
  ip := ip.toList
  account := "noc@apexchain.io".toList
  password := "guess-it".toList
  now := fun n => t + n
  allowed := true
  allowedAgain := true
  account_ne := by decide
  password_length := by decide
  now_mono := fun m n hle => by
    show t + m ≤ t + n
    omega

theorem distinguishes_guesses :
    sampleDetector.Distinguishes ([guessFrom "10.0.0.1" 0] ++ [guessFrom "10.0.0.2" 10]) := by
  refine ⟨?_, ?_, ?_⟩
  · intro s
    unfold sampleDetector
    dsimp only
    split
    · decide
    · exact List.length_replicate
  · intro a ha b hb heq
    simp only [List.cons_append, List.nil_append, List.mem_cons, List.not_mem_nil, or_false] at ha hb
    rcases ha with rfl | rfl <;> rcases hb with rfl | rfl
    · rfl
    · exact absurd heq (by decide)
    · exact absurd heq (by decide)
    · rfl
  · intro a ha b hb _
    simp only [List.cons_append, List.nil_append, List.mem_cons, List.not_mem_nil, or_false] at ha hb
    rcases ha with rfl | rfl <;> rcases hb with rfl | rfl <;> rfl

theorem nondecreasing_guesses : Nondecreasing ([guessFrom "10.0.0.1" 0] ++ [guessFrom "10.0.0.2" 10]) := by
  unfold Nondecreasing
  decide

theorem spray_refused_iff_guesses :
    (sampleDetector.Enforced [guessFrom "10.0.0.1" 0] (guessFrom "10.0.0.2" 10) ↔
      (sampleDetector.AccountSpray [guessFrom "10.0.0.1" 0] (guessFrom "10.0.0.2" 10) →
        sampleDetector.PairSpray [guessFrom "10.0.0.1" 0] (guessFrom "10.0.0.2" 10) ∨ true = false ∨
          true = false)) :=
  (Detector.spray_refused_iff nondecreasing_guesses distinguishes_guesses).1

/-- The second address's guess makes two pairs of address and prefix, and its password is checked. -/
theorem distributed_spray_not_refused :
    Nondecreasing ([guessFrom "10.0.0.1" 0] ++ [guessFrom "10.0.0.2" 10]) ∧
      sampleDetector.AccountSpray [guessFrom "10.0.0.1" 0] (guessFrom "10.0.0.2" 10) ∧
      (sampleDetector.login (guessFrom "10.0.0.2" 10) (sampleDetector.serve [guessFrom "10.0.0.1" 0])).2
        = .passwordChecked ∧
      ¬sampleDetector.Enforced [guessFrom "10.0.0.1" 0] (guessFrom "10.0.0.2" 10) := by
  have hspray : sampleDetector.AccountSpray [guessFrom "10.0.0.1" 0] (guessFrom "10.0.0.2" 10) := by
    unfold Detector.AccountSpray
    decide
  have hchecked : (sampleDetector.login (guessFrom "10.0.0.2" 10)
      (sampleDetector.serve [guessFrom "10.0.0.1" 0])).2 = .passwordChecked := by
    rfl
  refine ⟨nondecreasing_guesses, hspray, hchecked, ?_⟩
  intro henforced
  obtain ⟨detail, errorCode, hrefused⟩ := henforced (.inr hspray)
  rw [hchecked] at hrefused
  cases hrefused

end ApexChainx.Auth
