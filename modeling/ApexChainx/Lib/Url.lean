import Mathlib.Data.List.DropRight
import Mathlib.Data.List.TakeWhile
import Mathlib.Data.Nat.Notation

/-!
# Addresses and URLs

The reading of IP addresses and of URLs, as `ipaddress` and `urllib.parse` of Python 3.11 do it, on texts as
lists of characters. Normal form and lower case of Unicode are parameters (`Unicode`), of which only what
they do to ASCII is used.

The scheme and the authority of a URL stand in a prefix of it: whatever follows the authority changes
neither (`split_append_of_closed`), and where nothing follows, more text goes into the authority
(`split_append_of_open`).
-/

namespace ApexChainx.Lib

/-! ## IP addresses -/

/-- An address, an IPv6 address with its scope id. -/
inductive IpAddress
  | v4 (value : BitVec 32)
  | v6 (value : BitVec 128) (scopeId : Option (List Char))
deriving DecidableEq, Repr

namespace IpAddress

/-- `int` of a text of digits. -/
def decimal (s : List Char) : ℕ := s.foldl (fun n c => 10 * n + (c.toNat - '0'.toNat)) 0

def isHexDigit (c : Char) : Bool := c.isDigit || ('a' ≤ c && c ≤ 'f') || ('A' ≤ c && c ≤ 'F')

def hexValue (c : Char) : ℕ :=
  if c.isDigit then c.toNat - '0'.toNat else c.toLower.toNat - 'a'.toNat + 10

/-- `_parse_octet`. -/
def parseOctet (s : List Char) : Option (BitVec 8) :=
  if s = [] ∨ s.any (fun c => !c.isDigit) ∨ 3 < s.length then none
  else if s ≠ ['0'] ∧ s.head? = some '0' then none
  else if 255 < decimal s then none
  else some (BitVec.ofNat 8 (decimal s))

/-- `IPv4Address`. -/
def parseIPv4 (s : List Char) : Option (BitVec 32) :=
  match (s.splitOn '.').mapM parseOctet with
  | some [a, b, c, d] => some (a ++ b ++ c ++ d)
  | _ => none

/-- `_parse_hextet` of a part that is not empty. -/
def parseHextet (s : List Char) : Option (BitVec 16) :=
  if s.any (fun c => !isHexDigit c) ∨ 4 < s.length then none
  else some (BitVec.ofNat 16 (s.foldl (fun n c => 16 * n + hexValue c) 0))

/-- The parts between the colons: an empty part is `none`, and an IPv4 address at the end is two parts. -/
def parseParts (parts : List (List Char)) : Option (List (Option (BitVec 16))) :=
  let part := fun s : List Char => if s = [] then some none else (parseHextet s).map some
  let last := parts.getLast?.getD []
  if '.' ∈ last then
    (parts.dropLast.mapM part).bind fun front => (parseIPv4 last).map fun ip =>
      front ++ [some (ip.extractLsb' 16 16), some (ip.extractLsb' 0 16)]
  else parts.mapM part

/-- The parts before or after the run of zeros; a single empty one is no part. -/
def parseHalf (parts : List (Option (BitVec 16))) : Option (List (BitVec 16)) :=
  if parts = [none] then some [] else parts.mapM id

def joinHextets (hextets : List (BitVec 16)) : BitVec 128 :=
  hextets.foldl (fun value h => value <<< 16 ||| h.setWidth 128) 0

/-- `_ip_int_from_string` of an IPv6 address. -/
def parseIPv6Value (s : List Char) : Option (BitVec 128) :=
  let texts := s.splitOn ':'
  if texts.length < 3 then none
  else
    (parseParts texts).bind fun parts =>
      if 9 < parts.length then none
      else
        -- the empty parts that are neither the first nor the last
        let skipped := (parts.zipIdx.filter fun p =>
          p.1.isNone && 0 < p.2 && p.2 + 1 < parts.length).map Prod.snd
        match skipped with
        | [] => if parts.length = 8 then (parts.mapM id).map joinHextets else none
        | [i] =>
            (parseHalf (parts.take i)).bind fun high =>
              (parseHalf (parts.drop (i + 1))).bind fun low =>
                if high.length + low.length < 8 then
                  some (joinHextets
                    (high ++ List.replicate (8 - (high.length + low.length)) 0 ++ low))
                else none
        | _ => none

/-- `IPv6Address`. -/
def parseIPv6 (s : List Char) : Option IpAddress :=
  if '/' ∈ s then none
  else
    match s.dropWhile (· ≠ '%') with
    | [] => (parseIPv6Value s).map (.v6 · none)
    | _ :: scopeId =>
        if scopeId = [] ∨ '%' ∈ scopeId then none
        else (parseIPv6Value (s.takeWhile (· ≠ '%'))).map (.v6 · (some scopeId))

end IpAddress

/-- `ip_address`. -/
def ipAddress (s : List Char) : Option IpAddress :=
  match IpAddress.parseIPv4 s with
  | some value => some (.v4 value)
  | none => IpAddress.parseIPv6 s

/-- A network by its base address and the length of its prefix. -/
structure Network (n : ℕ) where
  base : BitVec n
  length : ℕ

def Network.contains {n : ℕ} (net : Network n) (a : BitVec n) : Bool :=
  a >>> (n - net.length) == net.base >>> (n - net.length)

namespace IpAddress

def privateNetworks4 : List (Network 32) :=
  [⟨0x00000000, 8⟩, ⟨0x0a000000, 8⟩, ⟨0x7f000000, 8⟩, ⟨0xa9fe0000, 16⟩, ⟨0xac100000, 12⟩, ⟨0xc0000000, 24⟩,
    ⟨0xc00000aa, 31⟩, ⟨0xc0000200, 24⟩, ⟨0xc0a80000, 16⟩, ⟨0xc6120000, 15⟩, ⟨0xc6336400, 24⟩,
    ⟨0xcb007100, 24⟩, ⟨0xf0000000, 4⟩, ⟨0xffffffff, 32⟩]

def publicExceptions4 : List (Network 32) := [⟨0xc0000009, 32⟩, ⟨0xc000000a, 32⟩]

def privateNetworks6 : List (Network 128) :=
  [⟨1, 128⟩, ⟨0, 128⟩, ⟨0xffff00000000, 96⟩, ⟨0x0064ff9b000100000000000000000000, 48⟩,
    ⟨0x01000000000000000000000000000000, 64⟩, ⟨0x20010000000000000000000000000000, 23⟩,
    ⟨0x20010db8000000000000000000000000, 32⟩, ⟨0x20020000000000000000000000000000, 16⟩,
    ⟨0xfc000000000000000000000000000000, 7⟩, ⟨0xfe800000000000000000000000000000, 10⟩]

def publicExceptions6 : List (Network 128) :=
  [⟨0x20010001000000000000000000000001, 128⟩, ⟨0x20010001000000000000000000000002, 128⟩,
    ⟨0x20010003000000000000000000000000, 32⟩, ⟨0x20010004011200000000000000000000, 48⟩,
    ⟨0x20010020000000000000000000000000, 28⟩, ⟨0x20010030000000000000000000000000, 28⟩]

def reservedNetworks6 : List (Network 128) :=
  [⟨0, 8⟩, ⟨0x01000000000000000000000000000000, 8⟩, ⟨0x02000000000000000000000000000000, 7⟩,
    ⟨0x04000000000000000000000000000000, 6⟩, ⟨0x08000000000000000000000000000000, 5⟩,
    ⟨0x10000000000000000000000000000000, 4⟩, ⟨0x40000000000000000000000000000000, 3⟩,
    ⟨0x60000000000000000000000000000000, 3⟩, ⟨0x80000000000000000000000000000000, 3⟩,
    ⟨0xa0000000000000000000000000000000, 3⟩, ⟨0xc0000000000000000000000000000000, 3⟩,
    ⟨0xe0000000000000000000000000000000, 4⟩, ⟨0xf0000000000000000000000000000000, 5⟩,
    ⟨0xf8000000000000000000000000000000, 6⟩, ⟨0xfe000000000000000000000000000000, 9⟩]

def isLoopback : IpAddress → Bool
  | v4 a => (⟨0x7f000000, 8⟩ : Network 32).contains a
  | v6 a _ => a == 1

def isLinkLocal : IpAddress → Bool
  | v4 a => (⟨0xa9fe0000, 16⟩ : Network 32).contains a
  | v6 a _ => (⟨0xfe800000000000000000000000000000, 10⟩ : Network 128).contains a

def isMulticast : IpAddress → Bool
  | v4 a => (⟨0xe0000000, 4⟩ : Network 32).contains a
  | v6 a _ => (⟨0xff000000000000000000000000000000, 8⟩ : Network 128).contains a

def isReserved : IpAddress → Bool
  | v4 a => (⟨0xf0000000, 4⟩ : Network 32).contains a
  | v6 a _ => reservedNetworks6.any (·.contains a)

def isPrivate4 (a : BitVec 32) : Bool :=
  privateNetworks4.any (·.contains a) && publicExceptions4.all fun net => !net.contains a

/-- `is_private`; an IPv6 address that stands for an IPv4 address is judged as that. -/
def isPrivate : IpAddress → Bool
  | v4 a => isPrivate4 a
  | v6 a _ =>
      if a.extractLsb' 32 96 = 0xffff then isPrivate4 (a.extractLsb' 0 32)
      else privateNetworks6.any (·.contains a) && publicExceptions6.all fun net => !net.contains a

end IpAddress

/-! ## URLs -/

/-- What of Unicode a URL is read with. ASCII is its own normal form, also after other text. -/
structure Unicode where
  /-- `unicodedata.normalize('NFKC', s)`. -/
  nfkc : List Char → List Char
  /-- `s.lower()`. -/
  lower : List Char → List Char
  nfkc_append : ∀ s t : List Char, (∀ c ∈ t, c.toNat < 128) → nfkc (s ++ t) = nfkc s ++ t
  lower_ascii : ∀ s : List Char, (∀ c ∈ s, c.toNat < 128) → lower s = s.map Char.toLower

/-- The parts of a URL that are used. -/
structure SplitUrl where
  scheme : List Char
  netloc : List Char
  fragment : List Char
deriving DecidableEq, Repr

namespace Url

/-- Without leading control characters and spaces, and without the tabs and line ends in it. -/
def clean (url : List Char) : List Char :=
  (url.dropWhile fun c => c.toNat ≤ 32).filter fun c => c ∉ ['\t', '\r', '\n']

/-- `scheme_chars`. -/
def isSchemeChar (c : Char) : Bool := c.isAlphanum || c ∈ ['+', '-', '.']

/-- The scheme, in lower case, and what follows its colon. -/
def splitScheme (url : List Char) : List Char × List Char :=
  let name := url.takeWhile (· ≠ ':')
  match url.dropWhile (· ≠ ':') with
  | [] => ([], url)
  | _ :: rest =>
      if name.head?.any Char.isAlpha && name.all isSchemeChar then (name.map Char.toLower, rest)
      else ([], url)

/-- `_splitnetloc`, if the text begins with two slashes. -/
def splitNetloc : List Char → List Char × List Char
  | '/' :: '/' :: rest =>
      (rest.takeWhile fun c => c ∉ ['/', '?', '#'], rest.dropWhile fun c => c ∉ ['/', '?', '#'])
  | rest => ([], rest)

/-- `s.partition(sep)`, without the separator. -/
def partition (sep : Char) (s : List Char) : List Char × List Char :=
  (s.takeWhile (· ≠ sep), (s.dropWhile (· ≠ sep)).tail)

/-- `s.rpartition(sep)[2]`. -/
def afterLast (sep : Char) (s : List Char) : List Char := s.rtakeWhile (· ≠ sep)

/-- `_check_bracketed_host`: an IPv6 address, or one of a future version. -/
def checkBracketedHost (host : List Char) : Bool :=
  match host with
  | 'v' :: version =>
      !(version.takeWhile IpAddress.isHexDigit).isEmpty &&
        match version.dropWhile IpAddress.isHexDigit with
        | '.' :: address => !address.isEmpty && '\n' ∉ address
        | _ => false
  | _ =>
      match ipAddress host with
      | some (.v6 _ _) => true
      | _ => false

/-- `_check_bracketed_netloc`. -/
def checkBracketedNetloc (netloc : List Char) : Bool :=
  let hostAndPort := afterLast '@' netloc
  if '[' ∈ hostAndPort then
    let (before, bracketed) := partition '[' hostAndPort
    let (host, port) := partition ']' bracketed
    before.isEmpty && (port.isEmpty || port.head? = some ':') && checkBracketedHost host
  else checkBracketedHost (partition ':' hostAndPort).1

/-- `_checknetloc`: no character becomes a delimiter under normalization. -/
def checkNetloc (u : Unicode) (netloc : List Char) : Bool :=
  netloc.all (fun c => c.toNat < 128) ||
    let text := netloc.filter fun c => c ∉ ['@', ':', '#', '?']
    u.nfkc text = text || ['/', '?', '#', '@', ':'].all fun c => c ∉ u.nfkc text

/-- The scheme of a URL. -/
def scheme (url : List Char) : List Char := (splitScheme (clean url)).1

/-- The authority of a URL and what follows it. -/
def authority (url : List Char) : List Char × List Char := splitNetloc (splitScheme (clean url)).2

/-- `urlsplit`; `none` for its `ValueError`. -/
def urlsplit (u : Unicode) (url : List Char) : Option SplitUrl :=
  let (netloc, tail) := authority url
  if decide ('[' ∈ netloc) ≠ decide (']' ∈ netloc) then none
  else if '[' ∈ netloc ∧ checkBracketedNetloc netloc = false then none
  else if checkNetloc u netloc then some ⟨scheme url, netloc, (partition '#' tail).2⟩
  else none

/-- `_hostinfo`: the host and the port, if there is one. -/
def hostInfo (netloc : List Char) : List Char × Option (List Char) :=
  let info := afterLast '@' netloc
  let (host, port) :=
    if '[' ∈ info then
      let (host, afterBracket) := partition ']' (partition '[' info).2
      (host, (partition ':' afterBracket).2)
    else partition ':' info
  (host, if port = [] then none else some port)

/-! ### What follows the authority -/

section Prefix

theorem takeWhile_append_of_mem {p : Char → Bool} {s : List Char} (h : s.dropWhile p ≠ []) (t : List Char) :
    (s ++ t).takeWhile p = s.takeWhile p ∧ (s ++ t).dropWhile p = s.dropWhile p ++ t := by
  induction s with
  | nil => exact absurd rfl h
  | cons c s ih =>
      cases hc : p c with
      | true =>
          rw [List.dropWhile_cons_of_pos hc] at h
          obtain ⟨htake, hdrop⟩ := ih h
          simp [hc, htake, hdrop]
      | false => simp [hc]

theorem takeWhile_append_of_all {p : Char → Bool} {s : List Char} (h : s.dropWhile p = []) (t : List Char) :
    (s ++ t).takeWhile p = s ++ t.takeWhile p ∧ (s ++ t).dropWhile p = t.dropWhile p := by
  have hall : ∀ c ∈ s, p c = true := List.dropWhile_eq_nil_iff.mp h
  exact ⟨List.takeWhile_append_of_pos hall, List.dropWhile_append_of_pos hall⟩

/-- More text at the end of a URL that has a scheme is more text at the end of the cleaned one. -/
theorem clean_append {url : List Char} (h : scheme url ≠ []) (t : List Char) :
    clean (url ++ t) = clean url ++ t.filter fun c => c ∉ ['\t', '\r', '\n'] := by
  have hstart : url.dropWhile (fun c => decide (c.toNat ≤ 32)) ≠ [] := by
    intro hnil
    apply h
    rw [scheme, clean, hnil]
    rfl
  rw [clean, (takeWhile_append_of_mem hstart t).2, List.filter_append, clean]

theorem splitScheme_append {url : List Char} (h : (splitScheme url).1 ≠ []) (t : List Char) :
    splitScheme (url ++ t) = ((splitScheme url).1, (splitScheme url).2 ++ t) := by
  unfold splitScheme at h ⊢
  cases hcolon : url.dropWhile (· ≠ ':') with
  | nil =>
      rw [hcolon] at h
      exact absurd rfl h
  | cons c after =>
      obtain ⟨htake, hdrop⟩ := takeWhile_append_of_mem (hcolon ▸ List.cons_ne_nil c after) t
      simp only [hcolon] at h
      simp only [htake, hdrop, hcolon, List.cons_append]
      split at h
      · rename_i hname
        rw [if_pos hname, if_pos hname]
      · exact absurd rfl h

/-- Text after the authority stays after it. -/
theorem splitNetloc_append_of_closed {rest netloc tail : List Char}
    (h : splitNetloc rest = (netloc, tail)) (hnetloc : netloc ≠ []) (htail : tail ≠ []) (t : List Char) :
    splitNetloc (rest ++ t) = (netloc, tail ++ t) := by
  unfold splitNetloc at h
  split at h
  · rename_i text
    rw [Prod.mk.injEq] at h
    obtain ⟨rfl, rfl⟩ := h
    obtain ⟨htake, hdrop⟩ := takeWhile_append_of_mem htail t
    rw [List.cons_append, List.cons_append, splitNetloc, htake, hdrop]
  · exact absurd (congrArg Prod.fst h).symm hnetloc

/-- Where nothing follows the authority, text without a delimiter goes into it. -/
theorem splitNetloc_append_of_open {rest netloc : List Char} (h : splitNetloc rest = (netloc, []))
    (hnetloc : netloc ≠ []) {t : List Char} (ht : ∀ c ∈ t, c ∉ ['/', '?', '#']) :
    splitNetloc (rest ++ t) = (netloc ++ t, []) := by
  unfold splitNetloc at h
  split at h
  · rename_i text
    rw [Prod.mk.injEq] at h
    obtain ⟨hmine, hnone⟩ := h
    have hwhole : text.takeWhile (fun c => decide (c ∉ ['/', '?', '#'])) = text := by
      have hsplit := List.takeWhile_append_dropWhile (p := fun c => decide (c ∉ ['/', '?', '#'])) (l := text)
      rwa [hnone, List.append_nil] at hsplit
    obtain ⟨htake, hdrop⟩ := takeWhile_append_of_all hnone t
    have hall : ∀ c ∈ t, decide (c ∉ ['/', '?', '#']) = true := fun c hc => decide_eq_true (ht c hc)
    rw [List.cons_append, List.cons_append, splitNetloc, htake, hdrop, ← hmine, hwhole,
      List.takeWhile_eq_self_iff.mpr hall, List.dropWhile_eq_nil_iff.mpr hall]
  · exact absurd (congrArg Prod.fst h).symm hnetloc

/-- What follows a scheme does not change it. -/
theorem scheme_append {url : List Char} (h : scheme url ≠ []) (t : List Char) :
    scheme (url ++ t) = scheme url := by
  rw [scheme, clean_append h, splitScheme_append h, scheme]

/-- What follows an authority that has come to its end does not change it. -/
theorem authority_append_of_closed {url : List Char} (h : scheme url ≠ []) (hnetloc : (authority url).1 ≠ [])
    (htail : (authority url).2 ≠ []) (t : List Char) : (authority (url ++ t)).1 = (authority url).1 := by
  rw [authority, clean_append h, splitScheme_append h, splitNetloc_append_of_closed rfl hnetloc htail]
  rfl

/-- More text goes into an authority that nothing follows. -/
theorem authority_append_of_open {url : List Char} (h : scheme url ≠ []) (hnetloc : (authority url).1 ≠ [])
    (htail : (authority url).2 = []) {t : List Char}
    (ht : ∀ c ∈ t, c ∉ ['/', '?', '#'] ∧ c ∉ ['\t', '\r', '\n']) :
    authority (url ++ t) = ((authority url).1 ++ t, []) := by
  have hkept : t.filter (fun c => c ∉ ['\t', '\r', '\n']) = t := by
    apply List.filter_eq_self.mpr
    intro c hc
    exact decide_eq_true (ht c hc).2
  have hopen : splitNetloc (splitScheme (clean url)).2 = ((authority url).1, []) := Prod.ext rfl htail
  rw [authority, clean_append h, hkept, splitScheme_append h,
    splitNetloc_append_of_open hopen hnetloc fun c hc => (ht c hc).1]

theorem urlsplit_eq_some {u : Unicode} {url : List Char} {parsed : SplitUrl} :
    urlsplit u url = some parsed ↔
      decide ('[' ∈ (authority url).1) = decide (']' ∈ (authority url).1) ∧
        ('[' ∈ (authority url).1 → checkBracketedNetloc (authority url).1 = true) ∧
        checkNetloc u (authority url).1 = true ∧
        parsed = ⟨scheme url, (authority url).1, (partition '#' (authority url).2).2⟩ := by
  unfold urlsplit
  generalize authority url = parts
  obtain ⟨netloc, tail⟩ := parts
  by_cases hpair : decide ('[' ∈ netloc) = decide (']' ∈ netloc)
  · by_cases hbrackets : '[' ∈ netloc ∧ checkBracketedNetloc netloc = false
    · simp [hbrackets]
    · have hok : '[' ∈ netloc → checkBracketedNetloc netloc = true := by
        intro hmem
        cases hcheck : checkBracketedNetloc netloc with
        | true => rfl
        | false => exact absurd ⟨hmem, hcheck⟩ hbrackets
      simp only [ne_eq, hpair, not_true, if_false, if_neg hbrackets]
      constructor
      · intro heq
        split at heq
        · rename_i hcheck
          exact ⟨trivial, hok, hcheck, (Option.some.inj heq).symm⟩
        · cases heq
      · rintro ⟨-, -, hcheck, rfl⟩
        rw [if_pos hcheck]
  · simp [hpair]

/-- A text after an `@` that has none itself is what follows the last one. -/
theorem afterLast_append {sep : Char} {t : List Char} (ht : sep ∉ t) (s : List Char) :
    afterLast sep (s ++ sep :: t) = t := by
  have hall : ∀ c ∈ t.reverse, decide (c ≠ sep) = true := by
    intro c hc
    exact decide_eq_true fun heq => ht (heq ▸ List.mem_reverse.mp hc)
  rw [afterLast, List.rtakeWhile, List.reverse_append, List.reverse_cons, List.append_assoc,
    List.takeWhile_append_of_pos hall, List.singleton_append,
    List.takeWhile_cons_of_neg (by simp), List.append_nil, List.reverse_reverse]

theorem partition_append {sep : Char} {s : List Char} (hs : sep ∉ s) (t : List Char) :
    partition sep (s ++ sep :: t) = (s, t) := by
  have hall : ∀ c ∈ s, decide (c ≠ sep) = true := by
    intro c hc
    exact decide_eq_true fun heq => hs (heq ▸ hc)
  simp only [partition, List.takeWhile_append_of_pos hall, List.dropWhile_append_of_pos hall]
  simp

/-- ASCII without a slash may be added to an authority. -/
theorem checkNetloc_append {u : Unicode} {netloc t : List Char} (h : checkNetloc u netloc = true)
    (hascii : ∀ c ∈ t, c.toNat < 128) (hslash : '/' ∉ t) : checkNetloc u (netloc ++ t) = true := by
  set keep : Char → Bool := fun c => decide (c ∉ ['@', ':', '#', '?']) with hkeep
  have hkept : ∀ c ∈ t.filter keep, c.toNat < 128 := fun c hc => hascii c (List.mem_filter.mp hc).1
  have hnfkc : u.nfkc ((netloc ++ t).filter keep) = u.nfkc (netloc.filter keep) ++ t.filter keep := by
    rw [List.filter_append, u.nfkc_append _ _ hkept]
  unfold checkNetloc at h ⊢
  rcases Bool.or_eq_true_iff.mp h with hall | hnormal
  · apply Bool.or_eq_true_iff.mpr
    left
    rw [List.all_append, hall, Bool.true_and, List.all_eq_true]
    intro c hc
    exact decide_eq_true (hascii c hc)
  · apply Bool.or_eq_true_iff.mpr
    right
    simp only [← hkeep] at hnormal ⊢
    rw [hnfkc]
    rcases Bool.or_eq_true_iff.mp hnormal with hsame | hclear
    · apply Bool.or_eq_true_iff.mpr
      left
      rw [of_decide_eq_true hsame, List.filter_append]
      exact decide_eq_true rfl
    · apply Bool.or_eq_true_iff.mpr
      right
      rw [List.all_eq_true] at hclear ⊢
      intro c hc
      have hnot := of_decide_eq_true (hclear c hc)
      apply decide_eq_true
      intro hmem
      rcases List.mem_append.mp hmem with hold | hnew
      · exact hnot hold
      · obtain ⟨ht, hc'⟩ := List.mem_filter.mp hnew
        have hout := of_decide_eq_true hc'
        simp only [List.mem_cons, List.not_mem_nil, or_false, not_or] at hc hout
        rcases hc with rfl | rfl | rfl | rfl | rfl
        · exact hslash ht
        · exact hout.2.2.2 rfl
        · exact hout.2.2.1 rfl
        · exact hout.1 rfl
        · exact hout.2.1 rfl

end Prefix

end Url

namespace SplitUrl

/-- `hostname`: in lower case up to a zone. -/
def hostname (u : Unicode) (parsed : SplitUrl) : Option (List Char) :=
  let host := (Url.hostInfo parsed.netloc).1
  if host = [] then none
  else some (u.lower (host.takeWhile (· ≠ '%')) ++ host.dropWhile (· ≠ '%'))

/-- `port`; an error for its `ValueError`. -/
def port (parsed : SplitUrl) : Except Unit (Option ℕ) :=
  match (Url.hostInfo parsed.netloc).2 with
  | none => .ok none
  | some text =>
      if text.all Char.isDigit ∧ IpAddress.decimal text ≤ 65535 then
        .ok (some (IpAddress.decimal text))
      else .error ()

end SplitUrl

end ApexChainx.Lib
