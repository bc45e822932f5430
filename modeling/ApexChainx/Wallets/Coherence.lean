import ApexChainx.Lib.ReadThrough
import ApexChainx.Lib.Transition
import ApexChainx.Wallets.Registry

/-!
# Wallet reads through the cache

A wallet is cached under its address by the writers and by `get_balance`, and under its user by
`get_wallet` and `get_status`. A link that repeats an earlier one writes the flags and refreshes the
address entry alone, so what the user's entry shows goes stale exactly when the flags were changed.
-/

namespace ApexChainx.Wallets

open ApexChainx.Lib

/-! ## What a read returns -/

/-- The flags of a wallet. -/
structure Flags where
  funded : Bool
  trustlineReady : Bool
  active : Bool
deriving DecidableEq, Repr

def WalletORM.flags (w : WalletORM) : Flags := ⟨w.funded, w.trustlineReady, w.active⟩

def Wallet.flags (w : Wallet) : Flags := ⟨w.funded, w.trustlineReady, w.active⟩

def WalletStatusResponse.flags (r : WalletStatusResponse) : Flags := ⟨r.funded, r.trustlineReady, r.active⟩

/-- All three flags are set. -/
def Flags.usable (f : Flags) : Bool := f.funded && f.trustlineReady && f.active

/-- The flags stored in the database for a user or an address. -/
def Registry.stored (s : Registry) : Key → Option Flags
  | .user userId => (s.table.ofUser userId).map WalletORM.flags
  | .addr publicKey => (s.table.ofAddress publicKey).map WalletORM.flags

/-- A read shows what is stored; one that raises has nothing to show. -/
def Reports {α ν : Type} (out : Except RegistryError (Option α)) (shown : α → ν) (stored : Option ν) : Prop :=
  match out with
  | .ok r => r.map shown = stored
  | .error _ => stored = none

instance {α ν : Type} [DecidableEq ν] (out : Except RegistryError (Option α)) (shown : α → ν)
    (stored : Option ν) : Decidable (Reports out shown stored) :=
  match out with
  | .ok r => inferInstanceAs (Decidable (r.map shown = stored))
  | .error _ => inferInstanceAs (Decidable (stored = none))

/-- Every read that may come next returns the flags stored in the database. -/
structure ReadsAccurate (s : Registry) : Prop where
  wallet : ∀ now userId, Reports (s.getWallet now userId).2 Wallet.flags (s.stored (.user userId))
  status : ∀ now userId, Reports (s.getStatus now userId).2 (fun r => (r.flags, r.usable))
    ((s.stored (.user userId)).map fun f => (f, f.usable))
  balance : ∀ address, Reports (s.getBalance address).2 WalletBalanceResponse.balances
    ((s.stored (.addr address)).map fun f => Registry.balances f.funded f.trustlineReady)

/-- Each user has at most one wallet, each address at most one user, and reads are accurate. -/
structure Lawful (s : Registry) : Prop where
  wallets : (s.table.rows.map WalletORM.userId).Nodup
  users : (s.table.rows.map WalletORM.publicKey).Nodup
  reads : ReadsAccurate s

/-- A link that repeats an earlier one changes no flag while the wallet is cached under its user. -/
def Refreshed (s : Registry) : Call → Prop
  | .linkWallet _ payload => ∀ w ∈ s.table.rows, w.userId = payload.userId → w.publicKey = payload.publicKey →
      (s.cache (Key.user payload.userId).text).isSome →
      w.funded = payload.funded ∧ w.trustlineReady = payload.trustlineReady
  | _ => True

/-! ## The two kinds of keys -/

theorem Key.text_injective : Function.Injective Key.text := by
  intro k k' h
  cases k with
  | user u =>
      cases k' with
      | user u' =>
          rw [(String.append_right_inj _).mp ((String.append_right_inj _).mp h)]
      | addr a =>
          have hchars := congrArg String.toList ((String.append_right_inj _).mp h)
          simp at hchars
  | addr a =>
      cases k' with
      | user u =>
          have hchars := congrArg String.toList ((String.append_right_inj _).mp h)
          simp at hchars
      | addr a' =>
          rw [(String.append_right_inj _).mp ((String.append_right_inj _).mp h)]

namespace Registry

/-- The entry of a key. -/
def cached (s : Registry) (k : Key) : Option Wallet := s.cache k.text

theorem cached_set (s : Registry) (k : Key) (wallet : Wallet) :
    (s.set k wallet).cached = Function.update s.cached k (some wallet) := by
  funext k'
  by_cases h : k' = k
  · subst h
    simp [cached, set]
  · have hne : k'.text ≠ k.text := fun heq => h (Key.text_injective heq)
    simp [cached, set, Function.update_of_ne hne, Function.update_of_ne h]

/-! ## Reads of a coherent cache -/

section Reads

variable {s : Registry} {now : ℤ} {userId address : String} {w : Wallet} {ν : Type} (shown : Flags → ν)

theorem fetchWallet_of_cached (h : s.cached (.user userId) = some w) :
    s.fetchWallet now userId = (s, .ok (some w)) := by
  unfold cached at h
  simp only [fetchWallet, h]

theorem fetchByAddress_of_cached (h : s.cached (.addr address) = some w) :
    s.fetchByAddress address = (s, .ok (some w)) := by
  unfold cached at h
  simp only [fetchByAddress, h]

/-- A read of the database. -/
theorem fetchWallet_of_not_cached (hs : s.table.Sound) (h : s.cached (.user userId) = none) :
    Reports (s.fetchWallet now userId).2 (fun w => shown w.flags) ((s.stored (.user userId)).map shown) := by
  unfold cached at h
  simp only [fetchWallet, h, WalletTable.getByUserId, stored]
  cases hvalid : validateInput userId "user_id" with
  | some e =>
      simp only [Reports]
      rw [hs.ofUser_of_invalid hvalid]
      rfl
  | none =>
      cases s.table.ofUser userId with
      | none => rfl
      | some orm => rfl

theorem fetchByAddress_of_not_cached (hs : s.table.Sound) (h : s.cached (.addr address) = none) :
    Reports (s.fetchByAddress address).2 (fun w => shown w.flags) ((s.stored (.addr address)).map shown) := by
  unfold cached at h
  simp only [fetchByAddress, h, WalletTable.getByPublicKey, stored]
  cases hvalid : validateInput address "public_key" with
  | some e =>
      simp only [Reports]
      rw [hs.ofAddress_of_invalid hvalid]
      rfl
  | none =>
      cases s.table.ofAddress address with
      | none => rfl
      | some orm => rfl

variable (hcoherent : Coherent s.cached Wallet.flags s.stored)

include hcoherent

theorem fetchWallet_reports (hs : s.table.Sound) :
    Reports (s.fetchWallet now userId).2 (fun w => shown w.flags) ((s.stored (.user userId)).map shown) := by
  cases h : s.cached (.user userId) with
  | none => exact fetchWallet_of_not_cached shown hs h
  | some w =>
      rw [fetchWallet_of_cached h, hcoherent _ _ h]
      rfl

theorem fetchByAddress_reports (hs : s.table.Sound) :
    Reports (s.fetchByAddress address).2 (fun w => shown w.flags) ((s.stored (.addr address)).map shown) := by
  cases h : s.cached (.addr address) with
  | none => exact fetchByAddress_of_not_cached shown hs h
  | some w =>
      rw [fetchByAddress_of_cached h, hcoherent _ _ h]
      rfl

end Reads

end Registry

/-- A reply computed from the wallet that was fetched. -/
theorem reports_map {α β ν : Type} {out : Except RegistryError (Option α)} {f : α → β} {shown : β → ν}
    {stored : Option ν} :
    Reports (out.map (Option.map f)) shown stored ↔ Reports out (fun a => shown (f a)) stored := by
  cases out with
  | error e => exact Iff.rfl
  | ok r => simp only [Except.map, Reports, Option.map_map]; exact Iff.rfl

/-- The balances tell the two flags they are computed from. -/
theorem balances_injective {funded funded' trustlineReady trustlineReady' : Bool}
    (h : Registry.balances funded trustlineReady = Registry.balances funded' trustlineReady') :
    funded = funded' ∧ trustlineReady = trustlineReady' := by
  cases funded <;> cases funded' <;> cases trustlineReady <;> cases trustlineReady' <;>
    simp [Registry.balances] at h ⊢

/-- What every run keeps: the table is sound, and a cached wallet was active. -/
structure Sound (s : Registry) : Prop where
  table : s.table.Sound
  active : ∀ k w, s.cached k = some w → w.active = true

/-- Reads are accurate exactly when the cache is coherent. -/
theorem readsAccurate_iff {s : Registry} (hs : Sound s) :
    ReadsAccurate s ↔ Coherent s.cached Wallet.flags s.stored := by
  constructor
  · intro h k w hw
    cases k with
    | user userId =>
        have hread := h.wallet 0 userId
        rw [Registry.getWallet, Registry.fetchWallet_of_cached hw] at hread
        exact hread.symm
    | addr address =>
        have hread := h.balance address
        rw [Registry.getBalance, Registry.fetchByAddress_of_cached hw] at hread
        simp only [Except.map, Reports, Option.map_some] at hread
        obtain ⟨f, hf, hbalances⟩ := Option.map_eq_some_iff.mp hread.symm
        obtain ⟨hfunded, htrustline⟩ := balances_injective hbalances
        have hactive : f.active = true := by
          obtain ⟨r, hr, rfl⟩ := Option.map_eq_some_iff.mp hf
          exact hs.table.active r (hs.table.ofAddress_eq_some_iff.mp hr).1
        rw [hf, Wallet.flags, ← hfunded, ← htrustline, hs.active _ w hw, ← hactive]
  · intro h
    refine ⟨fun now userId => ?_, fun now userId => ?_, fun address => ?_⟩
    · have hread : Reports (s.fetchWallet now userId).2 (fun w => id w.flags)
          ((s.stored (.user userId)).map id) := Registry.fetchWallet_reports id h hs.table
      rw [Option.map_id] at hread
      exact hread
    · exact reports_map.mpr (Registry.fetchWallet_reports (fun f => (f, f.usable)) h hs.table)
    · exact reports_map.mpr
        (Registry.fetchByAddress_reports (fun f => Registry.balances f.funded f.trustlineReady) h hs.table)

/-! ## What a call changes -/

section Steps

variable {s : Registry} {table : WalletTable} {wallet : WalletORM}

/-- What is stored after a wallet was added. -/
theorem stored_add (hfresh : s.table.Fresh wallet) (k : Key) :
    ({ s with table := s.table.add wallet } : Registry).stored k
      = if k = .user wallet.userId ∨ k = .addr wallet.publicKey then some wallet.flags else s.stored k := by
  cases k with
  | user userId =>
      simp only [Registry.stored, WalletTable.ofUser_add hfresh, Key.user.injEq, reduceCtorEq, or_false]
      split <;> rfl
  | addr publicKey =>
      simp only [Registry.stored, WalletTable.ofAddress_add hfresh, Key.addr.injEq, reduceCtorEq, false_or]
      split <;> rfl

/-- A change of the table after which one wallet is cached. -/
theorem coherent_set_iff (h : Coherent s.cached Wallet.flags s.stored) {k : Key} {w : Wallet}
    (hfresh : ({ s with table := table } : Registry).stored k = some w.flags) :
    Coherent (({ s with table := table } : Registry).set k w).cached Wallet.flags
        (({ s with table := table } : Registry).set k w).stored
      ↔ ∀ k', k' ≠ k → (s.cached k').isSome →
        ({ s with table := table } : Registry).stored k' = s.stored k' := by
  rw [Registry.cached_set]
  exact coherent_write_iff h hfresh

/-- What is stored after a write to a wallet. -/
theorem stored_write {g : WalletORM → WalletORM} (hs : s.table.Sound) (hg : WalletTable.Keeps g)
    (hwallet : wallet ∈ s.table.rows) (k : Key) :
    ({ s with table := (s.table.write wallet g).1 } : Registry).stored k
      = if k = .user wallet.userId ∨ k = .addr wallet.publicKey then some (g wallet).flags
        else s.stored k := by
  have hrow : ∀ r ∈ s.table.rows, r.id = wallet.id → r = wallet := fun r hr hid =>
    List.inj_on_of_nodup_map hs.ids hr hwallet hid
  cases k with
  | user userId =>
      simp only [Registry.stored, WalletTable.ofUser, WalletTable.find?_write hg.userId, Key.user.injEq,
        reduceCtorEq, or_false]
      by_cases h : userId = wallet.userId
      · rw [if_pos h, h, find?_key hs.users hwallet]
        simp
      · rw [if_neg h]
        cases hfind : s.table.rows.find? fun r => decide (r.userId = userId) with
        | none => rfl
        | some r =>
            obtain ⟨hr, rfl⟩ := hs.ofUser_eq_some_iff.mp hfind
            have hid : r.id ≠ wallet.id := fun hid => h (by rw [hrow r hr hid])
            simp [hid]
  | addr publicKey =>
      simp only [Registry.stored, WalletTable.ofAddress, WalletTable.find?_write hg.publicKey, Key.addr.injEq,
        reduceCtorEq, false_or]
      by_cases h : publicKey = wallet.publicKey
      · rw [if_pos h, h, find?_key hs.addresses hwallet]
        simp
      · rw [if_neg h]
        cases hfind : s.table.rows.find? fun r => decide (r.publicKey = publicKey) with
        | none => rfl
        | some r =>
            obtain ⟨hr, rfl⟩ := hs.ofAddress_eq_some_iff.mp hfind
            have hid : r.id ≠ wallet.id := fun hid => h (by rw [hrow r hr hid])
            simp [hid]

/-- What a link writes into a wallet that exists. -/
def relink (now : ℤ) (payload : WalletLinkRequest) (r : WalletORM) : WalletORM :=
  { r with
    funded := payload.funded
    trustlineReady := payload.trustlineReady
    lastUpdated := now
    cachedAt := some now }

/-- What a call can do. -/
inductive Effect (s : Registry) : Call → Registry → Prop
  | quiet {c : Call} (hok : Refreshed s c) : Effect s c s
  | add {c : Call} {wallet : WalletORM} (hfresh : s.table.Fresh wallet) (hok : Refreshed s c) :
      Effect s c (({ s with table := s.table.add wallet } : Registry).set (.addr wallet.publicKey)
        (ormToPydantic wallet))
  | relink {now : ℤ} {payload : WalletLinkRequest} {wallet : WalletORM} (hwallet : wallet ∈ s.table.rows)
      (huser : wallet.userId = payload.userId) (haddress : wallet.publicKey = payload.publicKey) :
      Effect s (.linkWallet now payload)
        (({ s with table := (s.table.write wallet (relink now payload)).1 } : Registry).set
          (.addr wallet.publicKey) (ormToPydantic (relink now payload wallet)))
  | touch {c : Call} {now : ℤ} {wallet : WalletORM} (hwallet : wallet ∈ s.table.rows) (hok : Refreshed s c) :
      Effect s c (({ s with table := (s.table.touchCache wallet now).1 } : Registry).set (.user wallet.userId)
        (ormToPydantic wallet))
  | fill {c : Call} {wallet : WalletORM} (hwallet : wallet ∈ s.table.rows) (hok : Refreshed s c) :
      Effect s c (s.set (.addr wallet.publicKey) (ormToPydantic wallet))

theorem effect_createWallet {now : ℤ} {uuid : String} {payload : WalletCreateRequest} :
    Effect s (.createWallet now uuid payload) (s.createWallet now uuid payload).1 := by
  have hok : Refreshed s (.createWallet now uuid payload) := trivial
  unfold Registry.createWallet
  cases s.table.getByUserId payload.userId with
  | error e => exact .quiet hok
  | ok existing =>
      cases existing with
      | some existing => exact .quiet hok
      | none =>
          dsimp only
          cases hcreate : s.table.create now payload.userId (Registry.buildPublicKey uuid) false false with
          | mk table out =>
              rcases WalletTable.create_cases hcreate with ⟨e, rfl, rfl⟩ | ⟨wallet, rfl, rfl, hfresh, -, haddress, -⟩
              · cases e with
                | integrityError constraint =>
                    dsimp only
                    split <;> exact .quiet hok
                | _ => exact .quiet hok
              · rw [← haddress]
                exact .add hfresh hok

theorem effect_fetchWallet {c : Call} (hs : s.table.Sound) (hok : Refreshed s c) (now : ℤ) (userId : String) :
    Effect s c (s.fetchWallet now userId).1 := by
  unfold Registry.fetchWallet WalletTable.getByUserId
  cases s.cache (Key.user userId).text with
  | some w => exact .quiet hok
  | none =>
      cases validateInput userId "user_id" with
      | some e => exact .quiet hok
      | none =>
          cases hfind : s.table.ofUser userId with
          | none => exact .quiet hok
          | some wallet =>
              obtain ⟨hwallet, rfl⟩ := hs.ofUser_eq_some_iff.mp hfind
              exact .touch hwallet hok

theorem effect_fetchByAddress {c : Call} (hs : s.table.Sound) (hok : Refreshed s c) (address : String) :
    Effect s c (s.fetchByAddress address).1 := by
  unfold Registry.fetchByAddress WalletTable.getByPublicKey
  cases s.cache (Key.addr address).text with
  | some w => exact .quiet hok
  | none =>
      cases validateInput address "public_key" with
      | some e => exact .quiet hok
      | none =>
          cases hfind : s.table.ofAddress address with
          | none => exact .quiet hok
          | some wallet =>
              obtain ⟨hwallet, rfl⟩ := hs.ofAddress_eq_some_iff.mp hfind
              exact .fill hwallet hok

section Link

variable {getByUserIdOrPublicKey : WalletTable → String → String → Option WalletORM × Option WalletORM}
  (hlookup : ∀ t userId publicKey,
    getByUserIdOrPublicKey t userId publicKey = (t.ofUser userId, t.ofAddress publicKey))

include hlookup

theorem effect_linkWallet (hs : s.table.Sound) {now : ℤ} {payload : WalletLinkRequest} :
    Effect s (.linkWallet now payload) (s.linkWallet getByUserIdOrPublicKey now payload).1 := by
  unfold Registry.linkWallet
  rw [hlookup]
  cases huser : s.table.ofUser payload.userId with
  | none =>
      have hok : Refreshed s (.linkWallet now payload) := by
        intro w hw hwuser
        rw [hs.ofUser_eq_some_iff.mpr ⟨hw, hwuser⟩] at huser
        cases huser
      dsimp only
      cases (Registry.checkUser payload none).or
          (Registry.checkAddress payload (s.table.ofAddress payload.publicKey)) with
      | some e => exact .quiet hok
      | none =>
          dsimp only
          cases hcreate : s.table.create now payload.userId payload.publicKey payload.funded
              payload.trustlineReady with
          | mk table out =>
              rcases WalletTable.create_cases hcreate with ⟨e, rfl, rfl⟩ | ⟨wallet, rfl, rfl, hfresh, -⟩
              · exact .quiet hok
              · exact .add hfresh hok
  | some wallet =>
      obtain ⟨hwallet, hwalletUser⟩ := hs.ofUser_eq_some_iff.mp huser
      by_cases haddress : wallet.publicKey = payload.publicKey
      · have hother := hs.ofAddress_eq_some_iff.mpr ⟨hwallet, haddress⟩
        simp only [Registry.checkUser, Registry.checkAddress, hother, haddress, hwalletUser, ne_eq,
          not_true_eq_false, if_false, Option.or_none]
        exact .relink hwallet hwalletUser haddress
      · have hok : Refreshed s (.linkWallet now payload) := by
          intro w hw hwuser hwaddress
          rw [hs.ofUser_eq_some_iff.mpr ⟨hw, hwuser⟩, Option.some.injEq] at huser
          exact absurd (huser ▸ hwaddress) haddress
        simp only [Registry.checkUser, haddress, ne_eq, not_false_eq_true, if_true, Option.some_or]
        exact .quiet hok

theorem effect_call (hs : s.table.Sound) (c : Call) : Effect s c (s.call getByUserIdOrPublicKey c) := by
  cases c with
  | createWallet now uuid payload => exact effect_createWallet
  | linkWallet now payload => exact effect_linkWallet hlookup hs
  | getWallet now userId =>
      have hok : Refreshed s (.getWallet now userId) := trivial
      exact effect_fetchWallet hs hok now userId
  | getBalance address =>
      have hok : Refreshed s (.getBalance address) := trivial
      exact effect_fetchByAddress hs hok address
  | getStatus now userId =>
      have hok : Refreshed s (.getStatus now userId) := trivial
      exact effect_fetchWallet hs hok now userId

end Link

theorem keeps_relink (now : ℤ) (payload : WalletLinkRequest) : WalletTable.Keeps (relink now payload) :=
  ⟨fun _ => rfl, fun _ => rfl, fun _ => rfl, fun _ => rfl⟩

theorem keeps_cachedAt (now : ℤ) : WalletTable.Keeps fun r => { r with cachedAt := some now } :=
  ⟨fun _ => rfl, fun _ => rfl, fun _ => rfl, fun _ => rfl⟩

/-- An active wallet is put into the cache. -/
theorem Sound.set (h : Sound s) (htable : table.Sound) {k : Key} {w : Wallet} (hactive : w.active = true) :
    Sound (({ s with table := table } : Registry).set k w) := by
  refine ⟨htable, ?_⟩
  rw [Registry.cached_set]
  intro k' w' hw'
  by_cases hk : k' = k
  · rw [hk, Function.update_self, Option.some.injEq] at hw'
    exact hw' ▸ hactive
  · rw [Function.update_of_ne hk] at hw'
    exact h.active k' w' hw'

theorem Sound.effect {c : Call} {s' : Registry} (h : Sound s) (heffect : Effect s c s') : Sound s' := by
  cases heffect with
  | quiet hok => exact h
  | add hfresh hok => exact h.set (h.table.add hfresh) hfresh.active
  | @relink now payload wallet hwallet huser haddress =>
      have hactive : (relink now payload wallet).active = true := h.table.active wallet hwallet
      exact h.set (h.table.write (keeps_relink now payload)) hactive
  | touch hwallet hok => exact h.set (h.table.write (keeps_cachedAt _)) (h.table.active _ hwallet)
  | fill hwallet hok => exact h.set h.table (h.table.active _ hwallet)

theorem stored_of_mem (hs : s.table.Sound) (hwallet : wallet ∈ s.table.rows) {k : Key}
    (hk : k = .user wallet.userId ∨ k = .addr wallet.publicKey) : s.stored k = some wallet.flags := by
  rcases hk with rfl | rfl
  · simp [Registry.stored, hs.ofUser_eq_some_iff.mpr ⟨hwallet, rfl⟩]
  · simp [Registry.stored, hs.ofAddress_eq_some_iff.mpr ⟨hwallet, rfl⟩]

/-- A write that leaves the flags alone changes nothing of what is stored. -/
theorem stored_write_of_flags {g : WalletORM → WalletORM} (hs : s.table.Sound) (hg : WalletTable.Keeps g)
    (hwallet : wallet ∈ s.table.rows) (hflags : (g wallet).flags = wallet.flags) (k : Key) :
    ({ s with table := (s.table.write wallet g).1 } : Registry).stored k = s.stored k := by
  rw [stored_write hs hg hwallet]
  split
  · rename_i hk
    rw [stored_of_mem hs hwallet hk, hflags]
  · rfl

/-- A link that repeats an earlier one. -/
theorem coherent_relink_iff (hs : s.table.Sound) (h : Coherent s.cached Wallet.flags s.stored) {now : ℤ}
    {payload : WalletLinkRequest} (hwallet : wallet ∈ s.table.rows) (huser : wallet.userId = payload.userId)
    (haddress : wallet.publicKey = payload.publicKey) :
    Coherent (({ s with table := (s.table.write wallet (relink now payload)).1 } : Registry).set
          (.addr wallet.publicKey) (ormToPydantic (relink now payload wallet))).cached Wallet.flags
        (({ s with table := (s.table.write wallet (relink now payload)).1 } : Registry).set
          (.addr wallet.publicKey) (ormToPydantic (relink now payload wallet))).stored
      ↔ Refreshed s (.linkWallet now payload) := by
  have hstored := stored_write hs (keeps_relink now payload) hwallet
  have hfresh := (hstored (.addr wallet.publicKey)).trans (if_pos (.inr rfl))
  have hold : s.stored (.user wallet.userId) = some wallet.flags := stored_of_mem hs hwallet (.inl rfl)
  rw [coherent_set_iff h hfresh]
  constructor
  · intro hother w hw hwuser _ hcached
    have hmine : w = wallet := List.inj_on_of_nodup_map hs.users hw hwallet (hwuser.trans huser.symm)
    have hsame := hother (.user wallet.userId) (by simp) (by rw [huser]; exact hcached)
    rw [hstored, if_pos (.inl rfl), hold, Option.some.injEq] at hsame
    simp only [WalletORM.flags, relink, Flags.mk.injEq] at hsame
    exact hmine ▸ ⟨hsame.1.symm, hsame.2.1.symm⟩
  · intro hok k hne hcached
    rw [hstored]
    split
    · rename_i hk
      rcases hk with rfl | rfl
      · obtain ⟨hfunded, htrustline⟩ := hok wallet hwallet huser haddress (by rw [← huser]; exact hcached)
        rw [hold]
        simp only [WalletORM.flags, relink, hfunded, htrustline]
      · exact absurd rfl hne
    · rfl

/-- A call keeps the cache coherent exactly when it refreshes what it changes. -/
theorem coherent_effect_iff {c : Call} {s' : Registry} (hs : s.table.Sound)
    (h : Coherent s.cached Wallet.flags s.stored) (heffect : Effect s c s') :
    Coherent s'.cached Wallet.flags s'.stored ↔ Refreshed s c := by
  cases heffect with
  | quiet hok => exact iff_of_true h hok
  | @add _ wallet hfresh hok =>
      refine iff_of_true ((coherent_set_iff h ?_).mpr ?_) hok
      · exact (stored_add hfresh _).trans (if_pos (.inr rfl))
      · intro k hne hcached
        obtain ⟨w, hw⟩ := Option.isSome_iff_exists.mp hcached
        rw [stored_add hfresh, if_neg]
        rintro (rfl | rfl)
        · -- the user of a new wallet had none, so nothing was cached
          have hnone := h _ w hw
          rw [Registry.stored, hfresh.user] at hnone
          cases hnone
        · exact hne rfl
  | relink hwallet huser haddress => exact coherent_relink_iff hs h hwallet huser haddress
  | @touch _ now wallet hwallet hok =>
      have hstored : ∀ k, ({ s with table := (s.table.touchCache wallet now).1 } : Registry).stored k = s.stored k :=
        stored_write_of_flags hs (keeps_cachedAt now) hwallet rfl
      refine iff_of_true ((coherent_set_iff h ?_).mpr ?_) hok
      · rw [hstored]
        exact stored_of_mem hs hwallet (.inl rfl)
      · intro k _ _
        exact hstored k
  | @fill _ wallet hwallet hok =>
      refine iff_of_true ((coherent_set_iff h ?_).mpr ?_) hok
      · exact stored_of_mem hs hwallet (.inr rfl)
      · intro k _ _
        rfl

end Steps

/-! ## Sequences of calls -/

theorem sound_init : Sound Registry.init := by
  refine ⟨⟨.nil, .nil, .nil, ?_, ?_, ?_, ?_⟩, ?_⟩ <;> simp [Registry.init, Registry.cached]

theorem coherent_init : Coherent Registry.init.cached Wallet.flags Registry.init.stored := by
  intro k w hw
  cases hw

/-- In a sound state the law is the coherence of the cache. -/
theorem lawful_iff {s : Registry} (hs : Sound s) :
    Lawful s ↔ Coherent s.cached Wallet.flags s.stored :=
  ⟨fun h => (readsAccurate_iff hs).mp h.reads,
    fun h => ⟨hs.table.users, hs.table.addresses, (readsAccurate_iff hs).mpr h⟩⟩

section Runs

variable {getByUserIdOrPublicKey : WalletTable → String → String → Option WalletORM × Option WalletORM}

theorem exists_run
    (getByUserIdOrPublicKey : WalletTable → String → String → Option WalletORM × Option WalletORM)
    (s : Registry) (calls : List Call) :
    ∃ s', run (step getByUserIdOrPublicKey) s calls = some s' := by
  induction calls generalizing s with
  | nil => exact ⟨s, rfl⟩
  | cons c calls ih => exact ih (s.call getByUserIdOrPublicKey c)

/-- Uniqueness and accurate reads hold all along a sequence of calls exactly when no link changes the flags
of a wallet that is cached under its user. -/
theorem reads_accurate_iff
    (hlookup : ∀ t userId publicKey,
      getByUserIdOrPublicKey t userId publicKey = (t.ofUser userId, t.ofAddress publicKey))
    (calls : List Call) :
    (∀ cs s, cs <+: calls → run (step getByUserIdOrPublicKey) Registry.init cs = some s → Lawful s)
      ↔ Guarded (step getByUserIdOrPublicKey) Refreshed Registry.init calls := by
  have hsound : ∀ s c s', Sound s → step getByUserIdOrPublicKey s c = some s' → Sound s' := by
    rintro s c _ hs ⟨⟩
    exact hs.effect (effect_call hlookup hs.table c)
  have hkeep : ∀ s c s', (Sound s ∧ Coherent s.cached Wallet.flags s.stored) →
      step getByUserIdOrPublicKey s c = some s' →
      ((Sound s' ∧ Coherent s'.cached Wallet.flags s'.stored) ↔ Refreshed s c) := by
    rintro s c _ ⟨hs, hcoherent⟩ ⟨⟩
    have heffect := effect_call hlookup hs.table c
    rw [and_iff_right (hs.effect heffect)]
    exact coherent_effect_iff hs.table hcoherent heffect
  obtain ⟨last, hrun⟩ := exists_run getByUserIdOrPublicKey Registry.init calls
  rw [← forall_prefix_iff_guarded hkeep ⟨sound_init, coherent_init⟩ hrun]
  refine forall_congr' fun cs => forall_congr' fun s => forall_congr' fun _ => forall_congr' fun hs => ?_
  have hsound' : Sound s := run_invariant hsound sound_init hs
  rw [lawful_iff hsound', and_iff_right hsound']

end Runs

/-! ## A wallet that is linked again -/

/-- The lookup of both keys. -/
def bothOf (t : WalletTable) (userId publicKey : String) : Option WalletORM × Option WalletORM :=
  (t.ofUser userId, t.ofAddress publicKey)

/-- A user links an address, funded or not. -/
def linkOf (funded : Bool) : WalletLinkRequest where
  userId := "u1"
  publicKey := "GAAAAAAAAAAAAAAAAAAAAAAAAAAAAAAAAAAAAAAAAAAAAAAAAAAAAAAA"
  funded := funded
  trustlineReady := false
  userId_length := by decide
  publicKey_valid := by decide +kernel

/-- The wallet is only read by its address before it is linked again. -/
def readByAddress : List Call :=
  [.linkWallet 0 (linkOf false), .getBalance (linkOf false).publicKey, .linkWallet 1 (linkOf true),
    .getStatus 2 "u1"]

theorem reads_accurate_by_address :
    ∃ s, run (step bothOf) Registry.init readByAddress = some s ∧
      s.stored (.user "u1") = some ⟨true, false, true⟩ ∧ Lawful s := by
  have hrun : run (step bothOf) Registry.init readByAddress = some _ := rfl
  refine ⟨_, hrun, by decide +kernel, ?_⟩
  refine (reads_accurate_iff (fun _ _ _ => rfl) readByAddress).mpr ?_ _ _ List.prefix_rfl hrun
  refine ⟨fun w hw => absurd hw List.not_mem_nil, fun s₁ h₁ => ⟨trivial, fun s₂ h₂ => ⟨?_, fun s₃ h₃ => ⟨trivial, ?_⟩⟩⟩⟩
  · cases h₁
    cases h₂
    intro w _ _ _ hcached
    exact absurd hcached (by decide +kernel)
  · intro s₄ _
    trivial

/-- The wallet is read by its user before it is linked again: the status keeps the old flag. -/
theorem linked_again_unseen :
    ∃ s, run (step bothOf) Registry.init
        [.linkWallet 0 (linkOf false), .getWallet 1 "u1", .linkWallet 2 (linkOf true)] = some s ∧
      s.stored (.user "u1") = some ⟨true, false, true⟩ ∧
      Reports (s.getStatus 3 "u1").2 WalletStatusResponse.flags (some ⟨false, false, true⟩) ∧ ¬ Lawful s := by
  refine ⟨_, rfl, by decide +kernel, by decide +kernel, ?_⟩
  intro h
  exact absurd (h.reads.wallet 3 "u1") (by decide +kernel)

end ApexChainx.Wallets
