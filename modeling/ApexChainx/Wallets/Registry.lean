import Mathlib.Logic.Function.Basic
import ApexChainx.Wallets.Repository

/-!
# The wallet registry

`WalletRegistry` (`app/services/wallet_registry.py`) with one `WalletCache` behind all calls, whose entries
do not expire. The cache keeps a wallet as JSON; the model keeps the wallet that is read back from it. The
lookup of both keys, `get_by_user_id_or_public_key`, is a parameter.
-/

namespace ApexChainx.Wallets

open ApexChainx.Lib

/-! ## Requests and replies -/

/-- `Wallet`. -/
structure Wallet where
  userId : String
  publicKey : String
  createdAt : ℤ
  lastUpdated : ℤ
  funded : Bool
  active : Bool
  trustlineReady : Bool
  cachedAt : Option ℤ
  cacheStatus : String
deriving DecidableEq, Repr

/-- `_orm_to_pydantic`. -/
def ormToPydantic (w : WalletORM) : Wallet where
  userId := w.userId
  publicKey := w.publicKey
  createdAt := w.createdAt
  lastUpdated := w.lastUpdated
  funded := w.funded
  active := w.active
  trustlineReady := w.trustlineReady
  cachedAt := w.cachedAt
  cacheStatus := "fresh"

/-- `_STELLAR_PUBLIC_KEY_RE`. -/
def stellarPublicKey (cs : List Char) : Bool :=
  match withoutFinalNewline cs with
  | 'G' :: rest =>
      rest.length = 55 && rest.all fun c => decide ('A' ≤ c ∧ c ≤ 'Z') || decide ('2' ≤ c ∧ c ≤ '7')
  | _ => false

/-- `WalletCreateRequest`. -/
structure WalletCreateRequest where
  userId : String
  userId_length : 1 ≤ userId.length
deriving DecidableEq, Repr

/-- `WalletLinkRequest`. -/
structure WalletLinkRequest where
  userId : String
  publicKey : String
  funded : Bool
  trustlineReady : Bool
  userId_length : 1 ≤ userId.length
  publicKey_valid : stellarPublicKey publicKey.toList = true
deriving DecidableEq, Repr

/-- `WalletCreateResponse`. -/
structure WalletCreateResponse extends Wallet where
  message : String
deriving DecidableEq, Repr

/-- `AssetBalance`. -/
structure AssetBalance where
  balance : String
  assetType : String
  assetCode : Option String
  assetIssuer : Option String
deriving DecidableEq, Repr

/-- `WalletBalanceResponse`. -/
structure WalletBalanceResponse where
  address : String
  balances : List (String × AssetBalance)
  lastUpdated : ℤ
  cacheStatus : String
  cacheTtlSeconds : Option ℕ
  cachedAt : Option ℤ
deriving DecidableEq, Repr

/-- `WalletStatusResponse`. -/
structure WalletStatusResponse where
  userId : String
  publicKey : String
  funded : Bool
  trustlineReady : Bool
  usable : Bool
  active : Bool
  lastUpdated : ℤ
  cacheStatus : String
  cacheTtlSeconds : Option ℕ
  cachedAt : Option ℤ
deriving DecidableEq, Repr

/-- `ApexConflictError` with its code and fields, or another exception. -/
inductive RegistryError
  | conflict (errorCode detail : String) (fields : List (String × String))
  | raised (e : ApiError)
deriving DecidableEq, Repr

/-! ## The registry -/

/-- The two keys a wallet is cached under. -/
inductive Key
  | user (userId : String)
  | addr (publicKey : String)
deriving DecidableEq, Repr

/-- The Redis key. -/
def Key.text : Key → String
  | .user userId => "wallet:" ++ ("user:" ++ userId)
  | .addr publicKey => "wallet:" ++ ("addr:" ++ publicKey)

/-- The database and the cache. -/
structure Registry where
  table : WalletTable
  cache : String → Option Wallet

namespace Registry

/-- `cache.set`. -/
def set (s : Registry) (k : Key) (wallet : Wallet) : Registry :=
  { s with cache := Function.update s.cache k.text (some wallet) }

/-- `_build_public_key`, with the hexadecimal text that `uuid4` draws. -/
def buildPublicKey (uuid : String) : String := "G" ++ uuid.toUpper

/-- `_already_registered`. -/
def alreadyRegistered (existing : WalletORM) : RegistryError :=
  .conflict "wallet_already_exists"
    ("Wallet " ++ toString existing.id ++ " already registered for user '" ++ existing.userId ++
      "' at address '" ++ existing.publicKey ++ "'.")
    [("wallet_id", toString existing.id), ("user_id", existing.userId), ("public_key", existing.publicKey)]

/-- `create_wallet`. -/
def createWallet (s : Registry) (now : ℤ) (uuid : String) (payload : WalletCreateRequest) :
    Registry × Except RegistryError WalletCreateResponse :=
  match s.table.getByUserId payload.userId with
  | .error e => (s, .error (.raised e))
  | .ok (some existing) => (s, .error (alreadyRegistered existing))
  | .ok none =>
      let publicKey := buildPublicKey uuid
      match s.table.create now payload.userId publicKey false false with
      | (table, .ok orm) =>
          let wallet := ormToPydantic orm
          ({ s with table := table }.set (.addr publicKey) wallet,
            .ok ⟨wallet, "Wallet created. Please fund with at least 1 XLM to activate."⟩)
      | (table, .error (.integrityError constraint)) =>
          match table.getByUserId payload.userId with
          | .ok (some winner) => ({ s with table := table }, .error (alreadyRegistered winner))
          | .ok none => ({ s with table := table }, .error (.raised (.integrityError constraint)))
          | .error e => ({ s with table := table }, .error (.raised e))
      | (table, .error e) => ({ s with table := table }, .error (.raised e))

/-- Check 1 of `link_wallet`: the user is linked to a different address. -/
def checkUser (payload : WalletLinkRequest) : Option WalletORM → Option RegistryError
  | some existing =>
      if existing.publicKey ≠ payload.publicKey then
        some (.conflict "conflict"
          ("User '" ++ payload.userId ++ "' is already linked to wallet '" ++ existing.publicKey ++
            "'. Cannot link to '" ++ payload.publicKey ++ "'.")
          [("user_id", "already linked to a different wallet")])
      else none
  | none => none

/-- Check 2: the address is linked to a different user. -/
def checkAddress (payload : WalletLinkRequest) : Option WalletORM → Option RegistryError
  | some existing =>
      if existing.userId ≠ payload.userId then
        some (.conflict "conflict"
          ("Wallet address '" ++ payload.publicKey ++ "' is already linked to user '" ++ existing.userId ++
            "'. Cannot link to '" ++ payload.userId ++ "'.")
          [("public_key", "already linked to a different user")])
      else none
  | none => none

/-- `link_wallet`. -/
def linkWallet (getByUserIdOrPublicKey : WalletTable → String → String → Option WalletORM × Option WalletORM)
    (s : Registry) (now : ℤ) (payload : WalletLinkRequest) : Registry × Except RegistryError Wallet :=
  let existing := getByUserIdOrPublicKey s.table payload.userId payload.publicKey
  match (checkUser payload existing.1).or (checkAddress payload existing.2) with
  | some e => (s, .error e)
  | none =>
      match existing.1 with
      | some byUser =>
          -- the first check has left only a wallet at the same address
          let updated := s.table.update byUser now (some payload.funded) (some payload.trustlineReady) none
          let wallet := ormToPydantic updated.2
          ({ s with table := updated.1 }.set (.addr wallet.publicKey) wallet, .ok wallet)
      | none =>
          match s.table.create now payload.userId payload.publicKey payload.funded payload.trustlineReady with
          | (table, .ok orm) =>
              let wallet := ormToPydantic orm
              ({ s with table := table }.set (.addr wallet.publicKey) wallet, .ok wallet)
          | (table, .error e) => ({ s with table := table }, .error (.raised e))

/-- `_fetch_wallet`. -/
def fetchWallet (s : Registry) (now : ℤ) (userId : String) :
    Registry × Except RegistryError (Option Wallet) :=
  match s.cache (Key.user userId).text with
  | some cached => (s, .ok (some cached))
  | none =>
      match s.table.getByUserId userId with
      | .error e => (s, .error (.raised e))
      | .ok none => (s, .ok none)
      | .ok (some orm) =>
          let wallet := ormToPydantic orm
          ({ s with table := (s.table.touchCache orm now).1 }.set (.user userId) wallet, .ok (some wallet))

/-- `_fetch_by_address`. -/
def fetchByAddress (s : Registry) (address : String) : Registry × Except RegistryError (Option Wallet) :=
  match s.cache (Key.addr address).text with
  | some cached => (s, .ok (some cached))
  | none =>
      match s.table.getByPublicKey address with
      | .error e => (s, .error (.raised e))
      | .ok none => (s, .ok none)
      | .ok (some orm) =>
          let wallet := ormToPydantic orm
          (s.set (.addr address) wallet, .ok (some wallet))

/-- `get_wallet`. -/
def getWallet (s : Registry) (now : ℤ) (userId : String) : Registry × Except RegistryError (Option Wallet) :=
  s.fetchWallet now userId

/-- The balances a wallet is shown with. -/
def balances (funded trustlineReady : Bool) : List (String × AssetBalance) :=
  ("XLM", ⟨if funded then "1.0000000" else "0.0000000", "native", none, none⟩) ::
    if trustlineReady then [("USDC", ⟨"0.0000000", "credit_alphanum4", some "USDC", some "TEST_ISSUER"⟩)]
    else []

/-- `get_balance`. -/
def getBalance (s : Registry) (address : String) :
    Registry × Except RegistryError (Option WalletBalanceResponse) :=
  let fetched := s.fetchByAddress address
  (fetched.1, fetched.2.map (Option.map fun wallet =>
    { address
      balances := balances wallet.funded wallet.trustlineReady
      lastUpdated := wallet.lastUpdated
      cacheStatus := wallet.cacheStatus
      cacheTtlSeconds := none
      cachedAt := wallet.cachedAt }))

/-- `get_status`. -/
def getStatus (s : Registry) (now : ℤ) (userId : String) :
    Registry × Except RegistryError (Option WalletStatusResponse) :=
  let fetched := s.getWallet now userId
  (fetched.1, fetched.2.map (Option.map fun wallet =>
    { userId := wallet.userId
      publicKey := wallet.publicKey
      funded := wallet.funded
      trustlineReady := wallet.trustlineReady
      usable := wallet.funded && wallet.trustlineReady && wallet.active
      active := wallet.active
      lastUpdated := wallet.lastUpdated
      cacheStatus := wallet.cacheStatus
      cacheTtlSeconds := none
      cachedAt := wallet.cachedAt }))

end Registry

/-- A call, with the clock and the key it draws. -/
inductive Call
  | createWallet (now : ℤ) (uuid : String) (payload : WalletCreateRequest)
  | linkWallet (now : ℤ) (payload : WalletLinkRequest)
  | getWallet (now : ℤ) (userId : String)
  | getBalance (address : String)
  | getStatus (now : ℤ) (userId : String)
deriving DecidableEq, Repr

/-- What a call leaves. -/
def Registry.call (getByUserIdOrPublicKey : WalletTable → String → String → Option WalletORM × Option WalletORM)
    (s : Registry) : Call → Registry
  | .createWallet now uuid payload => (s.createWallet now uuid payload).1
  | .linkWallet now payload => (s.linkWallet getByUserIdOrPublicKey now payload).1
  | .getWallet now userId => (s.getWallet now userId).1
  | .getBalance address => (s.getBalance address).1
  | .getStatus now userId => (s.getStatus now userId).1

/-- Calls one after another; a call always ends. -/
def step (getByUserIdOrPublicKey : WalletTable → String → String → Option WalletORM × Option WalletORM)
    (s : Registry) (c : Call) : Option Registry :=
  some (s.call getByUserIdOrPublicKey c)

/-- No wallet, and nothing in the cache. -/
def Registry.init : Registry := ⟨⟨[], 1⟩, fun _ => none⟩

end ApexChainx.Wallets
