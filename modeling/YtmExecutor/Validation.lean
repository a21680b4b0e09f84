/-
The validation of a broker credential.

`broker validate` asks the broker for the account behind a credential and keeps a summary
of what it said: whether the account could be read, how much is in it, and a fingerprint
of it.  The secret goes to the broker and nowhere else.  What a broker's library does is
a call that the world answers; a library may be missing.

A request that fails is a failed summary, with the reason and nothing of the broker's own
words.  Other exceptions leave the program, and then there is no summary; so does a
missing OKX library, because the client is built outside of the `try`.
-/
import YtmExecutor.Client
import YtmExecutor.Python.Hashlib

namespace YtmExecutor

open Python Interaction

namespace Validation

/-! ### Brokers -/

inductive AccessLevel where
  | fullAccess
  | readOnly
  | noAccess
  | other
  deriving DecidableEq

/-- An account of T-Bank, its texts as Python writes them. -/
structure TbankAccount where
  id : String
  status : String
  type : String
  level : String
  accessLevel : AccessLevel

inductive ValidationCall where
  /-- `urlopen` of a GET request, and reading the reply as JSON. -/
  | getJson (url : String) (headers : List (String × String))
  | getAccountConfig (keys : OkxKeys)
  | getAccountBalance (keys : OkxKeys)
  | getPositions (keys : OkxKeys) (instType : String)
  | getAccounts (token : String)

/-- What comes back: a value, an HTTP or URL error of `urllib`, or accounts. -/
inductive Reply where
  | value (v : Value)
  | httpError (statusCode : ℕ)
  | urlError
  | accounts (accounts : List TbankAccount)

/-- A program of the validation. -/
abbrev Validator (α : Type) := Prog ValidationCall Reply PyError α

/-- The broker libraries that can be imported. -/
structure Libraries where
  okx : Bool
  tTech : Bool

def brokerValidationError (reason : String) : PyError := .other "BrokerValidationError" reason

/-- `except BrokerValidationError as exc`. -/
def onBrokerValidationError {α : Type} (h : String → Validator α) : PyError → Option (Validator α)
  | .other kind reason => if kind = "BrokerValidationError" then some (h reason) else none
  | _ => none

def unexpectedReply : PyError := .other "TypeError" "unexpected reply"

/-! ### Summaries -/

section Summaries

variable [Runtime]

/-- `_required_text(secret.get(field), label)`. -/
def requiredSecret (secret : Secret) (field label : String) : Except PyError String :=
  storeRequiredText ((secret.lookup field).elim .none .str) label

/-- `_iso_z`: the instant in whole seconds. -/
def isoZ (t : Instant) : String := utcTimestamp (t - t % microsecondsPerSecond)

def fingerprint (provider : String) (parts : List String) : String :=
  provider ++ ":" ++ String.ofList ((sha256Hex (join "|" parts)).toList.take 16)

/-- An entry that is there when its text is. -/
def textEntry (key : String) : Option String → Dict
  | none => []
  | some text => if text = "" then [] else [(.str key, .str text)]

def summary (provider name checkedAt status : String) (permissions : Dict)
    (warnings : List String) (accountFingerprint failureReason : Option String) : Dict :=
  ([("checkedAt", checkedAt), ("name", name), ("permissions", .dict permissions),
    ("provider", provider), ("status", status), ("warnings", .list (warnings.map .str))] : Dict)
    ++ textEntry "accountFingerprint" accountFingerprint ++ textEntry "failureReason" failureReason

def failedProviderSummary (provider name checkedAt failureReason : String) : Dict :=
  summary provider name checkedAt "failed"
    [("accountReadable", .bool false), ("tradingAllowed", .bool false)] [failureReason] none
    failureReason

/-- The summary of a request that failed. -/
def failedRequest (provider name checkedAt reason : String) : Validator Dict :=
  return failedProviderSummary provider name checkedAt
    (if reason = "" then "broker_request_failed" else reason)

def httpFailureReason (statusCode : ℕ) : String :=
  if statusCode ∈ [400, 401, 403] then "credential_rejected"
  else if statusCode = 429 then "broker_rate_limited"
  else "broker_request_failed"

/-! ### Binance -/

/-- What `get_json` makes of the reply. -/
def jsonObject : Reply → Except PyError Dict
  | .value (.dict payload) => .ok payload
  | .value _ => .error (brokerValidationError "broker_returned_non_object")
  | .httpError statusCode => .error (brokerValidationError (httpFailureReason statusCode))
  | .urlError => .error (brokerValidationError "broker_request_failed")
  | .accounts _ => .error unexpectedReply

/-- `UrlLibJsonGetTransport.get_json`. -/
def getJson (url : String) (headers : List (String × String)) : Validator Dict := do
  jsonObject (← Prog.perform (.getJson url headers))

/-- `len` of a field that should be a list. -/
def listLength (payload : Dict) (key : String) : ℕ :=
  match payload.get key with
  | .list items => items.length
  | _ => 0

def flagText (b : Bool) : String := if b then "True" else "False"

def binanceWarnings (canTrade canWithdraw : Bool) : List String :=
  (if canTrade then [] else ["trading_not_allowed"]) ++
    if canWithdraw then ["withdrawals_allowed"] else []

/-- The summary of an account that Binance let be read. -/
def binanceSummary (name checkedAt : String) (payload : Dict) : Dict :=
  let canTrade := (payload.get "canTrade").isTrue
  let canWithdraw := (payload.get "canWithdraw").isTrue
  let assetCount := listLength payload "assets"
  let positionCount := listLength payload "positions"
  let accountType := "USDS_M_FUTURES"
  summary "binance" name checkedAt "passed"
    [("accountReadable", .bool true), ("tradingAllowed", .bool canTrade),
      ("withdrawalsAllowed", .bool canWithdraw), ("brokerAccountType", accountType),
      ("market", "usdm_futures"), ("assetCount", .int assetCount),
      ("positionCount", .int positionCount)]
    (binanceWarnings canTrade canWithdraw)
    (fingerprint "binance" [accountType, ((payload.get "feeTier").pyOr "").toText,
      ((payload.get "multiAssetsMargin").pyOr "").toText, toString assetCount,
      toString positionCount, flagText canTrade])
    none

/-- The signed URL of the account. -/
def binanceUrl (privateMaterial : String) (timestampMs : ℤ) : String :=
  let query := "recvWindow=5000&timestamp=" ++ toString timestampMs
  "https://fapi.binance.com/fapi/v3/account?" ++ query ++ "&signature="
    ++ hmacSha256Hex privateMaterial query

def validateBinance (name : String) (secret : Secret) (checkedAt : String) (timestampMs : ℤ) :
    Validator Dict := do
  let publicId ← requiredSecret secret "apiKey" "api_key"
  let privateMaterial ← requiredSecret secret "apiSecret" "api_secret"
  Prog.handle (onBrokerValidationError (failedRequest "binance" name checkedAt)) do
    return binanceSummary name checkedAt
      (← getJson (binanceUrl privateMaterial timestampMs) [("X-MBX-APIKEY", publicId)])

/-! ### T-Bank -/

def tbankFingerprintPart (account : TbankAccount) : String :=
  account.id ++ ":" ++ account.status ++ ":" ++ account.type ++ ":" ++ account.level

def accessCount (level : AccessLevel) (accounts : List TbankAccount) : ℕ :=
  (accounts.filter fun account => account.accessLevel = level).length

def tbankWarnings (accounts : List TbankAccount) : List String :=
  (if accounts = [] then ["no_accounts_visible"] else []) ++
    if accessCount .fullAccess accounts = 0 then ["no_full_access_accounts"] else []

/-- The summary of the accounts that T-Bank let be seen, if any. -/
def tbankSummary (name checkedAt : String) (accounts : List TbankAccount) : Dict :=
  let parts := (accounts.map tbankFingerprintPart).insertionSort (· ≤ ·)
  summary "tbank" name checkedAt (if accounts = [] then "failed" else "passed")
    [("accountReadable", .bool (decide (accounts ≠ []))),
      ("tradingAllowed", .bool (decide (0 < accessCount .fullAccess accounts))),
      ("accountCount", .int accounts.length),
      ("fullAccessAccountCount", .int (accessCount .fullAccess accounts)),
      ("readOnlyAccountCount", .int (accessCount .readOnly accounts)),
      ("noAccessAccountCount", .int (accessCount .noAccess accounts))]
    (tbankWarnings accounts)
    (if accounts = [] then none else some (fingerprint "tbank" parts))
    (if accounts = [] then some "no_accounts_visible" else none)

/-- `list(response.accounts)`. -/
def accountsOf : Reply → Except PyError (List TbankAccount)
  | .accounts accounts => .ok accounts
  | _ => .error unexpectedReply

/-- `client.users.get_accounts()`. -/
def getAccounts (token : String) : Validator (List TbankAccount) := do
  accountsOf (← Prog.perform (.getAccounts token))

/-- `except Exception`. -/
def onException {α : Type} (p : Validator α) (_ : PyError) : Option (Validator α) := some p

def validateTbank (libraries : Libraries) (name : String) (secret : Secret) (checkedAt : String) :
    Validator Dict := do
  let brokerAccess ← requiredSecret secret "token" "token"
  if libraries.tTech then
    Prog.handle
        (onException (failedRequest "tbank" name checkedAt "broker_request_failed")) do
      return tbankSummary name checkedAt (← getAccounts brokerAccess)
  else failedRequest "tbank" name checkedAt "adapter_dependency_missing"

/-! ### OKX -/

/-- `_okx_data`: the records of a reply. -/
def okxData (endpoint : String) : Reply → Except PyError (List Dict)
  | .value (.dict response) => do
      let code := ((Dict.get response "code").pyOr "").toText
      if code ≠ "0" then
        if code ∈ ["50113", "50119"] then throw (brokerValidationError "credential_rejected")
        throw (brokerValidationError "broker_request_failed")
      let data := (Dict.get? response "data").getD (.list [])
      match (if data.isNoneOrEmpty then .list [] else data : Value) with
      | .list items =>
          if items.all fun item => item.dict?.isSome then return items.filterMap Value.dict?
          throw (brokerValidationError (endpoint ++ "_invalid"))
      | _ => throw (brokerValidationError (endpoint ++ "_invalid"))
  | .value _ => .error (brokerValidationError "broker_returned_non_object")
  | _ => .error unexpectedReply

/-- `_okx_single_data`. -/
def okxSingleData (endpoint : String) (reply : Reply) : Except PyError Dict := do
  match ← okxData endpoint reply with
  | [] => throw (brokerValidationError (endpoint ++ "_empty"))
  | record :: _ => return record

/-- The summary of an account that OKX let be read. -/
def okxSummary (name checkedAt : String) (config : Dict) (balances positions : List Dict) : Dict :=
  summary "okx" name checkedAt "passed"
    [("accountReadable", .bool true), ("brokerAccountType", "OKX"), ("market", "okx_swap"),
      ("positionCount", .int positions.length), ("tradingAllowed", .bool false),
      ("tradingPermissionCheck", "order_precheck_required"), ("withdrawalsAllowed", .bool false)]
    ["trade_permission_not_verified_by_read_only_validation"]
    (fingerprint "okx" [((config.get "acctLv").pyOr "").toText,
      ((config.get "posMode").pyOr "").toText, toString balances.length,
      toString positions.length])
    none

/-- `_build_okx_account_api`. -/
def buildOkxAccountApi (libraries : Libraries) (secret : Secret) : Except PyError OkxKeys := do
  if !libraries.okx then throw (brokerValidationError "adapter_dependency_missing")
  let apiKey ← requiredSecret secret "apiKey" "api_key"
  let apiSecret ← requiredSecret secret "apiSecret" "api_secret"
  let passphrase ← requiredSecret secret "passphrase" "passphrase"
  return ⟨apiKey, apiSecret, passphrase⟩

def validateOkx (libraries : Libraries) (name : String) (secret : Secret) (checkedAt : String) :
    Validator Dict := do
  let keys ← buildOkxAccountApi libraries secret
  Prog.handle (onBrokerValidationError (failedRequest "okx" name checkedAt)) do
    let config ← okxSingleData "account_config" (← Prog.perform (.getAccountConfig keys))
    let balances ← okxData "account_balance" (← Prog.perform (.getAccountBalance keys))
    let positions ← okxData "positions" (← Prog.perform (.getPositions keys "SWAP"))
    return okxSummary name checkedAt config balances positions

/-! ### Any of them -/

/-- The provider is unknown. -/
def unsupportedSummary (provider name checkedAt : String) : Dict :=
  failedProviderSummary provider name checkedAt "unsupported_provider"

def validateBrokerCredential (libraries : Libraries) (provider name : String) (secret : Secret)
    (now : Instant) (timestampMs : ℤ) : Validator Dict := do
  let normalizedProvider ← storeRequiredText provider "provider"
  let normalizedName ← storeRequiredText name "name"
  let checkedAt := isoZ now
  if normalizedProvider = "binance" then
    validateBinance normalizedName secret checkedAt timestampMs
  else if normalizedProvider = "okx" then validateOkx libraries normalizedName secret checkedAt
  else if normalizedProvider = "tbank" then validateTbank libraries normalizedName secret checkedAt
  else return unsupportedSummary normalizedProvider normalizedName checkedAt

end Summaries

end Validation

end YtmExecutor
