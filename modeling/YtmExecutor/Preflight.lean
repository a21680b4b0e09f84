/-
The preflight of a leased command.

`preflightGates` is the whole list of local gates, in the order of the source; a gate
that objects ends it with a decision, and an exception ends it too.  What passes every
gate is a `Cleared` command, for which `brokerPhase` picks an adapter and runs it.  No
broker is called anywhere else.
-/
import YtmExecutor.Client
import YtmExecutor.OkxSwap.Adapter
import YtmExecutor.Risk

namespace YtmExecutor

open Python Decimal Interaction

def validationTtlSeconds : ℤ := 24 * 60 * 60

/-- The adapters of the real mode that never place an order. -/
def validateOnlyRealAdapters : List String :=
  [binanceUsdmFuturesMainnetOrderTestAdapter, okxSwapMainnetOrderPrecheckAdapter]

def realOrderAdapters : List String := [okxSwapMainnetOrderAdapter]

structure CommandPreflightDecision where
  status : String
  resultPayload : Dict

/-- Everything a preflight is given besides the leased item. -/
structure PreflightInputs where
  localCredentials : List CredentialSummary
  localSecretResolver : Option (String → String → Except PyError Secret)
  riskPolicy : Option RiskPolicy
  riskState : Option RiskState
  /-- What the final loader returns or raises, if there is one. -/
  finalRiskPolicyLoader : Option (Except PyError RiskPolicy)
  validationSummaries : List Value
  realOrderPlacementEnabled : Bool
  now : Instant

/-- How the gates end before the last one: with a decision or with an exception. -/
inductive Exit where
  | decided (decision : CommandPreflightDecision)
  | raised (e : PyError)

section Decisions

variable [Runtime]

def decision (status : String) (resultPayload : Dict) :
    Except PyError CommandPreflightDecision := do
  rejectSecretFields [] (.dict resultPayload)
  return ⟨status, resultPayload⟩

def rejection (reasonCode reason : String) (extra : Dict) :
    Except PyError CommandPreflightDecision :=
  decision "rejected" (Dict.update
    [("executorAction", "local_preflight_failed"), ("preflight", "failed"),
      ("preflightReasonCode", reasonCode), ("reason", reason), ("zeroSecret", .bool true)] extra)

/-- A gate that objects. -/
def reject {α : Type} (reasonCode reason : String) (extra : Dict) : Except Exit α :=
  match rejection reasonCode reason extra with
  | .ok d => .error (.decided d)
  | .error e => .error (.raised e)

/-- A gate that objects when `c` holds. -/
def rejectIf (c : Prop) [Decidable c] (reasonCode reason : String) (extra : Dict) :
    Except Exit Unit :=
  if c then reject reasonCode reason extra else .ok ()

/-- A step of the gates whose exceptions are not caught. -/
def raising {α : Type} : Except PyError α → Except Exit α
  | .ok a => .ok a
  | .error e => .error (.raised e)

/-! ### The validation gate -/

def checkedAt (summary : Dict) : Except PyError (Option Instant) :=
  match summary.get "checkedAt" with
  | .str text =>
      if text = "" then .ok none
      else
        match Runtime.fromIsoFormat (replaceChar 'Z' "+00:00" text) with
        | .ok t => .ok (some t)
        | .error (.valueError _) => .ok none
        | .error e => .error e
  | _ => .ok none

/-- `datetime.min` in UTC. -/
def minInstant : Instant := -62135596800 * microsecondsPerSecond

/-- A summary with the instant it is ranked by. -/
def ranked (summary : Dict) : Except PyError (Instant × Dict) := do
  return ((← checkedAt summary).getD minInstant, summary)

/-- The later of two ranked summaries; of two equal ones the first. -/
def laterOf (a b : Instant × Dict) : Instant × Dict := if a.1 < b.1 then b else a

/-- The records of a provider. -/
def providerSummaries (provider : String) (summaries : List Value) : List Dict :=
  (summaries.filterMap Value.dict?).filter fun summary => (summary.get "provider").text = provider

/-- `permissions.accountReadable is True`. -/
def accountReadable (validation : Dict) : Bool :=
  match validation.get "permissions" with
  | .dict permissions => (Dict.get permissions "accountReadable").isTrue
  | _ => false

/-- Objections to the record that counts. -/
def validationRecordGate (validation : Dict) (now : Instant) : Except Exit Unit := do
  rejectIf ((validation.get "status").text ≠ "passed")
    "credential_validation_failed" "local broker credential validation failed" []
  match ← raising (checkedAt validation) with
  | none =>
      reject "credential_validation_invalid" "local broker credential validation is invalid" []
  | some checkedAt =>
      rejectIf (now - checkedAt < -300 * microsecondsPerSecond)
        "credential_validation_invalid" "local broker credential validation is invalid" []
      rejectIf (validationTtlSeconds * microsecondsPerSecond < now - checkedAt)
        "credential_validation_stale" "local broker credential validation is stale" []
      rejectIf (accountReadable validation = false) "credential_validation_account_not_readable"
        "local broker credential validation did not confirm account access" []

def validationBlock (provider : String) (validationSummaries : List Value) (now : Instant) :
    Except Exit Unit := do
  match ← raising ((providerSummaries provider validationSummaries).mapM ranked) with
  | [] => reject "credential_validation_required" "local broker credential is not validated" []
  | summary :: rest => validationRecordGate (rest.foldl laterOf summary).2 now

/-! ### The gates -/

def adapterName (command : Dict) : String :=
  match command.get "commandPayload" with
  | .dict payload => ((Dict.get payload "adapter").pyOr (Dict.get payload "adapterMode")).text
  | _ => ""

/-- A command that passed every local gate. -/
structure Cleared where
  command : Dict
  executionMode : ExecutionMode
  request : BrokerOrderRequest

/-- The execution modes a provider backs. -/
def executionModeOf (text : String) : Option ExecutionMode :=
  [ExecutionMode.externalPaper, .real].find? fun mode => mode.text = text

variable (ctx : Context)

def commandProvider (command : Dict) : String := (command.get "provider").text

/-- The command of a leased item, if it has no secret-like keys. -/
def leasedCommand (item : Dict) : Except Exit Dict :=
  match item.get "command" with
  | .dict command =>
      match rejectSecretFields [] (.dict command) with
      | .ok () => .ok command
      | .error _ =>
          reject "command_contains_secret_fields" "command contains secret-like fields" []
  | _ => reject "command_missing" "leased item does not contain a command" []

/-- The execution mode, if it is one a provider backs. -/
def executionModeGate (command : Dict) : Except Exit ExecutionMode :=
  match executionModeOf (command.get "executionMode").text with
  | some executionMode => .ok executionMode
  | none => reject "unsupported_execution_mode" "execution mode is not provider-backed" []

/-- The gates on what the command says of itself. -/
def commandGates (item : Dict) (inputs : PreflightInputs) :
    Except Exit (Dict × ExecutionMode) := do
  let command ← leasedCommand item
  let provider := commandProvider command
  rejectIf (provider = "") "provider_missing" "command provider is missing" []
  let executionMode ← executionModeGate command
  rejectIf ((command.get "executionAccountSource").text ≠ "provider")
    "execution_account_source_mismatch" "execution account source is not provider" []
  rejectIf (provider ∉ inputs.localCredentials.map (·.provider))
    "local_credential_missing" "local broker credential is not configured" []
  return (command, executionMode)

/-- A risk decision that has to be a pass. -/
def riskGate (command : Dict) (executionMode : ExecutionMode) (policy : Option RiskPolicy)
    (inputs : PreflightInputs) (fallbackCode fallbackReason : String) (extra : Dict) :
    Except Exit Unit := do
  let riskDecision ← raising (evaluateCommandRisk ctx command executionMode
    (policy.getD missingRiskPolicy) (inputs.riskState.getD emptyRiskState) inputs.now)
  rejectIf (riskDecision.passed = false) (riskDecision.reasonCode.getD fallbackCode)
    (riskDecision.reason.getD fallbackReason) extra

/-- The request, or a rejection with what is wrong with it. -/
def orderRequestGate (command : Dict) (executionMode : ExecutionMode) :
    Except Exit BrokerOrderRequest :=
  match buildOrderRequest command executionMode with
  | .ok request => .ok request
  | .error (.valueError message) => reject "adapter_order_request_invalid" message
      [("adapterPreflight", "failed"), ("riskPreflight", "passed")]
  | .error e => .error (.raised e)

/-- The real mode only runs adapters it knows, and placing has to be enabled. -/
def realAdapterGate (command : Dict) (executionMode : ExecutionMode) (inputs : PreflightInputs) :
    Except Exit Unit := do
  rejectIf (executionMode = .real
      ∧ adapterName command ∉ validateOnlyRealAdapters ++ realOrderAdapters)
    "real_execution_disabled" "real execution is disabled in this executor build"
    [("adapterPreflight", "blocked"), ("riskPreflight", "passed")]
  rejectIf (executionMode = .real ∧ adapterName command ∈ realOrderAdapters
      ∧ inputs.realOrderPlacementEnabled = false)
    "real_execution_disabled" "real order placement requires explicit local executor enablement"
    [("adapterPreflight", "blocked"), ("riskPreflight", "passed")]

/-- The policy loaded right before a real order. -/
def finalPolicy (inputs : PreflightInputs) : Except Exit (Option RiskPolicy) :=
  match inputs.finalRiskPolicyLoader with
  | none => .ok inputs.riskPolicy
  | some (.ok policy) => .ok (some policy)
  | some (.error (.valueError message)) => reject "risk_final_policy_invalid" message
      [("adapterPreflight", "blocked"), ("riskPreflight", "passed")]
  | some (.error e) => .error (.raised e)

/-- Right before a real order the policy is loaded and evaluated again. -/
def finalRiskGate (command : Dict) (executionMode : ExecutionMode) (inputs : PreflightInputs) :
    Except Exit Unit :=
  if executionMode = .real ∧ adapterName command ∈ realOrderAdapters then do
    riskGate ctx command executionMode (← finalPolicy inputs) inputs
      "risk_final_preflight_failed" "final local risk preflight failed"
      [("adapterPreflight", "blocked"), ("finalRiskPreflight", "failed"),
        ("riskPreflight", "passed")]
  else .ok ()

/-- All gates, in order. -/
def preflightGates (item : Dict) (inputs : PreflightInputs) : Except Exit Cleared := do
  let (command, executionMode) ← commandGates item inputs
  validationBlock (commandProvider command) inputs.validationSummaries inputs.now
  riskGate ctx command executionMode inputs.riskPolicy inputs "risk_preflight_failed"
    "local risk preflight failed" [("riskPreflight", "failed")]
  let request ← orderRequestGate command executionMode
  realAdapterGate command executionMode inputs
  finalRiskGate ctx command executionMode inputs
  return { command, executionMode, request }

/-! ### The adapter -/

inductive ChosenAdapter where
  | disabled
  | okxPrecheck (keys : OkxKeys)
  | okxPlacement (keys : OkxKeys)
  | binanceOrderTest (keys : BinanceKeys)

/-- `_text(secret.get(field))`. -/
def secretField (secret : Secret) (field : String) : String := strip ((secret.lookup field).getD "")

/-- The name of the credential a command asks for. -/
def credentialName (command : Dict) : String :=
  let name := (command.get "credentialName").text
  if name = "" then "main" else name

def okxAdapterForCommand (command : Dict) (name provider : String) (executionMode : ExecutionMode)
    (localSecretResolver : Option (String → String → Except PyError Secret)) :
    Except PyError ChosenAdapter := do
  raiseIf (provider ≠ "okx") "OKX SWAP mainnet adapter requires provider=okx"
  match localSecretResolver with
  | none => throw (.valueError "local OKX credential is required for SWAP mainnet adapter")
  | some resolve =>
      let secret ← resolve provider (credentialName command)
      let keys : OkxKeys := ⟨secretField secret "apiKey", secretField secret "apiSecret",
        secretField secret "passphrase"⟩
      raiseIf (keys.apiKey = "" ∨ keys.apiSecret = "" ∨ keys.passphrase = "")
        "local OKX API key, secret, and passphrase are required"
      if name = okxSwapMainnetOrderAdapter then do
        raiseIf (executionMode ≠ .real) "OKX SWAP order placement requires executionMode=real"
        return .okxPlacement keys
      else return .okxPrecheck keys

def binanceAdapterForCommand (command : Dict) (provider : String) (executionMode : ExecutionMode)
    (localSecretResolver : Option (String → String → Except PyError Secret)) :
    Except PyError ChosenAdapter := do
  raiseIf (provider ≠ "binance") "Binance Futures mainnet adapter requires provider=binance"
  raiseIf (executionMode ≠ .real) "Binance Futures mainnet order test requires executionMode=real"
  match localSecretResolver with
  | none => throw (.valueError "local Binance credential is required for Futures mainnet adapter")
  | some resolve =>
      let secret ← resolve provider (credentialName command)
      let keys : BinanceKeys := ⟨secretField secret "apiKey", secretField secret "apiSecret"⟩
      raiseIf (keys.apiKey = "" ∨ keys.apiSecret = "")
        "local Binance API key and secret are required for Futures mainnet adapter"
      return .binanceOrderTest keys

def adapterForCommand (cleared : Cleared)
    (localSecretResolver : Option (String → String → Except PyError Secret)) :
    Except PyError ChosenAdapter :=
  let name := adapterName cleared.command
  if name ∈ [okxSwapMainnetOrderPrecheckAdapter, okxSwapMainnetOrderAdapter] then
    okxAdapterForCommand cleared.command name (commandProvider cleared.command) cleared.executionMode
      localSecretResolver
  else if name ≠ binanceUsdmFuturesMainnetOrderTestAdapter then .ok .disabled
  else
    binanceAdapterForCommand cleared.command (commandProvider cleared.command) cleared.executionMode
      localSecretResolver

variable [BinanceSdk]

/-- `adapter.prepare_order(request)`. -/
def prepareOrder (adapter : ChosenAdapter) (request : BrokerOrderRequest) :
    Executor BrokerAdapterResult :=
  match adapter with
  | .disabled => Prog.ofExcept (disabledPrepareOrder ctx request)
  | .okxPrecheck keys => okxPrecheckPrepareOrder ctx (fun op => Prog.perform (.okx keys op)) request
  | .okxPlacement keys =>
      okxPlacementPrepareOrder ctx (fun op => Prog.perform (.okx keys op)) request
  | .binanceOrderTest keys =>
      Binance.prepareOrder ctx (fun op => Prog.perform (.binance keys op)) request

/-! ### The decision -/

/-- A text entry of the adapter's payload that is repeated in the result. -/
def repeatedEntry (adapterPayload : Dict) (key : String) : Dict :=
  match adapterPayload.get key with
  | .str text => textEntry key (some text)
  | _ => []

def acknowledgeRealOrderPlacement (adapterPayload : Dict) (provider : String) :
    Except PyError CommandPreflightDecision :=
  decision "acknowledged"
    (([("adapterPreflight", "passed"), ("adapterResult", .dict adapterPayload),
        ("executionMode", "real"),
        ("executorAction", ((adapterPayload.get? "executorAction").getD "order_submitted").toText),
        ("finalRiskPreflight", "passed"), ("preflight", "passed"), ("provider", provider),
        ("riskPreflight", "passed"), ("zeroSecret", .bool true)] : Dict)
      ++ repeatedEntry adapterPayload "clientOrderId"
      ++ repeatedEntry adapterPayload "providerOrderId"
      ++ repeatedEntry adapterPayload "providerStatus")

def acknowledgeWithoutOrderPlacement (adapterPayload : Dict) (provider : String)
    (executionMode : ExecutionMode) : Except PyError CommandPreflightDecision :=
  decision "acknowledged"
    [("executionMode", executionMode.text), ("executorAction", "order_placement_skipped"),
      ("adapterPreflight", "passed"), ("adapterResult", .dict adapterPayload),
      ("preflight", "passed"), ("provider", provider),
      ("reason", ((adapterPayload.get? "reason").getD
        "broker adapters are not enabled in this foundation build").toText),
      ("riskPreflight", "passed"), ("zeroSecret", .bool true)]

/-- The decision on a command whose adapter returned a result. -/
def resultDecision (cleared : Cleared) (adapterResult : BrokerAdapterResult) :
    Except PyError CommandPreflightDecision :=
  if cleared.executionMode = .real ∧ adapterName cleared.command ∈ validateOnlyRealAdapters then
    rejection "real_execution_disabled"
      "real order placement is disabled in this executor build after validate-only preflight"
      [("adapterPreflight", "passed"), ("adapterResult", .dict adapterResult.payload),
        ("riskPreflight", "passed")]
  else if cleared.executionMode = .real then
    acknowledgeRealOrderPlacement adapterResult.payload (commandProvider cleared.command)
  else
    acknowledgeWithoutOrderPlacement adapterResult.payload (commandProvider cleared.command)
      cleared.executionMode

/-- Pick the adapter and run it; the decision if one of the two raises a `ValueError`. -/
def runAdapter (cleared : Cleared) (inputs : PreflightInputs) :
    Executor (CommandPreflightDecision ⊕ BrokerAdapterResult) :=
  (do
    let adapter ← adapterForCommand cleared inputs.localSecretResolver
    let adapterResult ← prepareOrder ctx adapter cleared.request
    return .inr adapterResult : Executor (CommandPreflightDecision ⊕ BrokerAdapterResult)).handle
  (takeValueError fun message => Prog.ofExcept
    ((rejection "adapter_preflight_failed" message
      [("adapterPreflight", "failed"), ("riskPreflight", "passed")]).map .inl))

def brokerPhase (cleared : Cleared) (inputs : PreflightInputs) :
    Executor CommandPreflightDecision := do
  match ← runAdapter ctx cleared inputs with
  | .inl d => return d
  | .inr adapterResult => resultDecision cleared adapterResult

def preflightCommand (item : Dict) (inputs : PreflightInputs) :
    Executor CommandPreflightDecision :=
  match preflightGates ctx item inputs with
  | .ok cleared => brokerPhase ctx cleared inputs
  | .error (.decided d) => .done d
  | .error (.raised e) => .raise e

end Decisions

end YtmExecutor
