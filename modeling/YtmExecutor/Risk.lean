/-
The local fail-safe for leased commands.

The policy is the owner's: a kill switch, a paper-only gate and two account-level
drawdown limits.  `evaluateCommandRisk` decides on a command from the policy, the stored
risk state and the day.  Comparing a number with a NaN raises, so a decision may also be
an exception; a policy or state read from a file holds no NaN.
-/
import YtmExecutor.Command
import YtmExecutor.Guards
import YtmExecutor.Python.Datetime

namespace YtmExecutor

open Python Decimal

structure RiskPolicy where
  configured : Bool
  enabled : Bool
  killSwitch : Bool
  paperOnly : Bool
  allowedMarkets : List String
  allowedMarginModes : List String
  allowedSymbols : List String
  allowedOrderTypes : List String
  maxOrderNotional : Option Number
  maxPositionNotional : Option Number
  maxSymbolNotional : List (String × Number)
  maxDailyLoss : Option Number
  maxTotalDrawdown : Option Number
  maxLeverage : Number
  positionMode : String

structure RiskState where
  realizedLossByDate : List (String × Number)
  dailyEquityOpenByDate : List (String × Number)
  initialEquity : Option Number
  currentEquity : Option Number

/-- The state before any snapshot. -/
def emptyRiskState : RiskState := ⟨[], [], none, none⟩

structure RiskDecision where
  passed : Bool
  reasonCode : Option String
  reason : Option String
  deriving DecidableEq

def missingRiskPolicy : RiskPolicy where
  configured := false
  enabled := false
  killSwitch := true
  paperOnly := true
  allowedMarkets := []
  allowedMarginModes := []
  allowedSymbols := []
  allowedOrderTypes := []
  maxOrderNotional := none
  maxPositionNotional := none
  maxSymbolNotional := []
  maxDailyLoss := none
  maxTotalDrawdown := none
  maxLeverage := .finite (.ofInt 1)
  positionMode := "one_way"

def pass : RiskDecision := ⟨true, none, none⟩

def block (reasonCode reason : String) : RiskDecision := ⟨false, some reasonCode, some reason⟩

@[simp] theorem passed_pass : pass.passed = true := rfl

@[simp] theorem passed_block (reasonCode reason : String) :
    (block reasonCode reason).passed = false := rfl

/-- No limit is required of a policy: the trading limits are the cloud's. -/
def policyCompletenessBlocks (_policy : RiskPolicy) : List String := []

def futuresMarkets : List String := ["okx_swap", "usdm_futures"]

def supportedMarginModes : List String := ["cross", "isolated"]

namespace Risk

/-! ### Reading fields -/

section Texts

variable [Runtime]

def normalizedLowerText (default : String) : Value → String
  | .str s => replaceChar '-' "_" (lower (strip s))
  | _ => default

def boolLike : Value → Option Bool
  | .bool b => some b
  | .str s =>
      let normalized := lower (strip s)
      if normalized ∈ ["true", "1", "yes"] then some true
      else if normalized ∈ ["false", "0", "no"] then some false
      else none
  | _ => none

/-! ### The futures gate -/

/-- The market the gate goes by. -/
def commandMarket (command : Dict) : String :=
  normalizedLowerText "" (commandField command ["market", "brokerMarket", "exchangeMarket"])

/-- The margin mode the gate goes by. -/
def commandMarginMode (command : Dict) : String :=
  normalizedLowerText "" (commandField command ["marginMode", "marginType"])

def commandPositionMode (command : Dict) : String :=
  normalizedLowerText "one_way" (commandField command ["positionMode"])

def commandClosePosition (command : Dict) : Option Bool :=
  boolLike (commandField command ["closePosition"])

def commandReduceOnly (command : Dict) : Option Bool :=
  boolLike (commandField command ["reduceOnly"])

def commandPositionEffect (command : Dict) : String :=
  normalizedLowerText "" (commandField command ["positionEffect", "effect"])

/-- What the futures gate objects to, if anything. -/
def evaluateFuturesRisk (command : Dict) (market : String) : Option RiskDecision :=
  if market ∉ futuresMarkets then none
  else if commandMarginMode command = "" then
    some (block "risk_futures_margin_mode_missing" "command futures margin mode is missing")
  else if commandMarginMode command ∉ supportedMarginModes then
    some (block "risk_futures_margin_mode_unsupported"
      "command futures margin mode is unsupported")
  else if commandPositionMode command ≠ "one_way" then
    some (block "risk_futures_position_mode_unsupported"
      "command futures position mode is unsupported")
  else if commandClosePosition command = some true then
    some (block "risk_futures_close_position_unsupported" "closePosition is not enabled")
  else if commandPositionEffect command = "open" ∧ commandReduceOnly command = some true then
    some (block "risk_futures_reduce_only_open" "open commands cannot be reduceOnly")
  else if commandPositionEffect command ∈ ["reduce", "close"]
      ∧ commandReduceOnly command = some false then
    some (block "risk_futures_reduce_only_required"
      "reduce/close commands cannot disable reduceOnly")
  else none

end Texts

/-! ### The drawdown gates -/

/-- The stop on today's loss. -/
def dailyLossGate (mode : ExecutionMode) (policy : RiskPolicy) (state : RiskState)
    (today : String) : Except PyError (Option RiskDecision) :=
  match mode, policy.maxDailyLoss with
  | .real, some limit =>
      match state.realizedLossByDate.lookup today with
      | none => .ok (some (block "risk_state_missing" "local daily drawdown state is missing"))
      | some currentLoss => do
          if ← raiseSignal (currentLoss.ge limit) then
            return some (block "risk_daily_loss_exceeded" "local daily loss limit is reached")
          return none
  | _, _ => .ok none

/-- The stop on the drawdown since the first snapshot. -/
def totalDrawdownGate (ctx : Context) (mode : ExecutionMode) (policy : RiskPolicy)
    (state : RiskState) : Except PyError (Option RiskDecision) :=
  match mode, policy.maxTotalDrawdown with
  | .real, some limit =>
      match state.initialEquity, state.currentEquity with
      | some initial, some current => do
          let currentDrawdown ← raiseSignal (initial.sub ctx current)
          if ← raiseSignal (currentDrawdown.ge limit) then
            return some (block "risk_total_drawdown_exceeded"
              "local total drawdown limit is reached")
          return none
      | _, _ =>
          .ok (some (block "risk_state_missing" "local total drawdown state is missing"))
  | _, _ => .ok none

/-- `riskControls.source` of the payload is `ytm`. -/
def riskControlsAttested (command : Dict) : Bool :=
  match (commandPayload command).get "riskControls" with
  | .dict attestation => (Dict.get attestation "source").isText "ytm"
  | _ => false

end Risk

/-! ### The decision -/

section Decision

variable [Runtime] (ctx : Context)

open Risk

def evaluateCommandRisk (command : Dict) (mode : ExecutionMode) (policy : RiskPolicy)
    (state : RiskState) (now : Instant) : Except PyError RiskDecision := do
  if !policy.configured then
    return block "risk_policy_missing" "local fail-safe policy is not configured"
  if !policy.enabled then
    return block "risk_policy_disabled" "local fail-safe policy is disabled"
  if policy.killSwitch then
    return block "risk_kill_switch_enabled" "local fail-safe kill switch is enabled"
  if mode = .real ∧ policy.paperOnly then
    return block "risk_paper_only" "local fail-safe allows paper execution only"
  if let reason :: _ := policyCompletenessBlocks policy then
    return block "risk_policy_incomplete" reason
  if mode = .real ∧ !riskControlsAttested command then
    return block "risk_controls_missing" "real commands require YTM risk-controls attestation"
  let market := commandMarket command
  if market = "" then
    return block "risk_market_missing" "command market is missing"
  if let some futuresBlock := evaluateFuturesRisk command market then
    return futuresBlock
  if let some decision ← dailyLossGate mode policy state (utcDate now) then
    return decision
  if let some decision ← totalDrawdownGate ctx mode policy state then
    return decision
  return pass

/-- What the cloud is told of the policy: whether a limit is set, and never the limit. -/
def riskPolicyPublicSummary (policy : RiskPolicy) : Except PyError Dict := do
  let payload : Dict :=
    [("appManagedTradingLimits", .bool true), ("configured", .bool policy.configured),
      ("enabled", .bool policy.enabled), ("killSwitch", .bool policy.killSwitch),
      ("limits", .dict [("maxDailyLoss", .bool policy.maxDailyLoss.isSome),
        ("maxTotalDrawdown", .bool policy.maxTotalDrawdown.isSome)]),
      ("paperOnly", .bool policy.paperOnly)]
  rejectSecretFields [] (.dict payload)
  return payload

end Decision

end YtmExecutor
