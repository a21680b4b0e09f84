/-
The policy's file, and `risk init`, which writes it.

A policy is checked before it is written and after it is read.  What is written is less
than what is read: two switches, the paper-only gate and the two limits.  Everything
else a file may say is still read and checked.
-/
import YtmExecutor.RiskState
import Mathlib.Data.List.Sort

namespace YtmExecutor

open Python Decimal

/-! ### What a policy may say -/

def Risk.supportedMarkets : List String := ["okx_swap", "usdm_futures"]

def Risk.supportedOrderTypes : List String := ["limit", "market", "stop", "stop_limit", "stop_market"]

def Risk.supportedPositionModes : List String := ["one_way"]

/-- The complaint about the values that are not supported, sorted and each once. -/
def unsupportedError (label : String) (values supported : List String) : List String :=
  match ((values.filter fun value => value ∉ supported).dedup).insertionSort (· ≤ ·) with
  | [] => []
  | invalid => ["unsupported " ++ label ++ ": " ++ join ", " invalid]

/-- The complaint about a limit that is not positive; comparing a NaN raises. -/
def limitError (fieldName : String) : Option Number → Except PyError (List String)
  | none => .ok []
  | some value => do
      if ← raiseSignal (value.le (.finite (.ofInt 0))) then
        return [fieldName ++ " must be positive"]
      return []

def symbolLimitErrors : List (String × Number) → Except PyError (List String)
  | [] => .ok []
  | (symbol, value) :: rest => do
      let error ← limitError ("maxSymbolNotional." ++ symbol) (some value)
      return error ++ (← symbolLimitErrors rest)

def policyConfigurationErrors (policy : RiskPolicy) : Except PyError (List String) := do
  let disabled :=
    if !policy.enabled && !policy.killSwitch then
      ["disabled risk policy must keep killSwitch enabled"]
    else []
  let positionMode :=
    if policy.positionMode ∉ Risk.supportedPositionModes then
      ["unsupported position mode: " ++ policy.positionMode]
    else []
  let orderNotional ← limitError "maxOrderNotional" policy.maxOrderNotional
  let positionNotional ← limitError "maxPositionNotional" policy.maxPositionNotional
  let dailyLoss ← limitError "maxDailyLoss" policy.maxDailyLoss
  let totalDrawdown ← limitError "maxTotalDrawdown" policy.maxTotalDrawdown
  let symbolNotional ← symbolLimitErrors policy.maxSymbolNotional
  return disabled ++ unsupportedError "markets" policy.allowedMarkets Risk.supportedMarkets ++
    unsupportedError "margin modes" policy.allowedMarginModes supportedMarginModes ++
    positionMode ++ unsupportedError "order types" policy.allowedOrderTypes Risk.supportedOrderTypes ++
    orderNotional ++ positionNotional ++ dailyLoss ++ totalDrawdown ++ symbolNotional

/-- Raise what is wrong with a policy, if anything is. -/
def checkConfiguration (policy : RiskPolicy) : Except PyError Unit := do
  let errors ← policyConfigurationErrors policy
  raiseIf (errors ≠ []) (join "; " errors)

/-- The texts that are not blank once normalized, each once. -/
def uniqueTexts (normalize : String → String) (values : List String) : List String :=
  values.foldl (fun result value =>
    let normalized := normalize value
    if normalized = "" ∨ normalized ∈ result then result else result ++ [normalized]) []

section File

variable [Runtime] (ctx : Context)

/-! ### Reading -/

def boolField (payload : Dict) (key : String) (default : Bool) : Except PyError Bool :=
  match (payload.get? key).getD (.bool default) with
  | .bool b => .ok b
  | _ => .error (.valueError (key ++ " must be boolean"))

def stringItems : List Value → Except PyError (List String)
  | [] => .ok []
  | .str item :: rest => do return item :: (← stringItems rest)
  | _ => .error (.valueError "risk policy list fields must be string arrays")

/-- A list of texts, normalized; it may be absent. -/
def textTuple (normalize : String → String) : Value → Except PyError (List String)
  | .none => .ok []
  | .list items => do return uniqueTexts normalize (← stringItems items)
  | _ => .error (.valueError "risk policy list fields must be string arrays")

def normalizedTextTuple : Value → Except PyError (List String) :=
  textTuple fun item => upper (strip item)

def normalizedLowerTextTuple : Value → Except PyError (List String) :=
  textTuple fun item => Risk.normalizedLowerText "" (.str item)

def normalizedOrderTypes : Value → Except PyError (List String) :=
  textTuple fun item => replaceChar '-' "_" (lower (strip item))

def symbolDecimals (fieldName : String) (result : List (String × Number)) :
    Dict → Except PyError (List (String × Number))
  | [] => .ok result
  | (.str rawSymbol, rawLimit) :: rest => do
      raiseIf (strip rawSymbol = "") (fieldName ++ " symbols must be strings")
      let symbol := upper (strip rawSymbol)
      let limit ← rawLimit.toPositive (fieldName ++ "." ++ symbol)
      symbolDecimals fieldName (ByDate.put result symbol (.finite limit.toFinite)) rest
  | _ => .error (.valueError (fieldName ++ " symbols must be strings"))

def normalizedSymbolDecimalMap (fieldName : String) : Value →
    Except PyError (List (String × Number))
  | .none => .ok []
  | .dict limits => symbolDecimals fieldName [] limits
  | _ => .error (.valueError (fieldName ++ " must be an object"))

/-- `value == 1`. -/
def equalsOne : Value → Bool
  | .int n => decide (n = 1)
  | .bool b => b
  | .float text => decide (text = "1.0")
  | _ => false

def readRiskPolicy : Option Value → Except PyError RiskPolicy
  | none => .ok missingRiskPolicy
  | some (.dict payload) => do
      rejectSecretFields [] (.dict payload)
      raiseIf (equalsOne ((Dict.get? payload "version").getD (.int 1)) = false)
        "risk policy version is unsupported"
      let enabled ← boolField payload "enabled" true
      let killSwitch ← boolField payload "killSwitch" true
      let paperOnly ← boolField payload "paperOnly" true
      let allowedMarkets ← normalizedLowerTextTuple (Dict.get payload "allowedMarkets")
      let allowedMarginModes ← normalizedLowerTextTuple (Dict.get payload "allowedMarginModes")
      let allowedSymbols ← normalizedTextTuple (Dict.get payload "allowedSymbols")
      let allowedOrderTypes ← normalizedOrderTypes (Dict.get payload "allowedOrderTypes")
      let maxOrderNotional ←
        optionalPositive (Dict.get payload "maxOrderNotional") "maxOrderNotional"
      let maxPositionNotional ←
        optionalPositive (Dict.get payload "maxPositionNotional") "maxPositionNotional"
      let maxSymbolNotional ←
        normalizedSymbolDecimalMap "maxSymbolNotional" (Dict.get payload "maxSymbolNotional")
      let maxDailyLoss ← optionalPositive (Dict.get payload "maxDailyLoss") "maxDailyLoss"
      let maxTotalDrawdown ←
        optionalPositive (Dict.get payload "maxTotalDrawdown") "maxTotalDrawdown"
      let maxLeverage ←
        ((Dict.get? payload "maxLeverage").getD (.str "1")).toPositive "maxLeverage"
      let positionMode :=
        Risk.normalizedLowerText "one_way" (Dict.get payload "positionMode")
      let policy : RiskPolicy :=
        { configured := true
          enabled, killSwitch, paperOnly
          allowedMarkets, allowedMarginModes, allowedSymbols, allowedOrderTypes
          maxOrderNotional, maxPositionNotional, maxSymbolNotional
          maxDailyLoss, maxTotalDrawdown
          maxLeverage := .finite maxLeverage.toFinite
          positionMode }
      checkConfiguration policy
      return policy
  | some _ => .error (.valueError "risk policy must be a JSON object")

/-! ### Writing -/

/-- The entry of a limit, if there is one. -/
def limitEntry (key : String) : Option Number → Except PyError Dict
  | none => .ok []
  | some limit => do return [(.str key, .str (← numberText ctx limit))]

def riskPolicyToFilePayload (policy : RiskPolicy) : Except PyError Dict := do
  let maxDailyLoss ← limitEntry ctx "maxDailyLoss" policy.maxDailyLoss
  let maxTotalDrawdown ← limitEntry ctx "maxTotalDrawdown" policy.maxTotalDrawdown
  let payload : Dict := [("enabled", .bool policy.enabled),
    ("killSwitch", .bool policy.killSwitch), ("paperOnly", .bool policy.paperOnly),
    ("version", .int 1)]
  return payload ++ maxDailyLoss ++ maxTotalDrawdown

/-- The content of the file written for a policy. -/
def writeRiskPolicy (policy : RiskPolicy) : Except PyError Value := do
  checkConfiguration policy
  return .dict (← riskPolicyToFilePayload ctx policy)

/-! ### The policy of `risk init` -/

structure RiskInitArgs where
  allowMarket : List String
  allowMarginMode : List String
  allowSymbol : List String
  allowOrderType : List String
  maxOrderNotional : Option String
  maxPositionNotional : Option String
  maxSymbolNotional : List String
  maxDailyLoss : Option String
  maxTotalDrawdown : Option String
  maxLeverage : String
  positionMode : String
  allowReal : Bool
  killSwitchOff : Bool

def optionalDecimalArg : Option String → Except PyError (Option Number)
  | none => .ok none
  | some value => do return some (← decimalOfText value)

/-- The limits of `SYMBOL=VALUE` arguments. -/
def symbolNotionalLimits (result : List (String × Number)) :
    List String → Except PyError (List (String × Number))
  | [] => .ok result
  | value :: rest => do
      let chars := value.toList
      let symbol := upper (strip (String.ofList (chars.takeWhile (· ≠ '='))))
      let limit := strip (String.ofList ((chars.dropWhile (· ≠ '=')).drop 1))
      raiseIf ('=' ∉ chars ∨ symbol = "" ∨ limit = "")
        "max-symbol-notional must use SYMBOL=VALUE format"
      symbolNotionalLimits (ByDate.put result symbol (← decimalOfText limit)) rest

def riskPolicyFromArgs (args : RiskInitArgs) : Except PyError RiskPolicy := do
  let lowerText := fun value => strip (replaceChar '-' "_" (lower value))
  let maxOrderNotional ← optionalDecimalArg args.maxOrderNotional
  let maxPositionNotional ← optionalDecimalArg args.maxPositionNotional
  let maxSymbolNotional ← symbolNotionalLimits [] args.maxSymbolNotional
  let maxDailyLoss ← optionalDecimalArg args.maxDailyLoss
  let maxTotalDrawdown ← optionalDecimalArg args.maxTotalDrawdown
  let maxLeverage ← decimalOfText args.maxLeverage
  let policy : RiskPolicy :=
    { configured := true
      enabled := true
      killSwitch := !args.killSwitchOff
      paperOnly := !args.allowReal
      allowedMarkets := uniqueTexts lowerText args.allowMarket
      allowedMarginModes := uniqueTexts lowerText args.allowMarginMode
      allowedSymbols := uniqueTexts (fun value => upper (strip value)) args.allowSymbol
      allowedOrderTypes := uniqueTexts lowerText args.allowOrderType
      maxOrderNotional, maxPositionNotional, maxSymbolNotional, maxDailyLoss, maxTotalDrawdown
      maxLeverage
      positionMode := lower (strip args.positionMode) }
  raiseIf (!policy.killSwitch ∧ policyCompletenessBlocks policy ≠ [])
    (join "; " (policyCompletenessBlocks policy))
  return policy

end File

end YtmExecutor
