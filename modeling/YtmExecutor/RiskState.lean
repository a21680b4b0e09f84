/-
The stored risk state: what the account was worth at first, at the start of each day,
and last.

The state lives in a JSON file.  An update reads the file, folds in the equity a
reconciliation snapshot reports, and writes the file again.  A file is the JSON value in
it, or nothing; the order of an object's entries is not observed.
-/
import YtmExecutor.Risk

namespace YtmExecutor

open Python Decimal

/-- `value or other` of optional numbers: nothing and zero give way. -/
def numberOr (value other : Option Number) : Option Number :=
  match value with
  | none => other
  | some (.finite d) => if d.val = 0 then other else value
  | some _ => value

/-! ### Amounts by date -/

namespace ByDate

/-- `amounts[date] = amount`. -/
def put : List (String × Number) → String → Number → List (String × Number)
  | [], date, amount => [(date, amount)]
  | (d, a) :: rest, date, amount =>
      if d = date then (d, amount) :: rest else (d, a) :: put rest date amount

/-- `amounts.setdefault(date, amount)`. -/
def setDefault (amounts : List (String × Number)) (date : String) (amount : Number) :
    List (String × Number) :=
  if (amounts.lookup date).isSome then amounts else put amounts date amount

@[simp] theorem lookup_put_self (amounts : List (String × Number)) (date : String)
    (amount : Number) : (put amounts date amount).lookup date = some amount := by
  induction amounts with
  | nil => simp [put]
  | cons entry rest ih =>
      rw [put]
      by_cases h : entry.1 = date
      · simp [h]
      · have hne : (date == entry.1) = false := by simpa using fun heq => h heq.symm
        rw [if_neg h, List.lookup_cons, hne]
        exact ih

theorem lookup_setDefault_self (amounts : List (String × Number)) (date : String)
    (amount : Number) :
    (setDefault amounts date amount).lookup date = some ((amounts.lookup date).getD amount) := by
  unfold setDefault
  cases h : amounts.lookup date with
  | none => simp
  | some a => simp [h]

end ByDate

/-! ### The file -/

section File

variable [Runtime] (ctx : Context)

def nonNegativeDecimal (v : Value) (fieldName : String) : Except PyError Finite := do
  let d ← v.toFinite fieldName
  raiseIf (d.val < 0) (fieldName ++ " must be non-negative")
  return d

theorem nonNegativeDecimal_eq_ok {v : Value} {fieldName : String} {d : Finite} :
    nonNegativeDecimal v fieldName = .ok d ↔ v.toFinite fieldName = .ok d ∧ 0 ≤ d.val := by
  simp only [nonNegativeDecimal, bind_eq_ok, raiseIf_eq_ok, not_lt]
  constructor
  · rintro ⟨d', hd, _, hnonneg, h⟩
    rw [← Except.ok.inj h]
    exact ⟨hd, hnonneg⟩
  · rintro ⟨hd, hnonneg⟩
    exact ⟨d, hd, (), hnonneg, rfl⟩

/-- A limit or an equity that has to be positive if it is there. -/
def optionalPositive (v : Value) (fieldName : String) : Except PyError (Option Number) :=
  match v with
  | .none => .ok none
  | v => do return some (.finite (← v.toPositive fieldName).toFinite)

def readAmounts (fieldName : String) : Dict → Except PyError (List (String × Number))
  | [] => .ok []
  | (.str date, v) :: rest => do
      let amount ← nonNegativeDecimal v (fieldName ++ "." ++ date)
      return (date, .finite amount) :: (← readAmounts fieldName rest)
  | _ => .error (.valueError "risk state dates must be strings")

/-- One of the two objects of the file; it may be absent. -/
def readAmountsField (payload : Dict) (fieldName : String) :
    Except PyError (List (String × Number)) :=
  match (payload.get? fieldName).getD (.dict []) with
  | .dict amounts => readAmounts fieldName amounts
  | _ => .error (.valueError ("risk state " ++ fieldName ++ " must be an object"))

def readRiskState : Option Value → Except PyError RiskState
  | none => .ok emptyRiskState
  | some (.dict payload) => do
      rejectSecretFields [] (.dict payload)
      let losses ← readAmountsField payload "realizedLossByDate"
      let dailyEquity ← readAmountsField payload "dailyEquityOpenByDate"
      let initialEquity ← optionalPositive (Dict.get payload "initialEquity") "initialEquity"
      let currentEquity ← optionalPositive (Dict.get payload "currentEquity") "currentEquity"
      return ⟨losses, dailyEquity, initialEquity, currentEquity⟩
  | some _ => .error (.valueError "risk state must be a JSON object")

def numberText (n : Number) : Except PyError String := raiseSignal (n.toText ctx)

def numberValue : Option Number → Except PyError Value
  | none => .ok .none
  | some n => do return .str (← numberText ctx n)

def amountEntries : List (String × Number) → Except PyError Dict
  | [] => .ok []
  | (date, amount) :: rest => do
      let text ← numberText ctx amount
      return (.str date, .str text) :: (← amountEntries rest)

/-- The content of the file written for a state. -/
def writeRiskState (state : RiskState) : Except PyError Value := do
  let currentEquity ← numberValue ctx state.currentEquity
  let dailyEquity ← amountEntries ctx state.dailyEquityOpenByDate
  let initialEquity ← numberValue ctx state.initialEquity
  let losses ← amountEntries ctx state.realizedLossByDate
  let payload : Value := .dict
    [("currentEquity", currentEquity), ("dailyEquityOpenByDate", .dict dailyEquity),
      ("initialEquity", initialEquity), ("realizedLossByDate", .dict losses),
      ("version", .int 1)]
  rejectSecretFields [] payload
  return payload

/-! ### The update -/

/-- The value of a balance row in dollars, unless the row is of another currency or blank. -/
def usdRowValue : Value → Option Value
  | .dict item =>
      let currency := upper ((Dict.get item "currency").pyOr "").toText
      if currency ∉ ["USDT", "USD"] then none
      else
        let value := (Dict.get item "usdEquity").pyOr (Dict.get item "equity")
        if value.isNoneOrEmpty then none else some value
  | _ => none

/-- The values of the dollar rows of a snapshot. -/
def usdRowValues (snapshot : Dict) : List Value :=
  match snapshot.get "balances" with
  | .list items => items.filterMap usdRowValue
  | _ => []

/-- The larger of two numbers; of equal ones the first. -/
def larger (a b : Finite) : Finite := if a.val < b.val then b else a

def snapshotUsdEquity (snapshot : Dict) : Except PyError (Option Finite) := do
  match ← (usdRowValues snapshot).mapM fun v => nonNegativeDecimal v "balance.usdEquity" with
  | [] => return none
  | candidate :: rest => return some (rest.foldl larger candidate)

/-- The loss of the day, or zero. -/
def dayLoss (opening current : Number) : Except PyError Number := do
  let loss ← raiseSignal (opening.sub ctx current)
  if ← raiseSignal (Number.lt (.finite (.ofInt 0)) loss) then return loss
  return .finite (.ofInt 0)

/-- The state after a snapshot was folded into it. -/
def nextRiskState (current : RiskState) (today : String) (equity : Option Finite) :
    Except PyError RiskState := do
  let currentEquity := equity.map Number.finite
  let initialEquity := numberOr current.initialEquity currentEquity
  match currentEquity with
  | none =>
      return { current with
        initialEquity := initialEquity
        currentEquity := numberOr currentEquity current.currentEquity }
  | some amount =>
      let dailyOpen := ByDate.setDefault current.dailyEquityOpenByDate today amount
      let opening := (dailyOpen.lookup today).getD amount
      let loss ← dayLoss ctx opening amount
      return ⟨ByDate.put current.realizedLossByDate today loss, dailyOpen, initialEquity,
        numberOr currentEquity current.currentEquity⟩

/-- The file after an update; when the update raises, the file stays as it was. -/
def updateRiskStateFromReconciliationSnapshot (file : Option Value) (snapshot : Dict)
    (now : Instant) : Except PyError (RiskState × Value) := do
  let current ← readRiskState file
  let equity ← snapshotUsdEquity snapshot
  let nextState ← nextRiskState ctx current (utcDate now) equity
  let content ← writeRiskState ctx nextState
  return (nextState, content)

end File

end YtmExecutor
