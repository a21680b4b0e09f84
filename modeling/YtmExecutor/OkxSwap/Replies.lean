/-
What OKX is asked and what its replies are taken to say.

Nothing is known of a reply but that it is a value.  `okxResponseData` is the one door
every reply comes through: a dict with code `0` whose data is a list of dicts without
secret-like keys.  Everything else raises, and the functions after it raise on items
that do not say what they should.
-/
import YtmExecutor.OkxSwap.Orders

namespace YtmExecutor

open Python Decimal

/-- The calls of the OKX API. -/
inductive OkxCall where
  | getAccountConfig
  | getInstruments (instType instId : String)
  | getPositions (instType instId : String)
  | setLeverage (params : LeverageParams)
  | getOrder (instId clOrdId : String)
  | orderPrecheck (params : OrderParams)
  | placeOrder (params : OrderParams)
  | orderAlgosPending (instType instId ordType : String)
  | placeAlgoOrder (params : AlgoParams)

/-- The calls that change something at OKX. -/
def OkxCall.isStateChanging : OkxCall → Bool
  | .setLeverage _ | .placeOrder _ | .placeAlgoOrder _ => true
  | _ => false

def okxAlgoOrderTypes : List String := ["conditional", "oco", "trigger", "move_order_stop"]

/-! ### Reading fields of a reply -/

/-- The text of a field, stripped; nothing of a blank or of anything but a text. -/
def okxOptionalText : Value → Option String
  | .str s => nonBlank s
  | _ => none

def okxRequiredText (v : Value) (fieldName : String) : Except PyError String :=
  match okxOptionalText v with
  | some text => .ok text
  | none => .error (.valueError ("OKX " ++ fieldName ++ " is required"))

section Fields

variable [Runtime] (ctx : Context)

def okxRequiredPositiveDecimal (v : Value) (fieldName : String) : Except PyError Positive :=
  v.toPositive ("OKX " ++ fieldName)

def okxOptionalDecimal (v : Value) (fieldName : String) : Except PyError (Option Finite) :=
  if v.isNoneOrEmpty then .ok none
  else do return some (← v.toFinite ("OKX " ++ fieldName))

theorem okxOptionalDecimal_onlyValueErrors (v : Value) (fieldName : String) :
    OnlyValueErrors (okxOptionalDecimal v fieldName) := by
  unfold okxOptionalDecimal
  split
  · exact OnlyValueErrors.ok _
  · exact (v.toFinite_onlyValueErrors _).bind fun _ _ => OnlyValueErrors.ok _

/-- Taking the absolute value rounds to the context. -/
def okxOptionalAbsDecimal (v : Value) (fieldName : String) : Except PyError (Option ℚ) := do
  match ← okxOptionalDecimal v fieldName with
  | some d => return some (← raiseSignal (ctx.fix |d.val|))
  | none => return none

end Fields

/-! ### Replies -/

/-- The items of a list that are all dicts. -/
def dictItems : List Value → Option (List Dict)
  | [] => some []
  | .dict entries :: rest => (dictItems rest).map (entries :: ·)
  | _ => none

theorem dictItems_eq_some {values : List Value} {items : List Dict} :
    dictItems values = some items ↔ values = items.map .dict := by
  induction values generalizing items with
  | nil => cases items <;> simp [dictItems]
  | cons v rest ih =>
      cases v with
      | dict entries =>
          simp only [dictItems, Option.map_eq_some_iff]
          constructor
          · rintro ⟨items, hrest, rfl⟩
            rw [ih.mp hrest]
            rfl
          · intro h
            cases items with
            | nil => cases h
            | cons item items =>
                simp only [List.map_cons, List.cons.injEq, Value.dict.injEq] at h
                exact ⟨items, ih.mpr h.2, by rw [h.1]⟩
      | none | bool | int | float | str | list | tuple => cases items <;> simp [dictItems]

/-- `code and message` of a rejected request. -/
def rejectedMessage (endpoint code : String) (message : Option String) : String :=
  "OKX " ++ endpoint ++ " rejected request with code " ++ code
    ++ (match message with | some message => ": " ++ message | none => "")

section Replies

variable [Runtime]

def okxResponseData (response : Value) (endpoint : String) : Except PyError (List Dict) :=
  match response with
  | .dict fields => do
      let code := ((Dict.get fields "code").pyOr "").toText
      raiseIf (code ≠ "0") (rejectedMessage endpoint (if code = "" then "unknown" else code)
        (okxOptionalText (Dict.get fields "msg")))
      let data := (Dict.get? fields "data").getD (.list [])
      let items := if data.isNoneOrEmpty then some [] else (data.list?).bind dictItems
      match items with
      | some items =>
          rejectSecretFields [] (.list (items.map .dict))
          return items
      | none => throw (.valueError ("OKX " ++ endpoint ++ " response data is invalid"))
  | _ => .error (.valueError ("OKX " ++ endpoint ++ " response is invalid"))

/-- The items under `data`. -/
def dataItems (fields : Dict) : Option (List Dict) :=
  let data := (Dict.get? fields "data").getD (.list [])
  if data.isNoneOrEmpty then some [] else (data.list?).bind dictItems

omit [Runtime] in
theorem dataItems_eq_some {fields : Dict} {items : List Dict} :
    dataItems fields = some items ↔ Dict.get? fields "data" = some (.list (items.map .dict)) ∨
      items = [] ∧ (Dict.get fields "data").isNoneOrEmpty = true := by
  unfold dataItems Dict.get
  cases Dict.get? fields "data" with
  | none => simp [Value.isNoneOrEmpty, Value.list?, dictItems, eq_comm]
  | some data =>
      cases data with
      | list values => simp [Value.isNoneOrEmpty, Value.list?, dictItems_eq_some]
      | str text =>
          by_cases h : text = ""
          · simp [Value.isNoneOrEmpty, h, eq_comm]
          · simp [Value.isNoneOrEmpty, Value.list?, h]
      | none => simp [Value.isNoneOrEmpty, eq_comm]
      | bool | int | float | tuple | dict => simp [Value.isNoneOrEmpty, Value.list?]

/-- A reply is read as its items when it has code `0` and the items are clean. -/
theorem okxResponseData_eq_ok {v : Value} {endpoint : String} {items : List Dict} :
    okxResponseData v endpoint = .ok items ↔
      ∃ fields, v = .dict fields ∧ ((Dict.get fields "code").pyOr "").toText = "0" ∧
        dataItems fields = some items ∧ ∀ item ∈ items, passesGuard (.dict item) = true := by
  have hguard {items : List Dict} : rejectSecretFields [] (.list (items.map .dict)) = .ok () ↔
      ∀ item ∈ items, passesGuard (.dict item) = true := by
    rw [rejectSecretFields_eq_ok, passesGuard, itemsPassGuard_iff, List.forall_mem_map]
  constructor
  · intro h
    unfold okxResponseData at h
    split at h
    · rename_i fields
      obtain ⟨_, hcode, h⟩ := bind_eq_ok.mp h
      rw [raiseIf_eq_ok, not_not] at hcode
      dsimp only at h
      split at h
      · rename_i found hfound
        obtain ⟨_, hpass, h⟩ := bind_eq_ok.mp h
        cases h
        exact ⟨fields, rfl, hcode, hfound, hguard.mp hpass⟩
      · cases h
    · cases h
  · rintro ⟨fields, rfl, hcode, hdata, hpass⟩
    refine bind_eq_ok.mpr ⟨(), raiseIf_eq_ok.mpr (not_not.mpr hcode), ?_⟩
    show (match dataItems fields with
      | some items => _
      | none => _) = _
    rw [hdata]
    exact bind_eq_ok.mpr ⟨(), hguard.mpr hpass, rfl⟩

theorem okxResponseData_onlyValueErrors (response : Value) (endpoint : String) :
    OnlyValueErrors (okxResponseData response endpoint) := by
  unfold okxResponseData
  split
  · refine (OnlyValueErrors.raiseIf _ _).bind fun _ _ => ?_
    dsimp only
    split
    · exact (rejectSecretFields_onlyValueErrors _ _).bind fun _ _ => OnlyValueErrors.ok _
    · exact OnlyValueErrors.valueError _
  · exact OnlyValueErrors.valueError _

/-- The rules an instrument's item gives. -/
def instrumentRulesOf (item : Dict) : Except PyError OkxSwapInstrumentRules := do
  let instId ← okxRequiredText (item.get "instId") "instId"
  let instType ← okxRequiredText (item.get "instType") "instType"
  let state ← okxRequiredText (item.get "state") "state"
  let contractValue ← okxRequiredPositiveDecimal (item.get "ctVal") "ctVal"
  let lotSize ← okxRequiredPositiveDecimal (item.get "lotSz") "lotSz"
  let tickSize ← okxRequiredPositiveDecimal (item.get "tickSz") "tickSz"
  let minSize ← okxRequiredPositiveDecimal (item.get "minSz") "minSz"
  let rules : OkxSwapInstrumentRules :=
    { instId := upper instId, instType := upper instType, state := lower state, contractValue,
      lotSize, tickSize, minSize }
  raiseIf (rules.instType ≠ "SWAP") "OKX instrument is not SWAP"
  raiseIf (rules.state ≠ "live") "OKX SWAP instrument is not live"
  return rules

def okxSwapInstrumentRules (items : List Dict) (instId : String) :
    Except PyError OkxSwapInstrumentRules :=
  let normalized := okxSwapInstrumentId instId
  match items.find? fun item => upper ((item.get "instId").pyOr "").toText = normalized with
  | some item => instrumentRulesOf item
  | none => .error (.valueError ("OKX SWAP instrument is not found: " ++ normalized))

/-- The account's mode, as the code goes on with it. -/
structure AccountConfig where
  acctLv : String
  posMode : String

def AccountConfig.toDict (config : AccountConfig) : Dict :=
  [("acctLv", config.acctLv), ("posMode", config.posMode)]

def validatedAccountConfig : List Dict → Except PyError AccountConfig
  | [] => .error (.valueError "OKX account config response data is empty")
  | config :: _ => do
      let accountLevel := (okxOptionalText (config.get "acctLv")).getD ""
      let positionMode := (okxOptionalText (config.get "posMode")).getD ""
      raiseIf (accountLevel ∉ ["2", "3"])
        "OKX account mode must be Futures or Multi-currency margin"
      raiseIf (positionMode ≠ "net_mode") "OKX position mode must be net_mode"
      let payload : AccountConfig := ⟨accountLevel, positionMode⟩
      rejectSecretFields [] (.dict payload.toDict)
      return payload

/-- The item of a leverage reply that confirms what was asked. -/
def confirmsLeverage (expected : LeverageParams) (item : Dict) : Bool :=
  decide (okxOptionalText (item.get "lever") = some expected.lever
    ∧ okxOptionalText (item.get "mgnMode") = some expected.mgnMode
    ∧ ((okxOptionalText (item.get "instId")).getD expected.instId) = expected.instId)

def verifiedSetLeveragePayload (items : List Dict) (expected : LeverageParams) :
    Except PyError Dict :=
  match items, items.find? (confirmsLeverage expected) with
  | [], _ => .error (.valueError "OKX set_leverage response data is empty")
  | _, some item => do
      let payload : Dict :=
        ([("instId", (okxOptionalText (item.get "instId")).getD expected.instId),
          ("lever", expected.lever), ("mgnMode", expected.mgnMode), ("verified", "true")] : Dict)
        ++ optionalEntry "posSide" (okxOptionalText (item.get "posSide"))
      rejectSecretFields [] (.dict payload)
      return payload
  | _, none =>
      .error (.valueError "OKX set_leverage response does not match requested leverage")

def singleOrderResponse (items : List Dict) (endpoint : String) : Except PyError Dict :=
  match items with
  | [] => .error (.valueError ("OKX " ++ endpoint ++ " response data is empty"))
  | response :: _ => do
      let statusCode := (okxOptionalText (response.get "sCode")).getD "0"
      raiseIf (statusCode ≠ "0")
        (rejectedMessage endpoint statusCode (okxOptionalText (response.get "sMsg")))
      rejectSecretFields [] (.dict response)
      return response

theorem singleOrderResponse_onlyValueErrors (items : List Dict) (endpoint : String) :
    OnlyValueErrors (singleOrderResponse items endpoint) := by
  unfold singleOrderResponse
  split
  · exact OnlyValueErrors.valueError _
  · refine (OnlyValueErrors.raiseIf _ _).bind fun _ _ => ?_
    exact (rejectSecretFields_onlyValueErrors _ _).bind fun _ _ => OnlyValueErrors.ok _

end Replies

end YtmExecutor
