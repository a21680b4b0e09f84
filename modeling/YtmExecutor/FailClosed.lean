/-
The fail-closed gate.

Whatever the cloud leases, whatever the disk holds and whatever OKX answers: a call that
changes something at OKX is only made for a real command whose every condition was
checked, against the policy the turn began with and again against the one loaded last.

Of the four adapters three never make such a call, whatever they are answered, and the
fourth is only ever picked for a command that `preflightGates` cleared as a real order.
-/
import YtmExecutor.Gates
import YtmExecutor.OkxSwap.Calls

namespace YtmExecutor

open Python Decimal Interaction Prog

/-! ### What a policy has to say -/

/-- A policy that lets real orders through, and drawdown limits that are not reached. -/
structure AllowsReal (ctx : Context) (policy : RiskPolicy) (state : RiskState) (today : String) :
    Prop where
  configured : policy.configured = true
  enabled : policy.enabled = true
  killSwitch : policy.killSwitch = false
  paperOnly : policy.paperOnly = false
  dailyLoss : ∀ limit, policy.maxDailyLoss = some limit →
    ∃ loss, state.realizedLossByDate.lookup today = some loss ∧ loss.lt limit = .ok true
  totalDrawdown : ∀ limit, policy.maxTotalDrawdown = some limit →
    ∃ initial current drawdown, state.initialEquity = some initial ∧
      state.currentEquity = some current ∧ initial.sub ctx current = .ok drawdown ∧
      drawdown.lt limit = .ok true

section Limits

variable {ctx : Context} {policy : RiskPolicy} {state : RiskState}

variable [Runtime] {command : Dict} {now : Instant}

theorem RiskPassed.allowsReal (h : RiskPassed ctx command .real policy state now) :
    AllowsReal ctx policy state (utcDate now) where
  configured := h.configured
  enabled := h.enabled
  killSwitch := h.killSwitch
  paperOnly := h.paperOnly rfl
  dailyLoss limit hlimit := by
    obtain ⟨loss, hloss, hbelow⟩ := dailyLossGate_eq_none.mp h.dailyLoss limit hlimit
    exact ⟨loss, hloss, Number.lt_of_not_ge hbelow⟩
  totalDrawdown limit hlimit := by
    obtain ⟨initial, current, drawdown, hinitial, hcurrent, hsub, hbelow⟩ :=
      totalDrawdownGate_eq_none.mp h.totalDrawdown limit hlimit
    exact ⟨initial, current, drawdown, hinitial, hcurrent, hsub, Number.lt_of_not_ge hbelow⟩

end Limits

/-! ### The gate -/

section Gate

variable [Runtime] [BinanceSdk] {ctx : Context} {item : Dict} {inputs : PreflightInputs}

/-- A call that changes something at OKX. -/
def ChangesOkx (c : Call) : Prop := ∃ keys op, c = .okx keys op ∧ op.isStateChanging = true

/-- The other adapters change nothing at OKX. -/
theorem prepareOrder_changes {adapter : ChosenAdapter} {request : BrokerOrderRequest}
    (h : ∀ keys, adapter ≠ .okxPlacement keys) :
    CallsOnly (fun c => ¬ChangesOkx c) (prepareOrder ctx adapter request) := by
  cases adapter with
  | disabled => exact CallsOnly.ofExcept _
  | okxPlacement keys => exact absurd rfl (h keys)
  | okxPrecheck keys =>
      have hquiet (op : OkxCall) (hop : op.isStateChanging = false) :
          CallsOnly (fun c => ¬ChangesOkx c) (perform (.okx keys op) : Executor Value) := by
        refine CallsOnly.perform ?_
        rintro ⟨_, _, heq, hchange⟩
        obtain ⟨_, rfl⟩ := Call.okx.inj heq
        rw [hop] at hchange
        cases hchange
      exact okxPrecheckPrepareOrder_callsOnly (hquiet _ rfl) (fun _ _ => hquiet _ rfl)
        fun _ => hquiet _ rfl
  | binanceOrderTest keys =>
      refine binancePrepareOrder_callsOnly fun op => CallsOnly.perform ?_
      rintro ⟨_, _, heq, _⟩
      cases heq

/-- So whoever changes something at OKX had the placement adapter picked. -/
theorem placement_of_change {cleared : Cleared} {c : Call}
    (hmakes : Makes (brokerPhase ctx cleared inputs) c) (hchange : ChangesOkx c) :
    ∃ keys, adapterForCommand cleared inputs.localSecretResolver = .ok (.okxPlacement keys) := by
  by_contra hnone
  refine CallsOnly.makes (Q := fun c => ¬ChangesOkx c) ?_ hmakes hchange
  refine CallsOnly.bind (CallsOnly.handle ?_ ?_) fun outcome => ?_
  · cases hadapter : adapterForCommand cleared inputs.localSecretResolver with
    | error e => exact CallsOnly.ofExcept (.error e)
    | ok adapter =>
        show CallsOnly _ (prepareOrder ctx adapter cleared.request >>= fun r =>
          (.done (.inr r) : Executor (CommandPreflightDecision ⊕ BrokerAdapterResult)))
        refine (prepareOrder_changes ?_).bind fun r => CallsOnly.ofExcept (.ok (Sum.inr r))
        rintro keys rfl
        exact hnone ⟨keys, hadapter⟩
  · intro e q hq
    cases e with
    | valueError message =>
        rw [← Option.some.inj hq]
        exact CallsOnly.ofExcept _
    | decimal signal => cases hq
    | other kind message => cases hq
  · cases outcome with
    | inl d => exact CallsOnly.ofExcept (.ok d)
    | inr adapterResult => exact CallsOnly.ofExcept _

/-- The policy a preflight ends with: the final loader's, or else the first one. -/
def EndsWith (inputs : PreflightInputs) (policy : RiskPolicy) : Prop :=
  inputs.finalRiskPolicyLoader = some (.ok policy) ∨
    inputs.finalRiskPolicyLoader = none ∧ inputs.riskPolicy = some policy

omit [BinanceSdk] in
/-- A missing policy passes nothing, so a policy that passes was there. -/
theorem RiskPassed.policy_some {command : Dict} {mode : ExecutionMode}
    {policy : Option RiskPolicy} {state : RiskState} {now : Instant}
    (h : RiskPassed ctx command mode (policy.getD missingRiskPolicy) state now) :
    ∃ p, policy = some p ∧ RiskPassed ctx command mode p state now := by
  cases policy with
  | none => exact absurd h.configured (by simp [missingRiskPolicy])
  | some p => exact ⟨p, rfl, h⟩

omit [BinanceSdk] in
theorem endsWith_of_finalPolicy {policy : RiskPolicy}
    (h : finalPolicy inputs = .ok (some policy)) : EndsWith inputs policy := by
  unfold finalPolicy at h
  split at h
  · rename_i hloader
    exact Or.inr ⟨hloader, Except.ok.inj h⟩
  · rename_i p hloader
    rw [← Option.some.inj (Except.ok.inj h)]
    exact Or.inl hloader
  · exact absurd h reject_ne_ok
  · cases h

omit [BinanceSdk] in
theorem leasedCommand_eq {command : Dict} (h : leasedCommand item = .ok command) :
    item.get "command" = .dict command := by
  unfold leasedCommand at h
  split at h
  · rename_i entries hcommand
    split at h
    · rw [hcommand, Except.ok.inj h]
    · exact absurd h reject_ne_ok
  · exact absurd h reject_ne_ok

omit [Runtime] [BinanceSdk] in
theorem executionModeOf_real {text : String} (h : executionModeOf text = some .real) :
    text = "real" := by
  have hfound := List.find?_some h
  exact (of_decide_eq_true hfound).symm

omit [Runtime] [BinanceSdk] in
theorem riskControls_of_attested {command : Dict} (h : Risk.riskControlsAttested command = true) :
    ∃ riskControls, (commandPayload command).get "riskControls" = .dict riskControls ∧
      (Dict.get riskControls "source").isText "ytm" = true := by
  unfold Risk.riskControlsAttested at h
  split at h
  · rename_i riskControls hcontrols
    exact ⟨riskControls, hcontrols, h⟩
  · cases h

/-- Everything that had to hold before anything is changed at OKX. -/
structure EveryGatePassed (ctx : Context) (item : Dict) (inputs : PreflightInputs)
    (command : Dict) (initial final : RiskPolicy) : Prop where
  leased : item.get "command" = .dict command
  executionMode : (command.get "executionMode").text = "real"
  adapter : adapterName command = "okx_swap_mainnet_order"
  provider : (command.get "provider").text = "okx"
  realOrderPlacementEnabled : inputs.realOrderPlacementEnabled = true
  attested : ∃ riskControls, (commandPayload command).get "riskControls" = .dict riskControls ∧
    (Dict.get riskControls "source").isText "ytm" = true
  initialPolicy : inputs.riskPolicy = some initial
  finalPolicy : EndsWith inputs final
  initialAllows : AllowsReal ctx initial (inputs.riskState.getD emptyRiskState) (utcDate inputs.now)
  finalAllows : AllowsReal ctx final (inputs.riskState.getD emptyRiskState) (utcDate inputs.now)

/-- **A call that changes something at OKX has passed every gate.** -/
theorem state_change_passed_every_gate {keys : OkxKeys} {op : OkxCall}
    (hmakes : Makes (preflightCommand ctx item inputs) (.okx keys op))
    (hop : op.isStateChanging = true) :
    ∃ command initial final, EveryGatePassed ctx item inputs command initial final := by
  unfold preflightCommand at hmakes
  split at hmakes
  · rename_i cleared hcleared
    have hgates := preflightGates_eq_ok.mp hcleared
    obtain ⟨_, hadapter⟩ := placement_of_change hmakes ⟨keys, op, rfl, hop⟩
    obtain ⟨hname, hprovider, hmode, _⟩ := adapter_chosen hadapter
    have hreal : adapterName cleared.command ∈ realOrderAdapters := by
      rw [hname]
      exact List.mem_singleton.mpr rfl
    obtain ⟨initial, hinitial, hrisk⟩ := hgates.risk.policy_some
    obtain ⟨policy, hpolicy, hfinalRisk⟩ := hgates.finalRisk hmode hreal
    obtain ⟨final, rfl, hfinal⟩ := hfinalRisk.policy_some
    rw [hmode] at hrisk hfinal
    exact ⟨cleared.command, initial, final, {
      leased := leasedCommand_eq hgates.command
      executionMode := executionModeOf_real (hmode ▸ hgates.mode)
      adapter := hname
      provider := hprovider
      realOrderPlacementEnabled := hgates.enabled hmode hreal
      attested := riskControls_of_attested (hrisk.attested rfl)
      initialPolicy := hinitial
      finalPolicy := endsWith_of_finalPolicy hpolicy
      initialAllows := hrisk.allowsReal
      finalAllows := hfinal.allowsReal }⟩
  · exact absurd hmakes not_makes_done
  · exact absurd hmakes not_makes_raise

end Gate

/-! ### A run that gets through -/

namespace Sample

def checkedAtText : String := "2026-05-10T10:00:00Z"

/-- A minute after the credential was checked. -/
def now : Instant := 1778407260000000

@[reducible] def runtime : Runtime := asciiRuntime [("2026-05-10T10:00:00+00:00", 1778407200000000)]

@[reducible] def sdk : BinanceSdk := ⟨fun text => text = "GTC"⟩

/-- The entries of a command that depend on what is to be shown. -/
def payload : Dict :=
  [("adapter", okxSwapMainnetOrderAdapter), ("leverage", "1"), ("marginMode", "cross"),
    ("market", "okx_swap"), ("orderType", "limit"), ("positionEffect", "open"), ("price", "100"),
    ("quantity", "1"), ("riskControls", .dict [("source", "ytm")])]

def command (payload : Dict) : Dict :=
  [("commandPayload", .dict payload), ("executionAccountSource", "provider"),
    ("executionMode", "real"), ("id", "command-1"), ("provider", "okx"), ("side", "long"),
    ("stopLoss", "95"), ("symbol", "BTCUSDT"), ("takeProfit", .dict [("targets", .list ["110"])])]

def item (payload : Dict) : Dict :=
  [("command", .dict (command payload)), ("lease", .dict [("id", "lease-1")])]

def policy : RiskPolicy :=
  { missingRiskPolicy with
    configured := true, enabled := true, killSwitch := false, paperOnly := false,
    maxDailyLoss := some (.finite (.ofInt 100)), maxTotalDrawdown := some (.finite (.ofInt 200)) }

def riskState : RiskState :=
  { emptyRiskState with
    realizedLossByDate := [("2026-05-10", .finite (.ofInt 10))]
    initialEquity := some (.finite (.ofInt 1000)), currentEquity := some (.finite (.ofInt 990)) }

def validation (name status : String) : Dict :=
  [("checkedAt", checkedAtText), ("name", name),
    ("permissions", .dict [("accountReadable", .bool true)]), ("provider", "okx"),
    ("status", status)]

def secret : Secret := [("apiKey", "key"), ("apiSecret", "secret"), ("passphrase", "phrase")]

def inputs : PreflightInputs where
  localCredentials := [⟨"okx", "main"⟩]
  localSecretResolver := some fun _ _ => .ok secret
  riskPolicy := some policy
  riskState := some riskState
  finalRiskPolicyLoader := some (.ok policy)
  validationSummaries := [.dict (validation "main" "passed")]
  realOrderPlacementEnabled := true
  now := now

def session : Session where
  client := ⟨"https://ytm.example", ["ytm.example"]⟩
  accessToken := "token"
  clientVersion := "1.0"
  leaseQuery := "waitSeconds=25"

def localInputs : LocalInputs where
  secrets := ⟨some (.list [.dict [("name", "main"), ("provider", "okx")]]), fun _ => .ok secret⟩
  validationsFile := some (.list [.dict (validation "main" "passed")])
  riskPolicy := .ok policy
  finalRiskPolicy := .ok policy
  riskStateFile := some (.dict [("currentEquity", "990"), ("initialEquity", "1000"),
    ("realizedLossByDate", .dict [("2026-05-10", "10")])])
  enableRealOrders := true
  now := now
  recordedAt := now

def leaseResponse : Dict := [("item", .dict (item payload))]

/-- A reply of OKX that carries one item. -/
def reply (data : Dict) : Except PyError Value :=
  .ok (.dict [("code", "0"), ("data", .list [.dict data])])

def accountReply : Except PyError Value := reply [("acctLv", "2"), ("posMode", "net_mode")]

def instrumentReply : Except PyError Value :=
  reply [("ctVal", "0.01"), ("instId", "BTC-USDT-SWAP"), ("instType", "SWAP"), ("lotSz", "1"),
    ("minSz", "1"), ("state", "live"), ("tickSz", "0.1")]

def leverageReply : Except PyError Value :=
  reply [("instId", "BTC-USDT-SWAP"), ("lever", "1"), ("mgnMode", "cross")]

def noOrderReply : Except PyError Value :=
  .ok (.dict [("code", "51603"), ("data", .list []), ("msg", "Order does not exist")])

end Sample

/-- A call that changes something at OKX, if the next call is one. -/
def stateChange? : Option Call → Option (OkxKeys × OkxCall)
  | some (.okx keys op) => if op.isStateChanging then some (keys, op) else none
  | _ => none

theorem stateChange_of_isSome {c : Option Call} (h : (stateChange? c).isSome = true) :
    ∃ keys op, c = some (.okx keys op) ∧ op.isStateChanging = true := by
  unfold stateChange? at h
  split at h
  · rename_i keys op
    cases hop : op.isStateChanging with
    | true => exact ⟨keys, op, rfl, hop⟩
    | false => simp [hop] at h
  · cases h

/-- The sample command gets as far as setting its leverage. -/
theorem state_change_passed_every_gate_sample :
    ∃ keys op, Makes (@preflightCommand Sample.runtime defaultContext Sample.sdk
        (Sample.item Sample.payload) Sample.inputs) (.okx keys op) ∧ op.isStateChanging = true ∧
      ∃ command initial final, EveryGatePassed defaultContext (Sample.item Sample.payload)
        Sample.inputs command initial final := by
  obtain ⟨keys, op, hnext, hop⟩ := stateChange_of_isSome
    (c := (feed [Sample.accountReply, Sample.instrumentReply]
      (@preflightCommand Sample.runtime defaultContext Sample.sdk (Sample.item Sample.payload)
        Sample.inputs)).next?) (by decide +kernel)
  have hmakes := makes_of_feed _ hnext
  exact ⟨keys, op, hmakes, hop,
    @state_change_passed_every_gate Sample.runtime Sample.sdk _ _ _ _ _ hmakes hop⟩

end YtmExecutor
