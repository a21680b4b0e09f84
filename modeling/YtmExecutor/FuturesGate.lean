/-
Which orders the futures gate sees.

The gate is switched on by the market of a command, the adapter is chosen by its name,
and nothing ties the two together.  A command for a futures market that reaches an
adapter has fields the gate approved.  For any other market the fields were not looked
at, by this gate or by another: `preflightGates_congr` says that no gate reads them, so
a command may carry what it likes in them and still reach its futures adapter.
-/
import YtmExecutor.FailClosed

namespace YtmExecutor

open Python Decimal Interaction Prog Risk

/-! ### Commands that run an adapter -/

section Runs

variable [Runtime] {ctx : Context} {item : Dict} {inputs : PreflightInputs} {cleared : Cleared}
variable {adapter : ChosenAdapter}

/-- A preflight that comes to call `prepare_order` of an adapter. -/
structure RunsAdapter (ctx : Context) (item : Dict) (inputs : PreflightInputs)
    (cleared : Cleared) (adapter : ChosenAdapter) : Prop where
  gates : preflightGates ctx item inputs = .ok cleared
  chosen : adapterForCommand cleared inputs.localSecretResolver = .ok adapter

/-- The adapters that trade futures: all but the disabled one. -/
def ChosenAdapter.isFutures : ChosenAdapter → Bool
  | .disabled => false
  | _ => true

end Runs

/-! ### The fields of the gate -/

/-- The fields only the futures gate reads. -/
def futuresFields : List String := ["closePosition", "positionMode", "reduceOnly"]

/-- Two commands that agree in all other fields. -/
def SameButFuturesFields (command command' : Dict) : Prop :=
  ∀ key ∉ futuresFields, command'.get? key = command.get? key

section Fields

variable {command command' : Dict}

theorem SameButFuturesFields.get (h : SameButFuturesFields command command') (key : String)
    (hkey : key ∉ futuresFields) : command'.get key = command.get key := by
  rw [Dict.get, Dict.get, h key hkey]

theorem SameButFuturesFields.payload (h : SameButFuturesFields command command') :
    commandPayload command' = commandPayload command := by
  rw [commandPayload, commandPayload, h.get _ (by decide)]

theorem SameButFuturesFields.field (h : SameButFuturesFields command command')
    {keys : List String} (hkeys : ∀ key ∈ keys, key ∉ futuresFields) :
    commandField command' keys = commandField command keys := by
  induction keys with
  | nil => rfl
  | cons key rest ih =>
      rw [commandField_cons, commandField_cons, h key (hkeys key List.mem_cons_self), h.payload,
        ih fun key hkey => hkeys key (List.mem_cons_of_mem _ hkey)]

variable [Runtime]

/-- What the gate wants of the fields, for an order at a futures adapter. -/
structure FuturesClean (command : Dict) : Prop where
  closePosition : commandClosePosition command ≠ some true
  positionMode : commandPositionMode command = "one_way"
  reduceOnlyOpen : commandPositionEffect command = "open" → commandReduceOnly command ≠ some true
  reduceOnlyReduce : commandPositionEffect command ∈ ["reduce", "close"] →
    commandReduceOnly command ≠ some false

/-- A futures command the gate lets pass is clean. -/
theorem futuresClean_of_gate {market : String} (hmarket : market ∈ futuresMarkets)
    (h : evaluateFuturesRisk command market = none) : FuturesClean command := by
  unfold evaluateFuturesRisk at h
  rw [if_neg (not_not.mpr hmarket)] at h
  split_ifs at h with hmissing hunsupported hmode hclose hopen hreduce
  exact ⟨hclose, not_not.mp hmode, fun heffect hreduceOnly => hopen ⟨heffect, hreduceOnly⟩,
    fun heffect hreduceOnly => hreduce ⟨heffect, hreduceOnly⟩⟩

theorem SameButFuturesFields.market (h : SameButFuturesFields command command') :
    commandMarket command' = commandMarket command := by
  rw [commandMarket, commandMarket, h.field (by decide)]

omit [Runtime] in
theorem SameButFuturesFields.adapterName (h : SameButFuturesFields command command') :
    adapterName command' = adapterName command := by
  rw [YtmExecutor.adapterName, YtmExecutor.adapterName, h.get _ (by decide)]

theorem SameButFuturesFields.buildOrderRequest (h : SameButFuturesFields command command')
    {mode : ExecutionMode} {request : BrokerOrderRequest}
    (hguard : rejectSecretFields [] (.dict command') = .ok ())
    (hrequest : YtmExecutor.buildOrderRequest command mode = .ok request) :
    YtmExecutor.buildOrderRequest command' mode = .ok request := by
  unfold YtmExecutor.buildOrderRequest deterministicClientOrderId at hrequest ⊢
  obtain ⟨_, _, hrequest⟩ := bind_eq_ok.mp hrequest
  refine bind_eq_ok.mpr ⟨(), hguard, ?_⟩
  simp (disch := decide) only [h.field, h.get]
  exact hrequest

theorem SameButFuturesFields.riskPassed (h : SameButFuturesFields command command')
    {ctx : Context} {mode : ExecutionMode} {policy : RiskPolicy} {state : RiskState} {now : Instant}
    (hmarket : commandMarket command ∉ futuresMarkets)
    (hrisk : RiskPassed ctx command mode policy state now) :
    RiskPassed ctx command' mode policy state now where
  configured := hrisk.configured
  enabled := hrisk.enabled
  killSwitch := hrisk.killSwitch
  paperOnly := hrisk.paperOnly
  attested := by
    unfold riskControlsAttested
    rw [h.payload]
    exact hrisk.attested
  market := h.market ▸ hrisk.market
  futures := by rw [h.market, evaluateFuturesRisk, if_pos hmarket]
  dailyLoss := hrisk.dailyLoss
  totalDrawdown := hrisk.totalDrawdown

/-- **No gate reads the fields** of a command whose market is no futures market. -/
theorem preflightGates_congr {ctx : Context} {item : Dict} {inputs : PreflightInputs}
    {cleared : Cleared} (hgates : preflightGates ctx item inputs = .ok cleared)
    (h : SameButFuturesFields cleared.command command')
    (hguard : rejectSecretFields [] (.dict command') = .ok ())
    (hmarket : commandMarket cleared.command ∉ futuresMarkets) :
    preflightGates ctx [("command", .dict command')] inputs =
      .ok { cleared with command := command' } := by
  have hpassed := preflightGates_eq_ok.mp hgates
  have hprovider : commandProvider command' = commandProvider cleared.command := by
    rw [commandProvider, commandProvider, h.get _ (by decide)]
  refine preflightGates_eq_ok.mpr {
    command := ?_
    provider := hprovider ▸ hpassed.provider
    mode := (h.get "executionMode" (by decide)) ▸ hpassed.mode
    accountSource := (h.get "executionAccountSource" (by decide)) ▸ hpassed.accountSource
    credential := hprovider ▸ hpassed.credential
    validation := hprovider ▸ hpassed.validation
    risk := h.riskPassed hmarket hpassed.risk
    request := h.buildOrderRequest hguard hpassed.request
    knownAdapter := h.adapterName ▸ hpassed.knownAdapter
    enabled := h.adapterName ▸ hpassed.enabled
    finalRisk := ?_ }
  · simp [leasedCommand, Dict.get, Dict.get?, hguard]
  · intro hreal hname
    obtain ⟨policy, hpolicy, hrisk⟩ := hpassed.finalRisk hreal (h.adapterName ▸ hname)
    exact ⟨policy, hpolicy, h.riskPassed hmarket hrisk⟩

omit [Runtime] in
/-- Nor does the choice of the adapter. -/
theorem adapterForCommand_congr {cleared : Cleared}
    {resolver : Option (String → String → Except PyError Secret)}
    (h : SameButFuturesFields cleared.command command') :
    adapterForCommand { cleared with command := command' } resolver =
      adapterForCommand cleared resolver := by
  have hprovider : commandProvider command' = commandProvider cleared.command := by
    rw [commandProvider, commandProvider, h.get _ (by decide)]
  have hname : credentialName command' = credentialName cleared.command := by
    rw [credentialName, credentialName, h.get _ (by decide)]
  unfold adapterForCommand okxAdapterForCommand binanceAdapterForCommand
  dsimp only
  rw [hprovider, h.adapterName, hname]

/-! ### A command with a field set -/

/-- Setting a harmless entry leaves a dict as harmless as it was. -/
theorem rejectEntries_set {key : String} {v : Value} {path : List String} {entries : Dict}
    (hkey : isPublicKey (.str key) = true) (hv : isPublic v = true)
    (h : rejectEntries path entries = .ok ()) :
    rejectEntries path (Dict.set entries (.str key) v) = .ok () := by
  induction entries with
  | nil =>
      refine rejectEntries_of_isPublic ?_
      simp only [Dict.set, isPublicEntries, hkey, hv, Bool.and_self]
  | cons entry rest ih =>
      obtain ⟨k, item⟩ := entry
      rw [rejectEntries] at h
      split at h
      · cases h
      rename_i hallowed
      split at h
      · rename_i hitem
        rw [Dict.set]
        split
        · rw [rejectEntries, if_neg (not_forbidden_of_isPublicKey hkey),
            rejectSecretFields_of_isPublic hv]
          exact h
        · rw [rejectEntries, if_neg hallowed, hitem]
          exact ih h
      · cases h

/-- The command with `closePosition` turned on. -/
def closingPosition (command : Dict) : Dict := command.set "closePosition" (.bool true)

omit [Runtime] in
theorem sameButFuturesFields_closingPosition (command : Dict) :
    SameButFuturesFields command (closingPosition command) := by
  intro key hkey
  refine Dict.get?_set_other _ _ fun heq => hkey ?_
  rw [← heq]
  decide

theorem commandClosePosition_closingPosition (command : Dict) :
    commandClosePosition (closingPosition command) = some true := by
  rw [commandClosePosition, commandField_cons, closingPosition, Dict.get?_set_self]
  rfl

end Fields

/-! ### The gate and the adapter -/

section Gate

variable [Runtime] {ctx : Context} {item : Dict} {inputs : PreflightInputs} {cleared : Cleared}
variable {adapter : ChosenAdapter}

/-- **Every futures order of a market is clean exactly when the market is a futures market**:
of the commands that reach an adapter and agree with this one but in the futures fields. -/
theorem futures_orders_clean_iff (h : RunsAdapter ctx item inputs cleared adapter)
    (hfutures : adapter.isFutures = true) :
    (∀ item' cleared' adapter', RunsAdapter ctx item' inputs cleared' adapter' →
      adapter'.isFutures = true → SameButFuturesFields cleared.command cleared'.command →
      FuturesClean cleared'.command) ↔
    commandMarket cleared.command ∈ futuresMarkets := by
  constructor
  · intro hclean
    by_contra hmarket
    have hguard : rejectSecretFields [] (.dict cleared.command) = .ok () := by
      have hrequest := (preflightGates_eq_ok.mp h.gates).request
      unfold buildOrderRequest at hrequest
      obtain ⟨_, hguard, _⟩ := bind_eq_ok.mp hrequest
      exact hguard
    have hsame := sameButFuturesFields_closingPosition cleared.command
    have hguardSet : rejectSecretFields [] (.dict (closingPosition cleared.command)) = .ok () := by
      rw [rejectSecretFields] at hguard ⊢
      exact rejectEntries_set (by decide) rfl hguard
    have hruns : RunsAdapter ctx [("command", .dict (closingPosition cleared.command))] inputs
        { cleared with command := closingPosition cleared.command } adapter :=
      ⟨preflightGates_congr h.gates hsame hguardSet hmarket,
        (adapterForCommand_congr hsame).trans h.chosen⟩
    exact (hclean _ _ _ hruns hfutures hsame).closePosition
      (commandClosePosition_closingPosition cleared.command)
  · intro hmarket item' cleared' adapter' hruns _ hsame
    have hrisk := (preflightGates_eq_ok.mp hruns.gates).risk
    exact futuresClean_of_gate (hsame.market ▸ hmarket) hrisk.futures

end Gate

namespace Sample

/-- The preflight runs a futures adapter, and what was cleared passes a check. -/
def runsFutures (item : Dict) (inputs : PreflightInputs) (check : Cleared → Bool) : Bool :=
  match @preflightGates runtime defaultContext item inputs with
  | .ok cleared =>
      match adapterForCommand cleared inputs.localSecretResolver with
      | .ok adapter => adapter.isFutures && check cleared
      | .error _ => false
  | .error _ => false

theorem exists_runsAdapter {item : Dict} {inputs : PreflightInputs} {check : Cleared → Bool}
    (h : runsFutures item inputs check = true) :
    ∃ cleared adapter, @RunsAdapter runtime defaultContext item inputs cleared adapter ∧
      adapter.isFutures = true ∧ check cleared = true := by
  unfold runsFutures at h
  split at h
  · rename_i cleared hgates
    split at h
    · rename_i adapter hchosen
      rw [Bool.and_eq_true] at h
      exact ⟨cleared, adapter, @RunsAdapter.mk runtime _ _ _ _ _ hgates hchosen, h⟩
    · cases h
  · cases h

end Sample

theorem futures_orders_clean_iff_sample :
    ∃ cleared adapter, @RunsAdapter Sample.runtime defaultContext (Sample.item Sample.payload)
        Sample.inputs cleared adapter ∧
      ((∀ item' cleared' adapter', @RunsAdapter Sample.runtime defaultContext item' Sample.inputs
          cleared' adapter' → adapter'.isFutures = true →
          SameButFuturesFields cleared.command cleared'.command →
          @FuturesClean Sample.runtime cleared'.command) ↔
        @Risk.commandMarket Sample.runtime cleared.command ∈ futuresMarkets) := by
  obtain ⟨cleared, adapter, hruns, hfutures, _⟩ :=
    Sample.exists_runsAdapter (show Sample.runsFutures (Sample.item Sample.payload) Sample.inputs
      (fun _ => true) = true by decide +kernel)
  exact ⟨cleared, adapter, hruns,
    @futures_orders_clean_iff Sample.runtime _ _ _ _ _ hruns hfutures⟩

/-- A command for the spot market reaches the OKX SWAP adapter with `closePosition` on. -/
theorem futures_order_not_clean :
    ∃ item cleared adapter, @RunsAdapter Sample.runtime defaultContext item Sample.inputs cleared
        adapter ∧ adapter.isFutures = true ∧
      ¬@FuturesClean Sample.runtime cleared.command := by
  let payload : Dict :=
    Dict.set (Dict.set Sample.payload "market" "spot") "closePosition" "true"
  have hruns : Sample.runsFutures (Sample.item payload) Sample.inputs (fun cleared =>
      @Risk.commandClosePosition Sample.runtime cleared.command = some true) = true := by
    decide +kernel
  obtain ⟨cleared, adapter, hruns, hfutures, hclosing⟩ := Sample.exists_runsAdapter hruns
  exact ⟨Sample.item payload, cleared, adapter, hruns, hfutures,
    fun hclean => @FuturesClean.closePosition Sample.runtime _ hclean (of_decide_eq_true hclosing)⟩

end YtmExecutor
