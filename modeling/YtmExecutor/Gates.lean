/-
What is known of a command that passed the local gates.

`evaluate_passes_iff` and `preflightGates_eq_ok` say exactly when the risk evaluation and
the whole list of gates let a command pass, and `adapter_chosen` what is known once an
adapter is picked, so that no proof after this one has to go through the branches again.
-/
import YtmExecutor.Cli

namespace YtmExecutor

open Python Decimal Interaction Prog

/-! ### Gates that let pass -/

section Gates

variable [Runtime]

theorem reject_ne_ok {α : Type} {reasonCode reason : String} {extra : Dict} {a : α} :
    (reject reasonCode reason extra : Except Exit α) ≠ .ok a := by
  unfold reject
  split <;> simp

theorem rejectIf_eq_ok {c : Prop} [Decidable c] {reasonCode reason : String} {extra : Dict}
    {u : Unit} : rejectIf c reasonCode reason extra = .ok u ↔ ¬c := by
  unfold rejectIf
  by_cases h : c
  · simp [h, reject_ne_ok]
  · simp [h]

omit [Runtime] in
theorem raising_eq_ok {α : Type} {x : Except PyError α} {a : α} :
    raising x = .ok a ↔ x = .ok a := by
  cases x <;> simp [raising]

omit [Runtime] in
/-- A block is no pass. -/
theorem pass_of_passed_block {reasonCode reason : String} {d : RiskDecision}
    (h : (.ok (block reasonCode reason) : Except PyError RiskDecision) = .ok d) :
    d.passed = false := by
  rw [← Except.ok.inj h, passed_block]

theorem status_of_decision {status : String} {resultPayload : Dict} {d : CommandPreflightDecision}
    (h : decision status resultPayload = .ok d) : d.status = status := by
  obtain ⟨_, _, h⟩ := bind_eq_ok.mp h
  rw [← Except.ok.inj h]

end Gates

/-! ### The drawdown gates -/

section Limits

open Risk

variable {ctx : Context} {policy : RiskPolicy} {state : RiskState}

/-- The daily gate lets a real command pass only below the limit. -/
theorem dailyLossGate_eq_none {today : String} :
    dailyLossGate .real policy state today = .ok none ↔
      ∀ limit ∈ policy.maxDailyLoss, ∃ loss,
        state.realizedLossByDate.lookup today = some loss ∧ loss.ge limit = .ok false := by
  unfold dailyLossGate
  cases hlimit : policy.maxDailyLoss with
  | none => simp
  | some limit =>
      cases hloss : state.realizedLossByDate.lookup today with
      | none => simp
      | some loss =>
          cases hge : loss.ge limit with
          | error e => simp [hge, raiseSignal, Bind.bind, Except.bind]
          | ok reached =>
              cases reached <;>
                simp [hge, raiseSignal, Bind.bind, Except.bind, pure, Except.pure]

/-- So does the one on the total drawdown. -/
theorem totalDrawdownGate_eq_none :
    totalDrawdownGate ctx .real policy state = .ok none ↔
      ∀ limit ∈ policy.maxTotalDrawdown, ∃ initial current drawdown,
        state.initialEquity = some initial ∧ state.currentEquity = some current ∧
          initial.sub ctx current = .ok drawdown ∧ drawdown.ge limit = .ok false := by
  unfold totalDrawdownGate
  cases hlimit : policy.maxTotalDrawdown with
  | none => simp
  | some limit =>
      cases hinitial : state.initialEquity with
      | none => simp
      | some initial =>
          cases hcurrent : state.currentEquity with
          | none => simp
          | some current =>
              cases hsub : initial.sub ctx current with
              | error e => simp [hsub, raiseSignal, Bind.bind, Except.bind]
              | ok drawdown =>
                  cases hge : drawdown.ge limit with
                  | error e => simp [hsub, hge, raiseSignal, Bind.bind, Except.bind]
                  | ok reached =>
                      cases reached <;>
                        simp [hsub, hge, raiseSignal, Bind.bind, Except.bind, pure, Except.pure]

end Limits

/-! ### The risk evaluation -/

section RiskEvaluation

variable [Runtime]

open Risk

/-- Everything a passing risk evaluation has looked at. -/
structure RiskPassed (ctx : Context) (command : Dict) (mode : ExecutionMode) (policy : RiskPolicy)
    (state : RiskState) (now : Instant) : Prop where
  configured : policy.configured = true
  enabled : policy.enabled = true
  killSwitch : policy.killSwitch = false
  paperOnly : mode = .real → policy.paperOnly = false
  attested : mode = .real → riskControlsAttested command = true
  market : commandMarket command ≠ ""
  futures : evaluateFuturesRisk command (commandMarket command) = none
  dailyLoss : dailyLossGate mode policy state (utcDate now) = .ok none
  totalDrawdown : totalDrawdownGate ctx mode policy state = .ok none

variable {ctx : Context} {command : Dict} {mode : ExecutionMode} {policy : RiskPolicy}
variable {state : RiskState} {now : Instant}

omit [Runtime] in
/-- The drawdown gates only ever block. -/
theorem dailyLossGate_blocks {today : String} {d : RiskDecision}
    (h : dailyLossGate mode policy state today = .ok (some d)) : d.passed = false := by
  unfold dailyLossGate at h
  split at h
  · split at h
    · simp only [Except.ok.injEq, Option.some.injEq] at h
      rw [← h, passed_block]
    · obtain ⟨b, _, hb⟩ := bind_eq_ok.mp h
      split at hb
      · simp only [pure, Except.pure, Except.ok.injEq, Option.some.injEq] at hb
        rw [← hb, passed_block]
      · simp [pure, Except.pure] at hb
  · simp at h

omit [Runtime] in
theorem totalDrawdownGate_blocks {d : RiskDecision}
    (h : totalDrawdownGate ctx mode policy state = .ok (some d)) : d.passed = false := by
  unfold totalDrawdownGate at h
  split at h
  · split at h
    · obtain ⟨drawdown, _, h⟩ := bind_eq_ok.mp h
      obtain ⟨b, _, hb⟩ := bind_eq_ok.mp h
      split at hb
      · simp only [pure, Except.pure, Except.ok.injEq, Option.some.injEq] at hb
        rw [← hb, passed_block]
      · simp [pure, Except.pure] at hb
    · simp only [Except.ok.injEq, Option.some.injEq] at h
      rw [← h, passed_block]
  · simp at h

/-- So does the futures gate. -/
theorem evaluateFuturesRisk_blocks {market : String} {d : RiskDecision}
    (h : evaluateFuturesRisk command market = some d) : d.passed = false := by
  unfold evaluateFuturesRisk at h
  split_ifs at h <;> rw [← Option.some.inj h, passed_block]

/-- **A command passes the risk evaluation exactly when nothing in it objects.** -/
theorem evaluate_passes_iff :
    (∃ d, evaluateCommandRisk ctx command mode policy state now = .ok d ∧ d.passed = true) ↔
      RiskPassed ctx command mode policy state now := by
  constructor
  · rintro ⟨d, h, hpassed⟩
    have hblock : ∀ {c r : String}, (pure (block c r) : Except PyError RiskDecision) ≠ .ok d := by
      intro c r heq
      rw [pass_of_passed_block heq] at hpassed
      cases hpassed
    unfold evaluateCommandRisk at h
    split at h
    · exact absurd h hblock
    rename_i hconfigured
    split at h
    · exact absurd h hblock
    rename_i henabled
    split at h
    · exact absurd h hblock
    rename_i hkill
    split at h
    · exact absurd h hblock
    rename_i hpaper
    split at h
    · exact absurd h hblock
    split at h
    · exact absurd h hblock
    rename_i hattested
    simp only at h
    split at h
    · exact absurd h hblock
    rename_i hmarket
    split at h
    · rename_i hfutures
      rw [← Except.ok.inj h, evaluateFuturesRisk_blocks hfutures] at hpassed
      cases hpassed
    rename_i hfutures
    obtain ⟨daily, hdaily, h⟩ := bind_eq_ok.mp h
    cases daily with
    | some decision =>
        rw [← Except.ok.inj h, dailyLossGate_blocks hdaily] at hpassed
        cases hpassed
    | none =>
        obtain ⟨total, htotal, h⟩ := bind_eq_ok.mp h
        cases total with
        | some decision =>
            rw [← Except.ok.inj h, totalDrawdownGate_blocks htotal] at hpassed
            cases hpassed
        | none =>
            exact {
              configured := by simpa using hconfigured
              enabled := by simpa using henabled
              killSwitch := by simpa using hkill
              paperOnly := by simpa using hpaper
              attested := by simpa using hattested
              market := hmarket
              futures := by
                cases hf : evaluateFuturesRisk command (commandMarket command) with
                | none => rfl
                | some decision => exact absurd hf (hfutures decision)
              dailyLoss := hdaily
              totalDrawdown := htotal }
  · intro h
    refine ⟨pass, ?_, rfl⟩
    unfold evaluateCommandRisk
    rw [if_neg (by simp [h.configured]), if_neg (by simp [h.enabled]),
      if_neg (by simp [h.killSwitch]), if_neg (by simpa using h.paperOnly)]
    simp only [policyCompletenessBlocks]
    rw [if_neg (by simpa using h.attested), if_neg h.market, h.futures, h.dailyLoss,
      h.totalDrawdown]
    rfl

end RiskEvaluation

/-! ### The list of gates -/

section Preflight

variable [Runtime]

/-- Everything a cleared command has passed. -/
structure GatesPassed (ctx : Context) (item : Dict) (inputs : PreflightInputs)
    (cleared : Cleared) : Prop where
  command : leasedCommand item = .ok cleared.command
  provider : commandProvider cleared.command ≠ ""
  mode : executionModeOf (cleared.command.get "executionMode").text = some cleared.executionMode
  accountSource : (cleared.command.get "executionAccountSource").text = "provider"
  credential : commandProvider cleared.command ∈ inputs.localCredentials.map (·.provider)
  validation : validationBlock (commandProvider cleared.command) inputs.validationSummaries
    inputs.now = .ok ()
  risk : RiskPassed ctx cleared.command cleared.executionMode
    (inputs.riskPolicy.getD missingRiskPolicy) (inputs.riskState.getD emptyRiskState) inputs.now
  request : buildOrderRequest cleared.command cleared.executionMode = .ok cleared.request
  knownAdapter : cleared.executionMode = .real →
    adapterName cleared.command ∈ validateOnlyRealAdapters ++ realOrderAdapters
  enabled : cleared.executionMode = .real → adapterName cleared.command ∈ realOrderAdapters →
    inputs.realOrderPlacementEnabled = true
  finalRisk : cleared.executionMode = .real → adapterName cleared.command ∈ realOrderAdapters →
    ∃ policy, finalPolicy inputs = .ok policy ∧ RiskPassed ctx cleared.command
      cleared.executionMode (policy.getD missingRiskPolicy)
      (inputs.riskState.getD emptyRiskState) inputs.now

variable {ctx : Context} {item : Dict} {inputs : PreflightInputs} {cleared : Cleared}

theorem executionModeGate_eq_ok {command : Dict} {mode : ExecutionMode} :
    executionModeGate command = .ok mode ↔
      executionModeOf (command.get "executionMode").text = some mode := by
  unfold executionModeGate
  cases executionModeOf (command.get "executionMode").text with
  | none => simp [reject_ne_ok]
  | some m => simp

theorem orderRequestGate_eq_ok {command : Dict} {mode : ExecutionMode}
    {request : BrokerOrderRequest} :
    orderRequestGate command mode = .ok request ↔ buildOrderRequest command mode = .ok request := by
  unfold orderRequestGate
  cases h : buildOrderRequest command mode with
  | ok r => simp
  | error e => cases e <;> simp [reject_ne_ok]

theorem riskGate_eq_ok {command : Dict} {mode : ExecutionMode} {policy : Option RiskPolicy}
    {code reason : String} {extra : Dict} {u : Unit} :
    riskGate ctx command mode policy inputs code reason extra = .ok u ↔
      RiskPassed ctx command mode (policy.getD missingRiskPolicy)
        (inputs.riskState.getD emptyRiskState) inputs.now := by
  rw [← evaluate_passes_iff]
  unfold riskGate
  simp only [bind_eq_ok, raising_eq_ok, rejectIf_eq_ok, Bool.not_eq_false]

theorem finalRiskGate_eq_ok {command : Dict} {mode : ExecutionMode} {u : Unit} :
    finalRiskGate ctx command mode inputs = .ok u ↔
      (mode = .real → adapterName command ∈ realOrderAdapters →
        ∃ policy, finalPolicy inputs = .ok policy ∧ RiskPassed ctx command mode
          (policy.getD missingRiskPolicy) (inputs.riskState.getD emptyRiskState) inputs.now) := by
  unfold finalRiskGate
  by_cases h : mode = .real ∧ adapterName command ∈ realOrderAdapters
  · rw [if_pos h]
    simp only [bind_eq_ok, riskGate_eq_ok, h.1, h.2, true_implies]
  · simp only [if_neg h, true_iff]
    intro hmode hname
    exact absurd ⟨hmode, hname⟩ h

/-- **The gates let a command pass exactly when every one of them does.** -/
theorem preflightGates_eq_ok :
    preflightGates ctx item inputs = .ok cleared ↔ GatesPassed ctx item inputs cleared := by
  unfold preflightGates commandGates realAdapterGate
  simp only [bind_eq_ok, rejectIf_eq_ok, executionModeGate_eq_ok, orderRequestGate_eq_ok,
    riskGate_eq_ok, finalRiskGate_eq_ok, pure, Except.pure, Except.ok.injEq]
  constructor
  · rintro ⟨⟨command, mode⟩, ⟨command', hcommand, _, hprovider, mode', hmode, _, hsource, _,
      hcredential, heq⟩, _, hvalidation, _, hrisk, request, hrequest, _, ⟨_, hknown, henabled⟩,
      _, hfinal, rfl⟩
    obtain ⟨rfl, rfl⟩ := Prod.mk.inj heq
    exact {
      command := hcommand
      provider := hprovider
      mode := hmode
      accountSource := by simpa using hsource
      credential := by simpa using hcredential
      validation := hvalidation
      risk := hrisk
      request := hrequest
      knownAdapter := fun hreal => not_not.mp fun hnot => hknown ⟨hreal, hnot⟩
      enabled := by simpa using henabled
      finalRisk := hfinal }
  · intro h
    exact ⟨(cleared.command, cleared.executionMode),
      ⟨cleared.command, h.command, (), h.provider, cleared.executionMode, h.mode, (),
        by simpa using h.accountSource, (), by simpa using h.credential, rfl⟩,
      (), h.validation, (), h.risk, cleared.request, h.request, (),
      ⟨(), fun hnot => hnot.2 (h.knownAdapter hnot.1), by simpa using h.enabled⟩, (), h.finalRisk, rfl⟩

end Preflight

/-! ### The adapter -/

section Adapter

variable {cleared : Cleared}
variable {resolver : Option (String → String → Except PyError Secret)}

/-- The secret a command asks for. -/
def ResolvesTo (resolver : Option (String → String → Except PyError Secret)) (command : Dict)
    (secret : Secret) : Prop :=
  ∃ resolve, resolver = some resolve ∧
    resolve (commandProvider command) (credentialName command) = .ok secret

/-- How an OKX adapter is chosen. -/
theorem okxAdapter_chosen {command : Dict} {name provider : String} {mode : ExecutionMode}
    {adapter : ChosenAdapter}
    (h : okxAdapterForCommand command name provider mode resolver = .ok adapter) :
    provider = "okx" ∧ (∃ resolve secret, resolver = some resolve ∧
        resolve provider (credentialName command) = .ok secret) ∧
      ((∃ keys, adapter = .okxPlacement keys ∧ name = okxSwapMainnetOrderAdapter ∧ mode = .real) ∨
        ∃ keys, adapter = .okxPrecheck keys ∧ name ≠ okxSwapMainnetOrderAdapter) := by
  unfold okxAdapterForCommand at h
  obtain ⟨_, hprovider, h⟩ := bind_eq_ok.mp h
  have hokx : provider = "okx" := by simpa [raiseIf_eq_ok] using hprovider
  cases hr : resolver with
  | none => simp [hr] at h
  | some resolve =>
      simp only [hr] at h
      obtain ⟨secret, hsecret, h⟩ := bind_eq_ok.mp h
      obtain ⟨_, _, h⟩ := bind_eq_ok.mp h
      refine ⟨hokx, ⟨resolve, secret, rfl, hsecret⟩, ?_⟩
      by_cases hname : name = okxSwapMainnetOrderAdapter
      · rw [if_pos hname] at h
        obtain ⟨_, hmode, h⟩ := bind_eq_ok.mp h
        exact Or.inl ⟨_, (Except.ok.inj h).symm, hname, by simpa [raiseIf_eq_ok] using hmode⟩
      · rw [if_neg hname] at h
        exact Or.inr ⟨_, (Except.ok.inj h).symm, hname⟩

/-- How the Binance adapter is chosen. -/
theorem binanceAdapter_chosen {command : Dict} {provider : String} {mode : ExecutionMode}
    {adapter : ChosenAdapter}
    (h : binanceAdapterForCommand command provider mode resolver = .ok adapter) :
    provider = "binance" ∧ mode = .real ∧ (∃ resolve secret, resolver = some resolve ∧
        resolve provider (credentialName command) = .ok secret) ∧
      ∃ keys, adapter = .binanceOrderTest keys := by
  unfold binanceAdapterForCommand at h
  obtain ⟨_, hprovider, h⟩ := bind_eq_ok.mp h
  obtain ⟨_, hmode, h⟩ := bind_eq_ok.mp h
  cases hr : resolver with
  | none => simp [hr] at h
  | some resolve =>
      simp only [hr] at h
      obtain ⟨secret, hsecret, h⟩ := bind_eq_ok.mp h
      obtain ⟨_, _, h⟩ := bind_eq_ok.mp h
      exact ⟨by simpa [raiseIf_eq_ok] using hprovider, by simpa [raiseIf_eq_ok] using hmode,
        ⟨resolve, secret, rfl, hsecret⟩, _, (Except.ok.inj h).symm⟩

/-- What is known of a command for which an adapter was chosen. -/
theorem adapter_chosen {adapter : ChosenAdapter}
    (h : adapterForCommand cleared resolver = .ok adapter) :
    match adapter with
    | .disabled => True
    | .okxPlacement _ =>
        adapterName cleared.command = okxSwapMainnetOrderAdapter ∧
          commandProvider cleared.command = "okx" ∧ cleared.executionMode = .real ∧
          ∃ secret, ResolvesTo resolver cleared.command secret
    | .okxPrecheck _ =>
        adapterName cleared.command = okxSwapMainnetOrderPrecheckAdapter ∧
          commandProvider cleared.command = "okx" ∧
          ∃ secret, ResolvesTo resolver cleared.command secret
    | .binanceOrderTest _ =>
        adapterName cleared.command = binanceUsdmFuturesMainnetOrderTestAdapter ∧
          commandProvider cleared.command = "binance" ∧ cleared.executionMode = .real ∧
          ∃ secret, ResolvesTo resolver cleared.command secret := by
  unfold adapterForCommand at h
  simp only at h
  split at h
  · rename_i hname
    obtain ⟨hokx, ⟨resolve, secret, hr, hsecret⟩, hkind⟩ := okxAdapter_chosen h
    have hresolves : ResolvesTo resolver cleared.command secret := ⟨resolve, hr, hsecret⟩
    rcases hkind with ⟨keys, rfl, hplace, hmode⟩ | ⟨keys, rfl, hnot⟩
    · exact ⟨hplace, hokx, hmode, secret, hresolves⟩
    · have hprecheck : adapterName cleared.command = okxSwapMainnetOrderPrecheckAdapter := by
        simpa [hnot] using hname
      exact ⟨hprecheck, hokx, secret, hresolves⟩
  · split at h
    · have hdisabled := Except.ok.inj h
      subst hdisabled
      trivial
    · rename_i hname
      obtain ⟨hbinance, hmode, ⟨resolve, secret, hr, hsecret⟩, keys, rfl⟩ :=
        binanceAdapter_chosen h
      exact ⟨not_not.mp hname, hbinance, hmode, secret, resolve, hr, hsecret⟩

/-- The placement adapter's name picks the placement adapter. -/
theorem placement_of_adapterName {adapter : ChosenAdapter}
    (h : adapterForCommand cleared resolver = .ok adapter)
    (hname : adapterName cleared.command = okxSwapMainnetOrderAdapter) :
    ∃ keys, adapter = .okxPlacement keys := by
  unfold adapterForCommand at h
  simp only [hname, List.mem_cons, true_or, or_true, if_true] at h
  obtain ⟨_, _, ⟨keys, hkeys, _⟩ | ⟨keys, _, hnot⟩⟩ := okxAdapter_chosen h
  · exact ⟨keys, hkeys⟩
  · exact absurd rfl hnot

end Adapter

end YtmExecutor
