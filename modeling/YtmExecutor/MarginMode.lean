/-
The margin mode the gate approves and the one an OKX order is sent with.

Both look it up under a list of aliases, and the lists share their first name only.  With
a `marginMode` in the command or its payload the two read one value; without it the gate
goes by `marginType`, the order by `mgnMode` or `tdMode`, and nothing compares them.
-/
import YtmExecutor.FuturesGate
import YtmExecutor.OkxSwap.Prices

namespace YtmExecutor

open Python Decimal Risk

section MarginMode

variable [Runtime] {ctx : Context} {command : Dict} {mode : ExecutionMode}
variable {request : BrokerOrderRequest} {rules : OkxSwapInstrumentRules} {params : OrderParams}

/-- The text of a mode without blanks around it, in lower case. -/
def modeText (v : Value) : String := lower (strip ((optionalText v).getD ""))

theorem optionalText_str (s : String) : (optionalText (.str s)).getD "" = strip s := by
  show (nonBlank s).getD "" = strip s
  unfold nonBlank
  split
  · rename_i h
    exact h.symm
  · rfl

/-- **What the gate approves** is the mode of the field it reads. -/
theorem modeText_of_approved {v : Value} (h : normalizedLowerText "" v ∈ supportedMarginModes) :
    normalizedLowerText "" v = modeText v := by
  cases v with
  | str s =>
      have hplain : '_' ∉ (normalizedLowerText "" (.str s)).toList := by
        revert h
        generalize normalizedLowerText "" (.str s) = t
        intro h
        simp only [supportedMarginModes, List.mem_cons, List.not_mem_nil, or_false] at h
        rcases h with rfl | rfl <;> decide
      rw [modeText, optionalText_str, strip_strip]
      exact (eq_of_replaceChar (by decide) hplain rfl).symm
  | _ => simp [normalizedLowerText, supportedMarginModes] at h

/-- The mode an order is sent with is the one of the field it is read from. -/
theorem okxTdMode_optionalText {v : Value} {tdMode : String}
    (h : okxTdMode (optionalText v) = .ok tdMode) : tdMode = modeText v := by
  unfold okxTdMode at h
  dsimp only at h
  split at h
  · exact (Except.ok.inj h).symm
  · cases h

theorem marginMode_of_request (h : buildOrderRequest command mode = .ok request) :
    request.marginMode =
      optionalText (commandField command ["marginMode", "mgnMode", "tdMode"]) := by
  unfold buildOrderRequest at h
  -- Every field is read before the request is put together and validated.
  iterate 19 obtain ⟨_, _, h⟩ := bind_eq_ok.mp h
  rw [← Except.ok.inj h]

/-! ### The two readings -/

/-- A `marginMode` in the command or in its payload. -/
def HasMarginMode (command : Dict) : Prop :=
  command.contains "marginMode" = true ∨ (commandPayload command).contains "marginMode" = true

omit [Runtime] in
theorem commandField_marginMode (rest : List String) (h : HasMarginMode command) :
    commandField command ("marginMode" :: rest) = commandField command ["marginMode"] := by
  rw [commandField_cons, commandField_cons]
  unfold HasMarginMode Dict.contains at h
  cases hcommand : command.get? "marginMode" with
  | some v => rfl
  | none =>
      cases hpayload : (commandPayload command).get? "marginMode" with
      | some v => rfl
      | none => simp [hcommand, hpayload] at h

omit [Runtime] in
theorem commandField_of_no_marginMode (rest : List String) (h : ¬HasMarginMode command) :
    commandField command ("marginMode" :: rest) = commandField command rest := by
  unfold HasMarginMode Dict.contains at h
  rw [not_or, Bool.not_eq_true, Bool.not_eq_true, Option.isSome_eq_false_iff,
    Option.isSome_eq_false_iff, Option.isNone_iff_eq_none, Option.isNone_iff_eq_none] at h
  rw [commandField_cons, h.1, h.2]
  rfl

/-- The margin mode sent with the order, and with the leverage, is the approved one. -/
structure SentMarginMode (request : BrokerOrderRequest) (rules : OkxSwapInstrumentRules)
    (params : OrderParams) (approved : String) : Prop where
  tdMode : params.tdMode = approved
  mgnMode : ∀ leverageParams, okxSwapSetLeverageParams request rules = .ok (some leverageParams) →
    leverageParams.mgnMode = approved

theorem mgnMode_of_leverage {leverageParams : LeverageParams}
    (h : okxSwapSetLeverageParams request rules = .ok (some leverageParams)) :
    okxTdMode request.marginMode = .ok leverageParams.mgnMode := by
  unfold okxSwapSetLeverageParams at h
  split at h
  · cases h
  · obtain ⟨_, _, h⟩ := bind_eq_ok.mp h
    obtain ⟨mgnMode, hmode, h⟩ := bind_eq_ok.mp h
    rw [← Option.some.inj (Except.ok.inj h)]
    exact hmode

/-- **An order is sent with the margin mode the gate approved exactly when** the command has a
`marginMode`, or else a `marginType` of the same text as its `mgnMode` or `tdMode`. -/
theorem margin_mode_agrees_iff {policy : RiskPolicy} {state : RiskState} {now : Instant}
    (hpasses : ∃ d, evaluateCommandRisk ctx command mode policy state now = .ok d ∧
      d.passed = true)
    (hmarket : commandMarket command ∈ futuresMarkets)
    (hrequest : buildOrderRequest command mode = .ok request)
    (horder : okxSwapOrderParams ctx request rules = .ok params) :
    SentMarginMode request rules params (commandMarginMode command) ↔
      HasMarginMode command ∨
        modeText (commandField command ["marginType"]) =
          modeText (commandField command ["mgnMode", "tdMode"]) := by
  have happroved : commandMarginMode command ∈ supportedMarginModes := by
    have hfutures := (evaluate_passes_iff.mp hpasses).futures
    unfold evaluateFuturesRisk at hfutures
    rw [if_neg (not_not.mpr hmarket)] at hfutures
    split_ifs at hfutures with hmissing hsupported
    exact hsupported
  have hgate : commandMarginMode command =
      modeText (commandField command ["marginMode", "marginType"]) :=
    modeText_of_approved happroved
  have hrequested := marginMode_of_request hrequest
  have hsent : ∀ tdMode, okxTdMode request.marginMode = .ok tdMode →
      tdMode = modeText (commandField command ["marginMode", "mgnMode", "tdMode"]) := by
    intro tdMode h
    rw [hrequested] at h
    exact okxTdMode_optionalText h
  have htd := hsent _ (okxSwapOrderParams_built horder).tdMode
  have hiff : SentMarginMode request rules params (commandMarginMode command) ↔
      modeText (commandField command ["marginMode", "marginType"]) =
        modeText (commandField command ["marginMode", "mgnMode", "tdMode"]) := by
    rw [hgate, ← htd]
    constructor
    · exact fun h => h.tdMode.symm
    · intro h
      exact ⟨h.symm, fun leverageParams hleverage =>
        (hsent _ (mgnMode_of_leverage hleverage)).trans (htd.symm.trans h.symm)⟩
  rw [hiff]
  by_cases hkey : HasMarginMode command
  · rw [commandField_marginMode ["marginType"] hkey,
      commandField_marginMode ["mgnMode", "tdMode"] hkey]
    exact iff_of_true rfl (Or.inl hkey)
  · rw [commandField_of_no_marginMode ["marginType"] hkey,
      commandField_of_no_marginMode ["mgnMode", "tdMode"] hkey]
    exact (or_iff_right hkey).symm

end MarginMode

namespace Sample

/-- The order a command is turned into passes a check. -/
def sendsOrder (command : Dict) (check : OrderParams → Bool) : Bool :=
  match @buildOrderRequest runtime command .real with
  | .ok request =>
      match @okxSwapOrderParams runtime defaultContext request rules with
      | .ok params => check params
      | .error _ => false
  | .error _ => false

theorem exists_order {command : Dict} {check : OrderParams → Bool}
    (h : sendsOrder command check = true) :
    ∃ request params, @buildOrderRequest runtime command .real = .ok request ∧
      @okxSwapOrderParams runtime defaultContext request rules = .ok params ∧
      check params = true := by
  unfold sendsOrder at h
  split at h
  · rename_i request hrequest
    split at h
    · rename_i params hparams
      exact ⟨request, params, hrequest, hparams, h⟩
    · cases h
  · cases h

/-- A payload with `marginType` for the gate and `tdMode` for the order. -/
def twoModes : Dict :=
  payload.filter (fun entry => entry.1 ≠ .str "marginMode")
    ++ ([("marginType", "isolated"), ("tdMode", "cross")] : Dict)

end Sample

theorem margin_mode_agrees_iff_sample :
    ∃ request params, @buildOrderRequest Sample.runtime (Sample.command Sample.payload) .real =
        .ok request ∧
      @okxSwapOrderParams Sample.runtime defaultContext request Sample.rules = .ok params ∧
      (@SentMarginMode Sample.runtime request Sample.rules params
          (@Risk.commandMarginMode Sample.runtime (Sample.command Sample.payload)) ↔
        HasMarginMode (Sample.command Sample.payload) ∨
          @modeText Sample.runtime (commandField (Sample.command Sample.payload) ["marginType"]) =
            @modeText Sample.runtime
              (commandField (Sample.command Sample.payload) ["mgnMode", "tdMode"])) := by
  obtain ⟨request, params, hrequest, hparams, _⟩ := Sample.exists_order
    (show Sample.sendsOrder (Sample.command Sample.payload) (fun _ => true) = true by
      decide +kernel)
  have hpasses : @evaluateCommandRisk Sample.runtime defaultContext (Sample.command Sample.payload)
      .real Sample.policy Sample.riskState Sample.now = .ok pass := by decide +kernel
  exact ⟨request, params, hrequest, hparams, @margin_mode_agrees_iff Sample.runtime _ _ _ _ _ _ _ _ _
    ⟨pass, hpasses, rfl⟩ (by decide +kernel) hrequest hparams⟩

/-- A command approved for isolated margin whose order is sent with cross margin. -/
theorem margin_mode_differs :
    ∃ request params,
      @evaluateCommandRisk Sample.runtime defaultContext (Sample.command Sample.twoModes) .real
        Sample.policy Sample.riskState Sample.now = .ok pass ∧
      @Risk.commandMarket Sample.runtime (Sample.command Sample.twoModes) ∈ futuresMarkets ∧
      @buildOrderRequest Sample.runtime (Sample.command Sample.twoModes) .real = .ok request ∧
      @okxSwapOrderParams Sample.runtime defaultContext request Sample.rules = .ok params ∧
      ¬@SentMarginMode Sample.runtime request Sample.rules params
        (@Risk.commandMarginMode Sample.runtime (Sample.command Sample.twoModes)) := by
  obtain ⟨request, params, hrequest, hparams, hmode⟩ := Sample.exists_order
    (show Sample.sendsOrder (Sample.command Sample.twoModes) (fun params =>
      params.tdMode ≠ @Risk.commandMarginMode Sample.runtime (Sample.command Sample.twoModes)) =
      true by decide +kernel)
  exact ⟨request, params, by decide +kernel, by decide +kernel, hrequest, hparams,
    fun hsent => of_decide_eq_true hmode (@SentMarginMode.tdMode Sample.runtime _ _ _ _ hsent)⟩

end YtmExecutor
