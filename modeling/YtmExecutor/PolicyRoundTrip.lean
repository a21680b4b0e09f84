/-
Whether a written policy means what was written.

The file keeps the switches and the two limits, and the evaluation looks at nothing else.
But the writer takes any positive limit, and the file holds it at 28 digits: an infinite
limit, or one so small that it becomes zero, is a policy no reader accepts.  A limit that
is rounded is read as another number.  Whether that shows depends on what it is compared
with: the loss of a day may be any number, while a drawdown is the result of a
subtraction and has at most 28 digits itself, so it cannot tell a limit that was rounded
up from the original.
-/
import YtmExecutor.RiskPolicyFile
import YtmExecutor.DayLoss

namespace YtmExecutor

open Python Decimal Risk

/-! ### Limits that are accepted -/

theorem le_zero_iff {n : Number} :
    n.le (.finite (.ofInt 0)) = .ok false ↔
      (∃ d : Finite, n = .finite d ∧ 0 < d.val) ∨ n = .infinity false := by
  have hzero : (Finite.ofInt 0).val = 0 := by simp [Finite.ofInt]
  cases n with
  | finite d =>
      rw [Number.le_finite, hzero]
      simp
  | infinity negative => cases negative <;> simp [Number.le, Number.compare, Except.map]
  | nan signaling => simp [Number.le, Number.compare, Except.map]

theorem limitError_eq_nil {fieldName : String} {limit : Option Number} :
    limitError fieldName limit = .ok [] ↔
      ∀ n ∈ limit, (∃ d : Finite, n = .finite d ∧ 0 < d.val) ∨ n = .infinity false := by
  cases limit with
  | none => simp [limitError]
  | some n =>
      have hall : ∀ P : Number → Prop, (∀ m ∈ some n, P m) ↔ P n := by simp
      rw [hall, ← le_zero_iff, limitError, bind_eq_ok]
      constructor
      · rintro ⟨b, hb, h⟩
        cases b with
        | true => cases h
        | false => exact raiseSignal_eq_ok.mp hb
      · intro h
        exact ⟨false, raiseSignal_eq_ok.mpr h, rfl⟩

theorem checkConfiguration_eq_ok {policy : RiskPolicy} {u : Unit} :
    checkConfiguration policy = .ok u ↔ policyConfigurationErrors policy = .ok [] := by
  unfold checkConfiguration
  rw [bind_eq_ok]
  constructor
  · rintro ⟨errors, herrors, h⟩
    rw [raiseIf_eq_ok, not_not] at h
    rw [herrors, h]
  · intro h
    exact ⟨[], h, raiseIf_eq_ok.mpr (not_not.mpr rfl)⟩

/-- What a policy that passed the check says of its limits. -/
theorem limits_of_checkConfiguration {policy : RiskPolicy} {u : Unit}
    (h : checkConfiguration policy = .ok u) :
    (policy.enabled = true ∨ policy.killSwitch = true) ∧
      limitError "maxDailyLoss" policy.maxDailyLoss = .ok [] ∧
      limitError "maxTotalDrawdown" policy.maxTotalDrawdown = .ok [] := by
  have herrors := checkConfiguration_eq_ok.mp h
  unfold policyConfigurationErrors at herrors
  obtain ⟨orderNotional, _, herrors⟩ := bind_eq_ok.mp herrors
  obtain ⟨positionNotional, _, herrors⟩ := bind_eq_ok.mp herrors
  obtain ⟨dailyLoss, hdaily, herrors⟩ := bind_eq_ok.mp herrors
  obtain ⟨totalDrawdown, htotal, herrors⟩ := bind_eq_ok.mp herrors
  obtain ⟨symbolNotional, _, herrors⟩ := bind_eq_ok.mp herrors
  have hnil := Except.ok.inj herrors
  simp only [List.append_eq_nil_iff, and_assoc] at hnil
  obtain ⟨hdisabled, _, _, _, _, _, _, rfl, rfl, _⟩ := hnil
  refine ⟨?_, hdaily, htotal⟩
  cases henabled : policy.enabled with
  | true => exact Or.inl rfl
  | false =>
      right
      cases hkill : policy.killSwitch with
      | true => rfl
      | false => simp [henabled, hkill] at hdisabled

/-- The policy a file written for `policy` speaks of, with limits `daily` and `total`. -/
def keptPolicy (policy : RiskPolicy) (daily total : Option Number) : RiskPolicy :=
  { missingRiskPolicy with
    configured := true
    enabled := policy.enabled
    killSwitch := policy.killSwitch
    paperOnly := policy.paperOnly
    maxDailyLoss := daily
    maxTotalDrawdown := total }

theorem checkConfiguration_keptPolicy {policy : RiskPolicy} {daily total : Option Number}
    (hswitch : policy.enabled = true ∨ policy.killSwitch = true)
    (hdaily : limitError "maxDailyLoss" daily = .ok [])
    (htotal : limitError "maxTotalDrawdown" total = .ok []) :
    checkConfiguration (keptPolicy policy daily total) = .ok () := by
  rw [checkConfiguration_eq_ok]
  have hdisabled : (!policy.enabled && !policy.killSwitch) = false := by
    rcases hswitch with h | h
    · simp [h]
    · simp [h]
  have hnone : ∀ fieldName, limitError fieldName none = .ok [] := fun _ => rfl
  have hlists : ∀ label supported, unsupportedError label [] supported = [] := fun _ _ => rfl
  have hmode : "one_way" ∈ supportedPositionModes := by decide
  simp only [policyConfigurationErrors, keptPolicy, missingRiskPolicy, hnone, hdaily, htotal,
    hdisabled, hlists, symbolLimitErrors, not_not.mpr hmode, if_false]
  rfl

/-! ### Through the file -/

section File

variable [Runtime]

/-- The text of a limit in the file, if the file has one. -/
def limitText (limit : Option Number) : Except PyError (Option String) :=
  match limit with
  | none => .ok none
  | some n => do return some (← numberText defaultContext n)

def limitTextEntry (key : String) : Option String → Dict
  | none => []
  | some text => [(.str key, .str text)]

/-- The file for a policy with the limits as texts. -/
def policyPayload (policy : RiskPolicy) (daily total : Option String) : Dict :=
  let switches : Dict := [("enabled", .bool policy.enabled), ("killSwitch", .bool policy.killSwitch),
    ("paperOnly", .bool policy.paperOnly), ("version", .int 1)]
  switches ++ limitTextEntry "maxDailyLoss" daily ++ limitTextEntry "maxTotalDrawdown" total

omit [Runtime] in
theorem limitEntry_eq_ok {key : String} {limit : Option Number} {entries : Dict} :
    limitEntry defaultContext key limit = .ok entries ↔
      ∃ text, limitText limit = .ok text ∧ limitTextEntry key text = entries := by
  cases limit with
  | none => simp [limitEntry, limitText, limitTextEntry]
  | some n =>
      rw [limitEntry, limitText, bind_eq_ok]
      constructor
      · rintro ⟨text, htext, h⟩
        exact ⟨some text, bind_eq_ok.mpr ⟨text, htext, rfl⟩, Except.ok.inj h⟩
      · rintro ⟨text, htext, h⟩
        obtain ⟨t, ht, htext⟩ := bind_eq_ok.mp htext
        obtain rfl := Except.ok.inj htext
        exact ⟨t, ht, by rw [← h]; rfl⟩

omit [Runtime] in
theorem writeRiskPolicy_eq_ok {policy : RiskPolicy} {content : Value} :
    writeRiskPolicy defaultContext policy = .ok content ↔
      checkConfiguration policy = .ok () ∧ ∃ daily total,
        limitText policy.maxDailyLoss = .ok daily ∧
        limitText policy.maxTotalDrawdown = .ok total ∧
        content = .dict (policyPayload policy daily total) := by
  unfold writeRiskPolicy riskPolicyToFilePayload
  constructor
  · intro h
    obtain ⟨_, hcheck, h⟩ := bind_eq_ok.mp h
    obtain ⟨payload, hpayload, h⟩ := bind_eq_ok.mp h
    obtain ⟨dailyEntries, hdaily, hpayload⟩ := bind_eq_ok.mp hpayload
    obtain ⟨totalEntries, htotal, hpayload⟩ := bind_eq_ok.mp hpayload
    obtain ⟨daily, hdailyText, rfl⟩ := limitEntry_eq_ok.mp hdaily
    obtain ⟨total, htotalText, rfl⟩ := limitEntry_eq_ok.mp htotal
    refine ⟨hcheck, daily, total, hdailyText, htotalText, ?_⟩
    rw [← Except.ok.inj h, ← Except.ok.inj hpayload]
    rfl
  · rintro ⟨hcheck, daily, total, hdaily, htotal, rfl⟩
    refine bind_eq_ok.mpr ⟨(), hcheck, bind_eq_ok.mpr ⟨policyPayload policy daily total, ?_, rfl⟩⟩
    refine bind_eq_ok.mpr ⟨_, limitEntry_eq_ok.mpr ⟨daily, hdaily, rfl⟩, ?_⟩
    exact bind_eq_ok.mpr ⟨_, limitEntry_eq_ok.mpr ⟨total, htotal, rfl⟩, rfl⟩

/-- A limit of the file as its reader sees it. -/
def limitValue : Option String → Value
  | none => .none
  | some text => .str text

theorem rejectSecretFields_policyPayload (policy : RiskPolicy) (daily total : Option String) :
    rejectSecretFields [] (.dict (policyPayload policy daily total)) = .ok () := by
  refine rejectSecretFields_of_isPublic ?_
  cases daily <;> cases total <;>
    simp [policyPayload, limitTextEntry, isPublic, isPublicEntries] <;> decide

theorem one_toPositive : ∃ p : Positive, p.toFinite = .ofInt 1 ∧
    (Value.str "1").toPositive "maxLeverage" = .ok p := by
  have hread := toFinite_plainText (d := .ofInt 1) (by decide +kernel) "maxLeverage"
  have htext : plainText (Finite.ofInt 1).val = "1" := by decide +kernel
  rw [htext] at hread
  exact ⟨⟨.ofInt 1, by decide +kernel⟩, rfl, Value.toPositive_eq_ok.mpr hread⟩

/-- What a reader looks for and no writer writes. -/
def unwrittenKeys : List String :=
  ["allowedMarkets", "allowedMarginModes", "allowedSymbols", "allowedOrderTypes",
    "maxOrderNotional", "maxPositionNotional", "maxSymbolNotional", "maxLeverage", "positionMode"]

/-- **Reading a written policy** comes down to reading its limits. -/
theorem readRiskPolicy_policyPayload (policy : RiskPolicy) (daily total : Option String) :
    readRiskPolicy (some (.dict (policyPayload policy daily total))) = (do
      let maxDailyLoss ← optionalPositive (limitValue daily) "maxDailyLoss"
      let maxTotalDrawdown ← optionalPositive (limitValue total) "maxTotalDrawdown"
      checkConfiguration (keptPolicy policy maxDailyLoss maxTotalDrawdown)
      return keptPolicy policy maxDailyLoss maxTotalDrawdown) := by
  obtain ⟨p, hp, hleverage⟩ := one_toPositive
  have habsent : ∀ key ∈ unwrittenKeys,
      Dict.get? (policyPayload policy daily total) key = none := by
    intro key hkey
    simp only [unwrittenKeys, List.mem_cons, List.not_mem_nil, or_false] at hkey
    rcases hkey with rfl | rfl | rfl | rfl | rfl | rfl | rfl | rfl | rfl <;>
      cases daily <;> cases total <;> rfl
  have hnone : ∀ key ∈ unwrittenKeys,
      Dict.get (policyPayload policy daily total) key = .none := by
    intro key hkey
    rw [Dict.get, habsent key hkey]
    rfl
  have hversion : Dict.get? (policyPayload policy daily total) "version" = some (.int 1) := rfl
  have henabled : boolField (policyPayload policy daily total) "enabled" true =
      .ok policy.enabled := rfl
  have hkill : boolField (policyPayload policy daily total) "killSwitch" true =
      .ok policy.killSwitch := rfl
  have hpaper : boolField (policyPayload policy daily total) "paperOnly" true =
      .ok policy.paperOnly := rfl
  have hdaily : Dict.get (policyPayload policy daily total) "maxDailyLoss" =
      limitValue daily := by
    cases daily <;> cases total <;> rfl
  have htotal : Dict.get (policyPayload policy daily total) "maxTotalDrawdown" =
      limitValue total := by
    cases daily <;> cases total <;> rfl
  have hmode : normalizedLowerText "one_way" .none = "one_way" := rfl
  have hone : Finite.ofInt 1 = p.toFinite := hp.symm
  rw [unwrittenKeys] at habsent hnone
  simp only [List.forall_mem_cons] at habsent hnone
  unfold readRiskPolicy
  simp only [rejectSecretFields_policyPayload, hversion, henabled, hkill, hpaper, hdaily, htotal,
    habsent, hnone, hleverage, Option.getD_some, Option.getD_none, hmode, keptPolicy,
    missingRiskPolicy, hone, bind, Except.bind, pure, Except.pure]
  rfl

/-- A limit as it comes back. -/
def roundedLimit : Number → Number
  | .finite d => .finite ⟨rounded28 d.val, (isDecimal_intCast _).mul (isDecimal_zpow _)⟩
  | n => n

/-- A limit that comes back at all. -/
def ReadableLimit (limit : Option Number) : Prop :=
  ∀ n ∈ limit, ∃ d : Finite, n = .finite d ∧ 0 < rounded28 d.val

theorem toPositive_special {text : String} {n : Number} (h : decimalOfText text = .ok n)
    (hspecial : n.isFinite = false) (label : String) (p : Positive) :
    (Value.str text).toPositive label ≠ .ok p := by
  intro hp
  rw [Value.toPositive_eq_ok] at hp
  simp only [Value.toFinite, Value.toText, h] at hp
  cases n with
  | finite d => cases hspecial
  | infinity negative => cases hp
  | nan signaling => cases hp

theorem optionalPositive_limitValue {limit : Option Number} {text : Option String}
    (h : limitText limit = .ok text) (label : String) {limit' : Option Number} :
    optionalPositive (limitValue text) label = .ok limit' ↔
      ReadableLimit limit ∧ limit' = limit.map roundedLimit := by
  cases limit with
  | none =>
      obtain rfl : none = text := Except.ok.inj h
      simp [limitValue, optionalPositive, ReadableLimit, eq_comm]
  | some n =>
      obtain ⟨t, ht, h⟩ := bind_eq_ok.mp h
      obtain rfl : some t = text := Except.ok.inj h
      have hread : optionalPositive (limitValue (some t)) label =
          (do return some (.finite (← (Value.str t).toPositive label).toFinite)) := rfl
      have hlimit : ReadableLimit (some n) ↔ ∃ d : Finite, n = .finite d ∧ 0 < rounded28 d.val := by
        simp [ReadableLimit]
      rw [hread, hlimit, bind_eq_ok, Option.map_some]
      cases n with
      | finite d =>
          obtain ⟨r, hr, hval, _⟩ := toFinite_of_numberText ht label
          have hrounded : roundedLimit (.finite d) = .finite r := by
            rcases r with ⟨r, hdecimal⟩
            obtain rfl : r = rounded28 d.val := hval
            rfl
          rw [hrounded]
          constructor
          · rintro ⟨p, hp, heq⟩
            rw [Value.toPositive_eq_ok, hr] at hp
            have hpr : r = p.toFinite := Except.ok.inj hp
            refine ⟨⟨d, rfl, ?_⟩, ?_⟩
            · rw [← hval, hpr]
              exact p.pos
            · rw [hpr]
              exact (Except.ok.inj heq).symm
          · rintro ⟨⟨d', hd', hpos⟩, rfl⟩
            obtain rfl := Number.finite.inj hd'
            rw [← hval] at hpos
            exact ⟨⟨r, hpos⟩, Value.toPositive_eq_ok.mpr hr, rfl⟩
      | infinity negative =>
          refine iff_of_false ?_ ?_
          · rintro ⟨p, hp, _⟩
            cases negative with
            | false =>
                obtain rfl : "Infinity" = t := Except.ok.inj ht
                exact toPositive_special (n := .infinity false) rfl rfl label p hp
            | true =>
                obtain rfl : "-Infinity" = t := Except.ok.inj ht
                exact toPositive_special (n := .infinity true) rfl rfl label p hp
          · rintro ⟨⟨d, hd, _⟩, _⟩
            cases hd
      | nan signaling =>
          refine iff_of_false ?_ ?_
          · rintro ⟨p, hp, _⟩
            cases signaling with
            | false =>
                obtain rfl : "NaN" = t := Except.ok.inj ht
                exact toPositive_special (n := .nan false) rfl rfl label p hp
            | true => cases ht
          · rintro ⟨⟨d, hd, _⟩, _⟩
            cases hd

/-- **What is read back** of an accepted policy, and when anything is. -/
theorem readRiskPolicy_eq_ok {policy policy' : RiskPolicy} {content : Value}
    (h : writeRiskPolicy defaultContext policy = .ok content) :
    readRiskPolicy (some content) = .ok policy' ↔
      (ReadableLimit policy.maxDailyLoss ∧ ReadableLimit policy.maxTotalDrawdown) ∧
        policy' = keptPolicy policy (policy.maxDailyLoss.map roundedLimit)
          (policy.maxTotalDrawdown.map roundedLimit) := by
  obtain ⟨hcheck, daily, total, hdaily, htotal, rfl⟩ := writeRiskPolicy_eq_ok.mp h
  rw [readRiskPolicy_policyPayload]
  constructor
  · intro hread
    obtain ⟨dailyBack, hdailyBack, hread⟩ := bind_eq_ok.mp hread
    obtain ⟨totalBack, htotalBack, hread⟩ := bind_eq_ok.mp hread
    obtain ⟨_, _, hread⟩ := bind_eq_ok.mp hread
    obtain ⟨hreadDaily, rfl⟩ := (optionalPositive_limitValue hdaily _).mp hdailyBack
    obtain ⟨hreadTotal, rfl⟩ := (optionalPositive_limitValue htotal _).mp htotalBack
    exact ⟨⟨hreadDaily, hreadTotal⟩, (Except.ok.inj hread).symm⟩
  · rintro ⟨⟨hreadDaily, hreadTotal⟩, rfl⟩
    have hswitch := (limits_of_checkConfiguration hcheck).1
    have hpositive : ∀ {limit : Option Number} (fieldName : String), ReadableLimit limit →
        limitError fieldName (limit.map roundedLimit) = .ok [] := by
      intro limit fieldName hlimit
      rw [limitError_eq_nil]
      intro n hn
      obtain ⟨m, hm, rfl⟩ := Option.map_eq_some_iff.mp hn
      obtain ⟨d, rfl, hpos⟩ := hlimit m hm
      exact Or.inl ⟨_, rfl, hpos⟩
    refine bind_eq_ok.mpr ⟨_, (optionalPositive_limitValue hdaily _).mpr ⟨hreadDaily, rfl⟩, ?_⟩
    refine bind_eq_ok.mpr ⟨_, (optionalPositive_limitValue htotal _).mpr ⟨hreadTotal, rfl⟩, ?_⟩
    exact bind_eq_ok.mpr ⟨(), checkConfiguration_keptPolicy hswitch (hpositive _ hreadDaily)
      (hpositive _ hreadTotal), rfl⟩

end File

/-! ### The same decisions -/

/-- A policy under which a real command can pass. -/
def Live (policy : RiskPolicy) : Prop :=
  policy.enabled = true ∧ policy.killSwitch = false ∧ policy.paperOnly = false

theorem ge_congr {n : Number} {d r : Finite}
    (h : ∀ q : Finite, n = .finite q → (d.val ≤ q.val ↔ r.val ≤ q.val)) :
    n.ge (.finite r) = n.ge (.finite d) := by
  cases n with
  | finite q =>
      rw [Number.ge_finite, Number.ge_finite]
      simp only [h q rfl]
  | infinity negative => cases negative <;> rfl
  | nan signaling => rfl

/-- A finite difference is a number the context holds. -/
theorem held_of_sub {a b : Number} {q : Finite}
    (h : Number.sub defaultContext a b = .ok (.finite q)) : defaultContext.Holds q.val := by
  unfold Number.sub at h
  split at h
  · rename_i x y
    cases hsub : x.sub defaultContext y with
    | error e =>
        rw [hsub] at h
        cases h
    | ok r =>
        rw [hsub] at h
        obtain rfl := Number.finite.inj (Except.ok.inj h)
        exact fix_fix (by norm_num) (Finite.fix_eq_ok.mp hsub)
  all_goals first | cases h | (split at h <;> cases h)

/-- A number of the context cannot tell a limit from the next number above that the context
holds. -/
theorem le_iff_rounded28_le {d q : ℚ} (hround : defaultContext.fix d = .ok (rounded28 d))
    (hup : d ≤ rounded28 d) (hq : defaultContext.Holds q) : d ≤ q ↔ rounded28 d ≤ q := by
  constructor
  · intro h
    exact fix_mono (by norm_num) h hround hq
  · intro h
    exact hup.trans h

theorem totalDrawdownGate_congr {policy policy' : RiskPolicy} {state : RiskState}
    (hnone : policy.maxTotalDrawdown = none → policy'.maxTotalDrawdown = none)
    (hsome : ∀ limit, policy.maxTotalDrawdown = some limit → ∃ limit',
      policy'.maxTotalDrawdown = some limit' ∧
        ∀ a b n, Number.sub defaultContext a b = .ok n → n.ge limit' = n.ge limit) :
    totalDrawdownGate defaultContext .real policy' state =
      totalDrawdownGate defaultContext .real policy state := by
  unfold totalDrawdownGate
  cases hlimit : policy.maxTotalDrawdown with
  | none => rw [hnone hlimit]
  | some limit =>
      obtain ⟨limit', hlimit', hge⟩ := hsome limit hlimit
      rw [hlimit']
      cases hinitial : state.initialEquity with
      | none => rfl
      | some initial =>
          cases hcurrent : state.currentEquity with
          | none => rfl
          | some current =>
              cases hsub : Number.sub defaultContext initial current with
              | error e => simp only [hsub, raiseSignal, bind, Except.bind]
              | ok n => simp only [hsub, raiseSignal, hge _ _ _ hsub, bind, Except.bind]

section Decision

variable [Runtime]

/-- The evaluation looks at the switches, and at the limits of a live policy. -/
theorem evaluate_keptPolicy {policy : RiskPolicy} {daily total : Option Number} {command : Dict}
    {mode : ExecutionMode} {state : RiskState} {now : Instant}
    (hconfigured : policy.configured = true)
    (hdaily : Live policy → dailyLossGate .real (keptPolicy policy daily total) state (utcDate now) =
      dailyLossGate .real policy state (utcDate now))
    (htotal : Live policy → totalDrawdownGate defaultContext .real (keptPolicy policy daily total)
      state = totalDrawdownGate defaultContext .real policy state) :
    evaluateCommandRisk defaultContext command mode (keptPolicy policy daily total) state now =
      evaluateCommandRisk defaultContext command mode policy state now := by
  have hc : (keptPolicy policy daily total).configured = policy.configured := hconfigured.symm
  have he : (keptPolicy policy daily total).enabled = policy.enabled := rfl
  have hk : (keptPolicy policy daily total).killSwitch = policy.killSwitch := rfl
  have hp : (keptPolicy policy daily total).paperOnly = policy.paperOnly := rfl
  unfold evaluateCommandRisk
  rw [hc, he, hk, hp]
  cases henabled : policy.enabled with
  | false => rfl
  | true =>
      cases hkill : policy.killSwitch with
      | true => rfl
      | false =>
          cases mode with
          | externalPaper => rfl
          | real =>
              cases hpaper : policy.paperOnly with
              | true => rfl
              | false =>
                  have hlive : Live policy := ⟨henabled, hkill, hpaper⟩
                  rw [hdaily hlive, htotal hlive]
                  rfl

/-- A command nothing but a limit can stop, under a live policy. -/
def plainCommand : Dict :=
  [("commandPayload", .dict [("market", "spot"), ("riskControls", .dict [("source", "ytm")])])]

theorem commandMarket_plainCommand : commandMarket plainCommand = "spot" := by
  have hlower : lower (strip "spot") = "spot" := by
    unfold lower
    rw [if_pos (by decide)]
    decide
  show replaceChar '-' "_" (lower (strip "spot")) = "spot"
  rw [hlower]
  decide

theorem evaluate_plainCommand {policy : RiskPolicy} {state : RiskState} {now : Instant}
    (hconfigured : policy.configured = true) (hlive : Live policy) :
    evaluateCommandRisk defaultContext plainCommand .real policy state now = (do
      if let some decision ← dailyLossGate .real policy state (utcDate now) then
        return decision
      if let some decision ← totalDrawdownGate defaultContext .real policy state then
        return decision
      return pass) := by
  obtain ⟨henabled, hkill, hpaper⟩ := hlive
  have hattested : riskControlsAttested plainCommand = true := rfl
  have hfutures : evaluateFuturesRisk plainCommand "spot" = none := by
    unfold evaluateFuturesRisk
    rw [if_pos (by decide)]
  unfold evaluateCommandRisk
  simp only [hconfigured, henabled, hkill, hpaper, hattested, commandMarket_plainCommand, hfutures,
    policyCompletenessBlocks]
  rfl

/-- A state with a loss today. -/
def lossState (today : String) (loss : Finite) : RiskState := ⟨[(today, .finite loss)], [], none, none⟩

/-- A loss shows the daily limit. -/
theorem evaluate_lossState (policy : RiskPolicy) (now : Instant) {d loss : Finite}
    (hconfigured : policy.configured = true) (hlive : Live policy)
    (hlimit : policy.maxDailyLoss = some (.finite d)) :
    evaluateCommandRisk defaultContext plainCommand .real policy (lossState (utcDate now) loss) now =
        .ok (block "risk_daily_loss_exceeded" "local daily loss limit is reached") ↔
      d.val ≤ loss.val := by
  have hgate : dailyLossGate .real policy (lossState (utcDate now) loss) (utcDate now) =
      .ok (if d.val ≤ loss.val then
        some (block "risk_daily_loss_exceeded" "local daily loss limit is reached") else none) := by
    simp only [dailyLossGate, hlimit, lossState, List.lookup_cons, beq_self_eq_true,
      Number.ge_finite, raiseSignal, bind, Except.bind, pure, Except.pure]
    by_cases h : d.val ≤ loss.val
    · simp [h]
    · simp [h]
  rw [evaluate_plainCommand hconfigured hlive, hgate]
  by_cases h : d.val ≤ loss.val
  · simp [h, pure, Except.pure, bind, Except.bind]
  · refine iff_of_false ?_ h
    rw [if_neg h]
    unfold totalDrawdownGate
    cases policy.maxTotalDrawdown with
    | none => simp [pass, block, bind, Except.bind, pure, Except.pure]
    | some limit => simp [lossState, block, bind, Except.bind, pure, Except.pure]

/-- A state without a loss today, and a drawdown. -/
def drawdownState (today : String) (drawdown : Finite) : RiskState :=
  ⟨[(today, .finite (.ofInt 0))], [], some (.finite drawdown), some (.finite (.ofInt 0))⟩

/-- A drawdown shows the total limit, if the daily limit is positive. -/
theorem evaluate_drawdownState (policy : RiskPolicy) (now : Instant) {d drawdown : Finite}
    (hconfigured : policy.configured = true) (hlive : Live policy)
    (hdaily : ∀ n ∈ policy.maxDailyLoss, Number.le n (.finite (.ofInt 0)) = .ok false)
    (hlimit : policy.maxTotalDrawdown = some (.finite d))
    (hheld : defaultContext.Holds drawdown.val) :
    evaluateCommandRisk defaultContext plainCommand .real policy
        (drawdownState (utcDate now) drawdown) now = .ok pass ↔ ¬d.val ≤ drawdown.val := by
  have hdailyGate : dailyLossGate .real policy (drawdownState (utcDate now) drawdown) (utcDate now) =
      .ok none := by
    refine dailyLossGate_eq_none.mpr fun n hn => ?_
    exact ⟨.finite (.ofInt 0), by simp [drawdownState], hdaily n hn⟩
  have hsub : Number.sub defaultContext (.finite drawdown) (.finite (.ofInt 0)) =
      .ok (.finite drawdown) := by
    have hround : drawdown.sub defaultContext (.ofInt 0) = .ok drawdown := by
      have hval : drawdown.val - (Finite.ofInt 0).val = drawdown.val := by simp [Finite.ofInt]
      refine Finite.fix_eq_ok.mpr ?_
      show defaultContext.fix (drawdown.val - (Finite.ofInt 0).val) = .ok drawdown.val
      rw [hval]
      exact hheld
    simp only [Number.sub, hround, Except.map]
  have htotalGate : totalDrawdownGate defaultContext .real policy
      (drawdownState (utcDate now) drawdown) = .ok (if d.val ≤ drawdown.val then
        some (block "risk_total_drawdown_exceeded" "local total drawdown limit is reached")
        else none) := by
    simp only [totalDrawdownGate, hlimit, drawdownState, hsub, Number.ge_finite, raiseSignal, bind,
      Except.bind, pure, Except.pure]
    by_cases h : d.val ≤ drawdown.val
    · simp [h]
    · simp [h]
  rw [evaluate_plainCommand hconfigured hlive, hdailyGate, htotalGate]
  by_cases h : d.val ≤ drawdown.val
  · simp [h, pass, block, pure, Except.pure, bind, Except.bind]
  · simp [h, pure, Except.pure, bind, Except.bind]

/-! ### Written and meant -/

/-- The file can be read, and the policy in it decides as the one that was written. -/
def MeansWritten (policy : RiskPolicy) (content : Value) : Prop :=
  ∃ policy', readRiskPolicy (some content) = .ok policy' ∧ ∀ command mode state now,
    evaluateCommandRisk defaultContext command mode policy' state now =
      evaluateCommandRisk defaultContext command mode policy state now

/-- No limit becomes unreadable; and if real commands can pass, the daily limit is not rounded
and the total limit is not rounded down. -/
structure LimitsSurvive (policy : RiskPolicy) : Prop where
  dailyReadable : ReadableLimit policy.maxDailyLoss
  totalReadable : ReadableLimit policy.maxTotalDrawdown
  daily : Live policy → ∀ d : Finite, policy.maxDailyLoss = some (.finite d) →
    defaultContext.Holds d.val
  total : Live policy → ∀ d : Finite, policy.maxTotalDrawdown = some (.finite d) →
    d.val ≤ rounded28 d.val

omit [Runtime] in
theorem fix_of_limitText {limit : Option Number} {text : Option String} {d : Finite}
    (h : limitText limit = .ok text) (hlimit : limit = some (.finite d)) :
    defaultContext.fix d.val = .ok (rounded28 d.val) := by
  subst hlimit
  obtain ⟨t, ht, _⟩ := bind_eq_ok.mp h
  obtain ⟨r, hr, _⟩ := numberText_eq_ok.mp ht
  rw [hr, rounded28_of_fix hr]

omit [Runtime] in
theorem le_zero_roundedLimit {limit : Option Number} (h : ReadableLimit limit) :
    ∀ n ∈ limit.map roundedLimit, Number.le n (.finite (.ofInt 0)) = .ok false := by
  intro n hn
  obtain ⟨m, hm, rfl⟩ := Option.map_eq_some_iff.mp hn
  obtain ⟨d, rfl, hpos⟩ := h m hm
  exact le_zero_iff.mpr (Or.inl ⟨_, rfl, hpos⟩)

/-- Two daily limits that no loss tells apart are the same. -/
theorem limitsSurvive_of_meansWritten {policy : RiskPolicy} {content : Value}
    (hconfigured : policy.configured = true)
    (h : writeRiskPolicy defaultContext policy = .ok content)
    (hmeans : MeansWritten policy content) : LimitsSurvive policy := by
  obtain ⟨policy', hread, hsame⟩ := hmeans
  obtain ⟨⟨hdailyReadable, htotalReadable⟩, rfl⟩ := (readRiskPolicy_eq_ok h).mp hread
  obtain ⟨hcheck, daily, total, hdaily, htotal, _⟩ := writeRiskPolicy_eq_ok.mp h
  let kept := keptPolicy policy (policy.maxDailyLoss.map roundedLimit)
    (policy.maxTotalDrawdown.map roundedLimit)
  refine ⟨hdailyReadable, htotalReadable, ?_, ?_⟩
  · intro hlive d hd
    have hround := fix_of_limitText hdaily hd
    let r : Finite := ⟨rounded28 d.val, (isDecimal_intCast _).mul (isDecimal_zpow _)⟩
    have hiff : ∀ loss : Finite, d.val ≤ loss.val ↔ r.val ≤ loss.val := by
      intro loss
      have hkept : kept.maxDailyLoss = some (.finite r) := by
        show policy.maxDailyLoss.map roundedLimit = _
        rw [hd]
        rfl
      rw [← evaluate_lossState policy 0 hconfigured hlive hd,
        ← evaluate_lossState kept 0 rfl hlive hkept, hsame]
    have heq : d.val = rounded28 d.val := le_antisymm ((hiff r).mpr le_rfl) ((hiff d).mp le_rfl)
    rw [Context.Holds, hround, ← heq]
  · intro hlive d hd
    have hround := fix_of_limitText htotal hd
    let r : Finite := ⟨rounded28 d.val, (isDecimal_intCast _).mul (isDecimal_zpow _)⟩
    have hheld : defaultContext.Holds r.val := fix_fix (by norm_num) hround
    have hkept : kept.maxTotalDrawdown = some (.finite r) := by
      show policy.maxTotalDrawdown.map roundedLimit = _
      rw [hd]
      rfl
    have hdailyPositive := limitError_eq_nil.mp (limits_of_checkConfiguration hcheck).2.1
    have hpass := evaluate_drawdownState policy 0 hconfigured hlive
      (fun n hn => le_zero_iff.mpr (hdailyPositive n hn)) hd hheld
    have hpassKept := evaluate_drawdownState kept 0 rfl hlive
      (le_zero_roundedLimit hdailyReadable) hkept hheld
    rw [hsame, hpass, not_iff_not] at hpassKept
    exact hpassKept.mpr le_rfl

theorem meansWritten_of_limitsSurvive {policy : RiskPolicy} {content : Value}
    (hconfigured : policy.configured = true)
    (h : writeRiskPolicy defaultContext policy = .ok content) (hlimits : LimitsSurvive policy) :
    MeansWritten policy content := by
  obtain ⟨_, daily, total, hdaily, htotal, _⟩ := writeRiskPolicy_eq_ok.mp h
  refine ⟨_, (readRiskPolicy_eq_ok h).mpr ⟨⟨hlimits.dailyReadable, hlimits.totalReadable⟩, rfl⟩, ?_⟩
  intro command mode state now
  refine evaluate_keptPolicy hconfigured ?_ ?_
  · intro hlive
    have hsame : policy.maxDailyLoss.map roundedLimit = policy.maxDailyLoss := by
      cases hlimit : policy.maxDailyLoss with
      | none => rfl
      | some n =>
          obtain ⟨d, rfl, _⟩ := hlimits.dailyReadable n hlimit
          have heq : rounded28 d.val = d.val := rounded28_of_fix (hlimits.daily hlive d hlimit)
          simp only [Option.map_some, roundedLimit, heq]
    unfold dailyLossGate
    rw [show (keptPolicy policy (policy.maxDailyLoss.map roundedLimit)
      (policy.maxTotalDrawdown.map roundedLimit)).maxDailyLoss = policy.maxDailyLoss from hsame]
  · intro hlive
    refine totalDrawdownGate_congr ?_ ?_
    · intro hnone
      show policy.maxTotalDrawdown.map roundedLimit = none
      rw [hnone]
      rfl
    · intro limit hlimit
      obtain ⟨d, rfl, _⟩ := hlimits.totalReadable limit hlimit
      have hround := fix_of_limitText htotal hlimit
      refine ⟨roundedLimit (.finite d), ?_, ?_⟩
      · show policy.maxTotalDrawdown.map roundedLimit = _
        rw [hlimit]
        rfl
      · intro a b n hsub
        refine ge_congr fun q hq => ?_
        subst hq
        exact le_iff_rounded28_le hround (hlimits.total hlive d hlimit) (held_of_sub hsub)

/-- **A written policy means what was written** exactly when its limits survive the file. -/
theorem meansWritten_iff {policy : RiskPolicy} {content : Value}
    (hconfigured : policy.configured = true)
    (h : writeRiskPolicy defaultContext policy = .ok content) :
    MeansWritten policy content ↔ LimitsSurvive policy :=
  ⟨limitsSurvive_of_meansWritten hconfigured h, meansWritten_of_limitsSurvive hconfigured h⟩

end Decision

/-! ### Two limits of `risk init` -/

namespace Sample

/-- `risk init --kill-switch-off --allow-real --max-daily-loss …`. -/
def initArgs (maxDailyLoss : String) : RiskInitArgs where
  allowMarket := []
  allowMarginMode := []
  allowSymbol := []
  allowOrderType := []
  maxOrderNotional := none
  maxPositionNotional := none
  maxSymbolNotional := []
  maxDailyLoss := some maxDailyLoss
  maxTotalDrawdown := none
  maxLeverage := "1"
  positionMode := "one_way"
  allowReal := true
  killSwitchOff := true

/-- The policy `risk init` makes of a daily limit, and the file it writes. -/
def initPolicy (maxDailyLoss : String) : Except PyError (RiskPolicy × Value) := do
  let policy ← @riskPolicyFromArgs runtime (initArgs maxDailyLoss)
  let content ← writeRiskPolicy defaultContext policy
  return (policy, content)

/-- What the evaluation looks at first, and the daily limit. -/
def switchesAndLimit (policy : RiskPolicy) : Bool × Bool × Bool × Bool × Option Number :=
  (policy.configured, policy.enabled, policy.killSwitch, policy.paperOnly, policy.maxDailyLoss)

theorem exists_initPolicy {maxDailyLoss : String} {limit : Number}
    (h : (initPolicy maxDailyLoss).map (fun r => switchesAndLimit r.1) =
      .ok (true, true, false, false, some limit)) :
    ∃ policy content, @riskPolicyFromArgs runtime (initArgs maxDailyLoss) = .ok policy ∧
      writeRiskPolicy defaultContext policy = .ok content ∧ policy.configured = true ∧
      Live policy ∧ policy.maxDailyLoss = some limit := by
  cases hrun : initPolicy maxDailyLoss with
  | error e =>
      rw [hrun] at h
      cases h
  | ok result =>
      rw [hrun] at h
      have hfields : switchesAndLimit result.1 = (true, true, false, false, some limit) :=
        Except.ok.inj h
      simp only [switchesAndLimit, Prod.mk.injEq] at hfields
      obtain ⟨hconfigured, henabled, hkill, hpaper, hlimit⟩ := hfields
      obtain ⟨policy, hpolicy, hrun⟩ := bind_eq_ok.mp hrun
      obtain ⟨content, hcontent, hrun⟩ := bind_eq_ok.mp hrun
      obtain rfl := Except.ok.inj hrun
      exact ⟨policy, content, hpolicy, hcontent, hconfigured, ⟨henabled, hkill, hpaper⟩, hlimit⟩

end Sample

theorem meansWritten_iff_sample : ∃ content,
    writeRiskPolicy defaultContext Sample.policy = .ok content ∧
      @MeansWritten Sample.runtime Sample.policy content := by
  have hrun : (writeRiskPolicy defaultContext Sample.policy).toOption.isSome = true := by
    decide +kernel
  cases hwrite : writeRiskPolicy defaultContext Sample.policy with
  | error e =>
      rw [hwrite] at hrun
      cases hrun
  | ok content =>
      refine ⟨content, rfl, (@meansWritten_iff Sample.runtime _ _ (by decide) hwrite).mpr ?_⟩
      refine ⟨?_, ?_, ?_, ?_⟩
      · intro n hn
        exact ⟨.ofInt 100, (Option.some.inj hn).symm, by decide +kernel⟩
      · intro n hn
        exact ⟨.ofInt 200, (Option.some.inj hn).symm, by decide +kernel⟩
      · intro _ d hd
        obtain rfl := Number.finite.inj (Option.some.inj hd)
        decide +kernel
      · intro _ d hd
        obtain rfl := Number.finite.inj (Option.some.inj hd)
        decide +kernel

/-- `risk init` takes an infinite daily limit and writes a file nobody can read; and it takes
one of 36 digits, which the file holds as 100. -/
theorem init_limit_lost :
    (∃ policy content, @riskPolicyFromArgs Sample.runtime (Sample.initArgs "Infinity") =
        .ok policy ∧ writeRiskPolicy defaultContext policy = .ok content ∧
      ¬∃ policy', @readRiskPolicy Sample.runtime (some content) = .ok policy') ∧
    ∃ policy content, @riskPolicyFromArgs Sample.runtime
        (Sample.initArgs "100.000000000000000000000000000000001") = .ok policy ∧
      writeRiskPolicy defaultContext policy = .ok content ∧
      ¬@MeansWritten Sample.runtime policy content := by
  constructor
  · obtain ⟨policy, content, hpolicy, hwrite, _, _, hlimit⟩ :=
      @Sample.exists_initPolicy "Infinity" (.infinity false) (by decide +kernel)
    refine ⟨policy, content, hpolicy, hwrite, ?_⟩
    rintro ⟨policy', hread⟩
    obtain ⟨d, hd, _⟩ := ((@readRiskPolicy_eq_ok Sample.runtime _ _ _ hwrite).mp hread).1.1 _ hlimit
    cases hd
  · let d : Finite := ⟨100000000000000000000000000000000001 / 10 ^ 33,
      ⟨100000000000000000000000000000000001, 33, by norm_num⟩⟩
    obtain ⟨policy, content, hpolicy, hwrite, hconfigured, hlive, hlimit⟩ :=
      @Sample.exists_initPolicy "100.000000000000000000000000000000001" (.finite d)
        (by decide +kernel)
    refine ⟨policy, content, hpolicy, hwrite, ?_⟩
    intro hmeans
    have hlimits := @limitsSurvive_of_meansWritten Sample.runtime _ _ hconfigured hwrite hmeans
    exact absurd (hlimits.daily hlive d hlimit) (by decide +kernel)

end YtmExecutor
