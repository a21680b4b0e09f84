/-
What an order that cannot be built leaves behind.

The parameters of an order are built after the leverage is set, so an order that fails
its own checks may have changed the account before it is found out.  Whether it does is
a matter of the request alone, once the two replies before it can be read: it does
exactly when there is a leverage to set.
-/
import YtmExecutor.FailClosed
import YtmExecutor.OkxSwap.Prices
import YtmExecutor.OkxSwap.Runs

namespace YtmExecutor

open Python Decimal Interaction Prog

section SideEffects

variable [Runtime] {ctx : Context} {request : BrokerOrderRequest} {t : OkxTranscript}
variable {account instruments : Value} {rules : OkxSwapInstrumentRules}

/-- The account and the instrument were answered by these replies, wherever they were asked for. -/
def AnsweredBy (account instruments : Value) (t : OkxTranscript) : Prop :=
  ∀ x ∈ t, (x.1 = .getAccountConfig → x.2 = .ok account) ∧
    ∀ instType instId, x.1 = .getInstruments instType instId → x.2 = .ok instruments

/-- An exception, and nothing changed at OKX. -/
def RaisesWithoutEffect (t : OkxTranscript) (out : Except PyError BrokerAdapterResult) : Prop :=
  (∃ e, out = .error e) ∧ ∀ x ∈ t, x.1.isStateChanging = false

/-- There is a leverage to set, and nothing that keeps it from being set. -/
structure SetsLeverage (request : BrokerOrderRequest) (account : Value) : Prop where
  provider : request.provider = "okx"
  executionMode : request.executionMode = .real
  account : ∃ config, readAccountConfig account = .ok config
  leverage : ∃ leverage, request.leverage = some leverage ∧
    Runtime.memoryFor (leverageDigits leverage).length = true
  marginMode : lower (strip (request.marginMode.getD "")) ∈ ["cross", "isolated"]

theorem okxTdMode_eq_ok {value : Option String} :
    (∃ mode, okxTdMode value = .ok mode) ↔ lower (strip (value.getD "")) ∈ ["cross", "isolated"] := by
  unfold okxTdMode
  dsimp only
  by_cases h : lower (strip (value.getD "")) ∈ ["cross", "isolated"]
  · rw [if_pos h]
    exact iff_of_true ⟨_, rfl⟩ h
  · rw [if_neg h]
    exact iff_of_false (fun ⟨_, h⟩ => by cases h) h

theorem leverageParams_eq_some :
    (∃ params, okxSwapSetLeverageParams request rules = .ok (some params)) ↔
      (∃ leverage, request.leverage = some leverage ∧
        Runtime.memoryFor (leverageDigits leverage).length = true) ∧
        lower (strip (request.marginMode.getD "")) ∈ ["cross", "isolated"] := by
  rw [← okxTdMode_eq_ok]
  unfold okxSwapSetLeverageParams
  cases request.leverage with
  | none => simp
  | some leverage =>
      simp only [Option.some.injEq, exists_eq_left', bind_eq_ok]
      constructor
      · rintro ⟨_, text, htext, mode, hmode, _⟩
        exact ⟨(integerLeverageText_eq_ok.mp htext).1, mode, hmode⟩
      · rintro ⟨hmemory, mode, hmode⟩
        exact ⟨_, _, integerLeverageText_eq_ok.mpr ⟨hmemory, rfl⟩, mode, hmode, rfl⟩

/-- The leverage is all a preparation changes. -/
theorem calls_of_setRequestedLeverage {out : Except PyError (Option Dict)}
    (h : Run (setRequestedLeverage perform request rules) t out) :
    t = [] ∨ ∃ params answer, okxSwapSetLeverageParams request rules = .ok (some params) ∧
      t = [(.setLeverage params, answer)] := by
  rcases run_ofExcept_bind.mp h with ⟨asked, hasked, h⟩ | ⟨_, _, rfl, _⟩
  · cases asked with
    | none => exact Or.inl h.1
    | some params =>
        refine Or.inr ⟨params, ?_⟩
        rcases (run_bind _).mp h with ⟨_, t₂, items, rfl, hquery, hverify⟩ | ⟨_, _, hquery⟩
        · obtain ⟨answer, rfl, _⟩ := run_okxQuery.mp hquery
          rcases run_ofExcept_bind.mp hverify with ⟨_, _, rfl, _⟩ | ⟨_, _, rfl, _⟩
          · exact ⟨answer, hasked, rfl⟩
          · exact ⟨answer, hasked, rfl⟩
        · obtain ⟨answer, rfl, _⟩ := run_okxQuery.mp hquery
          exact ⟨answer, hasked, rfl⟩
  · exact Or.inl rfl

theorem calls_of_accountAndRules {out : Except PyError (AccountConfig × OkxSwapInstrumentRules)}
    (h : Run (accountAndRules perform request) t out) : ∀ x ∈ t, x.1.isStateChanging = false := by
  have hcall (op : OkxCall) (hop : op.isStateChanging = false) :
      CallsOnly (fun c => c.isStateChanging = false)
        (perform op : Prog OkxCall Value PyError Value) := CallsOnly.perform hop
  exact ((@accountAndRules_alike _ _ _ _ _ request (hcall .getAccountConfig rfl).alike
    fun t i => (hcall (.getInstruments t i) rfl).alike).callsOnly fun _ _ h => h).run h

/-- A preparation that meets an invalid order raises, and sets a leverage at most. -/
theorem preparation_of_invalid {out : Except PyError Preparation} {e : PyError}
    (hrules : readInstrumentRules (okxSwapInstrumentId request.symbol) instruments = .ok rules)
    (hinvalid : okxSwapOrderParams ctx request rules = .error e)
    (hanswered : AnsweredBy account instruments t)
    (h : Run (placementPreparation ctx perform request) t out) :
    (∃ e, out = .error e) ∧ ∀ x ∈ t, x.1.isStateChanging = true →
      (∃ config, readAccountConfig account = .ok config) ∧
        ∃ params, okxSwapSetLeverageParams request rules = .ok (some params) := by
  rcases (run_bind _).mp h with ⟨t₁, t₂, ⟨config, rules'⟩, rfl, hread, hrest⟩ | ⟨e', rfl, hread⟩
  · obtain ⟨account', instruments', rfl, hconfig, hrules'⟩ := run_accountAndRules_ok.mp hread
    obtain rfl : account' = account :=
      Except.ok.inj ((hanswered _ List.mem_cons_self).1 rfl)
    obtain rfl : instruments' = instruments :=
      Except.ok.inj ((hanswered _ (List.mem_cons_of_mem _ List.mem_cons_self)).2 _ _ rfl)
    obtain rfl : rules' = rules := Except.ok.inj (hrules'.symm.trans hrules)
    have hchanges {t₂ : OkxTranscript} {out : Except PyError (Option Dict)}
        (h : Run (setRequestedLeverage perform request rules') t₂ out) :
        ∀ x ∈ [(OkxCall.getAccountConfig, Except.ok account'), (.getInstruments "SWAP"
          (okxSwapInstrumentId request.symbol), .ok instruments')] ++ t₂,
        x.1.isStateChanging = true → (∃ config, readAccountConfig account' = .ok config) ∧
          ∃ params, okxSwapSetLeverageParams request rules' = .ok (some params) := by
      intro x hx hchange
      rcases List.mem_append.mp hx with hx | hx
      · rw [calls_of_accountAndRules hread x hx] at hchange
        cases hchange
      · rcases calls_of_setRequestedLeverage h with rfl | ⟨params, _, hparams, _⟩
        · cases hx
        · exact ⟨⟨config, hconfig⟩, params, hparams⟩
    rcases (run_bind _).mp hrest with ⟨t₃, t₄, leverage, rfl, hleverage, hparams⟩ |
      ⟨e', rfl, hleverage⟩
    · rcases run_ofExcept_bind.mp hparams with ⟨params, hok, _⟩ | ⟨e', _, rfl, rfl⟩
      · rw [hinvalid] at hok
        cases hok
      · rw [List.append_nil]
        exact ⟨⟨e', rfl⟩, hchanges hleverage⟩
    · exact ⟨⟨e', rfl⟩, hchanges hleverage⟩
  · refine ⟨⟨e', rfl⟩, fun x hx hchange => ?_⟩
    rw [calls_of_accountAndRules hread x hx] at hchange
    cases hchange

/-- Whatever setting a leverage is answered by, something comes of it. -/
theorem run_setRequestedLeverage {params : LeverageParams}
    (hparams : okxSwapSetLeverageParams request rules = .ok (some params))
    (answer : Except PyError Value) :
    ∃ out, Run (setRequestedLeverage perform request rules) [(.setLeverage params, answer)] out := by
  have hquery {out : Except PyError (List Dict)}
      (h : (answer >>= fun reply => okxResponseData reply "set_leverage") = out) :
      Run (okxQuery perform (.setLeverage params) "set_leverage") [(.setLeverage params, answer)]
        out := run_okxQuery.mpr ⟨answer, rfl, h.symm⟩
  cases hitems : answer >>= fun reply => okxResponseData reply "set_leverage" with
  | error e =>
      exact ⟨.error e, run_ofExcept_bind.mpr (Or.inl ⟨some params, hparams,
        (run_bind _).mpr (Or.inr ⟨e, rfl, hquery hitems⟩)⟩)⟩
  | ok items =>
      have hrest {out : Except PyError (Option Dict)}
          (h : (verifiedSetLeveragePayload items params >>= fun payload => .ok (some payload)) = out) :
          Run (setRequestedLeverage perform request rules) [(.setLeverage params, answer)] out :=
        run_ofExcept_bind.mpr (Or.inl ⟨some params, hparams, (run_bind _).mpr (Or.inl
          ⟨_, [], items, rfl, hquery hitems,
            run_bind_ofExcept.mpr ⟨_, run_ofExcept.mpr ⟨rfl, rfl⟩, h.symm⟩⟩)⟩)
      exact ⟨_, hrest rfl⟩

/-- The conversation in which the leverage is set before the order is found to be invalid. -/
theorem run_setLeverage {params : LeverageParams} {config : AccountConfig} {e : PyError}
    (hprovider : request.provider = "okx") (hmode : request.executionMode = .real)
    (haccount : readAccountConfig account = .ok config)
    (hrules : readInstrumentRules (okxSwapInstrumentId request.symbol) instruments = .ok rules)
    (hparams : okxSwapSetLeverageParams request rules = .ok (some params))
    (hinvalid : okxSwapOrderParams ctx request rules = .error e) (answer : Except PyError Value) :
    ∃ e, Run (okxPlacementPrepareOrder ctx perform request)
      [(.getAccountConfig, .ok account),
        (.getInstruments "SWAP" (okxSwapInstrumentId request.symbol), .ok instruments),
        (.setLeverage params, answer)] (.error e) := by
  obtain ⟨out, hleverage⟩ := run_setRequestedLeverage hparams answer
  have hrest : ∃ e, Run (placementPreparation ctx perform request)
      ([(.getAccountConfig, .ok account),
        (.getInstruments "SWAP" (okxSwapInstrumentId request.symbol), .ok instruments)] ++
          [(.setLeverage params, answer)]) (.error e) := by
    have hread := run_accountAndRules_ok.mpr ⟨account, instruments, rfl, haccount, hrules⟩
    cases out with
    | error e' =>
        exact ⟨e', (run_bind _).mpr (Or.inl ⟨_, _, (config, rules), rfl, hread,
          (run_bind _).mpr (Or.inr ⟨e', rfl, hleverage⟩)⟩)⟩
    | ok leverage =>
        exact ⟨e, (run_bind _).mpr (Or.inl ⟨_, _, (config, rules), rfl, hread,
          (run_bind _).mpr (Or.inl ⟨_, [], leverage, rfl, hleverage,
            run_ofExcept_bind.mpr (Or.inr ⟨e, hinvalid, rfl, rfl⟩)⟩)⟩)⟩
  obtain ⟨e', hprepare⟩ := hrest
  refine ⟨e', run_ofExcept_bind.mpr (Or.inl ⟨(), if_neg (not_not.mpr hprovider), ?_⟩)⟩
  refine run_ofExcept_bind.mpr (Or.inl ⟨(), if_neg (not_not.mpr hmode), ?_⟩)
  exact (run_bind _).mpr (Or.inr ⟨e', rfl, hprepare⟩)

/-- **An order that cannot be built leaves nothing behind exactly when** there is no leverage
to set for it. -/
theorem invalid_without_effect_iff {e : PyError}
    (hrules : readInstrumentRules (okxSwapInstrumentId request.symbol) instruments = .ok rules)
    (hinvalid : okxSwapOrderParams ctx request rules = .error e) :
    (∀ t out, Run (okxPlacementPrepareOrder ctx perform request) t out →
        AnsweredBy account instruments t → RaisesWithoutEffect t out) ↔
      ¬SetsLeverage request account := by
  constructor
  · intro h hset
    obtain ⟨config, hconfig⟩ := hset.account
    obtain ⟨params, hparams⟩ := leverageParams_eq_some.mpr ⟨hset.leverage, hset.marginMode⟩
    obtain ⟨_, hrun⟩ := run_setLeverage hset.provider hset.executionMode hconfig hrules hparams
      hinvalid (.error (.valueError ""))
    have heffect := (h _ _ hrun (by simp [AnsweredBy])).2 (.setLeverage params, .error _)
      (List.mem_cons_of_mem _ (List.mem_cons_of_mem _ List.mem_cons_self))
    cases heffect
  · intro hset t out hrun hanswered
    have hreal := real_of_run hrun
    cases placementRun_of_run hrun with
    | refused _ => exact ⟨⟨_, rfl⟩, by simp⟩
    | unprepared h =>
        obtain ⟨_, hchanges⟩ := preparation_of_invalid hrules hinvalid hanswered h
        refine ⟨⟨_, rfl⟩, fun x hx => ?_⟩
        by_contra hchange
        rw [Bool.not_eq_false] at hchange
        obtain ⟨haccount, hparams⟩ := hchanges x hx hchange
        obtain ⟨hleverage, hmode⟩ := leverageParams_eq_some.mp hparams
        obtain ⟨hprovider, hreal⟩ := hreal (List.ne_nil_of_mem hx)
        exact hset ⟨hprovider, hreal, haccount, hleverage, hmode⟩
    | notEntered h _ =>
        obtain ⟨⟨_, herror⟩, _⟩ := preparation_of_invalid hrules hinvalid
          (fun x hx => hanswered x (List.mem_append_left _ hx)) h
        cases herror
    | entered h _ _ =>
        obtain ⟨⟨_, herror⟩, _⟩ := preparation_of_invalid hrules hinvalid
          (fun x hx => hanswered x (List.mem_append_left _ hx)) h
        cases herror

end SideEffects

namespace Sample

/-- A long entry at 100 with its stop above, at 105, and a leverage of 3. -/
def invalidEntry : BrokerOrderRequest :=
  { longEntry with stopLoss := some (tenths 1050), leverage := some (tenths 30) }

/-- The replies about the account and the instrument. -/
def accountValue : Value :=
  .dict [("code", "0"), ("data", .list [.dict [("acctLv", "2"), ("posMode", "net_mode")]])]

def instrumentValue : Value :=
  .dict [("code", "0"), ("data", .list [.dict [("ctVal", "0.01"), ("instId", "BTC-USDT-SWAP"),
    ("instType", "SWAP"), ("lotSz", "1"), ("minSz", "1"), ("state", "live"), ("tickSz", "0.1")]])]

/-- The entry does not fit the rules of the instrument. -/
theorem invalid : ∃ rules e,
    @readInstrumentRules runtime (@okxSwapInstrumentId runtime invalidEntry.symbol)
      instrumentValue = .ok rules ∧
    @okxSwapOrderParams runtime defaultContext invalidEntry rules = .error e := by
  obtain ⟨rules, hrules, hcheck⟩ := exists_ok
    (@readInstrumentRules runtime (@okxSwapInstrumentId runtime invalidEntry.symbol) instrumentValue)
    (fun rules => (@okxSwapOrderParams runtime defaultContext invalidEntry rules).toOption.isNone)
    (by decide +kernel)
  obtain ⟨e, he⟩ := exists_error hcheck
  exact ⟨rules, e, hrules, he⟩

end Sample

theorem invalid_without_effect_iff_sample : ∃ rules e,
    @okxSwapOrderParams Sample.runtime defaultContext Sample.invalidEntry rules = .error e ∧
      ((∀ t out, Run (@okxPlacementPrepareOrder Sample.runtime defaultContext _ perform
            Sample.invalidEntry) t out → AnsweredBy Sample.accountValue Sample.instrumentValue t →
          RaisesWithoutEffect t out) ↔
        ¬@SetsLeverage Sample.runtime Sample.invalidEntry Sample.accountValue) := by
  obtain ⟨rules, e, hrules, hinvalid⟩ := Sample.invalid
  exact ⟨rules, e, hinvalid, @invalid_without_effect_iff Sample.runtime _ _ _ _ _ _ hrules hinvalid⟩

/-- The leverage is set for an order that is then found to be invalid. -/
theorem leverage_set_for_invalid : ∃ rules e t out,
    @readInstrumentRules Sample.runtime (@okxSwapInstrumentId Sample.runtime
      Sample.invalidEntry.symbol) Sample.instrumentValue = .ok rules ∧
    @okxSwapOrderParams Sample.runtime defaultContext Sample.invalidEntry rules = .error e ∧
    Run (@okxPlacementPrepareOrder Sample.runtime defaultContext _ perform Sample.invalidEntry) t
      out ∧ AnsweredBy Sample.accountValue Sample.instrumentValue t ∧
    ¬RaisesWithoutEffect t out := by
  obtain ⟨rules, e, hrules, hinvalid⟩ := Sample.invalid
  obtain ⟨config, hconfig, _⟩ := exists_ok (@readAccountConfig Sample.runtime Sample.accountValue)
    (fun _ => true) (by decide +kernel)
  let _ : Runtime := Sample.runtime
  obtain ⟨params, hparams⟩ := (@leverageParams_eq_some _ Sample.invalidEntry rules).mpr
    ⟨⟨_, rfl, by decide +kernel⟩, by decide +kernel⟩
  obtain ⟨e', hrun⟩ := @run_setLeverage _ defaultContext _ _ _ _ _ _ _ rfl rfl hconfig hrules hparams
    hinvalid (Sample.reply [("instId", "BTC-USDT-SWAP"), ("lever", "3"), ("mgnMode", "cross")])
  refine ⟨rules, e, _, _, hrules, hinvalid, hrun, ?_, ?_⟩
  · simp [AnsweredBy]
  · rintro ⟨_, h⟩
    have heffect := h (.setLeverage params, _)
      (List.mem_cons_of_mem _ (List.mem_cons_of_mem _ List.mem_cons_self))
    cases heffect

end YtmExecutor
