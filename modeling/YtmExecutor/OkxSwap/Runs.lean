/-
The conversations of the placement adapter with OKX.

A conversation is the transcript of one `prepare_order`: what OKX was asked and what it
answered, in order.  Its calls and its outcome are a matter of the answers alone, and
each inversion lemma says of one stage which conversations there are.  `placementRun_iff`
joins them: an order is refused before OKX is asked anything, or its preparation fails,
or it is not entered, or it is entered, and then whatever the protection comes to is
reported.
-/
import YtmExecutor.Interaction.Run
import YtmExecutor.OkxSwap.Reports

namespace YtmExecutor

open Python Decimal Interaction Prog

/-- What OKX was asked, and what it answered. -/
abbrev OkxTranscript := Transcript OkxCall Value PyError

/-- `try`/`except ValueError` around steps that make no call. -/
def recoverValueError {α : Type} (x : String → Except PyError α) :
    Except PyError α → Except PyError α
  | .error (.valueError message) => x message
  | r => r

theorem run_takeValueError {C α : Type} {t : Transcript C Value PyError} {out : Except PyError α}
    {x : String → Except PyError α} {p : Prog C Value PyError α} :
    Run (p.handle (takeValueError fun message => ofExcept (x message))) t out ↔
      ∃ r, Run p t r ∧ out = recoverValueError x r := by
  rw [run_handle]
  constructor
  · rintro (⟨hrun, hnone⟩ | ⟨t₁, t₂, e, q, rfl, hrun, hq, hhandler⟩)
    · refine ⟨out, hrun, ?_⟩
      rcases out with (message | _ | _) | _
      · cases hnone _ rfl
      · rfl
      · rfl
      · rfl
    · cases e with
      | valueError message =>
          cases hq
          obtain ⟨rfl, rfl⟩ := run_ofExcept.mp hhandler
          exact ⟨_, by rwa [List.append_nil], rfl⟩
      | decimal signal => cases hq
      | other kind message => cases hq
  · rintro ⟨r, hrun, rfl⟩
    rcases r with (message | _ | _) | _
    · exact Or.inr ⟨t, [], _, _, (List.append_nil t).symm, hrun, rfl, run_ofExcept.mpr ⟨rfl, rfl⟩⟩
    · exact Or.inl ⟨hrun, fun e he => by cases he; rfl⟩
    · exact Or.inl ⟨hrun, fun e he => by cases he; rfl⟩
    · exact Or.inl ⟨hrun, fun e he => by cases he⟩

section Runs

variable [Runtime] {ctx : Context} {request : BrokerOrderRequest} {t : OkxTranscript}

theorem run_okxQuery {op : OkxCall} {endpoint : String} {out : Except PyError (List Dict)} :
    Run (okxQuery perform op endpoint) t out ↔
      ∃ answer, t = [(op, answer)] ∧ out = answer >>= fun reply => okxResponseData reply endpoint := by
  unfold okxQuery
  simp only [lift_eq]
  rw [run_bind_ofExcept]
  simp only [run_perform]

/-! ### Before the order -/

def readAccountConfig (reply : Value) : Except PyError AccountConfig := do
  validatedAccountConfig (← okxResponseData reply "get_account_config")

def readInstrumentRules (instId : String) (reply : Value) : Except PyError OkxSwapInstrumentRules := do
  okxSwapInstrumentRules (← okxResponseData reply "get_instruments") instId

/-- The account and the instrument are asked for, and both replies can be read. -/
theorem run_accountAndRules_ok {config : AccountConfig} {rules : OkxSwapInstrumentRules} :
    Run (accountAndRules perform request) t (.ok (config, rules)) ↔
      ∃ account instruments,
        t = [(.getAccountConfig, .ok account),
          (.getInstruments "SWAP" (okxSwapInstrumentId request.symbol), .ok instruments)] ∧
        readAccountConfig account = .ok config ∧
        readInstrumentRules (okxSwapInstrumentId request.symbol) instruments = .ok rules := by
  unfold accountAndRules readAccountConfig readInstrumentRules
  simp only [lift_eq, run_bind_ok, run_okxQuery, run_ofExcept, pure_eq, Run, bind_eq_ok]
  constructor
  · rintro ⟨_, _, items, rfl, ⟨answer, rfl, hanswer⟩, _, _, config', rfl, ⟨rfl, hconfig⟩, _, _,
      instruments, rfl, ⟨answer', rfl, hanswer'⟩, _, _, rules', rfl, ⟨rfl, hrules⟩, rfl, hout⟩
    obtain ⟨account, rfl, haccount⟩ := bind_eq_ok.mp hanswer.symm
    obtain ⟨reply, rfl, hreply⟩ := bind_eq_ok.mp hanswer'.symm
    cases hout
    exact ⟨account, reply, rfl, ⟨items, haccount, hconfig.symm⟩, ⟨instruments, hreply, hrules.symm⟩⟩
  · rintro ⟨account, reply, rfl, ⟨items, haccount, hconfig⟩, ⟨instruments, hreply, hrules⟩⟩
    exact ⟨_, _, items, rfl, ⟨_, rfl, haccount.symm⟩, [], _, config, rfl, ⟨rfl, hconfig.symm⟩, _, _,
      instruments, rfl, ⟨_, rfl, hreply.symm⟩, [], _, rules, rfl, ⟨rfl, hrules.symm⟩, rfl, rfl⟩

/-- A preparation that was completed, stage by stage. -/
theorem run_placementPreparation_ok {preparation : Preparation}
    (h : Run (placementPreparation ctx perform request) t (.ok preparation)) :
    ∃ t₁ t₂ t₃, t = t₁ ++ (t₂ ++ t₃) ∧
      Run (accountAndRules perform request) t₁ (.ok (preparation.accountConfig, preparation.rules)) ∧
      Run (setRequestedLeverage perform request preparation.rules) t₂ (.ok preparation.leverage) ∧
      okxSwapOrderParams ctx request preparation.rules = .ok preparation.params ∧
      Run (orderPrecheckPayload perform preparation.params preparation.accountConfig) t₃
        (.ok preparation.precheck) := by
  obtain ⟨t₁, _, ⟨config, rules⟩, rfl, hrules, h⟩ := run_bind_ok.mp h
  obtain ⟨t₂, _, leverage, rfl, hleverage, h⟩ := run_bind_ok.mp h
  obtain ⟨params, hparams, h⟩ := run_ofExcept_bind_ok.mp h
  obtain ⟨t₃, _, precheck, rfl, hprecheck, rfl, hout⟩ := run_bind_ok.mp h
  cases hout
  exact ⟨t₁, t₂, t₃, by rw [List.append_nil], hrules, hleverage, hparams, hprecheck⟩

theorem run_setRequestedLeverage_ok {rules : OkxSwapInstrumentRules} {leverage : Option Dict}
    (h : Run (setRequestedLeverage perform request rules) t (.ok leverage)) :
    (leverage = none ∧ t = []) ∨ ∃ params answer items payload,
      leverage = some payload ∧ okxSwapSetLeverageParams request rules = .ok (some params) ∧
      t = [(.setLeverage params, answer)] ∧
      verifiedSetLeveragePayload items params = .ok payload := by
  obtain ⟨asked, hasked, h⟩ := run_ofExcept_bind_ok.mp h
  cases asked with
  | none =>
      obtain ⟨rfl, hout⟩ := h
      exact Or.inl ⟨Except.ok.inj hout, rfl⟩
  | some params =>
      obtain ⟨_, _, items, rfl, hquery, h⟩ := run_bind_ok.mp h
      obtain ⟨payload, hpayload, rfl, hout⟩ := run_ofExcept_bind_ok.mp h
      obtain ⟨answer, rfl, _⟩ := run_okxQuery.mp hquery
      exact Or.inr ⟨params, answer, items, payload, Except.ok.inj hout, hasked, rfl, hpayload⟩

theorem run_orderPrecheckPayload {params : OrderParams} {config : AccountConfig}
    {precheck : Dict} (h : Run (orderPrecheckPayload perform params config) t (.ok precheck)) :
    (t = [] ∨ ∃ answer, t = [(.orderPrecheck params, answer)]) ∧
      isPublic (.dict precheck) = true := by
  unfold orderPrecheckPayload at h
  split at h
  · obtain ⟨rfl, hout⟩ := h
    cases hout
    exact ⟨Or.inl rfl, rfl⟩
  · obtain ⟨_, _, _, rfl, hquery, rfl, hout⟩ := run_bind_ok.mp h
    obtain ⟨answer, rfl, _⟩ := run_okxQuery.mp hquery
    cases hout
    exact ⟨Or.inr ⟨answer, rfl⟩, rfl⟩

/-- What a preparation carries can be shown. -/
theorem publicPreparation_of_run {preparation : Preparation}
    (h : Run (placementPreparation ctx perform request) t (.ok preparation)) :
    PublicPreparation preparation := by
  obtain ⟨_, _, _, _, _, hleverage, _, hprecheck⟩ := run_placementPreparation_ok h
  refine ⟨?_, (run_orderPrecheckPayload hprecheck).2⟩
  intro d hd
  rcases run_setRequestedLeverage_ok hleverage with ⟨hnone, _⟩ | ⟨_, _, _, _, hsome, _, _, hpayload⟩
  · rw [hnone] at hd
    cases hd
  · rw [hsome] at hd
    cases hd
    exact isPublic_verifiedSetLeveragePayload hpayload

/-- The calls a preparation is made of. -/
def IsPreparation : OkxCall → Prop
  | .getAccountConfig | .getInstruments _ _ | .setLeverage _ | .orderPrecheck _ => True
  | _ => False

theorem calls_of_preparation {out : Except PyError Preparation}
    (h : Run (placementPreparation ctx perform request) t out) : ∀ x ∈ t, IsPreparation x.1 :=
  (placementPreparation_callsOnly (CallsOnly.perform trivial)
    (fun _ _ => CallsOnly.perform trivial) (fun _ => CallsOnly.perform trivial)
    fun _ => CallsOnly.perform trivial).run h

/-! ### The order -/

/-- The order in the items of a `get_order` reply. -/
def orderAmong : List Dict → Except PyError (Option Dict)
  | [] => .ok none
  | response :: _ =>
      if okxOptionalText (response.get "ordId") = none then .ok none
      else do
        rejectSecretFields [] (.dict response)
        return some response

/-- What a `get_order` reply is taken to say; every `ValueError` reads as no order. -/
def readLookup (answer : Except PyError Value) : Except PyError (Option Dict) := do
  let items ← recoverValueError (fun _ => .ok [])
    (answer >>= fun reply => okxResponseData reply "get_order")
  orderAmong items

/-- What a `place_order` reply is taken to say. -/
def readPlacement (answer : Except PyError Value) : Except PyError EnteredOrder := do
  let items ← answer >>= fun reply => okxResponseData reply "place_order"
  let response ← singleOrderResponse items "place_order"
  enteredOrder false response

theorem run_lookupOrderByClientId {params : OrderParams} {out : Except PyError (Option Dict)} :
    Run (lookupOrderByClientId perform params) t out ↔
      ∃ answer, t = [(.getOrder params.instId params.clOrdId, answer)] ∧
        out = readLookup answer := by
  have hlast : lookupOrderByClientId perform params =
      (okxQuery perform (.getOrder params.instId params.clOrdId) "get_order").handle
          (takeValueError fun _ => ofExcept (.ok [])) >>= fun items =>
        ofExcept (orderAmong items) := by
    refine congrArg _ (funext fun items => ?_)
    cases items with
    | nil => rfl
    | cons response rest =>
        dsimp only [orderAmong]
        split
        · rfl
        · exact ofExcept_bind _ fun _ => .ok (some response)
  rw [hlast, run_bind_ofExcept]
  simp only [run_takeValueError, run_okxQuery]
  constructor
  · rintro ⟨_, ⟨_, ⟨answer, rfl, rfl⟩, rfl⟩, rfl⟩
    exact ⟨answer, rfl, rfl⟩
  · rintro ⟨answer, rfl, rfl⟩
    exact ⟨_, ⟨_, ⟨answer, rfl, rfl⟩, rfl⟩, rfl⟩

/-- The step of `enterOrder` that places the order. -/
theorem run_placeOrder {params : OrderParams} {out : Except PyError EnteredOrder} :
    Run (okxQuery perform (.placeOrder params) "place_order" >>= fun items =>
        ofExcept (singleOrderResponse items "place_order") >>= fun response =>
        ofExcept (enteredOrder false response)) t out ↔
      ∃ placed, t = [(.placeOrder params, placed)] ∧ out = readPlacement placed := by
  simp only [ofExcept_bind]
  rw [run_bind_ofExcept]
  simp only [run_okxQuery]
  constructor
  · rintro ⟨_, ⟨placed, rfl, rfl⟩, rfl⟩
    exact ⟨placed, rfl, rfl⟩
  · rintro ⟨placed, rfl, rfl⟩
    exact ⟨_, ⟨placed, rfl, rfl⟩, rfl⟩

/-- The order is found, or it is placed. -/
theorem run_enterOrder {params : OrderParams} {out : Except PyError EnteredOrder} :
    Run (enterOrder perform params) t out ↔
      (∃ answer existing, t = [(.getOrder params.instId params.clOrdId, answer)] ∧
          readLookup answer = .ok (some existing) ∧ out = enteredOrder true existing) ∨
        (∃ answer e, t = [(.getOrder params.instId params.clOrdId, answer)] ∧
          readLookup answer = .error e ∧ out = .error e) ∨
        ∃ answer placed, t = [(.getOrder params.instId params.clOrdId, answer),
            (.placeOrder params, placed)] ∧
          readLookup answer = .ok none ∧ out = readPlacement placed := by
  unfold enterOrder
  rw [run_bind]
  simp only [run_lookupOrderByClientId]
  constructor
  · rintro (⟨_, t₂, found, rfl, ⟨answer, rfl, hanswer⟩, h⟩ | ⟨e, rfl, answer, rfl, hanswer⟩)
    · cases found with
      | some existing =>
          obtain ⟨rfl, rfl⟩ := run_ofExcept.mp h
          exact Or.inl ⟨answer, existing, rfl, hanswer.symm, rfl⟩
      | none =>
          obtain ⟨placed, rfl, rfl⟩ := run_placeOrder.mp h
          exact Or.inr (Or.inr ⟨answer, placed, rfl, hanswer.symm, rfl⟩)
    · exact Or.inr (Or.inl ⟨answer, e, rfl, hanswer.symm, rfl⟩)
  · rintro (⟨answer, existing, rfl, hanswer, rfl⟩ | ⟨answer, e, rfl, hanswer, rfl⟩ |
      ⟨answer, placed, rfl, hanswer, rfl⟩)
    · exact Or.inl ⟨_, [], some existing, rfl, ⟨answer, rfl, hanswer.symm⟩,
        run_ofExcept.mpr ⟨rfl, rfl⟩⟩
    · exact Or.inr ⟨e, rfl, answer, rfl, hanswer.symm⟩
    · exact Or.inl ⟨[_], [_], none, rfl, ⟨answer, rfl, hanswer.symm⟩,
        run_placeOrder.mpr ⟨placed, rfl, rfl⟩⟩

theorem calls_of_entry {params : OrderParams} {out : Except PyError EnteredOrder}
    (h : Run (enterOrder perform params) t out) :
    ∀ x ∈ t, x.1 = .getOrder params.instId params.clOrdId ∨ x.1 = .placeOrder params := by
  rcases run_enterOrder.mp h with ⟨_, _, rfl, _⟩ | ⟨_, _, rfl, _⟩ | ⟨_, _, rfl, _⟩
  · simp
  · simp
  · simp

/-! ### The protection -/

section Protection

variable {rules : OkxSwapInstrumentRules} {expected : AttachedTpSl} {providerOrderId : String}

/-- The query for the pending algo orders of a type. -/
def pendingQuery (rules : OkxSwapInstrumentRules) (orderType : String) : OkxCall :=
  .orderAlgosPending "SWAP" rules.instId orderType

/-- The pending algo orders an answer lists. -/
def readPending (orderType : String) (answer : Except PyError Value) : Except PyError (List Dict) :=
  answer >>= fun reply => okxResponseData reply ("order_algos_pending_" ++ orderType)

/-- The open position an answer shows. -/
def readPosition (ctx : Context) (rules : OkxSwapInstrumentRules) (answer : Except PyError Value) :
    Except PyError (Option Dict) := do
  let items ← answer >>= fun reply => okxResponseData reply "get_positions"
  matchingOpenPosition ctx rules items

/-- The types are asked for in order, until an answer cannot be read or lists the protection. -/
inductive PendingRun (rules : OkxSwapInstrumentRules) (expected : AttachedTpSl)
    (providerOrderId : String) :
    List String → OkxTranscript → Except PyError (Option Dict) → Prop
  | exhausted : PendingRun rules expected providerOrderId [] [] (.ok none)
  | unreadable {orderType : String} {rest : List String} {answer : Except PyError Value}
      {e : PyError} (h : readPending orderType answer = .error e) :
      PendingRun rules expected providerOrderId (orderType :: rest)
        [(pendingQuery rules orderType, answer)] (.error e)
  | found {orderType : String} {rest : List String} {answer : Except PyError Value}
      {items : List Dict} {item : Dict} (h : readPending orderType answer = .ok items)
      (hfound : matchingPendingProtection items expected providerOrderId = some item) :
      PendingRun rules expected providerOrderId (orderType :: rest)
        [(pendingQuery rules orderType, answer)] (.ok (some item))
  | next {orderType : String} {rest : List String} {answer : Except PyError Value}
      {items : List Dict} {t : OkxTranscript} {out : Except PyError (Option Dict)}
      (h : readPending orderType answer = .ok items)
      (hnone : matchingPendingProtection items expected providerOrderId = none)
      (hrest : PendingRun rules expected providerOrderId rest t out) :
      PendingRun rules expected providerOrderId (orderType :: rest)
        ((pendingQuery rules orderType, answer) :: t) out

/-- Nothing but pending algo orders is asked for. -/
theorem PendingRun.calls {orderTypes : List String} {out : Except PyError (Option Dict)}
    (h : PendingRun rules expected providerOrderId orderTypes t out) :
    ∀ x ∈ t, ∃ orderType ∈ orderTypes, x.1 = pendingQuery rules orderType := by
  induction h with
  | exhausted => simp
  | unreadable _ => simp
  | found _ _ => simp
  | next _ _ _ ih =>
      intro x hx
      rcases List.mem_cons.mp hx with rfl | hx
      · exact ⟨_, List.mem_cons_self, rfl⟩
      · exact (ih x hx).imp fun _ h => ⟨List.mem_cons_of_mem _ h.1, h.2⟩

/-- What was found is listed, and is the expected protection. -/
theorem PendingRun.found_mem {orderTypes : List String} {item : Dict}
    (h : PendingRun rules expected providerOrderId orderTypes t (.ok (some item))) :
    ∃ orderType answer items, (pendingQuery rules orderType, answer) ∈ t ∧
      readPending orderType answer = .ok items ∧ item ∈ items ∧
      matchesProtection expected providerOrderId item = true := by
  generalize hout : (Except.ok (some item) : Except PyError (Option Dict)) = out at h
  induction h with
  | exhausted => cases hout
  | unreadable _ => cases hout
  | found hread hfound =>
      cases hout
      exact ⟨_, _, _, List.mem_cons_self, hread, List.mem_of_find?_eq_some hfound,
        List.find?_some hfound⟩
  | next _ _ _ ih =>
      obtain ⟨orderType, answer, items, hmem, hitem⟩ := ih hout
      exact ⟨orderType, answer, items, List.mem_cons_of_mem _ hmem, hitem⟩

theorem pendingRun_of_run {orderTypes : List String} {out : Except PyError (Option Dict)}
    (h : Run (matchingPendingProtectionFromApi perform rules expected providerOrderId orderTypes) t
      out) : PendingRun rules expected providerOrderId orderTypes t out := by
  induction orderTypes generalizing t with
  | nil =>
      obtain ⟨rfl, rfl⟩ := h
      exact PendingRun.exhausted
  | cons orderType rest ih =>
      rcases (run_bind _).mp h with ⟨_, t₂, items, rfl, hquery, hitems⟩ | ⟨e, rfl, hquery⟩
      · obtain ⟨answer, rfl, hanswer⟩ := run_okxQuery.mp hquery
        cases hmatch : matchingPendingProtection items expected providerOrderId with
        | some item =>
            rw [hmatch] at hitems
            obtain ⟨rfl, rfl⟩ := hitems
            exact PendingRun.found hanswer.symm hmatch
        | none =>
            rw [hmatch] at hitems
            exact PendingRun.next hanswer.symm hmatch (ih hitems)
      · obtain ⟨answer, rfl, hanswer⟩ := run_okxQuery.mp hquery
        exact PendingRun.unreadable hanswer.symm

/-- A position is asked for, and what follows depends on the answer. -/
theorem run_queryOpenPosition_bind {f : Option Dict → Prog OkxCall Value PyError Dict}
    {out : Except PyError Dict} (h : Run (queryOpenPosition ctx perform rules >>= f) t out) :
    ∃ answer t', t = (.getPositions "SWAP" rules.instId, answer) :: t' ∧
      ((∃ position, readPosition ctx rules answer = .ok position ∧ Run (f position) t' out) ∨
        ∃ e, readPosition ctx rules answer = .error e ∧ t' = [] ∧ out = .error e) := by
  have hquery {t : OkxTranscript} {out : Except PyError (Option Dict)}
      (h : Run (queryOpenPosition ctx perform rules) t out) :
      ∃ answer, t = [(.getPositions "SWAP" rules.instId, answer)] ∧
        readPosition ctx rules answer = out := by
    obtain ⟨_, hrun, rfl⟩ := run_bind_ofExcept.mp h
    obtain ⟨answer, rfl, rfl⟩ := run_okxQuery.mp hrun
    exact ⟨answer, rfl, rfl⟩
  rcases (run_bind _).mp h with ⟨_, t₂, position, rfl, hposition, hrest⟩ | ⟨e, rfl, hposition⟩
  · obtain ⟨answer, rfl, hanswer⟩ := hquery hposition
    exact ⟨answer, t₂, rfl, Or.inl ⟨position, hanswer, hrest⟩⟩
  · obtain ⟨answer, rfl, hanswer⟩ := hquery hposition
    exact ⟨answer, [], rfl, Or.inr ⟨e, hanswer, rfl, rfl⟩⟩

/-- The stop is built and placed, and the reply is read. -/
theorem run_remediatePosition {position : Dict} {reasonCode : String} {out : Except PyError Dict}
    (h : Run (remediatePosition ctx perform request providerOrderId position rules expected
      reasonCode) t out) :
    (∃ e, remediationStopLossParams ctx request providerOrderId position rules expected = .error e ∧
      t = [] ∧
      out = recoverValueError (fun message => .ok (unprotected expected reasonCode message))
        (.error e)) ∨
    ∃ params answer, 
      remediationStopLossParams ctx request providerOrderId position rules expected = .ok params ∧
      t = [(.placeAlgoOrder params, answer)] ∧ ∃ report : Dict → Dict,
        (∀ response, (report response).get "status" = "protected_remediated") ∧
        out = recoverValueError (fun message => .ok (unprotected expected reasonCode message))
          (do let items ← answer >>= fun reply => okxResponseData reply "place_algo_order"
              let response ← singleOrderResponse items "place_algo_order"
              return report response) := by
  obtain ⟨_, hrun, rfl⟩ := (run_takeValueError
    (x := fun message => .ok (unprotected expected reasonCode message))).mp h
  rcases run_ofExcept_bind.mp hrun with ⟨params, hparams, hplace⟩ | ⟨e, he, rfl, rfl⟩
  · simp only [lift_eq, pure_eq, ← ofExcept_ok, ofExcept_bind] at hplace
    obtain ⟨_, hquery, rfl⟩ := run_bind_ofExcept.mp hplace
    obtain ⟨answer, rfl, rfl⟩ := run_okxQuery.mp hquery
    refine Or.inr ⟨params, answer, hparams, rfl, _, ?_, rfl⟩
    intro response
    obtain ⟨_, _, _, _, takeProfit⟩ := expected
    cases takeProfit <;> rfl
  · exact Or.inl ⟨e, he, rfl, rfl⟩

/-- OKX said that it refused the attached protection. -/
def AttachmentRejected (response : Dict) (expected : AttachedTpSl) : Prop :=
  ((attachedProtectionResponse (response.get "attachAlgoOrds") expected).bind fun item =>
    okxOptionalText (item.get "failCode")).isSome = true

/-- Nothing was found that protects the position: the attachment was refused, or none of the
pending algo orders is the expected one. -/
inductive Unprotected (rules : OkxSwapInstrumentRules) (expected : AttachedTpSl)
    (providerOrderId : String) (response : Dict) : OkxTranscript → Prop
  | rejected (h : AttachmentRejected response expected) :
      Unprotected rules expected providerOrderId response []
  | notListed {t : OkxTranscript} (h : ¬AttachmentRejected response expected)
      (hpending : PendingRun rules expected providerOrderId okxAlgoOrderTypes t (.ok none)) :
      Unprotected rules expected providerOrderId response t

theorem Unprotected.calls {response : Dict}
    (h : Unprotected rules expected providerOrderId response t) :
    ∀ x ∈ t, ∃ orderType, x.1 = pendingQuery rules orderType := by
  cases h with
  | rejected _ => simp
  | notListed _ hpending =>
      exact fun x hx => (hpending.calls x hx).imp fun _ h => h.2

/-- What becomes of the protection of an order. -/
inductive ProtectionRun (ctx : Context) (request : BrokerOrderRequest) (params : OrderParams)
    (response : Dict) (providerOrderId : String) (rules : OkxSwapInstrumentRules) :
    OkxTranscript → Except PyError Dict → Prop
  | notRequired {report : Dict} (h : expectedProtection params = none)
      (hstatus : report.get "status" = "not_required") :
      ProtectionRun ctx request params response providerOrderId rules [] (.ok report)
  | found {expected : AttachedTpSl} {t : OkxTranscript} {item : Dict}
      (h : expectedProtection params = some expected) (hattached : ¬AttachmentRejected response expected)
      (hpending : PendingRun rules expected providerOrderId okxAlgoOrderTypes t (.ok (some item))) :
      ProtectionRun ctx request params response providerOrderId rules t
        (.ok (protectedBy expected item))
  | unreadable {expected : AttachedTpSl} {t : OkxTranscript} {e : PyError}
      (h : expectedProtection params = some expected) (hattached : ¬AttachmentRejected response expected)
      (hpending : PendingRun rules expected providerOrderId okxAlgoOrderTypes t (.error e)) :
      ProtectionRun ctx request params response providerOrderId rules t (.error e)
  | unknownPosition {expected : AttachedTpSl} {t : OkxTranscript} {answer : Except PyError Value}
      {e : PyError} (h : expectedProtection params = some expected)
      (hunprotected : Unprotected rules expected providerOrderId response t)
      (hposition : readPosition ctx rules answer = .error e) :
      ProtectionRun ctx request params response providerOrderId rules
        (t ++ [(.getPositions "SWAP" rules.instId, answer)]) (.error e)
  | noPosition {expected : AttachedTpSl} {t : OkxTranscript} {answer : Except PyError Value}
      {report : Dict} (h : expectedProtection params = some expected)
      (hunprotected : Unprotected rules expected providerOrderId response t)
      (hposition : readPosition ctx rules answer = .ok none)
      (hstatus : report.get "status" = "pending_activation") :
      ProtectionRun ctx request params response providerOrderId rules
        (t ++ [(.getPositions "SWAP" rules.instId, answer)]) (.ok report)
  | openPosition {expected : AttachedTpSl} {t t' : OkxTranscript} {answer : Except PyError Value}
      {position : Dict} {reasonCode : String} {out : Except PyError Dict}
      (h : expectedProtection params = some expected)
      (hunprotected : Unprotected rules expected providerOrderId response t)
      (hposition : readPosition ctx rules answer = .ok (some position))
      (hremediate : Run (remediatePosition ctx perform request providerOrderId position rules
        expected reasonCode) t' out) :
      ProtectionRun ctx request params response providerOrderId rules
        (t ++ (.getPositions "SWAP" rules.instId, answer) :: t') out

/-- Nothing protects the position, so it is asked for. -/
theorem protectionRun_of_position {params : OrderParams} {response : Dict} {t' : OkxTranscript}
    {out : Except PyError Dict} {reasonCode : String} {report : Dict}
    {f : Option Dict → Prog OkxCall Value PyError Dict}
    (hexpected : expectedProtection params = some expected)
    (hunprotected : Unprotected rules expected providerOrderId response t)
    (hsome : ∀ position, f (some position) =
      remediatePosition ctx perform request providerOrderId position rules expected reasonCode)
    (hnone : f none = done report) (hstatus : report.get "status" = "pending_activation")
    (h : Run (queryOpenPosition ctx perform rules >>= f) t' out) :
    ProtectionRun ctx request params response providerOrderId rules (t ++ t') out := by
  obtain ⟨answer, t'', rfl, ⟨position, hposition, hrest⟩ | ⟨e, hposition, rfl, rfl⟩⟩ :=
    run_queryOpenPosition_bind h
  · cases position with
    | none =>
        rw [hnone] at hrest
        obtain ⟨rfl, rfl⟩ := hrest
        exact ProtectionRun.noPosition hexpected hunprotected hposition hstatus
    | some position =>
        rw [hsome] at hrest
        exact ProtectionRun.openPosition hexpected hunprotected hposition hrest
  · exact ProtectionRun.unknownPosition hexpected hunprotected hposition

/-- **A run of the verification, stage by stage.** -/
theorem protectionRun_of_run {params : OrderParams} {response : Dict} {out : Except PyError Dict}
    (h : Run (verifyOrRemediateProtection ctx perform request params response providerOrderId rules)
      t out) : ProtectionRun ctx request params response providerOrderId rules t out := by
  unfold verifyOrRemediateProtection at h
  split at h
  · rename_i hexpected
    obtain ⟨rfl, rfl⟩ := h
    exact ProtectionRun.notRequired hexpected rfl
  · rename_i expected hexpected
    have hattachment : AttachmentRejected response expected ↔
        (((attachedProtectionResponse (response.get "attachAlgoOrds") expected).bind fun item =>
          (okxOptionalText (item.get "failCode")).map (item, ·)).isSome = true) := by
      unfold AttachmentRejected
      cases attachedProtectionResponse (response.get "attachAlgoOrds") expected with
      | none => simp
      | some item => simp
    dsimp only at h
    split at h
    · rename_i item failCode hfail
      have hrejected : AttachmentRejected response expected := by
        rw [hattachment, hfail]
        rfl
      refine protectionRun_of_position hexpected (Unprotected.rejected hrejected) (fun _ => rfl) rfl
        ?_ h
      obtain ⟨_, _, _, _, takeProfit⟩ := expected
      cases takeProfit <;> rfl
    · rename_i hfail
      have hattached : ¬AttachmentRejected response expected := by
        rw [hattachment, hfail]
        simp
      rcases (run_bind _).mp h with ⟨t₁, t₂, found, rfl, hpending, hrest⟩ | ⟨e, rfl, hpending⟩
      · cases found with
        | some item =>
            obtain ⟨rfl, rfl⟩ := hrest
            rw [List.append_nil]
            exact ProtectionRun.found hexpected hattached (pendingRun_of_run hpending)
        | none =>
            refine protectionRun_of_position hexpected (Unprotected.notListed hattached
              (pendingRun_of_run hpending)) (fun _ => rfl) rfl ?_ hrest
            obtain ⟨_, _, _, _, takeProfit⟩ := expected
            cases takeProfit <;> rfl
      · exact ProtectionRun.unreadable hexpected hattached (pendingRun_of_run hpending)

theorem run_safeVerifyOrRemediateProtection {params : OrderParams} {response : Dict}
    {out : Except PyError Dict} (h : Run (safeVerifyOrRemediateProtection ctx perform request params
      response providerOrderId rules) t out) :
    ∃ r, ProtectionRun ctx request params response providerOrderId rules t r ∧
      ∃ failure : String → Dict,
        (∀ message, (failure message).get "status" = "verification_failed") ∧
        out = recoverValueError (fun message => .ok (failure message)) r := by
  obtain ⟨r, hrun, rfl⟩ := (run_takeValueError (x := fun message => .ok _)).mp h
  refine ⟨r, protectionRun_of_run hrun, _, ?_, rfl⟩
  intro message
  cases expectedProtection params with
  | none => rfl
  | some expected =>
      obtain ⟨_, _, _, _, takeProfit⟩ := expected
      cases takeProfit <;> rfl

/-! The statuses of the reports. -/

omit [Runtime] in
theorem status_protectedBy (item : Dict) :
    (protectedBy expected item).get "status" = "protected" := by
  obtain ⟨_, _, _, _, takeProfit⟩ := expected
  cases takeProfit <;> rfl

omit [Runtime] in
theorem status_unprotected (reasonCode message : String) :
    (unprotected expected reasonCode message).get "status" = "unprotected" := by
  obtain ⟨_, _, _, _, takeProfit⟩ := expected
  cases takeProfit <;> rfl

omit [Runtime] in
theorem recoverValueError_eq_ok {α : Type} {x : String → Except PyError α} {r : Except PyError α}
    {a : α} (h : recoverValueError x r = .ok a) :
    r = .ok a ∨ ∃ message, r = .error (.valueError message) ∧ x message = .ok a := by
  rcases r with (message | _ | _) | b
  · exact Or.inr ⟨message, rfl, h⟩
  · cases h
  · cases h
  · exact Or.inl h

/-- A report of a position that was open says so, unless a stop was placed. -/
theorem status_remediatePosition {position : Dict} {reasonCode : String} {report : Dict}
    (h : Run (remediatePosition ctx perform request providerOrderId position rules expected
      reasonCode) t (.ok report)) :
    report.get "status" = "unprotected" ∨
      (report.get "status" = "protected_remediated" ∧
        ∃ stop answer, t = [(.placeAlgoOrder stop, answer)]) := by
  rcases run_remediatePosition h with ⟨e, _, rfl, hout⟩ | ⟨stop, answer, _, rfl, made, hmade, hout⟩
  · rcases recoverValueError_eq_ok hout.symm with h | ⟨message, _, h⟩
    · cases h
    · cases h
      exact Or.inl (status_unprotected _ _)
  · rcases recoverValueError_eq_ok hout.symm with h | ⟨message, _, h⟩
    · obtain ⟨items, _, h⟩ := bind_eq_ok.mp h
      obtain ⟨response, _, h⟩ := bind_eq_ok.mp h
      cases h
      exact Or.inr ⟨hmade response, stop, answer, rfl⟩
    · cases h
      exact Or.inl (status_unprotected _ _)

/-- What a report of the verification says, and on what grounds. -/
theorem status_of_run {params : OrderParams} {response report : Dict}
    (h : Run (safeVerifyOrRemediateProtection ctx perform request params response providerOrderId
      rules) t (.ok report)) :
    (report.get "status" = "protected" ∧ ∃ expected item,
        expectedProtection params = some expected ∧ ¬AttachmentRejected response expected ∧
        PendingRun rules expected providerOrderId okxAlgoOrderTypes t (.ok (some item))) ∨
      (report.get "status" = "protected_remediated" ∧
        ∃ stop answer, (.placeAlgoOrder stop, answer) ∈ t) ∨
      ∃ status, report.get "status" = .str status ∧
        status ∈ ["not_required", "unprotected", "pending_activation", "verification_failed"] := by
  obtain ⟨r, hprotection, failure, hfailure, hout⟩ := run_safeVerifyOrRemediateProtection h
  rcases recoverValueError_eq_ok hout.symm with rfl | ⟨message, rfl, hmessage⟩
  · cases hprotection with
    | notRequired _ hstatus => exact Or.inr (Or.inr ⟨_, hstatus, by simp⟩)
    | found hexpected hattached hpending =>
        exact Or.inl ⟨status_protectedBy _, _, _, hexpected, hattached, hpending⟩
    | noPosition _ _ _ hstatus => exact Or.inr (Or.inr ⟨_, hstatus, by simp⟩)
    | openPosition _ _ _ hremediate =>
        rcases status_remediatePosition hremediate with hstatus | ⟨hstatus, stop, answer, rfl⟩
        · exact Or.inr (Or.inr ⟨_, hstatus, by simp⟩)
        · exact Or.inr (Or.inl ⟨hstatus, stop, answer, by simp⟩)
  · cases hmessage
    exact Or.inr (Or.inr ⟨_, hfailure message, by simp⟩)

end Protection

/-! ### The whole conversation -/

/-- What becomes of an order. -/
inductive PlacementRun (ctx : Context) (request : BrokerOrderRequest) :
    OkxTranscript → Except PyError BrokerAdapterResult → Prop
  | refused {message : String} (h : request.provider ≠ "okx" ∨ request.executionMode ≠ .real) :
      PlacementRun ctx request [] (.error (.valueError message))
  | unprepared {t : OkxTranscript} {e : PyError}
      (h : Run (placementPreparation ctx perform request) t (.error e)) :
      PlacementRun ctx request t (.error e)
  | notEntered {t t' : OkxTranscript} {preparation : Preparation} {e : PyError}
      (h : Run (placementPreparation ctx perform request) t (.ok preparation))
      (h' : Run (enterOrder perform preparation.params) t' (.error e)) :
      PlacementRun ctx request (t ++ t') (.error e)
  | entered {t t' t'' : OkxTranscript} {preparation : Preparation} {order : EnteredOrder}
      {protection : Except PyError Dict}
      (h : Run (placementPreparation ctx perform request) t (.ok preparation))
      (h' : Run (enterOrder perform preparation.params) t' (.ok order))
      (h'' : Run (safeVerifyOrRemediateProtection ctx perform request preparation.params
        order.response order.providerOrderId preparation.rules) t'' protection) :
      PlacementRun ctx request (t ++ (t' ++ t'')) (protection.map fun report =>
        ⟨placementEntries preparation order report (normalizedOrderEntries preparation.params)⟩)

/-- **A run of `prepare_order`, stage by stage.** -/
theorem placementRun_of_run {out : Except PyError BrokerAdapterResult}
    (h : Run (okxPlacementPrepareOrder ctx perform request) t out) : PlacementRun ctx request t out := by
  have hrefused (message : String) (c : Prop) [Decidable c] {e : PyError}
      (he : raiseIf c message = .error e) : c ∧ e = .valueError message := by
    unfold raiseIf at he
    by_cases hc : c
    · rw [if_pos hc] at he
      exact ⟨hc, (Except.error.inj he).symm⟩
    · rw [if_neg hc] at he
      cases he
  rcases run_ofExcept_bind.mp h with ⟨_, _, hreal⟩ | ⟨_, he, rfl, rfl⟩
  · rcases run_ofExcept_bind.mp hreal with ⟨_, _, hplace⟩ | ⟨_, he, rfl, rfl⟩
    · rcases (run_bind _).mp hplace with ⟨t₁, _, preparation, rfl, hprepared, henter⟩ | ⟨e, rfl, he⟩
      · rcases (run_bind _).mp henter with ⟨t₂, t₃, order, rfl, hentered, hreport⟩ | ⟨e, rfl, he⟩
        · have hpublic := publicPreparation_of_run hprepared
          rcases (run_bind _).mp hreport with ⟨t₄, t₅, report, rfl, hverified, hpayload⟩ |
            ⟨e, rfl, hverified⟩
          · have hreport := (safeVerifyOrRemediateProtection_yields.run hverified).2 report rfl
            rw [placementPayload_ok hpublic hreport] at hpayload
            obtain ⟨rfl, rfl⟩ := hpayload
            have := PlacementRun.entered hprepared hentered hverified
            rwa [List.append_nil]
          · exact PlacementRun.entered hprepared hentered hverified
        · exact PlacementRun.notEntered hprepared he
      · exact PlacementRun.unprepared he
    · obtain ⟨hc, rfl⟩ := hrefused _ _ he
      exact PlacementRun.refused (Or.inr hc)
  · obtain ⟨hc, rfl⟩ := hrefused _ _ he
    exact PlacementRun.refused (Or.inl hc)

/-- Once an order is entered, what is left is its protection. -/
theorem protection_of_run {t' t'' : OkxTranscript} {preparation : Preparation}
    {order : EnteredOrder} {out : Except PyError BrokerAdapterResult}
    (h : Run (okxPlacementPrepareOrder ctx perform request) (t ++ (t' ++ t'')) out)
    (hprepared : Run (placementPreparation ctx perform request) t (.ok preparation))
    (hentered : Run (enterOrder perform preparation.params) t' (.ok order)) :
    ∃ protection, Run (safeVerifyOrRemediateProtection ctx perform request preparation.params
        order.response order.providerOrderId preparation.rules) t'' protection ∧
      out = protection.map fun report =>
        ⟨placementEntries preparation order report (normalizedOrderEntries preparation.params)⟩ := by
  have hcalled : t ++ (t' ++ t'') ≠ [] := by
    obtain ⟨_, _, _, rfl, hrules, _⟩ := run_placementPreparation_ok hprepared
    obtain ⟨_, _, rfl, _⟩ := run_accountAndRules_ok.mp hrules
    simp
  rcases run_ofExcept_bind.mp h with ⟨_, _, hreal⟩ | ⟨_, _, hnone, _⟩
  · rcases run_ofExcept_bind.mp hreal with ⟨_, _, hplace⟩ | ⟨_, _, hnone, _⟩
    · have hreport := (run_bind_append hentered).mp ((run_bind_append hprepared).mp hplace)
      rcases (run_bind _).mp hreport with ⟨t₄, t₅, report, rfl, hverified, hpayload⟩ |
        ⟨e, rfl, hverified⟩
      · have hpublic := (safeVerifyOrRemediateProtection_yields.run hverified).2 report rfl
        rw [placementPayload_ok (publicPreparation_of_run hprepared) hpublic] at hpayload
        obtain ⟨rfl, rfl⟩ := hpayload
        exact ⟨.ok report, by rwa [List.append_nil], rfl⟩
      · exact ⟨.error e, hverified, rfl⟩
    · exact absurd hnone hcalled
  · exact absurd hnone hcalled

/-- OKX is asked nothing but for a real OKX order. -/
theorem real_of_run {out : Except PyError BrokerAdapterResult}
    (h : Run (okxPlacementPrepareOrder ctx perform request) t out) (hcalls : t ≠ []) :
    request.provider = "okx" ∧ request.executionMode = .real := by
  rcases run_ofExcept_bind.mp h with ⟨_, hprovider, hrest⟩ | ⟨_, _, rfl, _⟩
  · rcases run_ofExcept_bind.mp hrest with ⟨_, hmode, _⟩ | ⟨_, _, rfl, _⟩
    · exact ⟨not_not.mp (raiseIf_eq_ok.mp hprovider), not_not.mp (raiseIf_eq_ok.mp hmode)⟩
    · exact absurd rfl hcalls
  · exact absurd rfl hcalls

/-- The outcome has this protection status. -/
def EndsWithProtection (out : Except PyError BrokerAdapterResult) (status : String) : Prop :=
  ∃ result, out = .ok result ∧ (result.payload.get "protectionStatus").isText status = true

omit [Runtime] in
/-- The status of an entered order is the one of the protection's report. -/
theorem endsWithProtection_entered {preparation : Preparation} {order : EnteredOrder}
    {protection : Except PyError Dict} {normalizedOrder : Dict} {status : String} :
    EndsWithProtection (protection.map fun report =>
        ⟨placementEntries preparation order report normalizedOrder⟩) status ↔
      ∃ report, protection = .ok report ∧ (report.get "status").isText status = true := by
  constructor
  · rintro ⟨result, hresult, hstatus⟩
    cases protection with
    | error e => cases hresult
    | ok report =>
        cases hresult
        exact ⟨report, rfl, hstatus⟩
  · rintro ⟨report, rfl, hstatus⟩
    exact ⟨_, rfl, hstatus⟩

end Runs

end YtmExecutor
