/-
An accepted order is not recorded as rejected, as far as it is.

Once OKX has taken the entry order of a command, a rejection of that command would be
wrong.  It can come from two places: from the reply to the order itself, and from
anything a later turn does before it finds the order.  `RepliesRead` and `RetriesClear`
say that neither happens, and then no rejection is ever recorded.

What carries the proof over crashes is `Consistent`: the file holds acknowledged results
only, and an accepted command's order is held under the id its content determines.
-/
import YtmExecutor.AtMostOnce
import YtmExecutor.OkxSwap.Reports

namespace YtmExecutor

open Python Decimal Interaction Prog World

/-! ### The file of results -/

section File

variable [Runtime]

/-- Every result in the file is an acknowledged one. -/
def AllAcknowledged (file : Value) : Prop :=
  ∀ commandId cached, ExecutionStore.get file commandId = .ok (some cached) →
    cached.status = "acknowledged"

omit [Runtime] in
theorem dictEntries_records (records : List (String × Dict)) :
    ExecutionStore.dictEntries (records.map fun record => (.str record.1, .dict record.2))
      = records := by
  induction records with
  | nil => rfl
  | cons record rest ih =>
      rw [List.map_cons, ExecutionStore.dictEntries, ih]
      rfl

omit [Runtime] in
theorem lookup_putRecord (records : List (String × Dict)) (key k : String) (item : Dict) :
    (ExecutionStore.putRecord records key item).lookup k =
      if k = key then some item else records.lookup k := by
  rw [ExecutionStore.putRecord_eq_setField, lookup_setField]

theorem get_eq_ok_some {file : Value} {commandId : String} {cached : StoredExecutionResult} :
    ExecutionStore.get file commandId = .ok (some cached) ↔
      ∃ records item, ExecutionStore.read file = .ok records ∧
        records.lookup commandId = some item ∧
        ExecutionStore.storedResult commandId item = .ok (some cached) := by
  unfold ExecutionStore.get
  rw [bind_eq_ok]
  constructor
  · rintro ⟨records, hread, h⟩
    cases hitem : records.lookup commandId with
    | none => simp [hitem, pure, Except.pure] at h
    | some item =>
        rw [hitem] at h
        exact ⟨records, item, hread, hitem, h⟩
  · rintro ⟨records, item, hread, hitem, h⟩
    exact ⟨records, hread, by rw [hitem]; exact h⟩

/-- Caching an acknowledged result keeps the file acknowledged. -/
theorem put_acknowledged {file content : Value} {commandId : String} {resultPayload : Dict}
    {now : Instant} (hfile : AllAcknowledged file)
    (h : ExecutionStore.put file commandId "acknowledged" resultPayload now = .ok content) :
    AllAcknowledged content := by
  unfold ExecutionStore.put at h
  obtain ⟨_, _, h⟩ := bind_eq_ok.mp h
  obtain ⟨records, hread, h⟩ := bind_eq_ok.mp h
  intro id cached hget
  obtain ⟨records', item, hread', hitem, hstored⟩ := get_eq_ok_some.mp hget
  rw [← Except.ok.inj h] at hread'
  obtain ⟨_, _, hread'⟩ := bind_eq_ok.mp hread'
  rw [← Except.ok.inj hread', dictEntries_records, lookup_putRecord] at hitem
  split at hitem
  · rw [← Option.some.inj hitem] at hstored
    obtain ⟨_, _, hstored⟩ := bind_eq_ok.mp hstored
    rw [← Option.some.inj (Except.ok.inj hstored)]
  · exact hfile id cached (get_eq_ok_some.mpr ⟨records, item, hread, hitem, hstored⟩)

end File

/-! ### What is assumed -/

section Assumptions

variable [Runtime] (ctx : Context)

def readAccount (v : Value) : Except PyError AccountConfig := do
  validatedAccountConfig (← okxResponseData v "get_account_config")

def readRules (instId : String) (v : Value) : Except PyError OkxSwapInstrumentRules := do
  okxSwapInstrumentRules (← okxResponseData v "get_instruments") instId

def readLeverage (params : LeverageParams) (v : Value) : Except PyError Dict := do
  verifiedSetLeveragePayload (← okxResponseData v "set_leverage") params

def readPlaced (v : Value) : Except PyError EnteredOrder := do
  enteredOrder false (← singleOrderResponse (← okxResponseData v "place_order") "place_order")

/-- Reading the reply raises no `ValueError`, and the rules it gives fit the request. -/
def Readable (request : BrokerOrderRequest) : OkxCall → Except PyError Value → Prop
  | .getAccountConfig, r => NoValueError (r >>= readAccount)
  | .getInstruments _ instId, r =>
      NoValueError (r >>= readRules instId) ∧
        ∀ rules, (r >>= readRules instId) = .ok rules →
          NoValueError (okxSwapSetLeverageParams request rules) ∧
            NoValueError (okxSwapOrderParams ctx request rules)
  | .setLeverage params, r => NoValueError (r >>= readLeverage params)
  | .orderPrecheck _, r => NoValueError (r >>= fun v => okxResponseData v "order_precheck")
  | .placeOrder _, r => NoValueError (r >>= readPlaced)
  | _, _ => True

/-- The item and the command a lease response leases. -/
def Leases (leaseResponse item command : Dict) : Prop :=
  leaseResponse.get "item" = .dict item ∧ item.get "command" = .dict command

/-- A command has the same content whenever it is leased. -/
def SameContent (commands : String → Dict) (leaseResponse : Dict) : Prop :=
  ∀ item command, Leases leaseResponse item command → commands (idOf command) = command

/-- The request of the running command. -/
def RequestOf (commands : String → Dict) (s : World) (request : BrokerOrderRequest) : Prop :=
  buildOrderRequest (commands s.turn) .real = .ok request

/-- Once the entry order of the running command is taken, replies can be read. -/
def RepliesRead (commands : String → Dict) : Assumption := fun s c r took =>
  s.turn ∈ (s.after took c).accepted →
    ∀ request, RequestOf commands s request → ∀ keys op, c = .okx keys op →
      Readable ctx request op r

/-- A command that was accepted and is not cached passes the gates again. -/
def RetriesClear (s : World) (leaseResponse : Dict) (inputs : LocalInputs) : Prop :=
  ∀ item command preflight, Leases leaseResponse item command → idOf command ∈ s.accepted →
    s.torn = false → ExecutionStore.get s.executions (idOf command) = .ok none →
    preflightInputs inputs = .ok preflight →
      (∀ d, preflightGates ctx item preflight ≠ .error (.decided d)) ∧
        ∀ cleared, preflightGates ctx item preflight = .ok cleared →
          NoValueError (adapterForCommand cleared preflight.localSecretResolver)

end Assumptions

section Conditions

variable [Runtime] [BinanceSdk] (ctx : Context) (commands : String → Dict)

/-- What is asked of the turns: a command keeps its content, and a retry is clear. -/
def Retryable : World → Dict → LocalInputs → Prop := fun s leaseResponse inputs =>
  SameContent commands leaseResponse ∧ RetriesClear ctx s leaseResponse inputs

/-- What is asked of the replies. -/
def RepliesHold : Assumption := fun s c r took =>
  LookupsHold s c r took ∧ RepliesRead ctx commands s c r took

end Conditions

/-! ### What is kept -/

section Kept

variable [Runtime]

/-- The order a command enters is held under this id, if it is held. -/
structure EntryOf (command : Dict) (clOrdId : String) : Prop where
  adapter : adapterName command = okxSwapMainnetOrderAdapter
  mode : executionModeOf (command.get "executionMode").text = some .real
  request : ∃ request, buildOrderRequest command .real = .ok request ∧ request.provider = "okx" ∧
    request.executionMode = .real ∧ okxClientOrderId request.clientOrderId = clOrdId

/-- The results are acknowledged ones, and what was accepted is held. -/
structure Consistent (commands : String → Dict) (s : World) : Prop where
  acknowledged : AllAcknowledged s.executions
  held : ∀ commandId ∈ s.accepted, ∃ clOrdId ∈ s.orders, EntryOf (commands commandId) clOrdId

/-- What the executor may do in a turn. -/
def Allowed (session : Session) (commands : String → Dict) (s : World) : Call → Prop
  | .okx _ (.placeOrder params) => EntryOf (commands s.turn) params.clOrdId
  | .writeExecutions content => AllAcknowledged content
  | .ytm url payload token => ∀ commandId leaseId resultPayload,
      Call.ytm url payload token = recordCall session commandId leaseId "rejected" resultPayload →
        commandId ∉ s.accepted
  | _ => True

variable {session : Session} {commands : String → Dict} {assumed : Assumption}

theorem consistent_fresh : Consistent commands fresh where
  acknowledged commandId cached h := by
    obtain ⟨records, item, hread, hitem, _⟩ := get_eq_ok_some.mp h
    have hempty : records = [] := (Except.ok.inj hread).symm
    rw [hempty] at hitem
    cases hitem
  held commandId h := by cases h

/-- What is allowed keeps the world consistent. -/
theorem Consistent.step {s s' : World} {c : Call} {r : Except PyError Value}
    (h : Consistent commands s) (hc : Allowed session commands s c)
    (hstep : Step assumed s c r s') : Consistent commands s' := by
  obtain ⟨took, rfl, _⟩ := hstep
  cases c with
  | okx keys op =>
      cases op with
      | placeOrder params =>
          cases took with
          | none | cut => exact h
          | whole =>
              refine ⟨h.acknowledged, ?_⟩
              intro commandId hmem
              rcases List.mem_cons.mp hmem with rfl | hmem
              · exact ⟨params.clOrdId, List.mem_cons_self .., hc⟩
              · obtain ⟨clOrdId, hheld, hentry⟩ := h.held commandId hmem
                exact ⟨clOrdId, List.mem_cons_of_mem _ hheld, hentry⟩
      | _ => exact h
  | writeExecutions content =>
      cases took with
      | none => exact h
      | cut => exact ⟨h.acknowledged, h.held⟩
      | whole => exact ⟨hc, h.held⟩
  | _ => exact h

omit [Runtime] in
/-- Nobody but the turn changes which command the turn is for. -/
theorem World.Step.turn {s s' : World} {c : Call} {r : Except PyError Value}
    (hstep : Step assumed s c r s') : s'.turn = s.turn := by
  obtain ⟨took, rfl, _⟩ := hstep
  cases c with
  | okx keys op =>
      cases op with
      | placeOrder params => cases took <;> rfl
      | _ => rfl
  | writeExecutions content => cases took <;> rfl
  | _ => rfl

omit [Runtime] in
/-- A request that records another status is no rejection. -/
theorem recordCall_rejected {commandId commandId' leaseId leaseId' status : String}
    {payload payload' : Dict}
    (h : recordCall session commandId leaseId status payload
      = recordCall session commandId' leaseId' "rejected" payload') :
    status = "rejected" ∧ commandId = commandId' := by
  unfold recordCall at h
  obtain ⟨hurl, hpayload, _⟩ := Call.ytm.inj h
  have hlist := Value.dict.inj hpayload
  simp only [List.cons.injEq, Prod.mk.injEq, Value.str.injEq, true_and, and_true] at hlist
  refine ⟨hlist.2.2, ?_⟩
  have hchars := congrArg String.toList hurl
  simp only [String.toList_append, List.append_cancel_left_eq, List.append_cancel_right_eq] at hchars
  exact String.toList_inj.mp hchars

end Kept

/-! ### Before the order -/

section Placement

variable [Runtime] {ctx : Context} {session : Session} {commands : String → Dict}
variable {assumed : Assumption} {keys : OkxKeys} {request : BrokerOrderRequest} {s : World}

/-- OKX has taken the entry order of the running command. -/
def Taken (s : World) : Prop := s.turn ∈ s.accepted

/-- The rules fit the request, if its order was taken. -/
def Fits (ctx : Context) (request : BrokerOrderRequest) (s : World)
    (rules : OkxSwapInstrumentRules) : Prop :=
  Taken s → NoValueError (okxSwapSetLeverageParams request rules) ∧
    NoValueError (okxSwapOrderParams ctx request rules)

omit [Runtime] in
theorem NoValueError.error {α β : Type} {x : Except PyError α} {e : PyError}
    (h : NoValueError x) (hx : x = .error e) : NoValueError (.error e : Except PyError β) := by
  intro message heq
  exact h message (by rw [hx, Except.error.inj heq])

variable (hreads : ∀ s c r took, assumed s c r took → RepliesRead ctx commands s c r took)
variable (hrequest : RequestOf commands s request)

include hreads hrequest in
/-- A query that changes nothing, and what is known of its reply. -/
theorem safe_query {op : OkxCall} {endpoint : String} (hop : Quiet (.okx keys op)) :
    Safe (Step assumed) (Allowed session commands)
      (fun s' x => s' = s ∧ ∃ r, (r >>= fun v => okxResponseData v endpoint) = x ∧
        (Taken s → Readable ctx request op r)) (okxQuery (okxApi keys) op endpoint) s := by
  refine safe_okxQuery ?_ ?_
  · cases op with
    | placeOrder params => exact hop.elim
    | _ => trivial
  · intro r s' hstep
    refine ⟨hstep.quiet hop, r, rfl, ?_⟩
    intro htaken
    obtain ⟨took, _, _, hanswer⟩ := hstep
    refine hreads _ _ _ _ hanswer ?_ request hrequest keys op rfl
    rw [after_quiet hop]
    exact htaken

include hreads hrequest in
/-- The same, and the reading of the reply. -/
theorem safe_read {α β : Type} {op : OkxCall} {endpoint : String}
    {g : List Dict → Except PyError α} {rest : α → Executor β}
    {post : World → Except PyError β → Prop} (hop : Quiet (.okx keys op))
    (hrest : ∀ r a, (r >>= fun v => okxResponseData v endpoint >>= g) = .ok a →
      (Taken s → Readable ctx request op r) →
      Safe (Step assumed) (Allowed session commands) post (rest a) s)
    (herror : ∀ r e, (r >>= fun v => okxResponseData v endpoint >>= g) = .error e →
      (Taken s → Readable ctx request op r) → post s (.error e)) :
    Safe (Step assumed) (Allowed session commands) post
      (okxQuery (okxApi keys) op endpoint >>= fun items => (liftM (g items) : Executor α) >>= rest)
      s := by
  refine Safe.bind (safe_query hreads hrequest hop) ?_ ?_
  · rintro _ items ⟨rfl, r, hr, hread⟩
    have hg : (r >>= fun v => okxResponseData v endpoint >>= g) = g items := by
      rw [← LawfulMonad.bind_assoc, hr]
      rfl
    refine (safe_bind _).mpr ((safe_ofExcept _).mpr ?_)
    cases ha : g items with
    | error e => exact herror r e (hg.trans ha) hread
    | ok a => exact hrest r a (hg.trans ha) hread
  · rintro _ e ⟨rfl, r, hr, hread⟩
    refine herror r e ?_ hread
    rw [← LawfulMonad.bind_assoc, hr]
    rfl

include hreads hrequest in
theorem accountAndRules_spec :
    Safe (Step assumed) (Allowed session commands)
      (fun s' r => s' = s ∧ (Taken s → NoValueError r) ∧
        ∀ accountConfig rules, r = .ok (accountConfig, rules) → Fits ctx request s rules)
      (accountAndRules (okxApi keys) request) s := by
  refine safe_read hreads hrequest trivial ?_ ?_
  · intro _ accountConfig _ _
    refine safe_read hreads hrequest trivial ?_ ?_
    · intro r rules hrules hread
      refine ⟨rfl, fun _ => noValueError_ok, ?_⟩
      intro _ rules' hfound htaken
      obtain ⟨_, rfl⟩ := Prod.mk.inj (Except.ok.inj hfound)
      exact (hread htaken).2 rules hrules
    · intro r e he hread
      refine ⟨rfl, ?_, nofun⟩
      intro htaken
      exact (hread htaken).1.error he
  · intro r e he hread
    refine ⟨rfl, ?_, nofun⟩
    intro htaken
    exact (hread htaken).error he

include hreads hrequest in
theorem setRequestedLeverage_spec {rules : OkxSwapInstrumentRules}
    (hfits : Fits ctx request s rules) :
    Safe (Step assumed) (Allowed session commands)
      (fun s' r => s' = s ∧ (Taken s → NoValueError r) ∧
        ∀ d, r = .ok (some d) → isPublic (.dict d) = true)
      (setRequestedLeverage (okxApi keys) request rules) s := by
  unfold setRequestedLeverage
  refine (safe_bind _).mpr ((safe_ofExcept _).mpr ?_)
  cases hparams : okxSwapSetLeverageParams request rules with
  | error e =>
      refine ⟨rfl, ?_, nofun⟩
      intro htaken
      exact (hfits htaken).1.error hparams
  | ok leverageParams =>
      cases leverageParams with
      | none => exact ⟨rfl, fun _ => noValueError_ok, nofun⟩
      | some params =>
          refine safe_read hreads hrequest trivial ?_ ?_
          · intro r payload hpayload _
            refine ⟨rfl, fun _ => noValueError_ok, ?_⟩
            intro d hd
            rw [← Option.some.inj (Except.ok.inj hd)]
            obtain ⟨v, _, hv⟩ := bind_eq_ok.mp hpayload
            obtain ⟨items, _, hitems⟩ := bind_eq_ok.mp hv
            exact isPublic_verifiedSetLeveragePayload hitems
          · intro r e he hread
            refine ⟨rfl, ?_, nofun⟩
            intro htaken
            exact (hread htaken).error he

/-- What is known of a preparation. -/
structure Prepared (ctx : Context) (request : BrokerOrderRequest) (preparation : Preparation) :
    Prop where
  publicDicts : PublicPreparation preparation
  params : okxSwapOrderParams ctx request preparation.rules = .ok preparation.params

include hreads hrequest in
theorem orderPrecheckPayload_spec {params : OrderParams} {accountConfig : AccountConfig} :
    Safe (Step assumed) (Allowed session commands)
      (fun s' r => s' = s ∧ (Taken s → NoValueError r) ∧
        ∀ d, r = .ok d → isPublic (.dict d) = true)
      (orderPrecheckPayload (okxApi keys) params accountConfig) s := by
  unfold orderPrecheckPayload
  split
  · refine ⟨rfl, fun _ => noValueError_ok, ?_⟩
    intro d hd
    rw [← Except.ok.inj hd]
    rfl
  · refine Safe.bind (safe_query hreads hrequest trivial) ?_ ?_
    · rintro _ items ⟨rfl, _⟩
      refine ⟨rfl, fun _ => noValueError_ok, ?_⟩
      intro d hd
      rw [← Except.ok.inj hd]
      rfl
    · rintro _ e ⟨rfl, r, hr, hread⟩
      exact ⟨rfl, fun htaken => (hread htaken).error hr, fun _ h => by cases h⟩

include hreads hrequest in
/-- Before the order is looked up nothing is changed, and nothing goes wrong once it is taken. -/
theorem placementPreparation_spec :
    Safe (Step assumed) (Allowed session commands)
      (fun s' r => s' = s ∧ (Taken s → NoValueError r) ∧
        ∀ preparation, r = .ok preparation → Prepared ctx request preparation)
      (placementPreparation ctx (okxApi keys) request) s := by
  refine Safe.bind (accountAndRules_spec hreads hrequest) ?_ ?_
  · rintro _ ⟨accountConfig, rules⟩ ⟨rfl, _, hfound⟩
    have hfits : Fits ctx request _ rules := hfound accountConfig rules rfl
    refine Safe.bind (setRequestedLeverage_spec hreads hrequest hfits) ?_ ?_
    · rintro _ leverage ⟨rfl, _, hleverage⟩
      refine (safe_bind _).mpr ((safe_ofExcept _).mpr ?_)
      cases hparams : okxSwapOrderParams ctx request rules with
      | error e =>
          exact ⟨rfl, fun htaken => (hfits htaken).2.error hparams, fun _ h => by cases h⟩
      | ok params =>
          refine Safe.bind (orderPrecheckPayload_spec hreads hrequest) ?_ ?_
          · rintro _ precheck ⟨rfl, _, hprecheck⟩
            refine ⟨rfl, fun _ => noValueError_ok, ?_⟩
            intro preparation hpreparation
            rw [← Except.ok.inj hpreparation]
            refine ⟨⟨?_, hprecheck _ rfl⟩, hparams⟩
            intro d hd
            exact hleverage d (congrArg Except.ok hd)
          · rintro _ e ⟨rfl, he, _⟩
            exact ⟨rfl, fun htaken => (he htaken).error rfl, fun _ h => by cases h⟩
    · rintro _ e ⟨rfl, he, _⟩
      exact ⟨rfl, fun htaken => (he htaken).error rfl, fun _ h => by cases h⟩
  · rintro _ e ⟨rfl, he, _⟩
    exact ⟨rfl, fun htaken => (he htaken).error rfl, fun _ h => by cases h⟩

/-! ### The order -/

omit [Runtime] in
theorem enteredOrder_of_isSome (recovered : Bool) {order : Dict}
    (h : (okxOptionalText (order.get "ordId")).isSome = true) :
    ∃ entered, enteredOrder recovered order = .ok entered := by
  obtain ⟨ordId, hid⟩ := Option.isSome_iff_exists.mp h
  exact ⟨⟨recovered, order, ordId⟩, by rw [enteredOrder, hid]⟩

variable (hlookups : ∀ s c r took, assumed s c r took → LookupsHold s c r took)

include hreads hlookups hrequest in
/-- If the order is taken before or now, entering it raises no `ValueError`. -/
theorem enterOrder_spec {params : OrderParams} (hconsistent : Consistent commands s)
    (hentry : EntryOf (commands s.turn) params.clOrdId) :
    Safe (Step assumed) (Allowed session commands)
      (fun s' r => Taken s' → NoValueError r) (enterOrder (okxApi keys) params) s := by
  by_cases htaken : Taken s
  · -- Another turn has placed it: the lookup finds it.
    obtain ⟨clOrdId, hheld, hentry'⟩ := hconsistent.held s.turn htaken
    obtain ⟨request₁, h₁, _, _, hid₁⟩ := hentry.request
    obtain ⟨request₂, h₂, _, _, hid₂⟩ := hentry'.request
    rw [h₁] at h₂
    rw [← hid₂, ← Except.ok.inj h₂, hid₁] at hheld
    refine Safe.bind (safe_lookup_of_held hlookups trivial hheld) ?_ ?_
    · rintro s' found ⟨rfl, ⟨order, horder, hid⟩ | ⟨e, h, _⟩⟩
      · obtain ⟨entered, hentered⟩ := enteredOrder_of_isSome true hid
        rw [Except.ok.inj horder]
        refine (safe_ofExcept _).mpr fun _ => ?_
        rw [hentered]
        exact noValueError_ok
      · cases h
    · rintro s' e ⟨rfl, ⟨order, h, _⟩ | ⟨e', h, he⟩⟩ _ message heq
      · cases h
      · rw [← Except.error.inj h, Except.error.inj heq] at he
        cases he
  · -- Nobody has: the lookup changes nothing, and the order may be taken now.
    refine Safe.bind (safe_lookup hlookups trivial) ?_ ?_
    · rintro s' found ⟨rfl, _⟩
      cases found with
      | some existing => exact (safe_ofExcept _).mpr fun h => absurd h htaken
      | none =>
          refine (safe_bind _).mpr (safe_okxQuery hentry ?_)
          intro r s'' hstep
          have hplaced : Taken s'' → NoValueError (r >>= readPlaced) := by
            intro htaken''
            obtain ⟨took, rfl, _, hanswer⟩ := hstep
            refine hreads _ _ _ _ hanswer ?_ request hrequest keys _ rfl
            cases took <;> exact htaken''
          have hread (items : List Dict) :
              ((liftM (singleOrderResponse items "place_order") : Executor Dict) >>= fun response =>
                liftM (enteredOrder false response))
              = Prog.ofExcept (singleOrderResponse items "place_order" >>= enteredOrder false) :=
            ofExcept_bind _ _
          simp only [hread]
          refine (then_ofExcept _ _).mpr ?_
          rw [LawfulMonad.bind_assoc]
          exact hplaced
    · rintro s' e ⟨rfl, _⟩ h
      exact absurd h htaken

/-! ### The whole adapter -/

/-- A call that asks a broker and places no order. -/
def BrokerQuery : Call → Prop
  | .okx _ (.placeOrder _) => False
  | .okx _ _ | .binance _ _ => True
  | _ => False

theorem allowed_of_brokerQuery (s : World) {c : Call} (h : BrokerQuery c) :
    Allowed session commands s c := by
  cases c with
  | okx keys op =>
      cases op with
      | placeOrder params => exact h.elim
      | _ => trivial
  | binance keys op => trivial
  | _ => exact h.elim

omit [Runtime] in
theorem quiet_of_brokerQuery {c : Call} (h : BrokerQuery c) : Quiet c := by
  cases c with
  | okx keys op =>
      cases op with
      | placeOrder params => exact h.elim
      | _ => trivial
  | writeExecutions content => exact h.elim
  | _ => trivial

/-- A program that only asks leaves the world as it is. -/
theorem safe_of_brokerQueries {α : Type} {p : Executor α} {P : Except PyError α → Prop}
    (h : CallsOnly BrokerQuery p) (hp : Yields P p) (s : World) :
    Safe (Step assumed) (Allowed session commands) (fun s' r => s' = s ∧ P r) p s := by
  refine Safe.of_callsOnly_yields ?_ ?_ h hp rfl
  · intro s' c _ hc
    exact allowed_of_brokerQuery s' hc
  · rintro s₁ c r s₂ rfl hc hstep
    exact hstep.quiet (quiet_of_brokerQuery hc)

/-- A check whose failure would have kept the order from being placed. -/
theorem safe_raiseIf {c : Prop} [Decidable c] {message : String} {α : Type}
    {rest : Unit → Executor α} (hc : c → ¬Taken s)
    (hrest : ¬c → Safe (Step assumed) (Allowed session commands)
      (fun s' r => Taken s' → NoValueError r) (rest ()) s) :
    Safe (Step assumed) (Allowed session commands) (fun s' r => Taken s' → NoValueError r)
      ((liftM (raiseIf c message) : Executor Unit) >>= rest) s := by
  unfold raiseIf
  by_cases h : c
  · rw [if_pos h]
    exact fun htaken => absurd htaken (hc h)
  · rw [if_neg h]
    exact hrest h

include hreads hlookups hrequest in
/-- Once its order is taken, the placement adapter raises no `ValueError`. -/
theorem okxPlacementPrepareOrder_spec (hconsistent : Consistent commands s)
    (hadapter : adapterName (commands s.turn) = okxSwapMainnetOrderAdapter)
    (hmode : executionModeOf ((commands s.turn).get "executionMode").text = some .real) :
    Safe (Step assumed) (Allowed session commands) (fun s' r => Taken s' → NoValueError r)
      (okxPlacementPrepareOrder ctx (okxApi keys) request) s := by
  have htaken : Taken s → request.provider = "okx" ∧ request.executionMode = .real := by
    intro h
    obtain ⟨clOrdId, _, hentry⟩ := hconsistent.held s.turn h
    obtain ⟨request', h', hprovider, hreal, _⟩ := hentry.request
    have hsame : request' = request := Except.ok.inj (h'.symm.trans hrequest)
    exact hsame ▸ ⟨hprovider, hreal⟩
  refine safe_raiseIf (fun hne h => hne (htaken h).1) fun hprovider => ?_
  refine safe_raiseIf (fun hne h => hne (htaken h).2) fun hreal => ?_
  refine Safe.bind (placementPreparation_spec hreads hrequest) ?_ ?_
  · rintro s' preparation ⟨rfl, _, hprepared⟩
    have hpreparation := hprepared preparation rfl
    have hentry : EntryOf (commands s'.turn) preparation.params.clOrdId :=
      ⟨hadapter, hmode, request, hrequest, not_not.mp hprovider, not_not.mp hreal,
        (okxSwapOrderParams_built hpreparation.params).clOrdId.symm⟩
    refine Safe.bind (enterOrder_spec hreads hrequest hlookups hconsistent hentry) ?_ ?_
    · intro s'' entered _
      have hcalls : CallsOnly BrokerQuery (safeVerifyOrRemediateProtection ctx (okxApi keys) request
          preparation.params entered.response entered.providerOrderId preparation.rules) :=
        safeVerifyOrRemediateProtection_callsOnly (fun _ _ => okxApi_callsOnly trivial)
          (fun _ => okxApi_callsOnly trivial) fun _ _ _ => okxApi_callsOnly trivial
      refine Safe.bind (safe_of_brokerQueries hcalls safeVerifyOrRemediateProtection_yields s'')
        ?_ ?_
      · rintro s₃ protection ⟨_, _, hprotection⟩
        rw [lift_eq, placementPayload_ok hpreparation.publicDicts (hprotection _ rfl)]
        exact fun _ => noValueError_ok
      · rintro s₃ e ⟨_, he, _⟩ _
        exact he.error rfl
    · intro s'' e he htaken''
      exact (he htaken'').error rfl
  · rintro s' e ⟨rfl, he, _⟩ h
    exact (he h).error rfl

end Placement

/-! ### The decision -/

section Decision

variable [Runtime] [BinanceSdk] {ctx : Context} {session : Session} {commands : String → Dict}
variable {assumed : Assumption} {s : World} {cleared : Cleared} {inputs : PreflightInputs}

/-- The other adapters only ask. -/
theorem prepareOrder_queries {adapter : ChosenAdapter} {request : BrokerOrderRequest}
    (h : ∀ keys, adapter ≠ .okxPlacement keys) :
    CallsOnly BrokerQuery (prepareOrder ctx adapter request) := by
  cases adapter with
  | disabled => exact CallsOnly.ofExcept _
  | okxPlacement keys => exact absurd rfl (h keys)
  | okxPrecheck keys =>
      have hcalls : CallsOnly BrokerQuery (okxPrecheckPrepareOrder ctx (okxApi keys) request) :=
        okxPrecheckPrepareOrder_callsOnly (okxApi_callsOnly trivial)
          (fun _ _ => okxApi_callsOnly trivial) fun _ => okxApi_callsOnly trivial
      exact hcalls
  | binanceOrderTest keys =>
      exact binancePrepareOrder_callsOnly fun op => CallsOnly.perform trivial

variable (hreads : ∀ s c r took, assumed s c r took → RepliesRead ctx commands s c r took)
variable (hlookups : ∀ s c r took, assumed s c r took → LookupsHold s c r took)

include hreads hlookups in
theorem prepareOrder_spec {item : Dict} {adapter : ChosenAdapter}
    (hconsistent : Consistent commands s) (hgates : GatesPassed ctx item inputs cleared)
    (hcommand : commands s.turn = cleared.command)
    (hadapter : adapterForCommand cleared inputs.localSecretResolver = .ok adapter) :
    Safe (Step assumed) (Allowed session commands) (fun s' r => Taken s' → NoValueError r)
      (prepareOrder ctx adapter cleared.request) s := by
  have hchosen := adapter_chosen hadapter
  by_cases hplacement : ∃ keys, adapter = .okxPlacement keys
  · obtain ⟨keys, rfl⟩ := hplacement
    obtain ⟨hname, _, hmode, _⟩ := hchosen
    have hrequest : RequestOf commands s cleared.request := by
      rw [RequestOf, hcommand, ← hmode]
      exact hgates.request
    refine okxPlacementPrepareOrder_spec hreads hrequest hlookups hconsistent ?_ ?_
    · rw [hcommand, hname]
    · rw [hcommand, hgates.mode, hmode]
  · -- An accepted command names the placement adapter.
    have hnot : ¬Taken s := by
      intro htaken
      obtain ⟨_, _, hentry⟩ := hconsistent.held s.turn htaken
      have hname := hentry.adapter
      rw [hcommand] at hname
      exact hplacement (placement_of_adapterName hadapter hname)
    have hcalls : CallsOnly BrokerQuery (prepareOrder ctx adapter cleared.request) :=
      prepareOrder_queries fun keys h => hplacement ⟨keys, h⟩
    have hyields : Yields (fun _ => True) (prepareOrder ctx adapter cleared.request) :=
      Yields.of_forall (fun _ => trivial) _
    refine (safe_of_brokerQueries hcalls hyields s).post_mono ?_
    rintro s' r ⟨rfl, _⟩ htaken
    exact absurd htaken hnot

omit [BinanceSdk] in
/-- What is no acknowledgement is the rejection of a validate-only adapter. -/
theorem resultDecision_acknowledged {adapterResult : BrokerAdapterResult}
    {d : CommandPreflightDecision} (h : resultDecision cleared adapterResult = .ok d)
    (hname : adapterName cleared.command = okxSwapMainnetOrderAdapter) :
    d.status = "acknowledged" := by
  have hnot : adapterName cleared.command ∉ validateOnlyRealAdapters := by
    rw [hname]
    decide
  unfold resultDecision at h
  rw [if_neg fun hboth => hnot hboth.2] at h
  split at h
  · exact status_of_decision h
  · exact status_of_decision h

/-- What the turn may make of a decision. -/
def Recordable (s : World) (d : CommandPreflightDecision) : Prop :=
  Taken s → d.status = "acknowledged"

include hreads hlookups in
/-- A rejection by the adapter means that the order was not taken. -/
theorem runAdapter_spec {item : Dict} (hconsistent : Consistent commands s)
    (hgates : GatesPassed ctx item inputs cleared) (hcommand : commands s.turn = cleared.command)
    (hclear : Taken s → NoValueError (adapterForCommand cleared inputs.localSecretResolver)) :
    Safe (Step assumed) (Allowed session commands)
      (fun s' r => (Consistent commands s' ∧ s'.turn = s.turn) ∧
        ∀ d, r = .ok (.inl d) → ¬Taken s') (runAdapter ctx cleared inputs) s := by
  refine Safe.keeping (I := fun s' => Consistent commands s' ∧ s'.turn = s.turn) ?_ ?_
    ⟨hconsistent, rfl⟩
  · rintro s₁ c r s₂ ⟨hconsistent₁, hturn⟩ hallowed hstep
    exact ⟨hconsistent₁.step hallowed hstep, hstep.turn.trans hturn⟩
  refine Safe.handle (M := fun s' r => (Taken s' → NoValueError r) ∧ ∀ d, r ≠ .ok (.inl d)) ?_ ?_ ?_ ?_
  · refine (safe_bind _).mpr ((safe_ofExcept _).mpr ?_)
    cases hadapter : adapterForCommand cleared inputs.localSecretResolver with
    | error e => exact ⟨fun htaken => (hclear htaken).error hadapter, fun _ h => by cases h⟩
    | ok adapter =>
        refine Safe.bind (prepareOrder_spec hreads hlookups hconsistent hgates hcommand hadapter)
          ?_ ?_
        · intro s' adapterResult _
          exact ⟨fun _ => noValueError_ok, fun _ h => by cases h⟩
        · intro s' e he
          exact ⟨fun htaken => (he htaken).error rfl, fun _ h => by cases h⟩
  · intro s' outcome h d hd
    exact absurd hd (h.2 d)
  · intro s' e _ _ d hd
    cases hd
  · intro s' e q h hq
    cases e with
    | valueError message =>
        rw [← Option.some.inj hq]
        refine (safe_ofExcept _).mpr fun d _ htaken => ?_
        exact h.1 htaken message rfl
    | decimal signal => cases hq
    | other kind message => cases hq

include hreads hlookups in
/-- The decision of a turn is recordable. -/
theorem preflightCommand_spec {item command : Dict} (hconsistent : Consistent commands s)
    (hitem : item.get "command" = .dict command) (hcommand : commands s.turn = command)
    (hclear : Taken s → (∀ d, preflightGates ctx item inputs ≠ .error (.decided d)) ∧
      ∀ cleared, preflightGates ctx item inputs = .ok cleared →
        NoValueError (adapterForCommand cleared inputs.localSecretResolver)) :
    Safe (Step assumed) (Allowed session commands)
      (fun s' r => (Consistent commands s' ∧ s'.turn = s.turn) ∧ ∀ d, r = .ok d → Recordable s' d)
      (preflightCommand ctx item inputs) s := by
  unfold preflightCommand
  split
  · rename_i cleared hcleared
    have hgates := preflightGates_eq_ok.mp hcleared
    have hsame : command = cleared.command :=
      Value.dict.inj (hitem.symm.trans (leasedCommand_eq hgates.command))
    have hadapter : Taken s → NoValueError (adapterForCommand cleared inputs.localSecretResolver) :=
      fun htaken => (hclear htaken).2 cleared hcleared
    refine Safe.bind (runAdapter_spec hreads hlookups hconsistent hgates (hcommand.trans hsame)
      hadapter) ?_ ?_
    · rintro s' outcome ⟨hkept, hrejected⟩
      cases outcome with
      | inl d =>
          refine ⟨hkept, ?_⟩
          intro _ _ htaken
          exact absurd htaken (hrejected d rfl)
      | inr adapterResult =>
          refine (safe_ofExcept _).mpr ⟨hkept, ?_⟩
          intro d hd htaken
          obtain ⟨_, _, hentry⟩ := hkept.1.held s'.turn htaken
          have hname := hentry.adapter
          rw [hkept.2, hcommand, hsame] at hname
          exact resultDecision_acknowledged hd hname
    · rintro s' e ⟨hkept, _⟩
      exact ⟨hkept, fun _ h => by cases h⟩
  · rename_i d hdecided
    refine ⟨⟨hconsistent, rfl⟩, ?_⟩
    intro _ _ htaken
    exact absurd hdecided ((hclear htaken).1 d)
  · exact ⟨⟨hconsistent, rfl⟩, fun _ h => by cases h⟩

/-! ### The turn -/

omit [Runtime] [BinanceSdk] in
theorem expectObject_eq_ok {payload entries : Dict} {key : String}
    (h : expectObject payload key = .ok entries) : payload.get key = .dict entries := by
  unfold expectObject at h
  split at h
  · rename_i entries' hentries
    rw [hentries, Except.ok.inj h]
  · cases h

omit [Runtime] [BinanceSdk] in
theorem idOf_of_expectText {command : Dict} {commandId : String}
    (h : expectText command "id" = .ok commandId) : idOf command = commandId := by
  unfold expectText at h
  split at h
  · rename_i text htext
    have hid : idOf command = text := by
      unfold idOf
      rw [htext]
    split at h
    · cases h
    · rw [hid]
      exact Except.ok.inj h
  · cases h

omit [BinanceSdk] in
/-- A request to YTM that is allowed. -/
theorem safe_post {path : String} {payload : Dict} {token : Option String}
    (h : Allowed session commands s
      (.ytm (rstripChar '/' session.client.serverUrl ++ path) (.dict payload) token)) :
    Safe (Step assumed) (Allowed session commands) (fun _ _ => True)
      (session.client.post path payload token) s := by
  unfold YtmClient.post
  refine (safe_bind _).mpr ((safe_ofExcept _).mpr ?_)
  cases rejectSecretFields [] (.dict payload) with
  | error e => trivial
  | ok _ =>
      refine (safe_bind _).mpr ((safe_ofExcept _).mpr ?_)
      cases Runtime.urlHostname (rstripChar '/' session.client.serverUrl ++ path) with
      | error e => trivial
      | ok host =>
          cases host with
          | none => trivial
          | some host =>
              show Safe _ _ _ (if host ∈ session.client.allowedHosts then _ else _) s
              split
              · exact (safe_perform _).mpr ⟨h, fun _ _ _ => trivial⟩
              · trivial

omit [BinanceSdk] in
/-- Recording a recordable decision. -/
theorem safe_record {item command : Dict} {d : CommandPreflightDecision}
    (hitem : item.get "command" = .dict command) (hturn : s.turn = idOf command)
    (hd : Recordable s d) :
    Safe (Step assumed) (Allowed session commands) (fun _ _ => True)
      (recordPreflightDecision session item d) s := by
  unfold recordPreflightDecision
  have hobject : expectObject item "command" = .ok command := by rw [expectObject, hitem]
  rw [hobject]
  refine (safe_bind _).mpr ((safe_ofExcept _).mpr ?_)
  cases expectObject item "lease" with
  | error e => trivial
  | ok lease =>
      refine (safe_bind _).mpr ((safe_ofExcept _).mpr ?_)
      cases hid : expectText command "id" with
      | error e => trivial
      | ok commandId =>
          refine (safe_bind _).mpr ((safe_ofExcept _).mpr ?_)
          cases expectText lease "id" with
          | error e => trivial
          | ok leaseId =>
              refine (safe_bind _).mpr ((safe_ofExcept _).mpr ?_)
              refine Safe.bind (M := fun _ _ => True) (safe_post ?_) (fun _ _ _ => trivial)
                fun _ _ _ => trivial
              intro id leaseId' payload' hcall htaken
              obtain ⟨hstatus, hsame⟩ := recordCall_rejected hcall
              rw [← hsame, ← idOf_of_expectText hid, ← hturn] at htaken
              rw [hd htaken] at hstatus
              exact absurd hstatus (by decide)

omit [BinanceSdk] in
/-- What the file is read as is what it holds, if it can be read. -/
theorem safe_readExecutions {post : World → Except PyError Value → Prop}
    (hok : s.torn = false → post s (.ok s.executions)) (herror : ∀ e, post s (.error e)) :
    Safe (Step assumed) (Allowed session commands) post (perform .readExecutions) s := by
  refine (safe_perform _).mpr ⟨trivial, ?_⟩
  rintro r s' ⟨took, rfl, hfile, _⟩
  cases r with
  | error e => exact herror e
  | ok v =>
      obtain ⟨htorn, rfl⟩ := hfile v rfl
      exact hok htorn

omit [BinanceSdk] in
/-- Caching an acknowledged result. -/
theorem safe_storeResult {commandId : String} {d : CommandPreflightDecision} {recordedAt : Instant}
    (hconsistent : Consistent commands s) (hd : d.status = "acknowledged") :
    Safe (Step assumed) (Allowed session commands) (fun s' _ => s'.turn = s.turn)
      (storeResult commandId d recordedAt) s := by
  refine Safe.bind (M := fun s' r => s' = s ∧ ∀ v, r = .ok v → v = s.executions)
    (safe_readExecutions (fun _ => ⟨rfl, ?_⟩) fun e => ⟨rfl, fun _ h => by cases h⟩) ?_ ?_
  · intro v hv
    exact (Except.ok.inj hv).symm
  · rintro s' file ⟨rfl, hfile⟩
    obtain rfl := hfile file rfl
    refine (safe_bind _).mpr ((safe_ofExcept _).mpr ?_)
    cases hput : ExecutionStore.put s'.executions commandId d.status d.resultPayload recordedAt with
    | error e => rfl
    | ok content =>
        rw [hd] at hput
        refine Safe.bind (M := fun s₁ _ => s₁.turn = s'.turn) ((safe_perform _).mpr
          ⟨put_acknowledged hconsistent.acknowledged hput, ?_⟩) (fun _ _ h => by exact h)
          fun _ _ h => h
        intro r s₁ hstep
        exact hstep.turn
  · rintro s' e ⟨rfl, _⟩
    rfl

include hreads hlookups in
theorem processCommand_spec {item command : Dict} {commandId : String} {inputs : LocalInputs}
    (hconsistent : Consistent commands s) (hitem : item.get "command" = .dict command)
    (hturn : s.turn = idOf command) (hcommand : commands s.turn = command)
    (hclear : ∀ preflight, preflightInputs inputs = .ok preflight → Taken s →
      (∀ d, preflightGates ctx item preflight ≠ .error (.decided d)) ∧
        ∀ cleared, preflightGates ctx item preflight = .ok cleared →
          NoValueError (adapterForCommand cleared preflight.localSecretResolver)) :
    Safe (Step assumed) (Allowed session commands) (fun _ _ => True)
      (processCommand session ctx item command commandId inputs) s := by
  unfold processCommand
  refine (safe_bind _).mpr ((safe_ofExcept _).mpr ?_)
  cases hpreflight : preflightInputs inputs with
  | error e => trivial
  | ok preflight =>
      refine Safe.bind (preflightCommand_spec hreads hlookups hconsistent hitem hcommand
        (hclear preflight hpreflight)) ?_ fun _ _ _ => trivial
      rintro s' d ⟨⟨hconsistent', hturn'⟩, hrecordable⟩
      have hrecord (s₁ : World) (hs₁ : s₁.turn = s'.turn) (hd : Recordable s₁ d) :
          Safe (Step assumed) (Allowed session commands) (fun _ _ => True)
            (recordPreflightDecision session item d) s₁ :=
        safe_record hitem (hs₁.trans (hturn'.trans hturn)) hd
      split
      · rename_i hkept
        have hstatus : d.status = "acknowledged" := by
          simp only [isKept, Bool.and_eq_true, decide_eq_true_eq] at hkept
          exact hkept.2
        refine Safe.bind (safe_storeResult hconsistent' hstatus) ?_ fun _ _ _ => trivial
        intro s₁ _ hs₁
        exact hrecord s₁ hs₁ fun _ => hstatus
      · exact hrecord s' rfl (hrecordable d rfl)

include hreads hlookups in
/-- A turn that starts consistent is safe. -/
theorem processLeaseResponse_spec {leaseResponse : Dict} {inputs : LocalInputs}
    (hconsistent : Consistent commands s) (hsame : SameContent commands leaseResponse)
    (hclear : RetriesClear ctx s leaseResponse inputs)
    (hturn : s.turn = idOf (leasedEntries leaseResponse)) :
    Safe (Step assumed) (Allowed session commands) (fun _ _ => True)
      (processLeaseResponse session ctx leaseResponse inputs) s := by
  unfold processLeaseResponse
  split
  · rename_i item hitem
    refine (safe_bind _).mpr ((safe_ofExcept _).mpr ?_)
    cases hcommand : expectObject item "command" with
    | error e => trivial
    | ok command =>
        have hitemCommand : Dict.get item "command" = .dict command := expectObject_eq_ok hcommand
        have hturn' : s.turn = idOf command := by
          rw [hturn, leasedEntries, hitem]
          simp only [Value.dict?, Option.getD_some, hitemCommand]
        refine (safe_bind _).mpr ((safe_ofExcept _).mpr ?_)
        cases hid : expectText command "id" with
        | error e => trivial
        | ok commandId =>
            have hcommandId : idOf command = commandId := idOf_of_expectText hid
            refine Safe.bind (M := fun s' r => s' = s ∧ ∀ cached, r = .ok cached →
              s.torn = false ∧ ExecutionStore.get s.executions commandId = .ok cached) ?_ ?_
              fun _ _ _ => trivial
            · refine (safe_bind _).mpr (safe_readExecutions (fun htorn => ?_)
                fun e => ⟨rfl, fun _ h => by cases h⟩)
              exact (safe_ofExcept _).mpr ⟨rfl, fun _ h => ⟨htorn, h⟩⟩
            · rintro s' cached ⟨rfl, hget⟩
              cases cached with
              | some cached =>
                  refine safe_record hitemCommand hturn' fun _ => ?_
                  exact hconsistent.acknowledged commandId cached (hget _ rfl).2
              | none =>
                  refine processCommand_spec hreads hlookups hconsistent hitemCommand hturn' ?_ ?_
                  · rw [hturn']
                    exact hsame item command ⟨hitem, hitemCommand⟩
                  · intro preflight hpreflight htaken
                    rw [Taken, hturn'] at htaken
                    exact hclear item command preflight ⟨hitem, hitemCommand⟩ htaken
                      (hget _ rfl).1 (hcommandId ▸ (hget _ rfl).2) hpreflight
  · trivial

/--
**An accepted order is never recorded as rejected, where retries are clear and replies are
read.**
-/
theorem accepted_never_rejected {commandId leaseId : String} {resultPayload : Dict}
    {k : Except PyError Value → Executor Unit}
    (h : World.Reachable session ctx (Retryable ctx commands) (RepliesHold ctx commands)
      (s, some (call (recordCall session commandId leaseId "rejected" resultPayload) k))) :
    commandId ∉ s.accepted := by
  have hallowed : Allowed session commands s
      (recordCall session commandId leaseId "rejected" resultPayload) := by
    refine Restart.running_ok (I := Consistent commands) consistent_fresh ?_ ?_ h
    · intro s p s' hconsistent hstart
      cases hstart with
      | turn hadmitted =>
          have hconsistent' (id : String) : Consistent commands { s with turn := id } :=
            ⟨hconsistent.acknowledged, hconsistent.held⟩
          exact ⟨hconsistent' _, processLeaseResponse_spec (fun _ _ _ _ h => h.2)
            (fun _ _ _ _ h => h.1) (hconsistent' _) hadmitted.1 hadmitted.2 rfl⟩
    · intro s c r s' hconsistent hc hstep
      exact hconsistent.step hc hstep
  exact hallowed commandId leaseId resultPayload rfl

end Decision

/-! ### A rejection, and a false one -/

namespace World

/-- A program is about to record a rejection of the running command. -/
def aboutToReject (session : Session) (taken : Bool) : Option (World × Executor Unit) → Bool
  | some (s, call (.ytm url (.dict [(.str "leaseId", .str _), (.str "resultPayload", .dict _),
      (.str "status", .str status)]) (some token)) _) =>
      (decide (url = rstripChar '/' session.client.serverUrl
        ++ ("/api/executor/commands/" ++ s.turn ++ "/result")) && decide (status = "rejected")
        && decide (token = session.accessToken)) && (decide (s.turn ∈ s.accepted) == taken)
  | _ => false

theorem aboutToReject_spec {session : Session} {taken : Bool} {x : Option (World × Executor Unit)}
    (h : aboutToReject session taken x = true) :
    ∃ s leaseId resultPayload k, x = some (s, call (recordCall session s.turn leaseId "rejected"
      resultPayload) k) ∧ decide (s.turn ∈ s.accepted) = taken := by
  unfold aboutToReject at h
  split at h
  · rename_i s url leaseId resultPayload status token k
    simp only [Bool.and_eq_true, decide_eq_true_eq, beq_iff_eq] at h
    obtain ⟨⟨⟨rfl, rfl⟩, rfl⟩, htaken⟩ := h
    exact ⟨s, leaseId, resultPayload, k, rfl, htaken⟩
  · cases h

instance decidableNoValueError {α : Type} (r : Except PyError α) : Decidable (NoValueError r) :=
  match r with
  | .ok _ => .isTrue noValueError_ok
  | .error (.valueError message) => .isFalse fun h => h message rfl
  | .error (.decimal _) => .isTrue fun _ h => by cases h
  | .error (.other _ _) => .isTrue fun _ h => by cases h

instance decidableReadable [Runtime] (ctx : Context) (request : BrokerOrderRequest) (op : OkxCall)
    (r : Except PyError Value) : Decidable (Readable ctx request op r) :=
  match op with
  | .getAccountConfig => decidableNoValueError _
  | .getInstruments _ instId =>
      match h : r >>= readRules instId with
      | .error _ => decidable_of_iff (NoValueError (r >>= readRules instId))
          (and_iff_left fun _ hok => by rw [h] at hok; cases hok).symm
      | .ok rules => decidable_of_iff (NoValueError (okxSwapSetLeverageParams request rules) ∧
          NoValueError (okxSwapOrderParams ctx request rules))
          ⟨fun hfits => ⟨by rw [h]; exact noValueError_ok, fun _ hok => by
            rw [h] at hok; cases hok; exact hfits⟩, fun hread => hread.2 rules h⟩
  | .setLeverage _ | .orderPrecheck _ | .placeOrder _ => decidableNoValueError _
  | .getPositions _ _ | .getOrder _ _ | .orderAlgosPending _ _ _ | .placeAlgoOrder _ =>
      .isTrue trivial

/-- Lookups report the orders that are held, and replies about an accepted command can be read. -/
def repliesHold [Runtime] (ctx : Context) (commands : String → Dict) (s : World) (c : Call)
    (r : Except PyError Value) (took : Effect) : Bool :=
  lookupsReport s c r took && match c, buildOrderRequest (commands s.turn) .real with
    | .okx _ op, .ok request =>
        decide (s.turn ∉ (s.after took c).accepted ∨ Readable ctx request op r)
    | _, _ => true

theorem repliesHold_spec [Runtime] {ctx : Context} {commands : String → Dict} {s : World} {c : Call}
    {r : Except PyError Value} {took : Effect} (h : repliesHold ctx commands s c r took = true) :
    RepliesHold ctx commands s c r took := by
  unfold repliesHold at h
  rw [Bool.and_eq_true] at h
  refine ⟨lookupsReport_hold h.1, ?_⟩
  rintro htaken request hrequest keys op rfl
  have hread := h.2
  rw [RequestOf] at hrequest
  rw [hrequest] at hread
  exact (of_decide_eq_true hread).resolve_left (not_not.mpr htaken)

/-- A preflight that passes the gates and finds its adapter. -/
def clears [Runtime] (ctx : Context) (item : Dict) (inputs : LocalInputs) : Bool :=
  match preflightInputs inputs with
  | .error _ => true
  | .ok preflight =>
      match preflightGates ctx item preflight with
      | .ok cleared => decide (NoValueError (adapterForCommand cleared preflight.localSecretResolver))
      | .error (.decided _) => false
      | .error (.raised _) => true

theorem retriesClear_of_clears [Runtime] {ctx : Context} {s : World} {leaseResponse item : Dict}
    {inputs : LocalInputs} (hitem : leaseResponse.get "item" = .dict item)
    (h : clears ctx item inputs = true) : RetriesClear ctx s leaseResponse inputs := by
  rintro item' command preflight ⟨hitem', _⟩ _ _ _ hpreflight
  rw [hitem] at hitem'
  obtain rfl := Value.dict.inj hitem'
  rw [clears, hpreflight] at h
  dsimp only at h
  constructor
  · intro d hd
    rw [hd] at h
    cases h
  · intro cleared hcleared
    rw [hcleared] at h
    exact of_decide_eq_true h

end World

namespace Sample

/-- The disk before the credential was validated. -/
def unvalidatedInputs : LocalInputs := { localInputs with validationsFile := none }

/-- A reply that is no JSON. -/
def garbledReply : Except PyError Value := .error (.valueError "Expecting value: line 1 column 1")

theorem sameContent : SameContent (fun _ => command payload) leaseResponse := by
  rintro item command ⟨hitem, hcommand⟩
  obtain rfl := Value.dict.inj hitem
  exact Value.dict.inj hcommand

/-- Commands that differ in their ids. -/
def commands (commandId : String) : Dict := (command payload).set "id" commandId

theorem sameContent_commands (leased : Dict)
    (h : leased = leaseResponse ∨ leased = otherLease) : SameContent commands leased := by
  rintro item command ⟨hitem, hcommand⟩
  rcases h with rfl | rfl
  · obtain rfl := Value.dict.inj hitem
    rw [← Value.dict.inj hcommand]
    rfl
  · obtain rfl := Value.dict.inj hitem
    rw [← Value.dict.inj hcommand]
    rfl

end Sample

/-- The order of one command was accepted though its reply was lost, and the retry found it;
another command is about to be rejected for want of a validation. -/
theorem accepted_never_rejected_sample :
    ∃ (s : World) (leaseId : String) (resultPayload : Dict)
        (k : Except PyError Value → Executor Unit), s.accepted = ["command-1"] ∧
      @World.Reachable Sample.runtime Sample.sdk Sample.session defaultContext
        (@Retryable Sample.runtime defaultContext Sample.commands)
        (@RepliesHold Sample.runtime defaultContext Sample.commands)
        (s, some (call (recordCall Sample.session s.turn leaseId "rejected" resultPayload) k)) ∧
      s.turn ∉ s.accepted := by
  let _ : Runtime := Sample.runtime
  let _ : BinanceSdk := Sample.sdk
  let admits := repliesHold defaultContext Sample.commands
  let turns := [Sample.untilLookup ++ [(Sample.noOrderReply, .none), (Sample.lostReply, .whole)],
    Sample.untilLookup ++ [(Sample.heldReply, .none)]]
  let playOther (s : World) := playTurn admits Sample.session defaultContext Sample.otherLease
    Sample.unvalidatedInputs s [(.ok .none, .whole)]
  have hplay : ((playTurns admits Sample.session defaultContext Sample.leaseResponse
      Sample.localInputs turns fresh).any fun s => decide (s.accepted = ["command-1"]) &&
        (aboutToReject Sample.session false (playOther s) &&
          (playOther s).any fun y => decide (y.1.accepted = ["command-1"]))) = true := by
    decide +kernel
  obtain ⟨s, hturns, hlast⟩ := (Option.any_eq_true _ _).mp hplay
  simp only [Bool.and_eq_true] at hlast
  obtain ⟨s', leaseId, resultPayload, k, hturn, _⟩ := aboutToReject_spec hlast.2.1
  have haccepted := hlast.2.2
  rw [hturn] at haccepted
  have hretry (s : World) : Retryable defaultContext Sample.commands s Sample.leaseResponse
      Sample.localInputs :=
    ⟨Sample.sameContent_commands _ (.inl rfl), retriesClear_of_clears rfl (by decide +kernel)⟩
  have hother : Retryable defaultContext Sample.commands s Sample.otherLease
      Sample.unvalidatedInputs := by
    refine ⟨Sample.sameContent_commands _ (.inr rfl), ?_⟩
    rintro item command preflight ⟨hitem, hcommand⟩ hmem
    obtain rfl := Value.dict.inj hitem
    rw [← Value.dict.inj hcommand, of_decide_eq_true hlast.1] at hmem
    exact absurd hmem (by decide)
  have hcrashed := reachable_playTurns (fun _ _ _ _ => repliesHold_spec) hretry turns
    Relation.ReflTransGen.refl hturns
  have hreach := reachable_playTurn (fun _ _ _ _ => repliesHold_spec) hother hcrashed hturn
  exact ⟨s', leaseId, resultPayload, k, of_decide_eq_true haccepted, hreach,
    accepted_never_rejected hreach⟩

/--
**One garbled reply is enough.**  The order took effect and its reply cannot be read, so
the accepted command is recorded as rejected.
-/
theorem accepted_and_rejected :
    ¬∀ (s : World) (commandId leaseId : String) (resultPayload : Dict)
        (k : Except PyError Value → Executor Unit),
      @World.Reachable Sample.runtime Sample.sdk Sample.session defaultContext
        (fun _ leaseResponse _ => SameContent (fun _ => Sample.command Sample.payload) leaseResponse)
        LookupsReport
        (s, some (call (recordCall Sample.session commandId leaseId "rejected" resultPayload) k)) →
      commandId ∉ s.accepted := by
  let _ : Runtime := Sample.runtime
  let _ : BinanceSdk := Sample.sdk
  intro h
  have hplay : aboutToReject Sample.session true (playTurn lookupsFail Sample.session
      defaultContext Sample.leaseResponse Sample.localInputs fresh (Sample.untilLookup
        ++ [(Sample.noOrderReply, .whole), (Sample.garbledReply, .whole)])) = true := by decide +kernel
  obtain ⟨s, leaseId, resultPayload, k, hturn, htaken⟩ := aboutToReject_spec hplay
  have hreach : World.Reachable Sample.session defaultContext
      (fun _ leaseResponse _ => SameContent (fun _ => Sample.command Sample.payload) leaseResponse)
      LookupsReport (s, some _) :=
    reachable_playTurn (fun _ _ _ _ => lookupsFail_report) Sample.sameContent
      Relation.ReflTransGen.refl hturn
  exact h s s.turn leaseId resultPayload k hreach (of_decide_eq_true htaken)

end YtmExecutor
