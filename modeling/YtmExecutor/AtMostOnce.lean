/-
An order is placed at most once, as far as it is.

Between two turns nothing is left but OKX and the file of results, so what keeps an order
from being placed twice is the lookup right before.  `lookup_none` says what it is worth:
where every lookup of an order that is held is answered, no answer means no order.

It is not worth more.  An error reply says nothing about the order, and the lookup takes
it for "no such order": the run at the end places one order twice.
-/
import YtmExecutor.FailClosed
import YtmExecutor.History

namespace YtmExecutor

open Python Decimal Interaction Prog World

/-! ### The lookup -/

section Lookup

variable [Runtime] {ctx : Context} {keys : OkxKeys} {s : World}

/-- The API of one OKX client. -/
abbrev okxApi (keys : OkxKeys) (op : OkxCall) : Executor Value := perform (.okx keys op)

omit [Runtime] in
theorem okxApi_callsOnly {Q : Call → Prop} {op : OkxCall} (h : Q (.okx keys op)) :
    CallsOnly Q (okxApi keys op) := CallsOnly.perform h

/-- What OKX reports of an order is read as that order. -/
theorem okxResponseData_of_reportsOrder {v : Value} (h : ReportsOrder v) (endpoint : String) :
    ∃ order, okxResponseData v endpoint = .ok [order] ∧
      (okxOptionalText (order.get "ordId")).isSome = true ∧
      rejectSecretFields [] (.dict order) = .ok () := by
  obtain ⟨fields, order, ordId, rfl, hcode, hdata, hid, hblank, hpublic⟩ := h
  have hguard : rejectSecretFields [] (.list [.dict order]) = .ok () :=
    rejectSecretFields_of_isPublic (by simpa [isPublic, isPublicItems] using hpublic)
  refine ⟨order, ?_, ?_, rejectSecretFields_of_isPublic hpublic⟩
  · simp [okxResponseData, hcode, hdata, Value.pyOr, Value.truthy, Value.toText, raiseIf,
      Value.isNoneOrEmpty, Value.list?, dictItems, hguard]
    rfl
  · simp [hid, okxOptionalText, nonBlank, hblank]

/-- A query is one call, whose answer is read. -/
theorem safe_okxQuery {step : World → Call → Except PyError Value → World → Prop}
    {ok : World → Call → Prop} {post : World → Except PyError (List Dict) → Prop} {op : OkxCall}
    {endpoint : String} (hok : ok s (.okx keys op))
    (hpost : ∀ r s', step s (.okx keys op) r s' →
      post s' (r >>= fun v => okxResponseData v endpoint)) :
    Safe step ok post (okxQuery (okxApi keys) op endpoint) s := by
  refine Safe.bind ((safe_perform _).mpr ⟨hok, fun r s' h => h⟩) ?_ ?_
  · intro s' v h
    exact (safe_ofExcept _).mpr (hpost (.ok v) s' h)
  · intro s' e h
    exact hpost (.error e) s' h

/-- An order that is held is found, or the turn ends. -/
theorem safe_lookup_of_held {assumed : Assumption} {ok : World → Call → Prop} {params : OrderParams}
    (hassumed : ∀ s c r took, assumed s c r took → LookupsHold s c r took)
    (hok : ok s (.okx keys (.getOrder params.instId params.clOrdId)))
    (hheld : params.clOrdId ∈ s.orders) :
    Safe (Step assumed) ok (fun s' r => s' = s ∧
      ((∃ order, r = .ok (some order) ∧ (okxOptionalText (order.get "ordId")).isSome = true) ∨
        ∃ e, r = .error e ∧ e.isValueError = false))
      (lookupOrderByClientId (okxApi keys) params) s := by
  let Answered (s' : World) (r : Except PyError (List Dict)) : Prop := s' = s ∧
    ((∃ order, r = .ok [order] ∧ (okxOptionalText (order.get "ordId")).isSome = true ∧
      rejectSecretFields [] (.dict order) = .ok ()) ∨ ∃ e, r = .error e ∧ e.isValueError = false)
  have hquery : Safe (Step assumed) ok Answered
      (okxQuery (okxApi keys) (.getOrder params.instId params.clOrdId) "get_order") s := by
    refine safe_okxQuery hok ?_
    intro r s' hstep
    refine ⟨hstep.quiet trivial, ?_⟩
    obtain ⟨took, _, _, hanswer⟩ := hstep
    obtain ⟨hreports, hanswered⟩ := hassumed _ _ _ _ hanswer
    rcases hanswered hheld with ⟨v, rfl, hzero⟩ | ⟨e, rfl, he⟩
    · obtain ⟨order, hdata, hid, hguard⟩ :=
        okxResponseData_of_reportsOrder (hreports hheld v rfl hzero) "get_order"
      exact Or.inl ⟨order, hdata, hid, hguard⟩
    · exact Or.inr ⟨e, rfl, he⟩
  refine Safe.bind (M := Answered) (Safe.handle hquery (fun _ _ h => h) (fun _ _ h _ => h) ?_)
    ?_ ?_
  · intro s' e q h hq
    rcases h with ⟨_, ⟨_, h, _⟩ | ⟨e', h, he⟩⟩
    · cases h
    · rw [← Except.error.inj h] at he
      cases e <;> simp_all [takeValueError, PyError.isValueError]
  · intro s' items h
    rcases h with ⟨rfl, ⟨order, h, hid, hguard⟩ | ⟨e, h, _⟩⟩
    · obtain rfl := Except.ok.inj h
      have hsome : okxOptionalText (order.get "ordId") ≠ none := Option.isSome_iff_ne_none.mp hid
      simp only [hsome, if_false, hguard]
      exact ⟨rfl, Or.inl ⟨order, rfl, hid⟩⟩
    · cases h
  · intro s' e h
    rcases h with ⟨rfl, ⟨_, h, _⟩ | ⟨e', h, he⟩⟩
    · cases h
    · exact ⟨rfl, Or.inr ⟨e, rfl, by rw [Except.error.inj h]; exact he⟩⟩

/-- Where lookups are answered, finding nothing means that there is nothing. -/
theorem safe_lookup {assumed : Assumption} {ok : World → Call → Prop} {params : OrderParams}
    (hassumed : ∀ s c r took, assumed s c r took → LookupsHold s c r took)
    (hok : ok s (.okx keys (.getOrder params.instId params.clOrdId))) :
    Safe (Step assumed) ok (fun s' r => s' = s ∧ (r = .ok none → params.clOrdId ∉ s.orders))
      (lookupOrderByClientId (okxApi keys) params) s := by
  by_cases hheld : params.clOrdId ∈ s.orders
  · refine (safe_lookup_of_held hassumed hok hheld).post_mono ?_
    rintro s' r ⟨hs, ⟨order, rfl, _⟩ | ⟨e, rfl, _⟩⟩
    · exact ⟨hs, fun h => by cases h⟩
    · exact ⟨hs, fun h => by cases h⟩
  · have hcalls : CallsOnly (fun c => c = .okx keys (.getOrder params.instId params.clOrdId))
        (lookupOrderByClientId (okxApi keys) params) :=
      lookupOrderByClientId_callsOnly (CallsOnly.perform rfl)
    refine (hcalls.safe (I := fun s' => s' = s) ?_ ?_ rfl).post_mono fun s' r hs =>
      ⟨hs, fun _ => hheld⟩
    · rintro s' c rfl rfl
      exact hok
    · rintro s' c r s'' rfl rfl hstep
      exact hstep.quiet trivial

end Lookup

/-! ### One turn -/

section Turn

variable [Runtime] [BinanceSdk] {session : Session} {ctx : Context} {assumed : Assumption}

/-- An order is only placed when none is held under its id. -/
def PlacesFresh (s : World) (c : Call) : Prop :=
  ∀ keys params, c = .okx keys (.placeOrder params) → params.clOrdId ∉ s.orders

/-- A call that places no order. -/
def NoPlacement : Call → Prop
  | .okx _ (.placeOrder _) => False
  | _ => True

omit [Runtime] [BinanceSdk] in
/-- A program that places nothing places nothing twice. -/
theorem safe_of_noPlacement {α : Type} {p : Executor α} {s : World} (h : CallsOnly NoPlacement p) :
    Safe (Step assumed) PlacesFresh (fun _ _ => True) p s := by
  refine h.safe (I := fun _ => True) ?_ (fun _ _ _ _ _ _ _ => trivial) trivial
  rintro s c _ hc keys params rfl
  exact hc.elim

omit [Runtime] [BinanceSdk] in
theorem safe_lift {α : Type} (x : Except PyError α) (s : World) :
    Safe (Step assumed) PlacesFresh (fun _ _ => True) (liftM x : Executor α) s :=
  (safe_ofExcept x).mpr trivial

omit [Runtime] [BinanceSdk] in
/-- Two programs that are safe from anywhere are safe in sequence. -/
theorem safe_seq {α β : Type} {p : Executor α} {f : α → Executor β} {s : World}
    (hp : Safe (Step assumed) PlacesFresh (fun _ _ => True) p s)
    (hf : ∀ s a, Safe (Step assumed) PlacesFresh (fun _ _ => True) (f a) s) :
    Safe (Step assumed) PlacesFresh (fun _ _ => True) (p >>= f) s :=
  hp.bind (fun s a _ => hf s a) fun _ _ _ => trivial

variable (hassumed : ∀ s c r took, assumed s c r took → LookupsHold s c r took)

include hassumed in
omit [BinanceSdk] in
theorem enterOrder_safe {keys : OkxKeys} {params : OrderParams} (s : World) :
    Safe (Step assumed) PlacesFresh (fun _ _ => True) (enterOrder (okxApi keys) params) s := by
  have hlookup : PlacesFresh s (.okx keys (.getOrder params.instId params.clOrdId)) := by
    intro _ _ heq
    cases (Call.okx.inj heq).2
  refine Safe.bind (safe_lookup hassumed hlookup) ?_ (fun _ _ _ => trivial)
  · rintro s' found ⟨rfl, hnone⟩
    cases found with
    | some existing => exact (safe_ofExcept _).mpr trivial
    | none =>
        refine safe_seq (safe_okxQuery ?_ fun _ _ _ => trivial) fun s items => ?_
        · rintro _ _ heq
          rw [← OkxCall.placeOrder.inj (Call.okx.inj heq).2]
          exact hnone rfl
        · exact safe_seq (safe_lift _ _) fun _ _ => (safe_ofExcept _).mpr trivial

include hassumed in
omit [BinanceSdk] in
theorem okxPlacementPrepareOrder_safe {keys : OkxKeys} {request : BrokerOrderRequest} (s : World) :
    Safe (Step assumed) PlacesFresh (fun _ _ => True)
      (okxPlacementPrepareOrder ctx (okxApi keys) request) s := by
  have hpreparation : CallsOnly NoPlacement (placementPreparation ctx (okxApi keys) request) :=
    placementPreparation_callsOnly (okxApi_callsOnly trivial) (fun _ _ => okxApi_callsOnly trivial)
      (fun _ => okxApi_callsOnly trivial) fun _ => okxApi_callsOnly trivial
  have hprotection (preparation : Preparation) (entered : EnteredOrder) : CallsOnly NoPlacement
      (safeVerifyOrRemediateProtection ctx (okxApi keys) request preparation.params
        entered.response entered.providerOrderId preparation.rules) :=
    safeVerifyOrRemediateProtection_callsOnly (fun _ _ => okxApi_callsOnly trivial)
      (fun _ => okxApi_callsOnly trivial) fun _ _ _ => okxApi_callsOnly trivial
  refine safe_seq (safe_lift _ _) fun s _ => ?_
  refine safe_seq (safe_lift _ _) fun s _ => ?_
  refine safe_seq (safe_of_noPlacement hpreparation) fun s preparation => ?_
  refine safe_seq (enterOrder_safe hassumed s) fun s entered => ?_
  refine safe_seq (safe_of_noPlacement (hprotection preparation entered)) fun s protection => ?_
  exact safe_seq (safe_lift _ _) fun s _ => trivial

include hassumed in
/-- The adapter that places orders looks before each. -/
theorem prepareOrder_safe {adapter : ChosenAdapter} {request : BrokerOrderRequest} (s : World) :
    Safe (Step assumed) PlacesFresh (fun _ _ => True) (prepareOrder ctx adapter request) s := by
  cases adapter with
  | disabled => exact (safe_ofExcept _).mpr trivial
  | okxPrecheck keys =>
      have hcalls : CallsOnly NoPlacement (okxPrecheckPrepareOrder ctx (okxApi keys) request) :=
        okxPrecheckPrepareOrder_callsOnly (okxApi_callsOnly trivial)
          (fun _ _ => okxApi_callsOnly trivial) fun _ => okxApi_callsOnly trivial
      exact safe_of_noPlacement hcalls
  | binanceOrderTest keys =>
      have hcalls : CallsOnly NoPlacement
          (Binance.prepareOrder ctx (fun op => perform (.binance keys op)) request) :=
        binancePrepareOrder_callsOnly fun op => CallsOnly.perform trivial
      exact safe_of_noPlacement hcalls
  | okxPlacement keys => exact okxPlacementPrepareOrder_safe hassumed s

include hassumed in
theorem preflightCommand_safe {item : Dict} {inputs : PreflightInputs} (s : World) :
    Safe (Step assumed) PlacesFresh (fun _ _ => True) (preflightCommand ctx item inputs) s := by
  unfold preflightCommand
  split
  · rename_i cleared _
    refine safe_seq (Safe.handle (M := fun _ _ => True) ?_ (fun _ _ _ => trivial)
      (fun _ _ _ _ => trivial) ?_) fun s outcome => ?_
    · refine safe_seq (safe_lift _ _) fun s adapter => ?_
      exact safe_seq (prepareOrder_safe hassumed s) fun s _ => trivial
    · intro s e q _ hq
      cases e with
      | valueError message =>
          rw [← Option.some.inj hq]
          exact (safe_ofExcept _).mpr trivial
      | decimal signal => cases hq
      | other kind message => cases hq
    · cases outcome with
      | inl d => trivial
      | inr adapterResult => exact (safe_ofExcept _).mpr trivial
  · trivial
  · trivial

omit [BinanceSdk] in
theorem post_callsOnly {Q : Call → Prop} {client : YtmClient} {path : String} {payload : Dict}
    {accessToken : Option String} (h : ∀ url, Q (.ytm url (.dict payload) accessToken)) :
    CallsOnly Q (client.post path payload accessToken) := by
  refine (CallsOnly.ofExcept _).bind fun _ => ?_
  refine (CallsOnly.ofExcept _).bind fun host => ?_
  cases host with
  | none => exact CallsOnly.ofExcept (.error _)
  | some host =>
      dsimp only
      split
      · exact CallsOnly.perform (h _)
      · exact CallsOnly.ofExcept (.error _)

omit [BinanceSdk] in
/-- Recording a decision is a request to YTM. -/
theorem recordPreflightDecision_callsOnly {Q : Call → Prop} {item : Dict}
    {decision : CommandPreflightDecision} (h : ∀ url payload accessToken,
      Q (.ytm url payload accessToken)) :
    CallsOnly Q (recordPreflightDecision session item decision) := by
  refine (CallsOnly.ofExcept _).bind fun _ => ?_
  refine (CallsOnly.ofExcept _).bind fun _ => ?_
  refine (CallsOnly.ofExcept _).bind fun _ => ?_
  refine (CallsOnly.ofExcept _).bind fun _ => ?_
  exact (post_callsOnly fun _ => h _ _ _).bind fun _ => CallsOnly.ofExcept (.ok _)

omit [BinanceSdk] in
theorem cachedResult_callsOnly {Q : Call → Prop} {commandId : String} (h : Q .readExecutions) :
    CallsOnly Q (cachedResult commandId) :=
  (CallsOnly.perform h).bind fun _ => CallsOnly.ofExcept _

omit [BinanceSdk] in
theorem storeResult_callsOnly {Q : Call → Prop} {commandId : String} {recordedAt : Instant}
    {decision : CommandPreflightDecision} (hread : Q .readExecutions)
    (hwrite : ∀ content, Q (.writeExecutions content)) :
    CallsOnly Q (storeResult commandId decision recordedAt) := by
  refine (CallsOnly.perform hread).bind fun _ => ?_
  refine (CallsOnly.ofExcept _).bind fun _ => ?_
  exact (CallsOnly.perform (hwrite _)).bind fun _ => CallsOnly.ofExcept (.ok _)

include hassumed in
/-- A turn is safe wherever it starts. -/
theorem processLeaseResponse_safe {leaseResponse : Dict} {inputs : LocalInputs} (s : World) :
    Safe (Step assumed) PlacesFresh (fun _ _ => True)
      (processLeaseResponse session ctx leaseResponse inputs) s := by
  have hrecord (item : Dict) (decision : CommandPreflightDecision) (s : World) :
      Safe (Step assumed) PlacesFresh (fun _ _ => True)
        (recordPreflightDecision session item decision) s :=
    safe_of_noPlacement (recordPreflightDecision_callsOnly fun _ _ _ => trivial)
  unfold processLeaseResponse
  split
  · refine safe_seq (safe_lift _ _) fun s command => ?_
    refine safe_seq (safe_lift _ _) fun s commandId => ?_
    refine safe_seq (safe_of_noPlacement (cachedResult_callsOnly trivial)) fun s cached => ?_
    cases cached with
    | some cached => exact hrecord _ _ s
    | none =>
        refine safe_seq (safe_lift _ _) fun s preflight => ?_
        refine safe_seq (preflightCommand_safe hassumed s) fun s decision => ?_
        split
        · exact safe_seq (safe_of_noPlacement (storeResult_callsOnly trivial fun _ => trivial))
            fun s _ => hrecord _ _ s
        · exact hrecord _ _ s
  · trivial

/--
**No order is placed twice, where lookups are answered.**  In every history in which a
lookup of an order that OKX holds comes back with code `0`, or with an exception that ends
the turn, no order is placed under a client order id OKX holds an order under.
-/
theorem placed_at_most_once {s : World} {keys : OkxKeys} {params : OrderParams}
    {k : Except PyError Value → Executor Unit}
    (h : World.Reachable session ctx AnyTurn LookupsHold
      (s, some (call (.okx keys (.placeOrder params)) k))) : params.clOrdId ∉ s.orders := by
  have hok : PlacesFresh s (.okx keys (.placeOrder params)) := by
    refine Restart.running_ok (I := fun _ => True) trivial ?_ (fun _ _ _ _ _ _ _ => trivial) h
    intro s p s' _ hstart
    cases hstart with
    | turn _ => exact ⟨trivial, processLeaseResponse_safe (fun _ _ _ _ h => h) _⟩
  exact hok keys params rfl

end Turn

/-! ### One error reply is enough -/

namespace Sample

def lostReply : Except PyError Value := .error (.other "ReadTimeout" "timed out")

def rateLimitReply : Except PyError Value :=
  .ok (.dict [("code", "50011"), ("data", .list []), ("msg", "Rate limit reached")])

/-- The answers up to the lookup. -/
def untilLookup : List (Except PyError Value × Effect) :=
  [(.ok .none, .whole), (accountReply, .whole), (instrumentReply, .whole), (leverageReply, .whole)]

end Sample

namespace World

/-- A reply that is no report of an order. -/
def isErrorReply : Except PyError Value → Bool
  | .ok (.dict fields) => !(Dict.get fields "code").isText "0"
  | _ => true

theorem isErrorReply_spec {v : Value} (h : isErrorReply (.ok v) = true) : ¬HasCodeZero v := by
  rintro ⟨fields, rfl, hcode⟩
  simp [isErrorReply, hcode, Value.isText] at h

section Play

variable (admits : World → Call → Except PyError Value → Effect → Bool)

/-- An answer and whether the call took effect; the file answers for itself. -/
def answerTo (s : World) (m : Except PyError Value × Effect) : Call → Except PyError Value × Effect
  | .readExecutions =>
      (if s.torn then .error (.valueError "Expecting value") else .ok s.executions, .none)
  | .writeExecutions _ =>
      (if m.2 = .whole then .ok .none else .error (.other "OSError" "No space left"), m.2)
  | _ => m

/-- One move of the world, if it is admitted. -/
def move (s : World) (c : Call) (m : Except PyError Value × Effect) :
    Option (Except PyError Value × World) :=
  if admits s c (s.answerTo m c).1 (s.answerTo m c).2 then
    some ((s.answerTo m c).1, s.after (s.answerTo m c).2 c)
  else none

variable {admits} {assumed : Assumption}

theorem move_step (hadmits : ∀ s c r took, admits s c r took = true → assumed s c r took)
    {s s' : World} {c : Call} {m : Except PyError Value × Effect} {r : Except PyError Value}
    (h : move admits s c m = some (r, s')) : Step assumed s c r s' := by
  unfold move at h
  split at h
  · rename_i hadmitted
    obtain ⟨rfl, rfl⟩ := Prod.mk.inj (Option.some.inj h)
    refine ⟨_, rfl, ?_, hadmits _ _ _ _ hadmitted⟩
    cases c with
    | readExecutions =>
        intro v hv
        simp only [answerTo] at hv
        split at hv
        · cases hv
        · rename_i htorn
          exact ⟨Bool.eq_false_of_not_eq_true htorn, (Except.ok.inj hv).symm⟩
    | writeExecutions content =>
        intro v hv
        simp only [answerTo] at hv ⊢
        split at hv
        · assumption
        · cases hv
    | _ => trivial
  · cases h

variable [Runtime] [BinanceSdk] {session : Session} {ctx : Context}
variable (leaseResponse : Dict) (inputs : LocalInputs)

variable (admits session ctx) in
/-- One turn for the lease response, as far as the moves go. -/
def playTurn (s : World) (moves : List (Except PyError Value × Effect)) :
    Option (World × Executor Unit) :=
  replay (move admits) moves { s with turn := idOf (leasedEntries leaseResponse) }
    (processLeaseResponse session ctx leaseResponse inputs)

variable (admits session ctx) in
/-- Turns that end in a crash, each after its moves. -/
def playTurns : List (List (Except PyError Value × Effect)) → World → Option World
  | [], s => some s
  | moves :: rest, s =>
      match playTurn admits session ctx leaseResponse inputs s moves with
      | some (s', _) => playTurns rest s'
      | none => none

variable {leaseResponse inputs} {admitted : World → Dict → LocalInputs → Prop}
variable (hadmits : ∀ s c r took, admits s c r took = true → assumed s c r took)

include hadmits in
theorem reachable_playTurn {s s' : World} {p : Executor Unit}
    {moves : List (Except PyError Value × Effect)} (hadmitted : admitted s leaseResponse inputs)
    (hs : World.Reachable session ctx admitted assumed (s, none))
    (h : playTurn admits session ctx leaseResponse inputs s moves = some (s', p)) :
    World.Reachable session ctx admitted assumed (s', some p) := by
  have hstart : Starts session ctx admitted s
      (processLeaseResponse session ctx leaseResponse inputs)
      { s with turn := idOf (leasedEntries leaseResponse) } := Starts.turn hadmitted
  have hmove (s : World) (c : Call) (m : Except PyError Value × Effect) (r : Except PyError Value)
      (s' : World) (hm : move admits s c m = some (r, s')) : Step assumed s c r s' :=
    move_step hadmits hm
  exact Restart.reachable_reaches (hs.tail (Restart.Step.start hstart))
    (replay_reaches hmove moves _ _ _ _ h)

include hadmits in
theorem reachable_playTurns (hadmitted : ∀ s, admitted s leaseResponse inputs)
    (turns : List (List (Except PyError Value × Effect))) :
    ∀ {s s' : World},
      World.Reachable session ctx admitted assumed (s, none) →
      playTurns admits session ctx leaseResponse inputs turns s = some s' →
      World.Reachable session ctx admitted assumed (s', none) := by
  induction turns with
  | nil =>
      intro s s' hs h
      rwa [← Option.some.inj h]
  | cons moves rest ih =>
      intro s s' hs h
      rw [playTurns] at h
      split at h
      · rename_i s₁ p hturn
        exact ih ((reachable_playTurn hadmits (hadmitted s) hs hturn).tail (Restart.Step.crash s₁ p)) h
      · cases h

end Play

/-- A program is about to place an order, and `held` says whether there is one already. -/
def aboutToPlace (held : Bool) : Option (World × Executor Unit) → Bool
  | some (s, call (.okx _ (.placeOrder params)) _) => decide (params.clOrdId ∈ s.orders) == held
  | _ => false

theorem aboutToPlace_spec {held : Bool} {x : Option (World × Executor Unit)}
    (h : aboutToPlace held x = true) :
    ∃ s keys params k, x = some (s, call (.okx keys (.placeOrder params)) k) ∧
      decide (params.clOrdId ∈ s.orders) = held := by
  unfold aboutToPlace at h
  split at h
  · rename_i s keys params k
    exact ⟨s, keys, params, k, rfl, by simpa using h⟩
  · cases h

theorem anyTurn {leaseResponse : Dict} {inputs : LocalInputs} (s : World) :
    AnyTurn s leaseResponse inputs := trivial

/-- Lookups meet errors only. -/
def lookupsFail (_ : World) (c : Call) (r : Except PyError Value) (_ : Effect) : Bool :=
  match c with
  | .okx _ (.getOrder _ _) => isErrorReply r
  | _ => true

theorem lookupsFail_report {s : World} {c : Call} {r : Except PyError Value} {took : Effect}
    (h : lookupsFail s c r took = true) : LookupsReport s c r took := by
  unfold LookupsReport
  split
  · intro _ v hv hzero
    rw [hv] at h
    exact absurd hzero (isErrorReply_spec h)
  · trivial

/-- A reply that reports one order. -/
def isOrderReport : Except PyError Value → Bool
  | .ok (.dict fields) =>
      (Dict.get fields "code").isText "0" &&
        match Dict.get? fields "data" with
        | some (.list [.dict order]) =>
            (match Dict.get order "ordId" with
              | .str ordId => decide (strip ordId ≠ "")
              | _ => false) && isPublic (.dict order)
        | _ => false
  | _ => false

theorem isOrderReport_spec {r : Except PyError Value} (h : isOrderReport r = true) :
    ∃ v, r = .ok v ∧ HasCodeZero v ∧ ReportsOrder v := by
  unfold isOrderReport at h
  split at h
  · rename_i fields
    rw [Bool.and_eq_true] at h
    obtain ⟨hcode, h⟩ := h
    have hzero : Dict.get fields "code" = .str "0" := Value.isText_iff.mp hcode
    split at h
    · rename_i order hdata
      rw [Bool.and_eq_true] at h
      obtain ⟨hid, hpublic⟩ := h
      split at hid
      · rename_i ordId hordId
        exact ⟨_, rfl, ⟨fields, rfl, hzero⟩, fields, order, ordId, rfl, hzero, hdata, hordId,
          of_decide_eq_true hid, hpublic⟩
      · cases hid
    · cases h
  · cases h

/-- Lookups of orders that are held report one. -/
def lookupsReport (s : World) (c : Call) (r : Except PyError Value) (_ : Effect) : Bool :=
  match c with
  | .okx _ (.getOrder _ clOrdId) => decide (clOrdId ∉ s.orders) || isOrderReport r
  | _ => true

theorem lookupsReport_hold {s : World} {c : Call} {r : Except PyError Value} {took : Effect}
    (h : lookupsReport s c r took = true) : LookupsHold s c r took := by
  unfold LookupsHold LookupsReport LookupsAnswered
  split
  · rcases Bool.or_eq_true_iff.mp h with hfresh | hreport
    · have hfresh := of_decide_eq_true hfresh
      exact ⟨fun hheld => absurd hheld hfresh, fun hheld => absurd hheld hfresh⟩
    · obtain ⟨v, rfl, hzero, horder⟩ := isOrderReport_spec hreport
      refine ⟨fun _ w hw _ => ?_, fun _ => Or.inl ⟨v, rfl, hzero⟩⟩
      rw [← Except.ok.inj hw]
      exact horder
  · exact ⟨trivial, trivial⟩

end World

namespace Sample

/-- The reply to a lookup of the order that was placed. -/
def heldReply : Except PyError Value := reply [("ordId", "order-1"), ("state", "live")]

/-- Another command is leased. -/
def otherLease : Dict :=
  [("item", .dict [("command", .dict (Dict.set (command payload) "id" "command-2")),
    ("lease", .dict [("id", "lease-2")])])]

end Sample

/-- The order of one command was placed, its reply was lost, and a lookup found it; now another
command's order is about to be placed. -/
theorem placed_at_most_once_sample :
    ∃ (s : World) (keys : OkxKeys) (params : OrderParams)
        (k : Except PyError Value → Executor Unit), s.orders ≠ [] ∧
      @World.Reachable Sample.runtime Sample.sdk Sample.session defaultContext AnyTurn
        LookupsHold (s, some (call (.okx keys (.placeOrder params)) k)) ∧
          params.clOrdId ∉ s.orders := by
  let _ : Runtime := Sample.runtime
  let _ : BinanceSdk := Sample.sdk
  let turns := [Sample.untilLookup ++ [(Sample.noOrderReply, .none), (Sample.lostReply, .whole)],
    Sample.untilLookup ++ [(Sample.heldReply, .none)]]
  let last := Sample.untilLookup ++ [(Sample.noOrderReply, .none)]
  let playOther (s : World) := playTurn lookupsReport Sample.session defaultContext
    Sample.otherLease Sample.localInputs s last
  have hplay : ((playTurns lookupsReport Sample.session defaultContext Sample.leaseResponse
      Sample.localInputs turns fresh).any fun s => aboutToPlace false (playOther s) &&
        (playOther s).any fun y => decide (y.1.orders ≠ [])) = true := by decide +kernel
  obtain ⟨s, hturns, hlast⟩ := (Option.any_eq_true _ _).mp hplay
  rw [Bool.and_eq_true] at hlast
  obtain ⟨s', keys, params, k, hturn, _⟩ := aboutToPlace_spec hlast.1
  have hheld := hlast.2
  rw [hturn] at hheld
  have hcrashed := reachable_playTurns (fun _ _ _ _ => lookupsReport_hold) anyTurn turns
    Relation.ReflTransGen.refl hturns
  have hreach := reachable_playTurn (fun _ _ _ _ => lookupsReport_hold) (anyTurn s) hcrashed hturn
  exact ⟨s', keys, params, k, of_decide_eq_true hheld, hreach, placed_at_most_once hreach⟩

/--
**One error reply is enough.**  The order took effect and its reply was lost; in the next
turn the lookup meets a rate limit, and the order is placed again.
-/
theorem placed_twice :
    ¬∀ (s : World) (keys : OkxKeys) (params : OrderParams)
        (k : Except PyError Value → Executor Unit),
      @World.Reachable Sample.runtime Sample.sdk Sample.session defaultContext
        AnyTurn LookupsReport (s, some (call (.okx keys (.placeOrder params)) k)) →
      params.clOrdId ∉ s.orders := by
  let _ : Runtime := Sample.runtime
  let _ : BinanceSdk := Sample.sdk
  let turns := [Sample.untilLookup ++ [(Sample.noOrderReply, .whole), (Sample.lostReply, .whole)]]
  let last := Sample.untilLookup ++ [(Sample.rateLimitReply, .whole)]
  intro h
  have hplay : ((playTurns lookupsFail Sample.session defaultContext Sample.leaseResponse
      Sample.localInputs turns fresh).any fun s => aboutToPlace true (playTurn lookupsFail
        Sample.session defaultContext Sample.leaseResponse Sample.localInputs s last)) = true := by
    decide +kernel
  obtain ⟨s, hturns, hlast⟩ := (Option.any_eq_true _ _).mp hplay
  obtain ⟨s', keys, params, k, hturn, hheld⟩ := aboutToPlace_spec hlast
  have hcrashed := reachable_playTurns (fun _ _ _ _ => lookupsFail_report) anyTurn turns
    Relation.ReflTransGen.refl hturns
  have hreach := reachable_playTurn (fun _ _ _ _ => lookupsFail_report) (anyTurn s) hcrashed hturn
  exact h s' keys params k hreach (of_decide_eq_true hheld)

end YtmExecutor
