/-
The executor keeps a ledger of results.

Between its turns nothing is left of a command but what the file of results says, and the
cloud may lease a command as often as it likes.  `ledgerOf` reads a ledger off a history:
what the file holds under each id is what was committed, and the requests that recorded a
result are the reports.  `history_refines_ledger` says that this is a run of the ledger,
through every crash and restart.  What has to be committed before it is reported is an
acknowledgement of a command whose mode is exactly `real`; one whose mode is `real` with
blanks around it is run as a real one, and its acknowledgement is not committed.

So the rules of the ledger hold of the executor.  Whoever asks again is told the same,
and the broker is not asked again.  A process killed while it writes the file ends all of
this: nothing is read from the file any more, so nothing is reported either.
-/
import YtmExecutor.Interaction.Ledger
import YtmExecutor.Interaction.Refinement
import YtmExecutor.NoFalseRejection
import YtmExecutor.OkxSwap.Remediation

namespace YtmExecutor

open Python Decimal Interaction Prog World

/-! ### What is committed and what is reported -/

/-- A result: its status and its payload. -/
abbrev Result := String × Dict

/-- The result in a record of the file, or in the body of a request. -/
def resultOf (fields : Dict) : Option Result :=
  match fields.get "status", fields.get "resultPayload" with
  | .str status, .dict resultPayload => some (status, resultPayload)
  | _, _ => none

/-- The result the file holds for a command. -/
def committedIn (file : Value) (commandId : String) : Option Result :=
  match file with
  | .dict entries => ((ExecutionStore.dictEntries entries).lookup commandId).bind resultOf
  | _ => none

/-- The id in the URL of a request that records a result. -/
def reportedId (session : Session) (url : String) : Option String :=
  let front := rstripChar '/' session.client.serverUrl ++ "/api/executor/commands/"
  ((url.toList.dropPrefix? front.toList).bind fun rest =>
    rest.dropSuffix? "/result".toList).map String.ofList

/-- The command and the result of a request that records one. -/
def reportOf (session : Session) : Call → Option (String × Result)
  | .ytm url (.dict fields) _ => (reportedId session url).bind fun commandId =>
      (resultOf fields).map fun result => (commandId, result)
  | _ => none

/-- The ledger of a history. -/
def ledgerOf (session : Session) (x : World × Transcript Call Value PyError) :
    Ledger String Result :=
  ⟨committedIn x.1.executions, x.2.filterMap fun entry => reportOf session entry.1⟩

/-- An acknowledgement of a command whose mode is exactly `real` is cached before it is
recorded. -/
def MustCommit (commands : String → Dict) (commandId : String) (result : Result) : Prop :=
  isKept (commands commandId) ⟨result.1, result.2⟩ = true

/-- The mode is read without the blanks around it, but not before the cache. -/
example : executionModeOf (Value.str " real ").text = some .real ∧
    isKept [("executionMode", " real ")] ⟨"acknowledged", []⟩ = false := by decide

/-- A lease that gives only such results to the cache, and all results that must be there. -/
def GivesResults (may must : String → Result → Prop) (leaseResponse : Dict) : Prop :=
  ∀ item command d, Leases leaseResponse item command →
    (isKept command d = true → may (idOf command) (d.status, d.resultPayload)) ∧
      (must (idOf command) (d.status, d.resultPayload) → isKept command d = true)

theorem givesResults_of_sameContent {commands : String → Dict} {leaseResponse : Dict}
    (h : SameContent commands leaseResponse) :
    GivesResults (MustCommit commands) (MustCommit commands) leaseResponse := by
  intro item command d hleases
  rw [MustCommit, h item command hleases]
  exact ⟨id, id⟩

theorem reportedId_append (session : Session) (commandId : String) :
    reportedId session (rstripChar '/' session.client.serverUrl
      ++ ("/api/executor/commands/" ++ commandId ++ "/result")) = some commandId := by
  have hdrop : ∀ front rest : List Char, (front ++ rest).dropPrefix? front = some rest :=
    fun front rest => List.dropPrefix?_append_of_beq rest (by simp)
  have hcut : ∀ front back : List Char, (front ++ back).dropSuffix? back = some front :=
    fun front back => List.dropSuffix?_eq_some_iff.mpr ⟨back, rfl, by simp⟩
  have hurl : (rstripChar '/' session.client.serverUrl
      ++ ("/api/executor/commands/" ++ commandId ++ "/result")).toList =
        (rstripChar '/' session.client.serverUrl ++ "/api/executor/commands/").toList
          ++ (commandId.toList ++ "/result".toList) := by
    simp only [String.toList_append, List.append_assoc]
  rw [reportedId, hurl, hdrop, Option.bind_some, hcut, Option.map_some, String.ofList_toList]

theorem reportOf_recordCall (session : Session) (commandId leaseId status : String)
    (resultPayload : Dict) : reportOf session (recordCall session commandId leaseId status
      resultPayload) = some (commandId, status, resultPayload) := by
  rw [recordCall, reportOf, reportedId_append]
  rfl

/-! ### The file as the committed part -/

section File

variable [Runtime] {file content : Value} {commandId status : String} {resultPayload : Dict}

theorem resultOf_of_storedResult {item : Dict} {cached : Option StoredExecutionResult}
    (h : ExecutionStore.storedResult commandId item = .ok cached) :
    resultOf item = cached.map fun c => (c.status, c.resultPayload) := by
  unfold ExecutionStore.storedResult at h
  unfold resultOf
  split at h
  · rename_i payload status hpayload hstatus
    obtain ⟨_, _, h⟩ := bind_eq_ok.mp h
    rw [hpayload, hstatus, ← Except.ok.inj h]
    rfl
  · rename_i hno
    rw [← Except.ok.inj h]
    split
    · rename_i status payload hstatus hpayload
      exact absurd hstatus (hno payload status hpayload)
    · rfl

/-- What a readable file holds is what a get finds. -/
theorem committedIn_of_get {cached : Option StoredExecutionResult}
    (h : ExecutionStore.get file commandId = .ok cached) :
    committedIn file commandId = cached.map fun c => (c.status, c.resultPayload) := by
  obtain ⟨records, hread, hfound⟩ := bind_eq_ok.mp h
  cases file with
  | dict entries =>
      obtain ⟨_, _, hrecords⟩ := bind_eq_ok.mp hread
      rw [committedIn, Except.ok.inj hrecords]
      cases hitem : records.lookup commandId with
      | none =>
          rw [hitem] at hfound
          rw [← Except.ok.inj hfound]
          rfl
      | some item =>
          rw [hitem] at hfound
          exact resultOf_of_storedResult hfound
  | none | bool | int | float | str | list | tuple => cases hread

/-- A put commits one result and leaves the others. -/
theorem committedIn_of_put {now : Instant}
    (h : ExecutionStore.put file commandId status resultPayload now = .ok content) (id : String) :
    committedIn content id =
      if id = commandId then some (status, resultPayload) else committedIn file id := by
  obtain ⟨_, _, hrest⟩ := bind_eq_ok.mp h
  obtain ⟨records, hread, hcontent⟩ := bind_eq_ok.mp hrest
  cases file with
  | dict entries =>
      obtain ⟨_, _, hrecords⟩ := bind_eq_ok.mp hread
      rw [← Except.ok.inj hcontent, committedIn, dictEntries_records, lookup_putRecord,
        committedIn, Except.ok.inj hrecords]
      split
      · rfl
      · rfl
  | none | bool | int | float | str | list | tuple => cases hread

end File

/-! ### One turn -/

/-- A request to a broker. -/
def IsBrokerCall : Call → Prop
  | .okx _ _ | .binance _ _ => True
  | _ => False

/-- What keeps the ledger: with a file that can be read, the broker is asked and a result is
cached for a command without a result, and what is recorded is allowed by the ledger. -/
def KeepsLedger (session : Session) (may must : String → Result → Prop) (s : World) :
    Call → Prop
  | .okx _ _ | .binance _ _ => s.torn = false ∧ committedIn s.executions s.turn = none
  | .readExecutions => True
  | .writeExecutions content => s.torn = false ∧ ∃ r, may s.turn r ∧
      committedIn s.executions s.turn = none ∧
      ∀ id, committedIn content id = if id = s.turn then some r else committedIn s.executions id
  | .ytm url payload token => s.torn = false ∧ ∃ leaseId r,
      Call.ytm url payload token = recordCall session s.turn leaseId r.1 r.2 ∧
      (committedIn s.executions s.turn = some r ∨
        committedIn s.executions s.turn = none ∧ ¬must s.turn r)

section Turn

variable [Runtime] [BinanceSdk] {session : Session} {ctx : Context}
variable {may must : String → Result → Prop} {assumed : Assumption} {s : World}

/-- The requests of an adapter are made with its keys. -/
def ChosenAdapter.Asks : ChosenAdapter → Call → Prop
  | .okxPrecheck keys, .okx used _ | .okxPlacement keys, .okx used _ => used = keys
  | .binanceOrderTest keys, .binance used _ => used = keys
  | _, _ => False

omit [Runtime] [BinanceSdk] in
theorem ChosenAdapter.Asks.isBrokerCall {adapter : ChosenAdapter} {c : Call}
    (h : adapter.Asks c) : IsBrokerCall c := by
  cases c with
  | okx | binance => trivial
  | readExecutions | writeExecutions | ytm => cases adapter <;> cases h

theorem prepareOrder_asks {adapter : ChosenAdapter} {request : BrokerOrderRequest} :
    CallsOnly adapter.Asks (prepareOrder ctx adapter request) := by
  cases adapter with
  | disabled => exact CallsOnly.ofExcept _
  | okxPrecheck keys =>
      have hokx (op : OkxCall) :
          CallsOnly (ChosenAdapter.Asks (.okxPrecheck keys)) (okxApi keys op) :=
        okxApi_callsOnly rfl
      exact okxPrecheckPrepareOrder_callsOnly (hokx _) (fun _ _ => hokx _) fun _ => hokx _
  | binanceOrderTest keys =>
      have hbinance (op : Binance.BinanceCall) :
          CallsOnly (ChosenAdapter.Asks (.binanceOrderTest keys))
            (perform (.binance keys op) : Executor Value) := CallsOnly.perform rfl
      exact binancePrepareOrder_callsOnly hbinance
  | okxPlacement keys =>
      have hokx (op : OkxCall) :
          CallsOnly (ChosenAdapter.Asks (.okxPlacement keys)) (okxApi keys op) :=
        okxApi_callsOnly rfl
      refine (CallsOnly.ofExcept _).bind fun _ => ?_
      refine (CallsOnly.ofExcept _).bind fun _ => ?_
      refine CallsOnly.bind (placementPreparation_callsOnly (hokx _) (fun _ _ => hokx _)
        (fun _ => hokx _) fun _ => hokx _) fun preparation => ?_
      refine CallsOnly.bind ?_ fun entered => ?_
      · refine (lookupOrderByClientId_callsOnly (hokx _)).bind fun found => ?_
        cases found with
        | some existing => exact CallsOnly.ofExcept _
        | none =>
            refine CallsOnly.bind ?_ fun items => ?_
            · exact (hokx _).bind fun _ => CallsOnly.ofExcept _
            · exact (CallsOnly.ofExcept _).bind fun _ => CallsOnly.ofExcept _
      · refine (safeVerifyOrRemediateProtection_callsOnly (fun _ _ => hokx _)
          (fun _ => hokx _) fun _ _ _ => hokx _).bind fun protection => ?_
        exact (CallsOnly.ofExcept _).bind fun _ => CallsOnly.ofExcept (.ok _)

/-- **Whoever asks a broker** has passed the gates and asks with the keys of its adapter. -/
theorem adapter_of_makes {item : Dict} {inputs : PreflightInputs} {c : Call}
    (hmakes : Makes (preflightCommand ctx item inputs) c) :
    ∃ cleared adapter, preflightGates ctx item inputs = .ok cleared ∧
      adapterForCommand cleared inputs.localSecretResolver = .ok adapter ∧ adapter.Asks c := by
  unfold preflightCommand at hmakes
  split at hmakes
  · rename_i cleared hcleared
    suffices hphase : CallsOnly (fun c => ∃ adapter,
        adapterForCommand cleared inputs.localSecretResolver = .ok adapter ∧ adapter.Asks c)
        (brokerPhase ctx cleared inputs) by
      obtain ⟨adapter, hadapter, hasks⟩ := hphase.makes hmakes
      exact ⟨cleared, adapter, hcleared, hadapter, hasks⟩
    refine CallsOnly.bind (CallsOnly.handle ?_ ?_) fun outcome => ?_
    · cases hadapter : adapterForCommand cleared inputs.localSecretResolver with
      | error e => exact CallsOnly.ofExcept (.error e)
      | ok adapter =>
          show CallsOnly _ (prepareOrder ctx adapter cleared.request >>= fun r =>
            (.done (.inr r) : Executor (CommandPreflightDecision ⊕ BrokerAdapterResult)))
          refine CallsOnly.bind ?_ fun r => CallsOnly.ofExcept (.ok (Sum.inr r))
          exact CallsOnly.of_makes fun c hc => ⟨adapter, rfl, prepareOrder_asks.makes hc⟩
    · intro e q hq
      cases e with
      | valueError message =>
          rw [← Option.some.inj hq]
          exact CallsOnly.ofExcept _
      | decimal signal => cases hq
      | other kind message => cases hq
    · cases outcome with
      | inl d => exact CallsOnly.ofExcept (.ok d)
      | inr adapterResult => exact CallsOnly.ofExcept _
  · exact absurd hmakes not_makes_done
  · exact absurd hmakes not_makes_raise

/-- A decision is made with requests to the broker alone. -/
theorem preflightCommand_callsOnly {item : Dict} {inputs : PreflightInputs} :
    CallsOnly IsBrokerCall (preflightCommand ctx item inputs) := by
  refine CallsOnly.of_makes fun c hc => ?_
  obtain ⟨_, adapter, _, _, hasks⟩ := adapter_of_makes hc
  exact hasks.isBrokerCall

omit [Runtime] [BinanceSdk] in
theorem executions_of_brokerCall {s' : World} {c : Call} {r : Except PyError Value}
    (hc : IsBrokerCall c) (h : Step assumed s c r s') :
    s'.executions = s.executions ∧ s'.torn = s.torn ∧ s'.turn = s.turn := by
  have hfile : s'.executions = s.executions ∧ s'.torn = s.torn := by
    obtain ⟨took, rfl, _⟩ := h
    cases c with
    | okx keys op =>
        cases op with
        | placeOrder params => cases took <;> exact ⟨rfl, rfl⟩
        | _ => exact ⟨rfl, rfl⟩
    | binance keys op => exact ⟨rfl, rfl⟩
    | _ => exact hc.elim
  exact ⟨hfile.1, hfile.2, h.turn⟩

/-- A turn looks into the cache, lets the preflight decide, caches, and records. -/
theorem processLeaseResponse_callsOnly {Q : Call → Prop} {leaseResponse : Dict}
    {inputs : LocalInputs} (hread : Q .readExecutions)
    (hwrite : ∀ content, Q (.writeExecutions content))
    (hrecord : ∀ item decision, CallsOnly Q (recordPreflightDecision session item decision))
    (hpreflight : ∀ item preflight, leaseResponse.get "item" = .dict item →
      preflightInputs inputs = .ok preflight → CallsOnly Q (preflightCommand ctx item preflight)) :
    CallsOnly Q (processLeaseResponse session ctx leaseResponse inputs) := by
  unfold processLeaseResponse
  split
  · rename_i item hitem
    refine (CallsOnly.ofExcept _).bind fun command => ?_
    refine (CallsOnly.ofExcept _).bind fun commandId => ?_
    refine (cachedResult_callsOnly hread).bind fun cached => ?_
    cases cached with
    | some cached => exact hrecord _ _
    | none =>
        unfold processCommand
        cases hinputs : preflightInputs inputs with
        | error e => exact CallsOnly.ofExcept (.error e)
        | ok preflight =>
            refine CallsOnly.bind (p := preflightCommand ctx item preflight)
              (hpreflight item preflight hitem hinputs) fun decision => ?_
            split
            · exact (storeResult_callsOnly hread hwrite).bind fun _ => hrecord _ _
            · exact hrecord _ _
  · exact CallsOnly.ofExcept (.ok _)

omit [BinanceSdk] in
/-- A request to YTM goes to one URL. -/
theorem post_makes {client : YtmClient} {path : String} {payload : Dict} {token : Option String} :
    CallsOnly (fun c => c = .ytm (rstripChar '/' client.serverUrl ++ path) (.dict payload) token)
      (client.post path payload token) := by
  refine (CallsOnly.ofExcept _).bind fun _ => ?_
  refine (CallsOnly.ofExcept _).bind fun host => ?_
  cases host with
  | none => exact CallsOnly.ofExcept (.error _)
  | some host =>
      dsimp only
      split
      · exact CallsOnly.perform rfl
      · exact CallsOnly.ofExcept (.error _)

omit [BinanceSdk] in
/-- The request a decision is recorded by. -/
theorem recordPreflightDecision_records {item command : Dict} {commandId : String}
    {d : CommandPreflightDecision} (hitem : item.get "command" = .dict command)
    (hid : expectText command "id" = .ok commandId) :
    CallsOnly (fun c => ∃ leaseId, c = recordCall session commandId leaseId d.status d.resultPayload)
      (recordPreflightDecision session item d) := by
  unfold recordPreflightDecision
  have hobject : expectObject item "command" = .ok command := by rw [expectObject, hitem]
  rw [hobject]
  refine (safe_bind _).mpr ((safe_ofExcept _).mpr ?_)
  refine CallsOnly.bind (CallsOnly.ofExcept _) fun lease => ?_
  rw [hid]
  refine (safe_bind _).mpr ((safe_ofExcept _).mpr ?_)
  refine CallsOnly.bind (CallsOnly.ofExcept _) fun leaseId => ?_
  refine CallsOnly.bind ?_ fun _ => CallsOnly.ofExcept (.ok _)
  exact Safe.mono (fun _ _ hc => ⟨leaseId, hc⟩) (fun _ _ _ => trivial) post_makes

/-! What each part of a turn leaves of the ledger, as long as nothing is committed yet. -/

/-- The file as it was, and the turn for the same command. -/
structure SameFile (s s' : World) : Prop where
  executions : s'.executions = s.executions
  torn : s'.torn = s.torn
  turn : s'.turn = s.turn

omit [Runtime] [BinanceSdk] in
theorem safe_brokerCalls {α : Type} {p : Executor α} (h : CallsOnly IsBrokerCall p)
    (htorn : s.torn = false) (hnone : committedIn s.executions s.turn = none) :
    Safe (Step assumed) (KeepsLedger session may must) (fun s' _ => SameFile s s') p s := by
  refine h.safe (I := fun s' => SameFile s s') ?_ ?_ ⟨rfl, rfl, rfl⟩
  · rintro s' c ⟨hfile, htorn', hturn⟩ hc
    rw [← hfile, ← hturn] at hnone
    rw [← htorn'] at htorn
    cases c with
    | okx keys op => exact ⟨htorn, hnone⟩
    | binance keys op => exact ⟨htorn, hnone⟩
    | _ => exact hc.elim
  · rintro s' c r s'' ⟨hfile, htorn', hturn⟩ hc hstep
    obtain ⟨hfile₂, htorn₂, hturn₂⟩ := executions_of_brokerCall hc hstep
    exact ⟨hfile₂.trans hfile, htorn₂.trans htorn', hturn₂.trans hturn⟩

omit [Runtime] [BinanceSdk] in
theorem safe_readsFile {post : World → Except PyError Value → Prop}
    (h : ∀ r, (∀ v, r = .ok v → s.torn = false ∧ v = s.executions) → post s r) :
    Safe (Step assumed) (KeepsLedger session may must) post (perform .readExecutions) s := by
  refine (safe_perform _).mpr ⟨trivial, ?_⟩
  rintro r s' ⟨took, rfl, hfile, _⟩
  exact h r hfile

omit [BinanceSdk] in
/-- A decision is recorded where the ledger allows it. -/
theorem safe_recordsDecision {item command : Dict} {d : CommandPreflightDecision}
    (hitem : item.get "command" = .dict command) (hid : expectText command "id" = .ok s.turn)
    (htorn : s.torn = false)
    (h : committedIn s.executions s.turn = some (d.status, d.resultPayload) ∨
      committedIn s.executions s.turn = none ∧ ¬must s.turn (d.status, d.resultPayload)) :
    Safe (Step assumed) (KeepsLedger session may must) (fun _ _ => True)
      (recordPreflightDecision session item d) s := by
  refine ((recordPreflightDecision_records hitem hid).safe (I := fun s' => s' = s) ?_ ?_
    rfl).post_mono fun _ _ _ => trivial
  · rintro _ c rfl ⟨leaseId, rfl⟩
    exact ⟨htorn, leaseId, _, rfl, h⟩
  · rintro _ c r s' rfl ⟨leaseId, rfl⟩ hstep
    exact hstep.quiet trivial

omit [BinanceSdk] in
/-- Caching a result commits it. -/
theorem safe_storesResult {d : CommandPreflightDecision} {recordedAt : Instant}
    (hmay : may s.turn (d.status, d.resultPayload))
    (hnone : committedIn s.executions s.turn = none) :
    Safe (Step assumed) (KeepsLedger session may must)
      (fun s' r => s'.turn = s.turn ∧ ∀ u, r = .ok u → s'.torn = false ∧
        committedIn s'.executions s'.turn = some (d.status, d.resultPayload))
      (storeResult s.turn d recordedAt) s := by
  refine Safe.bind (M := fun s' r => s' = s ∧ ∀ v, r = .ok v → s.torn = false ∧ v = s.executions)
    (safe_readsFile fun r hr => ⟨rfl, hr⟩) ?_ ?_
  · rintro s' file ⟨rfl, hfile⟩
    obtain ⟨htorn, rfl⟩ := hfile file rfl
    refine (safe_bind _).mpr ((safe_ofExcept _).mpr ?_)
    cases hput : ExecutionStore.put s'.executions s'.turn d.status d.resultPayload recordedAt with
    | error e => exact ⟨rfl, fun _ h => by cases h⟩
    | ok content =>
        have hcontent := committedIn_of_put hput
        refine Safe.bind (M := fun s₁ r => s₁.turn = s'.turn ∧ ∀ v, r = .ok v →
          s₁.torn = false ∧ s₁.executions = content)
          ((safe_perform _).mpr ⟨⟨htorn, _, hmay, hnone, hcontent⟩, ?_⟩) ?_ ?_
        · rintro r s₁ ⟨took, rfl, htook, hanswer⟩
          refine ⟨World.Step.turn ⟨took, rfl, htook, hanswer⟩, fun v hv => ?_⟩
          rw [htook v hv]
          exact ⟨rfl, rfl⟩
        · rintro s₁ v ⟨hturn, hfile⟩
          refine ⟨hturn, fun _ _ => ?_⟩
          obtain ⟨htorn₁, hfile₁⟩ := hfile v rfl
          rw [hfile₁, hturn, hcontent, if_pos rfl]
          exact ⟨htorn₁, rfl⟩
        · rintro s₁ e ⟨hturn, _⟩
          exact ⟨hturn, fun _ h => by cases h⟩
  · rintro s' e ⟨rfl, _⟩
    exact ⟨rfl, fun _ h => by cases h⟩

/-- A command without a result. -/
theorem processCommand_keepsLedger {item command : Dict} {inputs : LocalInputs}
    (hitem : item.get "command" = .dict command) (hid : expectText command "id" = .ok s.turn)
    (hgives : ∀ d : CommandPreflightDecision,
      (isKept command d = true → may s.turn (d.status, d.resultPayload)) ∧
        (must s.turn (d.status, d.resultPayload) → isKept command d = true))
    (htorn : s.torn = false) (hnone : committedIn s.executions s.turn = none) :
    Safe (Step assumed) (KeepsLedger session may must) (fun _ _ => True)
      (processCommand session ctx item command s.turn inputs) s := by
  unfold processCommand
  refine (safe_bind _).mpr ((safe_ofExcept _).mpr ?_)
  cases hpreflight : preflightInputs inputs with
  | error e => trivial
  | ok preflight =>
      refine Safe.bind (safe_brokerCalls preflightCommand_callsOnly htorn hnone) ?_
        fun _ _ _ => trivial
      rintro s' d ⟨hfile, htorn', hturn⟩
      rw [← hfile, ← hturn] at hnone
      rw [← htorn'] at htorn
      rw [← hturn] at hid hgives ⊢
      split
      · rename_i hkept
        refine Safe.bind (safe_storesResult ((hgives d).1 hkept) hnone) ?_ fun _ _ _ => trivial
        rintro s₁ _ ⟨hturn₁, hcommitted⟩
        rw [← hturn₁] at hid
        exact safe_recordsDecision hitem hid (hcommitted _ rfl).1 (Or.inl (hcommitted _ rfl).2)
      · rename_i hkept
        exact safe_recordsDecision hitem hid htorn (Or.inr ⟨hnone, fun h => hkept ((hgives d).2 h)⟩)

/-- **Every turn keeps the ledger.** -/
theorem processLeaseResponse_keepsLedger {leaseResponse : Dict} {inputs : LocalInputs}
    (hgives : GivesResults may must leaseResponse)
    (hturn : s.turn = idOf (leasedEntries leaseResponse)) :
    Safe (Step assumed) (KeepsLedger session may must) (fun _ _ => True)
      (processLeaseResponse session ctx leaseResponse inputs) s := by
  unfold processLeaseResponse
  split
  · rename_i item hitem
    refine (safe_bind _).mpr ((safe_ofExcept _).mpr ?_)
    cases hcommand : expectObject item "command" with
    | error e => trivial
    | ok command =>
        have hitemCommand : Dict.get item "command" = .dict command := expectObject_eq_ok hcommand
        refine (safe_bind _).mpr ((safe_ofExcept _).mpr ?_)
        cases hid : expectText command "id" with
        | error e => trivial
        | ok commandId =>
            have hleased : s.turn = commandId := by
              rw [hturn, leasedEntries, hitem]
              simp only [Value.dict?, Option.getD_some, hitemCommand]
              exact idOf_of_expectText hid
            subst hleased
            refine Safe.bind (M := fun s' r => s' = s ∧ ∀ cached, r = .ok cached →
              s.torn = false ∧ ExecutionStore.get s.executions s.turn = .ok cached) ?_ ?_
              fun _ _ _ => trivial
            · refine (safe_bind _).mpr (safe_readsFile fun r hr => ?_)
              cases r with
              | error e => exact ⟨rfl, fun _ h => by cases h⟩
              | ok file =>
                  obtain ⟨htorn, rfl⟩ := hr file rfl
                  exact (safe_ofExcept _).mpr ⟨rfl, fun _ h => ⟨htorn, h⟩⟩
            · rintro s' cached ⟨rfl, hget⟩
              obtain ⟨htorn, hget⟩ := hget cached rfl
              have hcommitted := committedIn_of_get hget
              cases cached with
              | some cached =>
                  exact safe_recordsDecision hitemCommand hid htorn (Or.inl hcommitted)
              | none =>
                  refine processCommand_keepsLedger hitemCommand hid (fun d => ?_) htorn hcommitted
                  rw [← idOf_of_expectText hid]
                  exact hgives item command d ⟨hitem, hitemCommand⟩
  · trivial

end Turn

/-! ### Whole histories -/

section Histories

variable [Runtime] [BinanceSdk]

namespace World

/-- The histories that begin with `fresh`, each with everything that was said in it. -/
def Recorded (session : Session) (ctx : Context) (admitted : World → Dict → LocalInputs → Prop)
    (assumed : Assumption) : (World × Transcript Call Value PyError) × Option (Executor Unit) → Prop :=
  Restart.Recorded (Starts session ctx admitted) (Step assumed) fresh

/-- What may come after a point of a history. -/
def GoesOn (session : Session) (ctx : Context) (admitted : World → Dict → LocalInputs → Prop)
    (assumed : Assumption) : (World × Transcript Call Value PyError) × Option (Executor Unit) →
      (World × Transcript Call Value PyError) × Option (Executor Unit) → Prop :=
  Relation.ReflTransGen (Restart.Step (Restart.StartRecording (Starts session ctx admitted))
    (Recording (Step assumed)))

/-- A command has the same content in every turn. -/
def KeepsContent (commands : String → Dict) : World → Dict → LocalInputs → Prop :=
  fun _ leaseResponse _ => SameContent commands leaseResponse

end World

variable {session : Session} {ctx : Context} {commands : String → Dict} {assumed : Assumption}
variable {may must : String → Result → Prop} {admitted : World → Dict → LocalInputs → Prop}

omit [Runtime] [BinanceSdk] in
/-- A call that keeps the ledger is one step of it, or none. -/
theorem ledgerOf_step {s s' : World} {t : Transcript Call Value PyError} {c : Call}
    {r : Except PyError Value} (hc : KeepsLedger session may must s c)
    (hstep : Step assumed s c r s') :
    Relation.ReflGen (Ledger.Next may must) (ledgerOf session (s, t))
      (ledgerOf session (s', t ++ [(c, r)])) := by
  have hsame (hfile : s'.executions = s.executions) (hreport : reportOf session c = none) :
      ledgerOf session (s', t ++ [(c, r)]) = ledgerOf session (s, t) := by
    simp only [ledgerOf, hfile, List.filterMap_append, List.filterMap_cons, hreport,
      List.filterMap_nil, List.append_nil]
  have hfile : IsBrokerCall c → s'.executions = s.executions := fun hbroker =>
    (executions_of_brokerCall hbroker hstep).1
  cases c with
  | okx keys op => rw [hsame (hfile trivial) rfl]
  | binance keys op => rw [hsame (hfile trivial) rfl]
  | readExecutions =>
      rw [hsame (by rw [hstep.quiet trivial]) rfl]
  | writeExecutions content =>
      obtain ⟨took, rfl, _⟩ := hstep
      cases took with
      | none | cut => rw [hsame rfl rfl]
      | whole =>
          obtain ⟨_, result, hmay, hnone, hcontent⟩ := hc
          have hcommit : ledgerOf session (s.after .whole (.writeExecutions content),
              t ++ [(.writeExecutions content, r)]) =
                (ledgerOf session (s, t)).commit s.turn result := by
            simp only [ledgerOf, Ledger.commit, List.filterMap_append, Ledger.mk.injEq]
            refine ⟨funext fun id => ?_, List.append_nil _⟩
            rw [Function.update_apply]
            exact hcontent id
          rw [hcommit]
          exact Relation.ReflGen.single (Ledger.Next.commit hmay hnone)
  | ytm url payload token =>
      obtain ⟨_, leaseId, result, hcall, hallowed⟩ := hc
      obtain rfl := hstep.quiet trivial
      have hreport : ledgerOf session (s', t ++ [(.ytm url payload token, r)]) =
          (ledgerOf session (s', t)).report s'.turn result := by
        simp only [ledgerOf, Ledger.report, List.filterMap_append, hcall, List.filterMap_cons,
          reportOf_recordCall, List.filterMap_nil]
      rw [hreport]
      exact Relation.ReflGen.single (Ledger.Next.report hallowed)

section Admitted

variable (hgives : ∀ s leaseResponse inputs, admitted s leaseResponse inputs →
  GivesResults may must leaseResponse)

include hgives in
/-- From any point of a history to any later one, the ledger takes its steps. -/
theorem ledger_goesOn {x y : (World × Transcript Call Value PyError) × Option (Executor Unit)}
    (hx : World.Recorded session ctx admitted assumed x)
    (hxy : GoesOn session ctx admitted assumed x y) :
    Relation.ReflTransGen (Ledger.Next may must) (ledgerOf session x.1) (ledgerOf session y.1) := by
  refine Restart.simulates (fun _ => True) (fun x c => KeepsLedger session may must x.1 c) trivial
    ?_ ?_ hx hxy
  · rintro ⟨s, t⟩ p ⟨s', t'⟩ _ ⟨hstart, ht⟩
    obtain rfl : t' = t := ht
    obtain ⟨hadmitted⟩ : Starts session ctx admitted s p s' := hstart
    have hturn := hgives _ _ _ hadmitted
    exact ⟨⟨trivial, rfl⟩, (processLeaseResponse_keepsLedger hturn rfl).recording _⟩
  · rintro ⟨s, t⟩ c r ⟨s', t'⟩ _ hc ⟨hstep, rfl⟩
    exact ⟨trivial, ledgerOf_step hc hstep⟩

include hgives in
/-- The call a turn is about to make keeps the ledger. -/
theorem keepsLedger_of_recorded {x : World × Transcript Call Value PyError} {c : Call}
    {k : Except PyError Value → Executor Unit}
    (hx : World.Recorded session ctx admitted assumed (x, some (call c k))) :
    KeepsLedger session may must x.1 c := by
  refine @Restart.running_ok _ _ _ _ _ _ _ (fun x c => KeepsLedger session may must x.1 c)
    (fun _ => True) _ trivial ?_ (fun _ _ _ _ _ _ _ => trivial) _ _ _ hx
  rintro ⟨s, t⟩ p ⟨s', t'⟩ _ ⟨hstart, ht⟩
  obtain rfl : t' = t := ht
  obtain ⟨hadmitted⟩ : Starts session ctx admitted s p s' := hstart
  exact ⟨trivial, (processLeaseResponse_keepsLedger (hgives _ _ _ hadmitted) rfl).recording _⟩

end Admitted

omit [Runtime] [BinanceSdk] in
/-- Any lease will do, if nothing is asked of the results. -/
theorem givesResults_any (leaseResponse : Dict) :
    GivesResults (fun _ _ => True) (fun _ _ => False) leaseResponse :=
  fun _ _ _ _ => ⟨fun _ => trivial, False.elim⟩

omit [Runtime] [BinanceSdk] in
theorem KeepsLedger.of_torn {s : World} {c : Call} (h : KeepsLedger session may must s c)
    (htorn : s.torn = true) : c = .readExecutions := by
  cases c with
  | readExecutions => rfl
  | okx | binance | writeExecutions | ytm => exact absurd (h.1.symm.trans htorn) Bool.false_ne_true

theorem World.Starts.torn {s s' : World} {p : Executor Unit}
    (h : Starts session ctx admitted s p s') : s'.torn = s.torn := by
  cases h
  rfl

/-- **A torn file stops the executor**: no later turn comes further than reading it. -/
theorem torn_stops {x y : (World × Transcript Call Value PyError) × Option (Executor Unit)}
    (hx : World.Recorded session ctx admitted assumed x)
    (hxy : GoesOn session ctx admitted assumed x y) (htorn : x.1.1.torn = true) :
    y.1.1.torn = true ∧
      ∃ later, y.1.2 = x.1.2 ++ later ∧ ∀ entry ∈ later, entry.1 = .readExecutions := by
  induction hxy with
  | refl => exact ⟨htorn, [], (List.append_nil _).symm, by simp⟩
  | @tail y z hbefore hs ih =>
      obtain ⟨hy, later, hlater, hreads⟩ := ih
      cases hs with
      | start h =>
          exact ⟨h.1.torn.trans hy, later, h.2.trans hlater, hreads⟩
      | @answer _ _ c r _ h =>
          obtain ⟨hstep, ht⟩ := h
          have hkeeps := keepsLedger_of_recorded (fun _ leaseResponse _ _ =>
            givesResults_any leaseResponse) (hx.trans hbefore)
          obtain rfl := hkeeps.of_torn hy
          refine ⟨by rw [hstep.quiet trivial]; exact hy, later ++ [(.readExecutions, r)], ?_, ?_⟩
          · rw [ht, hlater, List.append_assoc]
          · intro entry hentry
            rcases List.mem_append.mp hentry with hold | hnew
            · exact hreads entry hold
            · rw [List.mem_singleton.mp hnew]
      | finish _ _ _ => exact ⟨hy, later, hlater, hreads⟩
      | crash _ _ => exact ⟨hy, later, hlater, hreads⟩

/-! ### A history -/

namespace World

/-- One turn for the lease response, with what is said in it. -/
def playRecorded (admits : World → Call → Except PyError Value → Effect → Bool) (session : Session)
    (ctx : Context) (leaseResponse : Dict) (inputs : LocalInputs)
    (x : World × Transcript Call Value PyError) (moves : List (Except PyError Value × Effect)) :
    Option ((World × Transcript Call Value PyError) × Executor Unit) :=
  replay (recordMove (move admits)) moves
    ({ x.1 with turn := idOf (leasedEntries leaseResponse) }, x.2)
    (processLeaseResponse session ctx leaseResponse inputs)

theorem goesOn_playRecorded {admits : World → Call → Except PyError Value → Effect → Bool}
    {admitted : World → Dict → LocalInputs → Prop} {leaseResponse : Dict} {inputs : LocalInputs}
    {x x' : World × Transcript Call Value PyError} {p : Executor Unit}
    {moves : List (Except PyError Value × Effect)}
    (hadmits : ∀ s c r took, admits s c r took = true → assumed s c r took)
    (hadmitted : admitted x.1 leaseResponse inputs)
    (h : playRecorded admits session ctx leaseResponse inputs x moves = some (x', p)) :
    GoesOn session ctx admitted assumed (x, none) (x', some p) := by
  have hstart : Restart.StartRecording (Starts session ctx admitted) x
      (processLeaseResponse session ctx leaseResponse inputs)
      ({ x.1 with turn := idOf (leasedEntries leaseResponse) }, x.2) :=
    ⟨Starts.turn hadmitted, rfl⟩
  have hmove (s : World) (c : Call) (m : Except PyError Value × Effect) (r : Except PyError Value)
      (s' : World) (hm : move admits s c m = some (r, s')) : Step assumed s c r s' :=
    move_step hadmits hm
  exact Restart.reachable_reaches (Relation.ReflTransGen.single (Restart.Step.start hstart))
    (replay_reaches (fun x c m r x' (hm : recordMove (move admits) x c m = some (r, x')) =>
      recordMove_step hmove hm) moves _ _ _ _ h)

/-- The last request of a transcript recorded an acknowledgement. -/
def lastAcknowledges (session : Session) (commandId : String)
    (t : Transcript Call Value PyError) : Bool :=
  match t.getLast? with
  | some (.ytm url (.dict [(.str "leaseId", .str _), (.str "resultPayload", .dict _),
      (.str "status", .str status)]) (some token), _) =>
      decide (url = rstripChar '/' session.client.serverUrl
        ++ ("/api/executor/commands/" ++ commandId ++ "/result")) && decide (status = "acknowledged")
        && decide (token = session.accessToken)
  | _ => false

omit [Runtime] [BinanceSdk] in
theorem lastAcknowledges_spec {commandId : String} {t : Transcript Call Value PyError}
    (h : lastAcknowledges session commandId t = true) : ∃ leaseId resultPayload r,
      (recordCall session commandId leaseId "acknowledged" resultPayload, r) ∈ t := by
  unfold lastAcknowledges at h
  split at h
  · rename_i url leaseId resultPayload status token r hlast
    simp only [Bool.and_eq_true, decide_eq_true_eq] at h
    obtain ⟨⟨rfl, rfl⟩, rfl⟩ := h
    exact ⟨leaseId, resultPayload, r, List.mem_of_getLast? hlast⟩
  · cases h

end World

namespace Sample

/-- The answers of a turn in which the order is placed and its result recorded. -/
def untilRecorded : List (Except PyError Value × Effect) :=
  untilLookup ++ [(noOrderReply, .whole), (orderReply, .whole), (emptyReply, .whole),
    (emptyReply, .whole), (emptyReply, .whole), (emptyReply, .whole), (emptyReply, .whole),
    (.ok .none, .whole), (.ok .none, .whole), (.ok (.dict []), .whole)]

omit [Runtime] [BinanceSdk] in
/-- The sample command is leased and placed; after a crash it is leased again. -/
theorem acknowledgedTwice : ∃ x y p cached,
    @World.Recorded runtime sdk Sample.session defaultContext
      (KeepsContent fun _ => command payload) (fun _ _ _ _ => True) (x, none) ∧
    @GoesOn runtime sdk Sample.session defaultContext
      (KeepsContent fun _ => command payload) (fun _ _ _ _ => True) (x, none) (y, some p) ∧
    @ExecutionStore.get runtime x.1.executions "command-1" = .ok (some cached) ∧
    x.1.torn = false ∧ lastAcknowledges Sample.session "command-1" x.2 = true ∧
    lastAcknowledges Sample.session "command-1" y.2 = true ∧ x.2.length < y.2.length := by
  let _ : Runtime := runtime
  let _ : BinanceSdk := sdk
  let play := playRecorded (fun _ _ _ _ => true) Sample.session defaultContext leaseResponse localInputs
  have hplay : ((play (fresh, []) untilRecorded).any fun first =>
      (play first.1 [(.ok .none, .whole), (.ok (.dict []), .whole)]).any fun second =>
        (ExecutionStore.get first.1.1.executions "command-1").toOption.join.isSome &&
        !first.1.1.torn && lastAcknowledges Sample.session "command-1" first.1.2 &&
        lastAcknowledges Sample.session "command-1" second.1.2 &&
        decide (first.1.2.length < second.1.2.length)) = true := by decide +kernel
  obtain ⟨⟨x, p⟩, hx, hsecond⟩ := (Option.any_eq_true _ _).mp hplay
  obtain ⟨⟨y, q⟩, hy, hchecks⟩ := (Option.any_eq_true _ _).mp hsecond
  simp only [Bool.and_eq_true, decide_eq_true_eq, Bool.not_eq_true'] at hchecks
  obtain ⟨⟨⟨⟨hget, htorn⟩, hlastx⟩, hlasty⟩, hlonger⟩ := hchecks
  obtain ⟨cached, hcached⟩ := Option.isSome_iff_exists.mp hget
  have hcontent : KeepsContent (fun _ => command payload) fresh leaseResponse localInputs :=
    sameContent
  have hrecorded : GoesOn Sample.session defaultContext (KeepsContent fun _ => command payload)
      (fun _ _ _ _ => True) ((fresh, []), none) (x, none) :=
    (goesOn_playRecorded (fun _ _ _ _ _ => trivial) hcontent hx).tail (Restart.Step.crash x p)
  refine ⟨x, y, q, cached, hrecorded, goesOn_playRecorded (fun _ _ _ _ _ => trivial) sameContent hy,
    ?_, htorn, hlastx, hlasty, hlonger⟩
  exact toOption_eq_some.mp (Option.join_eq_some_iff.mp hcached)

end Sample

/--
**The executor refines the ledger.**  Read off the file of results, as it was last filled
as a whole, and off the requests that were made, every history of turns, crashes and
restarts, in which a command keeps its content, is a run of the ledger: a command's result is
committed once, an acknowledgement of a command whose mode is exactly `real` before it is
recorded, and nothing but the committed result is recorded of a command that has one.
-/
theorem history_refines_ledger
    {x : (World × Transcript Call Value PyError) × Option (Executor Unit)}
    (h : World.Recorded session ctx (KeepsContent commands) assumed x) :
    Relation.ReflTransGen (Ledger.Next (MustCommit commands) (MustCommit commands)) Ledger.empty
      (ledgerOf session x.1) := by
  have hempty : ledgerOf session (fresh, []) = Ledger.empty := rfl
  rw [← hempty]
  exact ledger_goesOn (fun _ _ _ => givesResults_of_sameContent) (x := ((fresh, []), none))
    Relation.ReflTransGen.refl h

omit [Runtime] [BinanceSdk] in
theorem history_refines_ledger_sample :
    ∃ x p, @World.Recorded Sample.runtime Sample.sdk Sample.session defaultContext
        (KeepsContent fun _ => Sample.command Sample.payload) (fun _ _ _ _ => True) (x, p) ∧
      lastAcknowledges Sample.session "command-1" x.2 = true ∧
      Relation.ReflTransGen (Ledger.Next (MustCommit fun _ => Sample.command Sample.payload)
        (MustCommit fun _ => Sample.command Sample.payload)) Ledger.empty
        (ledgerOf Sample.session x) := by
  obtain ⟨x, y, p, cached, hx, _, _, _, hlast, _⟩ := Sample.acknowledgedTwice
  exact ⟨x, none, hx, hlast, @history_refines_ledger Sample.runtime Sample.sdk _ _ _ _ _ hx⟩

/--
**What is on disk is final.**  Once the file holds a result for a command, every later
request that records one for it carries that result, whatever is leased, however often the
executor is killed and restarted, and no broker is asked in any later turn for the command.
-/
theorem cached_result_final
    {x y : (World × Transcript Call Value PyError) × Option (Executor Unit)} {commandId : String}
    {cached : StoredExecutionResult} (hx : World.Recorded session ctx admitted assumed x)
    (hxy : GoesOn session ctx admitted assumed x y)
    (hcached : ExecutionStore.get x.1.1.executions commandId = .ok (some cached)) :
    (∃ later, y.1.2 = x.1.2 ++ later ∧ ∀ leaseId status resultPayload r,
      (recordCall session commandId leaseId status resultPayload, r) ∈ later →
        status = cached.status ∧ resultPayload = cached.resultPayload) ∧
    ∀ c k, y.2 = some (call c k) → IsBrokerCall c → y.1.1.turn ≠ commandId := by
  have hcommitted := committedIn_of_get hcached
  have hany : ∀ s leaseResponse inputs, admitted s leaseResponse inputs →
      GivesResults (fun _ _ => True) (fun _ _ => False) leaseResponse :=
    fun _ leaseResponse _ _ => givesResults_any leaseResponse
  have hrun := ledger_goesOn hany hx hxy
  constructor
  · obtain ⟨later, hlater⟩ := Restart.transcript_extends hxy
    obtain ⟨reports, hreports, hall⟩ := Ledger.later_reports hrun hcommitted
    refine ⟨later, hlater, fun leaseId status resultPayload r hmem => ?_⟩
    have hsuffix : reports = later.filterMap fun entry => reportOf session entry.1 := by
      have heq : (ledgerOf session y.1).reports = (ledgerOf session x.1).reports
          ++ later.filterMap fun entry => reportOf session entry.1 := by
        simp only [ledgerOf, hlater, List.filterMap_append]
      exact List.append_cancel_left (hreports.symm.trans heq)
    have hreported : (commandId, status, resultPayload) ∈ reports := by
      rw [hsuffix]
      exact List.mem_filterMap.mpr ⟨_, hmem, reportOf_recordCall _ _ _ _ _⟩
    exact Prod.mk.inj (hall _ hreported)
  · rintro c k hnext hbroker rfl
    have hfinal := Ledger.committed_of_run hrun hcommitted
    obtain ⟨yx, yp⟩ := y
    obtain rfl : yp = some (call c k) := hnext
    have hkeeps := keepsLedger_of_recorded hany (hx.trans hxy)
    have hnone : committedIn yx.1.executions yx.1.turn = none := by
      cases c with
      | okx keys op => exact hkeeps.2
      | binance keys op => exact hkeeps.2
      | _ => exact hbroker.elim
    rw [show (ledgerOf session yx).committed = committedIn yx.1.executions from rfl, hnone] at hfinal
    cases hfinal

omit [Runtime] [BinanceSdk] in
theorem cached_result_final_sample :
    ∃ (cached : StoredExecutionResult) (leaseId : String) (resultPayload : Dict)
        (later : Transcript Call Value PyError) (r : Except PyError Value),
      (recordCall Sample.session "command-1" leaseId "acknowledged" resultPayload, r) ∈ later ∧
      "acknowledged" = cached.status ∧ resultPayload = cached.resultPayload := by
  obtain ⟨x, y, p, cached, hx, hxy, hcached, _, _, hlast, hlonger⟩ := Sample.acknowledgedTwice
  obtain ⟨⟨later, hlater, hall⟩, _⟩ :=
    @cached_result_final Sample.runtime Sample.sdk _ _ _ _ _ _ _ _ hx hxy hcached
  have hne : later ≠ [] := by
    rintro rfl
    rw [show y.2 = x.2 ++ [] from hlater, List.append_nil] at hlonger
    exact lt_irrefl _ hlonger
  have hsame : lastAcknowledges Sample.session "command-1" later = true := by
    rw [← hlast, show y.2 = x.2 ++ later from hlater, lastAcknowledges, lastAcknowledges,
      List.getLast?_append_of_ne_nil _ hne]
  obtain ⟨leaseId, resultPayload, r, hmem⟩ := lastAcknowledges_spec hsame
  exact ⟨cached, leaseId, resultPayload, later, r, hmem, hall _ _ _ _ hmem⟩

/--
**What was acknowledged is on disk.**  Every acknowledgement of a command whose mode is
exactly `real` that was ever recorded, or was tried to be, is the result the file holds for
the command at every later time at which it can be read; any two of them are the same; and
once the file cannot be read, nothing more is asked of anybody.
-/
theorem acknowledgement_on_disk
    {x : (World × Transcript Call Value PyError) × Option (Executor Unit)}
    {commandId leaseId : String} {resultPayload : Dict} {r : Except PyError Value}
    (h : World.Recorded session ctx (KeepsContent commands) assumed x)
    (hreal : ((commands commandId).get "executionMode").isText "real" = true)
    (hmem : (recordCall session commandId leaseId "acknowledged" resultPayload, r) ∈ x.1.2) :
    (x.1.1.torn = false →
      committedIn x.1.1.executions commandId = some ("acknowledged", resultPayload)) ∧
    (∀ leaseId' resultPayload' r',
      (recordCall session commandId leaseId' "acknowledged" resultPayload', r') ∈ x.1.2 →
        resultPayload' = resultPayload) ∧
    (x.1.1.torn = true → ∀ y, GoesOn session ctx (KeepsContent commands) assumed x y →
      y.1.1.torn = true ∧
        ∃ later, y.1.2 = x.1.2 ++ later ∧ ∀ entry ∈ later, entry.1 = .readExecutions) := by
  have hempty : ledgerOf session (fresh, []) = Ledger.empty := rfl
  have hrun : Relation.ReflTransGen (Ledger.Next (MustCommit commands) (MustCommit commands))
      Ledger.empty (ledgerOf session x.1) := by
    rw [← hempty]
    exact ledger_goesOn (fun _ _ _ => givesResults_of_sameContent) (x := ((fresh, []), none))
      Relation.ReflTransGen.refl h
  have hmust (payload : Dict) : MustCommit commands commandId ("acknowledged", payload) := by
    rw [MustCommit, isKept, hreal]
    rfl
  have hreported {leaseId : String} {payload : Dict} {r : Except PyError Value}
      (hmem : (recordCall session commandId leaseId "acknowledged" payload, r) ∈ x.1.2) :
      (commandId, ("acknowledged", payload)) ∈ (ledgerOf session x.1).reports :=
    List.mem_filterMap.mpr ⟨_, hmem, reportOf_recordCall _ _ _ _ _⟩
  refine ⟨fun _ => ?_, fun leaseId' payload' r' hmem' => ?_, fun htorn y hxy => ?_⟩
  · exact (Ledger.sound_of_run hrun).reported _ _ (hreported hmem) (hmust _)
  · exact (Prod.mk.inj (Ledger.reports_agree hrun (hreported hmem') (hreported hmem) (hmust _)
      (hmust _))).2
  · exact torn_stops h hxy htorn

omit [Runtime] [BinanceSdk] in
theorem acknowledgement_on_disk_sample :
    ∃ x p resultPayload, @World.Recorded Sample.runtime Sample.sdk Sample.session defaultContext
        (KeepsContent fun _ => Sample.command Sample.payload) (fun _ _ _ _ => True) (x, p) ∧
      x.1.torn = false ∧
      committedIn x.1.executions "command-1" = some ("acknowledged", resultPayload) := by
  obtain ⟨x, y, p, cached, hx, _, _, htorn, hlast, _⟩ := Sample.acknowledgedTwice
  obtain ⟨leaseId, resultPayload, r, hmem⟩ := lastAcknowledges_spec hlast
  exact ⟨x, none, resultPayload, hx, htorn, (@acknowledgement_on_disk Sample.runtime Sample.sdk _ _
    _ _ _ _ _ _ _ hx (by decide) hmem).1 htorn⟩

end Histories

end YtmExecutor
