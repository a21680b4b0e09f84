/-
Which fills a snapshot reports.

An account lives on while the reconciliation loop takes its turns: `Event` interleaves
its fills with the turns, and `IsRun` says that every turn is a run of the code in which
OKX lists the most recent fills.  A capture asks for one page of them.  So the fills
since the capture before are all reported exactly when they fit on the page
(`fills_between_captures`); of more, the oldest are in no snapshot.
-/
import YtmExecutor.ReconciliationLoop
import YtmExecutor.RiskFile
import YtmExecutor.Snapshots

namespace YtmExecutor

open Python Decimal Interaction Prog

namespace Reconciliation

/-! ### What a capture reads -/

section Capture

variable [Runtime] {C : Type} {api : OkxRead → Prog C Value PyError Value} {Q : C → Prop}

theorem okxData_callsOnly {read : OkxRead} {endpoint : String} (h : CallsOnly Q (api read)) :
    CallsOnly Q (okxData api read endpoint) :=
  h.bind fun _ => CallsOnly.ofExcept _

theorem optionalOkxResponseData_callsOnly {read : OkxRead} {endpoint : String}
    (h : CallsOnly Q (api read)) : CallsOnly Q (optionalOkxResponseData api read endpoint) := by
  refine CallsOnly.handle ((okxData_callsOnly h).bind fun _ => CallsOnly.ofExcept (.ok _)) ?_
  intro e q hq
  cases hq
  exact CallsOnly.ofExcept (.ok _)

theorem captureAlgoOrders_callsOnly (h : ∀ read, CallsOnly Q (api read)) (types : List String) :
    CallsOnly Q (captureAlgoOrders api types) := by
  induction types with
  | nil => exact CallsOnly.ofExcept (.ok _)
  | cons ordType rest ih =>
      refine (optionalOkxResponseData_callsOnly (h _)).bind fun _ => ?_
      refine (optionalOkxResponseData_callsOnly (h _)).bind fun _ => ?_
      exact ih.bind fun _ => CallsOnly.ofExcept (.ok _)

/-- A capture makes the calls of its API and no other. -/
theorem captureRecords_callsOnly (h : ∀ read, CallsOnly Q (api read)) :
    CallsOnly Q (captureRecords api) := by
  refine (okxData_callsOnly (h _)).bind fun _ => ?_
  refine (okxData_callsOnly (h _)).bind fun _ => ?_
  refine (okxData_callsOnly (h _)).bind fun _ => ?_
  refine (okxData_callsOnly (h _)).bind fun _ => ?_
  refine (captureAlgoOrders_callsOnly h _).bind fun _ => ?_
  exact (okxData_callsOnly (h _)).bind fun _ => CallsOnly.ofExcept (.ok _)

/-- The fills of a capture are those of the one page it asks for. -/
theorem fills_of_captureRecords {call : OkxRead → C} {t : Transcript C Value PyError}
    {records : OkxRecords}
    (h : Run (captureRecords fun read => perform (call read)) t (.ok records)) :
    ∃ reply, (call (.getFillsHistory "SWAP" "100"), .ok reply) ∈ t ∧
      okxResponseData reply "fills_history" = .ok records.fills := by
  obtain ⟨_, _, _, rfl, _, h⟩ := run_bind_ok.mp h
  obtain ⟨_, _, _, rfl, _, h⟩ := run_bind_ok.mp h
  obtain ⟨_, _, _, rfl, _, h⟩ := run_bind_ok.mp h
  obtain ⟨_, _, _, rfl, _, h⟩ := run_bind_ok.mp h
  obtain ⟨_, _, _, rfl, _, h⟩ := run_bind_ok.mp h
  obtain ⟨tfills, _, fills, rfl, hfills, h⟩ := run_bind_ok.mp h
  obtain ⟨_, h⟩ := run_ofExcept.mp (show Run (ofExcept (.ok _)) _ _ from h)
  cases h
  obtain ⟨_, _, reply, rfl, hreply, hread⟩ := run_bind_ok.mp hfills
  rw [run_perform.mp hreply]
  exact ⟨reply, by simp, (run_ofExcept.mp hread).2.symm⟩

end Capture

/-! ### What a turn uploads -/

section Upload

variable [Runtime] {ctx : Context} {client : YtmClient} {accessToken : String}
variable {inputs : LoopInputs} {t : Transcript LoopCall Value PyError} {r : Value}

/-- The snapshot is uploaded with status `ok`, and YTM takes it. -/
def Uploads (t : Transcript LoopCall Value PyError) (snapshot : Dict) : Prop :=
  ∃ url payload token reply, (.ytm (.ytm url (.dict payload) token), .ok reply) ∈ t ∧
    Dict.get payload "status" = .str "ok" ∧ Dict.get payload "payload" = .dict snapshot

/-- A request that is answered is the only call of its posting. -/
theorem run_post {path : String} {payload : Dict} {token : Option String}
    {t : Transcript Call Value PyError} (h : Run (client.post path payload token) t (.ok r)) :
    ∃ url, t = [(.ytm url (.dict payload) token, .ok r)] := by
  obtain ⟨_, _, h⟩ := run_ofExcept_bind_ok.mp h
  obtain ⟨host?, _, h⟩ := run_ofExcept_bind_ok.mp h
  cases host? with
  | none => cases h.2
  | some host =>
      dsimp only at h
      split at h
      · exact ⟨_, run_perform.mp h⟩
      · cases h.2

/-- A turn that succeeds finds its keys, captures, keeps the risk state and uploads. -/
theorem run_turn_ok :
    Run (captureAndUploadOkxReconciliation ctx client accessToken inputs) t (.ok r) ↔
      ∃ secret, inputs.secrets.get "okx" inputs.name = .ok secret ∧
        ∃ keys, okxKeysOf secret = .ok keys ∧
          ∃ tcapture tupload snapshot, t = tcapture ++ tupload ∧
            Run (captureSnapshot (fun read => perform (.okx keys read)) inputs.capturedAt) tcapture
              (.ok snapshot) ∧
            ∃ trisk tpost written, tupload = trisk ++ tpost ∧
              Run (updateRiskStateFile ctx inputs.riskStateFile snapshot inputs.updatedAt) trisk
                (.ok written) ∧
              Run (mapCalls .ytm (client.recordReconciliationSnapshot accessToken "full" "ok"
                snapshot inputs.executionMode none)) tpost (.ok r) := by
  simp only [captureAndUploadOkxReconciliation, lift_eq, run_ofExcept_bind_ok]
  simp only [run_bind_ok]

/-- A turn that succeeds captures records, and uploads the snapshot of these and no other. -/
theorem uploads_of_run
    (h : Run (captureAndUploadOkxReconciliation ctx client accessToken inputs) t (.ok r)) :
    ∃ keys tread records snapshot, (∀ x ∈ tread, x ∈ t) ∧
      Run (captureRecords fun read => perform (.okx keys read)) tread (.ok records) ∧
      snapshotOf records inputs.capturedAt = .ok snapshot ∧
      ∀ uploaded, Uploads t uploaded ↔ uploaded = snapshot := by
  obtain ⟨_, _, keys, _, tcapture, _, snapshot, rfl, hcapture, trisk, tpost, _, rfl, hrisk,
    hupload⟩ := run_turn_ok.mp h
  obtain ⟨tread, tmade, records, rfl, hrecords, hsnapshot⟩ := run_bind_ok.mp hcapture
  obtain ⟨rfl, hmade⟩ := run_ofExcept.mp hsnapshot
  obtain ⟨tytm, rfl, hpost⟩ := run_mapCalls.mp hupload
  obtain ⟨url, rfl⟩ := run_post hpost
  have hreads : ∀ x ∈ tread, ∃ keys read, x.1 = .okx keys read := by
    refine CallsOnly.run (Q := fun c => ∃ keys read, c = .okx keys read) ?_ hrecords
    exact captureRecords_callsOnly fun read => CallsOnly.perform ⟨keys, read, rfl⟩
  have hwrites : ∀ x ∈ trisk, ∃ content, x.1 = .writeRiskState content := by
    refine CallsOnly.run (Q := fun c => ∃ content, c = .writeRiskState content) ?_ hrisk
    unfold updateRiskStateFile
    split
    · exact CallsOnly.ofExcept (.ok _)
    · exact (CallsOnly.ofExcept _).bind fun next =>
        (CallsOnly.perform ⟨_, rfl⟩).bind fun _ => CallsOnly.ofExcept (.ok _)
  refine ⟨keys, tread, records, snapshot, fun x hx => by simp [hx], hrecords, hmade.symm, ?_⟩
  intro uploaded
  constructor
  · rintro ⟨url', payload, token, reply, hmem, _, hpayload⟩
    simp only [List.append_nil, List.map_cons, List.map_nil, List.mem_append,
      List.mem_singleton] at hmem
    rcases hmem with hmem | hmem | hmem
    · obtain ⟨_, _, hcall⟩ := hreads _ hmem
      cases hcall
    · obtain ⟨_, hcall⟩ := hwrites _ hmem
      cases hcall
    · cases hmem
      cases hpayload
      rfl
  · rintro rfl
    exact ⟨url, _, _, r, List.mem_append_right _ (List.mem_append_right _ List.mem_cons_self),
      rfl, rfl⟩

end Upload

/-! ### Runs -/

/-- A SWAP fill on the account, or a turn of the loop. -/
inductive Event where
  | fill (item : Dict)
  | turn (inputs : LoopInputs) (t : Transcript LoopCall Value PyError) (out : Except PyError Value)

def Event.fill? : Event → Option Dict
  | .fill item => some item
  | .turn _ _ _ => none

/-- The fills of these events, oldest first. -/
def fillsOf (events : List Event) : List Dict := events.filterMap Event.fill?

@[simp] theorem fillsOf_fill (item : Dict) (rest : List Event) :
    fillsOf (.fill item :: rest) = item :: fillsOf rest := rfl

@[simp] theorem fillsOf_turn (inputs : LoopInputs) (t : Transcript LoopCall Value PyError)
    (out : Except PyError Value) (rest : List Event) :
    fillsOf (.turn inputs t out :: rest) = fillsOf rest := rfl

/-- A capture whose snapshot was uploaded. -/
def Event.Succeeds : Event → Prop
  | .fill _ => False
  | .turn _ _ out => ∃ r, out = .ok r

/-- The number of fills on a page. -/
def pageLimit : ℕ := 100

section Account

variable [Runtime]

/-- OKX answers with the most recent fills, if it answers with fills at all. -/
def ServesRecent (history : List Dict) (t : Transcript LoopCall Value PyError) : Prop :=
  ∀ keys reply items, (.okx keys (.getFillsHistory "SWAP" "100"), .ok reply) ∈ t →
    okxResponseData reply "fills_history" = .ok items → items = history.take pageLimit

variable (ctx : Context) (client : YtmClient) (accessToken : String)

/-- A life of the account, from its history, the newest fill first. -/
def IsRun (history : List Dict) : List Event → Prop
  | [] => True
  | .fill item :: rest => IsRun (item :: history) rest
  | .turn inputs t out :: rest =>
      Run (captureAndUploadOkxReconciliation ctx client accessToken inputs) t out ∧
        ServesRecent history t ∧ IsRun history rest

def Event.inputs? : Event → Option LoopInputs
  | .fill _ => none
  | .turn inputs _ _ => some inputs

def Event.transcript : Event → Transcript LoopCall Value PyError
  | .fill _ => []
  | .turn _ t _ => t

variable {ctx client accessToken}

theorem isRun_turn {history : List Dict} {inputs : LoopInputs}
    {t : Transcript LoopCall Value PyError} {out : Except PyError Value} {rest : List Event} :
    IsRun ctx client accessToken history (.turn inputs t out :: rest) ↔
      Run (captureAndUploadOkxReconciliation ctx client accessToken inputs) t out ∧
        ServesRecent history t ∧ IsRun ctx client accessToken history rest := Iff.rfl

omit [Runtime] in
/-- A turn of the loop is over whatever came of it. -/
theorem guarded_of_run {turn : LoopTurn Value} {t : Transcript LoopCall Value PyError}
    {out : Except PyError Value} (h : Run turn t out) :
    Run (guardedTurn turn) t (.ok ()) := by
  refine (run_handle _).mpr ?_
  cases out with
  | ok r =>
      refine Or.inl ⟨run_bind_ok.mpr ⟨t, [], r, by simp, h, rfl, rfl⟩, ?_⟩
      intro e he
      cases he
  | error e =>
      refine Or.inr ⟨t, [], e, .done (), by simp, ?_, rfl, rfl, rfl⟩
      exact (run_bind _).mpr (Or.inr ⟨e, rfl, h⟩)

/-- The turns of such a life are a run of the loop. -/
theorem IsRun.loop {history : List Dict} {events : List Event}
    (h : IsRun ctx client accessToken history events) :
    Run (okxReconciliationLoop ctx client accessToken (events.filterMap Event.inputs?))
      (events.flatMap Event.transcript) (.ok ()) := by
  induction events generalizing history with
  | nil => exact ⟨rfl, rfl⟩
  | cons event rest ih =>
      cases event with
      | fill item => exact ih h
      | turn inputs t out =>
          have hturn := (isRun_turn.mp h).1
          have hrest := (isRun_turn.mp h).2.2
          rw [List.filterMap_cons_some (f := Event.inputs?) rfl, List.flatMap_cons,
            okxReconciliationLoop]
          exact run_bind_ok.mpr ⟨t, _, (), rfl, guarded_of_run hturn, ih hrest⟩

theorem isRun_append {history : List Dict} {events rest : List Event} :
    IsRun ctx client accessToken history (events ++ rest) ↔
      IsRun ctx client accessToken history events ∧
        IsRun ctx client accessToken ((fillsOf events).reverse ++ history) rest := by
  induction events generalizing history with
  | nil => exact (and_iff_right trivial).symm
  | cons event events ih =>
      cases event with
      | fill item =>
          rw [List.cons_append, IsRun, ih, IsRun, fillsOf_fill, List.reverse_cons, List.append_assoc,
            List.singleton_append]
      | turn inputs t out =>
          rw [List.cons_append, IsRun, ih, IsRun, fillsOf_turn, and_assoc, and_assoc]

/-! ### Captures -/

/-- Two captures that succeed, with these events and no such capture in between; the later one
has this transcript. -/
def BetweenCaptures (events between : List Event) (t : Transcript LoopCall Value PyError) : Prop :=
  ∃ before inputs t' r inputs' r' after,
    events = before ++ .turn inputs t' (.ok r) :: (between ++ .turn inputs' t (.ok r') :: after) ∧
      ∀ event ∈ between, ¬event.Succeeds

/-- Each of the fills has its own entry in the snapshot that is uploaded. -/
def Reports (t : Transcript LoopCall Value PyError) (fills : List Dict) : Prop :=
  ∃ snapshot closeSources, Uploads t snapshot ∧
    (fills.map (fillEntry closeSources)).Subperm (entriesOf snapshot "fills")

/-- The snapshot of a capture reports the most recent fills, and no more than fit on a page. -/
theorem reports_iff {history fills : List Dict} {inputs : LoopInputs}
    {t : Transcript LoopCall Value PyError} {r : Value}
    (hrun : Run (captureAndUploadOkxReconciliation ctx client accessToken inputs) t (.ok r))
    (hserves : ServesRecent history t) :
    (fills.Subperm (history.take pageLimit) → Reports t fills) ∧
      (Reports t fills → fills.length ≤ pageLimit) := by
  obtain ⟨keys, tread, records, snapshot, hread, hrecords, hmade, huploads⟩ := uploads_of_run hrun
  obtain ⟨reply, hreply, hfills⟩ := fills_of_captureRecords hrecords
  have hpage : records.fills = history.take pageLimit :=
    hserves keys reply _ (hread _ hreply) hfills
  have hlist := (lists_of_snapshotOf hmade).fills
  constructor
  · intro h
    refine ⟨snapshot, records.closeSources, (huploads _).mpr rfl, ?_⟩
    obtain ⟨listed, hperm, hsub⟩ := h
    rw [hlist.subperm_left, hpage]
    exact ⟨listed.map _, hperm.map _, hsub.map _⟩
  · rintro ⟨uploaded, closeSources, huploaded, hsub⟩
    rw [(huploads _).mp huploaded] at hsub
    have hlength := hsub.length_le
    rw [hlist.length_eq, List.length_map, List.length_map, hpage, List.length_take] at hlength
    omega

/-- **A snapshot reports the most recent fills since the capture before it**, and reports all of
them exactly when they fit on a page. -/
theorem fills_between_captures {history : List Dict} {events between : List Event}
    {t : Transcript LoopCall Value PyError} (hrun : IsRun ctx client accessToken history events)
    (hbetween : BetweenCaptures events between t) :
    Reports t ((fillsOf between).reverse.take pageLimit) ∧
      (Reports t (fillsOf between) ↔ (fillsOf between).length ≤ pageLimit) := by
  obtain ⟨before, inputs, t', r, inputs', r', after, rfl, _⟩ := hbetween
  have hlater := (isRun_turn.mp (isRun_append.mp hrun).2).2.2
  have hturn := (isRun_turn.mp (isRun_append.mp hlater).2).1
  have hserves := (isRun_turn.mp (isRun_append.mp hlater).2).2.1
  have hprefix : (fillsOf between).reverse.take pageLimit <+:
      ((fillsOf between).reverse ++ ((fillsOf before).reverse ++ history)).take pageLimit :=
    (List.prefix_append _ _).take _
  refine ⟨(reports_iff hturn hserves).1 hprefix.sublist.subperm,
    (reports_iff hturn hserves).2, fun hlength => (reports_iff hturn hserves).1 ?_⟩
  have hall : (fillsOf between).reverse.take pageLimit = (fillsOf between).reverse :=
    List.take_of_length_le (by rwa [List.length_reverse])
  rw [hall] at hprefix
  exact (List.reverse_perm _).symm.subperm.trans hprefix.sublist.subperm

end Account

/-! ### One account -/

namespace LoopSample

@[reducible] def runtime : Runtime := asciiRuntime []

def client : YtmClient := ⟨"https://ytm.example.test", ["ytm.example.test"]⟩

def inputs : LoopInputs where
  secrets := ⟨some (.list [.dict [("name", "main"), ("provider", "okx")]]), fun _ =>
    .ok [("apiKey", "key"), ("apiSecret", "secret"), ("passphrase", "phrase")]⟩
  name := "main"
  executionMode := none
  riskStateFile := some none
  capturedAt := 1778407200000000
  updatedAt := 1778407200000000

def reply (items : List Dict) : Value := .dict [("code", "0"), ("data", .list (items.map .dict))]

theorem eq_of_okxResponseData_reply {items found : List Dict} {endpoint : String}
    (h : @okxResponseData runtime (reply items) endpoint = .ok found) : found = items := by
  have hdicts : dictItems (items.map .dict) = some items := by
    clear h
    induction items with
    | nil => rfl
    | cons item rest ih => rw [List.map_cons, dictItems, ih, Option.map_some]
  obtain ⟨_, _, h⟩ := bind_eq_ok.mp h
  dsimp only at h
  split at h
  · rename_i read hread
    obtain ⟨_, _, h⟩ := bind_eq_ok.mp h
    cases h
    exact Option.some.inj (hread.symm.trans hdicts)
  · cases h

/-- An account that has fills and nothing else. -/
def world (history : List Dict) : LoopCall → Except PyError Value
  | .okx _ (.getFillsHistory _ _) => .ok (reply (history.take pageLimit))
  | .okx _ _ => .ok (reply [])
  | _ => .ok (.dict [])

def fill (n : ℕ) : Dict :=
  [("billId", .str (toString (999 - n))), ("instId", "BTC-USDT-SWAP")]

def turn : LoopTurn Value :=
  @captureAndUploadOkxReconciliation runtime defaultContext client "token" inputs

def keys : OkxKeys := ⟨"key", "secret", "phrase"⟩

/-- The snapshot of an account without balances leaves the risk state as it is. -/
theorem exists_riskState {snapshot : Dict} (h : snapshot.get "balances" = .list []) :
    let _ : Runtime := runtime
    ∃ next, updateRiskStateFromReconciliationSnapshot defaultContext none snapshot
      inputs.updatedAt = .ok next := by
  let _ : Runtime := runtime
  have hequity : snapshotUsdEquity snapshot = .ok none := by
    rw [snapshotUsdEquity, usdRowValues, h]
    rfl
  obtain ⟨content, hcontent, _⟩ := exists_ok (nextRiskState defaultContext emptyRiskState
    (utcDate inputs.updatedAt) none >>= fun state => writeRiskState defaultContext state)
    (fun _ => true) (by decide +kernel)
  obtain ⟨state, hstate, hwritten⟩ := bind_eq_ok.mp hcontent
  exact ⟨(state, content),
    update_eq_ok.mpr ⟨emptyRiskState, none, rfl, hequity, hstate, hwritten⟩⟩

def url : String := rstripChar '/' client.serverUrl ++ "/api/executor/reconciliation/snapshots"

/-- YTM takes every snapshot the guard lets pass. -/
theorem run_upload {snapshot : Dict} (h : isPublic (.dict snapshot) = true) :
    Run (@YtmClient.recordReconciliationSnapshot runtime client "token" "full" "ok" snapshot
      none none) [(.ytm url (.dict [("payload", .dict snapshot), ("snapshotType", "full"),
        ("status", "ok")]) (some "token"), .ok (.dict []))] (.ok (.dict [])) := by
  let _ : Runtime := runtime
  have hkeys : ∀ key ∈ ["payload", "snapshotType", "status"], isPublicKey (.str key) = true := by
    decide +kernel
  simp only [List.forall_mem_cons] at hkeys
  have hpublic : isPublic (.dict [("payload", .dict snapshot), ("snapshotType", "full"),
      ("status", "ok")]) = true := by
    rw [isPublic, isPublicEntries, hkeys.1, h, isPublicEntries, hkeys.2.1, isPublicEntries,
      hkeys.2.2.1]
    rfl
  have hhost : Runtime.urlHostname url = .ok (some "ytm.example.test") := by decide +kernel
  refine run_ofExcept_bind_ok.mpr ⟨(), rejectSecretFields_of_isPublic hpublic,
    run_ofExcept_bind_ok.mpr ⟨_, hhost, ?_⟩⟩
  dsimp only
  rw [if_pos (by decide)]
  exact run_perform.mpr rfl

/-- A turn of this account succeeds if the page of fills can be read. -/
theorem exists_turn (history : List Dict)
    (h : let _ : Runtime := runtime
      ((runIn (world history) (captureRecords fun read => perform (.okx keys read))).2.toOption.any
        fun records => records.balances.isEmpty) = true) :
    ∃ t, Run turn t (.ok (.dict [])) ∧ @ServesRecent runtime history t := by
  let _ : Runtime := runtime
  obtain ⟨tread, out, hrun, hanswers, hcheck⟩ := exists_run_in (world history)
    (captureRecords fun read => perform (.okx keys read))
    (fun _ out => out.toOption.any fun records => records.balances.isEmpty) h
  obtain ⟨records, rfl, hempty⟩ := exists_ok _ _ hcheck
  obtain ⟨snapshot, hsnapshot, hpublic⟩ := exists_snapshot records inputs.capturedAt
  obtain ⟨balances, hbalances, hkey⟩ := get_balances hsnapshot
  rw [List.isEmpty_iff.mp hempty] at hbalances
  cases hbalances
  obtain ⟨next, hnext⟩ := exists_riskState hkey
  have hsecret : (inputs.secrets.get "okx" inputs.name >>= okxKeysOf) = .ok keys := by
    obtain ⟨⟨key, secret, phrase⟩, hfound, hcheck⟩ := exists_ok
      (inputs.secrets.get "okx" inputs.name >>= okxKeysOf)
      (fun keys => decide (keys.apiKey = "key" ∧ keys.apiSecret = "secret" ∧
        keys.passphrase = "phrase")) (by decide +kernel)
    obtain ⟨rfl, rfl, rfl⟩ := of_decide_eq_true hcheck
    exact hfound
  obtain ⟨secret, hfound, hkeys⟩ := bind_eq_ok.mp hsecret
  have hmade : Run (liftM (snapshotOf records inputs.capturedAt) : LoopTurn Dict) []
      (.ok snapshot) := run_ofExcept.mpr ⟨rfl, hsnapshot.symm⟩
  have hcapture : Run (captureSnapshot (fun read => perform (LoopCall.okx keys read))
      inputs.capturedAt) (tread ++ []) (.ok snapshot) :=
    run_bind_ok.mpr ⟨_, [], records, rfl, hrun, hmade⟩
  have hrisk : Run (updateRiskStateFile defaultContext inputs.riskStateFile snapshot
      inputs.updatedAt) [(.writeRiskState next.2, .ok (.dict []))] (.ok ()) :=
    run_ofExcept_bind_ok.mpr ⟨next, hnext, run_bind_ok.mpr ⟨_, [], _, rfl, run_perform.mpr rfl,
      rfl, rfl⟩⟩
  refine ⟨tread ++ [] ++ ([(.writeRiskState next.2, .ok (.dict []))] ++
    [(.ytm url (.dict [("payload", .dict snapshot), ("snapshotType", "full"), ("status", "ok")])
      (some "token"), .ok (.dict []))].map fun x => (LoopCall.ytm x.1, x.2)), ?_, ?_⟩
  · exact run_turn_ok.mpr ⟨secret, hfound, keys, hkeys, _, _, snapshot, rfl, hcapture, _, _, (),
      rfl, hrisk, run_mapCalls.mpr ⟨_, rfl, run_upload hpublic⟩⟩
  · intro keys' answer items hmem hread
    simp only [List.append_nil, List.map_cons, List.map_nil, List.mem_append,
      List.mem_singleton] at hmem
    rcases hmem with hmem | hmem | hmem
    · have hanswer := hanswers _ hmem
      cases hanswer
      exact eq_of_okxResponseData_reply hread
    · cases hmem
    · cases hmem

/-- The account's next fills. -/
def fills (n : ℕ) : List Event := (List.range n).map fun k => .fill (fill k)

theorem fillsOf_fills (n : ℕ) : fillsOf (fills n) = (List.range n).map fill := by
  rw [fills, fillsOf, List.filterMap_map]
  exact congrFun (List.filterMap_eq_map' (f := fill)) (List.range n)

/-- A capture, this many fills, and a capture. -/
theorem exists_life (n : ℕ)
    (h : let _ : Runtime := runtime
      ((runIn (world ((List.range n).map fill).reverse)
        (captureRecords fun read => perform (.okx keys read))).2.toOption.any
          fun records => records.balances.isEmpty) = true) :
    ∃ events t, @IsRun runtime defaultContext client "token" [] events ∧
      BetweenCaptures events (fills n) t := by
  let _ : Runtime := runtime
  obtain ⟨t, hturn, hserves⟩ := exists_turn _ h
  obtain ⟨t', hturn', hserves'⟩ := exists_turn [] (by decide +kernel)
  refine ⟨[] ++ .turn inputs t' (.ok (.dict [])) :: (fills n ++ [.turn inputs t (.ok (.dict []))]),
    t, ?_, [], inputs, t', _, inputs, _, [], rfl, ?_⟩
  · refine isRun_turn.mpr ⟨hturn', hserves', isRun_append.mpr ⟨?_, isRun_turn.mpr ⟨hturn, ?_, ?_⟩⟩⟩
    · have hfills : ∀ (ns : List ℕ) (history : List Dict),
          IsRun defaultContext client "token" history (ns.map fun k => .fill (fill k)) := by
        intro ns
        induction ns with
        | nil => exact fun _ => trivial
        | cons k rest ih => exact fun history => ih (fill k :: history)
      exact hfills _ _
    · rw [fillsOf_fills, List.append_nil]
      exact hserves
    · trivial
  · intro event hevent
    obtain ⟨k, _, rfl⟩ := List.mem_map.mp hevent
    exact id

end LoopSample

theorem fills_between_captures_sample : ∃ events between t,
    @IsRun LoopSample.runtime defaultContext LoopSample.client "token" [] events ∧
      BetweenCaptures events between t ∧ (fillsOf between).length = 2 ∧
      @Reports LoopSample.runtime t (fillsOf between) := by
  let _ : Runtime := LoopSample.runtime
  obtain ⟨events, t, hrun, hbetween⟩ := LoopSample.exists_life 2 (by decide +kernel)
  have hlength : (fillsOf (LoopSample.fills 2)).length = 2 := by
    rw [LoopSample.fillsOf_fills, List.length_map, List.length_range]
  exact ⟨events, _, t, hrun, hbetween, hlength,
    (fills_between_captures hrun hbetween).2.mpr (by rw [hlength]; decide)⟩

/-- Of 101 fills between two captures, one is in no snapshot. -/
theorem fill_beyond_page_lost : ∃ events between t,
    @IsRun LoopSample.runtime defaultContext LoopSample.client "token" [] events ∧
      BetweenCaptures events between t ∧ (fillsOf between).length = 101 ∧
      ¬@Reports LoopSample.runtime t (fillsOf between) := by
  let _ : Runtime := LoopSample.runtime
  obtain ⟨events, t, hrun, hbetween⟩ := LoopSample.exists_life 101 (by decide +kernel)
  have hlength : (fillsOf (LoopSample.fills 101)).length = 101 := by
    rw [LoopSample.fillsOf_fills, List.length_map, List.length_range]
  refine ⟨events, _, t, hrun, hbetween, hlength, fun hreports => ?_⟩
  have hfits := (fills_between_captures hrun hbetween).2.mp hreports
  rw [hlength] at hfits
  exact absurd hfits (by decide)

end Reconciliation

end YtmExecutor
