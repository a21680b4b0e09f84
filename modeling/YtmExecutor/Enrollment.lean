/-
Enrollment.

`enroll` asks the server an operator names for an access token, and keeps the token, the
server and its host in a file.  The other commands read that file once, when they start,
and send the token with every request they make.  An operator may enroll again, at another
server, while an executor is running, and an enrollment may be killed while it writes.

The file is a register whose value is what the last enrollment has made of it, and half a
text cannot be read.  So a token is never taken for one of another server: whatever a
command sends is for the host the enrollment was sent to that its token came from
(`token_to_issuer`).  Both are the hosts of the URLs that are asked for; where a server
answers by sending the transport elsewhere, the answer may be another's.
-/
import YtmExecutor.Answers
import YtmExecutor.Egress
import YtmExecutor.FillsHistory
import YtmExecutor.JsonFile
import YtmExecutor.ResultLedger
import YtmExecutor.RiskThreads

namespace YtmExecutor

open Python Decimal Interaction Prog Relation

/-- What `urlparse` finds in a URL beside its host, the scheme and the network location. -/
class UrlSplit where
  urlSplit : String → Except PyError (String × String)

structure ExecutorState where
  serverUrl : String
  accessToken : String
  executorId : String
  allowedHosts : List String
  deriving DecidableEq

/-! ### The state's file -/

section State

variable [Runtime]

def statePayload (state : ExecutorState) : Dict :=
  [("accessToken", state.accessToken), ("allowedHosts", .list (state.allowedHosts.map .str)),
    ("executorId", state.executorId), ("serverUrl", state.serverUrl)]

def textItem : Value → Option String
  | .str text => some text
  | _ => none

def readAllowedHosts (payload : Dict) : Except PyError (List String) :=
  match payload.get "allowedHosts" with
  | .list items =>
      match items.mapM textItem with
      | some hosts => .ok hosts
      | none => .error (.valueError "executor state allowedHosts is invalid")
  | _ => .error (.valueError "executor state allowedHosts is invalid")

def readState : Value → Except PyError ExecutorState
  | .dict payload => do
      let allowedHosts ← readAllowedHosts payload
      let accessToken ← expectText payload "accessToken"
      let executorId ← expectText payload "executorId"
      let serverUrl ← expectText payload "serverUrl"
      return ⟨rstripChar '/' serverUrl, accessToken, executorId, allowedHosts⟩
  | _ => .error (.valueError "executor state must be a JSON object")

/-! ### Enrolling -/

variable [UrlSplit]

def normalizedServerUrl (value : String) : Except PyError String := do
  let parsed ← UrlSplit.urlSplit value
  raiseIf (parsed.1 ∉ ["http", "https"] ∨ parsed.2 = "") "server URL must be http(s)"
  return rstripChar '/' value

omit [UrlSplit] in
def requiredHost (serverUrl : String) : Except PyError String := do
  let host := (← Runtime.urlHostname serverUrl).getD ""
  raiseIf (host = "") "server URL host is required"
  return host

structure EnrollArgs where
  serverUrl : String
  enrollmentToken : String

/-- `enroll`, up to the state it writes. -/
def enroll (clientVersion : String) (args : EnrollArgs) : Executor ExecutorState := do
  let serverUrl ← normalizedServerUrl args.serverUrl
  let host ← requiredHost serverUrl
  let client : YtmClient := ⟨serverUrl, [host]⟩
  match ← client.enroll args.enrollmentToken clientVersion
      [("leases", .bool true), ("zeroSecret", .bool true)] [("ytmApi", host)] with
  | .dict response => do
      let executor ← expectObject response "executor"
      let accessToken ← expectText response "accessToken"
      let executorId ← expectText executor "id"
      return ⟨serverUrl, accessToken, executorId, [host]⟩
  | _ => Prog.raise (.other "RuntimeError" "YTM returned non-object JSON")

/-- An enrollment that came to a state. -/
structure Enrollment where
  clientVersion : String
  args : EnrollArgs
  transcript : Transcript Call Value PyError
  state : ExecutorState
  returns : Returns (enroll clientVersion args) transcript state

/-- The one request of an enrollment was sent to this host, and the token is in the answer. -/
structure IssuedBy (e : Enrollment) (host accessToken : String) : Prop where
  exchange : ∃ (url : String) (payload : Value) (response : Dict),
    Runtime.urlHostname url = .ok (some host) ∧
    e.transcript = [(.ytm url payload none, .ok (.dict response))] ∧
    response.get "accessToken" = .str accessToken

omit [UrlSplit] in
/-- A request that was answered went to one of the allowed hosts. -/
theorem run_post_ok {client : YtmClient} {path : String} {payload : Dict} {token : Option String}
    {t : Transcript Call Value PyError} {v : Value}
    (h : Run (client.post path payload token) t (.ok v)) :
    HostAllowed client (client.url path) ∧
      t = [(.ytm (client.url path) (.dict payload) token, .ok v)] := by
  obtain ⟨_, _, h⟩ := run_ofExcept_bind_ok.mp h
  obtain ⟨host?, hhost, h⟩ := run_ofExcept_bind_ok.mp h
  cases host? with
  | none => cases h.2
  | some host =>
      dsimp only at h
      split at h
      · rename_i hmem
        exact ⟨⟨host, hmem, hhost⟩, run_perform.mp h⟩
      · cases h.2

/-- An enrollment that comes to a state has made one request, and the state is what the
answer says. -/
theorem run_enroll_ok {clientVersion : String} {args : EnrollArgs} {state : ExecutorState}
    {t : Transcript Call Value PyError} (h : Run (enroll clientVersion args) t (.ok state)) :
    ∃ (host url : String) (payload : Value) (response executor : Dict),
      normalizedServerUrl args.serverUrl = .ok state.serverUrl ∧
      Runtime.urlHostname url = .ok (some host) ∧ state.allowedHosts = [host] ∧
      t = [(.ytm url payload none, .ok (.dict response))] ∧
      expectText response "accessToken" = .ok state.accessToken ∧
      expectText executor "id" = .ok state.executorId := by
  obtain ⟨serverUrl, hurl, h⟩ := run_ofExcept_bind_ok.mp h
  obtain ⟨host, _, h⟩ := run_ofExcept_bind_ok.mp h
  obtain ⟨tpost, trest, v, ht, hpost, h⟩ := run_bind_ok.mp h
  obtain ⟨⟨host', hmem, hhost⟩, hcall⟩ := run_post_ok hpost
  obtain rfl := List.mem_singleton.mp hmem
  cases v with
  | dict response =>
      obtain ⟨executor, _, h⟩ := run_ofExcept_bind_ok.mp h
      obtain ⟨accessToken, htoken, h⟩ := run_ofExcept_bind_ok.mp h
      obtain ⟨executorId, hid, h⟩ := run_ofExcept_bind_ok.mp h
      obtain ⟨hrest, hstate⟩ := h
      have hexchange : t = tpost := by rw [ht, hrest, List.append_nil]
      rw [Except.ok.inj hstate]
      exact ⟨host', _, _, response, executor, hurl, hhost, rfl, hexchange.trans hcall, htoken, hid⟩
  | none | bool | int | float | str | list | tuple => cases h.2

/-- An enrollment leaves the host it was sent to, and no other. -/
theorem Enrollment.issued (e : Enrollment) :
    ∃ host, e.state.allowedHosts = [host] ∧ IssuedBy e host e.state.accessToken := by
  obtain ⟨host, url, payload, response, _, _, hhost, hhosts, hcall, htoken, _⟩ :=
    run_enroll_ok e.returns.run
  exact ⟨host, hhosts, ⟨url, payload, response, hhost, hcall, (expectText_eq_ok.mp htoken).1⟩⟩

/-- The state of an enrollment has its texts, and a URL with nothing to strip. -/
theorem Enrollment.complete (e : Enrollment) : e.state.accessToken ≠ "" ∧
    e.state.executorId ≠ "" ∧
    ({ e.state with serverUrl := rstripChar '/' e.state.serverUrl } : ExecutorState) = e.state := by
  obtain ⟨_, _, _, _, _, hurl, _, _, _, htoken, hid⟩ := run_enroll_ok e.returns.run
  obtain ⟨_, _, hurl⟩ := bind_eq_ok.mp hurl
  obtain ⟨_, _, hurl⟩ := bind_eq_ok.mp hurl
  have hstripped : rstripChar '/' e.state.serverUrl = e.state.serverUrl := by
    rw [← Except.ok.inj hurl, rstripChar_rstripChar]
  refine ⟨(expectText_eq_ok.mp htoken).2, (expectText_eq_ok.mp hid).2, ?_⟩
  rw [hstripped]

end State

/-! ### A state, written and read back -/

section RoundTrip

theorem mapM_textItem (texts : List String) :
    (texts.map Value.str).mapM textItem = some texts := by
  induction texts with
  | nil => rfl
  | cons text rest ih =>
      rw [List.map_cons, List.mapM_cons, ih]
      rfl

theorem itemsAreJson_texts (texts : List String) : ItemsAreJson (texts.map .str) := by
  induction texts with
  | nil => trivial
  | cons text rest ih => exact ⟨trivial, ih⟩

theorem loads_texts {texts : List String} {j : Json} (hj : dumps (.list (texts.map .str)) = .ok j) :
    loads j = .list (texts.map .str) := by
  have hitems : ∀ texts : List String, dumpItems (texts.map .str) = .ok (texts.map .str) ∧
      loadItems (texts.map .str) = texts.map .str := by
    intro texts
    induction texts with
    | nil => exact ⟨rfl, rfl⟩
    | cons text rest ih =>
        obtain ⟨hdump, hload⟩ := ih
        refine ⟨bind_eq_ok.mpr ⟨_, rfl, bind_eq_ok.mpr ⟨_, hdump, rfl⟩⟩, ?_⟩
        rw [List.map_cons, loadItems, hload]
        rfl
  obtain ⟨hdump, hload⟩ := hitems texts
  obtain ⟨js, hjs, hj⟩ := bind_eq_ok.mp hj
  rw [hdump] at hjs
  rw [← Except.ok.inj hj, ← Except.ok.inj hjs, loads, hload]

theorem isJson_statePayload (state : ExecutorState) : IsJson (.dict (statePayload state)) :=
  ⟨show List.Nodup [Key.str "accessToken", .str "allowedHosts", .str "executorId",
      .str "serverUrl"] by decide,
    rfl, trivial, rfl, itemsAreJson_texts state.allowedHosts, rfl, trivial, rfl, trivial, trivial⟩

theorem readState_dict {payload : Dict} {state : ExecutorState} :
    readState (.dict payload) = .ok state ↔
      readAllowedHosts payload = .ok state.allowedHosts ∧
      expectText payload "accessToken" = .ok state.accessToken ∧
      expectText payload "executorId" = .ok state.executorId ∧
      ∃ serverUrl, expectText payload "serverUrl" = .ok serverUrl ∧
        state.serverUrl = rstripChar '/' serverUrl := by
  rw [readState]
  constructor
  · intro h
    obtain ⟨hosts, hhosts, h⟩ := bind_eq_ok.mp h
    obtain ⟨token, htoken, h⟩ := bind_eq_ok.mp h
    obtain ⟨id, hid, h⟩ := bind_eq_ok.mp h
    obtain ⟨url, hurl, h⟩ := bind_eq_ok.mp h
    rw [← Except.ok.inj h]
    exact ⟨hhosts, htoken, hid, url, hurl, rfl⟩
  · rintro ⟨hhosts, htoken, hid, url, hurl, hstate⟩
    refine bind_eq_ok.mpr ⟨_, hhosts, ?_⟩
    refine bind_eq_ok.mpr ⟨_, htoken, ?_⟩
    refine bind_eq_ok.mpr ⟨_, hid, ?_⟩
    refine bind_eq_ok.mpr ⟨_, hurl, ?_⟩
    rw [← hstate]
    rfl

/-- What is read of a state's tree: its texts must not be empty, and the URL is stripped. -/
theorem readState_of_dumps {state state' : ExecutorState} {j : Json}
    (hj : dumps (.dict (statePayload state)) = .ok j) :
    readState (loads j) = .ok state' ↔
      (state.accessToken ≠ "" ∧ state.executorId ≠ "" ∧ state.serverUrl ≠ "") ∧
        state' = { state with serverUrl := rstripChar '/' state.serverUrl } := by
  have hjson := isJson_statePayload state
  obtain ⟨j', hj', _, hloads⟩ := reload_spec hjson
  rw [hj] at hj'
  have htext {key text : String} (h : Dict.get? (statePayload state) key = some (.str text)) :
      Dict.get (reload (statePayload state)) key = .str text := by
    rw [Dict.get, get?_reload_of_loads hjson h fun j hj => by cases hj; rfl]
    rfl
  have hhosts : readAllowedHosts (reload (statePayload state)) = .ok state.allowedHosts := by
    rw [readAllowedHosts, Dict.get, get?_reload_of_loads hjson rfl fun j => loads_texts]
    simp only [Option.getD_some, mapM_textItem]
  have hread {key text text' : String}
      (h : Dict.get? (statePayload state) key = some (.str text)) :
      expectText (reload (statePayload state)) key = .ok text' ↔ text' = text ∧ text ≠ "" := by
    rw [expectText_eq_ok, htext h, Value.str.injEq, eq_comm]
    exact and_congr_right fun heq => by rw [heq]
  rw [Except.ok.inj hj', hloads, readState_dict, hhosts, hread rfl, hread rfl]
  constructor
  · rintro ⟨hhosts', ⟨htoken', htoken⟩, ⟨hid', hid⟩, url, hurl, hurl'⟩
    obtain ⟨rfl, hne⟩ := (hread rfl).mp hurl
    refine ⟨⟨htoken, hid, hne⟩, ?_⟩
    obtain ⟨_, _, _, _⟩ := state'
    rw [ExecutorState.mk.injEq]
    exact ⟨hurl', htoken', hid', (Except.ok.inj hhosts').symm⟩
  · rintro ⟨⟨htoken, hid, hne⟩, rfl⟩
    exact ⟨rfl, ⟨rfl, htoken⟩, ⟨rfl, hid⟩, _, (hread rfl).mpr ⟨rfl, hne⟩, rfl⟩

end RoundTrip

/-! ### The file of the state -/

section File

variable [Json.FloatRepr]

/-- The text `write_state` writes. -/
def writeStateText (state : ExecutorState) : Except PyError (List Char) :=
  return jsonCodec.encode (← dumps (.dict (statePayload state)))

/-- `read_state` of the file as it is at this moment. -/
def readStateText (file : Option (List Char)) : Except PyError ExecutorState := do
  match ← ExecutionStore.decode file with
  | some tree => readState (loads tree)
  | none => .error (.other "FileNotFoundError" "No such file or directory")

theorem valid_statePayload {state : ExecutorState} {j : Json}
    (hj : dumps (.dict (statePayload state)) = .ok j) : jsonCodec.Valid j := by
  have hfloats : (Value.dict (statePayload state)).AllFloats Json.IsFloatText := by
    have hhosts : ∀ host ∈ state.allowedHosts, (Value.str host).AllFloats Json.IsFloatText :=
      fun _ _ => trivial
    exact ⟨trivial, Value.itemsAllFloats_iff.mpr (List.forall_mem_map.mpr hhosts), trivial,
      trivial, trivial⟩
  refine ⟨?_, allFloats_dumps hj hfloats⟩
  obtain ⟨fields, rfl⟩ := exists_object_of_dumps hj
  trivial

theorem readStateText_of_decode {file : Option (List Char)} {j : Json}
    (h : ExecutionStore.decode file = .ok (some j)) :
    readStateText file = readState (loads j) := by
  rw [readStateText, h]
  rfl

variable [Runtime] [UrlSplit]

/-- **An enrollment that was written** is read back as it was, unless its URL was nothing but
slashes; and one that was cut short is not read at all. -/
theorem enrollment_survives (e : Enrollment) :
    ∃ text, writeStateText e.state = .ok text ∧
      (∀ state, readStateText (some text) = .ok state ↔
        e.state.serverUrl ≠ "" ∧ state = e.state) ∧
      ∀ front back, text = front ++ back → back ≠ [] →
        ∃ error, readStateText (some front) = .error error := by
  obtain ⟨j, hj, _⟩ := exists_dumps (isJson_statePayload e.state)
  have hvalid := valid_statePayload hj
  obtain ⟨htoken, hid, hurl⟩ := e.complete
  refine ⟨jsonCodec.encode j, bind_eq_ok.mpr ⟨j, hj, rfl⟩, fun state => ?_, ?_⟩
  · rw [readStateText_of_decode (decode_encode hvalid), readState_of_dumps hj, hurl]
    exact ⟨fun h => ⟨h.1.2.2, h.2⟩, fun h => ⟨⟨htoken, hid, h.1⟩, h.2⟩⟩
  · intro front back htext hback
    obtain ⟨error, herror⟩ := decode_cut hvalid htext hback
    exact ⟨error, by rw [readStateText, herror]; rfl⟩

/-! ### The file between the commands -/

/-- The tree an enrollment writes. -/
def enrollmentTree (e : Enrollment) : Option Json :=
  (dumps (.dict (statePayload e.state))).toOption

/-- `enroll` does not look at what is in the file. -/
def writeEnrollment (e : Enrollment) (_ : Option (Option Json)) : Option Json := enrollmentTree e

/-- The file of the state, and the operator who enrolls. -/
abbrev StateFile := FileRegister.State Char Enrollment

/-- An enrollment that was answered begins to write, goes on, or is killed. -/
def StateFile.Step : StateFile → StateFile → Prop := FileRegister.Step jsonCodec writeEnrollment

/-- **What is read** is the state of the last enrollment done. -/
theorem state_read {s : StateFile} {state : ExecutorState}
    (hrun : ReflTransGen StateFile.Step (FileRegister.initial none) s)
    (hread : readStateText s.file = .ok state) :
    ∃ done e, FileRegister.Between s.finished done s.begun ∧ done.getLast? = some e ∧
      state = e.state := by
  obtain ⟨tree, htree, hstate⟩ := bind_eq_ok.mp hread
  have hmake : FileRegister.Overwrites enrollmentTree writeEnrollment := fun _ _ _ h => h
  have hmissing : ∀ w, FileRegister.read jsonCodec none = some w → w = none :=
    fun _ hw => (Option.some.inj hw).symm
  obtain ⟨done, _, hdone, _, hmade, _⟩ := FileRegister.read_of_overwriting hmake
    (fun _ _ hj => valid_statePayload (toOption_eq_some.mp hj)) (by simp) hmissing hrun
    ReflTransGen.refl (read_of_decode htree) (read_of_decode htree)
  cases hmade with
  | first => cases hstate
  | @made done e j hj =>
      obtain ⟨_, hstate⟩ := (readState_of_dumps (toOption_eq_some.mp hj)).mp hstate
      rw [e.complete.2.2] at hstate
      exact ⟨_, e, hdone, List.getLast?_concat, hstate⟩

end File

/-! ### What the commands send -/

section Requests

-- What a command may do is shown through the lemmas alone; to compute it is to run the command.
attribute [local irreducible] Prog.Safe

variable [Runtime] {client : YtmClient} {accessToken : String}

/-- `_read_json_object`. -/
def readJsonObject (label : String) : Value → Except PyError Dict
  | .dict entries => .ok entries
  | _ => .error (.valueError (label ++ " must contain a JSON object"))

/-- `reconciliation upload-snapshot`, with the content of the payload's file. -/
def uploadSnapshot (client : YtmClient) (accessToken snapshotType status : String)
    (payloadFile : Value) (executionMode providerSnapshotId : Option String) : Executor Value := do
  let payload ← readJsonObject "payload-file" payloadFile
  client.recordReconciliationSnapshot accessToken snapshotType status payload executionMode
    providerSnapshotId

/-- A request goes to an allowed host, and has the token of the process. -/
def Confined (client : YtmClient) (accessToken : String) : Call → Prop
  | .ytm url _ token => HostAllowed client url ∧ token = some accessToken
  | _ => True

theorem confined_of_isBrokerCall {c : Call} (h : IsBrokerCall c) :
    Confined client accessToken c := by
  cases c with
  | okx | binance => trivial
  | readExecutions | writeExecutions | ytm => cases h

theorem post_confined {path : String} {payload : Dict} :
    CallsOnly (Confined client accessToken) (client.post path payload (some accessToken)) := by
  refine (CallsOnly.ofExcept _).bind fun _ => ?_
  show CallsOnly _ (Prog.ofExcept (Runtime.urlHostname (client.url path)) >>= _)
  cases hhost : Runtime.urlHostname (client.url path) with
  | error e => exact CallsOnly.ofExcept (.error e)
  | ok host? =>
      cases host? with
      | none => exact CallsOnly.ofExcept (.error _)
      | some host =>
          show CallsOnly _ (if host ∈ client.allowedHosts then _ else _)
          split
          · rename_i hmem
            exact CallsOnly.perform ⟨⟨host, hmem, hhost⟩, rfl⟩
          · exact CallsOnly.ofExcept (.error _)

/-! Every command keeps to that, whatever it is answered. -/

theorem recordReconciliationSnapshot_confined {snapshotType status : String} {payload : Dict}
    {executionMode providerSnapshotId : Option String} :
    CallsOnly (Confined client accessToken) (client.recordReconciliationSnapshot accessToken
      snapshotType status payload executionMode providerSnapshotId) :=
  post_confined

theorem uploadSnapshot_confined {snapshotType status : String} {payloadFile : Value}
    {executionMode providerSnapshotId : Option String} :
    CallsOnly (Confined client accessToken) (uploadSnapshot client accessToken snapshotType status
      payloadFile executionMode providerSnapshotId) :=
  (CallsOnly.ofExcept _).bind fun _ => recordReconciliationSnapshot_confined

section Threads

variable {session : Session} {ctx : Context} {inputs : LocalInputs}

/-- What a process with this session may ask. -/
abbrev Session.Confines (session : Session) : Call → Prop :=
  Confined session.client session.accessToken

theorem sendHeartbeat_confined : CallsOnly session.Confines (sendHeartbeat session inputs) := by
  refine (CallsOnly.ofExcept _).bind fun _ => ?_
  refine (CallsOnly.ofExcept _).bind fun _ => ?_
  refine (CallsOnly.ofExcept _).bind fun _ => ?_
  refine (CallsOnly.ofExcept _).bind fun _ => ?_
  exact post_confined.bind fun _ => CallsOnly.ofExcept (.ok _)

theorem recordPreflightDecision_confined {item : Dict} {decision : CommandPreflightDecision} :
    CallsOnly session.Confines (recordPreflightDecision session item decision) := by
  refine (CallsOnly.ofExcept _).bind fun _ => ?_
  refine (CallsOnly.ofExcept _).bind fun _ => ?_
  refine (CallsOnly.ofExcept _).bind fun _ => ?_
  refine (CallsOnly.ofExcept _).bind fun _ => ?_
  exact post_confined.bind fun _ => CallsOnly.ofExcept (.ok _)

omit [Runtime] in
theorem guarded_callsOnly {Q : Call → Prop} {turn : Executor Unit} (h : CallsOnly Q turn) :
    CallsOnly Q (guarded turn) := by
  refine CallsOnly.handle h fun _ q hq => ?_
  rw [← Option.some.inj hq]
  exact CallsOnly.ofExcept (.ok _)

theorem heartbeatLoop_confined (turns : List LocalInputs) :
    CallsOnly session.Confines (heartbeatLoop session turns) := by
  induction turns with
  | nil => exact CallsOnly.ofExcept (.ok _)
  | cons inputs rest ih => exact (guarded_callsOnly sendHeartbeat_confined).bind fun _ => ih

variable [BinanceSdk]

theorem leaseAndProcess_confined :
    CallsOnly session.Confines (leaseAndProcess session ctx inputs) := by
  refine post_confined.bind fun reply => ?_
  cases reply with
  | dict leaseResponse =>
      refine processLeaseResponse_callsOnly trivial (fun _ => trivial)
        (fun _ _ => recordPreflightDecision_confined) fun _ _ _ _ => ?_
      exact Safe.mono (fun _ _ => confined_of_isBrokerCall) (fun _ _ _ => trivial)
        preflightCommand_callsOnly
  | none | bool | int | float | str | list | tuple => exact CallsOnly.ofExcept (.error _)

theorem commandLoop_confined (turns : List LocalInputs) :
    CallsOnly session.Confines (commandLoop session ctx turns) := by
  induction turns with
  | nil => exact CallsOnly.ofExcept (.ok _)
  | cons inputs rest ih => exact (guarded_callsOnly leaseAndProcess_confined).bind fun _ => ih

theorem runOnce_confined : CallsOnly session.Confines (runOnce session ctx inputs) :=
  sendHeartbeat_confined.bind fun _ => leaseAndProcess_confined

end Threads

section Captures

open Reconciliation

variable {ctx : Context}

/-- The same for the reconciliation. -/
def ConfinedCapture (client : YtmClient) (accessToken : String) : LoopCall → Prop
  | .ytm c => Confined client accessToken c
  | _ => True

theorem capture_confined {inputs : LoopInputs} :
    CallsOnly (ConfinedCapture client accessToken)
      (captureAndUploadOkxReconciliation ctx client accessToken inputs) := by
  simp only [captureAndUploadOkxReconciliation, lift_eq]
  refine (CallsOnly.ofExcept _).bind fun secret => ?_
  refine (CallsOnly.ofExcept _).bind fun keys => ?_
  refine CallsOnly.bind ?_ fun snapshot => CallsOnly.bind ?_ fun _ => ?_
  · exact (captureRecords_callsOnly fun _ => CallsOnly.perform trivial).bind
      fun _ => CallsOnly.ofExcept _
  · unfold updateRiskStateFile
    split
    · exact CallsOnly.ofExcept (.ok _)
    · exact (CallsOnly.ofExcept _).bind fun _ =>
        (CallsOnly.perform trivial).bind fun _ => CallsOnly.ofExcept (.ok _)
  · have hpost : CallsOnly (fun c => ConfinedCapture client accessToken (.ytm c))
        (client.recordReconciliationSnapshot accessToken "full" "ok" snapshot
          inputs.executionMode none) := recordReconciliationSnapshot_confined
    exact CallsOnly.mapCalls hpost

theorem okxReconciliationLoop_confined (turns : List LoopInputs) :
    CallsOnly (ConfinedCapture client accessToken)
      (okxReconciliationLoop ctx client accessToken turns) := by
  induction turns with
  | nil => exact CallsOnly.ofExcept (.ok _)
  | cons inputs rest ih =>
      refine CallsOnly.bind (CallsOnly.handle ?_ fun _ q hq => ?_) fun _ => ih
      · exact capture_confined.bind fun _ => CallsOnly.ofExcept (.ok _)
      · rw [← Option.some.inj hq]
        exact CallsOnly.ofExcept (.ok _)

end Captures

/-- The session `run` makes of the state it has read. -/
def ExecutorState.session (state : ExecutorState) (clientVersion leaseQuery : String) : Session where
  client := ⟨state.serverUrl, state.allowedHosts⟩
  accessToken := state.accessToken
  clientVersion := clientVersion
  leaseQuery := leaseQuery

open Reconciliation in
/-- A command that has read this state makes a request to YTM. -/
inductive Sends [BinanceSdk] (ctx : Context) (state : ExecutorState) (url : String)
    (payload : Value) (token : Option String) : Prop
  | once (clientVersion leaseQuery : String) (inputs : LocalInputs)
      (h : Makes (runOnce (state.session clientVersion leaseQuery) ctx inputs)
        (.ytm url payload token))
  | commands (clientVersion leaseQuery : String) (turns : List LocalInputs)
      (h : Makes (commandLoop (state.session clientVersion leaseQuery) ctx turns)
        (.ytm url payload token))
  | heartbeats (clientVersion leaseQuery : String) (turns : List LocalInputs)
      (h : Makes (heartbeatLoop (state.session clientVersion leaseQuery) turns)
        (.ytm url payload token))
  | capture (inputs : LoopInputs)
      (h : Makes (captureAndUploadOkxReconciliation ctx ⟨state.serverUrl, state.allowedHosts⟩
        state.accessToken inputs) (.ytm (.ytm url payload token)))
  | captures (turns : List LoopInputs)
      (h : Makes (okxReconciliationLoop ctx ⟨state.serverUrl, state.allowedHosts⟩
        state.accessToken turns) (.ytm (.ytm url payload token)))
  | upload (snapshotType status : String) (payloadFile : Value)
      (executionMode providerSnapshotId : Option String)
      (h : Makes (uploadSnapshot ⟨state.serverUrl, state.allowedHosts⟩ state.accessToken
        snapshotType status payloadFile executionMode providerSnapshotId)
        (.ytm url payload token))

theorem Sends.confined [BinanceSdk] {ctx : Context} {state : ExecutorState} {url : String}
    {payload : Value} {token : Option String} (h : Sends ctx state url payload token) :
    HostAllowed ⟨state.serverUrl, state.allowedHosts⟩ url ∧ token = some state.accessToken := by
  cases h with
  | once _ _ _ h => exact runOnce_confined.makes h
  | commands _ _ turns h => exact (commandLoop_confined turns).makes h
  | heartbeats _ _ turns h => exact (heartbeatLoop_confined turns).makes h
  | capture _ h => exact capture_confined.makes h
  | captures turns h => exact (okxReconciliationLoop_confined turns).makes h
  | upload _ _ _ _ _ h => exact uploadSnapshot_confined.makes h

/-- **A token goes to the host it was asked from.**  Whatever a command sends that has read the
state, however often and wherever an operator has enrolled before, it is the token of the
last enrollment that was done by then, to the host this one was sent to. -/
theorem token_to_issuer [UrlSplit] [BinanceSdk] [Json.FloatRepr] {ctx : Context} {s : StateFile}
    {state : ExecutorState} {url : String} {payload : Value} {token : Option String}
    (hrun : ReflTransGen StateFile.Step (FileRegister.initial none) s)
    (hread : readStateText s.file = .ok state) (hsends : Sends ctx state url payload token) :
    ∃ done e host issued, FileRegister.Between s.finished done s.begun ∧
      done.getLast? = some e ∧ IssuedBy e host issued ∧ token = some issued ∧
      Runtime.urlHostname url = .ok (some host) := by
  obtain ⟨done, e, hdone, hlast, rfl⟩ := state_read hrun hread
  obtain ⟨host, hhosts, hissued⟩ := e.issued
  obtain ⟨⟨host', hmem, hhost⟩, htoken⟩ := hsends.confined
  have hmem' : host' ∈ e.state.allowedHosts := hmem
  rw [hhosts, List.mem_singleton] at hmem'
  exact ⟨done, e, host, _, hdone, hlast, hissued, htoken, hmem' ▸ hhost⟩

end Requests

/-! ### Two enrollments and a snapshot -/

namespace Sample

/-- What `https://…/` is split into. -/
@[reducible] def urlSplit : UrlSplit where
  urlSplit url :=
    .ok ("https", String.ofList ((url.toList.drop "https://".length).takeWhile (· ≠ '/')))

def enrollArgs (host : String) : EnrollArgs := ⟨"https://" ++ host ++ "/", "once"⟩

def enrollReply (token : String) : Value :=
  .dict [("accessToken", .str token), ("executor", .dict [("id", "executor-1")])]

/-- The state an enrollment leaves at this host, answered with this token. -/
def enrolled (host token : String) : ExecutorState :=
  ⟨"https://" ++ host, token, "executor-1", [host]⟩

theorem exists_enrollment :
    (∃ e : @Enrollment runtime urlSplit,
      @Enrollment.state runtime urlSplit e = enrolled "ytm.example" "token") ∧
    ∃ e : @Enrollment runtime urlSplit,
      @Enrollment.state runtime urlSplit e = enrolled "second.example" "renewed" := by
  let _ : Runtime := runtime
  let _ : UrlSplit := urlSplit
  have henroll {host token : String}
      (h : ((transcribe [.ok (enrollReply token)] (enroll "1.0" (enrollArgs host))).any
        fun run => decide (run.2.toOption = some (enrolled host token))) = true) :
      ∃ e : Enrollment, e.state = enrolled host token := by
    obtain ⟨t, out, hrun, hout⟩ := exists_run [.ok (enrollReply token)]
      (enroll "1.0" (enrollArgs host))
      (fun _ out => decide (out.toOption = some (enrolled host token))) h
    rw [toOption_eq_some.mp (of_decide_eq_true hout)] at hrun
    exact ⟨⟨"1.0", enrollArgs host, t, enrolled host token, ⟨hrun⟩⟩, rfl⟩
  exact ⟨henroll (by decide +kernel), henroll (by decide +kernel)⟩

end Sample

/-- The second enrollment is read back. -/
theorem enrollment_survives_sample : let _ : Runtime := Sample.runtime
    let _ : UrlSplit := Sample.urlSplit
    let _ : Json.FloatRepr := ExecutionStore.Sample.floatRepr
    ∃ (e : Enrollment) (text : List Char),
      e.state = Sample.enrolled "second.example" "renewed" ∧
      writeStateText e.state = .ok text ∧
      readStateText (some text) = .ok (Sample.enrolled "second.example" "renewed") ∧
      ∀ front back, text = front ++ back → back ≠ [] →
        ∃ error, readStateText (some front) = .error error := by
  intro _ _ _
  obtain ⟨_, e, he⟩ := Sample.exists_enrollment
  obtain ⟨text, hwrite, hread, hcut⟩ := enrollment_survives e
  exact ⟨e, text, he, hwrite, (hread _).mpr ⟨by rw [he]; decide, he.symm⟩, hcut⟩

theorem token_to_issuer_sample : let _ : Runtime := Sample.runtime
    let _ : UrlSplit := Sample.urlSplit
    let _ : Json.FloatRepr := ExecutionStore.Sample.floatRepr
    let _ : BinanceSdk := Sample.sdk
    ∃ (e₁ e₂ : Enrollment) (s : StateFile) (url : String) (payload : Value),
      e₁.state = Sample.enrolled "ytm.example" "token" ∧
      e₂.state = Sample.enrolled "second.example" "renewed" ∧ s.finished = [e₁, e₂] ∧
      ReflTransGen StateFile.Step (FileRegister.initial none) s ∧
      readStateText s.file = .ok e₂.state ∧
      Sends defaultContext e₂.state url payload (some "renewed") ∧
      ∃ done e host issued, FileRegister.Between s.finished done s.begun ∧
        done.getLast? = some e ∧ IssuedBy e host issued ∧ some "renewed" = some issued ∧
        Runtime.urlHostname url = .ok (some host) := by
  intro _ _ _ _
  obtain ⟨⟨e₁, he₁⟩, e₂, he₂⟩ := Sample.exists_enrollment
  obtain ⟨j₁, hj₁, _⟩ := exists_dumps (isJson_statePayload e₁.state)
  obtain ⟨j₂, hj₂, _⟩ := exists_dumps (isJson_statePayload e₂.state)
  have hfirst : ReflTransGen StateFile.Step (FileRegister.initial none)
      ⟨some (jsonCodec.encode j₁), none, [e₁], [e₁]⟩ :=
    FileRegister.run_update (s := FileRegister.initial none) rfl (toOption_eq_some.mpr hj₁)
  have hsecond : ReflTransGen StateFile.Step ⟨some (jsonCodec.encode j₁), none, [e₁], [e₁]⟩
      ⟨some (jsonCodec.encode j₂), none, [e₁, e₂], [e₁, e₂]⟩ :=
    FileRegister.run_update (s := ⟨some (jsonCodec.encode j₁), none, [e₁], [e₁]⟩) rfl
      (toOption_eq_some.mpr hj₂)
  have hread : readStateText (some (jsonCodec.encode j₂)) = .ok e₂.state := by
    rw [readStateText_of_decode (decode_encode (valid_statePayload hj₂)), readState_of_dumps hj₂,
      e₂.complete.2.2, he₂]
    decide
  let client : YtmClient := ⟨"https://second.example", ["second.example"]⟩
  let path : String := "/api/executor/reconciliation/snapshots"
  let snapshot : Dict := [("payload", .dict []), ("snapshotType", "full"), ("status", "ok")]
  have hhost : HostAllowed client (client.url path) :=
    ⟨"second.example", by decide, by decide +kernel⟩
  have hnext : (client.post path snapshot (some "renewed")).next? =
      some (.ytm (client.url path) (.dict snapshot) (some "renewed")) :=
    (next_post client).mpr ⟨by decide +kernel, hhost, rfl⟩
  have hsends : Sends defaultContext e₂.state (client.url path) (.dict snapshot)
      (some "renewed") := by
    rw [he₂]
    exact Sends.upload "full" "ok" (.dict []) none none (makes_of_feed [] hnext)
  exact ⟨e₁, e₂, _, _, _, he₁, he₂, rfl, hfirst.trans hsecond, hread, hsends,
    token_to_issuer (hfirst.trans hsecond) hread hsends⟩

end YtmExecutor
