/-
The executor's loop: heartbeat, lease a command, decide on it, record the result.

`processLeaseResponse` is one turn of it.  A result that is cached for the command is
recorded again as it stands; otherwise the command goes through the preflight, an
acknowledged real command is cached first, and then the result is recorded.  Between any
two calls the process may be gone, which is what the order of these steps is about.
-/
import YtmExecutor.Preflight
import YtmExecutor.RiskState

namespace YtmExecutor

open Python Decimal Interaction

/-- What a process is started with: the client, its token, and two fixed texts. -/
structure Session where
  client : YtmClient
  accessToken : String
  clientVersion : String
  leaseQuery : String

/-- What the executor finds on its disk and its clock during one turn. -/
structure LocalInputs where
  secrets : SecretStore
  validationsFile : Option Value
  /-- What reading the policy file gives, at first and right before a real order. -/
  riskPolicy : Except PyError RiskPolicy
  finalRiskPolicy : Except PyError RiskPolicy
  riskStateFile : Option Value
  enableRealOrders : Bool
  now : Instant
  recordedAt : Instant

section Loop

variable [Runtime]

def expectObject (payload : Dict) (key : String) : Except PyError Dict :=
  match payload.get key with
  | .dict entries => .ok entries
  | _ => .error (.valueError (key ++ " is missing"))

def expectText (payload : Dict) (key : String) : Except PyError String :=
  match payload.get key with
  | .str text => if text = "" then .error (.valueError (key ++ " is missing")) else .ok text
  | _ => .error (.valueError (key ++ " is missing"))

variable (session : Session)

def sendHeartbeat (inputs : LocalInputs) : Executor Unit := do
  let riskPolicy ← inputs.riskPolicy
  let validations ← listPublicValidations inputs.validationsFile
  let capability ← inputs.secrets.heartbeatCapability validations
  let summary ← riskPolicyPublicSummary riskPolicy
  let capabilities : Dict :=
    (Dict.update [("leases", .bool true), ("longPollLeases", .bool true),
      ("zeroSecret", .bool true)] capability).set "localRiskPolicy" (.dict summary)
  let _ ← session.client.heartbeat session.accessToken session.clientVersion capabilities
  return ()

def recordPreflightDecision (item : Dict) (decision : CommandPreflightDecision) :
    Executor Unit := do
  let command ← expectObject item "command"
  let lease ← expectObject item "lease"
  let commandId ← expectText command "id"
  let leaseId ← expectText lease "id"
  let _ ← session.client.recordCommandResult session.accessToken commandId leaseId
    decision.status decision.resultPayload
  return ()

/-- The result cached for a command, from the file as it is now. -/
def cachedResult (commandId : String) : Executor (Option StoredExecutionResult) := do
  ExecutionStore.get (← Prog.perform .readExecutions) commandId

/-- Cache a result. -/
def storeResult (commandId : String) (decision : CommandPreflightDecision) (recordedAt : Instant) :
    Executor Unit := do
  let content ← ExecutionStore.put (← Prog.perform .readExecutions) commandId decision.status
    decision.resultPayload recordedAt
  let _ ← Prog.perform (.writeExecutions content)
  return ()

variable (ctx : Context) [BinanceSdk]

/-- What the preflight is given in this turn. -/
def preflightInputs (inputs : LocalInputs) : Except PyError PreflightInputs := do
  let riskPolicy ← inputs.riskPolicy
  let localCredentials ← inputs.secrets.list
  let riskState ← readRiskState inputs.riskStateFile
  let validations ← listPublicValidations inputs.validationsFile
  return {
    localCredentials := localCredentials
    localSecretResolver := some inputs.secrets.get
    riskPolicy := some riskPolicy
    riskState := some riskState
    finalRiskPolicyLoader := some inputs.finalRiskPolicy
    validationSummaries := validations.map .dict
    realOrderPlacementEnabled := inputs.enableRealOrders
    now := inputs.now }

/-- The results that are cached before they are recorded. -/
def isKept (command : Dict) (decision : CommandPreflightDecision) : Bool :=
  (command.get "executionMode").isText "real" && decide (decision.status = "acknowledged")

/-- A command without a cached result: decide, cache what has to be kept, record. -/
def processCommand (item command : Dict) (commandId : String) (inputs : LocalInputs) :
    Executor Unit := do
  let preflight ← preflightInputs inputs
  let decision ← preflightCommand ctx item preflight
  if isKept command decision then do
    storeResult commandId decision inputs.recordedAt
    recordPreflightDecision session item decision
  else recordPreflightDecision session item decision

def processLeaseResponse (leaseResponse : Dict) (inputs : LocalInputs) : Executor Unit :=
  match leaseResponse.get "item" with
  | .dict item => do
      let command ← expectObject item "command"
      let commandId ← expectText command "id"
      match ← cachedResult commandId with
      | some cached => recordPreflightDecision session item ⟨cached.status, cached.resultPayload⟩
      | none => processCommand session ctx item command commandId inputs
  | _ => return ()

/-- Lease a command and process it. -/
def leaseAndProcess (inputs : LocalInputs) : Executor Unit := do
  match ← session.client.leaseCommand session.accessToken session.leaseQuery with
  | .dict leaseResponse => processLeaseResponse session ctx leaseResponse inputs
  | _ => Prog.raise (.other "RuntimeError" "YTM returned non-object JSON")

/-- `run --once`. -/
def runOnce (inputs : LocalInputs) : Executor Unit := do
  sendHeartbeat session inputs
  leaseAndProcess session ctx inputs

/-- An exception ends a turn and not the loop. -/
def guarded (turn : Executor Unit) : Executor Unit := turn.handle fun _ => some (.done ())

/-- The command loop, one turn for each of the inputs it meets. -/
def commandLoop : List LocalInputs → Executor Unit
  | [] => return ()
  | inputs :: rest => do
      guarded (leaseAndProcess session ctx inputs)
      commandLoop rest

/-- The heartbeat thread. -/
def heartbeatLoop : List LocalInputs → Executor Unit
  | [] => return ()
  | inputs :: rest => do
      guarded (sendHeartbeat session inputs)
      heartbeatLoop rest

end Loop

end YtmExecutor
