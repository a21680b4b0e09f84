/-
Everything the executor calls, and the client of the YTM API.

A `Call` is one step of the executor that the world answers: a broker's API, the file of
execution results, or a request to YTM.  `YtmClient.post` is the only way to YTM: it
checks the payload for secret-like keys and the host against the allowed ones before it
makes the request.
-/
import YtmExecutor.BinanceFutures
import YtmExecutor.Stores

namespace YtmExecutor

open Python Interaction

/-- The credentials an OKX client is built with. -/
structure OkxKeys where
  apiKey : String
  apiSecret : String
  passphrase : String

/-- The credentials a Binance client is built with. -/
structure BinanceKeys where
  apiKey : String
  apiSecret : String

inductive Call where
  | okx (keys : OkxKeys) (op : OkxCall)
  | binance (keys : BinanceKeys) (op : Binance.BinanceCall)
  | readExecutions
  | writeExecutions (content : Value)
  | ytm (url : String) (payload : Value) (accessToken : Option String)

/-- A program of the executor. -/
abbrev Executor (α : Type) := Prog Call Value PyError α

structure YtmClient where
  serverUrl : String
  allowedHosts : List String

namespace YtmClient

variable [Runtime] (client : YtmClient)

/-- `_post`. -/
def post (path : String) (payload : Dict) (accessToken : Option String) : Executor Value := do
  rejectSecretFields [] (.dict payload)
  let url := rstripChar '/' client.serverUrl ++ path
  match ← Runtime.urlHostname url with
  | some host =>
      if host ∈ client.allowedHosts then
        Prog.perform (.ytm url (.dict payload) accessToken)
      else
        Prog.raise (.other "RuntimeError" ("egress host is not allowed: " ++ host))
  | none => Prog.raise (.other "RuntimeError" "egress host is not allowed: None")

def enroll (enrollmentToken clientVersion : String) (capabilities allowedEgress : Dict) :
    Executor Value :=
  client.post "/api/executor/enroll"
    [("allowedEgress", .dict allowedEgress), ("capabilities", .dict capabilities),
      ("clientVersion", clientVersion), ("enrollmentToken", enrollmentToken)] none

def heartbeat (accessToken clientVersion : String) (capabilities : Dict) : Executor Value :=
  client.post "/api/executor/heartbeat"
    [("capabilities", .dict capabilities), ("clientVersion", clientVersion),
      ("heartbeatStatus", "online")] (some accessToken)

/-- Lease a command; `query` is the encoded waiting time and poll interval. -/
def leaseCommand (accessToken query : String) : Executor Value :=
  client.post ("/api/executor/commands/lease?" ++ query) [] (some accessToken)

def recordCommandResult (accessToken commandId leaseId status : String) (resultPayload : Dict) :
    Executor Value :=
  client.post ("/api/executor/commands/" ++ commandId ++ "/result")
    [("leaseId", leaseId), ("resultPayload", .dict resultPayload), ("status", status)]
    (some accessToken)

def recordReconciliationSnapshot (accessToken snapshotType status : String) (payload : Dict)
    (executionMode providerSnapshotId : Option String) : Executor Value :=
  client.post "/api/executor/reconciliation/snapshots"
    (([("payload", .dict payload), ("snapshotType", snapshotType), ("status", status)] : Dict)
      ++ optionalEntry "executionMode" executionMode
      ++ optionalEntry "providerSnapshotId" providerSnapshotId)
    (some accessToken)

end YtmClient

end YtmExecutor
