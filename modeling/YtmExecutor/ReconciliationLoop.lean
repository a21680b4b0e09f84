/-
The reconciliation loop.

A turn takes a snapshot, folds its equity into the stored risk state, and uploads it with
status `ok`.  A turn that raises anywhere is given up, and the next one starts over.
-/
import YtmExecutor.Client
import YtmExecutor.Interaction.Run
import YtmExecutor.Reconciliation
import YtmExecutor.RiskState

namespace YtmExecutor

open Python Decimal Interaction Prog

namespace Reconciliation

/-- What a turn calls. -/
inductive LoopCall where
  | okx (keys : OkxKeys) (read : OkxRead)
  | writeRiskState (content : Value)
  | ytm (call : Call)

/-- What a turn finds on disk and its clocks. -/
structure LoopInputs where
  secrets : SecretStore
  name : String
  executionMode : Option String
  /-- The content of the risk state's file, unless no risk state is kept. -/
  riskStateFile : Option (Option Value)
  capturedAt : Instant
  updatedAt : Instant

abbrev LoopTurn (α : Type) := Prog LoopCall Value PyError α

section Turn

variable [Runtime]

/-- `_required_text(secret.get(field), field)`. -/
def requiredSecret (secret : Secret) (field : String) : Except PyError String :=
  storeRequiredText ((secret.lookup field).elim .none .str) field

def okxKeysOf (secret : Secret) : Except PyError OkxKeys := do
  return ⟨← requiredSecret secret "apiKey", ← requiredSecret secret "apiSecret",
    ← requiredSecret secret "passphrase"⟩

variable (ctx : Context)

/-- Fold the snapshot into the risk state's file. -/
def updateRiskStateFile (file : Option (Option Value)) (snapshot : Dict) (now : Instant) :
    LoopTurn Unit :=
  match file with
  | none => return ()
  | some file => do
      let next ← updateRiskStateFromReconciliationSnapshot ctx file snapshot now
      let _ ← perform (.writeRiskState next.2)
      return ()

variable (client : YtmClient) (accessToken : String)

/-- One turn.  It is irreducible because evaluating it comes to texts at once. -/
@[irreducible]
def captureAndUploadOkxReconciliation (inputs : LoopInputs) : LoopTurn Value := do
  let secret ← inputs.secrets.get "okx" inputs.name
  let keys ← okxKeysOf secret
  let snapshot ← captureSnapshot (fun read => perform (.okx keys read)) inputs.capturedAt
  updateRiskStateFile ctx inputs.riskStateFile snapshot inputs.updatedAt
  mapCalls .ytm (client.recordReconciliationSnapshot accessToken "full" "ok" snapshot
    inputs.executionMode none)

/-- An exception ends a turn and not the loop. -/
def guardedTurn (turn : LoopTurn Value) : LoopTurn Unit :=
  Prog.handle (fun _ => some (.done ())) do
    let _ ← turn
    return ()

/-- The thread's loop, one turn for each of the inputs it meets. -/
def okxReconciliationLoop : List LoopInputs → LoopTurn Unit
  | [] => return ()
  | inputs :: rest => do
      guardedTurn (captureAndUploadOkxReconciliation ctx client accessToken inputs)
      okxReconciliationLoop rest

end Turn

end Reconciliation

end YtmExecutor
