/-
Turn after turn, with crashes in between.

A turn is one run of `processLeaseResponse`.  What outlives it is a `World`: the orders
OKX holds and the file of execution results.  A call may fail or not, whether or not it
took effect, and the process may be gone after any of them; `Step` says what a call does
to the world, and an `Assumption` what is taken for granted of the answers.

A write empties the file before it fills it, so one that is cut short leaves a text that
nobody can read.  The world remembers that it was, and what the file held before.

Two components of a `World` are there for the statements alone: the command of the turn
that is running, and the commands whose entry order OKX has taken.
-/
import YtmExecutor.Cli
import YtmExecutor.Interaction.Restart

namespace YtmExecutor

open Python Decimal Interaction Prog

structure World where
  /-- The client order ids OKX holds an order under. -/
  orders : List String
  /-- What the file of execution results was last filled with as a whole; a file that does
  not exist is an empty object. -/
  executions : Value
  /-- A later write was cut short, so that the file cannot be read. -/
  torn : Bool
  /-- The id of the command the running turn was leased. -/
  turn : String
  /-- The commands whose entry order OKX has taken. -/
  accepted : List String

namespace World

/-- Nothing has happened yet. -/
def fresh : World := ⟨[], .dict [], false, "", []⟩

end World

/-- How much of a call took effect; only a write can be cut short. -/
inductive Effect where
  | none
  | cut
  | whole
  deriving DecidableEq

namespace World

/-- What a call leaves behind, as far as it took effect. -/
def after (s : World) (took : Effect) : Call → World
  | .okx _ (.placeOrder params) =>
      if took = .whole then
        { s with orders := params.clOrdId :: s.orders, accepted := s.turn :: s.accepted }
      else s
  | .writeExecutions content =>
      match took with
      | .none => s
      | .cut => { s with torn := true }
      | .whole => { s with executions := content, torn := false }
  | _ => s

/-- The file answers with its content or fails, and a write that succeeds took effect. -/
def FileAnswers (s : World) (took : Effect) (r : Except PyError Value) : Call → Prop
  | .readExecutions => ∀ v, r = .ok v → s.torn = false ∧ v = s.executions
  | .writeExecutions _ => ∀ v, r = .ok v → took = .whole
  | _ => True

/-- What may be assumed of the answer to a call that took effect that far. -/
abbrev Assumption := World → Call → Except PyError Value → Effect → Prop

/-- One call under an assumption on the answers. -/
def Step (assumed : Assumption) (s : World) (c : Call) (r : Except PyError Value) (s' : World) :
    Prop :=
  ∃ took, s' = s.after took c ∧ s.FileAnswers took r c ∧ assumed s c r took

/-- A call that neither places an order nor touches the file changes nothing. -/
def Quiet : Call → Prop
  | .okx _ (.placeOrder _) | .writeExecutions _ => False
  | _ => True

theorem after_quiet {s : World} {took : Effect} {c : Call} (h : Quiet c) : s.after took c = s := by
  cases c with
  | okx keys op =>
      cases op with
      | placeOrder params => exact absurd h not_false
      | _ => rfl
  | writeExecutions content => exact absurd h not_false
  | _ => rfl

theorem Step.quiet {assumed : Assumption} {s s' : World} {c : Call} {r : Except PyError Value}
    (h : Step assumed s c r s') (hc : Quiet c) : s' = s := by
  obtain ⟨took, rfl, _⟩ := h
  exact after_quiet hc

/-! ### Turns -/

/-- The command a lease response leases, if it leases one. -/
def leasedEntries (leaseResponse : Dict) : Dict :=
  let item := ((leaseResponse.get "item").dict?).getD []
  ((item.get "command").dict?).getD []

def idOf (command : Dict) : String :=
  match command.get "id" with
  | .str text => text
  | _ => ""

section Turns

variable [Runtime] [BinanceSdk] (session : Session) (ctx : Context)

/-- A turn starts: the cloud leases what it wants, and the disk holds what it holds. -/
inductive Starts (admitted : World → Dict → LocalInputs → Prop) :
    World → Executor Unit → World → Prop
  | turn {s : World} {leaseResponse : Dict} {inputs : LocalInputs}
      (h : admitted s leaseResponse inputs) :
      Starts admitted s (processLeaseResponse session ctx leaseResponse inputs)
        { s with turn := idOf (leasedEntries leaseResponse) }

/-- Nothing is asked of what a turn starts with. -/
def AnyTurn (_ : World) (_ : Dict) (_ : LocalInputs) : Prop := True

/-- The states of all histories that begin with `fresh`. -/
def Reachable (admitted : World → Dict → LocalInputs → Prop) (assumed : Assumption) :
    World × Option (Executor Unit) → Prop :=
  Restart.Reachable (Starts session ctx admitted) (Step assumed) fresh

end Turns

/-- The request that records a result with YTM. -/
def recordCall (session : Session) (commandId leaseId status : String) (resultPayload : Dict) :
    Call :=
  .ytm (rstripChar '/' session.client.serverUrl
      ++ ("/api/executor/commands/" ++ commandId ++ "/result"))
    (.dict [("leaseId", leaseId), ("resultPayload", .dict resultPayload), ("status", status)])
    (some session.accessToken)

/-! ### What is assumed of a lookup -/

/-- A reply whose code is `0`. -/
def HasCodeZero (v : Value) : Prop :=
  ∃ fields, v = .dict fields ∧ Dict.get fields "code" = .str "0"

/-- A reply that reports one order, under its id. -/
def ReportsOrder (v : Value) : Prop :=
  ∃ (fields order : Dict) (ordId : String), v = .dict fields ∧ fields.get "code" = .str "0" ∧
    fields.get? "data" = some (.list [.dict order]) ∧ order.get "ordId" = .str ordId ∧
    strip ordId ≠ "" ∧ isPublic (.dict order) = true

/-- A lookup with code `0` reports the order that is held. -/
def LookupsReport : Assumption
  | s, .okx _ (.getOrder _ clOrdId), r, _ =>
      clOrdId ∈ s.orders → ∀ v, r = .ok v → HasCodeZero v → ReportsOrder v
  | _, _, _, _ => True

/-- A lookup of an order that is held comes back with code `0` or ends the turn. -/
def LookupsAnswered : Assumption
  | s, .okx _ (.getOrder _ clOrdId), r, _ =>
      clOrdId ∈ s.orders →
        (∃ v, r = .ok v ∧ HasCodeZero v) ∨ ∃ e, r = .error e ∧ e.isValueError = false
  | _, _, _, _ => True

/-- Lookups that can be relied on. -/
def LookupsHold : Assumption := fun s c r took => LookupsReport s c r took ∧ LookupsAnswered s c r took

end World

end YtmExecutor
