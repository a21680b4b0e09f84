/-
How a leased command is read.

A command is a dict with a nested payload, both from the cloud.  The risk gate and the
adapters look fields up the same way: under a list of aliases, key by key, in the
command before the payload.
-/
import YtmExecutor.Python.Value

namespace YtmExecutor

open Python

inductive ExecutionMode where
  | externalPaper
  | real
  deriving DecidableEq

def ExecutionMode.text : ExecutionMode → String
  | .externalPaper => "external_paper"
  | .real => "real"

def commandPayload (command : Dict) : Dict := ((command.get "commandPayload").dict?).getD []

/-- The first alias present, the command going before its payload for each of them. -/
def first (command payload : Dict) : List String → Value
  | [] => .none
  | key :: rest =>
      match command.get? key with
      | some v => v
      | none =>
          match payload.get? key with
          | some v => v
          | none => first command payload rest

/-- A field of a command under its aliases. -/
def commandField (command : Dict) (keys : List String) : Value :=
  first command (commandPayload command) keys

/-- The aliases are tried one after the other. -/
theorem commandField_cons (command : Dict) (key : String) (rest : List String) :
    commandField command (key :: rest) =
      ((command.get? key).or ((commandPayload command).get? key)).getD
        (commandField command rest) := by
  unfold commandField
  rw [first]
  cases command.get? key with
  | some v => rfl
  | none => cases (commandPayload command).get? key <;> rfl

end YtmExecutor
