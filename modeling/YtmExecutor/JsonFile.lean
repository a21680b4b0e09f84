/-
JSON files as registers.

The executor keeps its state, its policy, its risk state and its validations as JSON
texts, each in a file of its own that is emptied before it is written.  `jsonCodec` is what
the readers and writers of such a file agree on, and makes the file one of those of
`FileRegister`: a tree with a bracket around it is read back, and no part of its text can
be read at all.
-/
import YtmExecutor.TornWrites
import YtmExecutor.Interaction.FileRegister

namespace YtmExecutor

open Python Interaction

variable [Json.FloatRepr]

/-- Trees with a bracket around them, in the text `json.dumps` makes of them. -/
def jsonCodec : Codec Char Json where
  Valid j := Json.IsContainer j ∧ j.AllFloats Json.IsFloatText
  encode := Json.text 0
  decode := Json.parse
  decode_encode _ h := Json.parse_text h.1 h.2 0
  decode_prefix _ _ _ h := Json.parse_prefix h.1 h.2 0

/-- A reader that gets a tree sees it in the register. -/
theorem read_of_decode {file : Option (List Char)} {tree : Option Json}
    (h : ExecutionStore.decode file = .ok tree) : FileRegister.read jsonCodec file = some tree := by
  cases file with
  | none => exact congrArg some (Except.ok.inj h)
  | some text =>
      have hdecode : FileRegister.read jsonCodec (some text) = (Json.parse text).map some := rfl
      rw [hdecode]
      rw [ExecutionStore.decode] at h
      cases hparse : Json.parse text with
      | none =>
          rw [hparse] at h
          cases h
      | some j =>
          rw [hparse] at h
          rw [← Except.ok.inj h]
          rfl

/-- The file a write leaves is parsed. -/
theorem decode_encode {j : Json} (hvalid : jsonCodec.Valid j) :
    ExecutionStore.decode (some (jsonCodec.encode j)) = .ok (some j) := by
  have hparse : Json.parse (jsonCodec.encode j) = some j := jsonCodec.decode_encode j hvalid
  rw [ExecutionStore.decode, hparse]

/-- So is one that may be missing. -/
theorem decode_map_encode {tree : Option Json} (hvalid : ∀ j ∈ tree, jsonCodec.Valid j) :
    ExecutionStore.decode (tree.map jsonCodec.encode) = .ok tree := by
  cases tree with
  | none => rfl
  | some j => exact decode_encode (hvalid j rfl)

/-- A part of the text of a tree is not. -/
theorem decode_cut {j : Json} (hvalid : jsonCodec.Valid j) {front back : List Char}
    (htext : jsonCodec.encode j = front ++ back) (hback : back ≠ []) :
    ∃ e, ExecutionStore.decode (some front) = .error e := by
  have hparse : Json.parse front = none := jsonCodec.decode_prefix j front back hvalid htext hback
  rw [ExecutionStore.decode, hparse]
  exact ⟨_, rfl⟩

end YtmExecutor
