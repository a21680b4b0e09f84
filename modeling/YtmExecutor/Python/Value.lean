/-
Python's JSON-like values.

A `Value` is what `json.loads` may return, and the tuples a program adds to that.  A
dict is the list of its entries in insertion order, and a float is the text Python
writes for it, which determines it.  A file that holds JSON is the value it holds.
-/
import YtmExecutor.Python.Text

namespace Python

/-- What can be the key of a dict. -/
inductive Key where
  | str (s : String)
  | int (n : ℤ)
  | float (text : String)
  | bool (b : Bool)
  | none
  deriving DecidableEq

inductive Value where
  | none
  | bool (b : Bool)
  | int (n : ℤ)
  | float (text : String)
  | str (s : String)
  | list (items : List Value)
  | tuple (items : List Value)
  | dict (entries : List (Key × Value))

abbrev Dict := List (Key × Value)

instance : Coe String Key := ⟨Key.str⟩

instance : Coe String Value := ⟨Value.str⟩

namespace Dict

/-- The value under a key, if the key is there. -/
def get? : Dict → String → Option Value
  | [], _ => none
  | (k, v) :: rest, key => if k = .str key then some v else get? rest key

/-- `d.get(key)`. -/
def get (d : Dict) (key : String) : Value := (get? d key).getD .none

/-- `key in d`. -/
def contains (d : Dict) (key : String) : Bool := (get? d key).isSome

/-- `d[key] = v`. -/
def set : Dict → Key → Value → Dict
  | [], key, v => [(key, v)]
  | (k, w) :: rest, key, v => if k = key then (key, v) :: rest else (k, w) :: set rest key v

/-- `d.update(e)`, and also `{**d, **e}`. -/
def update (d e : Dict) : Dict := e.foldl (fun acc entry => acc.set entry.1 entry.2) d

theorem get_of_get? {d : Dict} {key : String} {v : Value} (h : get? d key = some v) :
    get d key = v := by
  rw [get, h, Option.getD_some]

/-- What is not `None` is found only under a key. -/
theorem get_eq_iff {d : Dict} {key : String} {v : Value} (hv : v ≠ .none) :
    get d key = v ↔ get? d key = some v := by
  rw [get]
  cases get? d key with
  | none => simp [Ne.symm hv]
  | some w => simp

theorem get?_set_self (d : Dict) (key : String) (v : Value) :
    get? (set d (.str key) v) key = some v := by
  induction d with
  | nil => simp [set, get?]
  | cons entry rest ih =>
      rw [set]
      by_cases h : entry.1 = .str key
      · rw [if_pos h, get?, if_pos rfl]
      · rw [if_neg h, get?, if_neg h, ih]

theorem get?_set_other (d : Dict) {key other : String} (v : Value) (hne : key ≠ other) :
    get? (set d (.str key) v) other = get? d other := by
  have hkey : Key.str key ≠ .str other := by
    intro h
    exact hne (Key.str.inj h)
  induction d with
  | nil => simp [set, get?, hkey]
  | cons entry rest ih =>
      rw [set]
      by_cases h : entry.1 = .str key
      · have hother : entry.1 ≠ .str other := by
          rw [h]
          exact hkey
        rw [if_pos h, get?, if_neg hkey, get?, if_neg hother]
      · rw [if_neg h, get?, get?, ih]

end Dict

namespace Value

/-- The truth value of an object. -/
def truthy : Value → Bool
  | .none => false
  | .bool b => b
  | .int n => decide (n ≠ 0)
  | .float text => decide (text ≠ "0.0" ∧ text ≠ "-0.0")
  | .str s => decide (s ≠ "")
  | .list items => !items.isEmpty
  | .tuple items => !items.isEmpty
  | .dict entries => !entries.isEmpty

/-- `a or b`. -/
def pyOr (a b : Value) : Value := if a.truthy then a else b

/-- `value in (None, "")`. -/
def isNoneOrEmpty : Value → Bool
  | .none => true
  | .str s => decide (s = "")
  | _ => false

/-- `value == "…"`. -/
def isText (s : String) : Value → Bool
  | .str t => decide (t = s)
  | _ => false

theorem isText_iff {v : Value} {s : String} : v.isText s = true ↔ v = .str s := by
  cases v <;> simp [isText]

/-- `value is True`. -/
def isTrue : Value → Bool
  | .bool b => b
  | _ => false

/-- `str(value).strip() if isinstance(value, str) else ""`. -/
def text : Value → String
  | .str s => strip s
  | _ => ""

/-- The entries of a dict, if it is one. -/
def dict? : Value → Option Dict
  | .dict entries => some entries
  | _ => Option.none

/-- The items of a list, if it is one. -/
def list? : Value → Option (List Value)
  | .list items => some items
  | _ => Option.none

end Value

section Representation

variable [Runtime]

/-- `str(key)`. -/
def Key.toText : Key → String
  | .str s => s
  | .int n => toString n
  | .float text => text
  | .bool b => if b then "True" else "False"
  | .none => "None"

def Key.repr : Key → String
  | .str s => reprText s
  | key => key.toText

mutual

/-- `repr(value)`. -/
def Value.repr : Value → String
  | .none => "None"
  | .bool b => if b then "True" else "False"
  | .int n => toString n
  | .float text => text
  | .str s => reprText s
  | .list items => "[" ++ join ", " (reprItems items) ++ "]"
  | .tuple items =>
      match reprItems items with
      | [one] => "(" ++ one ++ ",)"
      | texts => "(" ++ join ", " texts ++ ")"
  | .dict entries => "\x7b" ++ join ", " (reprEntries entries) ++ "\x7d"

def reprItems : List Value → List String
  | [] => []
  | v :: rest => v.repr :: reprItems rest

def reprEntries : List (Key × Value) → List String
  | [] => []
  | (k, v) :: rest => (k.repr ++ ": " ++ v.repr) :: reprEntries rest

end

/-- `str(value)`. -/
def Value.toText : Value → String
  | .str s => s
  | v => v.repr

/-- A value that has to be a finite number; `label` names it in the messages. -/
def Value.toFinite (label : String) (v : Value) : Except PyError Decimal.Finite :=
  match v with
  | .bool _ => .error (.valueError (label ++ " must be numeric"))
  | _ =>
    match decimalOfText v.toText with
    | .ok (.finite d) => .ok d
    | .ok _ => .error (.valueError (label ++ " must be finite"))
    | .error _ => .error (.valueError (label ++ " must be numeric"))

/-- The same, and positive. -/
def Value.toPositive (label : String) (v : Value) : Except PyError Decimal.Positive := do
  let d ← v.toFinite label
  if h : 0 < d.val then return ⟨d, h⟩
  throw (.valueError (label ++ " must be positive"))

theorem Value.toFinite_onlyValueErrors (label : String) (v : Value) :
    OnlyValueErrors (v.toFinite label) := by
  unfold Value.toFinite
  split
  · exact OnlyValueErrors.valueError _
  · split
    · exact OnlyValueErrors.ok _
    · exact OnlyValueErrors.valueError _
    · exact OnlyValueErrors.valueError _

theorem Value.toPositive_eq_ok {label : String} {v : Value} {p : Decimal.Positive} :
    v.toPositive label = .ok p ↔ v.toFinite label = .ok p.toFinite := by
  unfold Value.toPositive
  rw [bind_eq_ok]
  constructor
  · rintro ⟨d, hd, h⟩
    split at h
    · rw [hd, ← Except.ok.inj h]
    · cases h
  · intro h
    exact ⟨p.toFinite, h, by rw [dif_pos p.pos]; rfl⟩

end Representation

end Python
