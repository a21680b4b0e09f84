/-
JSON as a text: `json.dumps(value, indent=2)` of a tree, and `json.loads` of a text.

The reader takes one character after the other.  Its state is what it is in the middle of
(`Mode`) and the arrays and objects around that (`Frame`), so reading on from where a text
was cut is reading the whole text (`run_append`).  This is what a file asks for that was
written in part: `parse_cut` says that no text that opens an array or an object can be cut
short and still be read.

The reader differs from Python's in one point.  An escape of half a surrogate pair makes a
text in Python that is not one of Unicode scalar values; here it is an error.
-/
import YtmExecutor.Python.Json

namespace Python

namespace Json

/-! ### Numbers -/

def isDigits (cs : List Char) : Bool := !cs.isEmpty && cs.all Char.isDigit

/-- `([eE][-+]?\d+)?`. -/
def isExponent : List Char → Bool
  | [] => true
  | c :: '+' :: cs => (c = 'e' || c = 'E') && isDigits cs
  | c :: '-' :: cs => (c = 'e' || c = 'E') && isDigits cs
  | c :: cs => (c = 'e' || c = 'E') && isDigits cs

/-- `(\.\d+)?([eE][-+]?\d+)?`. -/
def isFraction : List Char → Bool
  | '.' :: cs => isDigits (cs.takeWhile Char.isDigit) && isExponent (cs.dropWhile Char.isDigit)
  | cs => isExponent cs

def unsigned : List Char → List Char
  | '-' :: cs => cs
  | cs => cs

/-- The digits before the point. -/
def wholePart (cs : List Char) : List Char := (unsigned cs).takeWhile Char.isDigit

def restPart (cs : List Char) : List Char := (unsigned cs).dropWhile Char.isDigit

/-- `0|[1-9]\d*`. -/
def isWhole (cs : List Char) : Bool := isDigits cs && (cs.length = 1 || cs.head? ≠ some '0')

def isIntLiteral (cs : List Char) : Bool := isWhole (wholePart cs) && (restPart cs).isEmpty

def isFloatLiteral (cs : List Char) : Bool :=
  isWhole (wholePart cs) && !(restPart cs).isEmpty && isFraction (restPart cs)

/-- `repr(float(literal))`: a text that reads as the same double, or the name of an infinity. -/
class FloatRepr where
  floatRepr : List Char → String
  stable : ∀ literal, isFloatLiteral literal = true →
    floatRepr literal ∈ ["inf", "-inf"] ∨ isFloatLiteral (floatRepr literal).toList = true ∧
      floatRepr (floatRepr literal).toList = floatRepr literal

def intOf (cs : List Char) : ℤ :=
  let n : ℤ := Decimal.digitsVal ((wholePart cs).map Decimal.digitOf)
  if cs.head? = some '-' then -n else n

def numberOf [FloatRepr] (cs : List Char) : Option Json :=
  if isIntLiteral cs then some (.int (intOf cs))
  else if isFloatLiteral cs then some (.float (FloatRepr.floatRepr cs))
  else none

def isNumberChar (c : Char) : Bool := c.isDigit || decide (c ∈ ['-', '+', '.', 'e', 'E'])

/-! ### Writing -/

def unicodeEscape (n : ℕ) : List Char :=
  '\\' :: 'u' :: [4096, 256, 16, 1].map fun place => Nat.digitChar (n / place % 16)

/-- One character between the quotes, in ASCII. -/
def escapeChar (c : Char) : List Char :=
  if c = '"' then ['\\', '"']
  else if c = '\\' then ['\\', '\\']
  else if c.toNat = 10 then ['\\', 'n']
  else if c.toNat = 13 then ['\\', 'r']
  else if c.toNat = 9 then ['\\', 't']
  else if c.toNat = 12 then ['\\', 'f']
  else if c.toNat = 8 then ['\\', 'b']
  else if 32 ≤ c.toNat ∧ c.toNat ≤ 126 then [c]
  else if c.toNat < 0x10000 then unicodeEscape c.toNat
  else unicodeEscape (0xD800 + (c.toNat - 0x10000) / 1024) ++
    unicodeEscape (0xDC00 + (c.toNat - 0x10000) % 1024)

def stringText (s : String) : List Char := '"' :: (s.toList.flatMap escapeChar ++ ['"'])

def floatText (text : String) : List Char :=
  if text = "nan" then "NaN".toList else if text = "inf" then "Infinity".toList
  else if text = "-inf" then "-Infinity".toList else text.toList

/-- A new line, indented to a level. -/
def newline (level : ℕ) : List Char := '\n' :: List.replicate (2 * level) ' '

mutual

/-- `json.dumps(value, indent=2)`, from a level of indentation on. -/
def text (level : ℕ) : Json → List Char
  | .null => "null".toList
  | .bool true => "true".toList
  | .bool false => "false".toList
  | .int n => (toString n).toList
  | .float literal => floatText literal
  | .str s => stringText s
  | .array [] => ['[', ']']
  | .array (j :: rest) =>
      '[' :: (newline (level + 1) ++ (text (level + 1) j ++
        (itemsText (level + 1) rest ++ (newline level ++ [']']))))
  | .object [] => ['{', '}']
  | .object ((key, j) :: rest) =>
      '{' :: (newline (level + 1) ++ (stringText key ++ (':' :: ' ' :: (text (level + 1) j ++
        (fieldsText (level + 1) rest ++ (newline level ++ ['}']))))))

/-- The items after the first. -/
def itemsText (level : ℕ) : List Json → List Char
  | [] => []
  | j :: rest => ',' :: (newline level ++ (text level j ++ itemsText level rest))

def fieldsText (level : ℕ) : List (String × Json) → List Char
  | [] => []
  | (key, j) :: rest =>
      ',' :: (newline level ++ (stringText key ++ (':' :: ' ' :: (text level j ++
        fieldsText level rest))))

end

/-! ### Reading -/

/-- What a value that is read goes into; what is there already comes last first. -/
inductive Frame where
  | array (items : List Json)
  | object (fields : List (String × Json)) (key : String)

/-- Where the reader is in a string.  After the escape of a high surrogate the low one must
follow. -/
inductive Escape where
  | plain
  | backslash
  | unit (high : Option ℕ) (count value : ℕ)
  | high (n : ℕ)
  | highBackslash (n : ℕ)

/-- What comes next. -/
inductive Mode where
  | value
  | arrayStart
  | fieldStart (fields : List (String × Json)) (first : Bool)
  | colon (fields : List (String × Json)) (key : String)
  | afterItem (items : List Json)
  | afterField (fields : List (String × Json))
  | done (j : Json)
  /-- The rest of a string: a value, or a key after these fields. -/
  | string (fields : Option (List (String × Json))) (chars : List Char) (escape : Escape)
  | number (chars : List Char)
  /-- The rest of a word. -/
  | literal (rest : List Char) (j : Json)

abbrev State := Mode × List Frame

def isBlank (c : Char) : Bool := decide (c ∈ [' ', '\t', '\n', '\r'])

/-- A value goes where it belongs. -/
def complete (j : Json) : List Frame → State
  | [] => (.done j, [])
  | .array items :: stack => (.afterItem (j :: items), stack)
  | .object fields key :: stack => (.afterField ((key, j) :: fields), stack)

def startValue (c : Char) (stack : List Frame) : Option State :=
  if c = '"' then some (.string none [] .plain, stack)
  else if c = '{' then some (.fieldStart [] true, stack)
  else if c = '[' then some (.arrayStart, stack)
  else if c = 'n' then some (.literal "ull".toList .null, stack)
  else if c = 't' then some (.literal "rue".toList (.bool true), stack)
  else if c = 'f' then some (.literal "alse".toList (.bool false), stack)
  else if c = 'N' then some (.literal "aN".toList (.float "nan"), stack)
  else if c = 'I' then some (.literal "nfinity".toList (.float "inf"), stack)
  else if c = '-' ∨ c.isDigit then some (.number [c], stack)
  else none

/-- What a backslash makes of a character. -/
def unescape (c : Char) : Option Char :=
  if c = '"' ∨ c = '\\' ∨ c = '/' then some c
  else if c = 'b' then some (Char.ofNat 8)
  else if c = 'f' then some (Char.ofNat 12)
  else if c = 'n' then some '\n'
  else if c = 'r' then some '\r'
  else if c = 't' then some '\t'
  else none

def hexValue (c : Char) : Option ℕ :=
  if 48 ≤ c.toNat ∧ c.toNat ≤ 57 then some (c.toNat - 48)
  else if 97 ≤ c.toNat ∧ c.toNat ≤ 102 then some (c.toNat - 87)
  else if 65 ≤ c.toNat ∧ c.toNat ≤ 70 then some (c.toNat - 55)
  else none

/-- A code unit, after a high surrogate or not. -/
def codeUnit (chars : List Char) (high : Option ℕ) (n : ℕ) : Option (List Char × Option Escape) :=
  match high with
  | none =>
      if 0xD800 ≤ n ∧ n < 0xDC00 then some (chars, some (.high n))
      else if 0xDC00 ≤ n ∧ n < 0xE000 then none
      else some (Char.ofNat n :: chars, some .plain)
  | some h =>
      if 0xDC00 ≤ n ∧ n < 0xE000 then
        some (Char.ofNat (0x10000 + (h - 0xD800) * 1024 + (n - 0xDC00)) :: chars, some .plain)
      else none

/-- One character of a string; without an escape to go on with, the string is closed. -/
def stringStep (chars : List Char) (escape : Escape) (c : Char) :
    Option (List Char × Option Escape) :=
  match escape with
  | .plain =>
      if c = '"' then some (chars, none)
      else if c = '\\' then some (chars, some .backslash)
      else if c.toNat < 32 then none
      else some (c :: chars, some .plain)
  | .backslash =>
      if c = 'u' then some (chars, some (.unit none 0 0))
      else (unescape c).map fun d => (d :: chars, some .plain)
  | .unit high count value =>
      (hexValue c).bind fun d =>
        if count < 3 then some (chars, some (.unit high (count + 1) (16 * value + d)))
        else codeUnit chars high (16 * value + d)
  | .high n => if c = '\\' then some (chars, some (.highBackslash n)) else none
  | .highBackslash n => if c = 'u' then some (chars, some (.unit (some n) 0 0)) else none

def closeString (fields : Option (List (String × Json))) (s : String) (stack : List Frame) : State :=
  match fields with
  | none => complete (.str s) stack
  | some fields => (.colon fields s, stack)

/-- What may come after a value. -/
def afterValue : State → Char → Option State
  | (.afterItem items, stack), c =>
      if isBlank c then some (.afterItem items, stack)
      else if c = ',' then some (.value, .array items :: stack)
      else if c = ']' then some (complete (.array items.reverse) stack)
      else none
  | (.afterField fields, stack), c =>
      if isBlank c then some (.afterField fields, stack)
      else if c = ',' then some (.fieldStart fields false, stack)
      else if c = '}' then some (complete (.object fields.reverse) stack)
      else none
  | (.done j, stack), c => if isBlank c then some (.done j, stack) else none
  | _, _ => none

variable [FloatRepr]

def step : State → Char → Option State
  | (.value, stack), c => if isBlank c then some (.value, stack) else startValue c stack
  | (.arrayStart, stack), c =>
      if isBlank c then some (.arrayStart, stack)
      else if c = ']' then some (complete (.array []) stack)
      else startValue c (.array [] :: stack)
  | (.fieldStart fields first, stack), c =>
      if isBlank c then some (.fieldStart fields first, stack)
      else if c = '"' then some (.string (some fields) [] .plain, stack)
      else if first ∧ c = '}' then some (complete (.object []) stack)
      else none
  | (.colon fields key, stack), c =>
      if isBlank c then some (.colon fields key, stack)
      else if c = ':' then some (.value, .object fields key :: stack)
      else none
  | (.string fields chars escape, stack), c =>
      (stringStep chars escape c).map fun next =>
        match next with
        | (chars, some escape) => (.string fields chars escape, stack)
        | (chars, none) => closeString fields (String.ofList chars.reverse) stack
  | (.number chars, stack), c =>
      if isNumberChar c then some (.number (c :: chars), stack)
      else if chars = ['-'] ∧ c = 'I' then some (.literal "nfinity".toList (.float "-inf"), stack)
      else (numberOf chars.reverse).bind fun j => afterValue (complete j stack) c
  | (.literal [] _, _), _ => none
  | (.literal [d] j, stack), c => if c = d then some (complete j stack) else none
  | (.literal (d :: rest) j, stack), c => if c = d then some (.literal rest j, stack) else none
  | state, c => afterValue state c

def run (state : State) : List Char → Option State
  | [] => some state
  | c :: cs => (step state c).bind fun next => run next cs

/-- The value that has been read when the text ends. -/
def finish : State → Option Json
  | (.done j, _) => some j
  | (.number chars, []) => numberOf chars.reverse
  | _ => none

/-- `json.loads`, as far as the tree. -/
def parse (cs : List Char) : Option Json := (run (.value, []) cs).bind finish

/-! ### Texts that are cut -/

theorem run_cons {state next : State} {c : Char} {cs : List Char} (h : step state c = some next) :
    run state (c :: cs) = run next cs := by
  rw [run, h, Option.bind_some]

theorem run_append (state : State) (front back : List Char) :
    run state (front ++ back) = (run state front).bind fun next => run next back := by
  induction front generalizing state with
  | nil => rfl
  | cons c cs ih =>
      rw [List.cons_append, run, run, Option.bind_assoc]
      exact Option.bind_congr fun next _ => ih next

/-- A number that is being read is in some array or object. -/
def Inside : State → Prop
  | (.value, stack) => stack ≠ []
  | (.number _, stack) => stack ≠ []
  | _ => True

omit [FloatRepr] in
theorem inside_complete (j : Json) (stack : List Frame) : Inside (complete j stack) := by
  rcases stack with _ | ⟨_ | _, stack⟩ <;> trivial

omit [FloatRepr] in
theorem inside_startValue {c : Char} {stack : List Frame} {next : State} (hstack : stack ≠ [])
    (h : startValue c stack = some next) : Inside next := by
  unfold startValue at h
  split_ifs at h <;> cases h <;> trivial

omit [FloatRepr] in
theorem inside_afterValue {state next : State} {c : Char} (h : afterValue state c = some next) :
    Inside next := by
  unfold afterValue at h
  split at h
  · split_ifs at h <;> cases h
    · trivial
    · exact List.cons_ne_nil _ _
    · exact inside_complete _ _
  · split_ifs at h <;> cases h
    · trivial
    · trivial
    · exact inside_complete _ _
  · split_ifs at h
    cases h
    trivial
  · cases h

theorem inside_step {state next : State} {c : Char} (hstate : Inside state)
    (h : step state c = some next) : Inside next := by
  unfold step at h
  split at h
  · split_ifs at h
    · cases h
      exact hstate
    · exact inside_startValue hstate h
  · split_ifs at h
    · cases h
      trivial
    · cases h
      exact inside_complete _ _
    · exact inside_startValue (List.cons_ne_nil _ _) h
  · split_ifs at h <;> cases h
    · trivial
    · trivial
    · exact inside_complete _ _
  · split_ifs at h <;> cases h
    · trivial
    · exact List.cons_ne_nil _ _
  · obtain ⟨⟨chars, escape⟩, _, rfl⟩ := Option.map_eq_some_iff.mp h
    rename_i fields _ _ _ _
    cases escape with
    | some escape => trivial
    | none =>
        cases fields with
        | none => exact inside_complete _ _
        | some fields => trivial
  · split_ifs at h
    · cases h
      exact hstate
    · cases h
      trivial
    · obtain ⟨_, _, h⟩ := Option.bind_eq_some_iff.mp h
      exact inside_afterValue h
  · cases h
  · split_ifs at h
    cases h
    exact inside_complete _ _
  · split_ifs at h
    cases h
    trivial
  · exact inside_afterValue h

theorem inside_run {state next : State} {cs : List Char} (hstate : Inside state)
    (h : run state cs = some next) : Inside next := by
  induction cs generalizing state with
  | nil =>
      cases h
      exact hstate
  | cons c cs ih =>
      obtain ⟨mid, hmid, h⟩ := Option.bind_eq_some_iff.mp h
      exact ih (inside_step hstate hmid) h

/-- After the value nothing but blanks may come. -/
theorem blank_of_run_done {j : Json} {stack : List Frame} {cs : List Char} {next : State}
    (h : run (.done j, stack) cs = some next) : ∀ c ∈ cs, isBlank c = true := by
  induction cs with
  | nil => exact List.forall_mem_nil _
  | cons c cs ih =>
      obtain ⟨mid, hmid, h⟩ := Option.bind_eq_some_iff.mp h
      change (if isBlank c then some (Mode.done j, stack) else none) = some mid at hmid
      split_ifs at hmid with hc
      cases hmid
      exact List.forall_mem_cons.mpr ⟨hc, ih h⟩

/-- **A text that opens an array or an object cannot be read when it is cut** anywhere before its
last character. -/
theorem parse_cut {c : Char} (hc : c = '{' ∨ c = '[') {cs front back : List Char}
    (hparse : (parse (c :: cs)).isSome) (hcut : c :: cs = front ++ back)
    (hback : ∃ d ∈ back, isBlank d = false) : parse front = none := by
  rw [hcut, parse, run_append] at hparse
  obtain ⟨j, hj⟩ := Option.isSome_iff_exists.mp hparse
  obtain ⟨last, hlast, _⟩ := Option.bind_eq_some_iff.mp hj
  obtain ⟨state, hstate, hlast⟩ := Option.bind_eq_some_iff.mp hlast
  rw [parse, hstate, Option.bind_some]
  have hinside : Inside state ∨ state = (.value, []) := by
    rcases front with _ | ⟨d, front⟩
    · cases hstate
      exact Or.inr rfl
    · cases (List.cons.inj hcut).1
      rcases hc with rfl | rfl
      · exact Or.inl (inside_run (show Inside (.fieldStart [] true, []) from trivial) hstate)
      · exact Or.inl (inside_run (show Inside (.arrayStart, []) from trivial) hstate)
  rcases hinside with hinside | rfl
  · unfold finish
    split
    · obtain ⟨d, hd, hblank⟩ := hback
      rw [blank_of_run_done hlast d hd] at hblank
      cases hblank
    · exact absurd rfl hinside
    · rfl
  · rfl

end Json

end Python
