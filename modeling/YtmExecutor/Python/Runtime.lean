/-
What a Python program takes from its interpreter.

Texts are sequences of Unicode scalar values.  What the character database says of ASCII
is spelled out wherever it is used; for all other characters it is a table of the
`Runtime`, about which nothing is assumed.  The same goes for what depends on the
machine: reading a date without an offset needs the local time zone, and a long text needs
memory.  A text that some context bounds is taken to fit.

`PyError` is an exception.  `valueError` stands for `ValueError` and everything derived
from it, because that is the line along which `except ValueError` divides exceptions.
-/
import YtmExecutor.Decimal.Number

namespace Python

inductive PyError where
  | valueError (message : String)
  | decimal (signal : Decimal.Signal)
  | other (kind message : String)
  deriving DecidableEq

/-- Taken by `except ValueError`. -/
def PyError.isValueError : PyError → Bool
  | .valueError _ => true
  | _ => false

/-- A computation that came to a value went through its first step. -/
theorem bind_eq_ok {ε α β : Type} {x : Except ε α} {f : α → Except ε β} {b : β} :
    (x >>= f) = .ok b ↔ ∃ a, x = .ok a ∧ f a = .ok b := by
  cases x with
  | error e => simp [bind, Except.bind]
  | ok a => simp [bind, Except.bind]

theorem toOption_eq_some {ε α : Type} {x : Except ε α} {a : α} :
    x.toOption = some a ↔ x = .ok a := by
  cases x <;> simp [Except.toOption]

theorem toOption_bind {ε α β : Type} (x : Except ε α) (f : α → Except ε β) :
    (x >>= f).toOption = x.toOption.bind fun a => (f a).toOption := by
  cases x <;> rfl

/-- A value that passes a check is there. -/
theorem exists_ok {ε α : Type} (x : Except ε α) (check : α → Bool)
    (h : x.toOption.any check = true) : ∃ a, x = .ok a ∧ check a = true := by
  cases x with
  | ok a => exact ⟨a, rfl, h⟩
  | error e => cases h

theorem exists_error {ε α : Type} {x : Except ε α} (h : x.toOption.isNone = true) :
    ∃ e, x = .error e := by
  cases x with
  | ok a => cases h
  | error e => exact ⟨e, rfl⟩

/-- `if c: raise ValueError(message)`. -/
def raiseIf (c : Prop) [Decidable c] (message : String) : Except PyError Unit :=
  if c then .error (.valueError message) else .ok ()

theorem raiseIf_eq_ok {c : Prop} [Decidable c] {message : String} {u : Unit} :
    raiseIf c message = .ok u ↔ ¬c := by
  unfold raiseIf
  by_cases h : c
  · simp [h]
  · simp [h]

/-- Nothing but a `ValueError` is raised. -/
def OnlyValueErrors {α : Type} (x : Except PyError α) : Prop :=
  ∀ e, x = .error e → e.isValueError = true

namespace OnlyValueErrors

variable {α β : Type} {x : Except PyError α}

theorem ok (a : α) : OnlyValueErrors (.ok a) := fun _ h => by cases h

theorem valueError (message : String) :
    OnlyValueErrors (.error (.valueError message) : Except PyError α) := fun _ h => by
  cases h
  rfl

theorem raiseIf (c : Prop) [Decidable c] (message : String) :
    OnlyValueErrors (raiseIf c message) := by
  unfold Python.raiseIf
  split
  · exact valueError message
  · exact ok ()

theorem bind {f : α → Except PyError β} (h : OnlyValueErrors x)
    (hf : ∀ a, x = .ok a → OnlyValueErrors (f a)) : OnlyValueErrors (x >>= f) := by
  cases x with
  | error e => exact fun e' h' => h e' (by cases h'; rfl)
  | ok a => exact hf a rfl

end OnlyValueErrors

/-- A decimal signal is raised as an exception. -/
def raiseSignal {α : Type} : Except Decimal.Signal α → Except PyError α
  | .ok a => .ok a
  | .error e => .error (.decimal e)

theorem raiseSignal_eq_ok {α : Type} {x : Except Decimal.Signal α} {a : α} :
    raiseSignal x = .ok a ↔ x = .ok a := by
  cases x <;> simp [raiseSignal]

class Runtime where
  /-- Case mappings of texts that are not all ASCII. -/
  lower : String → String
  upper : String → String
  /-- Classes of the characters beyond ASCII. -/
  isAlnum : Char → Bool
  isPrintable : Char → Bool
  decimalDigit : Char → Option ℕ
  /-- `datetime.fromisoformat(text).astimezone(UTC)`, in microseconds since the epoch. -/
  fromIsoFormat : String → Except PyError ℤ
  /-- The host `urlparse` finds in a URL, or what it raises. -/
  urlHostname : String → Except PyError (Option String)
  /-- The host `urlopen` connects to for a URL, in lower case: it takes what stands before the
  path, percent-decodes it, and leaves the port out. -/
  urlopenHost : String → Option String
  /-- Whether there is memory for a text of so many characters. -/
  memoryFor : ℕ → Bool
  /-- The shortest text that reads back as the double nearest to a number. -/
  floatText : ℚ → String

def hexDigit? (c : Char) : Option ℕ :=
  if c.isDigit then some (c.toNat - 48)
  else if 97 ≤ c.toNat ∧ c.toNat ≤ 102 then some (c.toNat - 87)
  else if 65 ≤ c.toNat ∧ c.toNat ≤ 70 then some (c.toNat - 55)
  else none

/-- `unquote` of a text whose escapes are all of ASCII characters. -/
def unquoteAscii : List Char → List Char
  | '%' :: high :: low :: rest =>
      match hexDigit? high, hexDigit? low with
      | some h, some l => Char.ofNat (16 * h + l) :: unquoteAscii rest
      | _, _ => '%' :: unquoteAscii (high :: low :: rest)
  | c :: rest => c :: unquoteAscii rest
  | [] => []

/-- A runtime for programs that meet ASCII text only, plain HTTPS URLs and the listed dates, with
a gigabyte for each text. -/
@[reducible] def asciiRuntime (dates : List (String × ℤ)) : Runtime where
  lower text := text
  upper text := text
  isAlnum _ := false
  isPrintable _ := false
  decimalDigit _ := none
  fromIsoFormat text :=
    match dates.lookup text with
    | some t => .ok t
    | none => .error (.valueError ("Invalid isoformat string: " ++ text))
  urlHostname url :=
    let host := (url.toList.drop "https://".length).takeWhile (· ≠ '/')
    .ok (if host = [] then none else some (String.ofList host))
  urlopenHost url :=
    let host := unquoteAscii ((url.toList.drop "https://".length).takeWhile (· ≠ '/'))
    if host = [] then none else some (String.ofList host)
  memoryFor length := decide (length ≤ 1000000000)
  floatText _ := "1.0"

/-! ### The decimal context -/

/-- The context every thread starts with: 28 digits, exponents to 999999. -/
def defaultContext : Decimal.Context := Decimal.Context.ofPrecision 28 (-999999) 999999

/-- A number at 28 digits. -/
def rounded28 (q : ℚ) : ℚ := Decimal.Context.rounded 28 (-999999) q

theorem rounded28_of_fix {q r : ℚ} (h : defaultContext.fix q = .ok r) : rounded28 q = r :=
  (Decimal.fix_eq_rounded h).symm

end Python
