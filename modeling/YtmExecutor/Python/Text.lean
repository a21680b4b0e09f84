/-
Python's text operations.

Everything is defined on lists of characters, so that a closed term can be evaluated.
ASCII is read here; other characters go to the tables of the `Runtime`.
-/
import YtmExecutor.Python.Runtime
import Mathlib.Data.List.DropRight

namespace Python

def isAscii (c : Char) : Bool := decide (c.toNat < 128)

/-- `str.isspace` of one character. -/
def isSpace (c : Char) : Bool :=
  let n := c.toNat
  decide (9 ≤ n ∧ n ≤ 13) || decide (28 ≤ n ∧ n ≤ 32) || decide (8192 ≤ n ∧ n ≤ 8202)
    || [133, 160, 5760, 8232, 8233, 8239, 8287, 12288].contains n

def stripChars (cs : List Char) : List Char :=
  ((cs.dropWhile isSpace).reverse.dropWhile isSpace).reverse

/-- `str.strip()`. -/
def strip (s : String) : String := String.ofList (stripChars s.toList)

/-- `str.replace(old, new)` for a text `old` of one character. -/
def replaceChar (old : Char) (new : String) (s : String) : String :=
  String.ofList (s.toList.flatMap fun c => if c = old then new.toList else [c])

/-- `str.rstrip(c)`. -/
def rstripChar (c : Char) (s : String) : String :=
  String.ofList (s.toList.reverse.dropWhile (· = c)).reverse

theorem rstripChar_rstripChar (c : Char) (s : String) :
    rstripChar c (rstripChar c s) = rstripChar c s := by
  have hstrip : ∀ s, rstripChar c s = String.ofList (s.toList.rdropWhile (· = c)) := fun _ => rfl
  rw [hstrip (rstripChar c s), hstrip s, String.toList_ofList, List.rdropWhile_idempotent]

/-- What is left of a text after stripping has nothing to strip. -/
theorem stripChars_stripChars (cs : List Char) : stripChars (stripChars cs) = stripChars cs := by
  have hstrip : ∀ cs, stripChars cs = (cs.dropWhile isSpace).rdropWhile isSpace := fun _ => rfl
  have hfront : (stripChars cs).dropWhile isSpace = stripChars cs := by
    rw [hstrip]
    obtain ⟨rest, hrest⟩ := List.rdropWhile_prefix isSpace (cs.dropWhile isSpace)
    cases hcs : (cs.dropWhile isSpace).rdropWhile isSpace with
    | nil => rfl
    | cons c front =>
        have hc : isSpace c = false := by
          have hhead := List.head?_dropWhile_not isSpace cs
          rw [← hrest, hcs] at hhead
          simpa using hhead
        rw [List.dropWhile_cons_of_neg (by simp [hc])]
  rw [hstrip (stripChars cs), hfront, hstrip, List.rdropWhile_idempotent]

theorem strip_strip (s : String) : strip (strip s) = strip s := by
  rw [strip, strip, String.toList_ofList, stripChars_stripChars]

/-- Stripping stops at what is no blank. -/
theorem prefix_stripChars {c d : Char} {front rest : List Char} (hc : isSpace c = false)
    (hd : isSpace d = false) : c :: (front ++ [d]) <+: stripChars (c :: (front ++ [d]) ++ rest) := by
  unfold stripChars
  rw [List.cons_append, List.dropWhile_cons_of_neg (by simp [hc])]
  have hreverse : (c :: (front ++ [d] ++ rest)).reverse = rest.reverse ++ d :: (c :: front).reverse := by
    simp
  have hstop : (d :: (c :: front).reverse).dropWhile isSpace = d :: (c :: front).reverse :=
    List.dropWhile_cons_of_neg (by simp [hd])
  rw [hreverse, List.dropWhile_append, hstop]
  split
  · simp
  · exact ⟨(rest.reverse.dropWhile isSpace).reverse, by simp⟩

/-- A text that came out of a replacement without a character of the new text is unchanged. -/
theorem eq_of_replaceChar {old c : Char} {new s t : String} (hnew : c ∈ new.toList)
    (hc : c ∉ t.toList) (h : replaceChar old new s = t) : s = t := by
  have hold : old ∉ s.toList := by
    intro hmem
    refine hc ?_
    rw [← h, replaceChar, String.toList_ofList]
    exact List.mem_flatMap.mpr ⟨old, hmem, by simpa using hnew⟩
  have hid : ∀ cs : List Char, old ∉ cs →
      (cs.flatMap fun c => if c = old then new.toList else [c]) = cs := by
    intro cs hcs
    induction cs with
    | nil => rfl
    | cons c cs ih =>
        rw [List.mem_cons, not_or] at hcs
        rw [List.flatMap_cons, if_neg (Ne.symm hcs.1), ih hcs.2]
        rfl
  rw [← h, replaceChar, hid _ hold, String.ofList_toList]

/-- `separator.join(texts)`. -/
def join (separator : String) : List String → String
  | [] => ""
  | [s] => s
  | s :: rest => s ++ separator ++ join separator rest

section Tables

variable [Runtime]

/-- `str.lower()`. -/
def lower (s : String) : String :=
  if s.toList.all isAscii then String.ofList (s.toList.map Char.toLower) else Runtime.lower s

/-- `str.upper()`. -/
def upper (s : String) : String :=
  if s.toList.all isAscii then String.ofList (s.toList.map Char.toUpper) else Runtime.upper s

/-- `str.isalnum()` of one character. -/
def isAlnum (c : Char) : Bool := if isAscii c then c.isAlphanum else Runtime.isAlnum c

/-- `str.isprintable()` of one character. -/
def isPrintable (c : Char) : Bool :=
  if isAscii c then decide (32 ≤ c.toNat ∧ c.toNat < 127) else Runtime.isPrintable c

/-- The digit a character is in its script. -/
def decimalDigit (c : Char) : Option ℕ :=
  if isAscii c then if c.isDigit then some (Decimal.digitOf c) else none
  else Runtime.decimalDigit c

/-! ### Representations -/

def hexDigits (width n : ℕ) : List Char :=
  let ds := Nat.toDigits 16 n
  List.replicate (width - ds.length) '0' ++ ds

/-- One character as `repr` writes it between quotes `quote`. -/
def reprChar (quote : Char) (c : Char) : List Char :=
  let escape := Char.ofNat 92
  if c = quote ∨ c = escape then [escape, c]
  else if c.toNat = 9 then [escape, 't']
  else if c.toNat = 10 then [escape, 'n']
  else if c.toNat = 13 then [escape, 'r']
  else if isPrintable c then [c]
  else if c.toNat < 256 then [escape, 'x'] ++ hexDigits 2 c.toNat
  else if c.toNat < 65536 then [escape, 'u'] ++ hexDigits 4 c.toNat
  else [escape, 'U'] ++ hexDigits 8 c.toNat

/-- `repr` of a text. -/
def reprText (s : String) : String :=
  let single := Char.ofNat 39
  let double := Char.ofNat 34
  let quote := if s.toList.contains single && !s.toList.contains double then double else single
  String.ofList ([quote] ++ s.toList.flatMap (reprChar quote) ++ [quote])

/-! ### Decimals from text -/

/-- `Decimal(text)`. -/
def decimalOfText (s : String) : Except PyError Decimal.Number :=
  match Decimal.parse decimalDigit ((stripChars s.toList).filter (· ≠ '_')) with
  | some literal =>
      if literal.fits then .ok literal.toNumber else .error (.decimal .invalidOperation)
  | none => .error (.decimal .invalidOperation)

end Tables

/-! ### Decimals written and read back -/

theorem isAscii_of_isDigit {c : Char} (h : c.isDigit = true) : isAscii c = true := by
  simp only [Char.isDigit, Bool.and_eq_true, decide_eq_true_eq] at h
  have hle : c.toNat ≤ 57 := h.2
  simp only [isAscii, decide_eq_true_eq]
  omega

theorem isSpace_of_isDigit {c : Char} (h : c.isDigit = true) : isSpace c = false := by
  simp only [Char.isDigit, Bool.and_eq_true, decide_eq_true_eq] at h
  have hlow : 48 ≤ c.toNat := h.1
  have hhigh : c.toNat ≤ 57 := h.2
  simp only [isSpace, Bool.or_eq_false_iff, decide_eq_false_iff_not, List.contains_eq_mem,
    List.mem_cons, List.not_mem_nil, or_false]
  omega

theorem stripChars_of_no_space {cs : List Char} (h : ∀ c ∈ cs, isSpace c = false) :
    stripChars cs = cs := by
  have hdrop : ∀ xs : List Char, (∀ c ∈ xs, isSpace c = false) → xs.dropWhile isSpace = xs := by
    intro xs hxs
    cases xs with
    | nil => rfl
    | cons x xs => simp [hxs x (by simp)]
  unfold stripChars
  rw [hdrop cs h, hdrop cs.reverse (by simpa using h), List.reverse_reverse]

theorem plainChars_cases {q : ℚ} {c : Char} (h : c ∈ Decimal.plainChars q) :
    c.isDigit = true ∨ c = '-' ∨ c = '.' := by
  have hdigit : ∀ c ∈ Decimal.paddedDigits q, c.isDigit = true :=
    fun c hc => Decimal.paddedDigits_isDigit hc
  simp only [Decimal.plainChars, List.mem_append] at h
  rcases h with (hsign | hwhole) | hfraction
  · split at hsign
    · exact Or.inr (Or.inl (by simpa using hsign))
    · simp at hsign
  · exact Or.inl (hdigit c (List.mem_of_mem_take hwhole))
  · split at hfraction
    · simp at hfraction
    · rcases List.mem_cons.mp hfraction with hpoint | hrest
      · exact Or.inr (Or.inr hpoint)
      · exact Or.inl (hdigit c (List.mem_of_mem_drop hrest))

section ReadBack

variable [Runtime]

theorem readsDigits_decimalDigit : Decimal.ReadsDigits decimalDigit where
  ascii c h := by
    rw [decimalDigit, if_pos (isAscii_of_isDigit h), if_pos h]
  point := rfl

/-- A plain decimal text is read as the number it denotes, if that fits. -/
theorem decimalOfText_plainText {d : Decimal.Finite} {literal : Decimal.Literal}
    (hparse : Decimal.parse decimalDigit (Decimal.plainChars d.val) = some literal)
    (hfits : literal.fits = true) :
    decimalOfText (Decimal.plainText d.val) = .ok (.finite d) := by
  have hstrip : stripChars (Decimal.plainChars d.val) = Decimal.plainChars d.val := by
    apply stripChars_of_no_space
    intro c hc
    rcases plainChars_cases hc with h | rfl | rfl
    · exact isSpace_of_isDigit h
    · rfl
    · rfl
  have hfilter : (Decimal.plainChars d.val).filter (· ≠ '_') = Decimal.plainChars d.val := by
    rw [List.filter_eq_self]
    intro c hc
    rcases plainChars_cases hc with h | rfl | rfl
    · simpa using Decimal.isDigit_ne h '_' rfl
    · rfl
    · rfl
  have hval := Decimal.parse_plainText readsDigits_decimalDigit d.isDecimal
  rw [Decimal.plainText, String.toList_ofList, hparse, Option.bind_some] at hval
  unfold decimalOfText
  rw [Decimal.plainText, String.toList_ofList, hstrip, hfilter, hparse]
  simp only [hfits, if_true]
  cases literal with
  | finite negative coefficient exponent =>
      rcases d with ⟨val, hd⟩
      simp only [Decimal.Literal.value?, Option.some.injEq] at hval
      simp only [Decimal.Literal.toNumber, hval]
  | infinity negative => simp [Decimal.Literal.value?] at hval
  | nan signaling => simp [Decimal.Literal.value?] at hval

/-- **A number the default context holds survives being written and read.** -/
theorem decimalOfText_of_holds {d : Decimal.Finite} (h : defaultContext.Holds d.val) :
    decimalOfText (Decimal.plainText d.val) = .ok (.finite d) := by
  obtain ⟨hplaces, hsize⟩ := Decimal.fits_of_holds (k := 1000026) (by norm_num) (by norm_num) h
  refine decimalOfText_plainText (Decimal.parse_plainChars readsDigits_decimalDigit d.val) ?_
  have hlow : Decimal.minPlace ≤ -(Decimal.places d.val.den : ℤ) := by
    unfold Decimal.minPlace
    omega
  have hhigh := hsize.trans (show (999999 : ℤ) ≤ Decimal.maxExponent by decide)
  exact Bool.and_eq_true_iff.mpr ⟨decide_eq_true hlow, decide_eq_true hhigh⟩

end ReadBack

end Python
