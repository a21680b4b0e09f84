/-
What is written as JSON is read back.

A string is read escape by escape (`run_escapeChar`), a number to the character after it
(`run_literal`), and an array or object by induction on the tree (`run_text`): from where
a value is expected, its text leads to where the value has been read.  The floats of the
tree have to be spelled as Python spells them.
-/
import YtmExecutor.Python.JsonText

namespace Python

namespace Json

variable [FloatRepr]

/-! ### Strings -/

section Strings

variable {fields : Option (List (String × Json))} {chars next : List Char} {escape : Escape}
  {stack : List Frame}

theorem run_string {c : Char} {goOn : Escape} (h : stringStep chars escape c = some (next, some goOn))
    (rest : List Char) :
    run (.string fields chars escape, stack) (c :: rest) =
      run (.string fields next goOn, stack) rest := by
  refine run_cons ?_
  show (stringStep chars escape c).map _ = _
  rw [h]
  rfl

omit [FloatRepr] in
theorem hexValue_digitChar : ∀ d < 16, hexValue (Nat.digitChar d) = some d := by
  decide

/-- A code unit is read from its four digits. -/
theorem run_unicodeEscape {high : Option ℕ} {n : ℕ} {goOn : Escape} (hn : n < 0x10000)
    (h : codeUnit chars high n = some (next, some goOn)) (rest : List Char) :
    run (.string fields chars (.unit high 0 0), stack)
        (([4096, 256, 16, 1].map fun place => Nat.digitChar (n / place % 16)) ++ rest) =
      run (.string fields next goOn, stack) rest := by
  have hdigit : ∀ place, hexValue (Nat.digitChar (n / place % 16)) = some (n / place % 16) :=
    fun place => hexValue_digitChar _ (Nat.mod_lt _ (by decide))
  have hvalue : 16 * (16 * (16 * (16 * 0 + n / 4096 % 16) + n / 256 % 16) + n / 16 % 16) +
      n / 1 % 16 = n := by omega
  simp only [List.map_cons, List.map_nil, List.cons_append, List.nil_append]
  rw [run_string (by rw [stringStep, hdigit]; rfl), run_string (by rw [stringStep, hdigit]; rfl),
    run_string (by rw [stringStep, hdigit]; rfl)]
  refine run_string ?_ rest
  rw [stringStep, hdigit, Option.bind_some, if_neg (by decide), hvalue]
  exact h

omit [FloatRepr] in
theorem toNat_cases (c : Char) : c.toNat < 0xD800 ∨ 0xDFFF < c.toNat ∧ c.toNat < 0x110000 := c.valid

/-- **An escaped character is read as the character.** -/
theorem run_escapeChar (c : Char) (rest : List Char) :
    run (.string fields chars .plain, stack) (escapeChar c ++ rest) =
      run (.string fields (c :: chars) .plain, stack) rest := by
  have hshort : ∀ {d}, d ≠ 'u' → unescape d = some c →
      run (.string fields chars .plain, stack) ('\\' :: d :: rest) =
        run (.string fields (c :: chars) .plain, stack) rest := by
    intro d hd hunescape
    rw [run_string rfl]
    refine run_string ?_ rest
    rw [stringStep, if_neg hd, hunescape]
    rfl
  have hnamed : ∀ {n}, c.toNat = n → Char.ofNat n = c := fun h => h ▸ Char.ofNat_toNat c
  unfold escapeChar
  split_ifs with hquote hbackslash hn hr ht hf hb hplain hunit
  · exact hshort (by decide) (by rw [hquote]; rfl)
  · exact hshort (by decide) (by rw [hbackslash]; rfl)
  · exact hshort (by decide) (by rw [← hnamed hn]; rfl)
  · exact hshort (by decide) (by rw [← hnamed hr]; rfl)
  · exact hshort (by decide) (by rw [← hnamed ht]; rfl)
  · exact hshort (by decide) (by rw [← hnamed hf]; rfl)
  · exact hshort (by decide) (by rw [← hnamed hb]; rfl)
  · refine run_string ?_ rest
    rw [stringStep, if_neg hquote, if_neg hbackslash, if_neg (by omega)]
  · have hvalid := toNat_cases c
    rw [unicodeEscape, List.cons_append, List.cons_append, run_string rfl, run_string rfl]
    refine run_unicodeEscape hunit ?_ rest
    rw [codeUnit, if_neg (by omega), if_neg (by omega), Char.ofNat_toNat]
  · have hvalid := toNat_cases c
    simp only [unicodeEscape, List.append_assoc, List.cons_append]
    rw [run_string rfl, run_string rfl,
      run_unicodeEscape (by omega) (by rw [codeUnit, if_pos (by omega)]), run_string rfl,
      run_string rfl]
    refine run_unicodeEscape (by omega) ?_ rest
    have hchar : 0x10000 + (0xD800 + (c.toNat - 0x10000) / 1024 - 0xD800) * 1024 +
        (0xDC00 + (c.toNat - 0x10000) % 1024 - 0xDC00) = c.toNat := by omega
    rw [codeUnit, if_pos (by omega), hchar, Char.ofNat_toNat]

theorem run_escapeChars (cs rest : List Char) :
    run (.string fields chars .plain, stack) (cs.flatMap escapeChar ++ rest) =
      run (.string fields (cs.reverse ++ chars) .plain, stack) rest := by
  induction cs generalizing chars with
  | nil => rfl
  | cons c cs ih =>
      rw [List.flatMap_cons, List.append_assoc, run_escapeChar, ih, List.reverse_cons,
        List.append_assoc]
      rfl

/-- A string is read to its closing quote. -/
theorem run_stringText (s : String) (rest : List Char) :
    run (.string fields [] .plain, stack) ((s.toList.flatMap escapeChar ++ ['"']) ++ rest) =
      run (closeString fields s stack) rest := by
  rw [List.append_assoc, run_escapeChars, List.append_nil]
  refine run_cons ?_
  show some (closeString fields (String.ofList s.toList.reverse.reverse) stack) = _
  rw [List.reverse_reverse, String.ofList_toList]

end Strings

/-! ### Numbers -/

section Numbers

omit [FloatRepr]

theorem isNumberChar_of_isDigit {c : Char} (h : c.isDigit = true) : isNumberChar c = true := by
  rw [isNumberChar, h, Bool.true_or]

theorem isDigits_iff {cs : List Char} :
    isDigits cs = true ↔ cs ≠ [] ∧ ∀ c ∈ cs, c.isDigit = true := by
  simp [isDigits]

/-- A literal is its sign, its whole part and the rest. -/
theorem literal_parts (cs : List Char) :
    cs = wholePart cs ++ restPart cs ∨ cs = '-' :: (wholePart cs ++ restPart cs) := by
  unfold wholePart restPart
  rw [List.takeWhile_append_dropWhile]
  unfold unsigned
  split
  · exact Or.inr rfl
  · exact Or.inl rfl

theorem numberChars_of_isExponent {cs : List Char} (h : isExponent cs = true) :
    ∀ c ∈ cs, isNumberChar c = true := by
  have hdigits : ∀ {ds : List Char}, isDigits ds = true → ∀ c ∈ ds, isNumberChar c = true :=
    fun hds c hc => isNumberChar_of_isDigit ((isDigits_iff.mp hds).2 c hc)
  have hmark : ∀ {e : Char}, (e = 'e' || e = 'E') = true → isNumberChar e = true := by
    intro e he
    simp only [Bool.or_eq_true, decide_eq_true_eq] at he
    rcases he with rfl | rfl <;> decide
  unfold isExponent at h
  split at h
  · exact List.forall_mem_nil _
  · rw [Bool.and_eq_true] at h
    exact List.forall_mem_cons.mpr ⟨hmark h.1, List.forall_mem_cons.mpr ⟨by decide, hdigits h.2⟩⟩
  · rw [Bool.and_eq_true] at h
    exact List.forall_mem_cons.mpr ⟨hmark h.1, List.forall_mem_cons.mpr ⟨by decide, hdigits h.2⟩⟩
  · rw [Bool.and_eq_true] at h
    exact List.forall_mem_cons.mpr ⟨hmark h.1, hdigits h.2⟩

theorem numberChars_of_isFraction {cs : List Char} (h : isFraction cs = true) :
    ∀ c ∈ cs, isNumberChar c = true := by
  unfold isFraction at h
  split at h
  · rename_i ds
    rw [Bool.and_eq_true] at h
    refine List.forall_mem_cons.mpr ⟨by decide, ?_⟩
    rw [← List.takeWhile_append_dropWhile (p := Char.isDigit) (l := ds)]
    refine List.forall_mem_append.mpr ⟨?_, numberChars_of_isExponent h.2⟩
    exact fun c hc => isNumberChar_of_isDigit (List.mem_takeWhile_imp hc)
  · exact numberChars_of_isExponent h

/-- A literal that can be read is a first character and characters of numbers. -/
theorem literal_chars {cs : List Char} (hwhole : isWhole (wholePart cs) = true)
    (hrest : isFraction (restPart cs) = true) :
    (∀ c ∈ cs, isNumberChar c = true) ∧ ∃ c rest, cs = c :: rest ∧ (c = '-' ∨ c.isDigit = true) := by
  obtain ⟨hne, hdigits⟩ := isDigits_iff.mp (Bool.and_eq_true_iff.mp hwhole).1
  have hparts : ∀ c ∈ wholePart cs ++ restPart cs, isNumberChar c = true :=
    List.forall_mem_append.mpr ⟨fun c hc => isNumberChar_of_isDigit (hdigits c hc),
      numberChars_of_isFraction hrest⟩
  rcases literal_parts cs with h | h
  · refine ⟨fun c hc => hparts c (h ▸ hc), ?_⟩
    obtain ⟨c, whole, hc⟩ := List.exists_cons_of_ne_nil hne
    refine ⟨c, whole ++ restPart cs, ?_, Or.inr (hdigits c (hc ▸ List.mem_cons_self))⟩
    rw [← List.cons_append, ← hc]
    exact h
  · refine ⟨fun c hc => ?_, '-', _, h, Or.inl rfl⟩
    rw [h] at hc
    rcases List.mem_cons.mp hc with rfl | hc
    · decide
    · exact hparts c hc

/-- What follows a number is no part of it. -/
def Delimited (rest : List Char) : Prop := ∃ c cs, rest = c :: cs ∧ isNumberChar c = false

end Numbers

section Literals

variable {stack : List Frame}

theorem run_number (chars cs rest : List Char) (h : ∀ c ∈ cs, isNumberChar c = true) :
    run (.number chars, stack) (cs ++ rest) = run (.number (cs.reverse ++ chars), stack) rest := by
  induction cs generalizing chars with
  | nil => rfl
  | cons c cs ih =>
      rw [List.forall_mem_cons] at h
      have hstep : step (.number chars, stack) c = some (.number (c :: chars), stack) := if_pos h.1
      rw [List.cons_append, run_cons hstep, ih _ h.2, List.reverse_cons, List.append_assoc]
      rfl

omit [FloatRepr] in
theorem startValue_number {c : Char} (h : c = '-' ∨ c.isDigit = true) (stack : List Frame) :
    startValue c stack = some (.number [c], stack) := by
  have hne : ∀ d : Char, d.isDigit = false → d ≠ '-' → c ≠ d := by
    rintro d hd hminus rfl
    rcases h with h | h
    · exact hminus h
    · rw [hd] at h
      cases h
  unfold startValue
  rw [if_neg (hne _ (by decide) (by decide)), if_neg (hne _ (by decide) (by decide)),
    if_neg (hne _ (by decide) (by decide)), if_neg (hne _ (by decide) (by decide)),
    if_neg (hne _ (by decide) (by decide)), if_neg (hne _ (by decide) (by decide)),
    if_neg (hne _ (by decide) (by decide)), if_neg (hne _ (by decide) (by decide)), if_pos h]

theorem step_complete (j : Json) (stack : List Frame) (c : Char) :
    step (complete j stack) c = afterValue (complete j stack) c := by
  rcases stack with _ | ⟨_ | _, stack⟩ <;> rfl

/-- **A number is read when the character after it is seen.** -/
theorem run_literal {cs : List Char} {j : Json} (hj : numberOf cs = some j) {rest : List Char}
    (hrest : Delimited rest) :
    run (.number cs.reverse, stack) rest = run (complete j stack) rest := by
  obtain ⟨c, rest, rfl, hc⟩ := hrest
  have hminus : ¬(cs.reverse = ['-'] ∧ c = 'I') := by
    rintro ⟨hcs, _⟩
    rw [List.reverse_eq_iff] at hcs
    rw [hcs] at hj
    exact absurd hj (by simp [numberOf, isIntLiteral, isFloatLiteral, isWhole, isDigits, wholePart,
      unsigned])
  have hstep : step (.number cs.reverse, stack) c = step (complete j stack) c := by
    show (if isNumberChar c then _ else if cs.reverse = ['-'] ∧ c = 'I' then _ else
      (numberOf cs.reverse.reverse).bind fun j => afterValue (complete j stack) c) = _
    rw [if_neg (by rw [hc]; decide), if_neg hminus, List.reverse_reverse, hj, Option.bind_some,
      step_complete]
  rw [run, run, hstep]

theorem run_word {j : Json} (d : Char) (word rest : List Char) :
    run (.literal (d :: word) j, stack) ((d :: word) ++ rest) = run (complete j stack) rest := by
  induction word generalizing d with
  | nil =>
      have hstep : step (.literal [d] j, stack) d = some (complete j stack) := if_pos rfl
      exact run_cons hstep
  | cons e word ih =>
      have hstep : step (.literal (d :: e :: word) j, stack) d =
          some (.literal (e :: word) j, stack) := if_pos rfl
      rw [List.cons_append, run_cons hstep, ih]

end Literals

section Integers

omit [FloatRepr] in
/-- No integer but zero is written with a leading zero. -/
theorem head_toDigits {n : ℕ} (hn : 0 < n) : (Nat.toDigits 10 n).head? ≠ some '0' := by
  induction n using Nat.strong_induction_on with
  | _ n ih =>
      by_cases h : n < 10
      · rw [Nat.toDigits_of_lt_base h]
        have hdigit : ∀ d < 10, 0 < d → [Nat.digitChar d].head? ≠ some '0' := by decide
        exact hdigit n h hn
      · have hhead := ih (n / 10) (by omega) (by omega)
        obtain ⟨c, cs, hcs⟩ :=
          List.exists_cons_of_ne_nil (Nat.toDigits_ne_nil (n := n / 10) (b := 10))
        rw [Nat.toDigits_of_base_le (by omega) (by omega), hcs]
        rwa [hcs] at hhead

omit [FloatRepr] in
theorem isWhole_toDigits (n : ℕ) : isWhole (Nat.toDigits 10 n) = true := by
  have hdigits : isDigits (Nat.toDigits 10 n) = true :=
    isDigits_iff.mpr ⟨Nat.toDigits_ne_nil, fun c hc =>
      Nat.isDigit_of_mem_toDigits (by decide) (by decide) hc⟩
  rw [isWhole, hdigits, Bool.true_and]
  by_cases hn : n = 0
  · rw [hn, Nat.toDigits_zero]
    rfl
  · rw [decide_eq_true (head_toDigits (Nat.pos_of_ne_zero hn)), Bool.or_true]

omit [FloatRepr] in
theorem parts_of_isWhole {cs : List Char} (h : isWhole cs = true) :
    (wholePart cs = cs ∧ restPart cs = []) ∧
      wholePart ('-' :: cs) = cs ∧ restPart ('-' :: cs) = [] := by
  obtain ⟨hne, hdigits⟩ := isDigits_iff.mp (Bool.and_eq_true_iff.mp h).1
  have hunsigned : unsigned cs = cs := by
    unfold unsigned
    split
    · have := hdigits '-' List.mem_cons_self
      cases this
    · rfl
  have htake : cs.takeWhile Char.isDigit = cs := List.takeWhile_eq_self_iff.mpr hdigits
  have hdrop : cs.dropWhile Char.isDigit = [] := List.dropWhile_eq_nil_iff.mpr hdigits
  rw [wholePart, restPart, hunsigned]
  exact ⟨⟨htake, hdrop⟩, htake, hdrop⟩

/-- **What is written of an integer is read as the integer.** -/
theorem numberOf_toString (n : ℤ) : numberOf (toString n).toList = some (.int n) := by
  have hread : ∀ {k : ℕ} {cs : List Char}, wholePart cs = Nat.toDigits 10 k → restPart cs = [] →
      numberOf cs = some (.int (if cs.head? = some '-' then -(k : ℤ) else k)) := by
    intro k cs hwhole hrest
    rw [numberOf, if_pos (by rw [isIntLiteral, hwhole, hrest, isWhole_toDigits]; rfl), intOf, hwhole,
      Decimal.digitsVal_toDigits]
  cases n with
  | ofNat k =>
      have htext : (toString (Int.ofNat k)).toList = Nat.toDigits 10 k := Nat.toList_repr
      obtain ⟨⟨hwhole, hrest⟩, _⟩ := parts_of_isWhole (isWhole_toDigits k)
      have hminus : (Nat.toDigits 10 k).head? ≠ some '-' := by
        intro h
        have := Nat.isDigit_of_mem_toDigits (by decide) (by decide) (List.mem_of_mem_head? h)
        cases this
      rw [htext, hread hwhole hrest, if_neg hminus]
      rfl
  | negSucc k =>
      have htext : (toString (Int.negSucc k)).toList = '-' :: Nat.toDigits 10 (k + 1) := by
        show ("-" ++ Nat.repr (k + 1)).toList = _
        rw [String.toList_append, Nat.toList_repr]
        rfl
      obtain ⟨_, hwhole, hrest⟩ := parts_of_isWhole (isWhole_toDigits (k + 1))
      rw [htext, hread hwhole hrest, List.head?_cons, if_pos rfl]
      rfl

end Integers

/-! ### Floats -/

/-- What Python writes for a float. -/
def IsFloatText (text : String) : Prop :=
  text ∈ ["nan", "inf", "-inf"] ∨
    isFloatLiteral text.toList = true ∧ FloatRepr.floatRepr text.toList = text

theorem numberOf_floatText {text : String} (hliteral : isFloatLiteral text.toList = true)
    (hrepr : FloatRepr.floatRepr text.toList = text) :
    numberOf text.toList = some (.float text) := by
  have hint : isIntLiteral text.toList = false := by
    rw [isFloatLiteral, Bool.and_eq_true, Bool.and_eq_true, Bool.not_eq_true'] at hliteral
    rw [isIntLiteral, hliteral.1.2, Bool.and_false]
  rw [numberOf, hint, if_neg (by decide), if_pos hliteral, hrepr]

section Trees

mutual

/-- Every float of the tree is one of these texts. -/
def AllFloats (P : String → Prop) : Json → Prop
  | .float text => P text
  | .array items => ItemsAllFloats P items
  | .object fields => FieldsAllFloats P fields
  | _ => True

def ItemsAllFloats (P : String → Prop) : List Json → Prop
  | [] => True
  | j :: rest => AllFloats P j ∧ ItemsAllFloats P rest

def FieldsAllFloats (P : String → Prop) : List (String × Json) → Prop
  | [] => True
  | (_, j) :: rest => AllFloats P j ∧ FieldsAllFloats P rest

end

/-! ### Trees -/

/-- A number needs something after it to be read. -/
def Ends : Json → List Char → Prop
  | .int _, rest => Delimited rest
  | .float _, rest => Delimited rest
  | _, _ => True

omit [FloatRepr] in
theorem Delimited.ends {rest : List Char} (h : Delimited rest) (j : Json) : Ends j rest := by
  cases j with
  | int | float => exact h
  | null | bool | str | array | object => trivial

omit [FloatRepr] in
theorem delimited_newline (level : ℕ) (rest : List Char) : Delimited (newline level ++ rest) :=
  ⟨'\n', _, rfl, by decide⟩

omit [FloatRepr] in
theorem delimited_itemsText (level : ℕ) (items : List Json) {rest : List Char}
    (h : Delimited rest) : Delimited (itemsText level items ++ rest) := by
  cases items with
  | nil => exact h
  | cons j items => exact ⟨',', _, rfl, by decide⟩

omit [FloatRepr] in
theorem delimited_fieldsText (level : ℕ) (fields : List (String × Json)) {rest : List Char}
    (h : Delimited rest) : Delimited (fieldsText level fields ++ rest) := by
  cases fields with
  | nil => exact h
  | cons field fields => exact ⟨',', _, rfl, by decide⟩

/-- Blanks do not matter to the state. -/
def SkipsBlanks (state : State) : Prop := ∀ c, isBlank c = true → step state c = some state

theorem SkipsBlanks.run_newline {state : State} (h : SkipsBlanks state) (level : ℕ)
    (rest : List Char) : run state (newline level ++ rest) = run state rest := by
  have hblanks : ∀ cs : List Char, (∀ c ∈ cs, isBlank c = true) →
      run state (cs ++ rest) = run state rest := by
    intro cs hcs
    induction cs with
    | nil => rfl
    | cons c cs ih =>
        rw [List.forall_mem_cons] at hcs
        rw [List.cons_append, run_cons (h c hcs.1), ih hcs.2]
  refine hblanks _ (List.forall_mem_cons.mpr ⟨by decide, fun c hc => ?_⟩)
  rw [List.eq_of_mem_replicate hc]
  decide

theorem chars_of_numberOf {cs : List Char} {j : Json} (h : numberOf cs = some j) :
    (∀ c ∈ cs, isNumberChar c = true) ∧ ∃ c rest, cs = c :: rest ∧ (c = '-' ∨ c.isDigit = true) := by
  unfold numberOf at h
  split_ifs at h with hint hfloat
  · obtain ⟨hwhole, hempty⟩ := Bool.and_eq_true_iff.mp hint
    rw [List.isEmpty_iff] at hempty
    exact literal_chars hwhole (by rw [hempty]; rfl)
  · rw [isFloatLiteral, Bool.and_eq_true, Bool.and_eq_true] at hfloat
    exact literal_chars hfloat.1.1 hfloat.2

omit [FloatRepr] in
theorem ne_of_number {c d : Char} (h : c = '-' ∨ c.isDigit = true) (hminus : d ≠ '-')
    (hdigit : d.isDigit = false) : c ≠ d := by
  rintro rfl
  rcases h with h | h
  · exact hminus h
  · rw [hdigit] at h
    cases h

omit [FloatRepr] in
theorem isBlank_of_number {c : Char} (h : c = '-' ∨ c.isDigit = true) : isBlank c = false := by
  rw [isBlank, decide_eq_false_iff_not]
  simp only [List.mem_cons, List.not_mem_nil, or_false, not_or]
  exact ⟨ne_of_number h (by decide) (by decide), ne_of_number h (by decide) (by decide),
    ne_of_number h (by decide) (by decide), ne_of_number h (by decide) (by decide)⟩

/-- A number is read up to what delimits it. -/
theorem run_numberText {cs : List Char} {j : Json} (hj : numberOf cs = some j) {stack : List Frame}
    {rest : List Char} (hrest : Delimited rest) :
    run (.value, stack) (cs ++ rest) = run (complete j stack) rest := by
  obtain ⟨hchars, c, tail, rfl, hc⟩ := chars_of_numberOf hj
  have hstart : step (.value, stack) c = some (.number [c], stack) := by
    show (if isBlank c then _ else startValue c stack) = _
    rw [isBlank_of_number hc, if_neg (by decide), startValue_number hc]
  rw [List.cons_append, run_cons hstart, run_number _ _ _ (List.forall_mem_cons.mp hchars).2,
    ← run_literal hj hrest, List.reverse_cons]

/-- A word is read to its end. -/
theorem run_wordText {c d : Char} {word : List Char} {j : Json} {stack : List Frame}
    (h : step (.value, stack) c = some (.literal (d :: word) j, stack)) (rest : List Char) :
    run (.value, stack) ((c :: d :: word) ++ rest) = run (complete j stack) rest := by
  rw [List.cons_append, run_cons h, run_word]

theorem run_floatText {text : String} (h : IsFloatText text) {stack : List Frame}
    {rest : List Char} (hrest : Delimited rest) :
    run (.value, stack) (floatText text ++ rest) = run (complete (.float text) stack) rest := by
  rcases h with hname | ⟨hliteral, hrepr⟩
  · simp only [List.mem_cons, List.not_mem_nil, or_false] at hname
    rcases hname with rfl | rfl | rfl
    · exact run_wordText rfl rest
    · exact run_wordText rfl rest
    · have hstart : step (.value, stack) '-' = some (.number ['-'], stack) := rfl
      have hinfinity : step (.number ['-'], stack) 'I' =
          some (.literal "nfinity".toList (.float "-inf"), stack) := rfl
      show run (.value, stack) ('-' :: 'I' :: ("nfinity".toList ++ rest)) = _
      rw [run_cons hstart, run_cons hinfinity]
      exact run_word 'n' "finity".toList rest
  · have hspelled : floatText text = text.toList := by
      have hne : ∀ name ∈ ["nan", "inf", "-inf"], text ≠ name := by
        rintro name hname rfl
        simp only [List.mem_cons, List.not_mem_nil, or_false] at hname
        rcases hname with rfl | rfl | rfl <;> exact absurd hliteral (by decide)
      rw [floatText, if_neg (hne _ (by simp)), if_neg (hne _ (by simp)), if_neg (hne _ (by simp))]
    rw [hspelled]
    exact run_numberText (numberOf_floatText hliteral hrepr) hrest

/-- No value begins with a blank or a bracket that closes. -/
theorem text_start (level : ℕ) {j : Json} (h : AllFloats IsFloatText j) :
    ∃ c cs, text level j = c :: cs ∧ isBlank c = false ∧ c ≠ ']' := by
  have hnumber : ∀ {cs : List Char} {j : Json}, numberOf cs = some j →
      ∃ c rest, cs = c :: rest ∧ isBlank c = false ∧ c ≠ ']' := by
    intro cs j hj
    obtain ⟨_, c, rest, hcs, hc⟩ := chars_of_numberOf hj
    exact ⟨c, rest, hcs, isBlank_of_number hc, ne_of_number hc (by decide) (by decide)⟩
  cases j with
  | null => exact ⟨'n', _, rfl, by decide, by decide⟩
  | bool b =>
      cases b with
      | true => exact ⟨'t', _, rfl, by decide, by decide⟩
      | false => exact ⟨'f', _, rfl, by decide, by decide⟩
  | int n => exact hnumber (numberOf_toString n)
  | float literal =>
      rw [text, floatText]
      split_ifs with hnan hinf hminus
      · exact ⟨'N', _, rfl, by decide, by decide⟩
      · exact ⟨'I', _, rfl, by decide, by decide⟩
      · exact ⟨'-', _, rfl, by decide, by decide⟩
      · rcases h with hname | ⟨hliteral, hrepr⟩
        · simp [hnan, hinf, hminus] at hname
        · exact hnumber (numberOf_floatText hliteral hrepr)
  | str s => exact ⟨'"', _, rfl, by decide, by decide⟩
  | array items =>
      cases items with
      | nil => exact ⟨'[', _, rfl, by decide, by decide⟩
      | cons j items => exact ⟨'[', _, rfl, by decide, by decide⟩
  | object fields =>
      rcases fields with _ | ⟨⟨key, j⟩, fields⟩
      · exact ⟨'{', _, rfl, by decide, by decide⟩
      · exact ⟨'{', _, rfl, by decide, by decide⟩

theorem run_arrayStart {level : ℕ} {j : Json} (h : AllFloats IsFloatText j) (stack : List Frame)
    (rest : List Char) : run (.arrayStart, stack) (text level j ++ rest) =
      run (.value, .array [] :: stack) (text level j ++ rest) := by
  obtain ⟨c, cs, hcs, hblank, hclose⟩ := text_start level h
  have hstep : step (.arrayStart, stack) c = step (.value, .array [] :: stack) c := by
    show (if isBlank c then _ else if c = ']' then _ else startValue c (.array [] :: stack)) =
      if isBlank c then _ else startValue c (.array [] :: stack)
    rw [hblank, if_neg (by decide), if_neg hclose, if_neg (by decide)]
  rw [hcs, List.cons_append, run, run, hstep]

/-- A key and its value, after the opening brace or a comma. -/
theorem run_field {level : ℕ} {j : Json} {key : String} {fields : List (String × Json)}
    {first : Bool} {stack : List Frame} {rest : List Char}
    (hj : run (.value, .object fields key :: stack) (text level j ++ rest) =
      run (complete j (.object fields key :: stack)) rest) :
    run (.fieldStart fields first, stack)
        (newline level ++ (stringText key ++ (':' :: ' ' :: (text level j ++ rest)))) =
      run (.afterField ((key, j) :: fields), stack) rest := by
  have hskip : SkipsBlanks (.fieldStart fields first, stack) := fun c hc => if_pos hc
  have hquote : step (.fieldStart fields first, stack) '"' =
      some (.string (some fields) [] .plain, stack) := rfl
  have hcolon : step (.colon fields key, stack) ':' =
      some (.value, .object fields key :: stack) := rfl
  have hblank : step (.value, .object fields key :: stack) ' ' =
      some (.value, .object fields key :: stack) := rfl
  rw [hskip.run_newline, stringText, List.cons_append, run_cons hquote, run_stringText]
  show run (.colon fields key, stack) _ = _
  rw [run_cons hcolon, run_cons hblank, hj]
  rfl

mutual

/-- **From where a value is expected, its text leads to where it has been read.** -/
theorem run_text : ∀ {j : Json}, AllFloats IsFloatText j → ∀ (level : ℕ) (stack : List Frame)
    {rest : List Char}, Ends j rest →
      run (.value, stack) (text level j ++ rest) = run (complete j stack) rest
  | .null, _, _, _, rest, _ => run_wordText rfl rest
  | .bool true, _, _, _, rest, _ => run_wordText rfl rest
  | .bool false, _, _, _, rest, _ => run_wordText rfl rest
  | .int n, _, _, _, _, hrest => run_numberText (numberOf_toString n) hrest
  | .float _, h, _, _, _, hrest => run_floatText h hrest
  | .str s, _, _, stack, rest, _ => by
      have hquote : step (.value, stack) '"' = some (.string none [] .plain, stack) := rfl
      rw [text, stringText, List.cons_append, run_cons hquote, run_stringText]
      rfl
  | .array [], _, _, stack, rest, _ => by
      have hopen : step (.value, stack) '[' = some (.arrayStart, stack) := rfl
      have hclose : step (.arrayStart, stack) ']' = some (complete (.array []) stack) := rfl
      show run (.value, stack) ('[' :: ']' :: rest) = _
      rw [run_cons hopen, run_cons hclose]
  | .array (j :: items), h, level, stack, rest, _ => by
      have hopen : step (.value, stack) '[' = some (.arrayStart, stack) := rfl
      have hskip : SkipsBlanks (.arrayStart, stack) := fun c hc => if_pos hc
      have hskip' : SkipsBlanks (.afterItem (items.reverse ++ [j]), stack) :=
        fun c hc => if_pos hc
      have hclose : step (.afterItem (items.reverse ++ [j]), stack) ']' =
          some (complete (.array (j :: items)) stack) := by
        show some (complete (.array (items.reverse ++ [j]).reverse) stack) = _
        rw [List.reverse_append, List.reverse_reverse]
        rfl
      have hend := delimited_newline level (']' :: rest)
      simp only [text, List.cons_append, List.append_assoc, List.nil_append]
      rw [run_cons hopen, hskip.run_newline, run_arrayStart h.1,
        run_text h.1 _ _ ((delimited_itemsText _ _ hend).ends j)]
      show run (.afterItem [j], stack) _ = _
      rw [run_itemsText h.2 _ _ _ hend, hskip'.run_newline, run_cons hclose]
  | .object [], _, _, stack, rest, _ => by
      have hopen : step (.value, stack) '{' = some (.fieldStart [] true, stack) := rfl
      have hclose : step (.fieldStart [] true, stack) '}' = some (complete (.object []) stack) := rfl
      show run (.value, stack) ('{' :: '}' :: rest) = _
      rw [run_cons hopen, run_cons hclose]
  | .object ((key, j) :: fields), h, level, stack, rest, _ => by
      have hopen : step (.value, stack) '{' = some (.fieldStart [] true, stack) := rfl
      have hskip : SkipsBlanks (.afterField (fields.reverse ++ [(key, j)]), stack) :=
        fun c hc => if_pos hc
      have hclose : step (.afterField (fields.reverse ++ [(key, j)]), stack) '}' =
          some (complete (.object ((key, j) :: fields)) stack) := by
        show some (complete (.object (fields.reverse ++ [(key, j)]).reverse) stack) = _
        rw [List.reverse_append, List.reverse_reverse]
        rfl
      have hend := delimited_newline level ('}' :: rest)
      simp only [text, List.cons_append, List.append_assoc, List.nil_append]
      rw [run_cons hopen,
        run_field (run_text h.1 _ _ ((delimited_fieldsText _ _ hend).ends j)),
        run_fieldsText h.2 _ _ _ hend, hskip.run_newline, run_cons hclose]

theorem run_itemsText : ∀ {items : List Json}, ItemsAllFloats IsFloatText items →
    ∀ (level : ℕ) (stack : List Frame) (front : List Json) {rest : List Char}, Delimited rest →
      run (.afterItem front, stack) (itemsText level items ++ rest) =
        run (.afterItem (items.reverse ++ front), stack) rest
  | [], _, _, _, _, _, _ => rfl
  | j :: items, h, level, stack, front, rest, hrest => by
      have hcomma : step (.afterItem front, stack) ',' = some (.value, .array front :: stack) := rfl
      have hskip : SkipsBlanks (.value, .array front :: stack) := fun c hc => if_pos hc
      simp only [itemsText, List.cons_append, List.append_assoc]
      rw [run_cons hcomma, hskip.run_newline,
        run_text h.1 _ _ ((delimited_itemsText _ _ hrest).ends j)]
      show run (.afterItem (j :: front), stack) _ = _
      rw [run_itemsText h.2 _ _ _ hrest, List.reverse_cons, List.append_assoc]
      rfl

theorem run_fieldsText : ∀ {fields : List (String × Json)}, FieldsAllFloats IsFloatText fields →
    ∀ (level : ℕ) (stack : List Frame) (front : List (String × Json)) {rest : List Char},
      Delimited rest →
        run (.afterField front, stack) (fieldsText level fields ++ rest) =
          run (.afterField (fields.reverse ++ front), stack) rest
  | [], _, _, _, _, _, _ => rfl
  | (key, j) :: fields, h, level, stack, front, rest, hrest => by
      have hcomma : step (.afterField front, stack) ',' = some (.fieldStart front false, stack) := rfl
      simp only [fieldsText, List.cons_append, List.append_assoc]
      rw [run_cons hcomma,
        run_field (run_text h.1 _ _ ((delimited_fieldsText _ _ hrest).ends j)),
        run_fieldsText h.2 _ _ _ hrest, List.reverse_cons, List.append_assoc]
      rfl

end

/-- The tree is an array or an object. -/
def IsContainer : Json → Prop
  | .array _ => True
  | .object _ => True
  | _ => False

/-- **The text of an array or an object is read as it was written.** -/
theorem parse_text {j : Json} (hj : IsContainer j) (h : AllFloats IsFloatText j) (level : ℕ) :
    parse (text level j) = some j := by
  have hends : Ends j [] := by
    cases j with
    | array | object => trivial
    | null | bool | int | float | str => exact hj.elim
  rw [parse, ← List.append_nil (text level j), run_text h level [] hends]
  rfl

/-- **No proper prefix of such a text can be read.** -/
theorem parse_prefix {j : Json} (hj : IsContainer j) (h : AllFloats IsFloatText j) (level : ℕ)
    {front back : List Char} (htext : text level j = front ++ back) (hback : back ≠ []) :
    parse front = none := by
  -- the text ends in the bracket that closes it, so a cut leaves out more than blanks
  have hshape : ∃ c cs d, text level j = c :: (cs ++ [d]) ∧ (c = '{' ∨ c = '[') ∧
      isBlank d = false := by
    cases j with
    | array items =>
        cases items with
        | nil => exact ⟨'[', [], ']', rfl, Or.inr rfl, by decide⟩
        | cons j items =>
            refine ⟨'[', newline (level + 1) ++ (text (level + 1) j ++
              (itemsText (level + 1) items ++ newline level)), ']', ?_, Or.inr rfl, by decide⟩
            simp only [text, List.append_assoc]
    | object fields =>
        rcases fields with _ | ⟨⟨key, j⟩, fields⟩
        · exact ⟨'{', [], '}', rfl, Or.inl rfl, by decide⟩
        · refine ⟨'{', newline (level + 1) ++ (stringText key ++ (':' :: ' ' :: (text (level + 1) j ++
            (fieldsText (level + 1) fields ++ newline level)))), '}', ?_, Or.inl rfl, by decide⟩
          simp only [text, List.append_assoc, List.cons_append]
    | null | bool | int | float | str => exact hj.elim
  obtain ⟨c, cs, d, hcs, hc, hd⟩ := hshape
  have hparse : (parse (c :: (cs ++ [d]))).isSome := by
    rw [← hcs, parse_text hj h]
    rfl
  rw [hcs] at htext
  refine parse_cut hc hparse htext ⟨d, ?_, hd⟩
  · rw [← List.cons_append] at htext
    have hlast : back.getLast? = some d := by
      have := congrArg List.getLast? htext
      rw [List.getLast?_concat, List.getLast?_append_of_ne_nil _ hback] at this
      exact this.symm
    exact List.mem_of_getLast? hlast

/-! ### What is read can be written -/

omit [FloatRepr] in
theorem itemsAllFloats_iff {P : String → Prop} {items : List Json} :
    ItemsAllFloats P items ↔ ∀ j ∈ items, AllFloats P j := by
  induction items with
  | nil => simp [ItemsAllFloats]
  | cons j rest ih => simp [ItemsAllFloats, ih]

omit [FloatRepr] in
theorem fieldsAllFloats_iff {P : String → Prop} {fields : List (String × Json)} :
    FieldsAllFloats P fields ↔ ∀ field ∈ fields, AllFloats P field.2 := by
  induction fields with
  | nil => simp [FieldsAllFloats]
  | cons field rest ih =>
      obtain ⟨key, j⟩ := field
      simp [FieldsAllFloats, ih]

/-- What is in a frame so far can be written. -/
def FrameSpelled : Frame → Prop
  | .array items => ItemsAllFloats IsFloatText items
  | .object fields _ => FieldsAllFloats IsFloatText fields

def ModeSpelled : Mode → Prop
  | .fieldStart fields _ | .colon fields _ | .afterField fields | .string (some fields) _ _ =>
      FieldsAllFloats IsFloatText fields
  | .afterItem items => ItemsAllFloats IsFloatText items
  | .done j | .literal _ j => AllFloats IsFloatText j
  | .value | .arrayStart | .string none _ _ | .number _ => True

structure Spelled (state : State) : Prop where
  mode : ModeSpelled state.1
  stack : ∀ frame ∈ state.2, FrameSpelled frame

theorem spelled_complete {j : Json} (hj : AllFloats IsFloatText j) {stack : List Frame}
    (hstack : ∀ frame ∈ stack, FrameSpelled frame) : Spelled (complete j stack) := by
  rcases stack with _ | ⟨items | ⟨fields, key⟩, stack⟩
  · exact ⟨hj, hstack⟩
  · rw [List.forall_mem_cons] at hstack
    exact ⟨⟨hj, hstack.1⟩, hstack.2⟩
  · rw [List.forall_mem_cons] at hstack
    exact ⟨⟨hj, hstack.1⟩, hstack.2⟩

theorem spelled_startValue {c : Char} {stack : List Frame} {next : State}
    (hstack : ∀ frame ∈ stack, FrameSpelled frame) (h : startValue c stack = some next) :
    Spelled next := by
  unfold startValue at h
  split_ifs at h <;> cases h
  · exact ⟨trivial, hstack⟩
  · exact ⟨trivial, hstack⟩
  · exact ⟨trivial, hstack⟩
  · exact ⟨trivial, hstack⟩
  · exact ⟨trivial, hstack⟩
  · exact ⟨trivial, hstack⟩
  · exact ⟨Or.inl (by decide), hstack⟩
  · exact ⟨Or.inl (by decide), hstack⟩
  · exact ⟨trivial, hstack⟩

omit [FloatRepr] in
theorem itemsAllFloats_reverse {P : String → Prop} {items : List Json}
    (h : ItemsAllFloats P items) : AllFloats P (.array items.reverse) :=
  itemsAllFloats_iff.mpr fun j hj => itemsAllFloats_iff.mp h j (List.mem_reverse.mp hj)

omit [FloatRepr] in
theorem fieldsAllFloats_reverse {P : String → Prop} {fields : List (String × Json)}
    (h : FieldsAllFloats P fields) : AllFloats P (.object fields.reverse) :=
  fieldsAllFloats_iff.mpr fun field hfield =>
    fieldsAllFloats_iff.mp h field (List.mem_reverse.mp hfield)

theorem spelled_afterValue {state next : State} {c : Char} (hstate : Spelled state)
    (h : afterValue state c = some next) : Spelled next := by
  unfold afterValue at h
  split at h
  · split_ifs at h <;> cases h
    · exact hstate
    · exact ⟨trivial, List.forall_mem_cons.mpr ⟨hstate.mode, hstate.stack⟩⟩
    · exact spelled_complete (itemsAllFloats_reverse hstate.mode) hstate.stack
  · split_ifs at h <;> cases h
    · exact hstate
    · exact ⟨hstate.mode, hstate.stack⟩
    · exact spelled_complete (fieldsAllFloats_reverse hstate.mode) hstate.stack
  · split_ifs at h
    cases h
    exact hstate
  · cases h

theorem allFloats_numberOf {cs : List Char} {j : Json} (h : numberOf cs = some j) :
    AllFloats IsFloatText j := by
  unfold numberOf at h
  split_ifs at h with hint hfloat
  · cases h
    trivial
  · cases h
    rcases FloatRepr.stable cs hfloat with hinf | hstable
    · exact Or.inl (List.mem_cons_of_mem _ hinf)
    · exact Or.inr hstable

theorem spelled_step {state next : State} {c : Char} (hstate : Spelled state)
    (h : step state c = some next) : Spelled next := by
  obtain ⟨hmode, hstack⟩ := hstate
  have harray : AllFloats IsFloatText (.array []) := trivial
  have hobject : AllFloats IsFloatText (.object []) := trivial
  have hframe : FrameSpelled (.array []) := trivial
  unfold step at h
  split at h
  · split_ifs at h
    · cases h
      exact ⟨hmode, hstack⟩
    · exact spelled_startValue hstack h
  · split_ifs at h
    · cases h
      exact ⟨hmode, hstack⟩
    · cases h
      exact spelled_complete harray hstack
    · exact spelled_startValue (List.forall_mem_cons.mpr ⟨hframe, hstack⟩) h
  · split_ifs at h <;> cases h
    · exact ⟨hmode, hstack⟩
    · exact ⟨hmode, hstack⟩
    · exact spelled_complete hobject hstack
  · split_ifs at h <;> cases h
    · exact ⟨hmode, hstack⟩
    · exact ⟨trivial, List.forall_mem_cons.mpr ⟨hmode, hstack⟩⟩
  · obtain ⟨⟨chars, escape⟩, _, rfl⟩ := Option.map_eq_some_iff.mp h
    rename_i fields _ _ _ _
    have hstr : AllFloats IsFloatText (.str (String.ofList chars.reverse)) := trivial
    cases fields with
    | none =>
        cases escape with
        | some escape => exact ⟨trivial, hstack⟩
        | none => exact spelled_complete hstr hstack
    | some fields =>
        cases escape with
        | some escape => exact ⟨hmode, hstack⟩
        | none => exact ⟨hmode, hstack⟩
  · split_ifs at h
    · cases h
      exact ⟨trivial, hstack⟩
    · cases h
      exact ⟨Or.inl (by decide), hstack⟩
    · obtain ⟨j, hj, h⟩ := Option.bind_eq_some_iff.mp h
      exact spelled_afterValue (spelled_complete (allFloats_numberOf hj) hstack) h
  · cases h
  · split_ifs at h
    cases h
    exact spelled_complete hmode hstack
  · split_ifs at h
    cases h
    exact ⟨hmode, hstack⟩
  · exact spelled_afterValue ⟨hmode, hstack⟩ h

/-- **The floats of a text that is read are spelled as Python spells them.** -/
theorem allFloats_parse {cs : List Char} {j : Json} (h : parse cs = some j) :
    AllFloats IsFloatText j := by
  have hrun : ∀ {cs : List Char} {state next : State}, Spelled state → run state cs = some next →
      Spelled next := by
    intro cs
    induction cs with
    | nil =>
        intro state next hstate hnext
        cases hnext
        exact hstate
    | cons c cs ih =>
        intro state next hstate hnext
        obtain ⟨mid, hmid, hnext⟩ := Option.bind_eq_some_iff.mp hnext
        exact ih (spelled_step hstate hmid) hnext
  obtain ⟨state, hstate, h⟩ := Option.bind_eq_some_iff.mp h
  have hstart : Spelled (.value, []) := ⟨trivial, List.forall_mem_nil _⟩
  obtain ⟨hmode, _⟩ := hrun hstart hstate
  unfold finish at h
  split at h
  · cases h
    exact hmode
  · exact allFloats_numberOf h
  · cases h

end Trees

end Json

end Python
