/-
Bytes and texts: UTF-8, and URL-safe base64.

Base64 makes four characters of three bytes, and fills a last group of one or two bytes up
with `=`.  The reader takes the characters of both alphabets, passes over any other, and
stops where a group is filled up.  Both codecs give back what was written.
-/
import YtmExecutor.Python.Text

namespace Python

abbrev Bytes := List UInt8

/-! ### UTF-8 -/

/-- `text.encode("utf-8")`. -/
def encodeUtf8 (text : String) : Bytes := text.toUTF8.data.toList

/-- `bytes.decode("utf-8")`.  The message of the error names a place in the bytes in Python. -/
def decodeUtf8 (bytes : Bytes) : Except PyError String :=
  match String.fromUTF8? ⟨bytes.toArray⟩ with
  | some text => .ok text
  | none => .error (.valueError "UnicodeDecodeError")

theorem decodeUtf8_encode (text : String) : decodeUtf8 (encodeUtf8 text) = .ok text := by
  have hread : String.fromUTF8? text.toUTF8 = some text := dif_pos text.isValidUTF8
  rw [decodeUtf8, encodeUtf8, Array.toArray_toList]
  show (match String.fromUTF8? text.toUTF8 with
    | some text => (.ok text : Except PyError String)
    | none => _) = _
  rw [hread]

namespace Base64

/-! ### Base64: writing -/

def alphabet : List Char :=
  "ABCDEFGHIJKLMNOPQRSTUVWXYZabcdefghijklmnopqrstuvwxyz0123456789-_".toList

/-- The character for six bits. -/
def sextetChar (n : ℕ) : Char := alphabet.getD n '='

def encodeChars : Bytes → List Char
  | [] => []
  | [a] => [sextetChar (a.toNat / 4), sextetChar (a.toNat % 4 * 16), '=', '=']
  | [a, b] =>
      [sextetChar (a.toNat / 4), sextetChar (a.toNat % 4 * 16 + b.toNat / 16),
        sextetChar (b.toNat % 16 * 4), '=']
  | a :: b :: c :: rest =>
      sextetChar (a.toNat / 4) :: sextetChar (a.toNat % 4 * 16 + b.toNat / 16) ::
        sextetChar (b.toNat % 16 * 4 + c.toNat / 64) :: sextetChar (c.toNat % 64) ::
        encodeChars rest

/-! ### Base64: reading -/

/-- The six bits of a character. -/
def value? (c : Char) : Option ℕ :=
  if c = '+' then some 62 else if c = '/' then some 63 else alphabet.idxOf? c

/-- What is read after `quadPos` characters of a group, the last of which left some bits, and
`pads` signs that fill it up; the bytes so far come last first. -/
def decodeChars (quadPos left pads : ℕ) (out : Bytes) : List Char → Except PyError Bytes
  | [] =>
      if quadPos = 0 then .ok out.reverse
      else if quadPos = 1 then .error (.valueError
        ("Invalid base64-encoded string: number of data characters (" ++
          toString (out.length / 3 * 4 + 1) ++ ") cannot be 1 more than a multiple of 4"))
      else .error (.valueError "Incorrect padding")
  | c :: cs =>
      if c = '=' then
        if 2 ≤ quadPos then
          if 4 ≤ quadPos + (pads + 1) then .ok out.reverse
          else decodeChars quadPos left (pads + 1) out cs
        else decodeChars quadPos left pads out cs
      else
        match value? c with
        | none => decodeChars quadPos left pads out cs
        | some v =>
            match quadPos with
            | 0 => decodeChars 1 v 0 out cs
            | 1 => decodeChars 2 (v % 16) 0 (UInt8.ofNat (left * 4 + v / 16) :: out) cs
            | 2 => decodeChars 3 (v % 4) 0 (UInt8.ofNat (left * 16 + v / 4) :: out) cs
            | _ => decodeChars 0 0 0 (UInt8.ofNat (left * 64 + v) :: out) cs

end Base64

def urlsafeB64encode (bytes : Bytes) : String := String.ofList (Base64.encodeChars bytes)

def urlsafeB64decode (text : String) : Except PyError Bytes :=
  if text.toList.all isAscii then Base64.decodeChars 0 0 0 [] text.toList
  else .error (.valueError "string argument should contain only ASCII characters")

namespace Base64

/-! ### What is written is read, in base64 -/

theorem value?_sextetChar : ∀ n < 64, sextetChar n ≠ '=' ∧ value? (sextetChar n) = some n := by
  decide +kernel

/-! A character of the alphabet is a step within its group. -/

section Steps

variable {n : ℕ} (left pads : ℕ) (out : Bytes) (cs : List Char)

theorem decodeChars_first (hn : n < 64) :
    decodeChars 0 left pads out (sextetChar n :: cs) = decodeChars 1 n 0 out cs := by
  obtain ⟨hpad, hvalue⟩ := value?_sextetChar n hn
  simp [decodeChars, hpad, hvalue]

theorem decodeChars_second (hn : n < 64) :
    decodeChars 1 left pads out (sextetChar n :: cs) =
      decodeChars 2 (n % 16) 0 (UInt8.ofNat (left * 4 + n / 16) :: out) cs := by
  obtain ⟨hpad, hvalue⟩ := value?_sextetChar n hn
  simp [decodeChars, hpad, hvalue]

theorem decodeChars_third (hn : n < 64) :
    decodeChars 2 left pads out (sextetChar n :: cs) =
      decodeChars 3 (n % 4) 0 (UInt8.ofNat (left * 16 + n / 4) :: out) cs := by
  obtain ⟨hpad, hvalue⟩ := value?_sextetChar n hn
  simp [decodeChars, hpad, hvalue]

theorem decodeChars_fourth (hn : n < 64) :
    decodeChars 3 left pads out (sextetChar n :: cs) =
      decodeChars 0 0 0 (UInt8.ofNat (left * 64 + n) :: out) cs := by
  obtain ⟨hpad, hvalue⟩ := value?_sextetChar n hn
  simp [decodeChars, hpad, hvalue]

end Steps

theorem ofNat_eq {n : ℕ} {b : UInt8} (h : n = b.toNat) : UInt8.ofNat n = b := by
  rw [h, UInt8.ofNat_toNat]

/-- **Reading on after what was written adds its bytes.** -/
theorem decodeChars_encodeChars (bytes out : Bytes) :
    decodeChars 0 0 0 out (encodeChars bytes) = .ok (out.reverse ++ bytes) := by
  induction bytes using encodeChars.induct generalizing out with
  | case1 => simp [encodeChars, decodeChars]
  | case2 a =>
      have ha := a.toNat_lt
      have hfirst : a.toNat / 4 * 4 + a.toNat % 4 * 16 / 16 = a.toNat := by omega
      rw [encodeChars, decodeChars_first _ _ _ _ (by omega), decodeChars_second _ _ _ _ (by omega),
        ofNat_eq hfirst]
      simp [decodeChars]
  | case3 a b =>
      have ha := a.toNat_lt
      have hb := b.toNat_lt
      have hfirst : a.toNat / 4 * 4 + (a.toNat % 4 * 16 + b.toNat / 16) / 16 = a.toNat := by omega
      have hsecond : (a.toNat % 4 * 16 + b.toNat / 16) % 16 * 16 + b.toNat % 16 * 4 / 4 =
          b.toNat := by omega
      rw [encodeChars, decodeChars_first _ _ _ _ (by omega), decodeChars_second _ _ _ _ (by omega),
        decodeChars_third _ _ _ _ (by omega), ofNat_eq hfirst, ofNat_eq hsecond]
      simp [decodeChars]
  | case4 a b c rest ih =>
      have ha := a.toNat_lt
      have hb := b.toNat_lt
      have hc := c.toNat_lt
      have hfirst : a.toNat / 4 * 4 + (a.toNat % 4 * 16 + b.toNat / 16) / 16 = a.toNat := by omega
      have hsecond : (a.toNat % 4 * 16 + b.toNat / 16) % 16 * 16 +
          (b.toNat % 16 * 4 + c.toNat / 64) / 4 = b.toNat := by omega
      have hthird : (b.toNat % 16 * 4 + c.toNat / 64) % 4 * 64 + c.toNat % 64 = c.toNat := by omega
      rw [encodeChars, decodeChars_first _ _ _ _ (by omega), decodeChars_second _ _ _ _ (by omega),
        decodeChars_third _ _ _ _ (by omega), decodeChars_fourth _ _ _ _ (by omega), ofNat_eq hfirst,
        ofNat_eq hsecond, ofNat_eq hthird, ih]
      simp

/-- The characters that are written. -/
theorem mem_encodeChars {bytes : Bytes} {c : Char} (h : c ∈ encodeChars bytes) :
    c = '=' ∨ ∃ n < 64, c = sextetChar n := by
  induction bytes using encodeChars.induct with
  | case1 => cases h
  | case2 a =>
      have ha := a.toNat_lt
      simp only [encodeChars, List.mem_cons, List.not_mem_nil, or_false] at h
      rcases h with rfl | rfl | rfl | rfl
      · exact Or.inr ⟨_, by omega, rfl⟩
      · exact Or.inr ⟨_, by omega, rfl⟩
      · exact Or.inl rfl
      · exact Or.inl rfl
  | case3 a b =>
      have ha := a.toNat_lt
      have hb := b.toNat_lt
      simp only [encodeChars, List.mem_cons, List.not_mem_nil, or_false] at h
      rcases h with rfl | rfl | rfl | rfl
      · exact Or.inr ⟨_, by omega, rfl⟩
      · exact Or.inr ⟨_, by omega, rfl⟩
      · exact Or.inr ⟨_, by omega, rfl⟩
      · exact Or.inl rfl
  | case4 a b c' rest ih =>
      have ha := a.toNat_lt
      have hb := b.toNat_lt
      have hc := c'.toNat_lt
      simp only [encodeChars, List.mem_cons] at h
      rcases h with rfl | rfl | rfl | rfl | h
      · exact Or.inr ⟨_, by omega, rfl⟩
      · exact Or.inr ⟨_, by omega, rfl⟩
      · exact Or.inr ⟨_, by omega, rfl⟩
      · exact Or.inr ⟨_, by omega, rfl⟩
      · exact ih h

theorem plain_sextetChar : ∀ n < 64,
    isAscii (sextetChar n) = true ∧ isSpace (sextetChar n) = false := by
  decide +kernel

/-- They are ASCII, and none of them is a blank. -/
theorem plain_of_mem_encodeChars {bytes : Bytes} {c : Char} (h : c ∈ encodeChars bytes) :
    isAscii c = true ∧ isSpace c = false := by
  rcases mem_encodeChars h with rfl | ⟨n, hn, rfl⟩
  · exact ⟨rfl, rfl⟩
  · exact plain_sextetChar n hn

end Base64

/-- **Base64 round-trips.** -/
theorem urlsafeB64decode_encode (bytes : Bytes) :
    urlsafeB64decode (urlsafeB64encode bytes) = .ok bytes := by
  have hascii : (Base64.encodeChars bytes).all isAscii = true :=
    List.all_eq_true.mpr fun c hc => (Base64.plain_of_mem_encodeChars hc).1
  rw [urlsafeB64decode, urlsafeB64encode, String.toList_ofList, if_pos hascii,
    Base64.decodeChars_encodeChars]
  rfl

theorem strip_urlsafeB64encode (bytes : Bytes) :
    strip (urlsafeB64encode bytes) = urlsafeB64encode bytes := by
  rw [strip, urlsafeB64encode, String.toList_ofList, stripChars_of_no_space fun c hc =>
    (Base64.plain_of_mem_encodeChars hc).2]

theorem urlsafeB64encode_ne {bytes : Bytes} (h : bytes ≠ []) : urlsafeB64encode bytes ≠ "" := by
  intro hempty
  have hchars := congrArg String.toList hempty
  rw [urlsafeB64encode, String.toList_ofList] at hchars
  match bytes, h, hchars with
  | [_], _, hchars => cases hchars
  | [_, _], _, hchars => cases hchars
  | _ :: _ :: _ :: _, _, hchars => cases hchars

end Python
