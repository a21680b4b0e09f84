/-
The symbols a snapshot reports, and the instruments a command means by them.

A snapshot reports `BASE-QUOTE-SWAP` as the plain symbol `BASEQUOTE`, for every quote.  A
command is read the other way: of a plain symbol only the last four letters `USDT` are
split off.  So the reported symbol leads back to the instrument exactly when its quote is
`USDT`; with another quote it leads nowhere, or to another instrument.
-/
import YtmExecutor.Reconciliation

namespace YtmExecutor

open Python

namespace Reconciliation

/-! ### Texts of letters and digits -/

section Texts

variable [Runtime]

/-- What the character database says about upper case and about letters and digits. -/
structure CaseTables : Prop where
  upper_append : ∀ s t, upper (s ++ t) = upper s ++ upper t
  upper_upper : ∀ s, upper (upper s) = upper s
  alnum : ∀ c, isAlnum c = true → isSpace c = false
  upper_alnum : ∀ c, isAlnum c = true → upper (String.ofList [c]) ≠ "" ∧
    ∀ d ∈ (upper (String.ofList [c])).toList, d ≠ '-' ∧ isSpace d = false

/-- A text of letters and digits. -/
structure IsAlnumText (s : String) : Prop where
  nonempty : s ≠ ""
  alnum : ∀ c ∈ s.toList, isAlnum c = true

/-- A part of an instrument id. -/
structure IsToken (s : String) : Prop where
  nonempty : s ≠ ""
  plain : ∀ c ∈ s.toList, c ≠ '-' ∧ isSpace c = false
  upper : upper s = s

omit [Runtime] in
/-- What is checked of each character. -/
theorem forall_chars {P : Char → Prop} [DecidablePred P] {cs : List Char}
    (h : cs.all (fun c => decide (P c)) = true) : ∀ c ∈ cs, P c :=
  fun c hc => of_decide_eq_true (List.all_eq_true.mp h c hc)

/-- The id of a swap. -/
def swapInstrumentId (base quote : String) : String := base ++ "-" ++ quote ++ "-SWAP"

theorem isToken_usdt : IsToken "USDT" where
  nonempty := by decide
  plain := forall_chars (by decide)
  upper := rfl

omit [Runtime] in
theorem strip_of_plain {s : String} (h : ∀ c ∈ s.toList, isSpace c = false) : strip s = s := by
  rw [strip, stripChars_of_no_space h, String.ofList_toList]

theorem upper_cons (tables : CaseTables) (c : Char) (cs : List Char) :
    upper (String.ofList (c :: cs)) = upper (String.ofList [c]) ++ upper (String.ofList cs) := by
  rw [← tables.upper_append, ← String.ofList_append]
  rfl

/-- The upper case of letters and digits is a token. -/
theorem isToken_upper (tables : CaseTables) {s : String} (h : IsAlnumText s) :
    IsToken (upper s) := by
  have hplain : ∀ cs : List Char, (∀ c ∈ cs, isAlnum c = true) →
      ∀ d ∈ (upper (String.ofList cs)).toList, d ≠ '-' ∧ isSpace d = false := by
    intro cs hcs
    induction cs with
    | nil =>
        intro d hd
        cases hd
    | cons c rest ih =>
        rw [List.forall_mem_cons] at hcs
        rw [upper_cons tables, String.toList_append]
        intro d hd
        rcases List.mem_append.mp hd with hfirst | hrest
        · exact (tables.upper_alnum c hcs.1).2 d hfirst
        · exact ih hcs.2 d hrest
  have hs := hplain s.toList h.alnum
  rw [String.ofList_toList] at hs
  refine ⟨?_, hs, tables.upper_upper s⟩
  intro hempty
  cases hcs : s.toList with
  | nil => exact h.nonempty (String.toList_eq_nil_iff.mp hcs)
  | cons c rest =>
      have hc : isAlnum c = true := h.alnum c (by rw [hcs]; exact List.mem_cons_self)
      rw [← String.ofList_toList (s := s), hcs, upper_cons tables] at hempty
      exact (tables.upper_alnum c hc).1 (String.append_eq_empty_iff.mp hempty).1

/-- Letters and digits in upper case are a token. -/
theorem isToken_of_upper (tables : CaseTables) {s : String} (h : IsAlnumText s)
    (hupper : upper s = s) : IsToken s := by
  have htoken := isToken_upper tables h
  rwa [hupper] at htoken

/-! ### An instrument id, encoded and decoded -/

section Tokens

variable {base quote : String}

omit [Runtime] in
theorem toList_swapInstrumentId :
    (swapInstrumentId base quote).toList =
      base.toList ++ '-' :: (quote.toList ++ "-SWAP".toList) := by
  simp [swapInstrumentId, String.toList_append]

/-- The id of a swap is left as it is. -/
theorem okxSwapInstrumentId_swap (tables : CaseTables) (hbase : IsToken base)
    (hquote : IsToken quote) :
    okxSwapInstrumentId (swapInstrumentId base quote) = swapInstrumentId base quote := by
  have hstrip : strip (swapInstrumentId base quote) = swapInstrumentId base quote := by
    refine strip_of_plain fun c hc => ?_
    rw [toList_swapInstrumentId] at hc
    have hsuffix : ∀ d ∈ "-SWAP".toList, isSpace d = false := forall_chars (by decide)
    rcases List.mem_append.mp hc with hc | hc
    · exact (hbase.plain c hc).2
    · rcases List.mem_cons.mp hc with rfl | hc
      · rfl
      · rcases List.mem_append.mp hc with hc | hc
        · exact (hquote.plain c hc).2
        · exact hsuffix c hc
  have hupper : upper (swapInstrumentId base quote) = swapInstrumentId base quote := by
    have hdash : upper "-" = "-" := rfl
    have hswap : upper "-SWAP" = "-SWAP" := rfl
    rw [swapInstrumentId, tables.upper_append, tables.upper_append, tables.upper_append,
      hbase.upper, hquote.upper, hdash, hswap]
  have hmem : (swapInstrumentId base quote).toList.contains '-' = true := by
    rw [toList_swapInstrumentId]
    simp
  unfold okxSwapInstrumentId
  rw [hstrip, hupper]
  dsimp only
  rw [if_pos hmem]

omit [Runtime] in
theorem splitOn_dash {cs ds : List Char} (hcs : '-' ∉ cs) (hds : '-' ∉ ds) :
    (cs ++ '-' :: ds).splitOn '-' = [cs, ds] := by
  rw [List.splitOn_append_cons_of_beq _ _ (beq_self_eq_true '-'), List.splitOn_eq_singleton hcs,
    List.splitOn_eq_singleton hds]
  rfl

omit [Runtime] in
/-- What comes after the first dash. -/
theorem dropWhile_dash {cs ds : List Char} (hcs : '-' ∉ cs) :
    (cs ++ '-' :: ds).dropWhile (· ≠ '-') = '-' :: ds := by
  rw [List.dropWhile_append_of_pos, List.dropWhile_cons_of_neg (by simp)]
  intro c hc
  have hne : c ≠ '-' := fun h => hcs (h ▸ hc)
  simpa using hne

theorem IsToken.no_dash {s : String} (h : IsToken s) : '-' ∉ s.toList :=
  fun hmem => (h.plain '-' hmem).1 rfl

theorem IsToken.toList_ne {s : String} (h : IsToken s) : s.toList ≠ [] :=
  fun hnil => h.nonempty (String.toList_eq_nil_iff.mp hnil)

/-- **The plain symbol of a swap drops the dashes**, whatever the quote is. -/
theorem plainSwapSymbol_swap (tables : CaseTables) (hbase : IsToken base) (hquote : IsToken quote) :
    plainSwapSymbol (swapInstrumentId base quote) = base ++ quote := by
  have hcs : (swapInstrumentId base quote).toList =
      (base.toList ++ '-' :: quote.toList) ++ "-SWAP".toList := by
    rw [toList_swapInstrumentId, List.append_assoc, List.cons_append]
  have htake : (swapInstrumentId base quote).toList.take
      ((swapInstrumentId base quote).toList.length - 5) = base.toList ++ '-' :: quote.toList := by
    rw [hcs]
    exact List.take_left' (by simp; omega)
  unfold plainSwapSymbol
  rw [okxSwapInstrumentId_swap tables hbase hquote]
  dsimp only
  rw [if_pos (List.isSuffixOf_iff_suffix.mpr ⟨_, hcs.symm⟩), htake,
    splitOn_dash hbase.no_dash hquote.no_dash]
  dsimp only
  rw [if_pos ⟨hbase.toList_ne, hquote.toList_ne⟩, String.ofList_append, String.ofList_toList,
    String.ofList_toList]

/-- What a plain symbol in upper case stands for. -/
theorem okxSwapInstrumentId_token {symbol : String} (h : IsToken symbol) :
    okxSwapInstrumentId symbol =
      if "USDT".toList.isSuffixOf symbol.toList ∧ 4 < symbol.toList.length then
        String.ofList (symbol.toList.take (symbol.toList.length - 4)) ++ "-USDT-SWAP"
      else symbol := by
  have hstrip : strip symbol = symbol := strip_of_plain fun c hc => (h.plain c hc).2
  have hdash : symbol.toList.contains '-' = false := by simpa using h.no_dash
  unfold okxSwapInstrumentId
  rw [hstrip, h.upper]
  dsimp only
  rw [hdash, if_neg Bool.false_ne_true]
  simp only [Bool.and_eq_true, decide_eq_true_eq]

theorem isToken_append (tables : CaseTables) (hbase : IsToken base) (hquote : IsToken quote) :
    IsToken (base ++ quote) where
  nonempty h := hbase.nonempty (String.append_eq_empty_iff.mp h).1
  plain c hc := by
    rw [String.toList_append] at hc
    exact (List.mem_append.mp hc).elim (hbase.plain c) (hquote.plain c)
  upper := by rw [tables.upper_append, hbase.upper, hquote.upper]

/-- **A plain symbol leads to the swap with its quote exactly when** the quote is `USDT`. -/
theorem okxSwapInstrumentId_plain (tables : CaseTables) (hbase : IsToken base)
    (hquote : IsToken quote) :
    okxSwapInstrumentId (base ++ quote) = swapInstrumentId base quote ↔ quote = "USDT" := by
  have htoken := isToken_append tables hbase hquote
  rw [okxSwapInstrumentId_token htoken]
  constructor
  · intro h
    split at h
    · have hfront : '-' ∉ (base ++ quote).toList.take ((base ++ quote).toList.length - 4) :=
        fun hmem => htoken.no_dash (List.mem_of_mem_take hmem)
      have hchars := congrArg String.toList h
      have hsuffix : "-USDT-SWAP".toList = '-' :: ("USDT".toList ++ "-SWAP".toList) := rfl
      rw [String.toList_append, String.toList_ofList, toList_swapInstrumentId, hsuffix] at hchars
      have hafter := congrArg (List.dropWhile (· ≠ '-')) hchars
      rw [dropWhile_dash hfront, dropWhile_dash hbase.no_dash] at hafter
      have hquotes := List.append_cancel_right (List.cons.inj hafter).2
      exact (String.toList_inj.mp hquotes).symm
    · exfalso
      refine htoken.no_dash ?_
      rw [h, toList_swapInstrumentId]
      simp
  · rintro rfl
    have hsuffix : "USDT".toList <:+ (base ++ "USDT").toList := by
      rw [String.toList_append]
      exact List.suffix_append _ _
    have hlength : (base ++ "USDT").toList.length = base.toList.length + 4 := by
      rw [String.toList_append, List.length_append]
      rfl
    have hpos : 0 < base.toList.length := List.length_pos_iff.mpr hbase.toList_ne
    rw [if_pos ⟨List.isSuffixOf_iff_suffix.mpr hsuffix, by omega⟩, hlength, Nat.add_sub_cancel,
      String.toList_append, List.take_left, String.ofList_toList, swapInstrumentId,
      String.append_assoc, String.append_assoc]
    rfl

end Tokens

/-- **The reported symbol of a swap leads back to it exactly when** its quote is `USDT`; a plain
`USDT` symbol comes back from its instrument in upper case. -/
theorem symbol_addresses_iff (tables : CaseTables) :
    (∀ base quote, IsAlnumText base → upper base = base → IsAlnumText quote → upper quote = quote →
      (okxSwapInstrumentId (plainSwapSymbol (swapInstrumentId base quote)) =
        swapInstrumentId base quote ↔ quote = "USDT")) ∧
    ∀ base, IsAlnumText base →
      plainSwapSymbol (okxSwapInstrumentId (base ++ "USDT")) = upper (base ++ "USDT") := by
  constructor
  · intro base quote hbase hupper hquote hupper'
    have hb := isToken_of_upper tables hbase hupper
    have hq := isToken_of_upper tables hquote hupper'
    rw [plainSwapSymbol_swap tables hb hq]
    exact okxSwapInstrumentId_plain tables hb hq
  · intro base hbase
    have hb := isToken_upper tables hbase
    have husdt : upper "USDT" = "USDT" := rfl
    have hstrip : strip (base ++ "USDT") = base ++ "USDT" := by
      refine strip_of_plain fun c hc => ?_
      rw [String.toList_append] at hc
      rcases List.mem_append.mp hc with hc | hc
      · exact tables.alnum c (hbase.alnum c hc)
      · exact (isToken_usdt.plain c hc).2
    have hencode : okxSwapInstrumentId (base ++ "USDT") = swapInstrumentId (upper base) "USDT" := by
      rw [← (okxSwapInstrumentId_plain tables hb isToken_usdt).mpr rfl]
      have hb' := isToken_append tables hb isToken_usdt
      have hstrip' : strip (upper base ++ "USDT") = upper base ++ "USDT" :=
        strip_of_plain fun c hc => (hb'.plain c hc).2
      unfold okxSwapInstrumentId
      rw [hstrip, hstrip', hb'.upper, tables.upper_append, husdt]
    rw [hencode, plainSwapSymbol_swap tables hb isToken_usdt, tables.upper_append, husdt]

end Texts

/-! ### An instrument with another quote -/

namespace Sample

/-- A runtime that knows the case of the ASCII letters in any text. -/
@[reducible] def charRuntime : Runtime :=
  { asciiRuntime [] with upper := fun text => String.ofList (text.toList.map Char.toUpper) }

theorem upper_charRuntime (s : String) :
    @upper charRuntime s = String.ofList (s.toList.map Char.toUpper) := by
  unfold upper
  split <;> rfl

theorem toUpper_toUpper (c : Char) : c.toUpper.toUpper = c.toUpper := by
  by_cases hascii : c.toNat < 128
  · have hall : ∀ n : Fin 128, (Char.ofNat n).toUpper.toUpper = (Char.ofNat n).toUpper := by
      decide +kernel
    have hc := hall ⟨c.toNat, hascii⟩
    rwa [Char.ofNat_toNat] at hc
  · have hsame : c.toUpper = c := by
      unfold Char.toUpper
      refine dif_neg fun hlower => hascii ?_
      have hle : c.toNat ≤ 122 := hlower.2
      omega
    rw [hsame, hsame]

/-- Every ASCII letter or digit is none of the blanks, and neither is its upper case. -/
theorem plain_of_alnum {c : Char} (h : @isAlnum charRuntime c = true) :
    isSpace c = false ∧ c.toUpper ≠ '-' ∧ isSpace c.toUpper = false := by
  have hascii : c.toNat < 128 := by
    by_contra hlarge
    have hfalse : isAscii c = false := decide_eq_false hlarge
    unfold isAlnum at h
    rw [hfalse, if_neg Bool.false_ne_true] at h
    cases h
  have hall : ∀ n : Fin 128, @isAlnum charRuntime (Char.ofNat n) = true →
      isSpace (Char.ofNat n) = false ∧ (Char.ofNat n).toUpper ≠ '-' ∧
        isSpace (Char.ofNat n).toUpper = false := by decide +kernel
  have hc := hall ⟨c.toNat, hascii⟩
  rw [Char.ofNat_toNat] at hc
  exact hc h

theorem caseTables : @CaseTables charRuntime := by
  let _ : Runtime := charRuntime
  refine ⟨?_, ?_, fun c h => (plain_of_alnum h).1, ?_⟩
  · intro s t
    simp only [upper_charRuntime, String.toList_append, List.map_append, String.ofList_append]
  · intro s
    simp only [upper_charRuntime, String.toList_ofList, List.map_map]
    congr 1
    exact List.map_congr_left fun c _ => toUpper_toUpper c
  · intro c h
    rw [upper_charRuntime, String.toList_ofList]
    refine ⟨by simp, ?_⟩
    simpa using (plain_of_alnum h).2

end Sample

theorem symbol_addresses_iff_sample :
    let _ : Runtime := Sample.charRuntime
    okxSwapInstrumentId (plainSwapSymbol "BTC-USDT-SWAP") = "BTC-USDT-SWAP" ∧
      plainSwapSymbol (okxSwapInstrumentId "btcUSDT") = upper "btcUSDT" := by
  intro _
  obtain ⟨hswap, hplain⟩ := @symbol_addresses_iff Sample.charRuntime Sample.caseTables
  have hbtc : IsAlnumText "BTC" := ⟨by decide, forall_chars (by decide +kernel)⟩
  have husdt : IsAlnumText "USDT" := ⟨by decide, forall_chars (by decide +kernel)⟩
  have hlower : IsAlnumText "btc" := ⟨by decide, forall_chars (by decide +kernel)⟩
  exact ⟨(hswap "BTC" "USDT" hbtc rfl husdt rfl).mpr rfl, hplain "btc" hlower⟩

/-- The instrument with quote `USD` is reported as a symbol that stands for no swap, and one with
quote `DT` as a symbol that stands for another. -/
theorem other_quotes_lost :
    let _ : Runtime := Sample.charRuntime
    okxSwapInstrumentId (plainSwapSymbol (swapInstrumentId "BTC" "USD")) = "BTCUSD" ∧
      okxSwapInstrumentId (plainSwapSymbol (swapInstrumentId "BTCUS" "DT")) = "BTC-USDT-SWAP" ∧
      ¬∀ base quote, IsAlnumText base → upper base = base → IsAlnumText quote →
        upper quote = quote → okxSwapInstrumentId (plainSwapSymbol (swapInstrumentId base quote)) =
          swapInstrumentId base quote := by
  intro _
  refine ⟨by decide +kernel, by decide +kernel, ?_⟩
  intro hall
  have hbtc : IsAlnumText "BTC" := ⟨by decide, forall_chars (by decide +kernel)⟩
  have husd : IsAlnumText "USD" := ⟨by decide, forall_chars (by decide +kernel)⟩
  exact absurd (hall "BTC" "USD" hbtc rfl husd rfl) (by decide +kernel)

end Reconciliation

end YtmExecutor
