import Mathlib.Data.List.GetD
import SqliteScanner.Tokenizer

/-!
# Quoting

All SQL that is sent to SQLite is put together from texts, and names and strings come from the
outside. They are quoted, and a quote within them is doubled (`WriteQuotedAndEscaped`). A name that
needs no quotes is written as it is, unless it is a keyword of DuckDB or SQLite
(`WriteOptionallyQuoted`).

What is written is one token of SQLite, whatever follows, and denotes the name or string. So two of
them are never written in the same way, and nothing in them is read as SQL.

What follows must not continue the token: not with the same quote, and after a name without quotes
not with a character of a name or, since `x'..'` is a blob, with an apostrophe.

## Main definitions

* `writeQuotedAndEscaped`, `writeOptionallyQuoted`
* `KeywordHelper` — what is known of DuckDB's names without quotes.
* `IsToken` — a token and what it denotes.

## Main results

* `isToken_writeQuotedAndEscaped`, `isToken_writeOptionallyQuoted`
* `quoting_exact`
-/

namespace SqliteScanner.Quoting

open Tokenizer

/-! ### The writer -/

section Writer

/-- The bytes of a text, where every quote is doubled. -/
def escapeQuotes (text : List ℕ) (quote : ℕ) : List ℕ :=
  text.flatMap fun c => if c = quote then [quote, c] else [c]

/-- `SQLiteUtils::WriteQuotedAndEscaped`. -/
def writeQuotedAndEscaped (text : List ℕ) (quote : ℕ) : List ℕ :=
  quote :: (escapeQuotes text quote ++ [quote])

/-- A character of a name without quotes. -/
def isPlain (c : ℕ) : Bool := isAlpha c || isDigit c || c = '_'.toNat

/-- `KeywordHelper::RequiresQuotes`: what needs no quotes is a word. -/
structure KeywordHelper where
  requiresQuotes : List ℕ → Bool → Bool
  isWord : ∀ text allowCaps, requiresQuotes text allowCaps = false →
    text ≠ [] ∧ text.all isPlain = true ∧ isDigit (byte text 0) = false

/-- `sqlite3_keyword_check`. -/
def keywordCheck (keywordCode : List ℕ → TokenType) (name : List ℕ) : Bool :=
  keywordCode name ≠ .id

/-- `SQLiteUtils::WriteOptionallyQuoted`. -/
def writeOptionallyQuoted (helper : KeywordHelper) (keywordCode : List ℕ → TokenType)
    (text : List ℕ) (quote : ℕ) (allowCaps : Bool) : List ℕ :=
  if !helper.requiresQuotes text allowCaps && !keywordCheck keywordCode text then text
  else writeQuotedAndEscaped text quote

def apostrophe : ℕ := '\''.toNat

def doubleQuote : ℕ := '"'.toNat

/-- `SQLiteSQLWriter::WriteConstant`, for a text. -/
def writeConstant (text : List ℕ) : Option (List ℕ) :=
  if text.contains 0 then none else some (writeQuotedAndEscaped text apostrophe)

end Writer

/-! ### Quoted texts -/

section Quoted

variable {keywordCode : List ℕ → TokenType}

/-- What is written is a token of a type that denotes a text, before all that may follow. -/
structure IsToken (keywordCode : List ℕ → TokenType) (written : List ℕ) (type : TokenType)
    (text rest : List ℕ) : Prop where
  getToken : getToken keywordCode (written ++ rest) = (type, written.length)
  denotes : dequote written = text

theorem escapeQuotes_cons_self (quote : ℕ) (text : List ℕ) :
    escapeQuotes (quote :: text) quote = quote :: quote :: escapeQuotes text quote := by
  rw [escapeQuotes, List.flatMap_cons, if_pos rfl]
  rfl

theorem escapeQuotes_cons_of_ne {quote c : ℕ} (hc : c ≠ quote) (text : List ℕ) :
    escapeQuotes (c :: text) quote = c :: escapeQuotes text quote := by
  rw [escapeQuotes, List.flatMap_cons, if_neg hc]
  rfl

/-- **The loop over a quoted text stops at the quote that was written last.** -/
theorem quoteLoop_escapeQuotes {quote : ℕ} {text rest : List ℕ} (hquote : quote ≠ 0)
    (htext : 0 ∉ text) (hrest : rest.head? ≠ some quote) (i : ℕ) :
    quoteLoop quote (escapeQuotes text quote ++ quote :: rest) i =
      (i + (escapeQuotes text quote).length, quote) := by
  induction text generalizing i with
  | nil => exact quoteLoop_end hquote hrest i
  | cons c text ih =>
    rw [List.mem_cons, not_or] at htext
    by_cases hc : c = quote
    · subst hc
      rw [escapeQuotes_cons_self, List.cons_append, List.cons_append, quoteLoop_doubled hquote,
        ih htext.2, List.length_cons, List.length_cons]
      congr 1
      omega
    · rw [escapeQuotes_cons_of_ne hc, List.cons_append, quoteLoop_of_ne (Ne.symm htext.1) hc,
        ih htext.2, List.length_cons]
      congr 1
      omega

theorem dequoteLoop_escapeQuotes (text : List ℕ) (quote : ℕ) :
    dequoteLoop quote (escapeQuotes text quote ++ [quote]) = text := by
  induction text with
  | nil => exact dequoteLoop_end
  | cons c text ih =>
    by_cases hc : c = quote
    · subst hc
      rw [escapeQuotes_cons_self, List.cons_append, List.cons_append, dequoteLoop_doubled, ih]
    · rw [escapeQuotes_cons_of_ne hc, List.cons_append, dequoteLoop_of_ne hc, ih]

/-- The type of a quoted text. -/
def quotedType (quote : ℕ) : TokenType := if quote = apostrophe then .string else .id

theorem length_writeQuotedAndEscaped (text : List ℕ) (quote : ℕ) :
    (writeQuotedAndEscaped text quote).length = 1 + (escapeQuotes text quote).length + 1 := by
  rw [writeQuotedAndEscaped, List.length_cons, List.length_append, List.length_singleton]
  omega

/-- **A quoted text is one token**, a string or an identifier. -/
theorem isToken_writeQuotedAndEscaped {quote : ℕ} {text rest : List ℕ}
    (hquote : quote = apostrophe ∨ quote = doubleQuote) (htext : 0 ∉ text)
    (hrest : rest.head? ≠ some quote) :
    IsToken keywordCode (writeQuotedAndEscaped text quote) (quotedType quote) text rest := by
  have hclass : charClass quote = .quote ∧ quote ≠ 0 ∧ isQuote quote = true ∧
      quote ≠ '['.toNat := by
    obtain rfl | rfl := hquote
    · decide
    · decide
  obtain ⟨hclass, hzero, hisQuote, hbracket⟩ := hclass
  constructor
  · have happend : writeQuotedAndEscaped text quote ++ rest =
        quote :: (escapeQuotes text quote ++ quote :: rest) := by
      rw [writeQuotedAndEscaped, List.cons_append, List.append_assoc, List.singleton_append]
    have hbyte : byte (quote :: (escapeQuotes text quote ++ quote :: rest)) 0 = quote := rfl
    rw [happend, getToken, hbyte, hclass]
    dsimp only
    rw [quoteToken, hbyte, List.drop_one, List.tail_cons, quoteLoop_escapeQuotes hzero htext hrest,
      length_writeQuotedAndEscaped, quotedType, apostrophe]
    dsimp only
    by_cases h : quote = '\''.toNat
    · rw [if_pos h, if_pos h]
    · rw [if_neg h, if_neg h, if_pos hzero]
  · rw [writeQuotedAndEscaped, dequote, if_pos hisQuote, if_neg hbracket, dequoteLoop_escapeQuotes]

end Quoted

/-! ### Words -/

section Words

variable {keywordCode : List ℕ → TokenType}

/-- A byte that does not continue a name, nor make it a blob. -/
def EndsWord (rest : List ℕ) : Prop := isIdChar (byte rest 0) = false ∧ byte rest 0 ≠ apostrophe

theorem isIdChar_of_isPlain {c : ℕ} (h : isPlain c = true) : isIdChar c = true := by
  rw [isIdChar, ← isPlain, h]
  rfl

theorem isIdChar_of_isKeywordChar {c : ℕ} (h : isKeywordChar c = true) : isIdChar c = true := by
  rcases lt_or_ge c 128 with hlt | hge
  · have hall : ∀ c < 128, isKeywordChar c = true → isIdChar c = true := by decide +kernel
    exact hall c hlt h
  · simp only [isIdChar, Bool.or_eq_true, decide_eq_true_eq]
    exact .inr hge

theorem lt_of_isPlain {c : ℕ} (h : isPlain c = true) : c < 128 := by
  simp [isPlain, isAlpha, isDigit] at h
  omega

/-- A character of a word is a digit or one of a keyword. -/
theorem isDigit_or_isKeywordChar {c : ℕ} (h : isPlain c = true) :
    isDigit c = true ∨ isKeywordChar c = true := by
  have hall : ∀ c < 128, isPlain c = true → isDigit c = true ∨ isKeywordChar c = true := by
    decide +kernel
  exact hall c (lt_of_isPlain h) h

theorem isPlain_ne_quote {c : ℕ} (h : isPlain c = true) : isQuote c = false ∧ c ≠ apostrophe := by
  have hall : ∀ c < 128, isPlain c = true → isQuote c = false ∧ c ≠ apostrophe := by decide +kernel
  exact hall c (lt_of_isPlain h) h

theorem span_append {p : ℕ → Bool} {u rest : List ℕ} (hu : ∀ c ∈ u, p c = true)
    (hrest : p (byte rest 0) = false) : span p (u ++ rest) = u.length := by
  have htake : rest.takeWhile p = [] := by
    cases rest with
    | nil => rfl
    | cons d rest =>
      have hd : p d = false := hrest
      rw [List.takeWhile_cons, hd]
      rfl
  rw [span, List.takeWhile_append_of_pos hu, htake, List.append_nil]

theorem idToken_append {u v rest : List ℕ} {i : ℕ} (hi : u.length = i)
    (hv : ∀ c ∈ v, isIdChar c = true) (hrest : isIdChar (byte rest 0) = false) :
    idToken (u ++ (v ++ rest)) i = (.id, (u ++ v).length) := by
  rw [idToken, ← hi, List.drop_left, span_append hv hrest, List.length_append]

/-- The byte after a part of a text. -/
theorem byte_append_length (u v : List ℕ) : byte (u ++ v) u.length = byte v 0 := by
  rw [byte, byte, List.getD_append_right _ _ _ _ le_rfl, Nat.sub_self]

/-- The case of a first letter of a keyword: the word is looked up unless it has a digit. -/
theorem kywd0_word {c : ℕ} {word rest : List ℕ} (hplain : ∀ d ∈ word, isPlain d = true)
    (hkeyword : keywordCode (c :: word) = .id) (hrest : isIdChar (byte rest 0) = false) :
    (if isIdChar (byte (c :: word ++ rest) (1 + span isKeywordChar (word ++ rest))) then
      idToken (c :: word ++ rest) (1 + span isKeywordChar (word ++ rest) + 1)
    else
      (keywordCode ((c :: word ++ rest).take (1 + span isKeywordChar (word ++ rest))),
        1 + span isKeywordChar (word ++ rest))) = (.id, (c :: word).length) := by
  obtain ⟨u, hu⟩ : ∃ u, word.takeWhile isKeywordChar = u := ⟨_, rfl⟩
  obtain ⟨v, hv⟩ : ∃ v, word.dropWhile isKeywordChar = v := ⟨_, rfl⟩
  have hword : word = u ++ v := by rw [← hu, ← hv, List.takeWhile_append_dropWhile]
  have hkeywordChar : ∀ d ∈ u, isKeywordChar d = true := by
    intro d hd
    rw [← hu] at hd
    exact List.mem_takeWhile_imp hd
  have hlength : 1 + u.length = (c :: u).length := by rw [List.length_cons, Nat.add_comm]
  cases v with
  | nil =>
    -- All of it could be a keyword.
    rw [List.append_nil] at hword
    subst hword
    have hstop : isKeywordChar (byte rest 0) = false := by
      by_contra h
      rw [Bool.not_eq_false] at h
      rw [isIdChar_of_isKeywordChar h] at hrest
      contradiction
    rw [span_append hkeywordChar hstop, hlength, byte_append_length, hrest, List.take_left, hkeyword]
    rfl
  | cons d v =>
    have hd : isKeywordChar d = false := by
      have hhead := List.head_dropWhile_not isKeywordChar (by rw [hv]; exact List.cons_ne_nil d v)
      simpa [hv] using hhead
    have hplain' : isPlain d = true ∧ ∀ e ∈ v, isPlain e = true := by
      rw [hword, List.forall_mem_append, List.forall_mem_cons] at hplain
      exact hplain.2
    have hspan : span isKeywordChar (word ++ rest) = u.length := by
      rw [hword, List.append_assoc]
      exact span_append hkeywordChar hd
    have hbyte : byte (c :: word ++ rest) (1 + u.length) = d := by
      rw [hlength, hword, List.cons_append, List.append_assoc, ← List.cons_append, byte_append_length]
      rfl
    have hid : ∀ e ∈ v, isIdChar e = true := fun e he => isIdChar_of_isPlain (hplain'.2 e he)
    have hsplit : c :: word ++ rest = (c :: u ++ [d]) ++ (v ++ rest) := by simp [hword]
    rw [hspan, hbyte, if_pos (isIdChar_of_isPlain hplain'.1), hsplit,
      idToken_append (by simp; omega) hid hrest, hword]
    simp

/-- **A word is one identifier**, if it is not a keyword. -/
theorem getToken_word {word rest : List ℕ} (hne : word ≠ []) (hplain : ∀ c ∈ word, isPlain c = true)
    (hdigit : isDigit (byte word 0) = false) (hkeyword : keywordCode word = .id)
    (hrest : EndsWord rest) : getToken keywordCode (word ++ rest) = (.id, word.length) := by
  obtain ⟨c, word, rfl⟩ := List.exists_cons_of_ne_nil hne
  rw [List.forall_mem_cons] at hplain
  have hid : ∀ d ∈ word, isIdChar d = true := fun d hd => isIdChar_of_isPlain (hplain.2 d hd)
  have hidToken : idToken (c :: word ++ rest) 1 = (.id, (c :: word).length) :=
    @idToken_append [c] word rest 1 rfl hid hrest.1
  have hclass : isKeywordChar c = true :=
    (isDigit_or_isKeywordChar hplain.1).resolve_left (ne_true_of_eq_false hdigit)
  have hbyte : byte (c :: word ++ rest) 0 = c := rfl
  rw [getToken, hbyte]
  simp only [isKeywordChar, Bool.or_eq_true, decide_eq_true_eq] at hclass
  obtain (hclass | hclass) | hclass := hclass
  · -- `x` is not followed by an apostrophe.
    have hnext : byte (c :: word ++ rest) 1 ≠ apostrophe := by
      cases word with
      | nil => exact hrest.2
      | cons d word => exact (isPlain_ne_quote (hplain.2 d List.mem_cons_self)).2
    rw [hclass]
    exact (if_neg hnext).trans hidToken
  · rw [hclass]
    exact kywd0_word hplain.2 hkeyword hrest.1
  · rw [hclass]
    exact hidToken

theorem dequote_word {word : List ℕ} (hplain : ∀ c ∈ word, isPlain c = true) : dequote word = word := by
  cases word with
  | nil => rfl
  | cons c word =>
    have hc := (isPlain_ne_quote (hplain c List.mem_cons_self)).1
    rw [dequote, hc]
    rfl

/-- **A name is one identifier**, quoted or not. -/
theorem isToken_writeOptionallyQuoted {helper : KeywordHelper} {name rest : List ℕ}
    {allowCaps : Bool} (hname : 0 ∉ name) (hrest : EndsWord rest)
    (hquote : rest.head? ≠ some doubleQuote) :
    IsToken keywordCode (writeOptionallyQuoted helper keywordCode name doubleQuote allowCaps) .id name
      rest := by
  rw [writeOptionallyQuoted]
  split_ifs with hplain
  · rw [Bool.and_eq_true, Bool.not_eq_true', Bool.not_eq_true', keywordCheck, decide_eq_false_iff_not,
      not_not] at hplain
    obtain ⟨hne, hall, hdigit⟩ := helper.isWord name allowCaps hplain.1
    rw [List.all_eq_true] at hall
    exact ⟨getToken_word hne hall hdigit hplain.2 hrest, dequote_word hall⟩
  · exact isToken_writeQuotedAndEscaped (.inr rfl) hname hquote

end Words

/-! ### All of it -/

section Exact

/-- Quoting is exact: what is written is one token that denotes the text, and different texts are
written in different ways, whatever follows. -/
structure QuotesExactly (helper : KeywordHelper) (keywordCode : List ℕ → TokenType) : Prop where
  string : ∀ text rest, 0 ∉ text → rest.head? ≠ some apostrophe →
    IsToken keywordCode (writeQuotedAndEscaped text apostrophe) .string text rest
  identifier : ∀ text rest, 0 ∉ text → rest.head? ≠ some doubleQuote →
    IsToken keywordCode (writeQuotedAndEscaped text doubleQuote) .id text rest
  constant : ∀ text written rest, writeConstant text = some written →
    rest.head? ≠ some apostrophe → IsToken keywordCode written .string text rest
  injective : ∀ quote, quote = apostrophe ∨ quote = doubleQuote → ∀ text text' rest rest',
    0 ∉ text → 0 ∉ text' → rest.head? ≠ some quote → rest'.head? ≠ some quote →
      writeQuotedAndEscaped text quote ++ rest = writeQuotedAndEscaped text' quote ++ rest' →
        text = text' ∧ rest = rest'
  name : ∀ name rest allowCaps, 0 ∉ name → EndsWord rest → rest.head? ≠ some doubleQuote →
    IsToken keywordCode (writeOptionallyQuoted helper keywordCode name doubleQuote allowCaps) .id name
      rest

/-- Two tokens at the start of one text are the same. -/
theorem IsToken.eq {keywordCode : List ℕ → TokenType} {written written' text text' rest rest' : List ℕ}
    {type type' : TokenType} (h : IsToken keywordCode written type text rest)
    (h' : IsToken keywordCode written' type' text' rest') (happend : written ++ rest = written' ++ rest') :
    text = text' ∧ rest = rest' := by
  have htoken := h.getToken
  rw [happend, h'.getToken] at htoken
  have hlength : written.length = written'.length := (Prod.mk.inj htoken).2.symm
  obtain ⟨hwritten, hrest⟩ := List.append_inj happend hlength
  rw [← h.denotes, ← h'.denotes, hwritten]
  exact ⟨rfl, hrest⟩

/-- **Quoting is exact**, for all texts, names and keywords. -/
theorem quoting_exact (helper : KeywordHelper) (keywordCode : List ℕ → TokenType) :
    QuotesExactly helper keywordCode where
  string := fun _ _ htext hrest => isToken_writeQuotedAndEscaped (.inl rfl) htext hrest
  identifier := fun _ _ htext hrest => isToken_writeQuotedAndEscaped (.inr rfl) htext hrest
  constant := by
    intro text written rest hwritten hrest
    rw [writeConstant] at hwritten
    split_ifs at hwritten with htext
    rw [List.contains_iff_mem] at htext
    rw [← Option.some.inj hwritten]
    exact isToken_writeQuotedAndEscaped (.inl rfl) htext hrest
  injective := by
    intro quote hquote text text' rest rest' htext htext' hrest hrest' happend
    have htoken := @isToken_writeQuotedAndEscaped keywordCode quote text rest hquote htext hrest
    exact htoken.eq (isToken_writeQuotedAndEscaped hquote htext' hrest') happend
  name := fun _ _ _ hname hrest hquote => isToken_writeOptionallyQuoted hname hrest hquote

/-- Quotes are needed by all but words, and by words with capitals where these are not allowed. -/
def words : KeywordHelper where
  requiresQuotes text allowCaps :=
    text = [] || !text.all (fun c => isPlain c && (allowCaps || !(65 ≤ c && c ≤ 90))) ||
      isDigit (byte text 0)
  isWord := by
    intro text allowCaps h
    simp only [Bool.or_eq_false_iff, decide_eq_false_iff_not, Bool.not_eq_false'] at h
    refine ⟨h.1.1, List.all_eq_true.mpr fun c hc => ?_, h.2⟩
    exact (Bool.and_eq_true_iff.mp (List.all_eq_true.mp h.1.2 c hc)).1

/-- The keyword `order` is quoted and the name `t1` is not, and both are read as names. -/
theorem quoting_exact_order :
    let bytes (text : String) := text.toList.map Char.toNat
    let keywordCode name : TokenType := if name = bytes "order" then .keyword 0 else .id
    IsToken keywordCode (bytes "\"order\"") .id (bytes "order") (bytes " by") ∧
      IsToken keywordCode (bytes "t1") .id (bytes "t1") (bytes " by") := by
  intro bytes keywordCode
  have horder : writeOptionallyQuoted words keywordCode (bytes "order") doubleQuote false =
      bytes "\"order\"" := by decide
  have ht1 : writeOptionallyQuoted words keywordCode (bytes "t1") doubleQuote false = bytes "t1" := by
    decide
  have h := quoting_exact words keywordCode
  exact ⟨horder ▸ h.name (bytes "order") _ false (by decide) ⟨by decide, by decide⟩ (by decide),
    ht1 ▸ h.name (bytes "t1") _ false (by decide) ⟨by decide, by decide⟩ (by decide)⟩

end Exact

end SqliteScanner.Quoting
