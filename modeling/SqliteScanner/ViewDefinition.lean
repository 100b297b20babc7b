import SqliteScanner.Internal.Lexing

/-!
# Views that DuckDB cannot bind

The definition of a SQLite view is SQL of SQLite. If DuckDB cannot bind it, `GetCatalogEntry` makes
another one, which sends the query of the view to SQLite:

```
CREATE VIEW name AS FROM sqlite_query("catalog", 'query')
```

The quotes in the name of the catalog and in the query are doubled, so each of them is read as one
token. The name of the view is put in as it is. A view can have any name in SQLite, so a name that
has to be quoted is read as other tokens, and a name in a database file that somebody else has made
is read as SQL.

So the text is what is meant exactly if the name is an identifier and no keyword of DuckDB that has
to be quoted, and the catalog has a name (`means_viewDefinition_iff`).

The lexer here is that of DuckDB, as far as it matters. Every token is read with the part of the
text that it is read from. String constants with a letter in front of them or between dollar signs
are not read. An identifier as an argument of a table function stands for its name.

## Main definitions

* `viewDefinition` — the text.
* `lex`, `parse` — how it is read.
* `Means` — what it is meant to be: one statement, in which the name, the catalog and the query are
  one token each.
-/

namespace SqliteScanner.ViewDefinition

open Lexing (Text escape readQuoted isStart isPart readQuoted_escape span_append)

/-! ### The text -/

/-- The fallback of `SQLiteTransaction::GetCatalogEntry`. -/
def viewDefinition (entryName catalogName viewSql : Text) : Text :=
  "CREATE VIEW ".toList ++ (entryName ++ (" AS FROM sqlite_query(\"".toList ++
    (escape '"' catalogName ++ ("\", '".toList ++ (escape '\'' viewSql ++ "')".toList)))))

/-! ### How it is read -/

/-- What is used of DuckDB's lexer: the characters beyond ASCII that it takes for blanks, and the
keywords that cannot be names. The function of the text is not one of them. -/
structure DuckDB where
  unicodeSpace : Char → Bool
  reserved : Text → Bool
  unicodeSpace_ascii : ∀ c, unicodeSpace c = true → 128 ≤ c.toNat
  reserved_function : reserved "sqlite_query".toList = false

inductive Token where
  | word (w : Text)
  | quoted (name : Text)
  | string (s : Text)
  | symbol (c : Char)
  deriving DecidableEq

variable (duckdb : DuckDB)

def isSpace (c : Char) : Bool :=
  c ∈ [' ', '\t', '\n', '\r', '\x0b', '\x0c'] || duckdb.unicodeSpace c

/-- A character that a word can go on with. -/
def continues (c : Char) : Bool :=
  isPart c && !duckdb.unicodeSpace c

/-- The token that starts with `c`, and the text after it. -/
def readToken (c : Char) (cs : Text) : Option (Token × Text) :=
  if c = '\'' then (readQuoted '\'' cs).map fun r => (.string r.1, r.2)
  else if c = '"' then (readQuoted '"' cs).map fun r => (.quoted r.1, r.2)
  else if isStart c then
    let rest := cs.dropWhile (continues duckdb)
    -- such a word belongs to a string constant
    if rest.head? = some '\'' then none
    else some (.word (c :: cs.takeWhile (continues duckdb)), rest)
  else if c = '$' then none
  else some (.symbol c, cs)

/-- The text after a comment, which can have comments in it. -/
def afterComment : ℕ → Text → Text
  | _, [] => []
  | _, [_] => []
  | depth, c :: d :: cs =>
    if c = '*' ∧ d = '/' then if depth = 0 then cs else afterComment (depth - 1) cs
    else if c = '/' ∧ d = '*' then afterComment (depth + 1) cs
    else afterComment depth (d :: cs)

/-- A token and the text that it is read from. -/
structure Span where
  token : Token
  raw : Text
  deriving DecidableEq

def lex : ℕ → Text → Option (List Span)
  | 0, _ => none
  | _ + 1, [] => some []
  | n + 1, c :: cs =>
    if isSpace duckdb c then lex n cs
    else if c = '-' ∧ cs.head? = some '-' then lex n (cs.dropWhile fun d => d ≠ '\n')
    else if c = '/' ∧ cs.head? = some '*' then lex n (afterComment 0 cs.tail)
    else
      match readToken duckdb c cs with
      | none => none
      | some (token, rest) =>
        (lex n rest).map (⟨token, (c :: cs).take ((c :: cs).length - rest.length)⟩ :: ·)

/-- An argument of a function. -/
inductive Argument where
  | name (n : Text)
  | string (s : Text)
  deriving DecidableEq

/-- `CREATE VIEW name AS FROM function(arguments)`. -/
structure CreateView where
  name : Text
  function : Text
  arguments : List Argument
  deriving DecidableEq

def keyword (k : String) : Token → Bool
  | .word w => w.map Char.toUpper = k.toList
  | _ => false

/-- A name: an identifier is not empty. -/
def nameOf : Token → Option Text
  | .word w => if duckdb.reserved w then none else some w
  | .quoted name => if name = [] then none else some name
  | _ => none

def argumentOf : Token → Option Argument
  | .string s => some (.string s)
  | t => (nameOf duckdb t).map .name

/-- The statement of tokens, if it is a `CREATE VIEW` of this form. -/
def parse : List Token → Option CreateView
  | [create, view, name, as_, from_, function, .symbol '(', first, .symbol ',', second,
      .symbol ')'] =>
    if keyword "CREATE" create && keyword "VIEW" view && keyword "AS" as_ &&
        keyword "FROM" from_ then
      (nameOf duckdb name).bind fun name => (nameOf duckdb function).bind fun function =>
        (argumentOf duckdb first).bind fun first => (argumentOf duckdb second).map fun second =>
          ⟨name, function, [first, second]⟩
    else none
  | _ => none

/-! ### What it is meant to be -/

/-- The tokens of the text, with each of the texts that are put in as one token. -/
def meantRaws (entryName catalogName viewSql : Text) : List Text :=
  ["CREATE".toList, "VIEW".toList, entryName, "AS".toList, "FROM".toList, "sqlite_query".toList,
    ['('], '"' :: (escape '"' catalogName ++ ['"']), [','],
    '\'' :: (escape '\'' viewSql ++ ['\'']), [')']]

/-- The text is one `CREATE VIEW` of the view, as a call of `sqlite_query` with the catalog and the
query, and nothing of the texts that are put in is read as further SQL. -/
def Means (text entryName catalogName viewSql : Text) : Prop :=
  ∃ spans, lex duckdb (text.length + 1) text = some spans ∧
    parse duckdb (spans.map Span.token) =
      some ⟨entryName, "sqlite_query".toList, [.name catalogName, .string viewSql]⟩ ∧
    spans.map Span.raw = meantRaws entryName catalogName viewSql

/-- A name that is read as it is. -/
def IsIdentifier (name : Text) : Prop :=
  (∃ c ∈ name.head?, isStart c = true ∧ duckdb.unicodeSpace c = false) ∧
    (∀ c ∈ name, continues duckdb c = true) ∧ duckdb.reserved name = false

/-! ### What a token is read from -/

section Spans

variable {duckdb : DuckDB}

/-- A word is read from itself, and a quoted name from a longer text. -/
def Span.Sound (duckdb : DuckDB) (span : Span) : Prop :=
  match span.token with
  | .word w => span.raw = w ∧ (∃ c ∈ w.head?, isStart c = true ∧ duckdb.unicodeSpace c = false) ∧
      ∀ c ∈ w, continues duckdb c = true
  | .quoted name => name.length + 2 ≤ span.raw.length
  | _ => True

theorem length_of_readQuoted {q : Char} {cs s rest : Text} (h : readQuoted q cs = some (s, rest)) :
    s.length + 1 + rest.length ≤ cs.length := by
  fun_induction readQuoted q cs generalizing s rest with
  | case1 => cases h
  | case2 => cases h; simp
  | case3 => cases h
  | case4 cs ih =>
    obtain ⟨⟨s', rest'⟩, hr, heq⟩ := Option.map_eq_some_iff.mp h
    obtain ⟨rfl, rfl⟩ := Prod.mk.inj heq
    have := ih hr
    simp only [List.length_cons]
    omega
  | case5 d cs hd =>
    cases h
    simp only [List.length_nil, List.length_cons]
    omega
  | case6 c d cs hc ih =>
    obtain ⟨⟨s', rest'⟩, hr, heq⟩ := Option.map_eq_some_iff.mp h
    obtain ⟨rfl, rfl⟩ := Prod.mk.inj heq
    have := ih hr
    simp only [List.length_cons] at this ⊢
    omega

theorem take_length_sub (w rest : Text) :
    (w ++ rest).take ((w ++ rest).length - rest.length) = w := by
  simp

theorem continues_of_isStart {c : Char} (hstart : isStart c = true)
    (hspace : duckdb.unicodeSpace c = false) : continues duckdb c = true := by
  simp [continues, isPart, hstart, hspace]

theorem sound_of_readToken {c : Char} {cs rest : Text} {token : Token}
    (hspace : isSpace duckdb c = false) (h : readToken duckdb c cs = some (token, rest)) :
    Span.Sound duckdb ⟨token, (c :: cs).take ((c :: cs).length - rest.length)⟩ := by
  unfold readToken at h
  split at h
  · obtain ⟨r, -, heq⟩ := Option.map_eq_some_iff.mp h
    cases heq
    trivial
  split at h
  · obtain ⟨⟨name, rest'⟩, hr, heq⟩ := Option.map_eq_some_iff.mp h
    obtain ⟨rfl, rfl⟩ := Prod.mk.inj heq
    have := length_of_readQuoted hr
    simp only [Span.Sound, List.length_take, List.length_cons]
    omega
  split at h
  · case isTrue hstart =>
    have hunicode : duckdb.unicodeSpace c = false := by
      simp only [isSpace, Bool.or_eq_false_iff] at hspace
      exact hspace.2
    dsimp only at h
    split at h
    · cases h
    · obtain ⟨rfl, rfl⟩ := Prod.mk.inj (Option.some.inj h)
      refine ⟨?_, ⟨c, rfl, hstart, hunicode⟩, ?_⟩
      · have hsplit : c :: cs = (c :: cs.takeWhile (continues duckdb)) ++
            cs.dropWhile (continues duckdb) := by simp
        rw [hsplit]
        exact take_length_sub _ _
      · intro d hd
        rcases List.mem_cons.mp hd with rfl | hd
        · exact continues_of_isStart hstart hunicode
        · exact List.all_eq_true.mp List.all_takeWhile d hd
  split at h
  · cases h
  · cases h
    trivial

theorem sound_of_lex {n : ℕ} {text : Text} {spans : List Span}
    (h : lex duckdb n text = some spans) : ∀ span ∈ spans, span.Sound duckdb := by
  induction n generalizing text spans with
  | zero => cases h
  | succ n ih =>
    cases text with
    | nil =>
      cases h
      simp
    | cons c cs =>
      rw [lex] at h
      split at h
      · exact ih h
      · case isFalse hspace =>
        split at h
        · exact ih h
        · split at h
          · exact ih h
          · split at h
            · cases h
            · case h_2 token rest hread =>
              obtain ⟨spans', hrest, rfl⟩ := Option.map_eq_some_iff.mp h
              intro span hspan
              rcases List.mem_cons.mp hspan with rfl | hspan
              · exact sound_of_readToken (by simpa using hspace) hread
              · exact ih hrest span hspan

end Spans

/-! ### Reading one token -/

section Read

variable {duckdb : DuckDB} {rest : Text}

theorem unicodeSpace_eq_false {c : Char} (hascii : c.toNat < 128) :
    duckdb.unicodeSpace c = false := by
  by_contra h
  have := duckdb.unicodeSpace_ascii c (by simpa using h)
  omega

theorem isSpace_eq_false {c : Char} (hascii : c.toNat < 128)
    (hspace : c ∉ [' ', '\t', '\n', '\r', '\x0b', '\x0c']) : isSpace duckdb c = false := by
  simp only [isSpace, unicodeSpace_eq_false hascii, Bool.or_false]
  exact decide_eq_false hspace

theorem lex_space (n : ℕ) : lex duckdb (n + 1) (' ' :: rest) = lex duckdb n rest := by
  simp [lex, isSpace]

/-- A token that does not start a comment is read. -/
theorem lex_of_readToken {c : Char} {cs raw : Text} {token : Token} (n : ℕ)
    (hspace : isSpace duckdb c = false) (hminus : c ≠ '-') (hslash : c ≠ '/')
    (hsplit : c :: cs = raw ++ rest) (h : readToken duckdb c cs = some (token, rest)) :
    lex duckdb (n + 1) (c :: cs) = (lex duckdb n rest).map (⟨token, raw⟩ :: ·) := by
  rw [lex, hspace, if_neg (by decide), if_neg fun hc => hminus hc.1,
    if_neg fun hc => hslash hc.1, h]
  simp only [hsplit, take_length_sub]

theorem lex_symbol {c : Char} (n : ℕ) (hc : c = '(' ∨ c = ',' ∨ c = ')') :
    lex duckdb (n + 1) (c :: rest) = (lex duckdb n rest).map (⟨.symbol c, [c]⟩ :: ·) := by
  rcases hc with rfl | rfl | rfl <;>
    exact lex_of_readToken n (isSpace_eq_false (by decide) (by decide)) (by decide) (by decide) rfl
      rfl

theorem lex_quoted {name : Text} (n : ℕ) (hrest : rest.head? ≠ some '"') :
    lex duckdb (n + 1) ('"' :: (escape '"' name ++ '"' :: rest)) =
      (lex duckdb n rest).map (⟨.quoted name, '"' :: (escape '"' name ++ ['"'])⟩ :: ·) := by
  refine lex_of_readToken n (isSpace_eq_false (by decide) (by decide)) (by decide) (by decide)
    (by simp) ?_
  rw [readToken, if_neg (by decide), if_pos rfl, readQuoted_escape name hrest]
  rfl

theorem lex_string {s : Text} (n : ℕ) (hrest : rest.head? ≠ some '\'') :
    lex duckdb (n + 1) ('\'' :: (escape '\'' s ++ '\'' :: rest)) =
      (lex duckdb n rest).map (⟨.string s, '\'' :: (escape '\'' s ++ ['\''])⟩ :: ·) := by
  refine lex_of_readToken n (isSpace_eq_false (by decide) (by decide)) (by decide) (by decide)
    (by simp) ?_
  rw [readToken, if_pos rfl, readQuoted_escape s hrest]
  rfl

/-- A word ends before a blank or a parenthesis. -/
theorem lex_word {w : Text} (n : ℕ)
    (hstart : ∃ c ∈ w.head?, isStart c = true ∧ duckdb.unicodeSpace c = false)
    (hw : ∀ c ∈ w, continues duckdb c = true) {c : Char} (hc : c = ' ' ∨ c = '(') :
    lex duckdb (n + 1) (w ++ c :: rest) =
      (lex duckdb n (c :: rest)).map (⟨.word w, w⟩ :: ·) := by
  obtain ⟨a, ha, hstart, hunicode⟩ := hstart
  obtain ⟨as, rfl⟩ := List.head?_eq_some_iff.mp ha
  have hother (d : Char) (hd : isStart d = false) : a ≠ d := by
    rintro rfl
    rw [hstart] at hd
    cases hd
  have hspaces : ∀ d ∈ [' ', '\t', '\n', '\r', '\x0b', '\x0c'], isStart d = false := by
    simp [isStart]
  have hspace : isSpace duckdb a = false := by
    simp only [isSpace, hunicode, Bool.or_false]
    exact decide_eq_false fun hmem => hother a (hspaces a hmem) rfl
  have hend : ∀ d ∈ (c :: rest).head?, continues duckdb d = false := by
    rintro d ⟨⟩
    rcases hc with rfl | rfl <;> rfl
  have hsplit := span_append (fun d hd => hw d (List.mem_cons_of_mem a hd)) hend
  have hquote : (c :: rest).head? ≠ some '\'' := by
    rcases hc with rfl | rfl <;> simp
  have hread : readToken duckdb a (as ++ c :: rest) = some (.word (a :: as), c :: rest) := by
    rw [readToken, if_neg (hother '\'' rfl), if_neg (hother '"' rfl), if_pos hstart]
    simp only [hsplit.1, hsplit.2, if_neg hquote]
  exact lex_of_readToken n hspace (hother '-' rfl) (hother '/' rfl) (by simp) hread

end Read

/-! ### Reading the text -/

section Means

variable {duckdb : DuckDB} {entryName catalogName viewSql : Text}

/-- A word of ASCII characters. -/
def IsAsciiWord (w : Text) : Prop :=
  (∃ c ∈ w.head?, isStart c = true) ∧ ∀ c ∈ w, c.toNat < 128 ∧ isPart c = true

theorem isAsciiWord_iff (w : Text) :
    (w.head?.any isStart && w.all fun c => c.toNat < 128 && isPart c) = true ↔
      IsAsciiWord w := by
  simp [IsAsciiWord, Option.any_eq_true]

instance (w : Text) : Decidable (IsAsciiWord w) := decidable_of_iff _ (isAsciiWord_iff w)

theorem lex_asciiWord {w rest : Text} (n : ℕ) (hw : IsAsciiWord w) {c : Char}
    (hc : c = ' ' ∨ c = '(') : lex duckdb (n + 1) (w ++ c :: rest) =
      (lex duckdb n (c :: rest)).map (⟨.word w, w⟩ :: ·) := by
  obtain ⟨⟨a, ha, hstart⟩, hw⟩ := hw
  have hunicode : duckdb.unicodeSpace a = false :=
    unicodeSpace_eq_false (hw a (List.mem_of_mem_head? ha)).1
  refine lex_word n ⟨a, ha, hstart, hunicode⟩ (fun d hd => ?_) hc
  obtain ⟨hascii, hpart⟩ := hw d hd
  simp [continues, hpart, unicodeSpace_eq_false hascii]

/-- The text as the tokens that it is meant to have, and blanks. -/
theorem viewDefinition_eq : viewDefinition entryName catalogName viewSql =
    "CREATE".toList ++ ' ' :: ("VIEW".toList ++ ' ' :: (entryName ++ ' ' :: ("AS".toList ++ ' ' ::
      ("FROM".toList ++ ' ' :: ("sqlite_query".toList ++ '(' ::
        ('"' :: (escape '"' catalogName ++ '"' :: (',' :: ' ' ::
          ('\'' :: (escape '\'' viewSql ++ '\'' :: [')'])))))))))) := by
  rfl

def meantTokens (entryName catalogName viewSql : Text) : List Token :=
  [.word "CREATE".toList, .word "VIEW".toList, .word entryName, .word "AS".toList,
    .word "FROM".toList, .word "sqlite_query".toList, .symbol '(', .quoted catalogName,
    .symbol ',', .string viewSql, .symbol ')']

/-- With an identifier as the name, the text is read as the tokens that it is meant to have. -/
theorem lex_viewDefinition
    (hstart : ∃ c ∈ entryName.head?, isStart c = true ∧ duckdb.unicodeSpace c = false)
    (hname : ∀ c ∈ entryName, continues duckdb c = true) (n : ℕ) :
    lex duckdb (n + 18) (viewDefinition entryName catalogName viewSql) =
      some (List.zipWith Span.mk (meantTokens entryName catalogName viewSql)
        (meantRaws entryName catalogName viewSql)) := by
  rw [viewDefinition_eq, lex_asciiWord _ (by decide) (.inl rfl), lex_space,
    lex_asciiWord _ (by decide) (.inl rfl), lex_space, lex_word _ hstart hname (.inl rfl),
    lex_space,
    lex_asciiWord _ (by decide) (.inl rfl), lex_space, lex_asciiWord _ (by decide) (.inl rfl),
    lex_space, lex_asciiWord _ (by decide) (.inr rfl), lex_symbol _ (.inl rfl),
    lex_quoted _ (by simp), lex_symbol _ (.inr (.inl rfl)), lex_space, lex_string _ (by simp),
    lex_symbol _ (.inr (.inr rfl))]
  rfl

/-- A name that is read as one token, as it is, is an identifier: a quoted name is shorter than the
text that it is read from. -/
theorem isIdentifier_of_sound {span : Span} (hsound : span.Sound duckdb)
    (hname : nameOf duckdb span.token = some entryName) (hraw : span.raw = entryName) :
    IsIdentifier duckdb entryName := by
  obtain ⟨token, raw⟩ := span
  obtain rfl : raw = entryName := hraw
  cases token with
  | word w =>
    obtain ⟨hraw, hstart, hw⟩ := hsound
    obtain rfl : raw = w := hraw
    have hreserved : duckdb.reserved raw = false := by
      by_contra h
      simp [nameOf, h] at hname
    exact ⟨hstart, hw, hreserved⟩
  | quoted name =>
    have heq : name = raw := by
      simp only [nameOf] at hname
      split at hname
      · cases hname
      · exact Option.some.inj hname
    have hlength : name.length + 2 ≤ raw.length := hsound
    rw [heq] at hlength
    omega
  | string s => cases hname
  | symbol c => cases hname

theorem parse_meantTokens (hreserved : duckdb.reserved entryName = false)
    (hcatalog : catalogName ≠ []) : parse duckdb (meantTokens entryName catalogName viewSql) =
      some ⟨entryName, "sqlite_query".toList, [.name catalogName, .string viewSql]⟩ := by
  have hname : nameOf duckdb (.word entryName) = some entryName := by
    simp [nameOf, hreserved]
  have hfunction : nameOf duckdb (.word "sqlite_query".toList) = some "sqlite_query".toList := by
    rw [nameOf, duckdb.reserved_function]
    rfl
  have hfirst : argumentOf duckdb (.quoted catalogName) = some (.name catalogName) := by
    simp [argumentOf, nameOf, hcatalog]
  rw [meantTokens, parse, if_pos (by decide), hname, Option.bind_some, hfunction, Option.bind_some,
    hfirst]
  rfl

/-- The tokens that a name and a first argument are read from. -/
theorem tokens_of_parse {tokens : List Token} {view : CreateView}
    (h : parse duckdb tokens = some view) :
    (∃ t, tokens[2]? = some t ∧ nameOf duckdb t = some view.name) ∧
      ∃ t, tokens[7]? = some t ∧ argumentOf duckdb t = view.arguments.head? := by
  unfold parse at h
  split at h
  · split at h
    · simp only [Option.bind_eq_some_iff, Option.map_eq_some_iff] at h
      obtain ⟨name, hname, function, -, first, hfirst, second, -, rfl⟩ := h
      exact ⟨⟨_, rfl, hname⟩, _, rfl, hfirst⟩
    · cases h
  · cases h

/-- No name is empty. -/
theorem ne_nil_of_argumentOf {span : Span} {name : Text} (hsound : span.Sound duckdb)
    (h : argumentOf duckdb span.token = some (.name name)) : name ≠ [] := by
  obtain ⟨token, raw⟩ := span
  rintro rfl
  cases token with
  | word w =>
    obtain ⟨-, ⟨c, hc, -⟩, -⟩ := hsound
    simp only [argumentOf, nameOf, Option.map_eq_some_iff] at h
    obtain ⟨n, hn, heq⟩ := h
    cases heq
    split at hn
    · cases hn
    · cases hn
      cases hc
  | quoted n =>
    simp only [argumentOf, nameOf, Option.map_eq_some_iff] at h
    obtain ⟨m, hm, heq⟩ := h
    cases heq
    split at hm
    · cases hm
    · case isFalse hne =>
      cases hm
      exact hne rfl
  | string s => cases h
  | symbol c => cases h

/-- **The definition is what it is meant to be exactly if the name of the view is an identifier that
needs no quotes, and the catalog has a name.** -/
theorem means_viewDefinition_iff :
    Means duckdb (viewDefinition entryName catalogName viewSql) entryName catalogName viewSql ↔
      IsIdentifier duckdb entryName ∧ catalogName ≠ [] := by
  constructor
  · rintro ⟨spans, hlex, hparse, hraws⟩
    have hsound := sound_of_lex hlex
    obtain ⟨⟨t, ht, hname⟩, t', ht', hfirst⟩ := tokens_of_parse hparse
    rw [List.getElem?_map, Option.map_eq_some_iff] at ht ht'
    obtain ⟨span, hspan, rfl⟩ := ht
    obtain ⟨span', hspan', rfl⟩ := ht'
    have hraw : span.raw = entryName := by
      have := congrArg (·[2]?) hraws
      simpa [hspan, meantRaws] using this
    exact ⟨isIdentifier_of_sound (hsound span (List.mem_of_getElem? hspan)) hname hraw,
      ne_nil_of_argumentOf (hsound span' (List.mem_of_getElem? hspan')) hfirst⟩
  · rintro ⟨⟨hstart, hname, hreserved⟩, hcatalog⟩
    have hlength : 18 ≤ (viewDefinition entryName catalogName viewSql).length + 1 := by
      have hfunction : "sqlite_query".toList.length = 12 := by decide
      rw [viewDefinition_eq]
      simp only [List.length_append, List.length_cons, hfunction]
      omega
    obtain ⟨n, hn⟩ := Nat.exists_eq_add_of_le' hlength
    refine ⟨_, (congrArg (fun m => lex duckdb m _) hn).trans (lex_viewDefinition hstart hname n),
      parse_meantTokens hreserved hcatalog, rfl⟩

end Means

/-! ### Names that are read as SQL -/

/-- A lexer without blanks beyond ASCII, and with some of the keywords. -/
def DuckDB.small : DuckDB where
  unicodeSpace _ := false
  reserved w :=
    ["CREATE".toList, "AS".toList, "FROM".toList, "SELECT".toList].contains (w.map Char.toUpper)
  unicodeSpace_ascii := by simp
  reserved_function := by decide

/-- How the definition of a view is read. -/
def readDefinition (entryName catalogName viewSql : Text) : Option (List Span) :=
  lex DuckDB.small ((viewDefinition entryName catalogName viewSql).length + 1)
    (viewDefinition entryName catalogName viewSql)

/-- A name with a blank is not read as a name. What stands after a name is read as the definition of
the view, and the rest can be made a comment. -/
theorem name_is_read_as_sql :
    ¬ Means DuckDB.small (viewDefinition "my view".toList "s".toList "SELECT 1".toList)
        "my view".toList "s".toList "SELECT 1".toList ∧
      (readDefinition "v AS SELECT 2 --".toList "s".toList "SELECT 1".toList).map
          (fun spans => spans.map Span.raw) =
        some ["CREATE".toList, "VIEW".toList, "v".toList, "AS".toList, "SELECT".toList,
          "2".toList] := by
  refine ⟨?_, by decide⟩
  rintro ⟨spans, hlex, hparse, -⟩
  have hnone : (readDefinition "my view".toList "s".toList "SELECT 1".toList).map
      (fun spans => parse DuckDB.small (spans.map Span.token)) = some none := by decide
  rw [readDefinition, hlex, Option.map_some, hparse] at hnone
  cases hnone

end SqliteScanner.ViewDefinition
