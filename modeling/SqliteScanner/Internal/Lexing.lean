import Mathlib.Data.Char
import Mathlib.Data.List.Basic

/-!
# Texts of SQL and their tokens

A program that writes SQL puts texts together, and what it means is decided by the tokens that they
are read as. Two tokens without a blank between them can be read as one, a quote in a string ends
it, and two minus signs start a comment.

Here a text is written as a list of pieces, which are tokens and blanks. `lex` reads a text: it
takes the longest token, and leaves out blanks and comments. The pieces are read back if every token
is followed by a character that does not continue it (`Separated`), which is a condition on
neighbours, so that it can be checked where texts are put together.

* `lex_render` says that the tokens of the pieces are read.
* `commented_render` says that no comment starts in them.
-/

namespace Lexing

abbrev Text := List Char

/-! ### Tokens -/

inductive Keyword where
  | null
  | case_
  | when_
  | then_
  | else_
  | end_
  | cast
  | as_
  | not_
  | and_
  | or_
  | is_
  | in_
  | between
  | glob
  | collate
  | distinct
  | filter
  | where_
deriving DecidableEq

def Keyword.text : Keyword → Text
  | null => "NULL".toList
  | case_ => "CASE".toList
  | when_ => "WHEN".toList
  | then_ => "THEN".toList
  | else_ => "ELSE".toList
  | end_ => "END".toList
  | cast => "CAST".toList
  | as_ => "AS".toList
  | not_ => "NOT".toList
  | and_ => "AND".toList
  | or_ => "OR".toList
  | is_ => "IS".toList
  | in_ => "IN".toList
  | between => "BETWEEN".toList
  | glob => "GLOB".toList
  | collate => "COLLATE".toList
  | distinct => "DISTINCT".toList
  | filter => "FILTER".toList
  | where_ => "WHERE".toList

def Keyword.all : List Keyword :=
  [null, case_, when_, then_, else_, end_, cast, as_, not_, and_, or_, is_, in_, between, glob,
    collate, distinct, filter, where_]

inductive Symbol where
  | lparen
  | rparen
  | comma
  | dot
  | plus
  | minus
  | star
  | slash
  | percent
  | concat
  | bitOr
  | bitAnd
  | eq
  | ne
  | lt
  | le
  | gt
  | ge
  | tilde
  | semicolon
deriving DecidableEq

def Symbol.text : Symbol → Text
  | lparen => ['(']
  | rparen => [')']
  | comma => [',']
  | dot => ['.']
  | plus => ['+']
  | minus => ['-']
  | star => ['*']
  | slash => ['/']
  | percent => ['%']
  | concat => ['|', '|']
  | bitOr => ['|']
  | bitAnd => ['&']
  | eq => ['=']
  | ne => ['<', '>']
  | lt => ['<']
  | le => ['<', '=']
  | gt => ['>']
  | ge => ['>', '=']
  | tilde => ['~']
  | semicolon => [';']

inductive Token where
  | keyword (k : Keyword)
  | word (w : Text)
  | number (digits : Text)
  | string (s : Text)
  /-- A quoted identifier. -/
  | quoted (s : Text)
  | blob (hex : Text)
  | symbol (s : Symbol)
deriving DecidableEq

/-! ### Words, numbers and quotes -/

def isStart (c : Char) : Bool :=
  c.isAlpha || c = '_' || 128 ≤ c.toNat

def isPart (c : Char) : Bool :=
  isStart c || c.isDigit || c = '$'

/-- Keywords are read in any case. -/
def keyword? (w : Text) : Option Keyword :=
  Keyword.all.find? fun k => w.map Char.toUpper = k.text

def wordToken (w : Text) : Token :=
  match keyword? w with
  | some k => .keyword k
  | none => .word w

/-- A text that is read as a word. -/
def IsWord (w : Text) : Prop :=
  (∃ c ∈ w.head?, isStart c = true) ∧ (∀ c ∈ w, isPart c = true) ∧ keyword? w = none

theorem isWord_iff (w : Text) :
    (w.head?.any isStart && w.all isPart && (keyword? w).isNone) = true ↔ IsWord w := by
  simp [IsWord, Option.any_eq_true, and_assoc]

instance (w : Text) : Decidable (IsWord w) := decidable_of_iff _ (isWord_iff w)

/-- A name that is written without quotes. -/
def Name := { w : Text // IsWord w }

instance : DecidableEq Name := inferInstanceAs (DecidableEq { w : Text // IsWord w })

inductive Sign where
  | none
  | plus
  | minus
deriving DecidableEq

def Sign.text : Sign → Text
  | none => []
  | plus => ['+']
  | minus => ['-']

/-- An unsigned number. -/
structure Numeral where
  whole : Text
  fraction : Option Text
  exponent : Option (Sign × Text)
  whole_ne : whole ≠ []
  whole_digits : ∀ c ∈ whole, c.isDigit = true
  fraction_digits : ∀ f ∈ fraction, ∀ c ∈ f, c.isDigit = true
  exponent_ne : ∀ e ∈ exponent, e.2 ≠ []
  exponent_digits : ∀ e ∈ exponent, ∀ c ∈ e.2, c.isDigit = true
deriving DecidableEq

def fractionText : Option Text → Text
  | none => []
  | some digits => '.' :: digits

def exponentText : Option (Sign × Text) → Text
  | none => []
  | some (sign, digits) => 'e' :: (sign.text ++ digits)

def Numeral.text (n : Numeral) : Text :=
  n.whole ++ (fractionText n.fraction ++ exponentText n.exponent)

def spanFraction (cs : Text) : Text × Text :=
  if cs.head? = some '.' then
    ('.' :: cs.tail.takeWhile Char.isDigit, cs.tail.dropWhile Char.isDigit)
  else ([], cs)

def spanSign (cs : Text) : Text × Text :=
  if cs.head? = some '+' ∨ cs.head? = some '-' then (cs.take 1, cs.tail) else ([], cs)

/-- An exponent has at least one digit. -/
def spanExponent (cs : Text) : Text × Text :=
  if cs.head? = some 'e' ∨ cs.head? = some 'E' then
    let (sign, rest) := spanSign cs.tail
    let digits := rest.takeWhile Char.isDigit
    if digits = [] then ([], cs)
    else (cs.take 1 ++ (sign ++ digits), rest.dropWhile Char.isDigit)
  else ([], cs)

/-- The number that a text starts with. -/
def spanNumeral (cs : Text) : Text × Text :=
  let whole := cs.takeWhile Char.isDigit
  let (fraction, rest) := spanFraction (cs.dropWhile Char.isDigit)
  let (exponent, rest) := spanExponent rest
  (whole ++ (fraction ++ exponent), rest)

/-- A quote within quotes is doubled. -/
def escape (q : Char) (s : Text) : Text :=
  s.flatMap fun c => if c = q then [q, q] else [c]

/-- Read up to the closing quote. -/
def readQuoted (q : Char) : Text → Option (Text × Text)
  | [] => none
  | [c] => if c = q then some ([], []) else none
  | c :: d :: cs =>
    if c = q then
      if d = q then (readQuoted q cs).map fun r => (q :: r.1, r.2)
      else some ([], d :: cs)
    else (readQuoted q (d :: cs)).map fun r => (c :: r.1, r.2)

def isHex (c : Char) : Bool :=
  c.isDigit || ('A' ≤ c && c ≤ 'F')

def Token.text : Token → Text
  | keyword k => k.text
  | word w => w
  | number digits => digits
  | string s => '\'' :: (escape '\'' s ++ ['\''])
  | quoted s => '"' :: (escape '"' s ++ ['"'])
  | blob hex => 'X' :: '\'' :: (hex ++ ['\''])
  | symbol s => s.text

/-! ### Reading -/

/-- The symbol that starts with `c`. -/
def readSymbol (c : Char) (cs : Text) : Option (Symbol × Text) :=
  if c = '(' then some (.lparen, cs)
  else if c = ')' then some (.rparen, cs)
  else if c = ',' then some (.comma, cs)
  else if c = '.' then some (.dot, cs)
  else if c = '+' then some (.plus, cs)
  else if c = '-' then if cs.head? = some '>' then none else some (.minus, cs)
  else if c = '*' then some (.star, cs)
  else if c = '/' then some (.slash, cs)
  else if c = '%' then some (.percent, cs)
  else if c = '&' then some (.bitAnd, cs)
  else if c = '~' then some (.tilde, cs)
  else if c = ';' then some (.semicolon, cs)
  else if c = '|' then
    if cs.head? = some '|' then some (.concat, cs.tail) else some (.bitOr, cs)
  else if c = '=' then
    if cs.head? = some '=' then some (.eq, cs.tail) else some (.eq, cs)
  else if c = '<' then
    if cs.head? = some '=' then some (.le, cs.tail)
    else if cs.head? = some '>' then some (.ne, cs.tail)
    else if cs.head? = some '<' then none
    else some (.lt, cs)
  else if c = '>' then
    if cs.head? = some '=' then some (.ge, cs.tail)
    else if cs.head? = some '>' then none
    else some (.gt, cs)
  else none

/-- The token that starts with `c`. -/
def readToken (c : Char) (cs : Text) : Option (Token × Text) :=
  if c = '\'' then (readQuoted '\'' cs).map fun r => (.string r.1, r.2)
  else if c = '"' then (readQuoted '"' cs).map fun r => (.quoted r.1, r.2)
  else if (c = 'x' ∨ c = 'X') ∧ cs.head? = some '\'' then
    (readQuoted '\'' cs.tail).map fun r => (.blob r.1, r.2)
  else if isStart c then some (wordToken (c :: cs.takeWhile isPart), cs.dropWhile isPart)
  else if c.isDigit then some (.number (spanNumeral (c :: cs)).1, (spanNumeral (c :: cs)).2)
  else (readSymbol c cs).map fun r => (.symbol r.1, r.2)

/-- The text after the end of a comment. -/
def afterComment : Text → Text
  | [] => []
  | [_] => []
  | c :: d :: cs => if c = '*' ∧ d = '/' then cs else afterComment (d :: cs)

/-- The tokens of a text. Every step reads at least one character. -/
def lex : ℕ → Text → Option (List Token)
  | 0, _ => none
  | _ + 1, [] => some []
  | n + 1, c :: cs =>
    if c = ' ' then lex n cs
    else if c = '-' ∧ cs.head? = some '-' then lex n (cs.dropWhile fun d => d ≠ '\n')
    else if c = '/' ∧ cs.head? = some '*' then lex n (afterComment cs.tail)
    else
      match readToken c cs with
      | none => none
      | some (t, rest) => (lex n rest).map (t :: ·)

/-- Whether a comment starts in a text, outside of quotes. The first argument is the quote that is
open. -/
def commented : Option Char → Text → Bool
  | _, [] => false
  | some q, c :: cs => if c = q then commented none cs else commented (some q) cs
  | none, c :: cs =>
    if c = '-' ∧ cs.head? = some '-' then true
    else if c = '/' ∧ cs.head? = some '*' then true
    else if c = '\'' ∨ c = '"' then commented (some c) cs
    else commented none cs

/-! ### Pieces -/

inductive Piece where
  | space
  | token (t : Token)

def Piece.text : Piece → Text
  | space => [' ']
  | token t => t.text

def render (ps : List Piece) : Text := ps.flatMap Piece.text

def Piece.token? : Piece → Option Token
  | space => none
  | token t => some t

def tokens (ps : List Piece) : List Token := ps.filterMap Piece.token?

/-- A token that can be written. -/
def Token.Valid : Token → Prop
  | word w => IsWord w
  | number digits => ∃ n : Numeral, digits = n.text
  | blob hex => ∀ c ∈ hex, isHex c = true
  | _ => True

/-- Whether a symbol ends before the character. -/
def Symbol.endsBefore (c : Char) : Symbol → Bool
  | minus => c ≠ '-' && c ≠ '>'
  | slash => c ≠ '*'
  | bitOr => c ≠ '|'
  | eq => c ≠ '='
  | lt => c ≠ '=' && c ≠ '>' && c ≠ '<'
  | gt => c ≠ '=' && c ≠ '>'
  | _ => true

/-- Whether a token ends before the character. -/
def Token.endsBefore (c : Char) : Token → Bool
  | keyword _ | word _ => !isPart c && c ≠ '\''
  | number _ => !isPart c && c ≠ '.'
  | string _ => c ≠ '\''
  | quoted _ => c ≠ '"'
  | blob _ => c ≠ '\''
  | symbol s => s.endsBefore c

def Piece.endsBefore (next : Option Char) : Piece → Bool
  | space => true
  | token t => next.all fun c => t.endsBefore c

/-- The character after which the pieces are written. -/
def firstOf (ps : List Piece) (next : Option Char) : Option Char :=
  match ps with
  | [] => next
  | p :: _ => p.text.head?

def Piece.Valid : Piece → Prop
  | space => True
  | token t => t.Valid

/-- Every piece is valid and ends where the next one starts. -/
def Separated : List Piece → Option Char → Prop
  | [], _ => True
  | p :: ps, next => p.Valid ∧ p.endsBefore (firstOf ps next) = true ∧ Separated ps next

/-! ### Reading one token -/

section Read

variable {rest : Text}

theorem span_append {p : Char → Bool} {ds : Text} (hd : ∀ c ∈ ds, p c = true)
    (hrest : ∀ c ∈ rest.head?, p c = false) :
    (ds ++ rest).takeWhile p = ds ∧ (ds ++ rest).dropWhile p = rest := by
  rw [List.takeWhile_append_of_pos hd, List.dropWhile_append_of_pos hd]
  cases rest with
  | nil => simp
  | cons c rest =>
    have hc := hrest c rfl
    simp [hc]

theorem readQuoted_escape {q : Char} (s : Text) (h : rest.head? ≠ some q) :
    readQuoted q (escape q s ++ q :: rest) = some (s, rest) := by
  induction s with
  | nil =>
    cases rest with
    | nil => simp [escape, readQuoted]
    | cons c rest =>
      have hc : c ≠ q := fun hc => h (by rw [hc]; rfl)
      simp [escape, readQuoted, hc]
  | cons c s ih =>
    rw [escape, List.flatMap_cons, ← escape]
    by_cases hc : c = q
    · rw [if_pos hc, hc]
      simp [readQuoted, ih]
    · rw [if_neg hc]
      obtain ⟨d, cs, hcons⟩ : ∃ d cs, escape q s ++ q :: rest = d :: cs :=
        List.exists_cons_of_ne_nil (by simp)
      rw [List.append_assoc, List.singleton_append, hcons, readQuoted, if_neg hc, ← hcons, ih]
      rfl

theorem escape_eq_self {q : Char} {s : Text} (h : q ∉ s) : escape q s = s := by
  induction s with
  | nil => rfl
  | cons c s ih =>
    have hc : c ≠ q := fun hc => h (hc ▸ List.mem_cons_self)
    have hs := ih fun hmem => h (List.mem_cons_of_mem _ hmem)
    rw [escape] at hs ⊢
    rw [List.flatMap_cons, if_neg hc, hs, List.singleton_append]

theorem isStart_of_isDigit {c : Char} (h : c.isDigit = true) : isStart c = false := by
  simp only [Char.isDigit, Bool.and_eq_true, decide_eq_true_eq, UInt32.le_iff_toNat_le, ge_iff_le]
    at h
  have hne : c ≠ '_' := by
    rintro rfl
    revert h
    decide
  have halpha : c.isAlpha = (decide ('A'.val ≤ c.val ∧ c.val ≤ 'Z'.val) ||
      ('a'.val ≤ c.val && c.val ≤ 'z'.val)) := rfl
  simp only [isStart, halpha, Bool.or_eq_false_iff, Bool.and_eq_false_iff,
    decide_eq_false_iff_not, UInt32.le_iff_toNat_le, Char.toNat]
  have hle : c.val.toNat ≤ 57 := h.2
  have hupper : 'A'.val.toNat = 65 := rfl
  have hlower : 'a'.val.toNat = 97 := rfl
  exact ⟨⟨⟨fun h => by omega, .inl (by omega)⟩, hne⟩, by omega⟩

theorem isPart_of_isStart {c : Char} (h : isStart c = true) : isPart c = true := by
  rw [isPart, h]
  rfl

/-- A word is read up to its end. -/
theorem readToken_word {c : Char} {w : Text} (hc : isStart c = true)
    (hw : ∀ d ∈ w, isPart d = true)
    (hrest : ∀ d ∈ rest.head?, (!isPart d && d ≠ '\'') = true) :
    readToken c (w ++ rest) = some (wordToken (c :: w), rest) := by
  have hquote : c ≠ '\'' := by
    rintro rfl
    revert hc
    decide
  have hdouble : c ≠ '"' := by
    rintro rfl
    revert hc
    decide
  have hblob : ¬ ((c = 'x' ∨ c = 'X') ∧ (w ++ rest).head? = some '\'') := by
    rintro ⟨-, hhead⟩
    cases w with
    | nil => simpa using hrest '\'' hhead
    | cons d w =>
      cases hhead
      exact absurd (hw _ List.mem_cons_self) (by decide)
  have hspan := span_append (p := isPart) hw fun d hd => by
    simpa using (Bool.and_eq_true_iff.mp (hrest d hd)).1
  rw [readToken, if_neg hquote, if_neg hdouble, if_neg hblob, if_pos hc, hspan.1, hspan.2]

/-- A character that ends a number. -/
def EndsDigits (c : Char) : Prop := c.isDigit = false ∧ c ≠ '.'

theorem spanFraction_append {f : Option Text} (hf : ∀ ds ∈ f, ∀ c ∈ ds, c.isDigit = true)
    (hrest : ∀ c ∈ rest.head?, EndsDigits c) :
    spanFraction (fractionText f ++ rest) = (fractionText f, rest) := by
  cases f with
  | none =>
    have hdot : rest.head? ≠ some '.' := fun h => (hrest _ h).2 rfl
    rw [fractionText, List.nil_append, spanFraction, if_neg hdot]
  | some ds =>
    obtain ⟨htake, hdrop⟩ := span_append (hf ds rfl) fun c hc => (hrest c hc).1
    rw [fractionText, List.cons_append, spanFraction, List.head?_cons, if_pos rfl, List.tail_cons,
      htake, hdrop]

theorem spanSign_append (sign : Sign) {ds : Text} (hne : ds ≠ [])
    (hds : ∀ c ∈ ds, c.isDigit = true) :
    spanSign (sign.text ++ (ds ++ rest)) = (sign.text, ds ++ rest) := by
  cases sign with
  | plus => rfl
  | minus => rfl
  | none =>
    obtain ⟨d, ds, rfl⟩ := List.exists_cons_of_ne_nil hne
    have hd := hds d List.mem_cons_self
    have hsign : ¬ ((d :: ds ++ rest).head? = some '+' ∨ (d :: ds ++ rest).head? = some '-') := by
      rintro (h | h)
      · cases h
        exact absurd hd (by decide)
      · cases h
        exact absurd hd (by decide)
    rw [Sign.text, List.nil_append, spanSign, if_neg hsign]

theorem spanExponent_append {e : Option (Sign × Text)} (hne : ∀ x ∈ e, x.2 ≠ [])
    (he : ∀ x ∈ e, ∀ c ∈ x.2, c.isDigit = true)
    (hdigit : ∀ c ∈ rest.head?, c.isDigit = false)
    (hletter : ¬ (rest.head? = some 'e' ∨ rest.head? = some 'E')) :
    spanExponent (exponentText e ++ rest) = (exponentText e, rest) := by
  cases e with
  | none => rw [exponentText, List.nil_append, spanExponent, if_neg hletter]
  | some x =>
    obtain ⟨sign, ds⟩ := x
    obtain ⟨htake, hdrop⟩ := span_append (he _ rfl) hdigit
    rw [exponentText, List.cons_append, List.append_assoc, spanExponent, if_pos (.inl rfl),
      List.tail_cons, spanSign_append sign (hne _ rfl) (he _ rfl)]
    simp only [htake, hdrop, if_neg (hne _ rfl), List.take_succ_cons, List.take_zero,
      List.singleton_append]

theorem endsDigits_exponentText (e : Option (Sign × Text))
    (hrest : ∀ c ∈ rest.head?, EndsDigits c) :
    ∀ c ∈ (exponentText e ++ rest).head?, EndsDigits c := by
  cases e with
  | none => exact hrest
  | some x =>
    rintro c ⟨⟩
    exact ⟨rfl, by decide⟩

theorem isDigit_fractionText (f : Option Text) (hrest : ∀ c ∈ rest.head?, EndsDigits c) :
    ∀ c ∈ (fractionText f ++ rest).head?, c.isDigit = false := by
  cases f with
  | none => exact fun c hc => (hrest c hc).1
  | some ds =>
    rintro c ⟨⟩
    rfl

/-- A number is read up to its end. -/
theorem spanNumeral_append (n : Numeral)
    (hrest : ∀ c ∈ rest.head?, (!isPart c && c ≠ '.') = true) :
    spanNumeral (n.text ++ rest) = (n.text, rest) := by
  have hpart : ∀ c ∈ rest.head?, isPart c = false := fun c hc => by
    simpa using (Bool.and_eq_true_iff.mp (hrest c hc)).1
  have hends : ∀ c ∈ rest.head?, EndsDigits c := fun c hc => by
    have h := hpart c hc
    simp only [isPart, Bool.or_eq_false_iff] at h
    exact ⟨h.1.2, by simpa using (Bool.and_eq_true_iff.mp (hrest c hc)).2⟩
  have hletter : ¬ (rest.head? = some 'e' ∨ rest.head? = some 'E') := by
    rintro (h | h)
    · exact absurd (hpart _ h) (by decide)
    · exact absurd (hpart _ h) (by decide)
  have hexp := spanExponent_append n.exponent_ne n.exponent_digits (fun c hc => (hends c hc).1)
    hletter
  have hfrac := spanFraction_append n.fraction_digits (endsDigits_exponentText n.exponent hends)
  obtain ⟨htake, hdrop⟩ := span_append n.whole_digits
    (isDigit_fractionText n.fraction (endsDigits_exponentText n.exponent hends))
  rw [Numeral.text, spanNumeral, List.append_assoc, List.append_assoc, htake, hdrop, hfrac]
  simp only [hexp]

theorem lex_of_readToken {c : Char} {cs : Text} {t : Token} (n : ℕ) (hspace : c ≠ ' ')
    (hminus : ¬ (c = '-' ∧ cs.head? = some '-')) (hslash : ¬ (c = '/' ∧ cs.head? = some '*'))
    (h : readToken c cs = some (t, rest)) : lex (n + 1) (c :: cs) = (lex n rest).map (t :: ·) := by
  rw [lex, if_neg hspace, if_neg hminus, if_neg hslash, h]

/-- A character that starts neither a blank nor a comment. -/
def Opens (c : Char) : Prop := c ≠ ' ' ∧ c ≠ '-' ∧ c ≠ '/'

theorem Opens.lex {c : Char} {cs : Text} {t : Token} (hc : Opens c) (n : ℕ)
    (h : readToken c cs = some (t, rest)) : lex (n + 1) (c :: cs) = (lex n rest).map (t :: ·) :=
  lex_of_readToken n hc.1 (fun h => hc.2.1 h.1) (fun h => hc.2.2 h.1) h

theorem opens_of_isPart {c : Char} (h : isPart c = true) : Opens c := by
  refine ⟨?_, ?_, ?_⟩ <;> rintro rfl <;> revert h <;> decide

theorem lex_word {w : Text} (n : ℕ) (hstart : ∃ c ∈ w.head?, isStart c = true)
    (hpart : ∀ c ∈ w, isPart c = true)
    (hrest : ∀ d ∈ rest.head?, (!isPart d && d ≠ '\'') = true) :
    lex (n + 1) (w ++ rest) = (lex n rest).map (wordToken w :: ·) := by
  cases w with
  | nil => simp at hstart
  | cons c w =>
    obtain ⟨_, ⟨⟩, hc⟩ := hstart
    exact (opens_of_isPart (isPart_of_isStart hc)).lex n
      (readToken_word hc (fun d hd => hpart d (List.mem_cons_of_mem _ hd)) hrest)

theorem isPart_keyword (k : Keyword) : ∀ c ∈ k.text, isPart c = true := by
  refine List.all_eq_true.mp ?_
  cases k <;> decide

theorem isStart_keyword (k : Keyword) : ∃ c ∈ k.text.head?, isStart c = true := by
  refine (Option.any_eq_true ..).mp ?_
  cases k <;> decide

theorem lex_number {m : Numeral} (n : ℕ)
    (hrest : ∀ c ∈ rest.head?, (!isPart c && c ≠ '.') = true) :
    lex (n + 1) (m.text ++ rest) = (lex n rest).map (.number m.text :: ·) := by
  have hspan := spanNumeral_append m hrest
  obtain ⟨d, ds, hwhole⟩ := List.exists_cons_of_ne_nil m.whole_ne
  have hd : d.isDigit = true := m.whole_digits d (by rw [hwhole]; exact List.mem_cons_self)
  obtain ⟨cs, hcs⟩ : ∃ cs, m.text ++ rest = d :: cs := ⟨_, by rw [Numeral.text, hwhole]; rfl⟩
  have hpart : isPart d = true := by simp [isPart, hd]
  have hread : readToken d cs = some (.number m.text, rest) := by
    rw [hcs] at hspan
    have hstart := isStart_of_isDigit hd
    have hquote : d ≠ '\'' := by rintro rfl; revert hd; decide
    have hdouble : d ≠ '"' := by rintro rfl; revert hd; decide
    have hblob : ¬ ((d = 'x' ∨ d = 'X') ∧ cs.head? = some '\'') := by
      rintro ⟨rfl | rfl, -⟩ <;> revert hd <;> decide
    rw [readToken, if_neg hquote, if_neg hdouble, if_neg hblob, if_neg (by simp [hstart]),
      if_pos hd, hspan]
  rw [hcs]
  exact (opens_of_isPart hpart).lex n hread

theorem lex_symbol {s : Symbol} (n : ℕ) (hrest : ∀ c ∈ rest.head?, s.endsBefore c = true) :
    lex (n + 1) (s.text ++ rest) = (lex n rest).map (.symbol s :: ·) := by
  cases rest with
  | nil => cases s <;> simp [Symbol.text, lex, readToken, readSymbol, isStart]
  | cons c rest =>
    have hc := hrest c rfl
    cases s <;> simp_all [Symbol.text, Symbol.endsBefore, lex, readToken, readSymbol, isStart]

/-- **A token is read up to its end.** -/
theorem lex_token {t : Token} (n : ℕ) (hvalid : t.Valid)
    (hrest : ∀ c ∈ rest.head?, t.endsBefore c = true) :
    lex (n + 1) (t.text ++ rest) = (lex n rest).map (t :: ·) := by
  cases t with
  | keyword k =>
    have hk : wordToken k.text = .keyword k := by cases k <;> decide
    have h := lex_word n (isStart_keyword k) (isPart_keyword k) hrest
    rwa [hk] at h
  | word w =>
    have h := lex_word n hvalid.1 hvalid.2.1 hrest
    rwa [wordToken, hvalid.2.2] at h
  | number ds =>
    obtain ⟨m, rfl⟩ := hvalid
    exact lex_number n hrest
  | string s =>
    have hquote : rest.head? ≠ some '\'' := fun h => by simpa [Token.endsBefore] using hrest _ h
    have hread : readToken '\'' (escape '\'' s ++ '\'' :: rest) = some (.string s, rest) := by
      rw [readToken, if_pos rfl, readQuoted_escape s hquote]
      rfl
    rw [Token.text, List.cons_append, List.append_assoc, List.singleton_append]
    exact Opens.lex ⟨by decide, by decide, by decide⟩ n hread
  | quoted s =>
    have hquote : rest.head? ≠ some '"' := fun h => by simpa [Token.endsBefore] using hrest _ h
    have hread : readToken '"' (escape '"' s ++ '"' :: rest) = some (.quoted s, rest) := by
      rw [readToken, if_neg (by decide), if_pos rfl, readQuoted_escape s hquote]
      rfl
    rw [Token.text, List.cons_append, List.append_assoc, List.singleton_append]
    exact Opens.lex ⟨by decide, by decide, by decide⟩ n hread
  | blob hex =>
    have hquote : rest.head? ≠ some '\'' := fun h => by simpa [Token.endsBefore] using hrest _ h
    have hescape : escape '\'' hex = hex :=
      escape_eq_self fun hmem => absurd (hvalid _ hmem) (by decide)
    have hread : readToken 'X' ('\'' :: (hex ++ '\'' :: rest)) = some (.blob hex, rest) := by
      have h := readQuoted_escape hex hquote
      rw [hescape] at h
      rw [readToken, if_neg (by decide), if_neg (by decide), if_pos ⟨.inr rfl, rfl⟩, List.tail_cons,
        h]
      rfl
    rw [Token.text, List.cons_append, List.cons_append, List.append_assoc, List.singleton_append]
    exact Opens.lex ⟨by decide, by decide, by decide⟩ n hread
  | symbol s => exact lex_symbol n hrest

end Read

/-! ### Reading pieces -/

section Render

variable {ps qs : List Piece} {rest : Text} {next : Option Char}

@[simp] theorem render_nil : render [] = [] := rfl

@[simp] theorem render_cons (p : Piece) (ps : List Piece) :
    render (p :: ps) = p.text ++ render ps := by
  simp [render]

theorem render_append (ps qs : List Piece) : render (ps ++ qs) = render ps ++ render qs := by
  simp [render]

@[simp] theorem tokens_nil : tokens [] = [] := rfl

@[simp] theorem tokens_space (ps : List Piece) : tokens (.space :: ps) = tokens ps := rfl

@[simp] theorem tokens_token (t : Token) (ps : List Piece) :
    tokens (.token t :: ps) = t :: tokens ps := rfl

@[simp] theorem tokens_append (ps qs : List Piece) :
    tokens (ps ++ qs) = tokens ps ++ tokens qs := by
  simp [tokens]

theorem text_ne_nil {p : Piece} (h : p.Valid) : p.text ≠ [] := by
  cases p with
  | space => simp [Piece.text]
  | token t =>
    cases t with
    | keyword k => cases k <;> decide
    | word w =>
      rintro rfl
      obtain ⟨⟨c, ⟨⟩, -⟩, -⟩ := h
    | number ds =>
      obtain ⟨m, rfl⟩ := h
      simp [Piece.text, Token.text, Numeral.text, m.whole_ne]
    | string s | quoted s | blob hex => simp [Piece.text, Token.text]
    | symbol s => cases s <;> decide

/-- The first character of the text of pieces. -/
theorem head?_render (h : Separated ps rest.head?) :
    (render ps ++ rest).head? = firstOf ps rest.head? := by
  cases ps with
  | nil => rfl
  | cons p ps =>
    obtain ⟨c, cs, hcs⟩ := List.exists_cons_of_ne_nil (text_ne_nil h.1)
    simp [firstOf, hcs]

theorem endsBefore_of_separated {t : Token} (h : Separated (.token t :: ps) rest.head?) :
    ∀ c ∈ (render ps ++ rest).head?, t.endsBefore c = true := by
  intro c hc
  rw [head?_render h.2.2] at hc
  have hends := h.2.1
  rw [Piece.endsBefore, Option.all_eq_true] at hends
  exact hends c hc

theorem separated_append :
    Separated (ps ++ qs) next ↔ Separated ps (firstOf qs next) ∧ Separated qs next := by
  induction ps with
  | nil => simp [Separated]
  | cons p ps ih =>
    have hfirst : firstOf (ps ++ qs) next = firstOf ps (firstOf qs next) := by
      cases ps <;> rfl
    rw [List.cons_append, Separated, Separated, ih, hfirst]
    tauto

theorem Separated.append (hps : Separated ps (firstOf qs next)) (hqs : Separated qs next) :
    Separated (ps ++ qs) next :=
  separated_append.mpr ⟨hps, hqs⟩

/-- **Separated pieces are read as their tokens.** -/
theorem lex_render (h : Separated ps rest.head?) (n : ℕ) :
    lex (n + ps.length) (render ps ++ rest) = (lex n rest).map (tokens ps ++ ·) := by
  induction ps with
  | nil => simp
  | cons p ps ih =>
    obtain ⟨hvalid, hends, hps⟩ := h
    rw [render_cons, List.append_assoc, List.length_cons, ← Nat.add_assoc]
    cases p with
    | space =>
      rw [Piece.text, List.singleton_append, lex, if_pos rfl, ih hps]
      rfl
    | token t =>
      have hlex := lex_token (n + ps.length) hvalid (endsBefore_of_separated ⟨hvalid, hends, hps⟩)
      rw [Piece.text, hlex, ih hps, Option.map_map]
      rfl

theorem length_le_length_render (h : Separated ps next) : ps.length ≤ (render ps).length := by
  induction ps with
  | nil => simp
  | cons p ps ih =>
    have hpos : 0 < p.text.length := List.length_pos_of_ne_nil (text_ne_nil h.1)
    have hps := ih h.2.2
    rw [render_cons, List.length_append, List.length_cons]
    omega

/-- The tokens of a whole text. -/
def tokenize (text : Text) : Option (List Token) := lex (text.length + 1) text

theorem tokenize_render (h : Separated ps none) : tokenize (render ps) = some (tokens ps) := by
  have hlength := length_le_length_render h
  obtain ⟨n, hn⟩ : ∃ n, (render ps).length + 1 = n + 1 + ps.length :=
    ⟨(render ps).length - ps.length, by omega⟩
  have hlex : lex (n + 1 + ps.length) (render ps ++ []) = _ := lex_render h (n + 1)
  rw [List.append_nil] at hlex
  rw [tokenize, hn, hlex]
  simp [lex]

end Render

/-! ### Comments -/

section Comments

variable {ps : List Piece} {rest : Text}

/-- A character that opens neither a comment nor a quote. -/
def Harmless (c : Char) : Prop := c ≠ '-' ∧ c ≠ '/' ∧ c ≠ '\'' ∧ c ≠ '"'

instance (c : Char) : Decidable (Harmless c) := inferInstanceAs (Decidable (_ ∧ _))

theorem commented_cons_of_harmless {c : Char} (h : Harmless c) :
    commented none (c :: rest) = commented none rest := by
  obtain ⟨hminus, hslash, hquote, hdouble⟩ := h
  simp [commented, hminus, hslash, hquote, hdouble]

theorem commented_append_of_harmless {w : Text} (h : ∀ c ∈ w, Harmless c) :
    commented none (w ++ rest) = commented none rest := by
  induction w with
  | nil => rfl
  | cons c w ih =>
    rw [List.cons_append, commented_cons_of_harmless (h c List.mem_cons_self),
      ih fun d hd => h d (List.mem_cons_of_mem _ hd)]

theorem harmless_of_isPart {c : Char} (h : isPart c = true) : Harmless c := by
  refine ⟨?_, ?_, ?_, ?_⟩ <;> rintro rfl <;> revert h <;> decide

theorem harmless_of_isDigit {c : Char} (h : c.isDigit = true) : Harmless c :=
  harmless_of_isPart (by simp [isPart, h])

theorem commented_escape {q : Char} (hq : q = '\'' ∨ q = '"') (s : Text) :
    commented (some q) (escape q s ++ rest) = commented (some q) rest := by
  have hopen : ∀ cs, commented none (q :: cs) = commented (some q) cs := by
    rcases hq with rfl | rfl <;> simp [commented]
  induction s with
  | nil => rfl
  | cons c s ih =>
    rw [escape, List.flatMap_cons, ← escape]
    by_cases hc : c = q
    · rw [if_pos hc, List.append_assoc, List.cons_append, List.singleton_append, commented,
        if_pos rfl, hopen, ih]
    · rw [if_neg hc, List.append_assoc, List.singleton_append, commented, if_neg hc, ih]

theorem commented_quoted {q : Char} (hq : q = '\'' ∨ q = '"') (s : Text) :
    commented none (q :: (escape q s ++ q :: rest)) = commented none rest := by
  have hopen : ∀ cs, commented none (q :: cs) = commented (some q) cs := by
    rcases hq with rfl | rfl <;> simp [commented]
  rw [hopen, commented_escape hq, commented, if_pos rfl]

theorem commented_exponentText {e : Option (Sign × Text)} (hne : ∀ x ∈ e, x.2 ≠ [])
    (he : ∀ x ∈ e, ∀ c ∈ x.2, c.isDigit = true) :
    commented none (exponentText e ++ rest) = commented none rest := by
  cases e with
  | none => rfl
  | some x =>
    obtain ⟨sign, ds⟩ := x
    have hds : ∀ c ∈ ds, Harmless c := fun c hc => harmless_of_isDigit (he _ rfl c hc)
    rw [exponentText, List.cons_append, List.append_assoc,
      commented_cons_of_harmless (by decide)]
    cases sign with
    | none => exact commented_append_of_harmless hds
    | plus =>
      rw [Sign.text, List.singleton_append, commented_cons_of_harmless (by decide),
        commented_append_of_harmless hds]
    | minus =>
      -- the digits come next, so this is no comment
      obtain ⟨d, ds, rfl⟩ := List.exists_cons_of_ne_nil (hne _ rfl)
      have hd : d ≠ '-' := (hds d List.mem_cons_self).1
      rw [Sign.text, List.singleton_append, commented, if_neg fun h => hd (Option.some.inj h.2),
        if_neg fun h => absurd h.1 (by decide), if_neg (by decide),
        commented_append_of_harmless hds]

theorem commented_numeral (m : Numeral) :
    commented none (m.text ++ rest) = commented none rest := by
  have hfraction : ∀ c ∈ fractionText m.fraction, Harmless c := by
    cases hf : m.fraction with
    | none => simp [fractionText]
    | some ds =>
      intro c hc
      rcases List.mem_cons.mp hc with rfl | hc
      · decide
      · exact harmless_of_isDigit (m.fraction_digits ds hf c hc)
  rw [Numeral.text, List.append_assoc, List.append_assoc,
    commented_append_of_harmless fun c hc => harmless_of_isDigit (m.whole_digits c hc),
    commented_append_of_harmless hfraction,
    commented_exponentText m.exponent_ne m.exponent_digits]

theorem commented_token {t : Token} (hvalid : t.Valid)
    (hrest : ∀ c ∈ rest.head?, t.endsBefore c = true) :
    commented none (t.text ++ rest) = commented none rest := by
  cases t with
  | keyword k =>
    exact commented_append_of_harmless fun c hc => harmless_of_isPart (isPart_keyword k c hc)
  | word w => exact commented_append_of_harmless fun c hc => harmless_of_isPart (hvalid.2.1 c hc)
  | number ds =>
    obtain ⟨m, rfl⟩ := hvalid
    exact commented_numeral m
  | string s =>
    rw [Token.text, List.cons_append, List.append_assoc, List.singleton_append,
      commented_quoted (.inl rfl)]
  | quoted s =>
    rw [Token.text, List.cons_append, List.append_assoc, List.singleton_append,
      commented_quoted (.inr rfl)]
  | blob hex =>
    have hescape : escape '\'' hex = hex :=
      escape_eq_self fun hmem => absurd (hvalid _ hmem) (by decide)
    have hquoted : commented none ('\'' :: (escape '\'' hex ++ '\'' :: rest)) = _ :=
      commented_quoted (.inl rfl) hex
    rw [hescape] at hquoted
    rw [Token.text, List.cons_append, List.cons_append, List.append_assoc, List.singleton_append,
      commented_cons_of_harmless (by decide), hquoted]
  | symbol s =>
    cases rest with
    | nil => cases s <;> decide
    | cons c rest =>
      have hc := hrest c rfl
      cases s <;> simp_all [Token.text, Symbol.text, Token.endsBefore, Symbol.endsBefore, commented]

/-- **No comment starts in separated pieces.** -/
theorem commented_render (h : Separated ps rest.head?) :
    commented none (render ps ++ rest) = commented none rest := by
  induction ps with
  | nil => rfl
  | cons p ps ih =>
    obtain ⟨hvalid, hends, hps⟩ := h
    rw [render_cons, List.append_assoc, ← ih hps]
    cases p with
    | space => exact commented_cons_of_harmless (by decide)
    | token t =>
      exact commented_token hvalid (endsBefore_of_separated ⟨hvalid, hends, hps⟩)

end Comments

end Lexing
