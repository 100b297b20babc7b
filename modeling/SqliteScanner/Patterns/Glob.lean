import SqliteScanner.Patterns.Like

/-!
# `LIKE` as `GLOB`

`LIKE` in SQLite does not tell upper from lower case, so a constant pattern is written as a pattern of
`GLOB` (`SQLiteLikeToGlob`). So are `starts_with` and `ends_with` for constants (`SQLiteGlobEscape`).
What SQLite does with a pattern is `patternCompare`, which reads characters where `LIKE` is about
bytes.

The encodings are exact but for the way in which SQLite reads characters.

* `sqlite3Utf8Read` makes U+FFFE and U+FFFF the same as U+FFFD. A pattern with one of them matches
  texts with the others.
* After a `*` a character up to U+0080 is looked for as a byte, with `strcspn`. U+0080 is not a byte of
  its own, and its number is the second byte of U+00C0 and of many others.

`glob_exact_iff` says that these are all: a pattern without such characters matches what it should, and
with them it matches a text that it should not.

## How it is proved

`patternCompare` has three outcomes, and a search ends early if there is no match in spite of
wildcards. What this means is `Tells`: then the rest of the pattern is not found later either. It is
kept by every call and every loop (`sound`). For the other direction, `Loose` texts follow a pattern
character by character; they are found at once, without going back (`matchesLoose`), and for a pattern
that is not read as it is meant one of them is not in its language (`exists_loose`).

Patterns and strings are their bytes up to the zero that ends them. The comparison is for `globInfo`,
so that there is no escape character and upper and lower case differ; the limit for the length of a
pattern is not part of it.

## Main definitions

* `patternCompare` — the comparison, with the loops `setSearch`, `byteSearch` and `charSearch`.
* `likeToGlob`, `globEscape` — the encodings.
* `Unambiguous`, `ReadAsMeant` — patterns without the characters above.

## Main results

* `terminates` — the comparison has an outcome.
* `glob_exact_iff` — when the encodings are exact.
-/

namespace SqliteScanner.Patterns

open Utf8 Wildcards

/-! ### Reading a character -/

/-- `sqlite3Utf8Trans1`. -/
def utf8Trans1 : List ℕ :=
  List.range 32 ++ List.range 16 ++ List.range 8 ++ List.range 4 ++ [0, 1, 0, 0]

/-- `sqlite3Utf8Read`, with `0` at the end of a string. -/
def utf8Read : List ℕ → ℕ × List ℕ
  | [] => (0, [])
  | b :: bs =>
    if b < 0xC0 then (b, bs)
    else
      let c := (bs.takeWhile isContinuation).foldl (fun c b => (c * 64 + b % 64) % 0x100000000)
        (utf8Trans1.getD (b - 0xC0) 0)
      -- `(c & 0xFFFFF800) == 0xD800` and `(c & 0xFFFFFFFE) == 0xFFFE`
      (if c < 0x80 ∨ c / 2048 = 0x1B ∨ c / 2 = 0x7FFF then 0xFFFD else c,
        bs.dropWhile isContinuation)

/-- `SQLITE_SKIP_UTF8`. -/
def skipUtf8 : List ℕ → List ℕ
  | [] => []
  | b :: bs => if 0xC0 ≤ b then bs.dropWhile isContinuation else bs

/-! ### `patternCompare` -/

inductive Outcome where
  | matched
  | noMatch
  | noWildcardMatch
  deriving DecidableEq

def matchAll : ℕ := '*'.toNat

def matchOne : ℕ := '?'.toNat

def matchSet : ℕ := '['.toNat

def setEnd : ℕ := ']'.toNat

/-- The characters `*` and `?` after a `*`, and the first character of the pattern after them; or none
if the string is too short. -/
def skipWildcards : List ℕ → List ℕ → Option (ℕ × List ℕ × List ℕ)
  | [], s => some (0, [], s)
  | b :: p, s =>
    if b = matchAll then skipWildcards p s
    else if b = matchOne then
      if (utf8Read s).1 = 0 then none else skipWildcards p (utf8Read s).2
    else some ((utf8Read (b :: p)).1, (utf8Read (b :: p)).2, s)

/-- The characters of a set, up to its end: the character after which the loop ended, whether `c` was
among them, and the pattern after the set. -/
def setLoop (c : ℕ) : ℕ → ℕ → List ℕ → ℕ → Bool → Option (ℕ × Bool × List ℕ)
  | 0, _, _, _, _ => none
  | n + 1, c2, p, priorC, seen =>
    if c2 = 0 ∨ c2 = setEnd then some (c2, seen, p)
    else if c2 = '-'.toNat ∧ p.headD 0 ≠ setEnd ∧ p.headD 0 ≠ 0 ∧ 0 < priorC then
      let upper := utf8Read p
      let next := utf8Read upper.2
      setLoop c n next.1 next.2 0 (seen || (priorC ≤ c && c ≤ upper.1))
    else
      let next := utf8Read p
      setLoop c n next.1 next.2 c2 (seen || c = c2)

/-- The next character, if the one that was read is `c`. -/
def pastChar (c : ℕ) (r : ℕ × List ℕ) : ℕ × List ℕ := if r.1 = c then utf8Read r.2 else r

/-- A set against the next character of the string: the pattern and the string after them, or none if
the character is not in the set. -/
def compareSet (n : ℕ) (p s : List ℕ) : Option (Option (List ℕ × List ℕ)) :=
  let c := utf8Read s
  if c.1 = 0 then some none
  else
    let first := utf8Read p
    let invert := decide (first.1 = '^'.toNat)
    let second := pastChar '^'.toNat first
    -- A `]` that comes first is a member of the set.
    let seen := decide (second.1 = setEnd ∧ c.1 = setEnd)
    let third := pastChar setEnd second
    (setLoop c.1 n third.1 third.2 0 seen).map fun r =>
      if r.1 = 0 ∨ r.2.1 = invert then none else some (r.2.2, c.2)

/-- A search goes on while there is no match. -/
def orSearch : Option Outcome → Option Outcome → Option Outcome
  | some .noMatch, search => search
  | outcome, _ => outcome

mutual

/-- `patternCompare` for `globInfo`, with a limit for the depth of its loops and calls. -/
def patternCompare : ℕ → List ℕ → List ℕ → Option Outcome
  | 0, _, _ => none
  | n + 1, p, s =>
    let c := utf8Read p
    if c.1 = 0 then some (if s = [] then .matched else .noMatch)
    else if c.1 = matchAll then
      match skipWildcards c.2 s with
      | none => some .noWildcardMatch
      | some (c, p, s) =>
        if c = 0 then some .matched
        else if c = matchSet then setSearch n (matchSet :: p) s
        else if c ≤ 0x80 then byteSearch n c p s
        else charSearch n c p s
    else if c.1 = matchSet then
      match compareSet n c.2 s with
      | none => none
      | some none => some .noMatch
      | some (some (p, s)) => patternCompare n p s
    else
      let c2 := utf8Read s
      if c.1 = c2.1 ∨ c.1 = matchOne ∧ c2.1 ≠ 0 then patternCompare n c.2 c2.2
      else some .noMatch

/-- The loop for a set after a `*`. -/
def setSearch : ℕ → List ℕ → List ℕ → Option Outcome
  | 0, _, _ => none
  | n + 1, p, s =>
    if s = [] then some .noWildcardMatch
    else orSearch (patternCompare n p s) (setSearch n p (skipUtf8 s))

/-- The loop with `strcspn` for a character after a `*`. -/
def byteSearch : ℕ → ℕ → List ℕ → List ℕ → Option Outcome
  | 0, _, _, _ => none
  | n + 1, c, p, s =>
    match s.dropWhile fun b => b ≠ c with
    | [] => some .noWildcardMatch
    | _ :: s => orSearch (patternCompare n p s) (byteSearch n c p s)

/-- The loop for other characters after a `*`. -/
def charSearch : ℕ → ℕ → List ℕ → List ℕ → Option Outcome
  | 0, _, _, _ => none
  | n + 1, c, p, s =>
    let c2 := utf8Read s
    if c2.1 = 0 then some .noWildcardMatch
    else if c2.1 ≠ c then charSearch n c p c2.2
    else orSearch (patternCompare n p c2.2) (charSearch n c p c2.2)

end

/-! ### The encodings -/

/-- A byte that stands for itself, in brackets if it would not. -/
def globLiteral (c : ℕ) : List ℕ :=
  if c = matchAll ∨ c = matchOne ∨ c = matchSet then [matchSet, c, setEnd] else [c]

def globCharacter (c : ℕ) : List ℕ :=
  if c = percent then [matchAll] else if c = underscore then [matchOne] else globLiteral c

/-- `SQLiteLikeToGlob`. -/
def likeToGlob (escape : Option ℕ) : List ℕ → Option (List ℕ)
  | [] => some []
  | [c] => if escape = some c then none else some (globCharacter c)
  | c :: next :: pattern =>
    if escape = some c then (likeToGlob escape pattern).map (globLiteral next ++ ·)
    else (likeToGlob escape (next :: pattern)).map (globCharacter c ++ ·)

/-- `SQLiteGlobEscape`. -/
def globEscape (str : List ℕ) : List ℕ := str.flatMap globLiteral

/-- The pattern for `starts_with`. -/
def startsWithGlob (constant : List ℕ) : List ℕ := globEscape constant ++ [matchAll]

/-- The pattern for `ends_with`. -/
def endsWithGlob (constant : List ℕ) : List ℕ := [matchAll] ++ globEscape constant

/-! ### Reading encoded characters -/

section Read

/-- The number that a character is read as. -/
def code (c : Char) : ℕ := if c.toNat / 2 = 0x7FFF then 0xFFFD else c.toNat

/-- No character goes on at the start of the bytes. -/
def Starts (bs : List ℕ) : Prop := bs.dropWhile isContinuation = bs

theorem starts_nil : Starts [] := rfl

theorem starts_encode (s : List Char) : Starts (encode s) := dropWhile_encode s

theorem starts_cons {b : ℕ} {bs : List ℕ} (h : isContinuation b = false) : Starts (b :: bs) := by
  rw [Starts, List.dropWhile_cons_of_neg (by simp [h])]

theorem starts_encodeChar (c : Char) (bs : List ℕ) : Starts (encodeChar c ++ bs) := by
  obtain ⟨b, rest, hb, hfirst, -⟩ := encodeChar_eq_cons c
  rw [hb]
  exact starts_cons hfirst

theorem Starts.takeWhile_append {cs bs : List ℕ} (h : Starts bs)
    (hcs : ∀ b ∈ cs, isContinuation b = true) : (cs ++ bs).takeWhile isContinuation = cs := by
  have htake : bs.takeWhile isContinuation = [] := by
    have happend := List.takeWhile_append_dropWhile (p := isContinuation) (l := bs)
    rw [h] at happend
    simpa using happend
  rw [List.takeWhile_append_of_pos hcs, htake, List.append_nil]

theorem Starts.dropWhile_append {cs bs : List ℕ} (h : Starts bs)
    (hcs : ∀ b ∈ cs, isContinuation b = true) : (cs ++ bs).dropWhile isContinuation = bs := by
  rw [List.dropWhile_append_of_pos hcs, h]

theorem utf8Trans1_two : ∀ i < 32, utf8Trans1.getD i 0 = i := by decide

theorem utf8Trans1_three : ∀ i < 16, utf8Trans1.getD (32 + i) 0 = i := by decide

theorem utf8Trans1_four : ∀ i < 8, utf8Trans1.getD (48 + i) 0 = i := by decide

/-- A character of more than one byte is read as the number that its bytes stand for. -/
theorem utf8Read_of_le {b : ℕ} {cs bs : List ℕ} (hb : 0xC0 ≤ b) (h : Starts bs)
    (hcs : ∀ b ∈ cs, isContinuation b = true) {n : ℕ} (hn : 0x80 ≤ n) (hvalid : n / 2048 ≠ 0x1B)
    (hfold : cs.foldl (fun c b => (c * 64 + b % 64) % 0x100000000) (utf8Trans1.getD (b - 0xC0) 0) = n) :
    utf8Read (b :: (cs ++ bs)) = (if n / 2 = 0x7FFF then 0xFFFD else n, bs) := by
  rw [utf8Read, if_neg (by omega), h.takeWhile_append hcs, h.dropWhile_append hcs, hfold]
  simp only [Nat.not_lt.mpr hn, hvalid, false_or]

theorem toNat_valid (c : Char) : c.toNat / 2048 ≠ 0x1B := by
  have := c.valid
  simp only [UInt32.isValidChar, Nat.isValidChar] at this
  change c.val.toNat / 2048 ≠ _
  omega

theorem utf8Read_encodeChar (c : Char) {bs : List ℕ} (h : Starts bs) :
    utf8Read (encodeChar c ++ bs) = (code c, bs) := by
  have hlt := toNat_lt c
  have hvalid := toNat_valid c
  unfold encodeChar
  dsimp only
  split
  · rw [List.singleton_append, utf8Read, if_pos (by omega), code, if_neg (by omega)]
  split
  · refine utf8Read_of_le (by omega) h ?_ (by omega) hvalid ?_
    · simp [isContinuation]
      omega
    · rw [Nat.add_sub_cancel_left, utf8Trans1_two _ (by omega)]
      simp only [List.foldl_cons, List.foldl_nil]
      omega
  split
  · refine utf8Read_of_le (by omega) h ?_ (by omega) hvalid ?_
    · simp [isContinuation]
      omega
    · rw [show 0xE0 + c.toNat / 4096 - 0xC0 = 32 + c.toNat / 4096 by omega,
        utf8Trans1_three _ (by omega)]
      simp only [List.foldl_cons, List.foldl_nil]
      omega
  · refine utf8Read_of_le (by omega) h ?_ (by omega) hvalid ?_
    · simp [isContinuation]
      omega
    · rw [show 0xF0 + c.toNat / 262144 - 0xC0 = 48 + c.toNat / 262144 by omega,
        utf8Trans1_four _ (by omega)]
      simp only [List.foldl_cons, List.foldl_nil]
      omega

@[simp] theorem utf8Read_encode_cons (c : Char) (s : List Char) :
    utf8Read (encode (c :: s)) = (code c, encode s) := by
  rw [encode_cons, utf8Read_encodeChar c (starts_encode s)]

theorem utf8Read_of_lt {b : ℕ} (h : b < 0xC0) (bs : List ℕ) : utf8Read (b :: bs) = (b, bs) := by
  rw [utf8Read, if_pos h]

theorem code_eq_zero {c : Char} : code c = 0 ↔ c = '\x00' := by
  rw [← Char.toNat_inj, code]
  change _ ↔ c.toNat = 0
  split <;> omega

/-- Only U+FFFE and U+FFFF are read as another character. -/
theorem code_eq_iff {c d : Char} (hc : c.toNat < 0xFFFD ∨ 0xFFFF < c.toNat) :
    code d = code c ↔ d = c := by
  rw [← Char.toNat_inj, code, code]
  split <;> split <;> omega

theorem code_of_lt {c : Char} (h : c.toNat < 0xFFFD) : code c = c.toNat := by
  rw [code, if_neg (by omega)]

/-- A character is skipped like it is read. -/
theorem skipUtf8_eq (s : List ℕ) : skipUtf8 s = (utf8Read s).2 := by
  cases s with
  | nil => rfl
  | cons b bs =>
    rw [skipUtf8, utf8Read]
    by_cases hb : b < 0xC0
    · rw [if_neg (by omega), if_pos hb]
    · rw [if_pos (by omega), if_neg hb]

theorem utf8Read_length_le (s : List ℕ) : (utf8Read s).2.length ≤ s.length - 1 := by
  cases s with
  | nil => simp [utf8Read]
  | cons b bs =>
    rw [← skipUtf8_eq, skipUtf8]
    split
    · exact (List.dropWhile_suffix _).length_le
    · exact Nat.le_refl _

theorem exists_cons_of_utf8Read {s : List ℕ} (h : (utf8Read s).1 ≠ 0) : ∃ b bs, s = b :: bs := by
  cases s with
  | nil => exact absurd rfl h
  | cons b bs => exact ⟨b, bs, rfl⟩

end Read

/-! ### The calls end -/

section Ends

theorem length_of_skipWildcards {p p' s s' : List ℕ} {c : ℕ}
    (h : skipWildcards p s = some (c, p', s')) (hc : c ≠ 0) :
    p'.length < p.length ∧ s'.length ≤ s.length := by
  induction p generalizing s with
  | nil =>
    simp only [skipWildcards, Option.some.injEq, Prod.mk.injEq] at h
    exact absurd h.1.symm hc
  | cons b p ih =>
    rw [skipWildcards] at h
    split at h
    · have := ih h
      simp only [List.length_cons]
      omega
    split at h
    · split at h
      · cases h
      · have := ih h
        have := utf8Read_length_le s
        simp only [List.length_cons]
        omega
    · simp only [Option.some.injEq, Prod.mk.injEq] at h
      obtain ⟨-, rfl, rfl⟩ := h
      have := utf8Read_length_le (b :: p)
      simp only [List.length_cons] at this ⊢
      omega

theorem exists_setLoop {c n c2 : ℕ} {p : List ℕ} (priorC : ℕ) (seen : Bool)
    (hn : p.length + 2 ≤ n ∨ c2 = 0 ∧ 0 < n) :
    ∃ r, setLoop c n c2 p priorC seen = some r ∧ r.2.2.length ≤ p.length := by
  induction n generalizing c2 p priorC seen with
  | zero => omega
  | succ n ih =>
    rw [setLoop]
    by_cases hend : c2 = 0 ∨ c2 = setEnd
    · rw [if_pos hend]
      exact ⟨_, rfl, Nat.le_refl _⟩
    have hlength : p.length + 1 ≤ n := by omega
    have hnext (q : List ℕ) (hq : q.length ≤ p.length) :
        (utf8Read q).2.length + 2 ≤ n ∨ (utf8Read q).1 = 0 ∧ 0 < n := by
      cases q with
      | nil => exact .inr ⟨rfl, by omega⟩
      | cons b bs =>
        have := utf8Read_length_le (b :: bs)
        simp only [List.length_cons] at this hq
        omega
    rw [if_neg hend]
    split
    · have hle := utf8Read_length_le p
      obtain ⟨r, hr, hlen⟩ := ih 0 _ (hnext (utf8Read p).2 (by omega))
      have := utf8Read_length_le (utf8Read p).2
      exact ⟨r, hr, by omega⟩
    · obtain ⟨r, hr, hlen⟩ := ih c2 _ (hnext p (Nat.le_refl _))
      have := utf8Read_length_le p
      exact ⟨r, hr, by omega⟩

theorem pastChar_length_le (c : ℕ) (r : ℕ × List ℕ) : (pastChar c r).2.length ≤ r.2.length := by
  rw [pastChar]
  split
  · exact (utf8Read_length_le r.2).trans (Nat.sub_le _ 1)
  · exact Nat.le_refl _

theorem exists_compareSet {n : ℕ} {p : List ℕ} (s : List ℕ) (hn : p.length + 2 ≤ n) :
    ∃ r, compareSet n p s = some r ∧
      ∀ p' s', r = some (p', s') → p'.length ≤ p.length ∧ s'.length ≤ s.length := by
  have hread (q : List ℕ) : (utf8Read q).2.length ≤ q.length :=
    (utf8Read_length_le q).trans (Nat.sub_le _ 1)
  have hthird : (pastChar setEnd (pastChar '^'.toNat (utf8Read p))).2.length ≤ p.length :=
    ((pastChar_length_le _ _).trans (pastChar_length_le _ _)).trans (hread p)
  unfold compareSet
  dsimp only
  split
  · exact ⟨none, rfl, fun p' s' h => by cases h⟩
  · obtain ⟨r, hr, hlength⟩ := exists_setLoop 0 _ (.inl ((Nat.add_le_add_right hthird 2).trans hn))
    rw [hr, Option.map_some]
    refine ⟨_, rfl, fun p' s' h => ?_⟩
    split at h
    · cases h
    · cases h
      exact ⟨hlength.trans hthird, hread s⟩

/-- How deep the calls and loops go. -/
def depth (plen slen : ℕ) : ℕ := plen * (slen + 2)

/-- With these limits there is an outcome. -/
structure Terminates (k n : ℕ) : Prop where
  patternCompare : ∀ p s, s.length ≤ k → depth p.length k < n → ∃ r, patternCompare n p s = some r
  setSearch : ∀ p s, s.length ≤ k → depth p.length k + s.length + 1 < n →
    ∃ r, setSearch n p s = some r
  byteSearch : ∀ c p s, s.length ≤ k → depth p.length k + s.length + 1 < n →
    ∃ r, byteSearch n c p s = some r
  charSearch : ∀ c p s, s.length ≤ k → depth p.length k + s.length + 1 < n →
    ∃ r, charSearch n c p s = some r

theorem exists_orSearch {r r' : Option Outcome} (h : ∃ o, r = some o) (h' : ∃ o, r' = some o) :
    ∃ o, orSearch r r' = some o := by
  obtain ⟨o, rfl⟩ := h
  cases o with
  | noMatch => exact h'
  | matched | noWildcardMatch => exact ⟨_, rfl⟩

theorem depth_add_le {plen plen' k n : ℕ} (h : plen' < plen) (hn : depth plen k < n + 1) :
    depth plen' k + k + 2 ≤ n := by
  have := Nat.mul_le_mul_right (k + 2) (Nat.succ_le_of_lt h)
  rw [Nat.succ_mul] at this
  unfold depth at *
  omega

theorem le_depth (plen k : ℕ) : plen ≤ depth plen k :=
  Nat.le_mul_of_pos_right plen (Nat.succ_pos (k + 1))

theorem Terminates.succ {k n : ℕ} (h : Terminates k n) : Terminates k (n + 1) where
  patternCompare p s hs hn := by
    rw [Patterns.patternCompare]
    dsimp only
    split
    · exact ⟨_, rfl⟩
    case isFalse hc =>
    obtain ⟨b, bs, rfl⟩ := exists_cons_of_utf8Read hc
    have hread : (utf8Read (b :: bs)).2.length < (b :: bs).length :=
      Nat.lt_succ_of_le (utf8Read_length_le (b :: bs))
    split
    · cases hskip : skipWildcards (utf8Read (b :: bs)).2 s with
      | none => exact ⟨_, rfl⟩
      | some r =>
        obtain ⟨c, p, t⟩ := r
        dsimp only
        by_cases hc : c = 0
        · rw [if_pos hc]
          exact ⟨_, rfl⟩
        obtain ⟨hp, ht⟩ := length_of_skipWildcards hskip hc
        have hset : depth (matchSet :: p).length k + k + 2 ≤ n :=
          depth_add_le (Nat.lt_of_le_of_lt (Nat.succ_le_of_lt hp) hread) hn
        have hchar : depth p.length k + k + 2 ≤ n := depth_add_le (hp.trans hread) hn
        rw [if_neg hc]
        split
        · exact h.setSearch _ _ (ht.trans hs) (by omega)
        split
        · exact h.byteSearch _ _ _ (ht.trans hs) (by omega)
        · exact h.charSearch _ _ _ (ht.trans hs) (by omega)
    have hn' := depth_add_le hread hn
    split
    · have hlimit : (utf8Read (b :: bs)).2.length + 2 ≤ n :=
        Nat.le_trans (by have := le_depth (utf8Read (b :: bs)).2.length k; omega) hn'
      obtain ⟨r, hr, hlength⟩ := exists_compareSet s hlimit
      rw [hr]
      cases r with
      | none => exact ⟨_, rfl⟩
      | some r =>
        obtain ⟨p', s'⟩ := r
        obtain ⟨hp', hs'⟩ := hlength p' s' rfl
        have hdepth : depth p'.length k ≤ depth _ k := Nat.mul_le_mul_right (k + 2) hp'
        exact h.patternCompare _ _ (hs'.trans hs) (by omega)
    · split
      · have := utf8Read_length_le s
        exact h.patternCompare _ _ (by omega) (by omega)
      · exact ⟨_, rfl⟩
  setSearch p s hs hn := by
    rw [Patterns.setSearch]
    split
    · exact ⟨_, rfl⟩
    · case isFalse hne =>
      have := utf8Read_length_le s
      have hpos := List.length_pos_iff.mpr hne
      refine exists_orSearch (h.patternCompare _ _ hs (by omega)) ?_
      rw [skipUtf8_eq]
      exact h.setSearch _ _ (by omega) (by omega)
  byteSearch c p s hs hn := by
    rw [Patterns.byteSearch]
    have := (List.dropWhile_suffix (l := s) fun b => b ≠ c).length_le
    split
    · exact ⟨_, rfl⟩
    · case h_2 heq =>
      rw [heq, List.length_cons] at this
      exact exists_orSearch (h.patternCompare _ _ (by omega) (by omega))
        (h.byteSearch _ _ _ (by omega) (by omega))
  charSearch c p s hs hn := by
    rw [Patterns.charSearch]
    split
    · exact ⟨_, rfl⟩
    case isFalse hc =>
    obtain ⟨b, bs, rfl⟩ := exists_cons_of_utf8Read hc
    have := utf8Read_length_le (b :: bs)
    rw [List.length_cons] at *
    split
    · exact h.charSearch _ _ _ (by omega) (by omega)
    · exact exists_orSearch (h.patternCompare _ _ (by omega) (by omega))
        (h.charSearch _ _ _ (by omega) (by omega))

theorem terminates (k n : ℕ) : Terminates k n := by
  induction n with
  | zero =>
    constructor
    · intros
      omega
    all_goals
      intros
      omega
  | succ n ih => exact ih.succ

end Ends

/-! ### The elements of an encoding -/

section Elements

def globElem : Elem ℕ → List ℕ
  | .lit b => globLiteral b
  | .one => [matchOne]
  | .many => [matchAll]

/-- The `GLOB` pattern with these elements. -/
def globBytes (es : List (Elem Char)) : List ℕ := (encodeElems es).flatMap globElem

theorem globElem_element (c : ℕ) : globElem (element underscore percent c) = globCharacter c := by
  have hne : underscore ≠ percent := by decide
  rw [element, globCharacter]
  by_cases hone : c = underscore
  · rw [if_pos hone, hone, if_neg hne, if_pos rfl, globElem]
  by_cases hmany : c = percent
  · rw [if_neg hone, if_pos hmany, if_pos hmany, globElem]
  · rw [if_neg hone, if_neg hmany, if_neg hmany, if_neg hone, globElem]

theorem likeToGlob_eq (escape : Option ℕ) : ∀ p : List ℕ,
    likeToGlob escape p = (byteElements escape p).map fun es => es.flatMap globElem
  | [] => rfl
  | [c] => by
    rw [likeToGlob, byteElements, elements]
    split
    · rfl
    · rw [Option.map_some, List.flatMap_singleton, globElem_element]
  | c :: next :: p => by
    rw [likeToGlob, byteElements, elements, likeToGlob_eq escape p,
      likeToGlob_eq escape (next :: p)]
    split
    · rw [Option.map_map, Option.map_map]
      rfl
    · rw [Option.map_map, Option.map_map, ← globElem_element]
      rfl

/-- The encoding of a pattern has the elements of the pattern. -/
theorem likeToGlob_encode {escape : Option Char} (h : AsciiEscape escape) (p : List Char) :
    likeToGlob (escape.map Char.toNat) (encode p) = (charElements escape p).map globBytes := by
  rw [likeToGlob_eq, byteElements_encode h, Option.map_map]
  rfl

/-- A character that stands in brackets. -/
def Special (c : Char) : Prop := c = '*' ∨ c = '?' ∨ c = '['

instance (c : Char) : Decidable (Special c) := inferInstanceAs (Decidable (_ ∨ _))

theorem Special.toNat_lt {c : Char} (h : Special c) : c.toNat < 0x80 := by
  rcases h with rfl | rfl | rfl <;> decide

theorem special_iff {c : Char} :
    Special c ↔ c.toNat = matchAll ∨ c.toNat = matchOne ∨ c.toNat = matchSet := by
  simp only [Special, matchAll, matchOne, matchSet, Char.toNat_inj]

theorem globElem_chars (c : Char) : (encodeElem (.lit c)).flatMap globElem =
    if Special c then [matchSet, c.toNat, setEnd] else encodeChar c := by
  rw [encodeElem, List.flatMap_map]
  split
  · case isTrue h =>
    rw [encodeChar_of_lt h.toNat_lt, List.flatMap_singleton, globElem, globLiteral,
      if_pos (special_iff.mp h)]
  · case isFalse h =>
    have hliteral : ∀ b ∈ encodeChar c, globElem (.lit b) = [b] := by
      intro b hb
      rw [globElem, globLiteral, if_neg]
      intro hspecial
      have hsmall : b < 0x80 := by
        have : matchAll < 0x80 ∧ matchOne < 0x80 ∧ matchSet < 0x80 := by decide
        omega
      exact h (special_iff.mpr (toNat_eq_of_mem hb hsmall ▸ hspecial))
    rw [List.flatMap_congr hliteral, List.flatMap_singleton']

variable {c : Char} {es : List (Elem Char)}

theorem globBytes_cons (e : Elem Char) :
    globBytes (e :: es) = (encodeElem e).flatMap globElem ++ globBytes es := by
  rw [globBytes, encodeElems_cons, List.flatMap_append, globBytes]

theorem globEscape_encode (cs : List Char) :
    globEscape (encode cs) = globBytes (cs.map .lit) := by
  induction cs with
  | nil => rfl
  | cons c cs ih =>
    rw [List.map_cons, globBytes_cons, ← ih, encodeElem, List.flatMap_map, globEscape, encode_cons,
      List.flatMap_append]
    rfl

theorem globBytes_many : globBytes (.many :: es) = matchAll :: globBytes es := rfl

theorem globBytes_one : globBytes (.one :: es) = matchOne :: globBytes es := rfl

theorem globBytes_special (h : Special c) :
    globBytes (.lit c :: es) = matchSet :: c.toNat :: setEnd :: globBytes es := by
  rw [globBytes_cons, globElem_chars, if_pos h]
  rfl

theorem globBytes_plain (h : ¬ Special c) :
    globBytes (.lit c :: es) = encodeChar c ++ globBytes es := by
  rw [globBytes_cons, globElem_chars, if_neg h]

theorem starts_globBytes (es : List (Elem Char)) : Starts (globBytes es) := by
  cases es with
  | nil => exact starts_nil
  | cons e es =>
    cases e with
    | many | one => exact starts_cons rfl
    | lit c =>
      by_cases h : Special c
      · rw [globBytes_special h]
        exact starts_cons rfl
      · rw [globBytes_plain h]
        exact starts_encodeChar c _

theorem utf8Read_special (h : Special c) : utf8Read (globBytes (.lit c :: es)) =
    (matchSet, c.toNat :: setEnd :: globBytes es) := by
  rw [globBytes_special h, utf8Read_of_lt (by decide)]

theorem utf8Read_plain (h : ¬ Special c) :
    utf8Read (globBytes (.lit c :: es)) = (code c, globBytes es) := by
  rw [globBytes_plain h, utf8Read_encodeChar c (starts_globBytes es)]

/-- No plain character is read as one that has a meaning. -/
theorem code_ne_of_plain (h : ¬ Special c) :
    code c ≠ matchAll ∧ code c ≠ matchOne ∧ code c ≠ matchSet := by
  have hcode : code c < 0x80 → code c = c.toNat := by
    rw [code]
    split <;> omega
  have hsmall : matchAll < 0x80 ∧ matchOne < 0x80 ∧ matchSet < 0x80 := by decide
  rw [special_iff] at h
  omega

/-- A pattern for a character does not start with a wildcard. -/
theorem globBytes_lit_eq_cons (c : Char) (es : List (Elem Char)) :
    ∃ b bs, globBytes (.lit c :: es) = b :: bs ∧ b ≠ matchAll ∧ b ≠ matchOne := by
  by_cases h : Special c
  · exact ⟨_, _, globBytes_special h, by decide, by decide⟩
  · obtain ⟨b, bs, hb, -⟩ := encodeChar_eq_cons c
    have hmem : b ∈ encodeChar c := by simp [hb]
    have hsmall : matchAll < 0x80 ∧ matchOne < 0x80 := by decide
    refine ⟨b, bs ++ globBytes es, by rw [globBytes_plain h, hb, List.cons_append], ?_, ?_⟩
    · rintro rfl
      exact h (special_iff.mpr (.inl (toNat_eq_of_mem hmem hsmall.1)))
    · rintro rfl
      exact h (special_iff.mpr (.inr (.inl (toNat_eq_of_mem hmem hsmall.2))))

/-- What is left after wildcards, as elements and characters. -/
def skipElems : List (Elem Char) → List Char → Option (List (Elem Char) × List Char)
  | .many :: es, s => skipElems es s
  | .one :: _, [] => none
  | .one :: es, _ :: s => skipElems es s
  | es, s => some (es, s)

/-- A text without the character that ends a string. -/
def NulFree (s : List Char) : Prop := '\x00' ∉ s

theorem NulFree.tail {d : Char} {s : List Char} (h : NulFree (d :: s)) : NulFree s :=
  fun hmem => h (List.mem_cons_of_mem d hmem)

theorem NulFree.code_ne {d : Char} {s : List Char} (h : NulFree (d :: s)) : code d ≠ 0 := by
  intro hcode
  rw [code_eq_zero.mp hcode] at h
  exact h List.mem_cons_self

theorem skipWildcards_encode (es : List (Elem Char)) {s : List Char} (h : NulFree s) :
    skipWildcards (globBytes es) (encode s) = (skipElems es s).map fun r =>
      ((utf8Read (globBytes r.1)).1, (utf8Read (globBytes r.1)).2, encode r.2) := by
  induction es generalizing s with
  | nil => rfl
  | cons e es ih =>
    cases e with
    | many =>
      rw [globBytes_many, skipWildcards, if_pos rfl, ih h]
      rfl
    | one =>
      rw [globBytes_one, skipWildcards, if_neg (by decide), if_pos rfl]
      cases s with
      | nil => rfl
      | cons d s =>
        rw [utf8Read_encode_cons, if_neg h.code_ne, ih h.tail]
        rfl
    | lit c =>
      have hskip : skipElems (.lit c :: es) s = some (.lit c :: es, s) := by
        rw [skipElems] <;> simp
      obtain ⟨b, bs, hb, hall, hone⟩ := globBytes_lit_eq_cons c es
      rw [hskip, Option.map_some, hb, skipWildcards, if_neg hall, if_neg hone]

end Elements

/-! ### What an outcome says -/

section Outcomes

variable {c d : Char} {e : Elem Char} {es es' : List (Elem Char)} {s t : List Char} {r : Outcome}

/-- The outcome of a comparison. Without a match in spite of wildcards there is none later in the text
either. -/
def Tells (es : List (Elem Char)) (s : List Char) : Outcome → Prop
  | .matched => MatchesChars es s
  | .noMatch => ¬ MatchesChars es s
  | .noWildcardMatch => ¬ MatchesChars (.many :: es) s

/-- The outcome of a search. -/
def Finds (es : List (Elem Char)) (s : List Char) : Outcome → Prop
  | .matched => MatchesChars (.many :: es) s
  | .noMatch => False
  | .noWildcardMatch => ¬ MatchesChars (.many :: es) s

theorem Finds.tells (h : Finds es' t r)
    (hiff : MatchesChars (.many :: es) s ↔ MatchesChars (.many :: es') t) :
    Tells (.many :: es) s r := by
  cases r with
  | matched => exact hiff.mpr h
  | noMatch => exact h.elim
  | noWildcardMatch => exact fun hmany => h (hiff.mp (matches_many_many.mp hmany))

/-- The element stands for a single character, which can be this one. -/
def Takes (e : Elem Char) (d : Char) : Prop := e = .one ∨ e = .lit d

theorem matchesChars_takes (he : e ≠ .many) :
    MatchesChars (e :: es) s ↔ ∃ d t, s = d :: t ∧ Takes e d ∧ MatchesChars es t := by
  cases e with
  | many => exact absurd rfl he
  | one => simp [matchesChars_one, Takes]
  | lit c =>
    constructor
    · rintro ⟨t, rfl, h⟩
      exact ⟨c, t, rfl, .inr rfl, h⟩
    · rintro ⟨d, t, rfl, htakes, h⟩
      rcases htakes with htakes | htakes
      · cases htakes
      · cases htakes
        exact ⟨t, rfl, h⟩

theorem matchesChars_many_of_takes (he : e ≠ .many)
    (h : MatchesChars (.many :: e :: es) (d :: t)) : MatchesChars (.many :: es) t := by
  obtain ⟨u, hu, he'⟩ := h
  obtain ⟨d', v, rfl, -, hes⟩ := (matchesChars_takes he).mp he'
  exact ⟨v, suffix_of_cons_suffix_cons hu, hes⟩

theorem tells_nil (he : e ≠ .many) : Tells (e :: es) [] .noMatch := by
  intro h
  obtain ⟨d, t, heq, -⟩ := (matchesChars_takes he).mp h
  cases heq

theorem tells_of_not_takes (he : e ≠ .many) (h : ¬ Takes e d) : Tells (e :: es) (d :: t) .noMatch := by
  intro hmatches
  obtain ⟨d', t', heq, htakes, -⟩ := (matchesChars_takes he).mp hmatches
  cases heq
  exact h htakes

/-- A character that is taken leaves the outcome to the rest. -/
theorem tells_of_takes (he : e ≠ .many) (h : Takes e d) (htells : Tells es t r) :
    Tells (e :: es) (d :: t) r := by
  cases r with
  | matched => exact (matchesChars_takes he).mpr ⟨d, t, rfl, h, htells⟩
  | noMatch =>
    intro hmatches
    obtain ⟨d', t', heq, -, hes⟩ := (matchesChars_takes he).mp hmatches
    cases heq
    exact htells hes
  | noWildcardMatch => exact fun hmany => htells (matchesChars_many_of_takes he hmany)

theorem matchesChars_many_cons : MatchesChars (.many :: es) (d :: t) ↔
    MatchesChars es (d :: t) ∨ MatchesChars (.many :: es) t := by
  constructor
  · rintro ⟨u, hu, hes⟩
    rcases List.suffix_cons_iff.mp hu with rfl | hsuffix
    · exact .inl hes
    · exact .inr ⟨u, hsuffix, hes⟩
  · rintro (hes | hmany)
    · exact ⟨d :: t, List.suffix_refl _, hes⟩
    · exact matches_many_of_suffix (List.suffix_cons d t) hmany

/-- A search goes on after a position without a match. -/
theorem Finds.cons (h : Finds es t r) (hnot : ¬ MatchesChars es (d :: t)) : Finds es (d :: t) r := by
  cases r with
  | matched => exact matchesChars_many_cons.mpr (.inr h)
  | noMatch => exact h
  | noWildcardMatch => exact fun hmany => h ((matchesChars_many_cons.mp hmany).resolve_left hnot)

/-- A search ends at a position with another outcome. -/
theorem Tells.finds (h : Tells es (d :: t) r) (hne : r ≠ .noMatch) : Finds es (d :: t) r := by
  cases r with
  | matched => exact matchesChars_many_cons.mpr (.inl h)
  | noMatch => exact absurd rfl hne
  | noWildcardMatch => exact h

theorem finds_nil (he : e ≠ .many) : Finds (e :: es) [] .noWildcardMatch := by
  rintro ⟨t, ht, h⟩
  rw [List.suffix_nil.mp ht] at h
  exact tells_nil he h

theorem eq_of_orSearch {x y : Option Outcome} (h : orSearch x y = some r) :
    x = some .noMatch ∧ y = some r ∨ x = some r ∧ r ≠ .noMatch := by
  match x, h with
  | some .noMatch, h => exact .inl ⟨rfl, h⟩
  | some .matched, h =>
    cases h
    exact .inr ⟨rfl, by decide⟩
  | some .noWildcardMatch, h =>
    cases h
    exact .inr ⟨rfl, by decide⟩

/-- One position of a search. -/
theorem finds_of_orSearch {x y : Option Outcome} (h : orSearch x y = some r)
    (hx : ∀ r, x = some r → Tells es (d :: t) r) (hy : ∀ r, y = some r → Finds es t r) :
    Finds es (d :: t) r := by
  rcases eq_of_orSearch h with ⟨hnot, hnext⟩ | ⟨hhere, hne⟩
  · exact (hy r hnext).cons (hx .noMatch hnot)
  · exact (hx r hhere).finds hne

end Outcomes

/-! ### Patterns that are read as they are meant -/

section Sound

variable {c d : Char} {e : Elem Char} {es es' : List (Elem Char)} {s t : List Char} {r : Outcome}

/-- No two characters that are read as one, and after a wildcard not the character whose number is
taken for a byte. -/
def Unambiguous : Bool → List (Elem Char) → Prop
  | _, [] => True
  | starred, .lit c :: es => ¬ (0xFFFD ≤ c.toNat ∧ c.toNat ≤ 0xFFFF) ∧
      ¬ (starred = true ∧ c.toNat = 0x80) ∧ Unambiguous false es
  | starred, .one :: es => Unambiguous starred es
  | _, .many :: es => Unambiguous true es

/-- No character of the pattern ends it. -/
def NulFreeElems (es : List (Elem Char)) : Prop := Elem.lit '\x00' ∉ es

theorem NulFreeElems.tail (h : NulFreeElems (e :: es)) : NulFreeElems es :=
  fun hmem => h (List.mem_cons_of_mem e hmem)

theorem NulFreeElems.code_ne (h : NulFreeElems (.lit c :: es)) : code c ≠ 0 := by
  intro hcode
  rw [code_eq_zero.mp hcode] at h
  exact h List.mem_cons_self

/-- What is skipped: texts that are too short do not match, and the others match as before. -/
theorem not_matches_of_skipElems (h : skipElems es s = none) : ¬ MatchesChars (.many :: es) s := by
  fun_induction skipElems es s with
  | case1 s es ih => exact fun hmany => ih h (matches_many_many.mp hmany)
  | case2 es =>
    intro hmany
    obtain ⟨c, t, heq, -⟩ := matchesChars_many_one.mp hmany
    cases heq
  | case3 es d s ih =>
    intro hmany
    obtain ⟨c, t, heq, hes⟩ := matchesChars_many_one.mp hmany
    cases heq
    exact ih h hes
  | case4 => cases h

theorem matches_iff_of_skipElems (h : skipElems es s = some (es', t)) :
    MatchesChars (.many :: es) s ↔ MatchesChars (.many :: es') t := by
  fun_induction skipElems es s with
  | case1 s es ih => exact matches_many_many.trans (ih h)
  | case2 es => cases h
  | case3 es d s ih =>
    rw [matchesChars_many_one, ← ih h]
    simp
  | case4 =>
    cases h
    rfl

theorem nulFree_of_skipElems (h : skipElems es s = some (es', t)) (hs : NulFree s) : NulFree t := by
  fun_induction skipElems es s with
  | case1 s es ih => exact ih h hs
  | case2 es => cases h
  | case3 es d s ih => exact ih h hs.tail
  | case4 =>
    cases h
    exact hs

/-- What is left starts with a character. -/
theorem elems_of_skipElems (h : skipElems es s = some (es', t)) (hes : NulFreeElems es)
    (hunambiguous : Unambiguous true es) :
    es' = [] ∨ ∃ c es'', es' = .lit c :: es'' ∧ NulFreeElems es' ∧ Unambiguous true es' := by
  fun_induction skipElems es s with
  | case1 s es ih => exact ih h hes.tail hunambiguous
  | case2 es => cases h
  | case3 es d s ih => exact ih h hes.tail hunambiguous
  | case4 es s hmany hone hone' =>
    cases h
    match es', t with
    | [], _ => exact .inl rfl
    | .many :: es, _ => exact absurd rfl (hmany es)
    | .one :: es, [] => exact absurd rfl (hone es rfl)
    | .one :: es, d :: t => exact absurd rfl (hone' es d t rfl)
    | .lit c :: es, _ => exact .inr ⟨c, es, rfl, hes, hunambiguous⟩

/-- A special character in brackets is compared with the next character. -/
theorem eq_of_compareSet (hc : Special c) (hs : NulFree (d :: s)) {n : ℕ} {p : List ℕ}
    {r : Option (List ℕ × List ℕ)}
    (h : compareSet n (c.toNat :: setEnd :: p) (encode (d :: s)) = some r) :
    r = if d = c then some (p, encode s) else none := by
  have hcaret : c.toNat ≠ '^'.toNat := by rcases hc with rfl | rfl | rfl <;> decide
  have hend : c.toNat ≠ setEnd := by rcases hc with rfl | rfl | rfl <;> decide
  have hzero : c.toNat ≠ 0 := by rcases hc with rfl | rfl | rfl <;> decide
  have hsmall : c.toNat < 0x80 := hc.toNat_lt
  have hcode : code d = c.toNat ↔ d = c := by
    rw [← code_of_lt (by omega : c.toNat < 0xFFFD), code_eq_iff (.inl (by omega))]
  have hread : utf8Read (c.toNat :: setEnd :: p) = (c.toNat, setEnd :: p) :=
    utf8Read_of_lt (by omega) _
  have hread' : utf8Read (setEnd :: p) = (setEnd, p) := utf8Read_of_lt (by decide) p
  simp only [compareSet, utf8Read_encode_cons, hs.code_ne, if_false, hread, hcaret, pastChar, hend,
    false_and, decide_false] at h
  match n, h with
  | 0, h => cases h
  | 1, h => simp [setLoop, hzero, hend] at h
  | n + 2, h =>
    have hloop : setLoop (code d) (n + 2) c.toNat (setEnd :: p) 0 false =
        some (setEnd, decide (code d = c.toNat), p) := by
      rw [setLoop, if_neg (by simp [hzero, hend]), if_neg (by simp)]
      dsimp only
      rw [hread', setLoop, if_pos (.inr rfl), Bool.false_or]
    rw [hloop, Option.map_some, Option.some.injEq] at h
    rw [← h]
    by_cases hd : d = c
    · have hne : setEnd ≠ 0 := by decide
      rw [if_pos hd]
      simp [hcode.mpr hd, hne]
    · simp [hcode, hd]

theorem dropWhile_ne_encode (hc : c.toNat < 0x80) (s : List Char) :
    ((encode s).dropWhile fun b => b ≠ c.toNat) = encode (s.dropWhile fun d => d ≠ c) := by
  induction s with
  | nil => rfl
  | cons d s ih =>
    by_cases hd : d = c
    · subst hd
      simp [encodeChar_of_lt hc]
    · have hne : ∀ b ∈ encodeChar d, decide (b ≠ c.toNat) = true := by
        intro b hb
        refine decide_eq_true fun heq => hd ?_
        rw [heq] at hb
        exact Char.toNat_inj.mp (toNat_eq_of_mem hb hc)
      rw [encode_cons, List.dropWhile_append_of_pos hne, ih,
        List.dropWhile_cons_of_pos (by simpa using hd)]

/-- The outcomes are what they say, up to this depth. -/
structure Sound (n : ℕ) : Prop where
  patternCompare {es : List (Elem Char)} {s : List Char} {r : Outcome} :
    Unambiguous false es → NulFreeElems es → NulFree s →
    patternCompare n (globBytes es) (encode s) = some r → Tells es s r
  setSearch {c : Char} {es : List (Elem Char)} {s : List Char} {r : Outcome} :
    Unambiguous false (.lit c :: es) → NulFreeElems (.lit c :: es) → NulFree s →
    setSearch n (globBytes (.lit c :: es)) (encode s) = some r → Finds (.lit c :: es) s r
  byteSearch {c : Char} {es : List (Elem Char)} {s : List Char} {r : Outcome} :
    c.toNat < 0x80 → Unambiguous false es → NulFreeElems es → NulFree s →
    byteSearch n c.toNat (globBytes es) (encode s) = some r → Finds (.lit c :: es) s r
  charSearch {c : Char} {es : List (Elem Char)} {s : List Char} {r : Outcome} :
    Unambiguous false (.lit c :: es) → NulFreeElems es → NulFree s →
    charSearch n (code c) (globBytes es) (encode s) = some r → Finds (.lit c :: es) s r

theorem Unambiguous.of_starred (h : Unambiguous true (.lit c :: es)) :
    Unambiguous false (.lit c :: es) :=
  ⟨h.1, by simp, h.2.2⟩

theorem Unambiguous.code_eq_iff (h : Unambiguous false (.lit c :: es)) : code d = code c ↔ d = c :=
  Patterns.code_eq_iff (by have := h.1; omega)

theorem takes_lit : Takes (.lit c) d ↔ d = c := by
  simp [Takes, eq_comm]

theorem finds_dropWhile (h : Finds (.lit c :: es) (s.dropWhile fun d => d ≠ c) r) :
    Finds (.lit c :: es) s r := by
  induction s with
  | nil => exact h
  | cons d s ih =>
    by_cases hd : d = c
    · simpa [hd] using h
    · rw [List.dropWhile_cons_of_pos (by simpa using hd)] at h
      exact (ih h).cons (tells_of_not_takes (by simp) (by rwa [takes_lit]))

theorem nulFree_of_suffix (h : t <:+ s) (hs : NulFree s) : NulFree t :=
  fun hmem => hs (h.subset hmem)

theorem Sound.setSearch_succ {n : ℕ} (h : Sound n) (hunambiguous : Unambiguous false (.lit c :: es))
    (hes : NulFreeElems (.lit c :: es)) (hs : NulFree s)
    (hr : Patterns.setSearch (n + 1) (globBytes (.lit c :: es)) (encode s) = some r) :
    Finds (.lit c :: es) s r := by
  rw [Patterns.setSearch] at hr
  cases s with
  | nil =>
    cases hr
    exact finds_nil (by simp)
  | cons d s =>
    have hne : encode (d :: s) ≠ [] := by
      obtain ⟨b, bs, hb, -⟩ := encodeChar_eq_cons d
      simp [hb]
    rw [if_neg hne, skipUtf8_eq, utf8Read_encode_cons] at hr
    exact finds_of_orSearch hr (fun r hr => h.patternCompare hunambiguous hes hs hr)
      fun r hr => h.setSearch hunambiguous hes hs.tail hr

theorem Sound.byteSearch_succ {n : ℕ} (h : Sound n) (hc : c.toNat < 0x80)
    (hunambiguous : Unambiguous false es) (hes : NulFreeElems es) (hs : NulFree s)
    (hr : Patterns.byteSearch (n + 1) c.toNat (globBytes es) (encode s) = some r) :
    Finds (.lit c :: es) s r := by
  rw [Patterns.byteSearch, dropWhile_ne_encode hc] at hr
  refine finds_dropWhile ?_
  have hsuffix := List.dropWhile_suffix (l := s) fun d => d ≠ c
  cases hdrop : s.dropWhile fun d => d ≠ c with
  | nil =>
    rw [hdrop] at hr
    cases hr
    exact finds_nil (by simp)
  | cons d t =>
    have hd : d = c := by
      have hhead := List.head?_dropWhile_not (fun d => decide (d ≠ c)) s
      rw [hdrop] at hhead
      simpa using hhead
    subst hd
    rw [hdrop] at hr hsuffix
    rw [encode_cons, encodeChar_of_lt hc, List.singleton_append] at hr
    have ht := nulFree_of_suffix ((List.suffix_cons d t).trans hsuffix) hs
    refine finds_of_orSearch hr (fun r hr => ?_) fun r hr => h.byteSearch hc hunambiguous hes ht hr
    exact tells_of_takes (by simp) (takes_lit.mpr rfl) (h.patternCompare hunambiguous hes ht hr)

theorem Sound.charSearch_succ {n : ℕ} (h : Sound n) (hunambiguous : Unambiguous false (.lit c :: es))
    (hes : NulFreeElems es) (hs : NulFree s)
    (hr : Patterns.charSearch (n + 1) (code c) (globBytes es) (encode s) = some r) :
    Finds (.lit c :: es) s r := by
  rw [Patterns.charSearch] at hr
  cases s with
  | nil =>
    cases hr
    exact finds_nil (by simp)
  | cons d t =>
    rw [utf8Read_encode_cons] at hr
    dsimp only at hr
    rw [if_neg hs.code_ne] at hr
    by_cases hd : d = c
    · subst hd
      rw [if_neg (by simp)] at hr
      refine finds_of_orSearch hr (fun r hr => ?_)
        fun r hr => h.charSearch hunambiguous hes hs.tail hr
      exact tells_of_takes (by simp) (takes_lit.mpr rfl)
        (h.patternCompare hunambiguous.2.2 hes hs.tail hr)
    · rw [if_pos (by rwa [Ne, hunambiguous.code_eq_iff])] at hr
      exact (h.charSearch hunambiguous hes hs.tail hr).cons
        (tells_of_not_takes (by simp) (by rwa [takes_lit]))

theorem Sound.many_succ {n : ℕ} (h : Sound n) (hunambiguous : Unambiguous true es)
    (hes : NulFreeElems es) (hs : NulFree s)
    (hr : Patterns.patternCompare (n + 1) (globBytes (.many :: es)) (encode s) = some r) :
    Tells (.many :: es) s r := by
  rw [Patterns.patternCompare, globBytes_many, utf8Read_of_lt (by decide)] at hr
  dsimp only at hr
  rw [if_neg (by decide), if_pos rfl, skipWildcards_encode es hs] at hr
  cases hskip : skipElems es s with
  | none =>
    rw [hskip] at hr
    cases hr
    exact fun hmany => not_matches_of_skipElems hskip (matches_many_many.mp hmany)
  | some x =>
    obtain ⟨es', t⟩ := x
    have hiff := matches_iff_of_skipElems hskip
    have ht := nulFree_of_skipElems hskip hs
    rw [hskip, Option.map_some] at hr
    dsimp only at hr
    rcases elems_of_skipElems hskip hes hunambiguous with rfl | ⟨c, es', rfl, hes', hunambiguous'⟩
    · cases hr
      exact hiff.mpr ⟨[], List.nil_suffix, rfl⟩
    · by_cases hspecial : Special c
      · rw [utf8Read_special hspecial] at hr
        dsimp only at hr
        rw [if_neg (by decide), if_pos rfl, ← globBytes_special hspecial] at hr
        exact (h.setSearch hunambiguous'.of_starred hes' ht hr).tells hiff
      · obtain ⟨-, -, hset⟩ := code_ne_of_plain hspecial
        rw [utf8Read_plain hspecial] at hr
        dsimp only at hr
        rw [if_neg hes'.code_ne, if_neg hset] at hr
        by_cases hsmall : code c ≤ 0x80
        · have hcode : code c = c.toNat := by
            rw [code] at hsmall ⊢
            split at hsmall <;> simp_all
          have hne : c.toNat ≠ 0x80 := fun heq => hunambiguous'.2.1 ⟨rfl, heq⟩
          have hlt : c.toNat < 0x80 := by omega
          rw [if_pos hsmall, hcode] at hr
          exact (h.byteSearch hlt hunambiguous'.2.2 hes'.tail ht hr).tells hiff
        · rw [if_neg hsmall] at hr
          exact (h.charSearch hunambiguous'.of_starred hes'.tail ht hr).tells hiff

theorem Sound.lit_succ {n : ℕ} (h : Sound n) (hunambiguous : Unambiguous false (.lit c :: es))
    (hes : NulFreeElems (.lit c :: es)) (hs : NulFree s)
    (hr : Patterns.patternCompare (n + 1) (globBytes (.lit c :: es)) (encode s) = some r) :
    Tells (.lit c :: es) s r := by
  rw [Patterns.patternCompare] at hr
  dsimp only at hr
  by_cases hspecial : Special c
  · rw [utf8Read_special hspecial] at hr
    dsimp only at hr
    rw [if_neg (by decide), if_neg (by decide), if_pos rfl] at hr
    cases s with
    | nil =>
      cases hr
      exact tells_nil (by simp)
    | cons d s =>
      cases hset : compareSet n (c.toNat :: setEnd :: globBytes es) (encode (d :: s)) with
      | none =>
        rw [hset] at hr
        cases hr
      | some x =>
        have hx := eq_of_compareSet hspecial hs hset
        by_cases hd : d = c
        · rw [if_pos hd] at hx
          subst hx
          rw [hset] at hr
          exact tells_of_takes (by simp) (takes_lit.mpr hd)
            (h.patternCompare hunambiguous.2.2 hes.tail hs.tail hr)
        · rw [if_neg hd] at hx
          subst hx
          rw [hset] at hr
          cases hr
          exact tells_of_not_takes (by simp) (by rwa [takes_lit])
  · obtain ⟨hall, hone, hset⟩ := code_ne_of_plain hspecial
    rw [utf8Read_plain hspecial] at hr
    dsimp only at hr
    rw [if_neg hes.code_ne, if_neg hall, if_neg hset] at hr
    cases s with
    | nil =>
      rw [if_neg (by simp [utf8Read, hes.code_ne])] at hr
      cases hr
      exact tells_nil (by simp)
    | cons d s =>
      rw [utf8Read_encode_cons] at hr
      by_cases hd : d = c
      · rw [if_pos (.inl (by rw [hd]))] at hr
        exact tells_of_takes (by simp) (takes_lit.mpr hd)
          (h.patternCompare hunambiguous.2.2 hes.tail hs.tail hr)
      · have hne : code c ≠ code d := fun heq => hd (hunambiguous.code_eq_iff.mp heq.symm)
        rw [if_neg (by simp [hone, hne])] at hr
        cases hr
        exact tells_of_not_takes (by simp) (by rwa [takes_lit])

theorem Sound.one_succ {n : ℕ} (h : Sound n) (hunambiguous : Unambiguous false es)
    (hes : NulFreeElems es) (hs : NulFree s)
    (hr : Patterns.patternCompare (n + 1) (globBytes (.one :: es)) (encode s) = some r) :
    Tells (.one :: es) s r := by
  rw [Patterns.patternCompare, globBytes_one, utf8Read_of_lt (by decide)] at hr
  dsimp only at hr
  rw [if_neg (by decide), if_neg (by decide), if_neg (by decide)] at hr
  cases s with
  | nil =>
    cases hr
    exact tells_nil (by simp)
  | cons d s =>
    rw [utf8Read_encode_cons, if_pos (.inr ⟨rfl, hs.code_ne⟩)] at hr
    exact tells_of_takes (by simp) (.inl rfl) (h.patternCompare hunambiguous hes hs.tail hr)

theorem Sound.nil_succ {n : ℕ}
    (hr : Patterns.patternCompare (n + 1) (globBytes []) (encode s) = some r) : Tells [] s r := by
  cases s with
  | nil =>
    cases hr
    rfl
  | cons d s =>
    obtain ⟨b, bs, hb, -⟩ := encodeChar_eq_cons d
    rw [encode_cons, hb] at hr
    cases hr
    intro h
    cases h

/-- **An outcome is what it says**, for patterns that are read as they are meant. -/
theorem sound (n : ℕ) : Sound n := by
  induction n with
  | zero =>
    constructor
    all_goals
      intros
      contradiction
  | succ n ih =>
    constructor
    · intro es s r hunambiguous hes hs hr
      match es with
      | [] => exact Sound.nil_succ hr
      | .lit c :: es => exact ih.lit_succ hunambiguous hes hs hr
      | .one :: es => exact ih.one_succ hunambiguous hes.tail hs hr
      | .many :: es => exact ih.many_succ hunambiguous hes.tail hs hr
    · intro c es s r hunambiguous hes hs hr
      exact ih.setSearch_succ hunambiguous hes hs hr
    · intro c es s r hc hunambiguous hes hs hr
      exact ih.byteSearch_succ hc hunambiguous hes hs hr
    · intro c es s r hunambiguous hes hs hr
      exact ih.charSearch_succ hunambiguous hes hs hr

end Sound

/-! ### Texts that are taken for others -/

section Loose

variable {c d : Char} {es es' : List (Elem Char)} {s t : List Char} {r : Outcome}

/-- A text that is compared with the elements one by one, with characters that are read as those of
the pattern. After a wildcard U+0080 is looked for as a byte, which U+00C0 ends with. -/
inductive Loose : Bool → List (Elem Char) → List Char → Prop where
  | nil {starred : Bool} : Loose starred [] []
  | lit {starred : Bool} {c d : Char} {es : List (Elem Char)} {s : List Char} :
      code d = code c → Loose false es s → Loose starred (.lit c :: es) (d :: s)
  | byte {es : List (Elem Char)} {s : List Char} :
      Loose false es s → Loose true (.lit '\x80' :: es) ('\u00C0' :: s)
  | one {starred : Bool} {d : Char} {es : List (Elem Char)} {s : List Char} :
      Loose starred es s → Loose starred (.one :: es) (d :: s)
  | many {starred : Bool} {es : List (Elem Char)} {s : List Char} :
      Loose true es s → Loose starred (.many :: es) s

/-- After wildcards there is the end of both, or a character. -/
theorem Loose.skipElems {starred : Bool} (h : Loose starred es s) (hes : NulFreeElems es)
    (hs : NulFree s) :
    ∃ es' t, skipElems es s = some (es', t) ∧ Loose true es' t ∧ NulFreeElems es' ∧ NulFree t ∧
      (es' = [] ∨ ∃ c es'', es' = .lit c :: es'') := by
  induction h with
  | nil => exact ⟨[], [], rfl, .nil, hes, hs, .inl rfl⟩
  | @lit starred c d es s hcode hloose =>
    exact ⟨.lit c :: es, d :: s, rfl, .lit hcode hloose, hes, hs, .inr ⟨c, es, rfl⟩⟩
  | @byte es s hloose => exact ⟨_, _, rfl, .byte hloose, hes, hs, .inr ⟨_, es, rfl⟩⟩
  | one _ ih => exact ih hes.tail hs.tail
  | many _ ih => exact ih hes.tail hs

/-- The outcome is a match. -/
def Matched (x : Option Outcome) : Prop := ∀ r, x = some r → r = .matched

theorem matched_some {x : Option Outcome} (h : x = some .matched) : Matched x := by
  intro r hr
  rw [h] at hr
  exact (Option.some.inj hr).symm

theorem matched_orSearch {x y : Option Outcome} (h : Matched x) : Matched (orSearch x y) := by
  intro r hr
  rcases eq_of_orSearch hr with ⟨hx, -⟩ | ⟨hx, -⟩
  · cases h _ hx
  · exact h r hx

theorem matched_none : Matched none := by
  intro r hr
  cases hr

/-- The texts that are compared character by character match, up to this depth. -/
def MatchesLoose (n : ℕ) : Prop := ∀ ⦃es : List (Elem Char)⦄ ⦃s : List Char⦄,
  Loose false es s → NulFreeElems es → NulFree s →
    Matched (patternCompare n (globBytes es) (encode s))

theorem MatchesLoose.setSearch {n : ℕ} (h : ∀ m < n, MatchesLoose m) (hc : Special c)
    (hloose : Loose true (.lit c :: es) s) (hes : NulFreeElems (.lit c :: es)) (hs : NulFree s) :
    Matched (setSearch n (globBytes (.lit c :: es)) (encode s)) := by
  cases n with
  | zero => exact matched_none
  | succ n =>
    cases hloose with
    | @lit _ _ d _ s hcode hloose =>
      have hne : encode (d :: s) ≠ [] := by
        obtain ⟨b, bs, hb, -⟩ := encodeChar_eq_cons d
        simp [hb]
      rw [Patterns.setSearch, if_neg hne]
      exact matched_orSearch (h n (Nat.lt_succ_self n) (.lit hcode hloose) hes hs)
    | byte => exact absurd hc (by decide)

/-- The first byte that is found is that of the character. -/
theorem Loose.dropWhile (hloose : Loose true (.lit c :: es) s) (hc : code c ≤ 0x80) :
    ∃ t, ((encode s).dropWhile fun b => b ≠ code c) = code c :: encode t ∧ Loose false es t ∧
      (NulFree s → NulFree t) := by
  cases hloose with
  | @lit _ _ d _ t hcode hloose =>
    refine ⟨t, ?_, hloose, NulFree.tail⟩
    have hd : d.toNat = code c := by
      rw [← hcode] at hc ⊢
      rw [code] at hc ⊢
      split at hc
      · omega
      · case isFalse h => rw [if_neg h]
    by_cases hsmall : d.toNat < 0x80
    · rw [encode_cons, encodeChar_of_lt hsmall, hd, List.singleton_append,
        List.dropWhile_cons_of_neg (by simp)]
    · have h80 : d = '\x80' := Char.toNat_inj.mp (by change d.toNat = 0x80; omega)
      have hcode : code c = 0x80 := by
        rw [← hd, h80]
        rfl
      rw [hcode, h80]
      rfl
  | byte hloose => exact ⟨_, rfl, hloose, NulFree.tail⟩

theorem MatchesLoose.byteSearch {n : ℕ} (h : ∀ m < n, MatchesLoose m) (hc : code c ≤ 0x80)
    (hloose : Loose true (.lit c :: es) s) (hes : NulFreeElems es) (hs : NulFree s) :
    Matched (byteSearch n (code c) (globBytes es) (encode s)) := by
  cases n with
  | zero => exact matched_none
  | succ n =>
    obtain ⟨t, hdrop, hloose, ht⟩ := hloose.dropWhile hc
    rw [Patterns.byteSearch, hdrop]
    exact matched_orSearch (h n (Nat.lt_succ_self n) hloose hes (ht hs))

theorem MatchesLoose.charSearch {n : ℕ} (h : ∀ m < n, MatchesLoose m) (hc : ¬ code c ≤ 0x80)
    (hloose : Loose true (.lit c :: es) s) (hes : NulFreeElems es) (hs : NulFree s) :
    Matched (charSearch n (code c) (globBytes es) (encode s)) := by
  cases n with
  | zero => exact matched_none
  | succ n =>
    cases hloose with
    | @lit _ _ d _ s hcode hloose =>
      rw [Patterns.charSearch, utf8Read_encode_cons]
      dsimp only
      rw [if_neg hs.code_ne, if_neg (by simp [hcode])]
      exact matched_orSearch (h n (Nat.lt_succ_self n) hloose hes hs.tail)
    | byte => exact absurd (by decide) hc

theorem MatchesLoose.many {n : ℕ} (h : ∀ m < n, MatchesLoose m) (hloose : Loose true es s)
    (hes : NulFreeElems es) (hs : NulFree s) :
    Matched (patternCompare (n + 1) (globBytes (.many :: es)) (encode s)) := by
  obtain ⟨es', t, hskip, hloose, hes, ht, helems⟩ := hloose.skipElems hes hs
  rw [patternCompare, globBytes_many, utf8Read_of_lt (by decide)]
  dsimp only
  rw [if_neg (by decide), if_pos rfl, skipWildcards_encode _ hs, hskip, Option.map_some]
  dsimp only
  rcases helems with rfl | ⟨c, es', rfl⟩
  · exact matched_some rfl
  by_cases hspecial : Special c
  · rw [utf8Read_special hspecial]
    dsimp only
    rw [if_neg (by decide), if_pos rfl, ← globBytes_special hspecial]
    exact MatchesLoose.setSearch h hspecial hloose hes ht
  · obtain ⟨-, -, hset⟩ := code_ne_of_plain hspecial
    rw [utf8Read_plain hspecial]
    dsimp only
    rw [if_neg hes.code_ne, if_neg hset]
    split
    · case isTrue hc => exact MatchesLoose.byteSearch h hc hloose hes.tail ht
    · case isFalse hc => exact MatchesLoose.charSearch h hc hloose hes.tail ht

theorem MatchesLoose.lit {n : ℕ} (h : MatchesLoose n) (hcode : code d = code c)
    (hloose : Loose false es s) (hes : NulFreeElems (.lit c :: es)) (hs : NulFree (d :: s)) :
    Matched (patternCompare (n + 1) (globBytes (.lit c :: es)) (encode (d :: s))) := by
  rw [patternCompare]
  dsimp only
  by_cases hspecial : Special c
  · rw [utf8Read_special hspecial]
    dsimp only
    rw [if_neg (by decide), if_neg (by decide), if_pos rfl]
    have hd : d = c := (code_eq_iff (.inl (by have := hspecial.toNat_lt; omega))).mp hcode
    cases hset : compareSet n (c.toNat :: setEnd :: globBytes es) (encode (d :: s)) with
    | none => exact matched_none
    | some x =>
      rw [eq_of_compareSet hspecial hs hset, if_pos hd]
      exact h hloose hes.tail hs.tail
  · obtain ⟨hall, hone, hset⟩ := code_ne_of_plain hspecial
    rw [utf8Read_plain hspecial, utf8Read_encode_cons]
    dsimp only
    rw [if_neg hes.code_ne, if_neg hall, if_neg hset, if_pos (.inl hcode.symm)]
    exact h hloose hes.tail hs.tail

theorem matchesLoose (n : ℕ) : MatchesLoose n := by
  induction n using Nat.strong_induction_on with
  | _ n ih =>
    intro es s hloose hes hs
    cases n with
    | zero => exact matched_none
    | succ n =>
      have hn := ih n (Nat.lt_succ_self n)
      cases hloose with
      | nil => exact matched_some rfl
      | lit hcode hloose => exact hn.lit hcode hloose hes hs
      | @one _ d es s hloose =>
        rw [patternCompare, globBytes_one, utf8Read_of_lt (by decide), utf8Read_encode_cons]
        dsimp only
        rw [if_neg (by decide), if_neg (by decide), if_neg (by decide),
          if_pos (.inr ⟨rfl, hs.code_ne⟩)]
        exact hn hloose hes.tail hs.tail
      | many hloose =>
        exact MatchesLoose.many (fun m hm => ih m (hm.trans (Nat.lt_succ_self n))) hloose hes.tail hs

/-- A text for the elements, with a character for each of theirs. -/
def stand (f : Bool → Char → Char) : Bool → List (Elem Char) → List Char
  | _, [] => []
  | starred, .lit c :: es => f starred c :: stand f false es
  | starred, .one :: es => 'x' :: stand f starred es
  | _, .many :: es => stand f true es

theorem loose_stand {f : Bool → Char → Char} (hf : ∀ starred c, code (f starred c) = code c ∨
    starred = true ∧ c = '\x80' ∧ f starred c = '\u00C0') (starred : Bool)
    (es : List (Elem Char)) : Loose starred es (stand f starred es) := by
  induction es generalizing starred with
  | nil => exact .nil
  | cons e es ih =>
    cases e with
    | many => exact .many (ih true)
    | one => exact .one (ih starred)
    | lit c =>
      rw [stand]
      rcases hf starred c with hcode | ⟨rfl, rfl, heq⟩
      · exact .lit hcode (ih false)
      · rw [heq]
        exact .byte (ih false)

theorem mem_stand {f : Bool → Char → Char} {starred : Bool} (h : d ∈ stand f starred es) :
    d = 'x' ∨ ∃ starred c, .lit c ∈ es ∧ d = f starred c := by
  induction es generalizing starred with
  | nil => cases h
  | cons e es ih =>
    have hcons (h : d = 'x' ∨ ∃ starred c, .lit c ∈ es ∧ d = f starred c) :
        d = 'x' ∨ ∃ starred c, .lit c ∈ e :: es ∧ d = f starred c :=
      h.imp_right fun ⟨starred, c, hmem, heq⟩ => ⟨starred, c, List.mem_cons_of_mem e hmem, heq⟩
    cases e with
    | many => exact hcons (ih h)
    | one =>
      rcases List.mem_cons.mp h with rfl | h
      · exact .inl rfl
      · exact hcons (ih h)
    | lit c =>
      rcases List.mem_cons.mp h with rfl | h
      · exact .inr ⟨starred, c, List.mem_cons_self, rfl⟩
      · exact hcons (ih h)

theorem nulFree_stand {f : Bool → Char → Char} (hf : ∀ starred c, c ≠ '\x00' → f starred c ≠ '\x00')
    (hes : NulFreeElems es) (starred : Bool) : NulFree (stand f starred es) := by
  intro hmem
  rcases mem_stand hmem with heq | ⟨starred, c, hc, heq⟩
  · exact absurd heq (by decide)
  · refine hf starred c ?_ heq.symm
    rintro rfl
    exact hes hc

/-- The characters that are read as U+FFFD. -/
def ReadAsReplacement (c : Char) : Prop := 0xFFFD ≤ c.toNat ∧ c.toNat ≤ 0xFFFF

instance (c : Char) : Decidable (ReadAsReplacement c) := inferInstanceAs (Decidable (_ ∧ _))

theorem code_of_readAsReplacement (h : ReadAsReplacement c) : code c = 0xFFFD := by
  obtain ⟨hle, hge⟩ := h
  rw [code]
  split <;> omega

/-- Another character that is read as U+FFFD. -/
def other (c : Char) : Char := if c = '\uFFFD' then '\uFFFE' else '\uFFFD'

theorem other_ne (c : Char) : other c ≠ c := by
  rw [other]
  split
  · case isTrue h =>
    rw [h]
    decide
  · case isFalse h => exact Ne.symm h

theorem readAsReplacement_other (c : Char) : ReadAsReplacement (other c) := by
  rw [other]
  split <;> decide

/-- A text that has another character in place of `c`. -/
def confuse (c : Char) (_ : Bool) (d : Char) : Char := if ReadAsReplacement d then other c else d

theorem not_mem_stand_confuse (hc : ReadAsReplacement c) (starred : Bool) :
    c ∉ stand (confuse c) starred es := by
  intro hmem
  rcases mem_stand hmem with heq | ⟨_, d, -, heq⟩
  · rw [heq] at hc
    exact absurd hc (by decide)
  · rw [confuse] at heq
    split at heq
    · exact other_ne c heq.symm
    · case isFalse hd => exact hd (heq ▸ hc)

theorem code_confuse (c d : Char) (starred : Bool) : code (confuse c starred d) = code d := by
  rw [confuse]
  split
  · case isTrue hd =>
    rw [code_of_readAsReplacement hd, code_of_readAsReplacement (readAsReplacement_other c)]
  · rfl

/-- A text that has U+00C0 in place of U+0080 after wildcards. -/
def confuseByte (starred : Bool) (d : Char) : Char :=
  if starred = true ∧ d = '\x80' then '\u00C0' else d

theorem confuseByte_eq (starred : Bool) (d : Char) :
    code (confuseByte starred d) = code d ∨
      starred = true ∧ d = '\x80' ∧ confuseByte starred d = '\u00C0' := by
  rw [confuseByte]
  split
  · case isTrue h => exact .inr ⟨h.1, h.2, rfl⟩
  · exact .inl rfl

theorem count_stand_le (starred : Bool) (es : List (Elem Char)) :
    (stand confuseByte starred es).count '\x80' ≤ es.count (.lit '\x80') := by
  induction es generalizing starred with
  | nil => simp [stand]
  | cons e es ih =>
    cases e with
    | many => simpa [stand, List.count_cons] using ih true
    | one => simpa [stand, List.count_cons] using ih starred
    | lit c =>
      have := ih false
      rw [stand, List.count_cons, List.count_cons]
      by_cases hc : c = '\x80'
      · subst hc
        simp only [beq_self_eq_true, if_true]
        split <;> omega
      · have hne : confuseByte starred c = c := if_neg fun h => hc h.2
        simp [hne, hc, this]

/-- What is wrong with a pattern that is not read as it is meant. -/
theorem of_not_unambiguous {starred : Bool} (h : ¬ Unambiguous starred es) :
    (∃ c, .lit c ∈ es ∧ ReadAsReplacement c) ∨
      (stand confuseByte starred es).count '\x80' < es.count (.lit '\x80') := by
  induction es generalizing starred with
  | nil => exact absurd trivial h
  | cons e es ih =>
    have hcons (hmem : ∃ c, .lit c ∈ es ∧ ReadAsReplacement c) :
        ∃ c, .lit c ∈ e :: es ∧ ReadAsReplacement c :=
      hmem.imp fun c hc => ⟨List.mem_cons_of_mem e hc.1, hc.2⟩
    cases e with
    | many | one =>
      refine (ih h).imp hcons fun hlt => ?_
      simpa [stand, List.count_cons] using hlt
    | lit c =>
      by_cases hc : ReadAsReplacement c
      · exact .inl ⟨c, List.mem_cons_self, hc⟩
      by_cases hbyte : starred = true ∧ c = '\x80'
      · right
        have hle := count_stand_le false es
        obtain ⟨rfl, rfl⟩ := hbyte
        rw [stand, List.count_cons_self, List.count_cons_of_ne (by decide)]
        omega
      · have hes : ¬ Unambiguous false es := by
          intro hes
          refine h ⟨hc, fun h80 => hbyte ⟨h80.1, ?_⟩, hes⟩
          exact Char.toNat_inj.mp h80.2
        refine (ih hes).imp hcons fun hlt => ?_
        have hsame : confuseByte starred c = c := if_neg hbyte
        rw [stand, hsame, List.count_cons, List.count_cons]
        by_cases h80 : c = '\x80'
        · simpa [h80] using hlt
        · simpa [h80] using hlt

/-- A pattern that is not read as it is meant matches a text that it should not match. -/
theorem exists_loose (h : ¬ Unambiguous false es) (hes : NulFreeElems es) :
    ∃ s, Loose false es s ∧ NulFree s ∧ ¬ MatchesChars es s := by
  rcases of_not_unambiguous h with ⟨c, hmem, hc⟩ | hlt
  · refine ⟨stand (confuse c) false es, loose_stand (fun b d => .inl (code_confuse c d b)) false es,
      nulFree_stand (fun b d hd => ?_) hes false, fun hmatches => ?_⟩
    · rw [confuse]
      split
      · rw [other]
        split <;> decide
      · exact hd
    · have hcount := count_lit_le c hmatches
      have hpos := List.count_pos_iff.mpr hmem
      rw [List.count_eq_zero.mpr (not_mem_stand_confuse hc false)] at hcount
      omega
  · refine ⟨stand confuseByte false es, loose_stand confuseByte_eq false es,
      nulFree_stand (fun b d hd => ?_) hes false, fun hmatches => ?_⟩
    · rw [confuseByte]
      split
      · decide
      · exact hd
    · have hcount := count_lit_le '\x80' hmatches
      omega

end Loose

/-! ### The encodings are exact -/

section Exact

variable {es : List (Elem Char)}

/-- A `GLOB` pattern matches the texts that it should match. -/
def Exact (glob : List ℕ) (language : List Char → Prop) : Prop :=
  ∀ s, NulFree s → ∀ n, depth glob.length (encode s).length < n →
    (patternCompare n glob (encode s) = some .matched ↔ language s)

theorem exact_globBytes_iff (hes : NulFreeElems es) :
    Exact (globBytes es) (MatchesChars es) ↔ Unambiguous false es := by
  constructor
  · intro hexact
    by_contra hnot
    obtain ⟨s, hloose, hs, hno⟩ := exists_loose hnot hes
    obtain ⟨r, hr⟩ := (terminates _ _).patternCompare (globBytes es) (encode s) le_rfl
      (Nat.lt_succ_self _)
    have hmatched : r = .matched := matchesLoose _ hloose hes hs r hr
    rw [hmatched] at hr
    exact hno ((hexact s hs _ (Nat.lt_succ_self _)).mp hr)
  · intro hunambiguous s hs n hn
    obtain ⟨r, hr⟩ := (terminates _ n).patternCompare (globBytes es) (encode s) le_rfl hn
    have htells := (sound n).patternCompare hunambiguous hes hs hr
    rw [hr, Option.some.injEq]
    cases r with
    | matched => exact ⟨fun _ => htells, fun _ => rfl⟩
    | noMatch => exact ⟨nofun, fun h => absurd h htells⟩
    | noWildcardMatch => exact ⟨nofun, fun h => absurd ⟨s, List.suffix_refl s, h⟩ htells⟩

theorem exact_congr {glob : List ℕ} {language language' : List Char → Prop}
    (h : ∀ s, language s ↔ language' s) : Exact glob language ↔ Exact glob language' := by
  simp only [Exact, h]

theorem eq_of_lit_eq_element {a c : Char} (h : .lit c = element '_' '%' a) : c = a := by
  rw [element] at h
  split at h
  · cases h
  split at h
  · cases h
  · exact Elem.lit.inj h

/-- The characters of the elements are those of the pattern. -/
theorem mem_of_lit_mem {escape : Option Char} {c : Char} : ∀ {p : List Char}
    {es : List (Elem Char)}, charElements escape p = some es → .lit c ∈ es → c ∈ p
  | [], es, h, hmem => by
    cases h
    cases hmem
  | [a], es, h, hmem => by
    rw [charElements, elements] at h
    split at h
    · cases h
    · cases h
      rw [eq_of_lit_eq_element (List.mem_singleton.mp hmem)]
      exact List.mem_cons_self
  | a :: b :: p, es, h, hmem => by
    rw [charElements, elements] at h
    split at h
    · obtain ⟨es, hes, rfl⟩ := Option.map_eq_some_iff.mp h
      rcases List.mem_cons.mp hmem with heq | hmem
      · rw [Elem.lit.inj heq]
        simp
      · exact List.mem_cons_of_mem a (List.mem_cons_of_mem b (mem_of_lit_mem hes hmem))
    · obtain ⟨es, hes, rfl⟩ := Option.map_eq_some_iff.mp h
      rcases List.mem_cons.mp hmem with heq | hmem
      · rw [eq_of_lit_eq_element heq]
        exact List.mem_cons_self
      · exact List.mem_cons_of_mem a (mem_of_lit_mem hes hmem)

theorem nulFreeElems_of_pattern {escape : Option Char} {p : List Char}
    (h : charElements escape p = some es) (hp : NulFree p) : NulFreeElems es :=
  fun hmem => hp (mem_of_lit_mem h hmem)

theorem unambiguous_lits {cs : List Char} : Unambiguous false (cs.map .lit ++ es) ↔
    (∀ c ∈ cs, ¬ ReadAsReplacement c) ∧ Unambiguous false es := by
  induction cs with
  | nil => simp
  | cons c cs ih => simp [Unambiguous, ReadAsReplacement, ih, and_assoc]

theorem unambiguous_many_lits {cs : List Char} : Unambiguous false (.many :: cs.map .lit) ↔
    (∀ c ∈ cs, ¬ ReadAsReplacement c) ∧ cs.head? ≠ some '\x80' := by
  cases cs with
  | nil => simp [Unambiguous]
  | cons c cs =>
    have hrest : Unambiguous false (cs.map .lit) ↔ ∀ c ∈ cs, ¬ ReadAsReplacement c := by
      have h : Unambiguous false (cs.map .lit ++ []) ↔ _ := unambiguous_lits
      simpa [Unambiguous] using h
    have hchar : c.toNat = 0x80 ↔ c = '\x80' := Char.toNat_inj (c := c) (d := '\x80')
    simp only [List.map_cons, Unambiguous, true_and, hrest, hchar, List.forall_mem_cons,
      List.head?_cons, Ne, Option.some.injEq, ReadAsReplacement]
    tauto

/-- The pattern has none of the characters U+FFFD to U+FFFF, and no U+0080 after a wildcard `%`. -/
def ReadAsMeant (escape : Option Char) (pattern : List Char) : Prop :=
  ∀ es, charElements escape pattern = some es → Unambiguous false es

/-- **When the encodings are exact.** -/
theorem glob_exact_iff (escape : Option Char) (pattern constant : List Char)
    (hescape : AsciiEscape escape) (hpattern : NulFree pattern) (hconstant : NulFree constant) :
    (∀ glob, likeToGlob (escape.map Char.toNat) (encode pattern) = some glob →
      (Exact glob (InLanguage escape pattern) ↔ ReadAsMeant escape pattern)) ∧
    (Exact (startsWithGlob (encode constant)) (fun s => constant <+: s) ↔
      ∀ c ∈ constant, ¬ ReadAsReplacement c) ∧
    (Exact (endsWithGlob (encode constant)) (fun s => constant <:+ s) ↔
      (∀ c ∈ constant, ¬ ReadAsReplacement c) ∧ constant.head? ≠ some '\x80') := by
  have hlits (es : List (Elem Char)) (hes : NulFreeElems es) :
      NulFreeElems (constant.map .lit ++ es) := by
    intro hmem
    rcases List.mem_append.mp hmem with hmem | hmem
    · obtain ⟨c, hc, heq⟩ := List.mem_map.mp hmem
      rw [Elem.lit.inj heq] at hc
      exact hconstant hc
    · exact hes hmem
  refine ⟨fun glob hglob => ?_, ?_, ?_⟩
  · rw [likeToGlob_encode hescape] at hglob
    obtain ⟨es, hes, rfl⟩ := Option.map_eq_some_iff.mp hglob
    have hlanguage (s : List Char) : InLanguage escape pattern s ↔ MatchesChars es s := by
      simp [InLanguage, hes]
    rw [exact_congr hlanguage, exact_globBytes_iff (nulFreeElems_of_pattern hes hpattern),
      ReadAsMeant, hes]
    simp
  · have hglob : startsWithGlob (encode constant) = globBytes (constant.map .lit ++ [.many]) := by
      rw [startsWithGlob, globEscape_encode]
      simp [globBytes, encodeElems, encodeElem, globElem]
    rw [hglob, ← exact_congr fun s => matchesChars_prefix,
      exact_globBytes_iff (hlits [.many] (by simp [NulFreeElems])), unambiguous_lits]
    simp [Unambiguous]
  · have hglob : endsWithGlob (encode constant) = globBytes (.many :: constant.map .lit) := by
      rw [endsWithGlob, globEscape_encode]
      rfl
    have hes : NulFreeElems (.many :: constant.map .lit) := by
      have := hlits [] (by simp [NulFreeElems])
      simpa [NulFreeElems] using this
    rw [hglob, ← exact_congr fun s => matchesChars_suffix, exact_globBytes_iff hes,
      unambiguous_many_lits]

theorem glob_exact_iff_wildcards :
    AsciiEscape none ∧ NulFree ['a', '%'] ∧ NulFree ['b'] ∧
    (∀ glob, likeToGlob none (encode ['a', '%']) = some glob →
      (Exact glob (InLanguage none ['a', '%']) ↔ ReadAsMeant none ['a', '%'])) ∧
    (Exact (startsWithGlob (encode ['b'])) (fun s => ['b'] <+: s) ↔
      ∀ c ∈ ['b'], ¬ ReadAsReplacement c) ∧
    (Exact (endsWithGlob (encode ['b'])) (fun s => ['b'] <:+ s) ↔
      (∀ c ∈ ['b'], ¬ ReadAsReplacement c) ∧ ['b'].head? ≠ some '\x80') :=
  have hescape : AsciiEscape none := by
    intro e he
    cases he
  have hpattern : NulFree ['a', '%'] := by
    unfold NulFree
    decide
  have hconstant : NulFree ['b'] := by
    unfold NulFree
    decide
  ⟨hescape, hpattern, hconstant,
    glob_exact_iff none ['a', '%'] ['b'] hescape hpattern hconstant⟩

/-- U+FFFD is matched by U+FFFF, and U+0080 after a `%` by U+00C0. -/
theorem other_characters_match :
    (likeToGlob none (encode ['\uFFFD']) = some (encode ['\uFFFD']) ∧
      patternCompare 20 (encode ['\uFFFD']) (encode ['\uFFFF']) = some .matched ∧
      ¬ InLanguage none ['\uFFFD'] ['\uFFFF']) ∧
    likeToGlob none (encode ['%', '\x80']) = some (encode ['*', '\x80']) ∧
      patternCompare 20 (encode ['*', '\x80']) (encode ['\u00C0']) = some .matched ∧
      ¬ InLanguage none ['%', '\x80'] ['\u00C0'] := by
  refine ⟨⟨by decide, by decide, ?_⟩, by decide, by decide, ?_⟩
  · rintro ⟨es, hes, hmatches⟩
    obtain rfl : [.lit '\uFFFD'] = es := Option.some.inj hes
    have hcount := count_lit_le '\uFFFD' hmatches
    revert hcount
    decide
  · rintro ⟨es, hes, hmatches⟩
    obtain rfl : [.many, .lit '\x80'] = es := Option.some.inj hes
    have hcount := count_lit_le '\x80' hmatches
    revert hcount
    decide

end Exact

end SqliteScanner.Patterns
