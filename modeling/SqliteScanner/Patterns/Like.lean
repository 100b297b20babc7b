import SqliteScanner.Internal.Wildcards
import Mathlib.Order.Nat

/-!
# `LIKE` as an extension function

`duckdb_like` matches a string against a pattern by a loop over bytes (`SQLiteLikeMatches`). A `%` is
remembered with the position in the string, and if the pattern after it does not match, the loop
starts again there, one byte later. This may be in the middle of a character, and only the last `%`
is remembered.

Neither is wrong. `likeMatches_decides` says that the loop ends, after a number of rounds that depends
on the lengths alone, and decides whether the string is in the language of the pattern; it throws
only if the pattern ends with an escape character that is not escaped.

The string and the pattern are lists of bytes, from the positions `sidx` and `pidx` on. What a round
can do is said once, by `Moves` and `Ends`. The loop is then a search as in `Wildcards`: each of its
rounds is one of the steps there.

## Main definitions

* `step`, `run` — the loop.
* `elements`, `InLanguage` — the language of a pattern.
* `Reads` — the state of the loop as a position of a search.

## Main results

* `exists_result` — the loop ends.
* `Moves.reads`, `Result.reads` — a round keeps whether the pattern is found, and so does the loop.
* `likeMatches_decides` — what the loop decides.
-/

namespace SqliteScanner.Patterns

open Utf8 Wildcards

/-! ### The loop -/

def percent : ℕ := '%'.toNat

def underscore : ℕ := '_'.toNat

/-- The state of the loop: the bytes of the pattern and of the string that are left, and those that
were left after the last `%`. -/
structure LikeState where
  pattern : List ℕ
  string : List ℕ
  retry : Option (List ℕ × List ℕ)

def endsWithEscape : String := "Like pattern must not end with escape character!"

/-- What happens on a mismatch. -/
def startAgain : Option (List ℕ × List ℕ) → LikeState ⊕ Bool
  | none => .inr false
  | some (pattern, string) => .inl ⟨pattern, string.tail, some (pattern, string.tail)⟩

/-- What is left of the pattern at the end of the string. -/
def finish (escape : Option ℕ) : List ℕ → Except String Bool
  | [] => .ok true
  | pchar :: pattern =>
    if escape = some pchar then if pattern = [] then .error endsWithEscape else .ok false
    else if pchar ≠ percent then .ok false
    else finish escape pattern

/-- One round of the loop, or what follows it. -/
def step (escape : Option ℕ) (s : LikeState) : Except String (LikeState ⊕ Bool) :=
  match s.string, s.pattern with
  | [], pattern => (finish escape pattern).map .inr
  | _ :: _, [] => .ok (startAgain s.retry)
  | schar :: string, pchar :: pattern =>
    if escape = some pchar then
      match pattern with
      | [] => .error endsWithEscape
      | next :: pattern =>
        if next = schar then .ok (.inl ⟨pattern, string, s.retry⟩) else .ok (startAgain s.retry)
    else if pchar = underscore then
      .ok (.inl ⟨pattern, string.dropWhile isContinuation, s.retry⟩)
    else if pchar = percent then
      let pattern := pattern.dropWhile fun b => b = percent
      if pattern = [] then .ok (.inr true)
      else .ok (.inl ⟨pattern, s.string, some (pattern, s.string)⟩)
    else if pchar = schar then .ok (.inl ⟨pattern, string, s.retry⟩)
    else .ok (startAgain s.retry)

/-- The loop, for at most the given number of rounds. -/
def run (escape : Option ℕ) : ℕ → LikeState → Option (Except String Bool)
  | 0, _ => none
  | n + 1, s =>
    match step escape s with
    | .error e => some (.error e)
    | .ok (.inr b) => some (.ok b)
    | .ok (.inl s) => run escape n s

/-- `SQLiteLikeMatches`. -/
def likeMatches (fuel : ℕ) (string pattern : List ℕ) (escape : Option ℕ) :
    Option (Except String Bool) :=
  run escape fuel ⟨pattern, string, none⟩

/-- `SQLiteLikeFunction`: null for a null argument, and else whether the string matches, or an error.
For `ILIKE` the string, the pattern and the escape character are changed to lower case. -/
def likeFunction (fuel : ℕ) (lowerCase : List ℕ → List ℕ) (characterToLower : ℕ → ℕ)
    (string pattern : Option (List ℕ)) (escape : Option (Option (List ℕ))) :
    Option (Except String (Option Bool)) :=
  match string, pattern, escape with
  | some string, some pattern, none =>
    (likeMatches fuel (lowerCase string) (lowerCase pattern) none).map fun r => r.map some
  | some string, some pattern, some (some escape) =>
    if escape.length > 1 then
      some (.error "Invalid escape string. Escape string must be empty or one character.")
    else
      (likeMatches fuel (lowerCase string) (lowerCase pattern)
        (escape.head?.map characterToLower)).map fun r => r.map some
  | _, _, _ => some (.ok none)

/-! ### The language of a pattern -/

/-- What a character stands for if it is not escaped. -/
def element {α : Type} [DecidableEq α] (underscore percent a : α) : Elem α :=
  if a = underscore then .one else if a = percent then .many else .lit a

/-- The elements of a pattern, unless it ends with an escape character that is not escaped. -/
def elements {α : Type} [DecidableEq α] (underscore percent : α) (escape : Option α) :
    List α → Option (List (Elem α))
  | [] => some []
  | [a] => if escape = some a then none else some [element underscore percent a]
  | a :: b :: p =>
    if escape = some a then (elements underscore percent escape p).map (.lit b :: ·)
    else (elements underscore percent escape (b :: p)).map (element underscore percent a :: ·)

def byteElements (escape : Option ℕ) (pattern : List ℕ) : Option (List (Elem ℕ)) :=
  elements underscore percent escape pattern

def charElements (escape : Option Char) (pattern : List Char) : Option (List (Elem Char)) :=
  elements '_' '%' escape pattern

/-- A pattern ends with an escape character that is not escaped. -/
def Dangling (escape : Option Char) (pattern : List Char) : Prop := charElements escape pattern = none

/-- The string is in the language of the pattern. -/
def InLanguage (escape : Option Char) (pattern string : List Char) : Prop :=
  ∃ es, charElements escape pattern = some es ∧ MatchesChars es string

/-! ### What a round can do -/

section Rounds

variable {escape : Option ℕ}

/-- A byte of a pattern that stands for itself. -/
def Plain (escape : Option ℕ) (b : ℕ) : Prop :=
  escape ≠ some b ∧ b ≠ underscore ∧ b ≠ percent

/-- The pattern starts with a byte that the string does not start with, or it has come to its end
before the string. -/
inductive Mismatch (escape : Option ℕ) : List ℕ → List ℕ → Prop where
  | finished {b : ℕ} {s : List ℕ} : Mismatch escape [] (b :: s)
  | escaped {e next b : ℕ} {p s : List ℕ} : escape = some e → next ≠ b →
      Mismatch escape (e :: next :: p) (b :: s)
  | plain {a b : ℕ} {p s : List ℕ} : Plain escape a → a ≠ b → Mismatch escape (a :: p) (b :: s)

/-- The rounds after which the loop goes on. -/
inductive Moves (escape : Option ℕ) : LikeState → LikeState → Prop where
  | escaped {e b : ℕ} {p s : List ℕ} {r} : escape = some e →
      Moves escape ⟨e :: b :: p, b :: s, r⟩ ⟨p, s, r⟩
  | plain {b : ℕ} {p s : List ℕ} {r} : Plain escape b → Moves escape ⟨b :: p, b :: s, r⟩ ⟨p, s, r⟩
  | one {b : ℕ} {p s : List ℕ} {r} : escape ≠ some underscore →
      Moves escape ⟨underscore :: p, b :: s, r⟩ ⟨p, s.dropWhile isContinuation, r⟩
  | many {b : ℕ} {p q s : List ℕ} {r} : escape ≠ some percent →
      (p.dropWhile fun b => b = percent) = q → q ≠ [] →
      Moves escape ⟨percent :: p, b :: s, r⟩ ⟨q, b :: s, some (q, b :: s)⟩
  | again {p s p' s' : List ℕ} : Mismatch escape p s →
      Moves escape ⟨p, s, some (p', s')⟩ ⟨p', s'.tail, some (p', s'.tail)⟩

/-- The rounds in which the loop ends. -/
inductive Ends (escape : Option ℕ) : LikeState → Except String Bool → Prop where
  | finish {p : List ℕ} {r} : Ends escape ⟨p, [], r⟩ (finish escape p)
  | found {b : ℕ} {p s : List ℕ} {r} : escape ≠ some percent →
      (p.dropWhile fun b => b = percent) = [] → Ends escape ⟨percent :: p, b :: s, r⟩ (.ok true)
  | failed {p s : List ℕ} : Mismatch escape p s → Ends escape ⟨p, s, none⟩ (.ok false)
  | error {e b : ℕ} {s : List ℕ} {r} : escape = some e →
      Ends escape ⟨[e], b :: s, r⟩ (.error endsWithEscape)

/-- A round moves on or ends the loop. -/
def Rounds (escape : Option ℕ) (s : LikeState) : Except String (LikeState ⊕ Bool) → Prop
  | .error e => Ends escape s (.error e)
  | .ok (.inr b) => Ends escape s (.ok b)
  | .ok (.inl s') => Moves escape s s'

theorem rounds_startAgain {p s : List ℕ} (r : Option (List ℕ × List ℕ))
    (h : Mismatch escape p s) : Rounds escape ⟨p, s, r⟩ (.ok (startAgain r)) := by
  cases r with
  | none => exact Ends.failed h
  | some r => exact Moves.again h

theorem step_rounds (s : LikeState) : Rounds escape s (step escape s) := by
  obtain ⟨pattern, string, r⟩ := s
  cases string with
  | nil =>
    have hends : Ends escape ⟨pattern, [], r⟩ (finish escape pattern) := .finish
    change Rounds escape _ ((finish escape pattern).map .inr)
    cases hfinish : finish escape pattern with
    | error e | ok b =>
      rw [hfinish] at hends
      exact hends
  | cons schar string =>
    cases pattern with
    | nil => exact rounds_startAgain r .finished
    | cons pchar pattern =>
      rw [step]
      dsimp only
      split
      · case isTrue hescape =>
        cases pattern with
        | nil => exact Ends.error hescape
        | cons next pattern =>
          dsimp only
          split
          · case isTrue hnext =>
            subst hnext
            exact Moves.escaped hescape
          · case isFalse hnext => exact rounds_startAgain r (.escaped hescape hnext)
      · case isFalse hescape =>
        split
        · case isTrue hone =>
          subst hone
          exact Moves.one hescape
        · case isFalse hone =>
          split
          · case isTrue hmany =>
            subst hmany
            split
            · case isTrue hnil => exact Ends.found hescape hnil
            · case isFalse hnil => exact Moves.many hescape rfl hnil
          · case isFalse hmany =>
            split
            · case isTrue hsame =>
              subst hsame
              exact Moves.plain ⟨hescape, hone, hmany⟩
            · case isFalse hsame => exact rounds_startAgain r (.plain ⟨hescape, hone, hmany⟩ hsame)

/-! ### The loop ends -/

/-- What is left is no longer than at the last `%`, or at the start. -/
structure Bounded (m n : ℕ) (s : LikeState) : Prop where
  pattern : s.pattern.length ≤ m
  string : s.string.length ≤ n
  retry : ∀ p t, s.retry = some (p, t) → s.pattern.length ≤ p.length ∧ p.length ≤ m ∧
    s.string.length ≤ t.length ∧ t.length ≤ n

/-- A number that gets smaller in every round. After a `%` less of the pattern is left, and on a
mismatch less of the string. -/
def rank (m n : ℕ) (s : LikeState) : ℕ :=
  match s.retry with
  | none => (m + 1) * ((n + 1) * (n + 2)) + s.string.length
  | some (p, t) => p.length * ((n + 1) * (n + 2)) + t.length * (n + 2) + s.string.length

theorem Bounded.shorter {m n : ℕ} {p p' s s' : List ℕ} {r : Option (List ℕ × List ℕ)}
    (h : Bounded m n ⟨p, s, r⟩) (hp : p'.length ≤ p.length) (hs : s'.length ≤ s.length) :
    Bounded m n ⟨p', s', r⟩ where
  pattern := hp.trans h.pattern
  string := hs.trans h.string
  retry q t hr := by
    obtain ⟨hq, hm, ht, hn⟩ := h.retry q t hr
    exact ⟨hp.trans hq, hm, hs.trans ht, hn⟩

theorem bounded_retry {m n : ℕ} {p s : List ℕ} (hp : p.length ≤ m) (hs : s.length ≤ n) :
    Bounded m n ⟨p, s, some (p, s)⟩ where
  pattern := hp
  string := hs
  retry q t hr := by
    cases hr
    exact ⟨le_rfl, hp, le_rfl, hs⟩

theorem Moves.bounded {m n : ℕ} {s s' : LikeState} (hmoves : Moves escape s s')
    (h : Bounded m n s) : Bounded m n s' := by
  cases hmoves with
  | escaped => exact h.shorter (by simp; omega) (by simp)
  | plain => exact h.shorter (by simp) (by simp)
  | one =>
    exact h.shorter (by simp) ((List.dropWhile_suffix _).length_le.trans (Nat.le_succ _))
  | @many b p q s r hescape hq =>
    have hlength : q.length ≤ p.length := hq ▸ (List.dropWhile_suffix _).length_le
    exact bounded_retry ((hlength.trans (Nat.le_succ _)).trans h.pattern) h.string
  | @again p s p' s' =>
    obtain ⟨-, hp, -, hs⟩ := h.retry p' s' rfl
    exact bounded_retry hp ((List.tail_suffix s').length_le.trans hs)

/-- With less of the string left the rank is smaller. -/
theorem rank_lt_of_string {m n : ℕ} {p p' s s' : List ℕ} (r : Option (List ℕ × List ℕ))
    (h : s'.length < s.length) : rank m n ⟨p', s', r⟩ < rank m n ⟨p, s, r⟩ := by
  cases r with
  | none | some r => exact Nat.add_lt_add_left h _

/-- With less of the pattern left after the `%` the rank is smaller. -/
theorem rank_lt_of_pattern {m n k : ℕ} {p s : List ℕ} (hp : p.length < k) (hs : s.length ≤ n) :
    rank m n ⟨p, s, some (p, s)⟩ < k * ((n + 1) * (n + 2)) := by
  have hstring : s.length * (n + 2) + s.length < (n + 1) * (n + 2) := by
    have := Nat.mul_le_mul_right (n + 2) hs
    rw [Nat.add_mul]
    omega
  have hpattern := Nat.mul_le_mul_right ((n + 1) * (n + 2)) (Nat.succ_le_of_lt hp)
  rw [Nat.succ_mul] at hpattern
  dsimp only [rank]
  omega

theorem Moves.rank_lt {m n : ℕ} {s s' : LikeState} (hmoves : Moves escape s s')
    (h : Bounded m n s) : rank m n s' < rank m n s := by
  cases hmoves with
  | escaped | plain => exact rank_lt_of_string _ (by simp)
  | one => exact rank_lt_of_string _ (Nat.lt_succ_of_le (List.dropWhile_suffix _).length_le)
  | @many b p q s r hescape hq =>
    have hlength : q.length < (percent :: p).length :=
      Nat.lt_succ_of_le (hq ▸ (List.dropWhile_suffix _).length_le)
    cases r with
    | none =>
      have hm : (percent :: p).length ≤ m + 1 := h.pattern.trans (Nat.le_succ m)
      exact (rank_lt_of_pattern (hlength.trans_le hm) h.string).trans_le (Nat.le_add_right _ _)
    | some r =>
      obtain ⟨hp, -⟩ := h.retry r.1 r.2 rfl
      refine (rank_lt_of_pattern (hlength.trans_le hp) h.string).trans_le ?_
      exact (Nat.le_add_right _ _).trans (Nat.le_add_right _ _)
  | @again p s p' s' hmismatch =>
    obtain ⟨-, -, hs, hn⟩ := h.retry p' s' rfl
    have hne : 0 < s.length := by cases hmismatch <;> simp
    obtain ⟨b, t, rfl⟩ := List.exists_cons_of_length_pos (hne.trans_le hs)
    simp only [rank, List.tail_cons, List.length_cons, Nat.succ_mul] at hn ⊢
    omega

/-- The result that the loop comes to. -/
inductive Result (escape : Option ℕ) : LikeState → Except String Bool → Prop where
  | ends {s : LikeState} {r : Except String Bool} : Ends escape s r → Result escape s r
  | moves {s s' : LikeState} {r : Except String Bool} :
      Moves escape s s' → Result escape s' r → Result escape s r

/-- **The loop ends**, with a result that does not depend on how long it is allowed to run. -/
theorem exists_result (escape : Option ℕ) {m n : ℕ} {s : LikeState} (h : Bounded m n s) :
    ∃ r, Result escape s r ∧ ∀ fuel, rank m n s < fuel → run escape fuel s = some r := by
  induction hk : rank m n s using Nat.strong_induction_on generalizing s with
  | _ k ih =>
    have hrounds : Rounds escape s (step escape s) := step_rounds s
    match hstep : step escape s with
    | .error e =>
      rw [hstep] at hrounds
      refine ⟨.error e, .ends hrounds, fun fuel hfuel => ?_⟩
      obtain ⟨fuel, rfl⟩ := Nat.exists_eq_succ_of_ne_zero (Nat.ne_zero_of_lt hfuel)
      simp only [run, hstep]
    | .ok (.inr b) =>
      rw [hstep] at hrounds
      refine ⟨.ok b, .ends hrounds, fun fuel hfuel => ?_⟩
      obtain ⟨fuel, rfl⟩ := Nat.exists_eq_succ_of_ne_zero (Nat.ne_zero_of_lt hfuel)
      simp only [run, hstep]
    | .ok (.inl s') =>
      rw [hstep] at hrounds
      have hlt : rank m n s' < k := hk ▸ Moves.rank_lt hrounds h
      obtain ⟨r, hresult, hrun⟩ := ih _ hlt (Moves.bounded hrounds h) rfl
      refine ⟨r, .moves hrounds hresult, fun fuel hfuel => ?_⟩
      obtain ⟨fuel, rfl⟩ := Nat.exists_eq_succ_of_ne_zero (Nat.ne_zero_of_lt hfuel)
      simp only [run, hstep]
      exact hrun fuel (by omega)

end Rounds

/-! ### The loop is a search -/

section Reads

variable {escape : Option ℕ}

theorem elements_cons {α : Type} [DecidableEq α] {underscore percent a : α} {escape : Option α}
    (h : escape ≠ some a) (p : List α) :
    elements underscore percent escape (a :: p) =
      (elements underscore percent escape p).map (element underscore percent a :: ·) := by
  cases p with
  | nil => rw [elements, elements, if_neg h, Option.map_some]
  | cons b p => rw [elements, if_neg h]

theorem elements_escaped {α : Type} [DecidableEq α] {underscore percent a b : α}
    {escape : Option α} (h : escape = some a) (p : List α) :
    elements underscore percent escape (a :: b :: p) =
      (elements underscore percent escape p).map (.lit b :: ·) := by
  rw [elements, if_pos h]

theorem byteElements_escaped {e b : ℕ} (h : escape = some e) (p : List ℕ) :
    byteElements escape (e :: b :: p) = (byteElements escape p).map (.lit b :: ·) :=
  elements_escaped h p

theorem byteElements_dangling {e : ℕ} (h : escape = some e) : byteElements escape [e] = none := by
  rw [byteElements, elements, if_pos h]

theorem byteElements_one (h : escape ≠ some underscore) (p : List ℕ) :
    byteElements escape (underscore :: p) = (byteElements escape p).map (.one :: ·) :=
  elements_cons h p

theorem byteElements_many (h : escape ≠ some percent) (p : List ℕ) :
    byteElements escape (percent :: p) = (byteElements escape p).map (.many :: ·) :=
  elements_cons h p

theorem byteElements_plain {b : ℕ} (h : Plain escape b) (p : List ℕ) :
    byteElements escape (b :: p) = (byteElements escape p).map (.lit b :: ·) := by
  obtain ⟨hescape, hone, hmany⟩ := h
  rw [byteElements, elements_cons hescape, element, if_neg hone, if_neg hmany, byteElements]

/-- More than one `%` is as good as one. -/
theorem byteElements_dropWhile (hescape : escape ≠ some percent) {p : List ℕ}
    {es : List (Elem ℕ)} (h : byteElements escape p = some es) :
    ∃ es', byteElements escape (p.dropWhile fun b => b = percent) = some es' ∧
      ∀ s, Matches isContinuation (.many :: es) s ↔ Matches isContinuation (.many :: es') s := by
  induction p generalizing es with
  | nil => exact ⟨es, h, fun s => Iff.rfl⟩
  | cons b p ih =>
    by_cases hb : b = percent
    · subst hb
      rw [byteElements_many hescape, Option.map_eq_some_iff] at h
      obtain ⟨es, hes, rfl⟩ := h
      obtain ⟨es', hes', hmatches⟩ := ih hes
      refine ⟨es', by simpa using hes', fun s => ?_⟩
      rw [matches_many_many, hmatches]
    · exact ⟨es, by simpa [hb] using h, fun s => Iff.rfl⟩

theorem Mismatch.not_matches {p s : List ℕ} (h : Mismatch escape p s) {es : List (Elem ℕ)}
    (hes : byteElements escape p = some es) : ¬ Matches isContinuation es s := by
  cases h with
  | finished =>
    cases hes
    simp [Matches]
  | escaped he hne =>
    rw [byteElements_escaped he, Option.map_eq_some_iff] at hes
    obtain ⟨es, -, rfl⟩ := hes
    simp [Matches, hne.symm]
  | plain ha hne =>
    rw [byteElements_plain ha, Option.map_eq_some_iff] at hes
    obtain ⟨es, -, rfl⟩ := hes
    simp [Matches, hne.symm]

/-- After the string only `%` may be left of the pattern. -/
theorem finish_eq {p : List ℕ} {es : List (Elem ℕ)} (h : byteElements escape p = some es) :
    ∃ b, finish escape p = .ok b ∧ (b = true ↔ ∀ e ∈ es, e = .many) := by
  induction p generalizing es with
  | nil =>
    cases h
    exact ⟨true, rfl, by simp⟩
  | cons a p ih =>
    by_cases hescape : escape = some a
    · cases p with
      | nil => simp [byteElements_dangling hescape] at h
      | cons b p =>
        rw [byteElements_escaped hescape, Option.map_eq_some_iff] at h
        obtain ⟨es, -, rfl⟩ := h
        exact ⟨false, by simp [finish, hescape], by simp⟩
    · by_cases hmany : a = percent
      · subst hmany
        rw [byteElements_many hescape, Option.map_eq_some_iff] at h
        obtain ⟨es, hes, rfl⟩ := h
        obtain ⟨b, hb, hiff⟩ := ih hes
        exact ⟨b, by simpa [finish, hescape] using hb, by simpa using hiff⟩
      · refine ⟨false, by simp [finish, hescape, hmany], ?_⟩
        by_cases hone : a = underscore
        · subst hone
          rw [byteElements_one hescape, Option.map_eq_some_iff] at h
          obtain ⟨es, -, rfl⟩ := h
          simp
        · rw [byteElements_plain ⟨hescape, hone, hmany⟩, Option.map_eq_some_iff] at h
          obtain ⟨es, -, rfl⟩ := h
          simp

/-- The state of the loop as a position of a search. -/
structure Reads (escape : Option ℕ) (s : LikeState) (x : Position ℕ) : Prop where
  pattern : byteElements escape s.pattern = some x.pattern
  string : s.string = x.text
  retry : Option.Rel (fun r q => byteElements escape r.1 = some q.1 ∧ r.2 = q.2) s.retry x.again
  sound : x.Sound isContinuation

theorem reads_retry {p t : List ℕ} {es : List (Elem ℕ)} (h : byteElements escape p = some es) :
    Reads escape ⟨p, t, some (p, t)⟩ ⟨es, t, some (es, t)⟩ where
  pattern := h
  string := rfl
  retry := .some ⟨h, rfl⟩
  sound := sound_restart es t

/-- A round that moves past one element. -/
theorem Reads.consume {p p' t t' : List ℕ} {r : Option (List ℕ × List ℕ)} {x : Position ℕ}
    {e : Elem ℕ} (h : Reads escape ⟨p, t, r⟩ x)
    (hp : byteElements escape p = (byteElements escape p').map (e :: ·))
    (ht : consume isContinuation [e] t = some t') :
    ∃ x', Reads escape ⟨p', t', r⟩ x' ∧ (x.Found isContinuation ↔ x'.Found isContinuation) := by
  obtain ⟨pattern, text, again⟩ := x
  obtain ⟨hpattern, hstring, hretry, hsound⟩ := h
  rw [hp, Option.map_eq_some_iff] at hpattern
  obtain ⟨es, hes, rfl⟩ := hpattern
  obtain rfl : t = text := hstring
  have hsound' : (⟨[e] ++ es, t, again⟩ : Position ℕ).Sound isContinuation := hsound
  exact ⟨⟨es, t', again⟩, ⟨hes, rfl, hretry, hsound'.consume ht⟩, found_consume ht⟩

/-- **One round keeps whether the pattern is found.** -/
theorem Moves.reads {s s' : LikeState} {x : Position ℕ} (hmoves : Moves escape s s')
    (h : Reads escape s x) :
    ∃ x', Reads escape s' x' ∧ (x.Found isContinuation ↔ x'.Found isContinuation) := by
  cases hmoves with
  | escaped he => exact h.consume (byteElements_escaped he _) (by simp [Wildcards.consume])
  | plain hb => exact h.consume (byteElements_plain hb _) (by simp [Wildcards.consume])
  | one he => exact h.consume (byteElements_one he _) (by simp [Wildcards.consume])
  | @many b p q s r he hq =>
    obtain ⟨pattern, text, again⟩ := x
    obtain ⟨hpattern, hstring, -, hsound⟩ := h
    rw [byteElements_many he, Option.map_eq_some_iff] at hpattern
    obtain ⟨es, hes, rfl⟩ := hpattern
    obtain rfl : b :: s = text := hstring
    obtain ⟨es', hes', hmatches⟩ := byteElements_dropWhile he hes
    rw [hq] at hes'
    refine ⟨_, reads_retry hes', ?_⟩
    rw [found_many hsound, found_restart, found_restart, hmatches]
  | @again p s p' s' hmismatch =>
    obtain ⟨pattern, text, again⟩ := x
    obtain ⟨hpattern, hstring, hretry, -⟩ := h
    obtain rfl : s = text := hstring
    cases hretry with
    | @some r q hrq =>
      obtain ⟨es, t⟩ := q
      obtain ⟨hes, rfl⟩ := hrq
      exact ⟨_, reads_retry hes, found_again (hmismatch.not_matches hpattern)⟩

theorem Ends.reads {s : LikeState} {x : Position ℕ} {r : Except String Bool}
    (hends : Ends escape s r) (h : Reads escape s x) :
    ∃ b, r = .ok b ∧ (b = true ↔ x.Found isContinuation) := by
  obtain ⟨pattern, text, again⟩ := x
  obtain ⟨hpattern, hstring, hretry, hsound⟩ := h
  cases hends with
  | finish =>
    obtain rfl : [] = text := hstring
    obtain ⟨b, hb, hiff⟩ := finish_eq hpattern
    exact ⟨b, hb, hiff.trans (found_end hsound).symm⟩
  | @found b p s r he hp =>
    rw [byteElements_many he, Option.map_eq_some_iff] at hpattern
    obtain ⟨es, hes, rfl⟩ := hpattern
    obtain ⟨es', hes', hmatches⟩ := byteElements_dropWhile he hes
    rw [hp] at hes'
    cases hes'
    refine ⟨true, rfl, ?_⟩
    rw [found_many hsound, found_restart, hmatches]
    exact ⟨fun _ => ⟨[], List.nil_suffix, rfl⟩, fun _ => rfl⟩
  | @failed p s hmismatch =>
    obtain rfl : s = text := hstring
    cases hretry
    exact ⟨false, rfl, by simpa using not_found_of_none (hmismatch.not_matches hpattern)⟩
  | error he => simp [byteElements_dangling he] at hpattern

/-- **The loop decides whether the pattern is found.** -/
theorem Result.reads {s : LikeState} {x : Position ℕ} {r : Except String Bool}
    (hresult : Result escape s r) (h : Reads escape s x) :
    ∃ b, r = .ok b ∧ (b = true ↔ x.Found isContinuation) := by
  induction hresult generalizing x with
  | ends hends => exact hends.reads h
  | moves hmoves _ ih =>
    obtain ⟨x', hx', hfound⟩ := hmoves.reads h
    obtain ⟨b, hb, hiff⟩ := ih hx'
    exact ⟨b, hb, hiff.trans hfound.symm⟩

end Reads

/-! ### Patterns of characters -/

section Chars

theorem byteElements_append {escape : Option ℕ} {bs : List ℕ} (h : ∀ b ∈ bs, Plain escape b)
    (p : List ℕ) :
    byteElements escape (bs ++ p) = (byteElements escape p).map (bs.map .lit ++ ·) := by
  induction bs with
  | nil => simp
  | cons b bs ih =>
    rw [List.cons_append, byteElements_plain (h b List.mem_cons_self),
      ih fun c hc => h c (List.mem_cons_of_mem b hc), Option.map_map]
    rfl

/-- An escape character has one byte. -/
def AsciiEscape (escape : Option Char) : Prop := ∀ e, escape = some e → e.toNat < 0x80

variable {escape : Option Char}

theorem AsciiEscape.plain_of_le (h : AsciiEscape escape) {b : ℕ} (hb : 0x80 ≤ b) :
    Plain (escape.map Char.toNat) b := by
  refine ⟨fun heq => ?_, ?_, ?_⟩
  · obtain ⟨e, he, rfl⟩ := Option.map_eq_some_iff.mp heq
    have := h e he
    omega
  · have : underscore < 0x80 := by decide
    omega
  · have : percent < 0x80 := by decide
    omega

/-- The bytes of a character that stands for itself stand for themselves. -/
theorem AsciiEscape.plain (h : AsciiEscape escape) {c : Char} (hescape : escape ≠ some c)
    (hone : c ≠ '_') (hmany : c ≠ '%') :
    ∀ b ∈ encodeChar c, Plain (escape.map Char.toNat) b := by
  intro b hb
  by_cases hlarge : 0x80 ≤ b
  · exact h.plain_of_le hlarge
  · have hc : c.toNat = b := toNat_eq_of_mem hb (by omega)
    subst hc
    refine ⟨fun heq => ?_, fun heq => hone (Char.toNat_inj.mp heq),
      fun heq => hmany (Char.toNat_inj.mp heq)⟩
    obtain ⟨e, he, heq⟩ := Option.map_eq_some_iff.mp heq
    exact hescape (he.trans (congrArg some (Char.toNat_inj.mp heq)))

theorem encodeChar_escape (h : AsciiEscape escape) {e : Char} (he : escape = some e) :
    encodeChar e = [e.toNat] :=
  encodeChar_of_lt (h e he)

/-- After an escape character all bytes of the next character stand for themselves. -/
theorem byteElements_escaped_char (h : AsciiEscape escape) {e : Char} (he : escape = some e)
    (c : Char) (p : List ℕ) :
    byteElements (escape.map Char.toNat) (encodeChar e ++ (encodeChar c ++ p)) =
      (byteElements (escape.map Char.toNat) p).map ((encodeChar c).map .lit ++ ·) := by
  obtain ⟨b, bs, hb, -, hbs⟩ := encodeChar_eq_cons c
  have hplain : ∀ x ∈ bs, Plain (escape.map Char.toNat) x := by
    intro x hx
    have hx := hbs x hx
    simp only [isContinuation, decide_eq_true_eq] at hx
    exact h.plain_of_le (by omega)
  rw [encodeChar_escape h he, hb, List.singleton_append, List.cons_append,
    byteElements_escaped (by simp [he]), byteElements_append hplain, Option.map_map]
  rfl

theorem byteElements_char (h : AsciiEscape escape) {c : Char} (hescape : escape ≠ some c)
    (p : List ℕ) :
    byteElements (escape.map Char.toNat) (encodeChar c ++ p) =
      (byteElements (escape.map Char.toNat) p).map (encodeElem (element '_' '%' c) ++ ·) := by
  have hne (d : Char) (hd : escape ≠ some d) : escape.map Char.toNat ≠ some d.toNat := by
    intro heq
    obtain ⟨e, he, heq⟩ := Option.map_eq_some_iff.mp heq
    exact hd (he.trans (congrArg some (Char.toNat_inj.mp heq)))
  by_cases hone : c = '_'
  · subst hone
    exact byteElements_one (hne '_' hescape) p
  by_cases hmany : c = '%'
  · subst hmany
    exact byteElements_many (hne '%' hescape) p
  · rw [byteElements_append (h.plain hescape hone hmany), element, if_neg hone, if_neg hmany,
      encodeElem]

/-- The elements of the bytes of a pattern are the bytes of its elements. -/
theorem byteElements_encode (h : AsciiEscape escape) : ∀ p : List Char,
    byteElements (escape.map Char.toNat) (encode p) = (charElements escape p).map encodeElems
  | [] => rfl
  | [c] => by
    by_cases hescape : escape = some c
    · rw [encode_cons, encode_nil, List.append_nil, encodeChar_escape h hescape,
        byteElements_dangling (by simp [hescape]), charElements, elements, if_pos hescape,
        Option.map_none]
    · rw [encode_cons, byteElements_char h hescape, charElements, elements_cons hescape,
        byteElements_encode h [], Option.map_map, charElements, Option.map_map]
      rfl
  | c :: d :: p => by
    by_cases hescape : escape = some c
    · rw [encode_cons, encode_cons, byteElements_escaped_char h hescape, charElements,
        elements_escaped hescape, byteElements_encode h p, Option.map_map, charElements,
        Option.map_map]
      simp only [Function.comp_def, encodeElems_cons, encodeElem]
    · rw [encode_cons, byteElements_char h hescape, charElements, elements_cons hescape,
        byteElements_encode h (d :: p), Option.map_map, charElements, Option.map_map]
      simp only [Function.comp_def, encodeElems_cons]

/-- The number of rounds that are enough, for a string and a pattern of these lengths. -/
def rounds (slen plen : ℕ) : ℕ := (plen + 1) * ((slen + 1) * (slen + 2)) + slen + 1

theorem bounded_start (p s : List ℕ) : Bounded p.length s.length ⟨p, s, none⟩ where
  pattern := le_rfl
  string := le_rfl
  retry q t hr := by cases hr

/-- The function hands its arguments to the loop. -/
theorem likeFunction_text (h : AsciiEscape escape) (fuel : ℕ) (string pattern : List ℕ) :
    likeFunction fuel id id (some string) (some pattern) (some (some (encode escape.toList))) =
      (likeMatches fuel string pattern (escape.map Char.toNat)).map fun r => r.map some := by
  cases escape with
  | none => rfl
  | some e => simp [likeFunction, encodeChar_escape h rfl]

/-- **The loop decides `LIKE`.** It ends, and unless the pattern ends with an escape character that is
not escaped it says whether the string is in the language of the pattern; the function returns what
the loop says. -/
theorem likeMatches_decides (string pattern : List Char) (escape : Option Char)
    (h : AsciiEscape escape) :
    ∃ result,
      (∀ fuel, rounds (encode string).length (encode pattern).length ≤ fuel →
        likeMatches fuel (encode string) (encode pattern) (escape.map Char.toNat) = some result ∧
        likeFunction fuel id id (some (encode string)) (some (encode pattern))
          (some (some (encode escape.toList))) = some (result.map some)) ∧
      (¬ Dangling escape pattern →
        ∃ b, result = .ok b ∧ (b = true ↔ InLanguage escape pattern string)) ∧
      ∀ e, result = .error e → Dangling escape pattern := by
  obtain ⟨result, hresult, hrun⟩ := exists_result (escape.map Char.toNat)
    (bounded_start (encode pattern) (encode string))
  have hok : ¬ Dangling escape pattern →
      ∃ b, result = .ok b ∧ (b = true ↔ InLanguage escape pattern string) := by
    intro hdangling
    obtain ⟨es, hes⟩ := Option.ne_none_iff_exists'.mp hdangling
    have hreads : Reads (escape.map Char.toNat) ⟨encode pattern, encode string, none⟩
        ⟨encodeElems es, encode string, none⟩ :=
      ⟨by rw [byteElements_encode h, hes, Option.map_some], rfl, .none, sound_start⟩
    obtain ⟨b, hb, hiff⟩ := hresult.reads hreads
    refine ⟨b, hb, hiff.trans ?_⟩
    rw [found_start, matches_encode]
    simp [InLanguage, hes]
  refine ⟨result, fun fuel hfuel => ?_, hok, fun e he => ?_⟩
  · rw [likeFunction_text h, likeMatches, hrun fuel hfuel]
    exact ⟨rfl, rfl⟩
  · by_contra hdangling
    obtain ⟨b, hb, -⟩ := hok hdangling
    rw [he] at hb
    cases hb

theorem likeMatches_decides_escaped : AsciiEscape (some '!') ∧ ∃ result,
    (∀ fuel, rounds 4 4 ≤ fuel →
      likeMatches fuel (encode ['a', 'é', '%']) (encode ['a', '_', '!', '%'])
        (some '!'.toNat) = some result ∧
      likeFunction fuel id id (some (encode ['a', 'é', '%'])) (some (encode ['a', '_', '!', '%']))
        (some (some (encode ['!']))) = some (result.map some)) ∧
    (¬ Dangling (some '!') ['a', '_', '!', '%'] →
      ∃ b, result = .ok b ∧
        (b = true ↔ InLanguage (some '!') ['a', '_', '!', '%'] ['a', 'é', '%'])) ∧
    ∀ e, result = .error e → Dangling (some '!') ['a', '_', '!', '%'] :=
  have hescape : AsciiEscape (some '!') := by
    rintro e ⟨⟩
    decide
  ⟨hescape, likeMatches_decides ['a', 'é', '%'] ['a', '_', '!', '%'] (some '!') hescape⟩

example : likeMatches 200 (encode ['a', 'é', '%']) (encode ['a', '_', '!', '%']) (some '!'.toNat) =
    some (.ok true) := by
  decide

end Chars

end SqliteScanner.Patterns
