import Mathlib.Data.List.Basic

/-!
# UTF-8

A character is encoded as one to four bytes. The first of them is not a continuation byte, and all
others are. So the bytes of a text tell where its characters start, from any position, and no text is
read as another one.

Bytes are natural numbers.
-/

namespace Utf8

def encodeChar (c : Char) : List ℕ :=
  let n := c.toNat
  if n < 0x80 then [n]
  else if n < 0x800 then [0xC0 + n / 64, 0x80 + n % 64]
  else if n < 0x10000 then [0xE0 + n / 4096, 0x80 + n / 64 % 64, 0x80 + n % 64]
  else [0xF0 + n / 262144, 0x80 + n / 4096 % 64, 0x80 + n / 64 % 64, 0x80 + n % 64]

def encode (s : List Char) : List ℕ := s.flatMap encodeChar

/-- The upper bits of a continuation byte are `10`. -/
def isContinuation (b : ℕ) : Bool := b / 64 = 2

@[simp] theorem encode_nil : encode [] = [] := rfl

@[simp] theorem encode_cons (c : Char) (s : List Char) :
    encode (c :: s) = encodeChar c ++ encode s := by
  simp [encode]

@[simp] theorem encode_append (s t : List Char) : encode (s ++ t) = encode s ++ encode t := by
  simp [encode]

theorem toNat_lt (c : Char) : c.toNat < 0x110000 := by
  have := c.valid
  simp only [UInt32.isValidChar, Nat.isValidChar] at this
  change c.val.toNat < _
  omega

/-- The first byte of a character is no continuation byte, and the others are. -/
theorem encodeChar_eq_cons (c : Char) : ∃ b bs, encodeChar c = b :: bs ∧
    isContinuation b = false ∧ ∀ x ∈ bs, isContinuation x = true := by
  have := toNat_lt c
  unfold encodeChar
  dsimp only
  split
  · exact ⟨_, _, rfl, by simp [isContinuation]; omega, by simp⟩
  split
  · exact ⟨_, _, rfl, by simp [isContinuation]; omega, by simp [isContinuation]; omega⟩
  split
  · exact ⟨_, _, rfl, by simp [isContinuation]; omega, by simp [isContinuation]; omega⟩
  · exact ⟨_, _, rfl, by simp [isContinuation]; omega, by simp [isContinuation]; omega⟩

theorem encodeChar_of_lt {c : Char} (h : c.toNat < 0x80) : encodeChar c = [c.toNat] := by
  simp [encodeChar, h]

/-- A byte below 128 is a character of its own. -/
theorem toNat_eq_of_mem {c : Char} {b : ℕ} (h : b ∈ encodeChar c) (hb : b < 0x80) :
    c.toNat = b := by
  unfold encodeChar at h
  dsimp only at h
  split at h
  · exact (List.mem_singleton.mp h).symm
  split at h
  · simp only [List.mem_cons, List.not_mem_nil, or_false] at h
    omega
  split at h
  · simp only [List.mem_cons, List.not_mem_nil, or_false] at h
    omega
  · simp only [List.mem_cons, List.not_mem_nil, or_false] at h
    omega

/-- The code point that the first bytes stand for, and the bytes after it. -/
def decodeChar : List ℕ → ℕ × List ℕ
  | [] => (0, [])
  | b :: bs =>
    if b < 0x80 then (b, bs)
    else if b < 0xE0 then ((b - 0xC0) * 64 + (bs.getD 0 0 - 0x80), bs.drop 1)
    else if b < 0xF0 then
      ((b - 0xE0) * 4096 + (bs.getD 0 0 - 0x80) * 64 + (bs.getD 1 0 - 0x80), bs.drop 2)
    else
      ((b - 0xF0) * 262144 + (bs.getD 0 0 - 0x80) * 4096 + (bs.getD 1 0 - 0x80) * 64 +
        (bs.getD 2 0 - 0x80), bs.drop 3)

theorem decodeChar_encodeChar (c : Char) (bs : List ℕ) :
    decodeChar (encodeChar c ++ bs) = (c.toNat, bs) := by
  have := toNat_lt c
  unfold encodeChar
  dsimp only
  split
  · simp [decodeChar, *]
  split
  · rw [List.cons_append, decodeChar, if_neg (by omega), if_pos (by omega)]
    simp only [List.cons_append, List.getD_cons_zero, List.drop_one, List.tail_cons,
      List.nil_append, Prod.mk.injEq, and_true]
    omega
  split
  · rw [List.cons_append, decodeChar, if_neg (by omega), if_neg (by omega), if_pos (by omega)]
    simp only [List.cons_append, List.getD_cons_zero, List.getD_cons_succ, List.drop_succ_cons,
      List.drop_zero, List.nil_append, Prod.mk.injEq, and_true]
    omega
  · rw [List.cons_append, decodeChar, if_neg (by omega), if_neg (by omega), if_neg (by omega)]
    simp only [List.cons_append, List.getD_cons_zero, List.getD_cons_succ, List.drop_succ_cons,
      List.drop_zero, List.nil_append, Prod.mk.injEq, and_true]
    omega

/-- **No character is read as another one.** -/
theorem encodeChar_append_inj {c d : Char} {bs cs : List ℕ}
    (h : encodeChar c ++ bs = encodeChar d ++ cs) : c = d ∧ bs = cs := by
  have hdecode := congrArg decodeChar h
  rw [decodeChar_encodeChar, decodeChar_encodeChar] at hdecode
  obtain ⟨hchar, hrest⟩ := Prod.mk.inj hdecode
  exact ⟨Char.toNat_inj.mp hchar, hrest⟩

theorem encode_injective {s t : List Char} (h : encode s = encode t) : s = t := by
  induction s generalizing t with
  | nil =>
    cases t with
    | nil => rfl
    | cons d t =>
      obtain ⟨b, bs, hb, -⟩ := encodeChar_eq_cons d
      simp [hb] at h
  | cons c s ih =>
    cases t with
    | nil =>
      obtain ⟨b, bs, hb, -⟩ := encodeChar_eq_cons c
      simp [hb] at h
    | cons d t =>
      rw [encode_cons, encode_cons] at h
      obtain ⟨rfl, hrest⟩ := encodeChar_append_inj h
      rw [ih hrest]

/-- A text does not start with a continuation byte. -/
theorem dropWhile_encode (s : List Char) : (encode s).dropWhile isContinuation = encode s := by
  cases s with
  | nil => rfl
  | cons c s =>
    obtain ⟨b, bs, hb, hfirst, -⟩ := encodeChar_eq_cons c
    simp [hb, hfirst]

theorem dropWhile_append_encode {bs : List ℕ} (h : ∀ x ∈ bs, isContinuation x = true)
    (s : List Char) : (bs ++ encode s).dropWhile isContinuation = encode s := by
  rw [List.dropWhile_append_of_pos h, dropWhile_encode]

/-- Where a suffix of a text starts: before a character, or within one. -/
theorem suffix_encode {s : List Char} {bs : List ℕ} (h : bs <:+ encode s) :
    (∃ t, t <:+ s ∧ bs = encode t) ∨ ∃ c t cs, c :: t <:+ s ∧ bs = cs ++ encode t ∧ cs ≠ [] ∧
      cs <:+ encodeChar c ∧ ∀ x ∈ cs, isContinuation x = true := by
  induction s with
  | nil => exact .inl ⟨[], List.suffix_refl [], List.suffix_nil.mp h⟩
  | cons c s ih =>
    obtain ⟨b, rest, hb, -, hrest⟩ := encodeChar_eq_cons c
    rw [encode_cons, hb, List.cons_append, List.suffix_cons_iff] at h
    rcases h with rfl | h
    · exact .inl ⟨c :: s, List.suffix_refl _, by simp [hb]⟩
    · rcases List.suffix_or_suffix_of_suffix h (List.suffix_append rest (encode s)) with hbs | hbs
      · rcases ih hbs with ⟨t, ht, rfl⟩ | ⟨d, t, cs, ht, rfl, hcs⟩
        · exact .inl ⟨t, ht.trans (List.suffix_cons c s), rfl⟩
        · exact .inr ⟨d, t, cs, ht.trans (List.suffix_cons c s), rfl, hcs⟩
      · obtain ⟨cs, rfl⟩ := hbs
        by_cases hcs : cs = []
        · exact .inl ⟨s, List.suffix_cons c s, by simp [hcs]⟩
        · have hsuffix : cs <:+ rest := by
            obtain ⟨ds, hds⟩ := h
            rw [← List.append_assoc] at hds
            exact ⟨ds, List.append_cancel_right hds⟩
          exact .inr ⟨c, s, cs, List.suffix_refl _, rfl, hcs,
            hb ▸ hsuffix.trans (List.suffix_cons b rest), fun x hx => hrest x (hsuffix.subset hx)⟩

theorem encode_suffix {s t : List Char} (h : t <:+ s) : encode t <:+ encode s := by
  obtain ⟨u, rfl⟩ := h
  exact ⟨encode u, (encode_append u t).symm⟩

end Utf8
