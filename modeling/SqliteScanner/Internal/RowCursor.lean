import Mathlib.Data.List.Sort
import Mathlib.Order.Basic

/-!
# A cursor over a table that changes under it

A table is a finite map from keys to values, kept in the order of its keys. A cursor over it holds
no copy of the rows: all it remembers is the last key that it returned, and a step finds the first
row past that key in the table *as it is now*. So what a cursor has still to return is not a
property of the cursor but of the table, and changes with it.

`rest t p pos` is that remainder, for a cursor at `pos` that returns the rows satisfying `p`.

## Main results

* `fetch_eq` — `n` steps of the cursor take the first `n` rows of the remainder, and the rest of it
  is what remains.
* `filter_place_of_not`, `countP_place`, `filter_remove` — what a write does to a remainder.
* `entries_foldl_remove`, `length_eq_length_filter_iff` — deleting a list of keys, and how many rows
  that are.
-/

namespace RowCursor

variable {K V : Type} [LinearOrder K]

/-- A table in key order. -/
structure Table (K V : Type) [LinearOrder K] where
  entries : List (K × V)
  sorted : entries.Pairwise fun a b => a.1 < b.1

namespace Table

def empty : Table K V := ⟨[], List.Pairwise.nil⟩

/-- The row with a key. -/
def find? (t : Table K V) (k : K) : Option (K × V) :=
  t.entries.find? fun e => e.1 == k

/-- Delete the row with a key, if there is one. -/
def remove (t : Table K V) (k : K) : Table K V :=
  ⟨t.entries.filter fun e => e.1 != k, t.sorted.filter _⟩

/-- Write a row in its place, over one with the same key. -/
def place (t : Table K V) (e : K × V) : Table K V where
  entries := (t.entries.filter fun a => a.1 < e.1) ++ e :: t.entries.filter fun a => e.1 < a.1
  sorted := by
    have hlt : ∀ a ∈ t.entries.filter (fun a => a.1 < e.1), a.1 < e.1 := by simp
    have hgt : ∀ a ∈ t.entries.filter (fun a => e.1 < a.1), e.1 < a.1 := by simp
    rw [List.pairwise_append, List.pairwise_cons]
    refine ⟨t.sorted.filter _, ⟨hgt, t.sorted.filter _⟩, fun a ha b hb => ?_⟩
    rcases List.mem_cons.mp hb with rfl | hb
    · exact hlt a ha
    · exact (hlt a ha).trans (hgt b hb)

end Table

/-- The key lies past the cursor; a cursor that has not moved is before every key. -/
def ahead (pos : Option K) (k : K) : Bool :=
  pos.all fun last => last < k

@[simp] theorem ahead_none (k : K) : ahead none k = true := rfl

@[simp] theorem ahead_some (last k : K) : ahead (some last) k = true ↔ last < k := by
  simp [ahead]

theorem ahead_of_lt {pos : Option K} {k k' : K} (h : ahead pos k = true) (hlt : k < k') :
    ahead pos k' = true := by
  cases pos with
  | none => rfl
  | some last => exact (ahead_some last k').mpr (((ahead_some last k).mp h).trans hlt)

section Cursor

variable (t : Table K V) (p : K × V → Bool)

/-- One step of the cursor. -/
def next (pos : Option K) : Option (K × V) :=
  t.entries.find? fun e => ahead pos e.1 && p e

/-- What the cursor has still to return. -/
def rest (pos : Option K) : List (K × V) :=
  t.entries.filter fun e => ahead pos e.1 && p e

theorem next_eq (pos : Option K) : next t p pos = (rest t p pos).head? := by
  rw [next, rest, List.head?_filter]

theorem rest_sorted (pos : Option K) : (rest t p pos).Pairwise fun a b => a.1 < b.1 :=
  t.sorted.filter _

variable {t p}

/-- Moving past a row of the remainder leaves the part of the remainder behind that row. -/
theorem rest_some_eq_filter {pos : Option K} {last : K} (hlast : ahead pos last = true) :
    rest t p (some last) = (rest t p pos).filter fun e => last < e.1 := by
  rw [rest, rest, List.filter_filter]
  refine List.filter_congr fun e _ => ?_
  by_cases hlt : last < e.1
  · have hpast : ahead (some last) e.1 = true := (ahead_some last e.1).mpr hlt
    simp only [hpast, ahead_of_lt hlast hlt, hlt, decide_true, Bool.true_and]
  · have hpast : ahead (some last) e.1 = false := by simpa [ahead] using hlt
    simp only [hpast, hlt, decide_false, Bool.false_and]

theorem rest_of_cons {pos : Option K} {e : K × V} {es : List (K × V)}
    (h : rest t p pos = e :: es) : rest t p (some e.1) = es := by
  have hmem : e ∈ rest t p pos := by simp [h]
  have hahead : ahead pos e.1 = true := by
    have := (List.mem_filter.mp hmem).2
    rw [Bool.and_eq_true] at this
    exact this.1
  have hsorted := rest_sorted t p pos
  rw [h, List.pairwise_cons] at hsorted
  rw [rest_some_eq_filter hahead, h, List.filter_cons_of_neg (by simp)]
  exact List.filter_eq_self.mpr fun a ha => by simpa using hsorted.1 a ha

variable (t p)

/-- Up to `n` steps of the cursor: the rows, where it stands afterwards, and whether it ran out of
rows. After `n` rows it does not look for another one. -/
def fetch : ℕ → Option K → List (K × V) × Option K × Bool
  | 0, pos => ([], pos, false)
  | n + 1, pos =>
    match next t p pos with
    | none => ([], pos, true)
    | some e =>
      let (rows, pos, done) := fetch n (some e.1)
      (e :: rows, pos, done)

variable {t p}

/-- **The rows of a fetch.** They are the first rows of the remainder, what remains is the rest, and
ahead of the cursor is what lies behind all of these rows. -/
theorem fetch_eq (n : ℕ) (pos : Option K) : ∃ pos',
    fetch t p n pos = ((rest t p pos).take n, pos', decide ((rest t p pos).length < n)) ∧
    rest t p pos' = (rest t p pos).drop n ∧
    (∀ k, ahead pos' k = true ↔ ahead pos k = true ∧ ∀ e ∈ (rest t p pos).take n, e.1 < k) := by
  induction n generalizing pos with
  | zero => exact ⟨pos, rfl, rfl, by simp⟩
  | succ n ih =>
    cases h : rest t p pos with
    | nil => exact ⟨pos, by simp [fetch, next_eq, h], by simp [h], by simp⟩
    | cons e es =>
      obtain ⟨pos', hfetch, hrest, hpast⟩ := ih (some e.1)
      rw [rest_of_cons h] at hfetch hrest hpast
      have he : ahead pos e.1 = true := by
        have hmem : e ∈ rest t p pos := by simp [h]
        exact (Bool.and_eq_true _ _ ▸ (List.mem_filter.mp hmem).2).1
      refine ⟨pos', by simp [fetch, next_eq, h, hfetch], by simp [hrest], fun k => ?_⟩
      rw [hpast k, ahead_some, List.take_succ_cons, List.forall_mem_cons]
      exact ⟨fun ⟨hek, hall⟩ => ⟨ahead_of_lt he hek, hek, hall⟩, fun ⟨_, hek, hall⟩ => ⟨hek, hall⟩⟩

end Cursor

/-! ### Writes -/

section Writes

variable {t : Table K V} {q : K × V → Bool}

theorem Table.find?_eq_none {k : K} : t.find? k = none ↔ ∀ a ∈ t.entries, a.1 ≠ k := by
  simp [Table.find?]

theorem Table.find?_remove (k : K) : (t.remove k).find? k = none := by
  simp [Table.find?_eq_none, Table.remove]

theorem Table.find?_remove_of_ne {k k' : K} (h : k' ≠ k) : (t.remove k).find? k' = t.find? k' := by
  rw [Table.find?, Table.find?, Table.remove, List.find?_filter]
  congr 1
  funext a
  by_cases ha : a.1 = k'
  · simp [ha, h]
  · simp [ha]

/-- Deleting a row that is not in it leaves a part of the table as it is. -/
theorem filter_remove {k : K} (h : ∀ a ∈ t.entries, a.1 = k → q a = false) :
    (t.remove k).entries.filter q = t.entries.filter q := by
  rw [Table.remove, List.filter_filter]
  refine List.filter_congr fun a ha => ?_
  by_cases hk : a.1 = k
  · simp [h a ha hk]
  · simp [hk]

/-- A table splits at a key that it does not have. -/
theorem Table.split {k : K} (h : t.find? k = none) :
    (t.entries.filter fun a => a.1 < k) ++ (t.entries.filter fun a => k < a.1) = t.entries := by
  rw [Table.find?_eq_none] at h
  obtain ⟨entries, hsorted⟩ := t
  induction entries with
  | nil => rfl
  | cons a as ih =>
    rw [List.pairwise_cons] at hsorted
    have has := ih hsorted.2 fun b hb => h b (List.mem_cons_of_mem a hb)
    rcases lt_or_gt_of_ne (h a List.mem_cons_self) with hlt | hgt
    · rw [List.filter_cons_of_pos (by simpa using hlt),
        List.filter_cons_of_neg (by simpa using hlt.le), List.cons_append, has]
    · have hall : ∀ b ∈ as, k < b.1 := fun b hb => hgt.trans (hsorted.1 b hb)
      rw [List.filter_cons_of_neg (by simpa using hgt.le), List.filter_cons_of_pos (by simpa using hgt),
        List.filter_eq_nil_iff.mpr fun b hb => by simpa using (hall b hb).le,
        List.filter_eq_self.mpr fun b hb => by simpa using hall b hb, List.nil_append]

/-- A new row that is not in it leaves a part of the table as it is. -/
theorem filter_place_of_not {e : K × V} (h : t.find? e.1 = none) (hq : q e = false) :
    (t.place e).entries.filter q = t.entries.filter q := by
  rw [Table.place, List.filter_append, List.filter_cons_of_neg (by simp [hq]),
    ← List.filter_append, Table.split h]

/-- A new row adds one to the parts of the table that it is in. -/
theorem countP_place {e : K × V} (h : t.find? e.1 = none) :
    (t.place e).entries.countP q = t.entries.countP q + if q e then 1 else 0 := by
  rw [Table.place, List.countP_append, List.countP_cons, ← Nat.add_assoc, ← List.countP_append,
    Table.split h]

/-- Deleting keys one after the other leaves the rows with other keys. -/
theorem entries_foldl_remove (keys : List K) (t : Table K V) :
    (keys.foldl Table.remove t).entries = t.entries.filter fun e => e.1 ∉ keys := by
  induction keys generalizing t with
  | nil => simp
  | cons k keys ih =>
    rw [List.foldl_cons, ih, Table.remove, List.filter_filter]
    refine List.filter_congr fun e _ => ?_
    by_cases hk : e.1 = k <;> simp [hk]

theorem Table.nodup_keys (t : Table K V) : (t.entries.map Prod.fst).Nodup := by
  rw [List.Nodup, List.pairwise_map]
  exact t.sorted.imp fun hlt => hlt.ne

/-- As many rows have one of the keys as there are keys exactly if the keys differ and all of them
are in the table. -/
theorem length_eq_length_filter_iff {keys : List K} {t : Table K V} :
    keys.length = (t.entries.filter fun e => e.1 ∈ keys).length ↔
      keys.Nodup ∧ ∀ k ∈ keys, ∃ e ∈ t.entries, e.1 = k := by
  have hmem : ∀ k, k ∈ (t.entries.filter fun e => e.1 ∈ keys).map Prod.fst ↔
      k ∈ keys ∧ ∃ e ∈ t.entries, e.1 = k := by
    intro k
    rw [List.mem_map]
    constructor
    · rintro ⟨e, he, rfl⟩
      rw [List.mem_filter, decide_eq_true_eq] at he
      exact ⟨he.2, e, he.1, rfl⟩
    · rintro ⟨hk, e, he, rfl⟩
      exact ⟨e, List.mem_filter.mpr ⟨he, decide_eq_true hk⟩, rfl⟩
  have hnodup : ((t.entries.filter fun e => e.1 ∈ keys).map Prod.fst).Nodup :=
    t.nodup_keys.sublist (List.filter_sublist.map Prod.fst)
  have hcount : ((t.entries.filter fun e => e.1 ∈ keys).map Prod.fst).length =
      (t.entries.filter fun e => e.1 ∈ keys).length := List.length_map _
  rw [← hcount]
  constructor
  · intro hlength
    have hperm : ((t.entries.filter fun e => e.1 ∈ keys).map Prod.fst).Perm keys :=
      (List.subperm_of_subset hnodup fun k hk => ((hmem k).mp hk).1).perm_of_length_le hlength.le
    exact ⟨hperm.nodup hnodup, fun k hk => ((hmem k).mp (hperm.mem_iff.mpr hk)).2⟩
  · rintro ⟨hkeys, hall⟩
    refine List.Perm.length_eq ((List.perm_ext_iff_of_nodup hkeys hnodup).mpr fun k => ?_)
    exact ⟨fun hk => (hmem k).mpr ⟨hk, hall k hk⟩, fun hk => ((hmem k).mp hk).1⟩

end Writes

end RowCursor
