import Mathlib.Data.List.Basic

/-!
# Three-valued logic

A truth value is `some true`, `some false`, or `none` if it is unknown. Such a value is determined by
when it is true and when it is false (`Kleene.ext`), and for conjunctions and disjunctions of lists
each of the two is a statement about the members. So an equation between conditions, however many
conditions they join, is two equivalences of ordinary logic.
-/

namespace Kleene

/-- Kleene conjunction. -/
def and : Option Bool → Option Bool → Option Bool
  | some false, _ => some false
  | some true, b => b
  | none, some false => some false
  | none, _ => none

/-- Kleene disjunction. -/
def or : Option Bool → Option Bool → Option Bool
  | some true, _ => some true
  | some false, b => b
  | none, some true => some true
  | none, _ => none

variable {a b : Option Bool} {l : List (Option Bool)}

theorem ext (htrue : a = some true ↔ b = some true) (hfalse : a = some false ↔ b = some false) :
    a = b := by
  rcases a with _ | _ | _ <;> rcases b with _ | _ | _ <;> simp_all

@[simp] theorem and_eq_true : and a b = some true ↔ a = some true ∧ b = some true := by
  rcases a with _ | _ | _ <;> rcases b with _ | _ | _ <;> simp [and]

@[simp] theorem and_eq_false : and a b = some false ↔ a = some false ∨ b = some false := by
  rcases a with _ | _ | _ <;> rcases b with _ | _ | _ <;> simp [and]

@[simp] theorem or_eq_true : or a b = some true ↔ a = some true ∨ b = some true := by
  rcases a with _ | _ | _ <;> rcases b with _ | _ | _ <;> simp [or]

theorem and_assoc (a b c : Option Bool) : and (and a b) c = and a (and b c) := by
  rcases a with _ | _ | _ <;> rcases b with _ | _ | _ <;> rcases c with _ | _ | _ <;> rfl

theorem or_assoc (a b c : Option Bool) : or (or a b) c = or a (or b c) := by
  rcases a with _ | _ | _ <;> rcases b with _ | _ | _ <;> rcases c with _ | _ | _ <;> rfl

theorem and_or (a b c : Option Bool) : and a (or b c) = or (and a b) (and a c) := by
  rcases a with _ | _ | _ <;> rcases b with _ | _ | _ <;> rcases c with _ | _ | _ <;> rfl

/-! ### Lists -/

/-- The conjunction of a list. -/
def all (l : List (Option Bool)) : Option Bool := l.foldr and (some true)

/-- The disjunction of a list. -/
def any (l : List (Option Bool)) : Option Bool := l.foldr or (some false)

@[simp] theorem all_nil : all [] = some true := rfl

@[simp] theorem all_cons : all (a :: l) = and a (all l) := rfl

@[simp] theorem any_nil : any [] = some false := rfl

@[simp] theorem any_cons : any (a :: l) = or a (any l) := rfl

theorem all_eq_true : all l = some true ↔ ∀ x ∈ l, x = some true := by
  induction l with
  | nil => simp
  | cons x l ih => rw [all_cons, and_eq_true, ih, List.forall_mem_cons]

theorem all_eq_false : all l = some false ↔ some false ∈ l := by
  induction l with
  | nil => simp
  | cons x l ih => rw [all_cons, and_eq_false, ih, List.mem_cons, eq_comm (b := x)]

theorem any_eq_true : any l = some true ↔ some true ∈ l := by
  induction l with
  | nil => simp
  | cons x l ih => rw [any_cons, or_eq_true, ih, List.mem_cons, eq_comm (b := x)]

theorem foldl_and (a : Option Bool) (l : List (Option Bool)) : l.foldl and a = all (a :: l) := by
  induction l generalizing a with
  | nil => rcases a with _ | _ | _ <;> rfl
  | cons b l ih => rw [List.foldl_cons, ih, all_cons, all_cons, all_cons, and_assoc]

theorem foldl_or (a : Option Bool) (l : List (Option Bool)) : l.foldl or a = any (a :: l) := by
  induction l generalizing a with
  | nil => rcases a with _ | _ | _ <;> rfl
  | cons b l ih => rw [List.foldl_cons, ih, any_cons, any_cons, any_cons, or_assoc]

theorem and_any (a : Option Bool) (l : List (Option Bool)) :
    and a (any l) = any (l.map (and a)) := by
  induction l with
  | nil => rcases a with _ | _ | _ <;> rfl
  | cons b l ih => rw [any_cons, and_or, ih, List.map_cons, any_cons]

/-- A conjunction may be split among two lists, if both say no more than it and together as much. -/
theorem all_eq_and_all {l m n : List (Option Bool)} (hm : ∀ x ∈ m, x ∈ l) (hn : ∀ x ∈ n, x ∈ l)
    (hl : ∀ x ∈ l, x ∈ m ∨ x ∈ n) : all l = and (all m) (all n) := by
  apply ext
  · rw [and_eq_true, all_eq_true, all_eq_true, all_eq_true]
    constructor
    · intro htrue
      exact ⟨fun x hx => htrue x (hm x hx), fun x hx => htrue x (hn x hx)⟩
    · rintro ⟨hmtrue, hntrue⟩ x hx
      exact (hl x hx).elim (hmtrue x) (hntrue x)
  · rw [and_eq_false, all_eq_false, all_eq_false, all_eq_false]
    exact ⟨hl _, fun hfalse => hfalse.elim (hm _) (hn _)⟩

end Kleene
