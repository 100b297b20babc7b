import Mathlib.Data.List.Basic

/-!
# Trees with references at their leaves

A tree has references at its leaves, and something is put in the place of each of them. What it is may
depend on the context of the reference, that is on the labels above it. Two such substitutions have
the same result exactly if they agree on all references of the tree (`substitute_eq_iff`): since the
labels stay where they are, nothing that is put in at one place can make up for another.
-/

namespace Trees

/-- A tree with labels of type `L` and references of type `R`. -/
inductive Tree (R L : Type) where
  | leaf (r : R)
  | node (label : L) (children : List (Tree R L))

variable {R L C : Type}

namespace Tree

/-- Induction with a hypothesis for all children. -/
@[induction_eliminator]
theorem induction {P : Tree R L → Prop} (leaf : ∀ r, P (.leaf r))
    (node : ∀ label children, (∀ t ∈ children, P t) → P (.node label children)) (t : Tree R L) :
    P t :=
  @Tree.rec R L P (fun children => ∀ t ∈ children, P t) leaf node (by simp)
    (fun head tail hhead htail => by simpa using ⟨hhead, htail⟩) t

mutual

/-- Every reference is replaced, by something that depends on its context. -/
def substitute (inner : C → L → C) (σ : C → R → Tree R L) : C → Tree R L → Tree R L
  | c, .leaf r => σ c r
  | c, .node label children => .node label (substituteAll inner σ (inner c label) children)

def substituteAll (inner : C → L → C) (σ : C → R → Tree R L) :
    C → List (Tree R L) → List (Tree R L)
  | _, [] => []
  | c, t :: ts => substitute inner σ c t :: substituteAll inner σ c ts

end

mutual

/-- The references of a tree with their contexts. -/
def refs (inner : C → L → C) : C → Tree R L → List (C × R)
  | c, .leaf r => [(c, r)]
  | c, .node label children => refsAll inner (inner c label) children

def refsAll (inner : C → L → C) : C → List (Tree R L) → List (C × R)
  | _, [] => []
  | c, t :: ts => refs inner c t ++ refsAll inner c ts

end

mutual

/-- The references of a tree. -/
def leaves : Tree R L → List R
  | .leaf r => [r]
  | .node _ children => leavesAll children

def leavesAll : List (Tree R L) → List R
  | [] => []
  | t :: ts => leaves t ++ leavesAll ts

end

variable {inner : C → L → C} {σ τ : C → R → Tree R L}

theorem substituteAll_eq_map (c : C) (ts : List (Tree R L)) :
    substituteAll inner σ c ts = ts.map (substitute inner σ c) := by
  induction ts with
  | nil => rfl
  | cons t ts ih => rw [substituteAll, ih, List.map_cons]

theorem refsAll_eq_flatMap (c : C) (ts : List (Tree R L)) :
    refsAll inner c ts = ts.flatMap (refs inner c) := by
  induction ts with
  | nil => rfl
  | cons t ts ih => rw [refsAll, ih, List.flatMap_cons]

theorem leavesAll_eq_flatMap (ts : List (Tree R L)) : leavesAll ts = ts.flatMap leaves := by
  induction ts with
  | nil => rfl
  | cons t ts ih => rw [leavesAll, ih, List.flatMap_cons]

@[simp] theorem substitute_leaf (c : C) (r : R) : substitute inner σ c (.leaf r) = σ c r := by
  rw [substitute]

@[simp] theorem substitute_node (c : C) (label : L) (children : List (Tree R L)) :
    substitute inner σ c (.node label children) =
      .node label (children.map (substitute inner σ (inner c label))) := by
  rw [substitute, substituteAll_eq_map]

@[simp] theorem refs_leaf (c : C) (r : R) : refs inner c (.leaf r : Tree R L) = [(c, r)] := by
  rw [refs]

@[simp] theorem refs_node (c : C) (label : L) (children : List (Tree R L)) :
    refs inner c (.node label children) = children.flatMap (refs inner (inner c label)) := by
  rw [refs, refsAll_eq_flatMap]

@[simp] theorem leaves_leaf (r : R) : leaves (.leaf r : Tree R L) = [r] := by
  rw [leaves]

@[simp] theorem leaves_node (label : L) (children : List (Tree R L)) :
    leaves (.node label children) = children.flatMap leaves := by
  rw [leaves, leavesAll_eq_flatMap]

/-- **Two substitutions have the same result exactly if they agree on all references.** -/
theorem substitute_eq_iff {c : C} {t : Tree R L} :
    substitute inner σ c t = substitute inner τ c t ↔
      ∀ p ∈ refs inner c t, σ p.1 p.2 = τ p.1 p.2 := by
  induction t generalizing c with
  | leaf r => simp
  | node label children ih =>
    simp only [substitute_node, refs_node, node.injEq, true_and, List.map_inj_left,
      List.mem_flatMap]
    constructor
    · rintro h p ⟨t, ht, hp⟩
      exact (ih t ht).mp (h t ht) p hp
    · intro h t ht
      exact (ih t ht).mpr fun p hp => h p ⟨t, ht, hp⟩

theorem substitute_congr {c : C} {t : Tree R L}
    (h : ∀ p ∈ refs inner c t, σ p.1 p.2 = τ p.1 p.2) :
    substitute inner σ c t = substitute inner τ c t :=
  substitute_eq_iff.mpr h

/-- The references after a substitution are those of what was put in. -/
theorem leaves_substitute (c : C) (t : Tree R L) :
    (substitute inner σ c t).leaves = (refs inner c t).flatMap fun p => (σ p.1 p.2).leaves := by
  induction t generalizing c with
  | leaf r => simp
  | node label children ih =>
    simp only [substitute_node, leaves_node, refs_node, List.flatMap_map, List.flatMap_assoc]
    exact List.flatMap_congr fun t ht => ih t ht (inner c label)

end Tree

end Trees
