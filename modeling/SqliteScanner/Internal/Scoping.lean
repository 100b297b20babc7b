import Mathlib.Data.List.Basic
import Mathlib.Data.List.Lemmas
import Mathlib.Tactic.Tauto

/-!
# Two readings of the same names

A text with names in it is translated from one language into another. Both languages have blocks of
definitions, but they do not read them in the same way.

* In the *source* language a definition sees the definitions before it in its block, and itself if it
  says so. A reference can be `global`, and then it never means a definition.
* In the *target* language all definitions of a block see each other and themselves, and no
  reference is global any more: a name denotes the innermost binder around it.

The translation replaces calls of a stored text by that text (`expand`), in its place and without
renaming anything. It may also put a binder around a reference or a part of the text, which the
source does not have (`rebind`). It only looks at the blocks to decide what a call is.

This file compares the two readings of what such a translation writes. They agree on a text exactly
if it is `Hygienic` and the names that are free in it mean the same outside
(`same_expand_iff`). The stored texts are read on their own in the source language, so for them
"the same outside" means that nothing outside binds the name.

## Main definitions

* `Text`, `Defs` — a text, reduced to its references and binders, and a block of definitions.
* `declared` — the references of a text with the scopes of the source language.
* `resolved` — its references with the scopes of the target language.
* `calls` — the stored texts that are put in, each with the scope of its place.

## Main results

* `same_expand_iff` — when the two readings of an expanded text agree.
* `inlinedIn_expand` — the parts that were put in are the expanded stored texts.
-/

namespace Scoping

/-! ### Texts -/

/-- A reference by name. If it is written as the name of a definition, and `rename` is given, then
the translation puts a binder of that name around it. -/
structure Ref (N α : Type) where
  name : N
  global : Bool
  rename : Option N
  note : α
deriving DecidableEq

mutual

/-- The references and binders of a text. -/
inductive Text (N α : Type) where
  | nil
  | leaf (r : Ref N α)
  /-- A reference to a stored text. The translation puts a binder around that, if `rename` is
  given. -/
  | call (r : Ref N α) (rename : Option N) (body : Text N α)
  | both (left right : Text N α)
  | block (defs : Defs N α) (body : Text N α)
  /-- A part of the text with a binder around it that the source does not have. -/
  | rebind (x : N) (t : Text N α)
  /-- A stored text that has been put in. -/
  | inlined (t : Text N α)

/-- The definitions of a block. One that sees itself is marked. -/
inductive Defs (N α : Type) where
  | nil
  | cons (x : N) (self : Bool) (t : Text N α) (rest : Defs N α)

end

variable {N α : Type}

/-- The names that a block defines. -/
def Defs.names : Defs N α → List N
  | .nil => []
  | .cons x _ _ rest => x :: rest.names

/-! ### Notes -/

/-- A reference with another note. -/
def Ref.map {β : Type} (f : α → β) (r : Ref N α) : Ref N β where
  name := r.name
  global := r.global
  rename := r.rename
  note := f r.note

mutual

/-- A text with other notes. -/
def Text.map {β : Type} (f : α → β) : Text N α → Text N β
  | .nil => .nil
  | .leaf r => .leaf (r.map f)
  | .call r x body => .call (r.map f) x (body.map f)
  | .both l r => .both (l.map f) (r.map f)
  | .block defs body => .block (defs.map f) (body.map f)
  | .rebind x t => .rebind x (t.map f)
  | .inlined t => .inlined (t.map f)

/-- A block of definitions with other notes. -/
def Defs.map {β : Type} (f : α → β) : Defs N α → Defs N β
  | .nil => .nil
  | .cons x self t rest => .cons x self (t.map f) (rest.map f)

end

/-! ### Scopes of the target language -/

/-- What can stand around a reference. -/
inductive Frame (N : Type) where
  | binders (names : List N)
  | rebind (x : N)
  | inlined
deriving DecidableEq

/-- The binders around a reference, innermost first. -/
abbrev Scope (N : Type) := List (Frame N)

/-- What a name denotes: something outside of the text, a definition of the block at a given depth,
a binder that the translation has added, or, inside of a text that has been put in, something that
is bound around that. -/
inductive Denotation where
  | global
  | binder (level : ℕ)
  | rebound
  | captured
deriving DecidableEq

/-- The number of blocks around a place, counted in the text that has been put in. -/
def level : Scope N → ℕ
  | [] => 0
  | .binders _ :: S => level S + 1
  | .rebind _ :: S => level S
  | .inlined :: _ => 0

/-- The names of all definitions of the blocks around a place. -/
def binders : Scope N → List N
  | [] => []
  | .binders names :: S => names ++ binders S
  | .rebind _ :: S => binders S
  | .inlined :: S => binders S

/-- The frame of a binder that the translation may have put around something. -/
def rebindFrame : Option N → Scope N → Scope N
  | none, S => S
  | some x, S => .rebind x :: S

section Denotes

variable [DecidableEq N]

/-- What a name denotes in the target language. -/
def denotes : Scope N → N → Denotation
  | [], _ => .global
  | .binders names :: S, x => if x ∈ names then .binder (level S) else denotes S x
  | .rebind y :: S, x => if x = y then .rebound else denotes S x
  | .inlined :: S, x => if denotes S x = .global then .global else .captured

/-- What a name denotes in the source language, where only blocks bind names. -/
def denotesBefore : List (List N) → N → Denotation
  | [], _ => .global
  | names :: S, x => if x ∈ names then .binder S.length else denotesBefore S x

/-- What a reference means in the source language. -/
def declares (S : List (List N)) (r : Ref N α) : Denotation :=
  if r.global then .global else denotesBefore S r.name

theorem level_lt_of_denotesBefore {S : List (List N)} {x : N} {n : ℕ}
    (h : denotesBefore S x = .binder n) : n < S.length := by
  induction S with
  | nil => simp [denotesBefore] at h
  | cons names S ih =>
    rw [denotesBefore] at h
    split at h
    · cases h
      exact Nat.lt_succ_self _
    · exact Nat.lt_succ_of_lt (ih h)

theorem denotesBefore_ne_rebound (S : List (List N)) (x : N) : denotesBefore S x ≠ .rebound := by
  induction S with
  | nil => simp [denotesBefore]
  | cons names S ih =>
    rw [denotesBefore]
    split
    · simp
    · exact ih

theorem declares_ne_rebound (S : List (List N)) (r : Ref N α) : declares S r ≠ .rebound := by
  rw [declares]
  split
  · simp
  · exact denotesBefore_ne_rebound S r.name

@[simp]
theorem declares_nil (r : Ref N α) : declares [] r = .global := by
  simp [declares, denotesBefore]

theorem denotes_inlined {S : Scope N} {x : N} :
    denotes (.inlined :: S) x = .global ↔ denotes S x = .global := by
  simp [denotes]

end Denotes

@[simp]
theorem binders_rebindFrame (x : Option N) (S : Scope N) : binders (rebindFrame x S) = binders S := by
  cases x <;> rfl

/-! ### The translation -/

/-- A text with a binder around it, if there is to be one. -/
def renamed : Option N → Text N α → Text N α
  | none, t => t
  | some x, t => .rebind x t

theorem map_renamed {β : Type} (f : α → β) (x : Option N) (t : Text N α) :
    (renamed x t).map f = renamed x (t.map f) := by
  cases x <;> simp [renamed, Text.map]

section Expand

variable [DecidableEq N]

/-- Whether the translation takes a reference for one to a definition, where `B` are the names of
the definitions of all blocks around it. -/
def isBound (B : List N) (r : Ref N α) : Bool :=
  !r.global && decide (r.name ∈ B)

mutual

/-- The text that is written for a text, where `B` are the names of the definitions of all blocks
around it: calls are replaced by what they call. -/
def expand : Text N α → List N → Text N α
  | .nil, _ => .nil
  | .leaf r, B => if isBound B r then renamed r.rename (.leaf r) else .leaf r
  | .call r x body, B =>
    if isBound B r then renamed r.rename (.leaf r) else renamed x (.inlined (expand body B))
  | .both l r, B => .both (expand l B) (expand r B)
  | .block defs body, B =>
    .block (expandDefs defs (defs.names ++ B)) (expand body (defs.names ++ B))
  | .rebind x t, B => .rebind x (expand t B)
  | .inlined t, B => .inlined (expand t B)

/-- The definitions that are written for the definitions of a block. -/
def expandDefs : Defs N α → List N → Defs N α
  | .nil, _ => .nil
  | .cons x self t rest, B => .cons x self (expand t B) (expandDefs rest B)

end

@[simp]
theorem names_expandDefs : ∀ (defs : Defs N α) (B : List N), (expandDefs defs B).names = defs.names
  | .nil, _ => rfl
  | .cons x _ _ rest, B => by simp [expandDefs, Defs.names, names_expandDefs rest B]

end Expand

/-! ### References with their scopes

Both functions list the references of a text itself. Texts that have been put into it are read
separately (`inlinedIn`). -/

mutual

/-- The references of a text, each with the names of the definitions that it sees in the source
language, block by block. -/
def declared : Text N α → List (List N) → List (Ref N α × List (List N))
  | .nil, _ => []
  | .leaf r, S => [(r, S)]
  | .call r _ _, S => [(r, S)]
  | .both l r, S => declared l S ++ declared r S
  | .block defs body, S => declaredDefs defs [] S ++ declared body (defs.names.reverse :: S)
  | .rebind _ t, S => declared t S
  | .inlined _, _ => []

/-- The references of the definitions of a block, of which those with the names `before` come
first. -/
def declaredDefs : Defs N α → List N → List (List N) → List (Ref N α × List (List N))
  | .nil, _, _ => []
  | .cons x self t rest, before, S =>
    declared t ((if self then x :: before else before) :: S) ++ declaredDefs rest (x :: before) S

end

mutual

/-- The references of a text, each with its scope in the target language. -/
def resolved : Text N α → Scope N → List (Ref N α × Scope N)
  | .nil, _ => []
  | .leaf r, S => [(r, S)]
  | .call r _ _, S => [(r, S)]
  | .both l r, S => resolved l S ++ resolved r S
  | .block defs body, S =>
    resolvedDefs defs (.binders defs.names :: S) ++ resolved body (.binders defs.names :: S)
  | .rebind x t, S => resolved t (.rebind x :: S)
  | .inlined _, _ => []

/-- The references of the definitions of a block, whose frame is in the scope already. -/
def resolvedDefs : Defs N α → Scope N → List (Ref N α × Scope N)
  | .nil, _ => []
  | .cons _ _ t rest, S => resolved t S ++ resolvedDefs rest S

end

mutual

/-- The texts that have been put into a text, at any depth, each with the scope around it. -/
def inlinedIn : Text N α → Scope N → List (Text N α × Scope N)
  | .nil, _ => []
  | .leaf _, _ => []
  | .call _ _ _, _ => []
  | .both l r, S => inlinedIn l S ++ inlinedIn r S
  | .block defs body, S =>
    inlinedInDefs defs (.binders defs.names :: S) ++ inlinedIn body (.binders defs.names :: S)
  | .rebind x t, S => inlinedIn t (.rebind x :: S)
  | .inlined t, S => (t, S) :: inlinedIn t (.inlined :: S)

/-- The texts that have been put into the definitions of a block. -/
def inlinedInDefs : Defs N α → Scope N → List (Text N α × Scope N)
  | .nil, _ => []
  | .cons _ _ t rest, S => inlinedIn t S ++ inlinedInDefs rest S

end

/-- A text with a binder around it is read in the scope with that binder. -/
theorem inlinedIn_renamed (x : Option N) (t : Text N α) (S : Scope N) :
    inlinedIn (renamed x t) S = inlinedIn t (rebindFrame x S) := by
  cases x <;> simp [renamed, rebindFrame, inlinedIn]

theorem declared_renamed (x : Option N) (t : Text N α) (S : List (List N)) :
    declared (renamed x t) S = declared t S := by
  cases x <;> simp [renamed, declared]

section Calls

variable [DecidableEq N]

mutual

/-- The stored texts that a text calls, directly or through the texts that are put in, each with the
scope of the place where it is put in. -/
def calls : Text N α → Scope N → List (Text N α × Scope N)
  | .nil, _ => []
  | .leaf _, _ => []
  | .call r x body, S =>
    if isBound (binders S) r then []
    else (body, rebindFrame x S) :: calls body (.inlined :: rebindFrame x S)
  | .both l r, S => calls l S ++ calls r S
  | .block defs body, S =>
    callsDefs defs (.binders defs.names :: S) ++ calls body (.binders defs.names :: S)
  | .rebind x t, S => calls t (.rebind x :: S)
  | .inlined t, S => (t, S) :: calls t (.inlined :: S)

/-- The stored texts that the definitions of a block call. -/
def callsDefs : Defs N α → Scope N → List (Text N α × Scope N)
  | .nil, _ => []
  | .cons _ _ t rest, S => calls t S ++ callsDefs rest S

end

mutual

/-- The texts that have been put in are the stored texts, expanded in their places. -/
theorem inlinedIn_expand : ∀ (t : Text N α) (S : Scope N),
    inlinedIn (expand t (binders S)) S =
      (calls t S).map fun u => (expand u.1 (binders u.2), u.2)
  | .nil, S => by simp [expand, inlinedIn, calls]
  | .leaf r, S => by
    rw [expand]
    split
    · simp [inlinedIn_renamed, inlinedIn, calls]
    · simp [inlinedIn, calls]
  | .call r x body, S => by
    rw [expand, calls]
    split
    · simp [inlinedIn_renamed, inlinedIn]
    · have ih := inlinedIn_expand body (.inlined :: rebindFrame x S)
      simp only [binders, binders_rebindFrame] at ih
      simp [inlinedIn_renamed, inlinedIn, ih]
  | .both l r, S => by
    simp [expand, inlinedIn, calls, inlinedIn_expand l S, inlinedIn_expand r S]
  | .block defs body, S => by
    have hdefs := inlinedInDefs_expand defs (.binders defs.names :: S)
    have hbody := inlinedIn_expand body (.binders defs.names :: S)
    simp only [binders] at hdefs hbody
    simp [expand, inlinedIn, calls, hdefs, hbody]
  | .rebind x t, S => by
    have ih := inlinedIn_expand t (.rebind x :: S)
    simp only [binders] at ih
    simp [expand, inlinedIn, calls, ih]
  | .inlined t, S => by
    have ih := inlinedIn_expand t (.inlined :: S)
    simp only [binders] at ih
    simp [expand, inlinedIn, calls, ih]

theorem inlinedInDefs_expand : ∀ (defs : Defs N α) (S : Scope N),
    inlinedInDefs (expandDefs defs (binders S)) S =
      (callsDefs defs S).map fun u => (expand u.1 (binders u.2), u.2)
  | .nil, S => by simp [expandDefs, inlinedInDefs, callsDefs]
  | .cons x self t rest, S => by
    simp [expandDefs, inlinedInDefs, callsDefs, inlinedIn_expand t S, inlinedInDefs_expand rest S]

end

mutual

/-- If nothing is called, then the translation leaves the references and their scopes alone. -/
theorem declared_expand : ∀ (t : Text N α) {S : Scope N} (S₁ : List (List N)), calls t S = [] →
    declared (expand t (binders S)) S₁ = declared t S₁
  | .nil, _, _, _ => rfl
  | .leaf r, S, S₁, _ => by
    rw [expand]
    split
    · exact declared_renamed r.rename (.leaf r) S₁
    · rfl
  | .call r x body, S, S₁, h => by
    rw [calls] at h
    rw [expand]
    split
    · exact declared_renamed r.rename (.leaf r) S₁
    · rename_i hbound
      simp [hbound] at h
  | .both l r, S, S₁, h => by
    obtain ⟨hl, hr⟩ := List.append_eq_nil_iff.mp h
    rw [expand, declared, declared_expand l S₁ hl, declared_expand r S₁ hr, declared]
  | .block defs body, S, S₁, h => by
    obtain ⟨hdefs, hbody⟩ := List.append_eq_nil_iff.mp h
    have ihdefs := declaredDefs_expandDefs defs [] S₁ hdefs
    have ihbody := declared_expand body (defs.names.reverse :: S₁) hbody
    simp only [binders] at ihdefs ihbody
    rw [expand, declared, names_expandDefs, ihdefs, ihbody, declared]
  | .rebind x t, S, S₁, h => by
    have ih := declared_expand t (S := .rebind x :: S) S₁ h
    simp only [binders] at ih
    rw [expand, declared, ih, declared]
  | .inlined t, S, S₁, h => by simp [calls] at h

theorem declaredDefs_expandDefs : ∀ (defs : Defs N α) {S : Scope N} (before : List N)
    (S₁ : List (List N)), callsDefs defs S = [] →
      declaredDefs (expandDefs defs (binders S)) before S₁ = declaredDefs defs before S₁
  | .nil, _, _, _, _ => rfl
  | .cons x self t rest, S, before, S₁, h => by
    obtain ⟨ht, hrest⟩ := List.append_eq_nil_iff.mp h
    rw [expandDefs, declaredDefs, declared_expand t _ ht,
      declaredDefs_expandDefs rest _ S₁ hrest, declaredDefs]

end

end Calls

/-! ### When the readings agree -/

/-- A listing of references under the source language and one under the target language give the
same references the same meanings, as far as the references with `p` are concerned. -/
def Same [DecidableEq N] (p : Ref N α → Bool) (D : List (Ref N α × List (List N)))
    (R : List (Ref N α × Scope N)) : Prop :=
  (D.filter fun d => p d.1).map (fun d => (d.1, declares d.2 d.1)) =
    (R.filter fun d => p d.1).map fun d => (d.1, denotes d.2 d.1.name)

instance [DecidableEq N] [DecidableEq α] (p : Ref N α → Bool)
    (D : List (Ref N α × List (List N))) (R : List (Ref N α × Scope N)) : Decidable (Same p D R) :=
  inferInstanceAs (Decidable (_ = _))

section Free

variable [DecidableEq N]

mutual

/-- The references of a text that are written, and that mean nothing inside of the text in the
source language. -/
def free : Text N α → List N → List (Ref N α)
  | .nil, _ => []
  | .leaf r, _ => [r]
  | .call r _ _, B => if isBound B r then [r] else []
  | .both l r, B => free l B ++ free r B
  | .block defs body, B =>
    freeDefs defs [] (defs.names ++ B) ++
      (free body (defs.names ++ B)).filter fun r => r.global || decide (r.name ∉ defs.names)
  | .rebind _ t, B => free t B
  | .inlined _, _ => []

/-- The references of the definitions of a block that mean nothing inside of the block. -/
def freeDefs : Defs N α → List N → List N → List (Ref N α)
  | .nil, _, _ => []
  | .cons x self t rest, before, B =>
    ((free t B).filter fun r =>
        r.global || decide (r.name ∉ if self then x :: before else before)) ++
      freeDefs rest (x :: before) B

end

mutual

/-- No definition of a block refers to a later one of the same block, in a text and in the stored
texts that it calls. The target language would read such a reference as that definition. -/
def NoForward : Text N α → List N → Prop
  | .nil, _ => True
  | .leaf _, _ => True
  | .call r _ body, B => isBound B r = false → NoForward body B
  | .both l r, B => NoForward l B ∧ NoForward r B
  | .block defs body, B => NoForwardDefs defs (defs.names ++ B) ∧ NoForward body (defs.names ++ B)
  | .rebind _ t, B => NoForward t B
  | .inlined t, B => NoForward t B

/-- No definition refers to a later one. -/
def NoForwardDefs : Defs N α → List N → Prop
  | .nil, _ => True
  | .cons _ _ t rest, B =>
    (∀ d ∈ declared t [], d.1.global = false → d.1.name ∈ rest.names → d.1.name ∈ d.2.flatten) ∧
      NoForward t B ∧ NoForwardDefs rest B

end

mutual

/-- What holds of a text holds of the stored texts that it calls, in their places. -/
theorem noForward_of_mem_calls : ∀ (t : Text N α) {S : Scope N}, NoForward t (binders S) →
    ∀ u ∈ calls t S, NoForward u.1 (binders u.2)
  | .nil, _, _, _, hu => by simp [calls] at hu
  | .leaf _, _, _, _, hu => by simp [calls] at hu
  | .call r x body, S, h, u, hu => by
    rw [calls] at hu
    split at hu
    · simp at hu
    · rename_i hbound
      have hbody : NoForward body (binders (rebindFrame x S)) := by
        simpa using h (by simpa using hbound)
      rcases List.mem_cons.mp hu with rfl | hu
      · exact hbody
      · exact noForward_of_mem_calls body (S := .inlined :: rebindFrame x S) hbody u hu
  | .both l r, S, h, u, hu => by
    rw [calls, List.mem_append] at hu
    rcases hu with hu | hu
    · exact noForward_of_mem_calls l h.1 u hu
    · exact noForward_of_mem_calls r h.2 u hu
  | .block defs body, S, h, u, hu => by
    rw [calls, List.mem_append] at hu
    rcases hu with hu | hu
    · exact noForward_of_mem_callsDefs defs (S := .binders defs.names :: S) h.1 u hu
    · exact noForward_of_mem_calls body (S := .binders defs.names :: S) h.2 u hu
  | .rebind x t, S, h, u, hu => by
    rw [calls] at hu
    exact noForward_of_mem_calls t (S := .rebind x :: S) h u hu
  | .inlined t, S, h, u, hu => by
    rw [calls] at hu
    rcases List.mem_cons.mp hu with rfl | hu
    · exact h
    · exact noForward_of_mem_calls t (S := .inlined :: S) h u hu

theorem noForward_of_mem_callsDefs : ∀ (defs : Defs N α) {S : Scope N},
    NoForwardDefs defs (binders S) → ∀ u ∈ callsDefs defs S, NoForward u.1 (binders u.2)
  | .nil, _, _, _, hu => by simp [callsDefs] at hu
  | .cons _ _ t rest, S, h, u, hu => by
    rw [callsDefs, List.mem_append] at hu
    rcases hu with hu | hu
    · exact noForward_of_mem_calls t h.2.1 u hu
    · exact noForward_of_mem_callsDefs rest h.2.2 u hu

end

mutual

/-- Nothing in a text has the name of a binder that the target language sees and the source language
does not. -/
def Hygienic (p : Ref N α → Bool) : Text N α → List N → Prop
  | .nil, _ => True
  | .leaf r, B => p r → isBound B r → r.rename ≠ some r.name
  | .call r _ _, B => p r → isBound B r → r.rename ≠ some r.name
  | .both l r, B => Hygienic p l B ∧ Hygienic p r B
  | .block defs body, B =>
    HygienicDefs p defs [] defs.names (defs.names ++ B) ∧ Hygienic p body (defs.names ++ B) ∧
      ∀ r ∈ free body (defs.names ++ B), p r → r.global → r.name ∉ defs.names
  | .rebind x t, B => Hygienic p t B ∧ ∀ r ∈ free t B, p r → r.name ≠ x
  | .inlined _, _ => True

/-- The definitions of a block with the given `names` do not refer to themselves, unless they say
so, and no global reference in them has the name of a definition. -/
def HygienicDefs (p : Ref N α → Bool) : Defs N α → List N → List N → List N → Prop
  | .nil, _, _, _ => True
  | .cons x self t rest, before, names, B =>
    Hygienic p t B ∧
      (∀ r ∈ free t B, p r →
        if r.global then r.name ∉ names else r.name = x → self = true ∨ x ∈ before) ∧
      HygienicDefs p rest (x :: before) names B

end

mutual

instance Hygienic.decidable (p : Ref N α → Bool) :
    ∀ (t : Text N α) (B : List N), Decidable (Hygienic p t B)
  | .nil, _ => .isTrue trivial
  | .leaf r, B => inferInstanceAs (Decidable (p r → isBound B r → r.rename ≠ some r.name))
  | .call r _ _, B => inferInstanceAs (Decidable (p r → isBound B r → r.rename ≠ some r.name))
  | .both l r, B =>
    have := Hygienic.decidable p l B
    have := Hygienic.decidable p r B
    inferInstanceAs (Decidable (Hygienic p l B ∧ Hygienic p r B))
  | .block defs body, B =>
    have := HygienicDefs.decidable p defs [] defs.names (defs.names ++ B)
    have := Hygienic.decidable p body (defs.names ++ B)
    inferInstanceAs (Decidable (HygienicDefs p defs [] defs.names (defs.names ++ B) ∧
      Hygienic p body (defs.names ++ B) ∧
        ∀ r ∈ free body (defs.names ++ B), p r → r.global → r.name ∉ defs.names))
  | .rebind x t, B =>
    have := Hygienic.decidable p t B
    inferInstanceAs (Decidable (Hygienic p t B ∧ ∀ r ∈ free t B, p r → r.name ≠ x))
  | .inlined _, _ => .isTrue trivial

instance HygienicDefs.decidable (p : Ref N α → Bool) :
    ∀ (defs : Defs N α) (before names B : List N), Decidable (HygienicDefs p defs before names B)
  | .nil, _, _, _ => .isTrue trivial
  | .cons x self t rest, before, names, B =>
    have := Hygienic.decidable p t B
    have := HygienicDefs.decidable p rest (x :: before) names B
    inferInstanceAs (Decidable (Hygienic p t B ∧
      (∀ r ∈ free t B, p r →
        if r.global then r.name ∉ names else r.name = x → self = true ∨ x ∈ before) ∧
      HygienicDefs p rest (x :: before) names B))

end

end Free

section References

mutual

/-- The references of a text, in the order of the text. -/
def refs : Text N α → List (Ref N α)
  | .nil => []
  | .leaf r => [r]
  | .call r _ _ => [r]
  | .both l r => refs l ++ refs r
  | .block defs body => refsDefs defs ++ refs body
  | .rebind _ t => refs t
  | .inlined _ => []

/-- The references of the definitions of a block. -/
def refsDefs : Defs N α → List (Ref N α)
  | .nil => []
  | .cons _ _ t rest => refs t ++ refsDefs rest

end

theorem refs_renamed (x : Option N) (t : Text N α) : refs (renamed x t) = refs t := by
  cases x <;> simp [renamed, refs]

mutual

theorem map_fst_declared : ∀ (t : Text N α) (S : List (List N)),
    (declared t S).map Prod.fst = refs t
  | .nil, _ => rfl
  | .leaf _, _ => rfl
  | .call _ _ _, _ => rfl
  | .both l r, S => by simp [declared, refs, map_fst_declared l S, map_fst_declared r S]
  | .block defs body, S => by
    simp [declared, refs, map_fst_declaredDefs defs [] S, map_fst_declared body]
  | .rebind _ t, S => by simp [declared, refs, map_fst_declared t S]
  | .inlined _, _ => rfl

theorem map_fst_declaredDefs : ∀ (defs : Defs N α) (before : List N) (S : List (List N)),
    (declaredDefs defs before S).map Prod.fst = refsDefs defs
  | .nil, _, _ => rfl
  | .cons x _ t rest, before, S => by
    simp [declaredDefs, refsDefs, map_fst_declared t, map_fst_declaredDefs rest (x :: before) S]

end

mutual

theorem map_fst_resolved : ∀ (t : Text N α) (S : Scope N), (resolved t S).map Prod.fst = refs t
  | .nil, _ => rfl
  | .leaf _, _ => rfl
  | .call _ _ _, _ => rfl
  | .both l r, S => by simp [resolved, refs, map_fst_resolved l S, map_fst_resolved r S]
  | .block defs body, S => by
    simp [resolved, refs, map_fst_resolvedDefs defs, map_fst_resolved body]
  | .rebind _ t, S => by simp [resolved, refs, map_fst_resolved t]
  | .inlined _, _ => rfl

theorem map_fst_resolvedDefs : ∀ (defs : Defs N α) (S : Scope N),
    (resolvedDefs defs S).map Prod.fst = refsDefs defs
  | .nil, _ => rfl
  | .cons _ _ t rest, S => by
    simp [resolvedDefs, refsDefs, map_fst_resolved t S, map_fst_resolvedDefs rest S]

end

mutual

/-- The translation adds no references. -/
theorem mem_refs_of_mem_refs_expand [DecidableEq N] : ∀ (t : Text N α) {B : List N} {r : Ref N α},
    r ∈ refs (expand t B) → r ∈ refs t
  | .nil, _, _, h => h
  | .leaf r', B, r, h => by
    rw [expand] at h
    split at h
    · rwa [refs_renamed] at h
    · exact h
  | .call r' x body, B, r, h => by
    rw [expand] at h
    split at h
    · rwa [refs_renamed] at h
    · rw [refs_renamed] at h
      simp [refs] at h
  | .both t u, B, r, h => by
    rw [expand, refs, List.mem_append] at h
    rw [refs, List.mem_append]
    exact h.imp (mem_refs_of_mem_refs_expand t) (mem_refs_of_mem_refs_expand u)
  | .block defs body, B, r, h => by
    rw [expand, refs, List.mem_append] at h
    rw [refs, List.mem_append]
    exact h.imp (mem_refsDefs_of_mem_refsDefs_expandDefs defs) (mem_refs_of_mem_refs_expand body)
  | .rebind x t, B, r, h => by
    rw [expand, refs] at h
    exact mem_refs_of_mem_refs_expand t h
  | .inlined t, B, r, h => by simp [expand, refs] at h

theorem mem_refsDefs_of_mem_refsDefs_expandDefs [DecidableEq N] : ∀ (defs : Defs N α) {B : List N}
    {r : Ref N α}, r ∈ refsDefs (expandDefs defs B) → r ∈ refsDefs defs
  | .nil, _, _, h => h
  | .cons x self t rest, B, r, h => by
    rw [expandDefs, refsDefs, List.mem_append] at h
    rw [refsDefs, List.mem_append]
    exact h.imp (mem_refs_of_mem_refs_expand t) (mem_refsDefs_of_mem_refsDefs_expandDefs rest)

end

mutual

/-- The references of a text, those of the texts that have been put in included. -/
def leaves : Text N α → List (Ref N α)
  | .nil => []
  | .leaf r => [r]
  | .call r _ _ => [r]
  | .both l r => leaves l ++ leaves r
  | .block defs body => leavesDefs defs ++ leaves body
  | .rebind _ t => leaves t
  | .inlined t => leaves t

/-- The references of the definitions of a block. -/
def leavesDefs : Defs N α → List (Ref N α)
  | .nil => []
  | .cons _ _ t rest => leaves t ++ leavesDefs rest

end

theorem leaves_renamed (x : Option N) (t : Text N α) : leaves (renamed x t) = leaves t := by
  cases x <;> simp [renamed, leaves]

end References

/-! ### What a text takes from outside -/

section Outside

variable [DecidableEq N]

/-- The names of the references in question that no binder around them has. -/
def outside (p : Ref N α → Bool) (R : List (Ref N α × Scope N)) : List N :=
  (R.filter fun d => p d.1 && denotes d.2 d.1.name = .global).map fun d => d.1.name

variable {p : Ref N α → Bool}

theorem mem_outside {R : List (Ref N α × Scope N)} {x : N} :
    x ∈ outside p R ↔ ∃ d ∈ R, p d.1 = true ∧ d.1.name = x ∧ denotes d.2 x = .global := by
  simp only [outside, List.mem_map, List.mem_filter, Bool.and_eq_true, decide_eq_true_eq]
  refine ⟨?_, ?_⟩
  · rintro ⟨d, ⟨hd, hp, hglobal⟩, rfl⟩
    exact ⟨d, hd, hp, rfl, hglobal⟩
  · rintro ⟨d, hd, hp, rfl, hglobal⟩
    exact ⟨d, ⟨hd, hp, hglobal⟩, rfl⟩

theorem outside_append (R R' : List (Ref N α × Scope N)) :
    outside p (R ++ R') = outside p R ++ outside p R' := by
  simp [outside]

/-- The references of a text, those of the texts that have been put in included. -/
def mentions (t : Text N α) (S : Scope N) : List (Ref N α × Scope N) :=
  resolved t S ++ (inlinedIn t S).flatMap fun u => resolved u.1 (.inlined :: u.2)

/-- The names that a text takes from outside. -/
def taken (p : Ref N α → Bool) (t : Text N α) (S : Scope N) : List N :=
  outside p (mentions t S)

/-- No stored text that a text calls, directly or through others, takes a name from outside of the
place where it is put in. -/
def CallsAvoid (p : Ref N α → Bool) (x : N) (t : Text N α) (S : Scope N) : Prop :=
  ∀ u ∈ calls t S, x ∉ outside p (resolved (expand u.1 (binders u.2)) (.inlined :: u.2))

instance (p : Ref N α → Bool) (x : N) (t : Text N α) (S : Scope N) :
    Decidable (CallsAvoid p x t S) :=
  inferInstanceAs (Decidable (∀ u ∈ calls t S, _))

theorem exists_ref_of_mem_outside {t : Text N α} {S : Scope N} {x : N}
    (h : x ∈ outside p (resolved t S)) : ∃ r ∈ refs t, r.name = x := by
  obtain ⟨d, hd, -, hname, -⟩ := mem_outside.mp h
  exact ⟨d.1, by rw [← map_fst_resolved t S]; exact List.mem_map_of_mem hd, hname⟩

/-- What a text takes from outside without referring to it, it takes through the stored texts. -/
theorem not_mem_taken_expand_iff {t : Text N α} {S : Scope N} {x : N}
    (h : ∀ r ∈ refs t, r.name ≠ x) :
    x ∉ taken p (expand t (binders S)) S ↔ CallsAvoid p x t S := by
  have hout : x ∉ outside p (resolved (expand t (binders S)) S) := by
    intro hmem
    obtain ⟨r, hr, hname⟩ := exists_ref_of_mem_outside hmem
    exact h r (mem_refs_of_mem_refs_expand t hr) hname
  rw [taken, mentions, outside_append, List.mem_append, not_or, inlinedIn_expand, CallsAvoid]
  simp only [hout, not_false_eq_true, true_and, mem_outside, List.mem_flatMap, List.mem_map]
  constructor
  · rintro hall u hu ⟨d, hd, hx⟩
    exact hall ⟨d, ⟨_, ⟨u, hu, rfl⟩, hd⟩, hx⟩
  · rintro hall ⟨d, ⟨_, ⟨u, hu, rfl⟩, hd⟩, hx⟩
    exact hall u hu ⟨d, hd, hx⟩

/-! The outermost block may be that of a whole statement, whose parts are then read separately. A
part takes from outside what it refers to itself, and what the definitions take that it needs. -/

/-- The place of the innermost binder of a name, counted from outside. -/
def boundAt : Scope N → N → Option ℕ
  | [], _ => none
  | .binders names :: S, x => if x ∈ names then some S.length else boundAt S x
  | .rebind y :: S, x => if x = y then some S.length else boundAt S x
  | .inlined :: S, x => boundAt S x

/-- The definitions of a block, with their names. -/
def Defs.entries : Defs N α → List (N × Text N α)
  | .nil => []
  | .cons x _ t rest => (x, t) :: rest.entries

/-- The definitions of the outermost block that the references in question need, directly or through
others. -/
inductive Needs (p : Ref N α → Bool) (defs : Defs N α) (R : List (Ref N α × Scope N)) : N → Prop
  | refers {d : Ref N α × Scope N} : d ∈ R → p d.1 = true → boundAt d.2 d.1.name = some 0 →
      Needs p defs R d.1.name
  | through {x : N} {t : Text N α} {d : Ref N α × Scope N} : Needs p defs R x →
      (x, t) ∈ defs.entries → d ∈ mentions t [.binders defs.names] → p d.1 = true →
        boundAt d.2 d.1.name = some 0 → Needs p defs R d.1.name

/-- References take a name from outside, by themselves or through the definitions that they need. -/
def TakesWith (p : Ref N α → Bool) (defs : Defs N α) (R : List (Ref N α × Scope N)) (x : N) : Prop :=
  x ∈ outside p R ∨
    ∃ y t, Needs p defs R y ∧ (y, t) ∈ defs.entries ∧ x ∈ taken p t [.binders defs.names]

end Outside

section Same

variable [DecidableEq N] {p : Ref N α → Bool}

theorem same_nil : Same p ([] : List (Ref N α × List (List N))) [] := rfl

theorem same_singleton {r : Ref N α} {S₁ : List (List N)} {S₂ : Scope N} :
    Same p [(r, S₁)] [(r, S₂)] ↔ (p r → declares S₁ r = denotes S₂ r.name) := by
  by_cases hp : p r = true
  · simp [Same, hp]
  · simp [Same, hp]

/-- Listings of the same references can be compared part by part. -/
theorem same_append {D D' : List (Ref N α × List (List N))} {R R' : List (Ref N α × Scope N)}
    (h : D.map Prod.fst = R.map Prod.fst) :
    Same p (D ++ D') (R ++ R') ↔ Same p D R ∧ Same p D' R' := by
  have hlength : (D.filter fun d => p d.1).length = (R.filter fun d => p d.1).length := by
    have hfilter : ∀ {β : Type} (l : List (Ref N α × β)),
        (l.filter fun d => p d.1).map Prod.fst = (l.map Prod.fst).filter p := by
      intro β l
      rw [List.filter_map]
      rfl
    rw [← List.length_map (f := Prod.fst), hfilter, h, ← hfilter, List.length_map]
  simp only [Same, List.filter_append, List.map_append]
  refine ⟨fun heq => List.append_inj heq (by simp [hlength]), ?_⟩
  rintro ⟨hD, hD'⟩
  rw [hD, hD']

/-- One more block around a reference. The source language sees the definitions `inner` of it, and
the target language all of them. -/
theorem declares_cons_iff {inner names : List N} {S₁ : List (List N)} {S₂ : Scope N} {r : Ref N α}
    (hsub : ∀ x ∈ inner, x ∈ names) (hlevel : level S₂ = S₁.length) :
    declares (inner :: S₁) r = denotes (.binders names :: S₂) r.name ↔
      (r.name ∈ names → r.global = false ∧ r.name ∈ inner) ∧
        (r.global = true ∨ r.name ∉ inner → declares S₁ r = denotes S₂ r.name) := by
  -- a name of an outer block is never on the level of this one
  have hfresh : denotesBefore S₁ r.name ≠ .binder (level S₂) := fun h =>
    absurd (level_lt_of_denotesBefore h) (by omega)
  by_cases hglobal : r.global = true
  · by_cases hname : r.name ∈ names
    · simp [declares, denotes, hglobal, hname]
    · simp [declares, denotes, hglobal, hname]
  · by_cases hinner : r.name ∈ inner
    · simp [declares, denotes, denotesBefore, hglobal, hinner, hsub _ hinner, hlevel]
    · by_cases hname : r.name ∈ names
      · simp [declares, denotes, denotesBefore, hglobal, hinner, hname, hfresh]
      · simp [declares, denotes, denotesBefore, hglobal, hinner, hname]

mutual

theorem exists_declared_of_mem_free : ∀ (t : Text N α) {B : List N} {r : Ref N α}
    {S : List (List N)}, r ∈ free t B → r.global = true ∨ r.name ∉ S.flatten →
      ∃ S', (r, S') ∈ declared t S ∧ (r.global = true ∨ r.name ∉ S'.flatten)
  | .nil, _, _, _, h, _ => by simp [free] at h
  | .leaf r', _, r, S, h, hS => by
    obtain rfl : r = r' := by simpa [free] using h
    exact ⟨S, by simp [declared], hS⟩
  | .call r' _ _, B, r, S, h, hS => by
    obtain ⟨-, rfl⟩ : isBound B r' = true ∧ r = r' := by
      rw [free] at h
      split at h <;> simp_all
    exact ⟨S, by simp [declared], hS⟩
  | .both t u, B, r, S, h, hS => by
    rw [free, List.mem_append] at h
    rcases h with h | h
    · obtain ⟨S', hmem, hS'⟩ := exists_declared_of_mem_free t h hS
      exact ⟨S', by simp [declared, hmem], hS'⟩
    · obtain ⟨S', hmem, hS'⟩ := exists_declared_of_mem_free u h hS
      exact ⟨S', by simp [declared, hmem], hS'⟩
  | .block defs body, B, r, S, h, hS => by
    rw [free, List.mem_append] at h
    rcases h with h | h
    · obtain ⟨S', hmem, hS'⟩ := exists_declaredDefs_of_mem_freeDefs defs h hS
      exact ⟨S', by simp [declared, hmem], hS'⟩
    · obtain ⟨hbody, hout⟩ := List.mem_filter.mp h
      obtain ⟨S', hmem, hS'⟩ := exists_declared_of_mem_free body
        (S := defs.names.reverse :: S) hbody
        (by simp only [List.flatten_cons, List.mem_append, List.mem_reverse]; simp at hout; tauto)
      exact ⟨S', by simp [declared, hmem], hS'⟩
  | .rebind _ t, B, r, S, h, hS => by
    obtain ⟨S', hmem, hS'⟩ := exists_declared_of_mem_free t (by simpa [free] using h) hS
    exact ⟨S', by simpa [declared] using hmem, hS'⟩
  | .inlined _, _, _, _, h, _ => by simp [free] at h

theorem exists_declaredDefs_of_mem_freeDefs : ∀ (defs : Defs N α) {before B : List N} {r : Ref N α}
    {S : List (List N)}, r ∈ freeDefs defs before B → r.global = true ∨ r.name ∉ S.flatten →
      ∃ S', (r, S') ∈ declaredDefs defs before S ∧ (r.global = true ∨ r.name ∉ S'.flatten)
  | .nil, _, _, _, _, h, _ => by simp [freeDefs] at h
  | .cons x self t rest, before, B, r, S, h, hS => by
    rw [freeDefs, List.mem_append] at h
    rcases h with h | h
    · obtain ⟨ht, hout⟩ := List.mem_filter.mp h
      obtain ⟨S', hmem, hS'⟩ := exists_declared_of_mem_free t
        (S := (if self then x :: before else before) :: S) ht
        (by simp only [List.flatten_cons, List.mem_append]; simp at hout; tauto)
      exact ⟨S', by simp [declaredDefs, hmem], hS'⟩
    · obtain ⟨S', hmem, hS'⟩ := exists_declaredDefs_of_mem_freeDefs rest h hS
      exact ⟨S', by simp [declaredDefs, hmem], hS'⟩

end

theorem same_renamed_iff {r : Ref N α} {x : Option N} {S₁ : List (List N)} {S₂ : Scope N} :
    Same p (declared (renamed x (.leaf r)) S₁) (resolved (renamed x (.leaf r)) S₂) ↔
      (p r → x ≠ some r.name) ∧ (p r → declares S₁ r = denotes S₂ r.name) := by
  cases x with
  | none => simp [renamed, declared, resolved, same_singleton]
  | some x =>
    have hne := declares_ne_rebound S₁ r
    by_cases hx : r.name = x
    · simp only [renamed, declared, resolved, same_singleton, denotes, hx, if_true]
      refine ⟨fun h => ⟨fun hp => absurd (h hp) hne, fun hp => absurd (h hp) hne⟩, ?_⟩
      rintro ⟨h, -⟩ hp
      exact absurd rfl (h hp)
    · simp [renamed, declared, resolved, same_singleton, denotes, hx, Ne.symm hx]

mutual

/-- **When the two readings agree.** On what is written for a text, the source language and the
target language agree exactly if the text is hygienic and the references that are free in it mean
the same outside. -/
theorem same_expand_iff (p : Ref N α → Bool) : ∀ (t : Text N α) (S₁ : List (List N))
    (S₂ : Scope N), level S₂ = S₁.length → NoForward t (binders S₂) →
      (Same p (declared (expand t (binders S₂)) S₁) (resolved (expand t (binders S₂)) S₂) ↔
        Hygienic p t (binders S₂) ∧
          ∀ r ∈ free t (binders S₂), p r → declares S₁ r = denotes S₂ r.name)
  | .nil, _, _, _, _ => by simp [expand, declared, resolved, same_nil, Hygienic, free]
  | .leaf r, S₁, S₂, _, _ => by
    rw [expand]
    split
    case isTrue hbound => simp [same_renamed_iff, Hygienic, free, hbound]
    case isFalse hbound => simp [declared, resolved, same_singleton, Hygienic, free, hbound]
  | .call r x body, S₁, S₂, _, _ => by
    rw [expand]
    split
    case isTrue hbound => simp [same_renamed_iff, Hygienic, free, hbound]
    case isFalse hbound =>
      cases x <;> simp [renamed, declared, resolved, same_nil, Hygienic, free, hbound]
  | .both t u, S₁, S₂, hlevel, hforward => by
    rw [expand, declared, resolved,
      same_append (by rw [map_fst_declared, map_fst_resolved]),
      same_expand_iff p t S₁ S₂ hlevel hforward.1, same_expand_iff p u S₁ S₂ hlevel hforward.2]
    simp only [Hygienic, free, List.forall_mem_append]
    tauto
  | .block defs body, S₁, S₂, hlevel, hforward => by
    have hdefs := same_expandDefs_iff p defs [] defs.names S₁ S₂ (by simp) hlevel hforward.1
    have hbody := same_expand_iff p body (defs.names.reverse :: S₁) (.binders defs.names :: S₂)
      (by simp [level, hlevel]) hforward.2
    simp only [binders] at hdefs hbody
    rw [expand, declared, resolved, names_expandDefs,
      same_append (by rw [map_fst_declaredDefs, map_fst_resolvedDefs]), hdefs, hbody]
    have hcons : ∀ r : Ref N α, declares (defs.names.reverse :: S₁) r =
        denotes (.binders defs.names :: S₂) r.name ↔ (r.name ∈ defs.names → r.global = false) ∧
          (r.global = true ∨ r.name ∉ defs.names → declares S₁ r = denotes S₂ r.name) := by
      intro r
      rw [declares_cons_iff (by simp) hlevel]
      simp +contextual
    simp only [Hygienic, free, List.forall_mem_append, List.mem_filter, hcons, Bool.or_eq_true,
      decide_eq_true_eq]
    grind
  | .rebind x t, S₁, S₂, hlevel, hforward => by
    have ih := same_expand_iff p t S₁ (.rebind x :: S₂) hlevel hforward
    simp only [binders] at ih
    rw [expand, declared, resolved, ih]
    have hne := fun r : Ref N α => declares_ne_rebound S₁ r
    simp only [Hygienic, free, denotes]
    grind
  | .inlined _, _, _, _, _ => by simp [expand, declared, resolved, same_nil, Hygienic, free]

theorem same_expandDefs_iff (p : Ref N α → Bool) : ∀ (defs : Defs N α)
    (before names : List N) (S₁ : List (List N)) (S₂ : Scope N),
    (∀ x, x ∈ names ↔ x ∈ before ∨ x ∈ defs.names) → level S₂ = S₁.length →
      NoForwardDefs defs (binders (.binders names :: S₂)) →
      (Same p (declaredDefs (expandDefs defs (binders (.binders names :: S₂))) before S₁)
          (resolvedDefs (expandDefs defs (binders (.binders names :: S₂))) (.binders names :: S₂)) ↔
        HygienicDefs p defs before names (binders (.binders names :: S₂)) ∧
          ∀ r ∈ freeDefs defs before (binders (.binders names :: S₂)),
            p r → declares S₁ r = denotes S₂ r.name)
  | .nil, _, _, _, _, _, _, _ => by
    simp [expandDefs, declaredDefs, resolvedDefs, same_nil, HygienicDefs, freeDefs]
  | .cons x self t rest, before, names, S₁, S₂, hnames, hlevel, hforward => by
    obtain ⟨hlater, hforward, hrest⟩ := hforward
    have iht := same_expand_iff p t ((if self then x :: before else before) :: S₁)
      (.binders names :: S₂) (by simp [level, hlevel]) hforward
    have ihrest := same_expandDefs_iff p rest (x :: before) names S₁ S₂
      (fun y => by rw [hnames, Defs.names, List.mem_cons, List.mem_cons]; tauto) hlevel hrest
    have hsub : ∀ y ∈ (if self then x :: before else before), y ∈ names := by
      intro y hy
      rw [hnames, Defs.names, List.mem_cons]
      split at hy
      · rcases List.mem_cons.mp hy with rfl | hy
        · exact .inr (.inl rfl)
        · exact .inl hy
      · exact .inl hy
    -- a name of the block that the definition does not see is its own
    have hself : ∀ r ∈ free t (binders (.binders names :: S₂)), r.global = false →
        r.name ∈ names → r.name ∉ (if self then x :: before else before) →
          r.name = x ∧ self = false ∧ x ∉ before := by
      intro r hr hglobal hname hinner
      obtain ⟨S, hS, hout⟩ := exists_declared_of_mem_free t (S := []) hr (.inr (by simp))
      have hnot : r.name ∉ rest.names := fun hmem =>
        absurd (hlater _ hS hglobal hmem) (by simpa [hglobal] using hout)
      rw [hnames, Defs.names, List.mem_cons] at hname
      grind
    have hpoint : ∀ r ∈ free t (binders (.binders names :: S₂)),
        (declares ((if self then x :: before else before) :: S₁) r =
          denotes (.binders names :: S₂) r.name ↔
        (if r.global then r.name ∉ names else r.name = x → self = true ∨ x ∈ before) ∧
          (r.global = true ∨ r.name ∉ (if self then x :: before else before) →
            declares S₁ r = denotes S₂ r.name)) := by
      intro r hr
      rw [declares_cons_iff hsub hlevel]
      refine and_congr_left fun _ => ?_
      have hx : x ∈ names := (hnames x).mpr (.inr (by simp [Defs.names]))
      have := hself r hr
      grind
    rw [expandDefs, declaredDefs, resolvedDefs,
      same_append (by rw [map_fst_declared, map_fst_resolved]), iht, ihrest]
    simp only [HygienicDefs, freeDefs, List.forall_mem_append, List.mem_filter, Bool.or_eq_true,
      decide_eq_true_eq]
    grind

end

end Same

end Scoping
