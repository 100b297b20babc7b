import SqliteScanner.Expressions.Aggregates

/-!
# The structure of what is written

A written expression is a tree of SQL, and most of its nodes are the nodes of the expression that was
given. `Keeps` says which: a comparison is written as the same comparison, and an `AND`, an `OR`, a `NOT`,
an `IS NULL`, a `BETWEEN`, an `IN`, a `CASE` and a `COALESCE` as what they are, each over what is written
for its own operands in their order. So are the operators `+`, `-`, `*`, `&`, `|`, `~` and `||`.

Operands can be converted on the way. A conversion wraps an operand and does not look into it
(`Conversion`). A constant is converted by DuckDB, and then it is written as a literal. What is known to be
`NULL` is written as `NULL` where it is converted.

There are two exceptions. Functions are translated, and divisions, shifts and the arithmetic of dates are
among them, so that nothing is said about their calls here. And an `OR` whose disjuncts have a conjunct in
common is written as an `AND`.

## Main definitions

* `Conversion` — what conversions make of a term
* `AsOperand` — what stands for an operand
* `Keeps` — the term has the structure of the expression
-/

namespace SqliteScanner.Expressions

open Lexing Precedence Sql

/-! ### Conversions -/

/-- The other arguments of a conversion. -/
def IsLiteral : Term .expr → Prop
  | .number _ | .string _ => True
  | _ => False

/-- What the conversions of the writer make of a term. -/
inductive Conversion (x : Term .expr) : Term .expr → Prop where
  | same : Conversion x x
  | cast {y : Term .expr} (type : Name) (h : Conversion x y) : Conversion x (.cast y type)
  | collate {y : Term .expr} (name : Name) (h : Conversion x y) : Conversion x (.collate y name)
  | call {y : Term .expr} {f : Name} (hf : f ∈ conversions) {literals : List (Term .expr)}
      (hliterals : ∀ z ∈ literals, IsLiteral z) (h : Conversion x y) :
      Conversion x (.call f false (args (y :: literals)) .absent)
  /-- `(y <> 0)`. -/
  | isTrue {y : Term .expr} (h : Conversion x y) :
      Conversion x (.paren (.binary .ne y (nat 0).term))
  /-- `(CASE y WHEN 1 THEN 'true' WHEN 0 THEN 'false' END)`. -/
  | booleanText {y : Term .expr} (h : Conversion x y) :
      Conversion x (.paren (.caseWhen (.present y)
        (whens [((nat 1).term, .string "true".toList), ((nat 0).term, .string "false".toList)])
        .absent))
  /-- `(y || ' 00:00:00')`. -/
  | atMidnight {y : Term .expr} (h : Conversion x y) :
      Conversion x (.paren (.binary .concat y (.string " 00:00:00".toList)))

theorem forall_isLiteral_pair {x y : Term .expr} (hx : IsLiteral x) (hy : IsLiteral y) :
    ∀ z ∈ [x, y], IsLiteral z := by
  simp [hx, hy]

variable {w : Writer} {p : Prop}

theorem conversion_writeSimpleCast {x : Operand p} {source target : LogicalType}
    {y : Converted p source target} (h : writeSimpleCast x source target = .ok (some y)) :
    Conversion x.term y.term := by
  unfold writeSimpleCast at h
  split at h
  case h_8 =>
    split_ifs at h with hinteger
    · cases h
      exact .isTrue .same
    · cases h
  case h_9 =>
    split_ifs at h
    · cases h
      exact .cast _ .same
    · cases h
      exact .same
    · cases h
  case h_10 =>
    split_ifs at h
    · cases h
      exact .cast _ .same
    · cases h
      exact .booleanText .same
    · cases h
      exact .same
    · cases h
  case h_11 =>
    split_ifs at h
    · cases h
      exact .atMidnight .same
    · cases h
  case h_12 =>
    split_ifs at h
    · cases h
      exact .call List.mem_cons_self (forall_isLiteral_pair trivial trivial) .same
    · cases h
  case h_13 => cases h
  -- an integer is converted by checking its range, if that is necessary
  all_goals
    split at h
    · cases h
      exact .same
    · split at h <;> cases h
      exact .same

/-- A conversion keeps the operand, unless that is `NULL`. -/
theorem conversion_writeCast {x : Operand p} {source target : LogicalType} {tryCast : Bool}
    {y : Converted p source target} (h : writeCast w x source target tryCast = .ok y) :
    (source = .sqlNull ∧ y.term = .null) ∨ Conversion x.term y.term := by
  unfold writeCast at h
  split at h
  · cases h
    exact .inr .same
  split at h
  · rename_i hnull
    cases h
    exact .inl ⟨hnull, rfl⟩
  · obtain ⟨-, -, h⟩ := Runs.bind_eq_ok.mp h
    obtain ⟨simple, hsimple, h⟩ := Runs.bind_eq_ok.mp h
    cases simple with
    | some z =>
      cases h
      exact .inr (conversion_writeSimpleCast hsimple)
    | none =>
      obtain ⟨-, -, h⟩ := Runs.bind_eq_ok.mp h
      obtain ⟨-, -, h⟩ := Runs.bind_eq_ok.mp h
      obtain ⟨-, -, h⟩ := Runs.bind_eq_ok.mp h
      cases h
      refine .inr (.call ?_ (forall_isLiteral_pair trivial trivial) .same)
      cases tryCast <;> simp [conversions]

theorem conversion_columnRead {column : TargetColumn} {x : Atom}
    {y : Operand (column.type = .varchar)} (h : columnRead w column x = .ok (some y)) :
    Conversion x.term y.term := by
  obtain ⟨type, textAffinity, realAffinity, binaryCollation⟩ := column
  unfold columnRead at h
  dsimp only at h y
  split at h
  case h_1 => cases h
  case h_2 =>
    split_ifs at h <;> cases h
    exact .cast _ .same
  case h_3 =>
    cases h
    exact .call (by simp [conversions]) (by simp) .same
  case h_4 =>
    cases h
    exact .call (by simp [conversions]) (by simp) .same
  case h_5 =>
    cases h
    exact .cast _ .same
  case h_6 =>
    split_ifs at h <;> cases h
    · exact .collate _ (.cast _ .same)
    · exact .collate _ .same
    · exact .cast _ .same
  case h_7 => cases h

theorem conversion_writeColumnRef {qualifiers : List Text} {name : Text}
    {x : Operand (w.Weak (.columnRef qualifiers name))}
    (h : writeColumnRef w qualifiers name = .ok x) :
    Conversion (.column (if w.unqualifiedColumns then none else qualifiers.getLast?) name) x.term := by
  unfold writeColumnRef at h
  dsimp only at h
  split at h
  · cases h
    exact .same
  · obtain ⟨read, hread, h⟩ := Runs.bind_eq_ok.mp h
    cases read with
    | none =>
      cases h
      exact .same
    | some y =>
      obtain ⟨-, -, h⟩ := Runs.bind_eq_ok.mp h
      cases h
      exact conversion_columnRead hread

/-! ### The structure of an expression -/

/-- The conjuncts of a condition. -/
def Syn.toList : Syn .exprs → List Expr
  | .nil => []
  | .cons expr exprs => expr :: toList exprs

/-- `SQLiteGetConjuncts`. -/
def getConjuncts : Expr → List Expr
  | .conjunction false first others => first :: others.toList
  | expr => [expr]

/-- A conjunct of the first disjunct is one of all the others. -/
def HasCommonConjunct (w : Writer) (first : Expr) (others : List Expr) : Prop :=
  ∃ c ∈ getConjuncts first, ∀ other ∈ others, ∃ c' ∈ getConjuncts other, w.equals c' c = true

/-- A term is the literal of a constant, or of what DuckDB converts it to. -/
def LiteralOf (w : Writer) (value : Value) (x : Term .expr) : Prop :=
  (value.isNull ∧ x = .null) ∨ ∃ target value', w.tryCastAs value target = some value' ∧
    ∃ y, writeConstant w value' = .ok y ∧ y.term = x

/-- What stands for an operand, if `K` holds of what is written for it: the literal of a constant, `NULL`
for what has no other value, or what is written, with conversions. -/
def AsOperand (w : Writer) (expr : Expr) (K : Term .expr → Prop) (x : Term .expr) : Prop :=
  (∃ value, tryGetConstantValue w expr = some value ∧ LiteralOf w value x) ∨
  (w.inferType expr = .sqlNull ∧ x = .null) ∨
  ∃ y, K y ∧ Conversion y x

/-- What is written for a part of an expression. -/
abbrev Image : Part → Type
  | .expr => Term .expr
  | .exprs => List (Term .expr)
  | .checks => List (Term .expr × Term .expr)
  | .orders | .opt => Unit

def unaryOperators : List (String × UnaryOp) := [("-", .minus), ("~", .tilde)]

def binaryOperators : List (String × BinaryOp) :=
  [("||", .concat), ("+", .add), ("-", .sub), ("*", .mul), ("&", .bitAnd), ("|", .bitOr)]

/-- The arithmetic of one integer that is written with the same operator. -/
def KeepsSign (w : Writer) (name : Text) (operand : Expr) (op : UnaryOp) : Prop :=
  (w.inferType operand).isInteger = true ∧ ∃ s, (s, op) ∈ unaryOperators ∧ s.toList = name

/-- The arithmetic of two numbers that is written with the same operator, and `||`. -/
def KeepsOperator (w : Writer) (name : Text) (left right : Expr) (op : BinaryOp) : Prop :=
  (op = .concat ∨
    ((w.inferType left).isNumericOrDecimal && (w.inferType right).isNumericOrDecimal) = true) ∧
  ∃ s, (s, op) ∈ binaryOperators ∧ s.toList = name

/-- A term has the structure of an expression. -/
def Keeps (w : Writer) : {p : Part} → Syn p → Image p → Prop
  | _, .constant value, x => ∃ y, writeConstant w value = .ok y ∧ y.term = x
  | _, .columnRef qualifiers name, x =>
    Conversion (.column (if w.unqualifiedColumns then none else qualifiers.getLast?) name) x
  | _, .function _ name (.cons operand .nil) _ _ _, x => ∀ op, KeepsSign w (lower name) operand op →
    ∃ y, x = .paren (.unary op y) ∧ AsOperand w operand (Keeps w operand) y
  | _, .function _ name (.cons left (.cons right _)) _ _ _, x =>
    ∀ op, KeepsOperator w (lower name) left right op → ∃ l r, x = .paren (.binary op l r) ∧
      AsOperand w left (Keeps w left) l ∧ AsOperand w right (Keeps w right) r
  | _, .function _ _ .nil _ _ _, _ => True
  | _, .comparison type left right, x => ∃ l r,
    x = .paren (.binary (comparisonOperator type) l r) ∧
      AsOperand w left (Keeps w left) l ∧ AsOperand w right (Keeps w right) r
  | _, .conjunction isOr first others, x =>
    (isOr = true → ¬ HasCommonConjunct w first others.toList) → ∃ y ys,
      x = .paren (chain (if isOr then .or_ else .and_) y ys) ∧
        AsOperand w first (Keeps w first) y ∧ Keeps w others ys
  | _, .operator .isNull (.cons child _), x => ∃ y,
    x = .paren (.binary .is_ y .null) ∧ AsOperand w child (Keeps w child) y
  | _, .operator .isNotNull (.cons child _), x => ∃ y,
    x = .paren (.binary .isNot y .null) ∧ AsOperand w child (Keeps w child) y
  | _, .operator .not_ (.cons child _), x => ∃ y,
    x = .paren (.unary .not_ y) ∧ AsOperand w child (Keeps w child) y
  | _, .operator .coalesce children, x => ∃ ys, Keeps w children ys ∧
    x = .call Fn.coalesce false (args (if ys.length = 1 then ys ++ [.null] else ys)) .absent
  | _, .operator .nullif (.cons first (.cons second _)), x => ∃ y z result,
    x = .paren (.caseWhen .absent (whens [(.binary .eq y z, .null)]) (.present result)) ∧
      AsOperand w first (Keeps w first) y ∧ AsOperand w second (Keeps w second) z ∧
      AsOperand w first (Keeps w first) result
  | _, .operator .compareIn (.cons first list), x => ∃ y ys,
    x = .paren (.inList false y (args ys)) ∧ AsOperand w first (Keeps w first) y ∧ Keeps w list ys
  | _, .operator .compareNotIn (.cons first list), x => ∃ y ys,
    x = .paren (.inList true y (args ys)) ∧ AsOperand w first (Keeps w first) y ∧ Keeps w list ys
  -- an operator without its operands is not written
  | _, .operator _ _, _ => False
  | _, .caseExpr condition result checks otherwise, x => ∃ c r branches o,
    x = .paren (.caseWhen .absent (whens ((c, r) :: branches)) (.present o)) ∧
      AsOperand w condition (Keeps w condition) c ∧ AsOperand w result (Keeps w result) r ∧
      Keeps w checks branches ∧ AsOperand w otherwise (Keeps w otherwise) o
  | _, .cast child target tryCast, x =>
    (∃ value y, tryGetConstantValue w (.cast child target tryCast) = some value ∧
      writeConstant w value = .ok y ∧ y.term = x) ∨ AsOperand w child (Keeps w child) x
  | _, .between input lower upper, x => ∃ y l u,
    x = .paren (.between y l u) ∧ AsOperand w input (Keeps w input) y ∧
      AsOperand w lower (Keeps w lower) l ∧ AsOperand w upper (Keeps w upper) u
  | _, .nil, xs => xs = []
  | _, .cons expr exprs, xs => ∃ y ys, xs = y :: ys ∧ AsOperand w expr (Keeps w expr) y ∧ Keeps w exprs ys
  | _, .noCheck, xs => xs = []
  | _, .check condition result checks, xs => ∃ c r ys, xs = (c, r) :: ys ∧
    AsOperand w condition (Keeps w condition) c ∧ AsOperand w result (Keeps w result) r ∧
      Keeps w checks ys
  | _, .noOrder, _ | _, .order _ _ _ _, _ | _, .absent, _ | _, .present _, _ => True

/-! ### Operands -/

section Operands

variable {o : Node w}

/-- What is written for a node has the structure of its expression. -/
def Node.Faithful (o : Node w) : Prop := ∀ x, o.written = .ok x → Keeps w o.expr x.term

/-- A term stands for a node that is an operand. -/
def Node.Stands (o : Node w) (x : Term .expr) : Prop := AsOperand w o.expr (Keeps w o.expr) x

theorem Node.Faithful.stands (h : o.Faithful) {x : Operand (w.Weak o.expr)}
    (hx : o.written = .ok x) : o.Stands x.term :=
  .inr (.inr ⟨_, h x hx, .same⟩)

theorem stands_null {value : Value} (hvalue : tryGetConstantValue w o.expr = some value)
    (hnull : value.isNull = true) : o.Stands .null :=
  .inl ⟨value, hvalue, .inl ⟨hnull, rfl⟩⟩

theorem stands_writeCast {x : Operand p} (hx : Keeps w o.expr x.term) {source target : LogicalType}
    (hsource : w.inferType o.expr = source) {tryCast : Bool} {y : Converted p source target}
    (h : writeCast w x source target tryCast = .ok y) : o.Stands y.term := by
  rcases conversion_writeCast h with ⟨hnull, hy⟩ | hconversion
  · exact .inr (.inl ⟨hsource.trans hnull, hy⟩)
  · exact .inr (.inr ⟨_, hx, hconversion⟩)

theorem stands_writeCastOf (ho : o.Faithful) {target : LogicalType} {tryCast : Bool}
    {y : Operand (target = .varchar)} (h : writeCastOf w o target tryCast = .ok y) :
    o.Stands y.term := by
  obtain ⟨⟨source, hsource⟩, -, h⟩ := Runs.bind_eq_ok.mp h
  obtain ⟨x, hx, h⟩ := Runs.bind_eq_ok.mp h
  obtain ⟨z, hz, rfl⟩ := Runs.map_eq_ok.mp h
  exact stands_writeCast (ho x hx) hsource.1 hz

theorem stands_writeAs (ho : o.Faithful) {target : LogicalType}
    {y : Operand (w.inferType o.expr = .varchar)} (h : writeAs w o target = .ok y) :
    o.Stands y.term := by
  unfold writeAs at h
  split at h
  · rename_i value hvalue
    split at h
    · rename_i hnull
      obtain rfl := Except.ok.inj h
      exact stands_null hvalue hnull
    split at h
    · rename_i value' hcast
      obtain ⟨x, hx, rfl⟩ := Runs.map_eq_ok.mp h
      exact .inl ⟨value, hvalue, .inr ⟨_, _, hcast, x, hx, rfl⟩⟩
    · cases h
  · obtain ⟨⟨source, hsource⟩, -, h⟩ := Runs.bind_eq_ok.mp h
    obtain ⟨x, hx, h⟩ := Runs.bind_eq_ok.mp h
    dsimp only at h
    split at h
    · obtain rfl := Except.ok.inj h
      exact ho.stands hx
    obtain ⟨isSubtype, -, h⟩ := Runs.bind_eq_ok.mp h
    split at h
    · obtain rfl := Except.ok.inj h
      exact ho.stands hx
    split at h
    · obtain rfl := Except.ok.inj h
      exact ho.stands hx
    · obtain ⟨z, hz, rfl⟩ := Runs.map_eq_ok.mp h
      refine stands_writeCast ?_ hsource.1 hz
      exact ho x hx

theorem stands_writeCondition (ho : o.Faithful) {y : Operand (w.Weak o.expr)}
    (h : writeCondition w o = .ok y) : o.Stands y.term := by
  unfold writeCondition at h
  split at h
  · exact ho.stands h
  obtain ⟨type, -, h⟩ := Runs.bind_eq_ok.mp h
  split at h
  · exact ho.stands h
  · obtain ⟨x, hx, rfl⟩ := Runs.map_eq_ok.mp h
    exact stands_writeCastOf ho hx

theorem stands_writeConjunct (ho : o.Faithful) {y : Operand True}
    (h : writeConjunct w o = .ok y) : o.Stands y.term := by
  obtain ⟨x, hx, rfl⟩ := Runs.map_eq_ok.mp h
  exact stands_writeCondition ho hx

theorem stands_writeComparisonOperand (ho : o.Faithful) {target type : LogicalType}
    (htype : comparisonType w o = .ok type) {y : Operand True}
    (h : writeComparisonOperand w target o type = .ok y) : o.Stands y.term := by
  unfold writeComparisonOperand at h
  unfold comparisonType at htype
  split at h
  · rename_i value hvalue
    split at h
    · rename_i hnull
      obtain rfl := Except.ok.inj h
      exact stands_null hvalue hnull
    split at h
    · rename_i value' hcast
      split at h
      · obtain ⟨x, hx, rfl⟩ := Runs.map_eq_ok.mp h
        exact .inl ⟨value, hvalue, .inr ⟨_, _, hcast, x, hx, rfl⟩⟩
      · cases h
    · cases h
  · rename_i hvalue
    rw [hvalue] at htype
    obtain ⟨known, -, htype⟩ := Runs.bind_eq_ok.mp htype
    obtain ⟨x, hx, h⟩ := Runs.bind_eq_ok.mp h
    obtain ⟨x', hx', rfl⟩ := Runs.map_eq_ok.mp hx
    split at h
    · obtain rfl := Except.ok.inj h
      exact ho.stands hx'
    · obtain ⟨z, hz, rfl⟩ := Runs.map_eq_ok.mp h
      refine stands_writeCast ?_ (known.2.1.trans (Except.ok.inj htype)) hz
      exact ho x' hx'

/-- Terms stand for nodes, one for each. -/
abbrev Stand (nodes : List (Node w)) (xs : List (Term .expr)) : Prop :=
  List.Forall₂ Node.Stands nodes xs

theorem Stand.keeps {nodes : List (Node w)} {xs : List (Term .expr)} (h : Stand nodes xs) :
    Keeps w (.ofList (nodes.map (·.expr))) xs := by
  induction h with
  | nil => rfl
  | cons hx _ ih => exact ⟨_, _, rfl, hx, ih⟩

/-- What a function writes for each node stands for it, if it does so for one node. -/
theorem stand_of_mapM {α : Type} {f : Node w → Except Refusal α} (term : α → Term .expr)
    {nodes : List (Node w)} {xs : List α} (hf : ∀ o ∈ nodes, ∀ x, f o = .ok x → o.Stands (term x))
    (h : nodes.mapM f = .ok xs) : Stand nodes (xs.map term) := by
  have hforall := Runs.forall₂_of_mapM h
  rw [Stand, List.forall₂_map_right_iff]
  clear h
  induction hforall with
  | nil => exact .nil
  | cons hx _ ih =>
    rw [List.forall_mem_cons] at hf
    exact .cons (hf.1 _ hx) (ih hf.2)

theorem stand_writeComparisonOperands {nodes : List (Node w)} (hnodes : ∀ o ∈ nodes, o.Faithful)
    {xs : List (Operand True)} (h : writeComparisonOperands w nodes = .ok xs) :
    Stand nodes (xs.map (·.term)) := by
  obtain ⟨types, htypes, htarget⟩ := Runs.bind_eq_ok.mp h
  have hzip : ∃ target, (nodes.zip types).mapM
      (fun o => writeComparisonOperand w target o.1 o.2) = .ok xs := by
    cases types with
    | nil => cases htarget
    | cons first others =>
      obtain ⟨target, -, hrequire⟩ := Runs.bind_eq_ok.mp htarget
      obtain ⟨-, -, hzip⟩ := Runs.bind_eq_ok.mp hrequire
      exact ⟨target, hzip⟩
  obtain ⟨target, hzip⟩ := hzip
  replace htypes := Runs.forall₂_of_mapM htypes
  replace hzip := Runs.forall₂_of_mapM hzip
  rw [Stand, List.forall₂_map_right_iff]
  clear h htarget
  induction htypes generalizing xs with
  | nil =>
    cases hzip
    exact .nil
  | cons htype _ ih =>
    rw [List.forall_mem_cons] at hnodes
    cases hzip with
    | cons hx hxs => exact .cons (stands_writeComparisonOperand hnodes.1 htype hx) (ih hnodes.2 hxs)

end Operands

/-! ### Comparisons and conditions -/

section Conditions

variable {nodes : List (Node w)} {y : Atom}

theorem keeps_writeComparison {type : ComparisonType} {left right : Node w} (hleft : left.Faithful)
    (hright : right.Faithful) (h : writeComparison w type left right = .ok y) :
    Keeps w (.comparison type left.expr right.expr) y.term := by
  obtain ⟨xs, hxs, h⟩ := Runs.bind_eq_ok.mp h
  have hstand := stand_writeComparisonOperands (by simp [hleft, hright]) hxs
  split at h
  · obtain rfl := Except.ok.inj h
    obtain _ | ⟨hl, _ | ⟨hr, -⟩⟩ := hstand
    exact ⟨_, _, rfl, hl, hr⟩
  · cases h

theorem keeps_writeBetween {input lower upper : Node w} (hinput : input.Faithful)
    (hlower : lower.Faithful) (hupper : upper.Faithful)
    (h : writeBetween w input lower upper = .ok y) :
    Keeps w (.between input.expr lower.expr upper.expr) y.term := by
  obtain ⟨xs, hxs, h⟩ := Runs.bind_eq_ok.mp h
  have hstand := stand_writeComparisonOperands (by simp [hinput, hlower, hupper]) hxs
  split at h
  · obtain rfl := Except.ok.inj h
    obtain _ | ⟨hx, _ | ⟨hl, _ | ⟨hu, -⟩⟩⟩ := hstand
    exact ⟨_, _, _, rfl, hx, hl, hu⟩
  · cases h

theorem exists_chain_of_writeConditions {op : BinaryOp} {first : Node w} (hfirst : first.Faithful)
    (hnodes : ∀ o ∈ nodes, o.Faithful) (h : writeConditions w op first nodes = .ok y) :
    ∃ x xs, y.term = .paren (chain op x xs) ∧ first.Stands x ∧ Stand nodes xs := by
  obtain ⟨x, hx, h⟩ := Runs.bind_eq_ok.mp h
  obtain ⟨xs, hxs, rfl⟩ := Runs.map_eq_ok.mp h
  exact ⟨_, _, rfl, stands_writeConjunct hfirst hx,
    stand_of_mapM _ (fun o ho _ => stands_writeConjunct (hnodes o ho)) hxs⟩

/-- The collected conjuncts are in all disjuncts. -/
theorem containsExpression_of_mem_commonConjuncts {first : List (Node w)}
    {others : List (List (Node w))} {c : Node w} (h : c ∈ commonConjuncts w first others) :
    c ∈ first ∧ ∀ disjunct ∈ others, containsExpression w disjunct c = true := by
  refine List.foldlRecOn (motive := fun common => ∀ c ∈ common, c ∈ first ∧ ∀ disjunct ∈ others,
    containsExpression w disjunct c = true) first _ (fun c hc => absurd hc List.not_mem_nil) ?_ c h
  intro common hcommon conjunct hconjunct
  split
  · rename_i hall
    rw [Bool.and_eq_true, List.all_eq_true] at hall
    intro c hc
    rcases List.mem_append.mp hc with hc | hc
    · exact hcommon c hc
    · obtain rfl := List.mem_singleton.mp hc
      exact ⟨hconjunct, hall.2⟩
  · exact hcommon

/-- Each disjunct comes with its conjuncts. -/
def HasConjuncts (disjunct : Node w × List (Node w)) : Prop :=
  disjunct.2.map (·.expr) = getConjuncts disjunct.1.expr

theorem commonConjuncts_eq_nil {first : Node w × List (Node w)}
    {others : List (Node w × List (Node w))} (hfirst : HasConjuncts first)
    (hothers : ∀ d ∈ others, HasConjuncts d)
    (h : ¬ HasCommonConjunct w first.1.expr (others.map (·.1.expr))) :
    commonConjuncts w first.2 (others.map (·.2)) = [] := by
  refine List.eq_nil_iff_forall_not_mem.mpr fun c hc => h ?_
  obtain ⟨hmem, hall⟩ := containsExpression_of_mem_commonConjuncts hc
  refine ⟨c.expr, hfirst ▸ List.mem_map_of_mem hmem, fun other hother => ?_⟩
  obtain ⟨d, hd, rfl⟩ := List.mem_map.mp hother
  obtain ⟨c', hc', hequals⟩ := List.any_eq_true.mp (hall d.2 (List.mem_map_of_mem hd))
  exact ⟨c'.expr, hothers d hd ▸ List.mem_map_of_mem hc', hequals⟩

end Conditions

/-! ### Operators -/

section Operators

variable {nodes : List (Node w)} {y : Atom}

theorem stands_operand {o : Node w} (ho : o.Faithful) {x : Operand True} (h : o.operand = .ok x) :
    o.Stands x.term := by
  obtain ⟨x', hx', rfl⟩ := Runs.map_eq_ok.mp h
  exact ho.stands hx'

theorem stands_writeArg (hnodes : ∀ o ∈ nodes, o.Faithful) {x : Operand True}
    (h : writeArg nodes 0 = .ok x) : ∃ o rest, nodes = o :: rest ∧ o.Stands x.term := by
  cases nodes with
  | nil => cases h
  | cons o rest =>
    obtain ⟨o', ho', h⟩ := Runs.bind_eq_ok.mp h
    obtain rfl := Except.ok.inj ho'
    exact ⟨o, rest, rfl, stands_operand (hnodes o List.mem_cons_self) h⟩

theorem stand_writeIn {negated : Bool} (hnodes : ∀ o ∈ nodes, o.Faithful)
    (h : writeIn w negated nodes = .ok y) : ∃ o rest x xs, nodes = o :: rest ∧
      y.term = .paren (.inList negated x (args xs)) ∧ o.Stands x ∧ Stand rest xs := by
  obtain ⟨xs, hxs, h⟩ := Runs.bind_eq_ok.mp h
  have hstand := stand_writeComparisonOperands hnodes hxs
  split at h
  · obtain rfl := Except.ok.inj h
    obtain _ | ⟨hx, hrest⟩ := hstand
    refine ⟨_, _, _, _, rfl, ?_, hx, hrest⟩
    simp only [paren, Atom.of, inList, List.map_map]
    rfl
  · cases h

theorem stand_writeCoalesce (hnodes : ∀ o ∈ nodes, o.Faithful)
    (h : writeCoalesce w nodes = .ok y) : ∃ xs, Stand nodes xs ∧ y.term =
      .call Fn.coalesce false (args (if xs.length = 1 then xs ++ [.null] else xs)) .absent := by
  obtain ⟨type, -, hcommon⟩ := Runs.bind_eq_ok.mp h
  obtain ⟨xs, hxs, rfl⟩ := Runs.map_eq_ok.mp hcommon
  have hstand : Stand nodes (xs.map Phrase.term) := by
    refine stand_of_mapM _ (fun o ho x hx => ?_) hxs
    obtain ⟨x', hx', rfl⟩ := Runs.map_eq_ok.mp hx
    exact stands_writeAs (hnodes o ho) hx'
  refine ⟨_, hstand, ?_⟩
  rw [← hstand.length_eq]
  split
  · exact congrArg (fun xs => Term.call Fn.coalesce false (args xs) .absent) List.map_append
  · rfl

theorem keeps_writeNullif (hnodes : ∀ o ∈ nodes, o.Faithful)
    (h : writeOperator w .nullif nodes = .ok y) :
    Keeps w (.operator .nullif (.ofList (nodes.map (·.expr)))) y.term := by
  obtain ⟨first, hfirst, hsecond⟩ := Runs.bind_eq_ok.mp h
  obtain ⟨second, hsecond, hoperands⟩ := Runs.bind_eq_ok.mp hsecond
  obtain ⟨xs, hxs, hresult⟩ := Runs.bind_eq_ok.mp hoperands
  match nodes, hnodes with
  | [], _ => cases hfirst
  | [_], _ => cases hsecond
  | first :: second :: rest, hnodes =>
    cases hfirst
    cases hsecond
    rw [List.forall_mem_cons, List.forall_mem_cons] at hnodes
    have hstand := stand_writeComparisonOperands (by simp [hnodes.1, hnodes.2.1]) hxs
    split at hresult
    · obtain ⟨type, -, hresult⟩ := Runs.bind_eq_ok.mp hresult
      obtain ⟨result, hwrite, rfl⟩ := Runs.map_eq_ok.mp hresult
      obtain _ | ⟨hx, _ | ⟨hz, -⟩⟩ := hstand
      exact ⟨_, _, _, rfl, hx, hz, stands_writeAs hnodes.1 hwrite⟩
    · cases hresult

theorem keeps_writeOperator {type : OperatorType} (hnodes : ∀ o ∈ nodes, o.Faithful)
    (h : writeOperator w type nodes = .ok y) :
    Keeps w (.operator type (.ofList (nodes.map (·.expr)))) y.term := by
  cases type with
  | isNull | isNotNull =>
    obtain ⟨x, hx, hy⟩ := Runs.bind_eq_ok.mp h
    obtain ⟨o, rest, rfl, hstands⟩ := stands_writeArg hnodes hx
    obtain rfl := Except.ok.inj hy
    exact ⟨_, rfl, hstands⟩
  | not_ =>
    obtain ⟨o, ho, hcondition⟩ := Runs.bind_eq_ok.mp h
    obtain ⟨x, hx, rfl⟩ := Runs.map_eq_ok.mp hcondition
    cases nodes with
    | nil => cases ho
    | cons o' rest =>
      obtain rfl := Except.ok.inj ho
      exact ⟨_, rfl, stands_writeCondition (hnodes _ List.mem_cons_self) hx⟩
  | coalesce =>
    obtain ⟨xs, hstand, hterm⟩ := stand_writeCoalesce hnodes h
    cases nodes <;> exact ⟨xs, hstand.keeps, hterm⟩
  | nullif => exact keeps_writeNullif hnodes h
  | compareIn | compareNotIn =>
    obtain ⟨o, rest, x, xs, rfl, hterm, hx, hxs⟩ := stand_writeIn hnodes h
    exact ⟨x, xs, hterm, hx, hxs.keeps⟩

theorem stands_writeSign {name : Text} {operand : Node w} {op : UnaryOp} (ho : operand.Faithful)
    (hop : KeepsSign w name operand.expr op) (h : writeSign w name operand = .ok y) :
    ∃ x, y.term = .paren (.unary op x) ∧ operand.Stands x := by
  obtain ⟨hinteger, s, hs, hname⟩ := hop
  obtain ⟨⟨type, htype⟩, -, h⟩ := Runs.bind_eq_ok.mp h
  obtain rfl := htype.1
  dsimp only at h
  rw [dif_pos (isNumeric_of_isInteger hinteger)] at h
  simp only [unaryOperators, List.mem_cons, List.not_mem_nil, or_false, Prod.mk.injEq] at hs
  rcases hs with ⟨rfl, rfl⟩ | ⟨rfl, rfl⟩
  all_goals
    simp [← hname, oneOf, hinteger] at h
    obtain ⟨x, hx, h⟩ := Runs.bind_eq_ok.mp h
    obtain ⟨x', hx', rfl⟩ := Runs.map_eq_ok.mp hx
    obtain rfl := Except.ok.inj h
    exact ⟨_, rfl, ho.stands hx'⟩

theorem stands_writeBinary {op : BinaryOp} {left right : Node w} (hleft : left.Faithful)
    (hright : right.Faithful) (h : writeBinary w op left right = .ok y) :
    ∃ l r, y.term = .paren (.binary op l r) ∧ left.Stands l ∧ right.Stands r := by
  obtain ⟨l, hl, h⟩ := Runs.bind_eq_ok.mp h
  obtain ⟨r, hr, rfl⟩ := Runs.map_eq_ok.mp h
  exact ⟨_, _, rfl, stands_operand hleft hl, stands_operand hright hr⟩

theorem stands_writeArithmetic {f : FunctionNode w} {left right : Node w} {rest : List (Node w)}
    {op : BinaryOp} (hargs : f.args = left :: right :: rest) (hleft : left.Faithful)
    (hright : right.Faithful) (hop : KeepsOperator w f.name left.expr right.expr op)
    (h : writeArithmetic w f = .ok y) :
    ∃ l r, y.term = .paren (.binary op l r) ∧ left.Stands l ∧ right.Stands r := by
  rw [writeArithmetic, hargs] at h
  obtain ⟨_, ⟨⟩, h⟩ := Runs.bind_eq_ok.mp h
  rw [if_neg (by simp)] at h
  obtain ⟨_, ⟨⟩, h⟩ := Runs.bind_eq_ok.mp h
  obtain ⟨leftType, hleftType, h⟩ := Runs.bind_eq_ok.mp h
  obtain ⟨⟨rightType, hrightType⟩, -, h⟩ := Runs.bind_eq_ok.mp h
  dsimp only at h
  obtain ⟨known, -, hknown⟩ := Runs.bind_eq_ok.mp hleftType
  obtain ⟨htypes, s, hs, hname⟩ := hop
  rw [known.2.1.trans (Except.ok.inj hknown), hrightType.1] at htypes
  simp only [binaryOperators, List.mem_cons, List.not_mem_nil, or_false, Prod.mk.injEq] at hs
  obtain ⟨rfl, rfl⟩ | hs := hs
  · simp [← hname, oneOf] at h
    obtain ⟨-, -, h⟩ := Runs.bind_eq_ok.mp h
    obtain ⟨l, hl, h⟩ := Runs.bind_eq_ok.mp h
    obtain ⟨r, hr, rfl⟩ := Runs.map_eq_ok.mp h
    exact ⟨_, _, rfl, stands_writeAs hleft hl, stands_writeAs hright hr⟩
  rcases hs with ⟨rfl, rfl⟩ | ⟨rfl, rfl⟩ | ⟨rfl, rfl⟩ | ⟨rfl, rfl⟩ | ⟨rfl, rfl⟩
  all_goals
    have htypes := htypes.resolve_left nofun
    simp [← hname, oneOf, writeAdditive, htypes, additiveOperator] at h
    try obtain ⟨type, -, h⟩ := Runs.bind_eq_ok.mp h
    obtain ⟨-, -, h⟩ := Runs.bind_eq_ok.mp h
    exact stands_writeBinary hleft hright h

theorem keeps_writeCase {first : Node w × Node w} {others : List (Node w × Node w)}
    {otherwise : Node w} (hfirst : first.1.Faithful ∧ first.2.Faithful)
    (hothers : ∀ check ∈ others, check.1.Faithful ∧ check.2.Faithful) (hotherwise : otherwise.Faithful)
    (h : writeCase w first others otherwise = .ok y) :
    Keeps w (.caseExpr first.1.expr first.2.expr
      (.ofChecks (others.map fun check => (check.1.expr, check.2.expr))) otherwise.expr) y.term := by
  obtain ⟨type, -, hbranch⟩ := Runs.bind_eq_ok.mp h
  obtain ⟨x, hx, hbranches⟩ := Runs.bind_eq_ok.mp hbranch
  obtain ⟨xs, hxs, hresult⟩ := Runs.bind_eq_ok.mp hbranches
  obtain ⟨result, hwrite, rfl⟩ := Runs.map_eq_ok.mp hresult
  have hstands : ∀ {check : Node w × Node w} {x : Phrase × Phrase},
      check.1.Faithful ∧ check.2.Faithful →
      (do
        let condition ← writeCondition w check.1
        let result ← writeAs w check.2 type
        Except.ok (condition.phrase, result.phrase)) = .ok x →
      check.1.Stands x.1.term ∧ check.2.Stands x.2.term := by
    intro check x hcheck hx
    obtain ⟨c, hc, hx⟩ := Runs.bind_eq_ok.mp hx
    obtain ⟨r, hr, rfl⟩ := Runs.map_eq_ok.mp hx
    exact ⟨stands_writeCondition hcheck.1 hc, stands_writeAs hcheck.2 hr⟩
  have hchecks : Keeps w (.ofChecks (others.map fun check => (check.1.expr, check.2.expr)))
      (xs.map (Prod.map Phrase.term Phrase.term)) := by
    have hforall := Runs.forall₂_of_mapM hxs
    clear h hbranch hbranches hxs hresult hx
    induction hforall with
    | nil => rfl
    | cons hx _ ih =>
      rw [List.forall_mem_cons] at hothers
      have hx := hstands hothers.1 hx
      exact ⟨_, _, _, rfl, hx.1, hx.2, ih hothers.2⟩
  have hx := hstands hfirst hx
  exact ⟨_, _, _, _, rfl, hx.1, hx.2, hchecks, stands_writeAs hotherwise hwrite⟩

end Operators

end SqliteScanner.Expressions
