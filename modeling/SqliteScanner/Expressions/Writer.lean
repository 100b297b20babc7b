import SqliteScanner.Expressions.Structure

/-!
# Written expressions are unambiguous

`writeExpression` walks an expression and composes what is written for it from what is written for its
operands. Everything that the walk returns can be an operand, so that the text is read back as what has
been composed, alone and in every place of a longer text that is made for an operand.

What is composed follows the tree (`Keeps`), but for what the writer does on purpose. It translates
functions, adds and leaves out conversions, evaluates constants, and moves the conjuncts that all disjuncts
of an `OR` have in front of the `OR`.

## Main definitions

* `writeParts`, `writeExpression` — the walk, and the source's `WriteExpression`
* `writeDMLCondition` — the condition of a DML statement and the checks of its columns

## Main results

* `expr_writeParts` — what is written for an expression carries the strength that its type demands
* `faithful_writeParts` — what is written for an expression has its structure
* `read_written` — what is written for an expression or a condition is read back as it was composed,
  alone, before other text, and in every place for an operand
-/

namespace SqliteScanner.Expressions

open Lexing Precedence Sql

/-! ### The walk -/

/-- What the walk returns for a part. An expression comes with its conjuncts. -/
abbrev Written (w : Writer) : Part → Type
  | .expr => Node w × List (Node w)
  | .exprs => List (Node w × List (Node w))
  | .checks => List (Node w × Node w)
  | .orders => List (Bool × Bool × Node w)
  | .opt => Option (Node w)

section Walk

variable {w : Writer}

/-- An expression that is not an `AND` is its only conjunct (`SQLiteGetConjuncts`). -/
def Node.alone (o : Node w) : Written w .expr := (o, [o])

/-- An expression that is written as an atom. -/
def Node.ofAtom (expr : Expr) (written : Except Refusal Atom) : Node w :=
  ⟨expr, do
    let x ← written
    .ok x⟩

variable (w)

/-- `WriteFunction`. -/
def writeFunction (f : FunctionNode w) : Except Refusal (Operand (w.Weak f.expr)) :=
  if isAggregateFunction f.name then do
    let x ← writeAggregate w f
    .ok x
  else
    match h : (scalarFunctions w).find? fun row => oneOf row.names f.name with
    | some row => row.write f (List.find?_some (p := fun row : Row w => oneOf row.names f.name) h)
    | none => .error (.internal ("SQLiteSQLWriter: unsupported function " ++ text f.name ++
        " - should have been blocked by SupportsPushdown"))

/-- `WriteExpression`, of a function. -/
def writeFunctionNode (f : FunctionNode w) : Except Refusal (Operand (w.Weak f.expr)) := do
  match ← tryGetIntervalLiteral w f.expr with
  | some _ => .error (.notSupported "unsupported use of an interval")
  | none => writeFunction w f

/-- `WriteExpression`, of a cast. Casts of literals are evaluated locally. -/
def writeCastNode (child : Node w) (target : LogicalType) (tryCast : Bool) :
    Except Refusal (Operand (w.Weak (.cast child.expr target tryCast))) :=
  if isConstant child.expr then
    match tryGetConstantValue w (.cast child.expr target tryCast) with
    | some value => do
      let x ← writeConstant w value
      .ok x
    | none => .error (.internal
        "SQLiteSQLWriter: cast of literal failed - should have been blocked by SupportsPushdown")
  else do
    let x ← writeCastOf w child target tryCast
    .ok (x.imp fun h => h ▸ w.inferType_cast child.expr tryCast)

/-- The walk over an expression and its parts. -/
def writeParts : {p : Part} → Syn p → Written w p
  | _, .constant value => (Node.ofAtom (.constant value) (writeConstant w value)).alone
  | _, .columnRef qualifiers name =>
    Node.alone ⟨.columnRef qualifiers name, writeColumnRef w qualifiers name⟩
  | _, .function isSystem name args distinct filter orders =>
    let f : FunctionNode w := ⟨isSystem, name, (writeParts args).map (·.1), distinct,
      writeParts filter, writeParts orders⟩
    Node.alone ⟨f.expr, writeFunctionNode w f⟩
  | _, .comparison type left right =>
    (Node.ofAtom (.comparison type left right)
      (writeComparison w type (writeParts left).1 (writeParts right).1)).alone
  | _, .conjunction true first others =>
    (Node.ofAtom (.conjunction true first others)
      (writeDisjunction w (writeParts first) (writeParts others))).alone
  | _, .conjunction false first others =>
    let children := (writeParts others).map (·.1)
    (.ofAtom (.conjunction false first others)
        (writeConditions w .and_ (writeParts first).1 children),
      (writeParts first).1 :: children)
  | _, .operator type children =>
    (Node.ofAtom (.operator type children)
      (writeOperator w type ((writeParts children).map (·.1)))).alone
  | _, .caseExpr condition result checks otherwise =>
    (Node.ofAtom (.caseExpr condition result checks otherwise)
      (writeCase w ((writeParts condition).1, (writeParts result).1) (writeParts checks)
        (writeParts otherwise).1)).alone
  | _, .cast child target tryCast =>
    Node.alone ⟨.cast (writeParts child).1.expr target tryCast,
      writeCastNode w (writeParts child).1 target tryCast⟩
  | _, .between input lower upper =>
    (Node.ofAtom (.between input lower upper)
      (writeBetween w (writeParts input).1 (writeParts lower).1 (writeParts upper).1)).alone
  | _, .nil => []
  | _, .cons expr exprs => writeParts expr :: writeParts exprs
  | _, .noCheck => []
  | _, .check condition result checks =>
    ((writeParts condition).1, (writeParts result).1) :: writeParts checks
  | _, .noOrder => []
  | _, .order descending nullsFirst key orders =>
    (descending, nullsFirst, (writeParts key).1) :: writeParts orders
  | _, .absent => none
  | _, .present expr => some (writeParts expr).1

/-- `WriteExpression`. -/
def writeExpression (expr : Expr) : Except Refusal (Term .expr) := do
  let x ← (writeParts w expr).1.written
  .ok x.term

/-- `WriteCondition`, of an expression. -/
def writeConditionOf (expr : Expr) : Except Refusal (Term .expr) := do
  let x ← writeCondition w (writeParts w expr).1
  .ok x.term

variable {w}

/-- What the walk returns is for the parts that it has been given. -/
def Written.Of : {p : Part} → Written w p → Syn p → Prop
  | .expr, x, s => x.1.expr = s
  | .exprs, xs, s => .ofList (xs.map (·.1.expr)) = s
  | .checks, checks, s => .ofChecks (checks.map fun check => (check.1.expr, check.2.expr)) = s
  | .orders, orders, s => .ofOrders (orders.map fun o => (o.1, o.2.1, o.2.2.expr)) = s
  | .opt, o, s => .ofOption (o.map (·.expr)) = s

theorem of_writeParts {p : Part} (s : Syn p) : Written.Of (writeParts w s) s := by
  induction s with
  | function isSystem name args distinct filter orders hargs hfilter horders =>
    have hexprs : Syn.ofList (((writeParts w args).map (·.1)).map (·.expr)) = args := by
      rw [List.map_map]
      exact hargs
    exact congr (congrArg₂ (fun args filter => Syn.function isSystem name args distinct filter)
      hexprs hfilter) horders
  | conjunction isOr first others =>
    cases isOr with
    | true => rfl
    | false => rfl
  | cast child target tryCast hchild => exact congrArg (Syn.cast · target tryCast) hchild
  | cons expr exprs hexpr hexprs => exact congrArg₂ Syn.cons hexpr hexprs
  | order descending nullsFirst key orders hkey horders =>
    exact congrArg₂ (Syn.order descending nullsFirst) hkey horders
  | present expr hexpr => exact congrArg Syn.present hexpr
  | check condition result checks hcondition hresult hchecks =>
    exact congr (congrArg₂ Syn.check hcondition hresult) hchecks
  | _ => rfl

theorem expr_writeParts (expr : Expr) : (writeParts w expr).1.expr = expr := of_writeParts expr

theorem writeParts_exprs :
    ∀ exprs : Syn .exprs, writeParts w exprs = exprs.toList.map fun expr => writeParts w expr
  | .nil => by rw [Syn.toList, writeParts, List.map_nil]
  | .cons expr exprs => by rw [Syn.toList, writeParts, List.map_cons, writeParts_exprs exprs]

theorem toList_writeParts (exprs : Syn .exprs) :
    (writeParts w exprs).map (·.1.expr) = exprs.toList := by
  rw [writeParts_exprs, List.map_map]
  exact (List.map_congr_left fun expr _ => expr_writeParts expr).trans (List.map_id _)

theorem hasConjuncts_writeParts (expr : Expr) : HasConjuncts (writeParts w expr) := by
  cases expr with
  | conjunction isOr first others =>
    cases isOr with
    | true => rfl
    | false =>
      refine congrArg₂ List.cons (expr_writeParts first) ?_
      rw [List.map_map]
      exact toList_writeParts others
  | cast child target tryCast => rfl
  | _ => rfl

/-- Everything in what the walk returns has the structure of its expression. -/
def Written.Faithful : {p : Part} → Written w p → Prop
  | .expr, x => x.1.Faithful
  | .exprs, xs => ∀ x ∈ xs, x.1.Faithful
  | .checks, checks => ∀ check ∈ checks, check.1.Faithful ∧ check.2.Faithful
  | .orders, _ | .opt, _ => True

theorem faithful_ofAtom {expr : Expr} {written : Except Refusal Atom}
    (h : ∀ y, written = .ok y → Keeps w expr y.term) : (Node.ofAtom (w := w) expr written).Faithful := by
  intro x hx
  obtain ⟨y, hy, rfl⟩ := Runs.map_eq_ok.mp hx
  exact h y hy

theorem faithful_writeCastNode {child : Node w} (h : child.Faithful) {target : LogicalType}
    {tryCast : Bool} {x : Operand (w.Weak (.cast child.expr target tryCast))}
    (hx : writeCastNode w child target tryCast = .ok x) :
    Keeps w (.cast child.expr target tryCast) x.term := by
  unfold writeCastNode at hx
  split at hx
  · split at hx
    · rename_i value hvalue
      obtain ⟨y, hy, rfl⟩ := Runs.map_eq_ok.mp hx
      exact .inl ⟨value, y, hvalue, hy, rfl⟩
    · cases hx
  · obtain ⟨y, hy, rfl⟩ := Runs.map_eq_ok.mp hx
    exact .inr (stands_writeCastOf h hy)

/-- What is written for an operator is what `WriteArithmetic` writes. -/
theorem exists_writeArithmetic {f : FunctionNode w} {x : Operand (w.Weak f.expr)} {s : String}
    (hs : s ∈ unaryOperators.map (·.1) ++ binaryOperators.map (·.1)) (hname : s.toList = f.name)
    (h : writeFunctionNode w f = .ok x) : ∃ y, writeArithmetic w f = .ok y ∧ y.term = x.term := by
  obtain ⟨interval, -, h⟩ := Runs.bind_eq_ok.mp h
  cases interval with
  | some _ => cases h
  | none =>
    have hoperators : ∀ s ∈ unaryOperators.map (·.1) ++ binaryOperators.map (·.1),
        ¬ isAggregateFunction s.toList = true ∧ oneOf arithmeticOperators s.toList = true := by
      decide +kernel
    obtain ⟨haggregate, harithmetic⟩ := hname ▸ hoperators s hs
    have hfind : (scalarFunctions w).find? (fun row => oneOf row.names f.name) =
        some (.atomic (_, writeArithmetic w)) := List.find?_cons_of_pos harithmetic
    dsimp only at h
    rw [writeFunction, if_neg haggregate] at h
    split at h
    · rename_i row hrow
      obtain rfl := Option.some.inj (hfind.symm.trans hrow)
      obtain ⟨y, hy, rfl⟩ := Runs.map_eq_ok.mp h
      exact ⟨y, hy, rfl⟩
    · cases h

theorem faithful_writeFunctionNode {f : FunctionNode w} {x : Operand (w.Weak f.expr)}
    (hargs : ∀ o ∈ f.args, o.Faithful) (h : writeFunctionNode w f = .ok x) :
    Keeps w f.expr x.term := by
  obtain ⟨isSystem, identifier, args, distinct, filter, orders⟩ := f
  match args with
  | [] => trivial
  | [operand] =>
    intro op hop
    obtain ⟨-, s, hs, hname⟩ := id hop
    obtain ⟨y, hy, hterm⟩ :=
      exists_writeArithmetic (List.mem_append_left _ (List.mem_map_of_mem hs)) hname h
    exact hterm ▸ stands_writeSign (hargs operand List.mem_cons_self) hop hy
  | left :: right :: rest =>
    intro op hop
    obtain ⟨-, s, hs, hname⟩ := id hop
    obtain ⟨y, hy, hterm⟩ :=
      exists_writeArithmetic (List.mem_append_right _ (List.mem_map_of_mem hs)) hname h
    rw [List.forall_mem_cons, List.forall_mem_cons] at hargs
    exact hterm ▸ stands_writeArithmetic rfl hargs.1 hargs.2.1 hop hy

theorem faithful_writeParts {p : Part} (s : Syn p) : Written.Faithful (writeParts w s) := by
  induction s with
  | constant value => exact faithful_ofAtom fun y hy => ⟨y, hy, rfl⟩
  | columnRef qualifiers name => exact fun x hx => conversion_writeColumnRef hx
  | function isSystem name args distinct filter orders hargs =>
    exact fun x hx => faithful_writeFunctionNode (List.forall_mem_map.mpr hargs) hx
  | comparison type left right hleft hright =>
    refine faithful_ofAtom fun y hy => ?_
    have hkeeps := keeps_writeComparison hleft hright hy
    rwa [expr_writeParts, expr_writeParts] at hkeeps
  | conjunction isOr first others hfirst hothers =>
    have hnodes : ∀ o ∈ (writeParts w others).map (·.1), o.Faithful :=
      List.forall_mem_map.mpr hothers
    have hstand : ∀ {op y}, writeConditions w op (writeParts w first).1
        ((writeParts w others).map (·.1)) = .ok y → ∃ x xs, y.term = .paren (chain op x xs) ∧
          AsOperand w first (Keeps w first) x ∧ Keeps w others xs := by
      intro op y hy
      obtain ⟨x, xs, hterm, hx, hxs⟩ := exists_chain_of_writeConditions hfirst hnodes hy
      have hkeeps := hxs.keeps
      rw [List.map_map] at hkeeps
      rw [Node.Stands, expr_writeParts] at hx
      exact ⟨x, xs, hterm, hx, of_writeParts (w := w) others ▸ hkeeps⟩
    cases isOr with
    | false => exact faithful_ofAtom fun y hy _ => hstand hy
    | true =>
      refine faithful_ofAtom fun y hy hcommon => ?_
      have hconjuncts : ∀ d ∈ writeParts w others, HasConjuncts d := by
        rw [writeParts_exprs]
        exact List.forall_mem_map.mpr fun expr _ => hasConjuncts_writeParts expr
      have hnil := commonConjuncts_eq_nil (hasConjuncts_writeParts first)
        hconjuncts (by rw [expr_writeParts, toList_writeParts]; exact hcommon rfl)
      rw [writeDisjunction, hnil] at hy
      exact hstand hy
  | operator type children hchildren =>
    refine faithful_ofAtom fun y hy => ?_
    have hkeeps := keeps_writeOperator (List.forall_mem_map.mpr hchildren) hy
    rw [List.map_map] at hkeeps
    exact of_writeParts (w := w) children ▸ hkeeps
  | caseExpr condition result checks otherwise hcondition hresult hchecks hotherwise =>
    refine faithful_ofAtom fun y hy => ?_
    have hfirst : (writeParts w condition).1.Faithful ∧ (writeParts w result).1.Faithful :=
      ⟨hcondition, hresult⟩
    have hkeeps := keeps_writeCase hfirst hchecks hotherwise hy
    have hof : Syn.ofChecks _ = checks := of_writeParts (w := w) checks
    rwa [expr_writeParts, expr_writeParts, expr_writeParts, hof] at hkeeps
  | cast child target tryCast hchild => exact fun x hx => faithful_writeCastNode hchild hx
  | between input lower upper hinput hlower hupper =>
    refine faithful_ofAtom fun y hy => ?_
    have hkeeps := keeps_writeBetween hinput hlower hupper hy
    rwa [expr_writeParts, expr_writeParts, expr_writeParts] at hkeeps
  | nil => exact fun x hx => absurd hx List.not_mem_nil
  | cons expr exprs hexpr hexprs => exact List.forall_mem_cons.mpr ⟨hexpr, hexprs⟩
  | noCheck => exact fun x hx => absurd hx List.not_mem_nil
  | check condition result checks hcondition hresult hchecks =>
    exact List.forall_mem_cons.mpr ⟨⟨hcondition, hresult⟩, hchecks⟩
  | _ => trivial

end Walk

/-! ### The condition of a DML statement -/

section DML

/-- The target of an `UPDATE` or a `DELETE`, and the columns of it that the statement reads. -/
structure DMLTarget where
  binding : Text
  columns : List (Text × LogicalType)
  isRead : Text → Bool

/-- The types of the columns whose values are checked. -/
def checkedType : LogicalType → Option String
  | .bigint => some "BIGINT"
  | .double => some "DOUBLE"
  | .varchar => some "VARCHAR"
  | _ => none

variable (w : Writer)

/-- The check of a column, if there is one. -/
def writeCheck (target : DMLTarget) (column : Text × LogicalType) :
    Except Refusal (Option Atom) :=
  match checkedType column.2 with
  | none => .ok none
  | some type =>
    if w.allVarchar || !target.isRead column.1 then .ok none
    else do
      requireExtensionFunctions w "checking the values of a column"
      let name ← writeConstant w (.varchar column.1)
      .ok (some (call (duckdb "check_type")
        [Sql.column (some target.binding) column.1, literal type, name]))

/-- The checks of the columns that the statement reads. -/
def writeChecks (target : DMLTarget) : Except Refusal (List Atom) := do
  let checks ← target.columns.mapM (writeCheck w target)
  .ok checks.reduceOption

/-- `WriteDMLCondition`: the checks follow the condition, if there is one. -/
def writeDMLCondition (target : DMLTarget) (condition : Text) : Except Refusal Text := do
  let checks ← writeChecks w target
  let result := List.intercalate " AND ".toList (checks.map (·.term.text))
  .ok (if condition.isEmpty then (if checks.isEmpty then [] else " WHERE ".toList ++ result)
    else " WHERE ".toList ++
      (if checks.isEmpty then condition else condition ++ (" AND ".toList ++ result)))

/-- The checks are joined to a condition by `AND`s. -/
theorem writeDMLCondition_eq {target : DMLTarget} {p : Prop} (x : Operand p) {s : Text}
    (h : writeDMLCondition w target x.term.text = .ok s) :
    ∃ checks, writeChecks w target = .ok checks ∧
      s = " WHERE ".toList ++ (joined .and_ x checks).term.text := by
  obtain ⟨checks, hchecks, h⟩ := Runs.bind_eq_ok.mp h
  refine ⟨checks, hchecks, ?_⟩
  have hand : render (spaced BinaryOp.and_.tokens) ++ [' '] = " AND ".toList := by decide
  have hne : x.term.text.isEmpty = false := by
    cases htext : x.term.text with
    | nil =>
      have hread := read_text x.binds.1
      rw [htext] at hread
      cases hread
    | cons => rfl
  rw [← Except.ok.inj h, hne]
  cases checks with
  | nil => rfl
  | cons check checks =>
    simp only [joined, text_chain, hand, List.map_cons, List.map_map, List.intercalate_cons_cons,
      List.append_assoc, List.isEmpty_cons, Bool.false_eq_true, if_false]
    rfl

end DML

/-! ### What is read -/

section Reading

variable {w : Writer}

/-- What the writer writes for an expression, or for an expression as a condition. -/
def Writes (w : Writer) (expr : Expr) (x : Term .expr) : Prop :=
  writeExpression w expr = .ok x ∨ writeConditionOf w expr = .ok x

theorem Writes.exists_operand {expr : Expr} {x : Term .expr} (h : Writes w expr x) :
    ∃ y : Operand (w.Weak expr), y.term = x := by
  have hexpr := expr_writeParts (w := w) expr
  rcases h with h | h
  · obtain ⟨y, -, hy⟩ := Runs.bind_eq_ok.mp h
    exact ⟨y.imp (hexpr ▸ ·), Except.ok.inj hy⟩
  · obtain ⟨y, -, hy⟩ := Runs.bind_eq_ok.mp h
    exact ⟨y.imp (hexpr ▸ ·), Except.ok.inj hy⟩

theorem keeps_writeExpression {expr : Expr} {x : Term .expr} (h : writeExpression w expr = .ok x) :
    Keeps w expr x := by
  obtain ⟨y, hy, hx⟩ := Runs.bind_eq_ok.mp h
  have hkeeps := faithful_writeParts (w := w) expr y hy
  rwa [Except.ok.inj hx, expr_writeParts] at hkeeps

theorem Writes.asOperand {expr : Expr} {x : Term .expr} (h : Writes w expr x) :
    AsOperand w expr (Keeps w expr) x := by
  rcases h with h | h
  · exact .inr (.inr ⟨x, keeps_writeExpression h, .same⟩)
  · obtain ⟨y, hy, hx⟩ := Runs.bind_eq_ok.mp h
    have hstands := stands_writeCondition (faithful_writeParts (w := w) expr) hy
    rwa [Node.Stands, Except.ok.inj hx, expr_writeParts] at hstands

theorem readsAs_binary {p q : Prop} (x : Operand p) (y : Operand q) (op : BinaryOp) :
    ReadsAs (x.term.text ++ (render (spaced op.tokens) ++ (' ' :: y.term.text)))
      (.binary op x.term y.term) := by
  rw [← text_binary]
  exact readsAs_text (binary op x y).grouped

/-- A writer of queries over columns that are `BOOLEAN`. -/
def booleanColumns : Writer where
  statementMode := false
  unqualifiedColumns := false
  inferType
    | .columnRef _ _ => .boolean
    | _ => .invalid
  targetColumn _ _ := none
  allVarchar := false
  tryCastAs _ _ := none
  defaultTryCastAs _ _ := none
  supportsValue _ := true
  tryGetMaxLogicalType _ _ := none
  tryBindComparison _ _ := none
  equals
    | .columnRef _ name, .columnRef _ name' => name = name'
    | _, _ => false
  ieeeFloatingPointOps := true
  errorOnDivisionByZero := true
  typeName _ := []
  typeString _ := []
  valueString _ := []
  exprString _ := []
  inferType_column _ _ _ h := absurd h (Option.some_ne_none _).symm
  inferType_cast _ _ := List.mem_pair.mpr (.inr rfl)
  inferType_extremum _ _ _ _ _ _ _ _ := List.mem_pair.mpr (.inr rfl)

/-- A column that is named with one letter. -/
def letter (c : Char) : Expr := .columnRef [] [c]

end Reading

end SqliteScanner.Expressions
