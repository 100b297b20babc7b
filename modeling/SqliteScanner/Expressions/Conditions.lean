import SqliteScanner.Expressions.Operands

/-!
# Comparisons and conditions

Comparisons, `BETWEEN`, `IN`, `CASE`, `COALESCE`, `NULLIF`, `AND`, `OR` and `NOT`, of expressions that
have been written. All of them are atomic: they are calls or in parentheses. A condition need not be,
since it can be a column.

The conjuncts that every disjunct of an `OR` has are written once, before the `OR` of what remains. What
remains of a disjunct is in parentheses of its own.

## Main definitions

* `writeComparisonOperands`, `writeOperator`, `writeCase`, `writeCondition`, `writeDisjunction` — the
  source's functions
-/

namespace SqliteScanner.Expressions

open Lexing Precedence Sql

variable (w : Writer)

/-! ### Comparisons -/

/-- The type of an operand, which is that of the value if the operand is a constant. -/
def comparisonType (o : Node w) : Except Refusal LogicalType :=
  match tryGetConstantValue w o.expr with
  | some value => .ok value.type
  | none => requireType w o.expr

def isNumber (type : LogicalType) : Bool :=
  type.representation = .integer || type.representation = .real

/-- An operand of a comparison, converted from its type to the type that DuckDB compares as. -/
def writeComparisonOperand (target : LogicalType) (o : Node w) (type : LogicalType) :
    Except Refusal (Operand True) :=
  match tryGetConstantValue w o.expr with
  | some value =>
    if value.isNull then .ok null
    else
      match w.tryCastAs value target with
      | some value =>
        if w.supportsValue value then do
          let x ← writeConstant w value
          .ok x
        -- e.g. DuckDB raises an error
        else .error (.notSupported "constant cannot be converted to the compared type")
      | none => .error (.notSupported "constant cannot be converted to the compared type")
  | none => do
    let x ← o.operand
    -- SQLite compares integers and reals by their numeric value
    if type = target || (isNumber type && isNumber target && type ≠ .boolean && target ≠ .boolean)
    then .ok x
    else do
      let y ← writeCast w x type target false
      .ok (y.imp fun _ => trivial)

/-- `WriteComparisonOperands`. -/
def writeComparisonOperands (operands : List (Node w)) : Except Refusal (List (Operand True)) := do
  let types ← operands.mapM (comparisonType w)
  match types with
  | [] => .error (.internal "index out of bounds")
  | first :: others =>
    let target ← others.foldlM (fun target type =>
      match w.tryBindComparison target type with
      | some target => .ok target
      | none => .error (.notSupported "operands cannot be compared")) first
    require (target.representation ≠ .other)
      (.notSupported ("unsupported comparison of " ++ text (w.typeString target)))
    (operands.zip types).mapM fun o => writeComparisonOperand w target o.1 o.2

/-! ### Conditions -/

/-- `SQLiteIsBooleanExpression`: an expression that is a `BOOLEAN` whatever the types of its operands. -/
def isBooleanExpression : Expr → Bool
  | .comparison _ _ _ | .conjunction _ _ _ | .between _ _ _ => true
  | .operator type _ => type ≠ .coalesce && type ≠ .nullif
  | _ => false

/-- `WriteCondition`. -/
def writeCondition (o : Node w) : Except Refusal (Operand (w.Weak o.expr)) :=
  if isBooleanExpression o.expr then o.written
  else do
    let type ← requireType w o.expr
    -- integers are true when they are not zero, in SQLite as well
    if type = .boolean || type = .sqlNull || type.isInteger then o.written
    -- e.g. the string 'true' is false in SQLite, and DuckDB raises an error for a DATE
    else
      let x ← writeCastOf w o .boolean false
      .ok (x.imp fun h => absurd h (by decide))

/-- A condition that follows or precedes others. -/
def writeConjunct (o : Node w) : Except Refusal (Operand True) := do
  let x ← writeCondition w o
  .ok (x.imp fun _ => trivial)

/-- Conditions with an operator between them, in parentheses. -/
def writeConditions (op : BinaryOp) (first : Node w) (others : List (Node w)) :
    Except Refusal Atom := do
  let x ← writeConjunct w first
  let xs ← others.mapM (writeConjunct w)
  .ok (paren (joined op x xs))

/-- `SQLiteContainsExpression`. -/
def containsExpression (nodes : List (Node w)) (o : Node w) : Bool :=
  nodes.any fun entry => w.equals entry.expr o.expr

/-- The loop of `WriteDisjunction` that collects the conjuncts that every disjunct has. -/
def commonConjuncts (first : List (Node w)) (others : List (List (Node w))) : List (Node w) :=
  first.foldl
    (fun common conjunct =>
      if !containsExpression w common conjunct &&
          others.all (fun disjunct => containsExpression w disjunct conjunct) then
        common ++ [conjunct]
      else common)
    []

/-- The loop of `WriteDisjunction` that writes what remains of the disjuncts; nothing, if a disjunct is
true when the common conjuncts are. -/
def writeRemaining (common : List (Node w)) :
    List (List (Node w)) → Except Refusal (Option (List Atom))
  | [] => .ok (some [])
  | disjunct :: disjuncts =>
    match disjunct.filter fun conjunct => !containsExpression w common conjunct with
    | [] => .ok none
    | conjunct :: conjuncts => do
      let x ← writeConditions w .and_ conjunct conjuncts
      match ← writeRemaining common disjuncts with
      | none => .ok none
      | some xs => .ok (some (x :: xs))

/-- `WriteDisjunction`. Each child of an `OR` is given with its conjuncts. -/
def writeDisjunction (first : Node w × List (Node w)) (others : List (Node w × List (Node w))) :
    Except Refusal Atom :=
  match commonConjuncts w first.2 (others.map (·.2)) with
  | [] => writeConditions w .or_ first.1 (others.map (·.1))
  | conjunct :: conjuncts => do
    let x ← writeConjunct w conjunct
    let xs ← conjuncts.mapM (writeConjunct w)
    match ← writeRemaining w (conjunct :: conjuncts) (first.2 :: others.map (·.2)) with
    | some (remaining :: rest) =>
      .ok (paren (joined .and_ x (xs ++ [↑(paren (joined .or_ remaining rest))])))
    | _ => .ok (paren (joined .and_ x xs))

/-! ### Operators -/

variable {w}

/-- The child of a node with a given index. -/
def arg (children : List (Node w)) (i : ℕ) : Except Refusal (Node w) :=
  match children[i]? with
  | some o => .ok o
  | none => .error (.internal "index out of bounds")

def writeArg (children : List (Node w)) (i : ℕ) : Except Refusal (Operand True) := do
  let o ← arg children i
  o.operand

variable (w)

/-- An expression that is converted to the type of others. -/
def writeAsPhrase (type : LogicalType) (o : Node w) : Except Refusal Phrase := do
  let x ← writeAs w o type
  .ok x

/-- `COALESCE` of operands that are converted to one type. SQLite requires at least two arguments. -/
def writeCoalesce (children : List (Node w)) : Except Refusal Atom := do
  let type ← commonType w children
  let xs ← children.mapM (writeAsPhrase w type)
  .ok (call Fn.coalesce (if children.length = 1 then xs ++ [null.phrase] else xs))

/-- `[NOT] IN`, of an operand and a list. -/
def writeIn (negated : Bool) (children : List (Node w)) : Except Refusal Atom := do
  match ← writeComparisonOperands w children with
  | x :: list => .ok (paren (inList negated x (list.map (·.phrase))))
  | [] => .error (.internal "index out of bounds")

/-- `WriteOperator`. -/
def writeOperator (type : OperatorType) (children : List (Node w)) : Except Refusal Atom :=
  match type with
  | .isNull => do
    let x ← writeArg children 0
    .ok (paren (binary .is_ x null))
  | .isNotNull => do
    let x ← writeArg children 0
    .ok (paren (binary .isNot x null))
  | .not_ => do
    let o ← arg children 0
    let x ← writeCondition w o
    .ok (paren (negation x))
  | .coalesce => writeCoalesce w children
  | .nullif => do
    let first ← arg children 0
    let second ← arg children 1
    match ← writeComparisonOperands w [first, second] with
    | [x, y] =>
      -- the result is the first operand - but compared as the common type
      let type ← requireType w first.expr
      let result ← writeAs w first type
      .ok (case_ none (binary .eq x y, null) [] (some result))
    | _ => .error (.internal "index out of bounds")
  | .compareIn => writeIn w false children
  | .compareNotIn => writeIn w true children

/-- `WriteCase`. -/
def writeCase (first : Node w × Node w) (others : List (Node w × Node w)) (otherwise : Node w) :
    Except Refusal Atom := do
  let type ← commonType w ((first :: others).map (·.2) ++ [otherwise])
  let branch := fun check : Node w × Node w => do
    let condition ← writeCondition w check.1
    let result ← writeAs w check.2 type
    .ok (condition.phrase, result.phrase)
  let x ← branch first
  let xs ← others.mapM branch
  let result ← writeAs w otherwise type
  .ok (case_ none x xs (some result))

/-- `SQLiteComparisonOperator`. `IS [NOT] DISTINCT FROM` requires a newer SQLite. -/
def comparisonOperator : ComparisonType → BinaryOp
  | .equal => .eq
  | .notEqual => .ne
  | .lessThan => .lt
  | .greaterThan => .gt
  | .lessThanOrEqualTo => .le
  | .greaterThanOrEqualTo => .ge
  | .distinctFrom => .isNot
  | .notDistinctFrom => .is_

/-- `WriteExpression`, of a comparison. -/
def writeComparison (type : ComparisonType) (left right : Node w) : Except Refusal Atom := do
  match ← writeComparisonOperands w [left, right] with
  | [x, y] => .ok (paren (binary (comparisonOperator type) x y))
  | _ => .error (.internal "index out of bounds")

/-- `WriteExpression`, of a `BETWEEN`. -/
def writeBetween (input lower upper : Node w) : Except Refusal Atom := do
  match ← writeComparisonOperands w [input, lower, upper] with
  | [x, y, z] => .ok (paren (between x y z))
  | _ => .error (.internal "index out of bounds")

end SqliteScanner.Expressions
