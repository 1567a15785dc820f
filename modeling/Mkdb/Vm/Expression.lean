import Mkdb.Db

/-!
# Evaluating expressions on a tuple

The VM's expression resolver (`vm.rs`) is not part of this excerpt. It is modelled from the
spec: identifiers read the tuple through the schema, `= != < <= > >=` compare through
`Value::partial_cmp`, `AND`/`OR` act on booleans, and `+ - * /` and the unary signs act on
numbers, with `i128` overflow and division by zero as runtime errors. Both operands of a
binary operator are evaluated.
-/

namespace Mkdb

/-- Modelled from the spec: what evaluating an expression can fail with. `typeError` is an
operator applied to values of the wrong tags, `partial_cmp` returning `None` included. -/
inductive EvalError where
  | typeError
  | columnNotFound (name : String)
  | wildcard
  | divisionByZero
  | overflow
  deriving DecidableEq, Repr

/-- The runtime errors no static check can rule out. -/
def EvalError.isArithmetic : EvalError → Bool
  | .divisionByZero | .overflow => true
  | _ => false

/-- `i128::MIN` and `i128::MAX`. -/
def i128Min : Int := -170141183460469231731687303715884105728
def i128Max : Int := 170141183460469231731687303715884105727

/-- A checked `i128` result. -/
def checkedNumber (n : Int) : Except EvalError Value :=
  if i128Min ≤ n ∧ n ≤ i128Max then .ok (.number n) else .error .overflow

/-- The comparison operators, as the test each makes of an `Ordering`. -/
def BinaryOperator.comparison : BinaryOperator → Option (Ordering → Bool)
  | .eq => some (· == .eq)
  | .neq => some (· != .eq)
  | .lt => some (· == .lt)
  | .ltEq => some (· != .gt)
  | .gt => some (· == .gt)
  | .gtEq => some (· != .lt)
  | _ => none

/-- Modelled from the spec: a binary operator applied to two values. -/
def evalBinary (operator : BinaryOperator) (a b : Value) : Except EvalError Value :=
  match operator.comparison with
  | some holds =>
    match a.partialCmp b with
    | some ordering => .ok (.bool (holds ordering))
    | none => .error .typeError
  | none =>
    match operator, a, b with
    | .and, .bool x, .bool y => .ok (.bool (x && y))
    | .or, .bool x, .bool y => .ok (.bool (x || y))
    | .plus, .number x, .number y => checkedNumber (x + y)
    | .minus, .number x, .number y => checkedNumber (x - y)
    | .mul, .number x, .number y => checkedNumber (x * y)
    | .div, .number x, .number y =>
      if y = 0 then .error .divisionByZero else checkedNumber (x.tdiv y)
    | _, _, _ => .error .typeError

/-- Modelled from the spec: a unary sign applied to a value. -/
def evalUnary : UnaryOperator → Value → Except EvalError Value
  | .plus, .number n => .ok (.number n)
  | .minus, .number n => checkedNumber (-n)
  | _, _ => .error .typeError

/-- Modelled from the spec: the value of an expression on a tuple of the schema. -/
def Expression.eval (schema : Schema) (tuple : List Value) : Expression → Except EvalError Value
  | .identifier name =>
    match schema.indexOf name with
    | some index =>
      match tuple[index.val]? with
      | some v => .ok v
      | none => .error (.columnNotFound name)
    | none => .error (.columnNotFound name)
  | .value v => .ok v
  | .wildcard => .error .wildcard
  | .binaryOperation left operator right => do
    evalBinary operator (← left.eval schema tuple) (← right.eval schema tuple)
  | .unaryOperation operator expr => do evalUnary operator (← expr.eval schema tuple)
  | .nested expr => expr.eval schema tuple

/-- The identifiers an expression reads. -/
def Expression.identifiers : Expression → List String
  | .identifier name => [name]
  | .value _ | .wildcard => []
  | .binaryOperation left _ right => left.identifiers ++ right.identifiers
  | .unaryOperation _ expr | .nested expr => expr.identifiers

/-- Whether a `*` occurs in an expression. -/
def Expression.hasWildcard : Expression → Bool
  | .wildcard => true
  | .identifier _ | .value _ => false
  | .binaryOperation left _ right => left.hasWildcard || right.hasWildcard
  | .unaryOperation _ expr | .nested expr => expr.hasWildcard

/-- A tuple whose values carry the tags of the schema's column types, one per column. -/
def TagsConform (schema : Schema) (tuple : List Value) : Prop :=
  List.Forall₂ (fun col value => value.vmType = .ofDataType col.dataType) schema.columns tuple

end Mkdb
