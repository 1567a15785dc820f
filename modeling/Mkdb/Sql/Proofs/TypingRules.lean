import Mkdb.Sql.Proofs.ExpressionTyping

/-!
# The typing rules `analyze_expression` implements

The spec states the analyzer's expression typing as rules: identifiers take their column's
type, a comparison of two operands of one type is a `Bool`, `AND` and `OR` need `Bool`
operands, arithmetic needs `Number` operands. `HasType` is that rule system, with the rules
the spec leaves implicit: a literal has its own type, a sign needs a `Number`, parentheses
keep the type, and `*` has no type.

`analyze_expression` (`analyzer.rs:349-452`) computes instead of deriving. Without a column
hint it decides exactly `HasType`; with a hint it accepts no more, since the hint only adds
range checks on integer literals.
-/

namespace Mkdb

/-- `=`, `!=`, `<`, `<=`, `>` and `>=`. -/
def BinaryOperator.isComparison : BinaryOperator → Bool
  | .eq | .neq | .lt | .ltEq | .gt | .gtEq => true
  | _ => false

/-- `AND` and `OR`. -/
def BinaryOperator.isLogical : BinaryOperator → Bool
  | .and | .or => true
  | _ => false

/-- `+`, `-`, `*` and `/`. -/
def BinaryOperator.isArithmetic : BinaryOperator → Bool
  | .plus | .minus | .mul | .div => true
  | _ => false

/-- The spec's typing rules for expressions over `schema`. -/
inductive HasType (schema : Schema) : Expression → VmDataType → Prop
  | value (v : Value) : HasType schema (.value v) v.vmType
  | identifier {name : String} {index : Fin schema.columns.length}
      (hindex : schema.indexOf name = some index) :
      HasType schema (.identifier name) (.ofDataType (schema.columns.get index).dataType)
  | comparison {left right : Expression} {operator : BinaryOperator} {t : VmDataType}
      (hop : operator.isComparison = true) (hl : HasType schema left t)
      (hr : HasType schema right t) : HasType schema (.binaryOperation left operator right) .bool
  | logical {left right : Expression} {operator : BinaryOperator}
      (hop : operator.isLogical = true) (hl : HasType schema left .bool)
      (hr : HasType schema right .bool) :
      HasType schema (.binaryOperation left operator right) .bool
  | arithmetic {left right : Expression} {operator : BinaryOperator}
      (hop : operator.isArithmetic = true) (hl : HasType schema left .number)
      (hr : HasType schema right .number) :
      HasType schema (.binaryOperation left operator right) .number
  | unaryOperation {operator : UnaryOperator} {expr : Expression}
      (h : HasType schema expr .number) : HasType schema (.unaryOperation operator expr) .number
  | nested {expr : Expression} {t : VmDataType} (h : HasType schema expr t) :
      HasType schema (.nested expr) t

section Rules

variable {schema : Schema}

/-- The operator table of `analyze_expression` (`BinaryOperator.resultType`) is the three
binary rules. -/
theorem HasType.binaryOperation {left right : Expression} {operator : BinaryOperator}
    {operand t : VmDataType} (hl : HasType schema left operand)
    (hr : HasType schema right operand) (hop : operator.resultType operand = some t) :
    HasType schema (.binaryOperation left operator right) t := by
  cases operator
  case eq | neq | lt | ltEq | gt | gtEq =>
    cases hop
    exact .comparison rfl hl hr
  case and | or =>
    simp only [BinaryOperator.resultType] at hop
    split_ifs at hop with h
    cases hop
    exact .logical rfl (h ▸ hl) (h ▸ hr)
  case plus | minus | mul | div =>
    simp only [BinaryOperator.resultType] at hop
    split_ifs at hop with h
    cases hop
    exact .arithmetic rfl (h ▸ hl) (h ▸ hr)

theorem resultType_of_isComparison {operator : BinaryOperator}
    (h : operator.isComparison = true) (operand : VmDataType) :
    operator.resultType operand = some .bool := by
  cases operator <;> first | rfl | cases h

theorem resultType_of_isLogical {operator : BinaryOperator} (h : operator.isLogical = true) :
    operator.resultType .bool = some .bool := by
  cases operator <;> first | rfl | cases h

theorem resultType_of_isArithmetic {operator : BinaryOperator}
    (h : operator.isArithmetic = true) : operator.resultType .number = some .number := by
  cases operator <;> first | rfl | cases h

/-- Whatever `analyze_expression` accepts, with or without a hint, the rules derive. -/
theorem hasType_of_analyzeExpression {colDataType : Option DataType} {e : Expression}
    {t : VmDataType} (h : analyzeExpression schema colDataType e = .ok t) : HasType schema e t := by
  induction e generalizing t with
  | identifier name =>
    obtain ⟨index, hindex, rfl⟩ := analyzeExpression_identifier h
    exact .identifier hindex
  | value v => exact analyzeExpression_value h ▸ .value v
  | wildcard => cases h
  | binaryOperation left operator right ihl ihr =>
    obtain ⟨operand, hl, hr, hop⟩ := analyzeExpression_binaryOperation h
    exact .binaryOperation (ihl hl) (ihr hr) hop
  | unaryOperation operator expr ih =>
    obtain ⟨rfl, ⟨n, rfl⟩ | hexpr⟩ := analyzeExpression_unaryOperation h
    · exact .unaryOperation (.value (.number n))
    · exact .unaryOperation (ih hexpr)
  | nested expr ih => exact .nested (ih h)

theorem analyzeExpression_binaryOperation_eq_ok {colDataType : Option DataType}
    {left right : Expression} {operator : BinaryOperator} {operand t : VmDataType}
    (hl : analyzeExpression schema colDataType left = .ok operand)
    (hr : analyzeExpression schema colDataType right = .ok operand)
    (hop : operator.resultType operand = some t) :
    analyzeExpression schema colDataType (.binaryOperation left operator right) = .ok t := by
  simp only [analyzeExpression, hl, hr, bind, Except.bind, pure, Except.pure, ne_eq,
    not_true_eq_false, if_false]
  cases operator
  case eq | neq | lt | ltEq | gt | gtEq => cases hop; rfl
  all_goals
    simp only [BinaryOperator.resultType] at hop ⊢
    split_ifs at hop ⊢
    cases hop
    rfl

/-- Whatever the rules derive, `analyze_expression` without a hint accepts. -/
theorem analyzeExpression_of_hasType {e : Expression} {t : VmDataType} (h : HasType schema e t) :
    analyzeExpression schema none e = .ok t := by
  induction h with
  | value v => cases v <;> rfl
  | identifier hindex =>
    simp only [analyzeExpression, hindex]
    split <;> simp_all [VmDataType.ofDataType]
  | comparison hop _ _ ihl ihr =>
    exact analyzeExpression_binaryOperation_eq_ok ihl ihr (resultType_of_isComparison hop _)
  | logical hop _ _ ihl ihr =>
    exact analyzeExpression_binaryOperation_eq_ok ihl ihr (resultType_of_isLogical hop)
  | arithmetic hop _ _ ihl ihr =>
    exact analyzeExpression_binaryOperation_eq_ok ihl ihr (resultType_of_isArithmetic hop)
  | unaryOperation _ ih => simp only [analyzeExpression, ih]; rfl
  | nested _ ih => exact ih

end Rules

instance (schema : Schema) (e : Expression) (t : VmDataType) : Decidable (HasType schema e t) :=
  decidable_of_iff (analyzeExpression schema none e = .ok t)
    ⟨hasType_of_analyzeExpression, analyzeExpression_of_hasType⟩

/-- `id < 5` is a `Bool` on `(id INT)`; `id AND TRUE` is not. -/
example : HasType ⟨[Column.new "id" .int]⟩
    (.binaryOperation (.identifier "id") .lt (.value (.number 5))) .bool := by decide

example : ¬HasType ⟨[Column.new "id" .int]⟩
    (.binaryOperation (.identifier "id") .and (.value (.bool true))) .bool := by decide

/-- `analyze_expression` implements the spec's typing rules: without a column hint it accepts
an expression with type `t` exactly when the rules derive that type, and with a hint it
accepts nothing the rules do not derive. -/
theorem analyzeExpression_eq_ok_iff_hasType (schema : Schema) (e : Expression) (t : VmDataType) :
    (analyzeExpression schema none e = .ok t ↔ HasType schema e t) ∧
      ∀ colDataType, analyzeExpression schema colDataType e = .ok t → HasType schema e t :=
  ⟨⟨hasType_of_analyzeExpression, analyzeExpression_of_hasType⟩,
    fun _ => hasType_of_analyzeExpression⟩

end Mkdb
