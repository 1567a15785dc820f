import Mkdb.Sql.Analyzer
import Mkdb.Vm.Expression
import Mathlib.Data.List.Forall2

/-!
# The analyzer's expression typing is sound

`analyze_expression` predicts a `VmDataType` without evaluating anything. When it accepts an
expression, every identifier in it names a column, it contains no `*`, and evaluating it on
any tuple whose values carry the schema's tags yields a value of the predicted tag, unless
an arithmetic error (overflow, division by zero) stops it. In particular no operator meets
values of mismatched tags, so every `partial_cmp` is `Some`.

The proof has one inversion lemma per expression form, saying what acceptance implies, and
one lemma per operator kind saying what evaluation then yields; the theorem is the
induction over the expression that puts them together.
-/

namespace Mkdb

/-- The typing rule of a binary operator on operands of one type (`analyzer.rs:420-446`). -/
def BinaryOperator.resultType (operator : BinaryOperator) (operand : VmDataType) :
    Option VmDataType :=
  match operator with
  | .eq | .neq | .lt | .ltEq | .gt | .gtEq => some .bool
  | .and | .or => if operand = .bool then some .bool else none
  | .plus | .minus | .div | .mul => if operand = .number then some .number else none

/-- An evaluation result that agrees with a predicted type: a value of that tag, or an
arithmetic error. -/
def ResultHasType : Except EvalError Value → VmDataType → Prop
  | .ok v, t => v.vmType = t
  | .error e, _ => e.isArithmetic = true

/-! ## What acceptance implies, form by form -/

section Inversion

variable {schema : Schema} {colDataType : Option DataType} {t : VmDataType}

theorem analyzeExpression_value {v : Value}
    (h : analyzeExpression schema colDataType (.value v) = .ok t) : t = v.vmType := by
  rcases v with s | b | n
  · exact (Except.ok.inj h).symm
  · exact (Except.ok.inj h).symm
  · simp only [analyzeExpression] at h
    split at h <;> obtain ⟨_, -, h⟩ := except_bind_eq_ok.mp h <;> exact (Except.ok.inj h).symm

theorem analyzeExpression_identifier {name : String}
    (h : analyzeExpression schema colDataType (.identifier name) = .ok t) :
    ∃ index, schema.indexOf name = some index ∧
      t = .ofDataType (schema.columns.get index).dataType := by
  simp only [analyzeExpression] at h
  split at h
  · cases h
  · rename_i index hindex
    refine ⟨index, hindex, ?_⟩
    generalize (schema.columns.get index).dataType = dataType at h
    cases dataType <;> exact (Except.ok.inj h).symm

theorem analyzeExpression_unaryOperation {operator : UnaryOperator} {expr : Expression}
    (h : analyzeExpression schema colDataType (.unaryOperation operator expr) = .ok t) :
    t = .number ∧ ((∃ n, expr = .value (.number n)) ∨
      analyzeExpression schema colDataType expr = .ok .number) := by
  simp only [analyzeExpression] at h
  split at h
  · obtain ⟨_, -, h⟩ := except_bind_eq_ok.mp h
    exact ⟨(Except.ok.inj h).symm, .inl ⟨_, rfl⟩⟩
  · obtain ⟨u, hu, h⟩ := except_bind_eq_ok.mp h
    cases u <;> cases h
    exact ⟨rfl, .inr hu⟩

theorem analyzeExpression_binaryOperation {left right : Expression}
    {operator : BinaryOperator}
    (h : analyzeExpression schema colDataType (.binaryOperation left operator right) = .ok t) :
    ∃ operand, analyzeExpression schema colDataType left = .ok operand ∧
      analyzeExpression schema colDataType right = .ok operand ∧
      operator.resultType operand = some t := by
  simp only [analyzeExpression] at h
  obtain ⟨tl, hl, h⟩ := except_bind_eq_ok.mp h
  obtain ⟨tr, hr, h⟩ := except_bind_eq_ok.mp h
  split at h
  · cases h
  · rename_i heq
    rw [not_not] at heq
    subst heq
    refine ⟨tl, hl, hr, ?_⟩
    cases operator <;> dsimp only [BinaryOperator.resultType] at h ⊢ <;>
      (try split_ifs at h ⊢) <;> first | exact congrArg some (Except.ok.inj h) | cases h

end Inversion

/-! ## What evaluation yields on well-tagged operands -/

theorem resultHasType_checkedNumber (n : Int) : ResultHasType (checkedNumber n) .number := by
  unfold checkedNumber
  split <;> rfl

theorem partialCmp_isSome {a b : Value} (h : a.vmType = b.vmType) : (a.partialCmp b).isSome := by
  cases a <;> cases b <;> simp_all [Value.vmType, Value.partialCmp]

theorem vmType_eq_bool {v : Value} (h : v.vmType = .bool) : ∃ x, v = .bool x := by
  cases v <;> simp_all [Value.vmType]

theorem vmType_eq_number {v : Value} (h : v.vmType = .number) : ∃ n, v = .number n := by
  cases v <;> simp_all [Value.vmType]

theorem resultHasType_evalBinary {operator : BinaryOperator} {a b : Value} {operand t : VmDataType}
    (ha : a.vmType = operand) (hb : b.vmType = operand) (hop : operator.resultType operand = some t) :
    ResultHasType (evalBinary operator a b) t := by
  cases operator
  case and | or =>
    simp only [BinaryOperator.resultType] at hop
    split at hop <;> cases hop
    rename_i hoperand
    rw [hoperand] at ha hb
    obtain ⟨x, rfl⟩ := vmType_eq_bool ha
    obtain ⟨y, rfl⟩ := vmType_eq_bool hb
    rfl
  case plus | minus | mul | div =>
    simp only [BinaryOperator.resultType] at hop
    split at hop <;> cases hop
    rename_i hoperand
    rw [hoperand] at ha hb
    obtain ⟨x, rfl⟩ := vmType_eq_number ha
    obtain ⟨y, rfl⟩ := vmType_eq_number hb
    simp only [evalBinary, BinaryOperator.comparison]
    (try split) <;> first | rfl | exact resultHasType_checkedNumber _
  all_goals
    cases hop
    obtain ⟨ordering, hord⟩ := Option.isSome_iff_exists.mp (partialCmp_isSome (ha.trans hb.symm))
    simp [evalBinary, BinaryOperator.comparison, hord, ResultHasType, Value.vmType]

theorem resultHasType_evalUnary {operator : UnaryOperator} {v : Value} (hv : v.vmType = .number) :
    ResultHasType (evalUnary operator v) .number := by
  cases v <;> cases hv
  cases operator
  · rfl
  · exact resultHasType_checkedNumber _

/-- An error of an operand propagates, so the result of an operator is typed whenever its
operands' results are and the operator accepts their type. -/
theorem resultHasType_binaryOperation {ra rb : Except EvalError Value}
    {operator : BinaryOperator} {operand t : VmDataType} (ha : ResultHasType ra operand)
    (hb : ResultHasType rb operand) (hop : operator.resultType operand = some t) :
    ResultHasType (do evalBinary operator (← ra) (← rb)) t := by
  rcases ra with e | a
  · exact ha
  · rcases rb with e | b
    · exact hb
    · exact resultHasType_evalBinary ha hb hop

theorem resultHasType_unaryOperation {r : Except EvalError Value} {operator : UnaryOperator}
    (hr : ResultHasType r .number) : ResultHasType (do evalUnary operator (← r)) .number := by
  rcases r with e | v
  · exact hr
  · exact resultHasType_evalUnary hr

/-- A tuple with the schema's tags has a value of the right tag at every column. -/
theorem TagsConform.get {schema : Schema} {tuple : List Value} (h : TagsConform schema tuple)
    (index : Fin schema.columns.length) :
    ∃ v, tuple[index.val]? = some v ∧ v.vmType = .ofDataType (schema.columns.get index).dataType := by
  obtain ⟨hlen, hget⟩ := List.forall₂_iff_get.mp h
  have hi : index.val < tuple.length := hlen ▸ index.isLt
  exact ⟨tuple.get ⟨index.val, hi⟩, List.getElem?_eq_getElem hi, hget _ _ _⟩

/-! ## Soundness -/

/-- Expression typing is sound: an accepted expression resolves every identifier, has no
wildcard, and evaluates on any well-tagged tuple to a value of the predicted tag or to an
arithmetic error. -/
theorem analyzeExpression_sound {schema : Schema} {colDataType : Option DataType}
    {e : Expression} {t : VmDataType} (h : analyzeExpression schema colDataType e = .ok t) :
    (∀ name ∈ e.identifiers, (schema.indexOf name).isSome) ∧ e.hasWildcard = false ∧
      ∀ tuple, TagsConform schema tuple → ResultHasType (e.eval schema tuple) t := by
  induction e generalizing t with
  | identifier name =>
    obtain ⟨index, hindex, rfl⟩ := analyzeExpression_identifier h
    refine ⟨by simp [Expression.identifiers, hindex], rfl, fun tuple ht => ?_⟩
    obtain ⟨v, hv, hvt⟩ := ht.get index
    simp [Expression.eval, hindex, hv, ResultHasType, hvt]
  | value v =>
    rw [analyzeExpression_value h]
    exact ⟨by simp [Expression.identifiers], rfl, fun _ _ => rfl⟩
  | wildcard => simp [analyzeExpression] at h
  | binaryOperation left operator right ihl ihr =>
    obtain ⟨operand, hl, hr, hop⟩ := analyzeExpression_binaryOperation h
    obtain ⟨hl1, hl2, hl3⟩ := ihl hl
    obtain ⟨hr1, hr2, hr3⟩ := ihr hr
    refine ⟨?_, by simp [Expression.hasWildcard, hl2, hr2], fun tuple ht =>
      resultHasType_binaryOperation (hl3 tuple ht) (hr3 tuple ht) hop⟩
    simpa [Expression.identifiers, or_imp, forall_and] using And.intro hl1 hr1
  | unaryOperation operator expr ih =>
    obtain ⟨rfl, ⟨n, rfl⟩ | hexpr⟩ := analyzeExpression_unaryOperation h
    · exact ⟨by simp [Expression.identifiers], rfl, fun _ _ =>
        resultHasType_unaryOperation (r := .ok (.number n)) rfl⟩
    · obtain ⟨h1, h2, h3⟩ := ih hexpr
      exact ⟨h1, h2, fun tuple ht => resultHasType_unaryOperation (h3 tuple ht)⟩
  | nested expr ih => exact ih h

/-- `id + 1 > 2` on a table `(id INT, name VARCHAR(8))` is a `Bool` predicate, and every
well-tagged row evaluates it to a boolean or overflows. -/
theorem analyzeExpression_sound_of_id_plus_one :
    analyzeExpression ⟨[Column.new "id" .int, Column.new "name" (.varchar 8)]⟩ none
        (.binaryOperation (.binaryOperation (.identifier "id") .plus (.value (.number 1))) .gt
          (.value (.number 2))) = .ok .bool ∧
      ((∀ name ∈ (Expression.binaryOperation (.binaryOperation (.identifier "id") .plus
          (.value (.number 1))) .gt (.value (.number 2))).identifiers,
          (Schema.indexOf ⟨[Column.new "id" .int, Column.new "name" (.varchar 8)]⟩ name).isSome) ∧
        (Expression.binaryOperation (.binaryOperation (.identifier "id") .plus
          (.value (.number 1))) .gt (.value (.number 2))).hasWildcard = false ∧
        ∀ tuple, TagsConform ⟨[Column.new "id" .int, Column.new "name" (.varchar 8)]⟩ tuple →
          ResultHasType ((Expression.binaryOperation (.binaryOperation (.identifier "id") .plus
            (.value (.number 1))) .gt (.value (.number 2))).eval
              ⟨[Column.new "id" .int, Column.new "name" (.varchar 8)]⟩ tuple) .bool) :=
  have h : analyzeExpression ⟨[Column.new "id" .int, Column.new "name" (.varchar 8)]⟩ none
      (.binaryOperation (.binaryOperation (.identifier "id") .plus (.value (.number 1))) .gt
        (.value (.number 2))) = .ok .bool := by decide
  ⟨h, analyzeExpression_sound h⟩

end Mkdb
