import Mkdb.Query.Planner
import Mkdb.Sql.Proofs.ExpressionTyping

/-!
# Sort keys line up with the columns they name

For an `ORDER BY` the planner computes, in one loop, the sort schema and the index of each
sort key in it: an identifier's key is its column, any other expression's key is a column
appended to the sort schema. Separately it filters the non-identifier expressions into the
`SortKeysGen` that computes those columns. The two agree: the key of the `i`-th expression,
when it is not an identifier, is the table's width plus the number of non-identifiers before
it, and that column of the sort schema is the one the `SortKeysGen` computes from it.
`generatePlan_sort_keys`, with the rest of the `SELECT` arm, is in `Mkdb.Query.Proofs.Select`.
-/

namespace Mkdb

/-- The expressions of an `ORDER BY` that the sort computes into extra columns. -/
def genExprs (orderBy : List Expression) : List Expression :=
  orderBy.filter fun expr => !expr.isIdentifier

@[simp] theorem genExprs_nil : genExprs [] = [] := rfl

@[simp] theorem genExprs_cons_identifier (col : String) (orderBy : List Expression) :
    genExprs (.identifier col :: orderBy) = genExprs orderBy := by
  simp [genExprs, Expression.isIdentifier]

theorem genExprs_cons_of_isIdentifier_eq_false {expr : Expression} (hne : expr.isIdentifier = false)
    (orderBy : List Expression) : genExprs (expr :: orderBy) = expr :: genExprs orderBy := by
  simp [genExprs, hne]

/-! ## One step, then the loop -/

theorem sortKey_eq_ok {schema sortSchema sortSchema' : Schema} {expr : Expression} {index : Nat}
    (h : (sortKey schema sortSchema expr).run = some (.ok (sortSchema', index))) :
    (∃ col i, expr = .identifier col ∧ schema.indexOf col = some i ∧
        sortSchema' = sortSchema ∧ index = i.val) ∨
      (expr.isIdentifier = false ∧ ∃ dataType,
        (resolveUnknownType schema expr).run = some (.ok dataType) ∧
        sortSchema' = sortSchema.push (Column.new expr.display dataType) ∧
        index = sortSchema.len) := by
  unfold sortKey at h
  split at h
  · rename_i col
    obtain ⟨i, hi, h⟩ := run_bind_eq_ok.mp h
    simp only [run_unwrapOrPanic, Option.map_eq_some', Except.ok.injEq, exists_eq_right] at hi
    simp only [run_pure, Option.some.injEq, Except.ok.injEq, Prod.mk.injEq] at h
    exact .inl ⟨col, i, rfl, hi, h.1.symm, h.2.symm⟩
  · rename_i hne
    obtain ⟨dataType, hdt, h⟩ := run_bind_eq_ok.mp h
    simp only [run_pure, Option.some.injEq, Except.ok.injEq, Prod.mk.injEq] at h
    refine .inr ⟨?_, dataType, ?_, h.1.symm, h.2.symm⟩
    · exact Bool.eq_false_iff.mpr fun hid =>
        let ⟨col, hcol⟩ := Expression.isIdentifier_eq_true.mp hid
        hne col hcol
    · simp only [run_liftSql, Option.map_eq_some'] at hdt
      obtain ⟨r, hr, hmap⟩ := hdt
      cases r <;> cases hmap
      exact hr

/-- The loop's result: one index per expression; the sort schema extended by one column per
computed expression, in order; an identifier's index is its column and a computed
expression's index is the extended width so far. -/
theorem sortKeys_eq_ok {schema : Schema} {orderBy : List Expression} :
    ∀ {sortSchema sortSchema' : Schema} {indexes : List Nat},
      (sortKeys schema sortSchema orderBy).run = some (.ok (sortSchema', indexes)) →
      indexes.length = orderBy.length ∧
      (∃ dataTypes : List DataType, dataTypes.length = (genExprs orderBy).length ∧
        sortSchema'.columns = sortSchema.columns ++
          List.zipWith (fun expr dataType => Column.new expr.display dataType)
            (genExprs orderBy) dataTypes) ∧
      (∀ (i : Nat) col, orderBy[i]? = some (.identifier col) →
        ∃ index, schema.indexOf col = some index ∧ indexes[i]? = some index.val) ∧
      (∀ (i : Nat) expr, orderBy[i]? = some expr → expr.isIdentifier = false →
        indexes[i]? = some (sortSchema.len + (genExprs (orderBy.take i)).length)) := by
  induction orderBy with
  | nil =>
    intro sortSchema sortSchema' indexes h
    simp only [sortKeys, run_pure, Option.some.injEq, Except.ok.injEq, Prod.mk.injEq] at h
    obtain ⟨rfl, rfl⟩ := h
    exact ⟨rfl, ⟨[], rfl, by simp [genExprs]⟩, by simp, by simp⟩
  | cons expr orderBy ih =>
    intro sortSchema sortSchema' indexes h
    obtain ⟨⟨sortSchema₁, index⟩, hstep, h⟩ := run_bind_eq_ok.mp h
    obtain ⟨⟨sortSchema₂, rest⟩, hrest, h⟩ := run_bind_eq_ok.mp h
    simp only [run_pure, Option.some.injEq, Except.ok.injEq, Prod.mk.injEq] at h
    obtain ⟨rfl, rfl⟩ := h
    obtain ⟨hlen, ⟨dataTypes, hdt, hcols⟩, hident, hgen⟩ := ih hrest
    rcases sortKey_eq_ok hstep with ⟨col, i, rfl, hi, rfl, rfl⟩ |
      ⟨hne, dataType, -, rfl, rfl⟩
    · refine ⟨by simp [hlen], ⟨dataTypes, by simp [hdt], by simp [hcols]⟩, ?_, ?_⟩
      · rintro (_ | j) c hc
        · simp only [List.getElem?_cons_zero, Option.some.injEq,
            Expression.identifier.injEq] at hc
          subst hc
          exact ⟨i, hi, List.getElem?_cons_zero⟩
        · rw [List.getElem?_cons_succ] at hc
          simpa using hident j c hc
      · rintro (_ | j) e he hne
        · simp only [List.getElem?_cons_zero, Option.some.injEq] at he
          subst he
          cases hne
        · rw [List.getElem?_cons_succ] at he
          rw [List.getElem?_cons_succ, hgen j e he hne, List.take_succ_cons,
            genExprs_cons_identifier]
    · have hgen_cons := genExprs_cons_of_isIdentifier_eq_false hne
      refine ⟨by simp [hlen], ⟨dataType :: dataTypes, by simp [hgen_cons, hdt], ?_⟩, ?_, ?_⟩
      · rw [hcols, hgen_cons]
        simp [Schema.push]
      · rintro (_ | j) c hc
        · simp only [List.getElem?_cons_zero, Option.some.injEq] at hc
          subst hc
          cases hne
        · rw [List.getElem?_cons_succ] at hc
          simpa using hident j c hc
      · rintro (_ | j) e he hne'
        · simp
        · rw [List.getElem?_cons_succ] at he
          rw [List.getElem?_cons_succ, hgen j e he hne', List.take_succ_cons,
            genExprs_cons_of_isIdentifier_eq_false hne]
          simp only [Option.some.injEq, Schema.push, Schema.len, List.length_append,
            List.length_cons, List.length_nil]
          omega

theorem resolveUnknownType_of_analyzeExpression {schema : Schema} {expr : Expression}
    {t : VmDataType} (hne : expr.isIdentifier = false)
    (ht : analyzeExpression schema none expr = .ok t) :
    (resolveUnknownType schema expr).run = some (.ok (match t with
      | .bool => .bool
      | .number => .bigInt
      | .string => .varchar 65535)) := by
  unfold resolveUnknownType
  split
  · simp [Expression.isIdentifier] at hne
  · rw [run_bind_of_ok _ (by rw [run_liftResult, ht])]
    cases t <;> rfl

theorem sortKey_of_resolveUnknownType {schema sortSchema : Schema} {expr : Expression}
    {dataType : DataType} (hne : expr.isIdentifier = false)
    (h : (resolveUnknownType schema expr).run = some (.ok dataType)) :
    (sortKey schema sortSchema expr).run =
      some (.ok (sortSchema.push (Column.new expr.display dataType), sortSchema.len)) := by
  unfold sortKey
  split
  · simp [Expression.isIdentifier] at hne
  · rw [run_bind_of_ok _ (by rw [run_liftSql, h]; rfl)]
    rfl

/-- The loop succeeds when every identifier resolves and every other expression is typed by
the analyzer, as it is for a statement `analyze` accepted. -/
theorem sortKeys_isOk {schema : Schema} {orderBy : List Expression}
    (h : ∀ expr ∈ orderBy, (∃ col, expr = .identifier col ∧ (schema.indexOf col).isSome) ∨
      (expr.isIdentifier = false ∧ ∃ t, analyzeExpression schema none expr = .ok t))
    (sortSchema : Schema) : ∃ r, (sortKeys schema sortSchema orderBy).run = some (.ok r) := by
  induction orderBy generalizing sortSchema with
  | nil => exact ⟨_, rfl⟩
  | cons expr orderBy ih =>
    have hstep : ∃ r, (sortKey schema sortSchema expr).run = some (.ok r) := by
      rcases h expr (List.mem_cons_self _ _) with ⟨col, rfl, hcol⟩ | ⟨hne, t, ht⟩
      · obtain ⟨i, hi⟩ := Option.isSome_iff_exists.mp hcol
        exact ⟨_, by simp [sortKey, hi]; rfl⟩
      · exact ⟨_, sortKey_of_resolveUnknownType hne
          (resolveUnknownType_of_analyzeExpression hne ht)⟩
    obtain ⟨⟨sortSchema₁, index⟩, hr⟩ := hstep
    obtain ⟨⟨sortSchema₂, rest⟩, hrest⟩ := ih (fun e he => h e (List.mem_cons_of_mem _ he))
      sortSchema₁
    exact ⟨_, by rw [sortKeys, run_bind_of_ok _ hr]; dsimp only; rw [run_bind_of_ok _ hrest]; rfl⟩

/-- The computed columns come after the table's own: the sort schema is as wide as the table
plus one column per computed expression. -/
theorem len_of_columns_eq {schema sortSchema : Schema} {orderBy : List Expression}
    {dataTypes : List DataType} (hdt : dataTypes.length = (genExprs orderBy).length)
    (hcols : sortSchema.columns = schema.columns ++
      List.zipWith (fun expr dataType => Column.new expr.display dataType)
        (genExprs orderBy) dataTypes) :
    sortSchema.len = schema.len + (genExprs orderBy).length := by
  simp [Schema.len, hcols, hdt]

/-- The sort chain is the `Sort` of the loop's schema and keys, over a `SortKeysGen` exactly
when the loop appended columns. -/
theorem sortPlan_of_sortKeys {deps : PlannerDeps} {pageSize : Nat} {table : TableMetadata}
    {orderBy : List Expression} {source : Plan} {sortSchema : Schema} {indexes : List Nat}
    (h : (sortKeys table.schema table.schema orderBy).run = some (.ok (sortSchema, indexes))) :
    (sortPlan deps pageSize table orderBy source).run = some (.ok (.sort pageSize
      (if (genExprs orderBy).isEmpty then source
        else .sortKeysGen source table.schema (genExprs orderBy))
      sortSchema pageSize ⟨table.schema, sortSchema, indexes⟩ deps.defaultSortInputBuffers)) := by
  obtain ⟨-, ⟨dataTypes, hdt, hcols⟩, -⟩ := sortKeys_eq_ok h
  have hwidth := len_of_columns_eq hdt hcols
  rw [sortPlan, run_bind_of_ok _ h]
  dsimp only
  have hcond : (sortSchema.len > table.schema.len) = ¬(genExprs orderBy).isEmpty := by
    rw [hwidth, List.isEmpty_iff]
    exact propext ⟨fun h hnil => by simp [hnil] at h, fun h => by
      have := List.length_pos.mpr h; omega⟩
  simp only [hcond, ite_not]
  rfl

/-- An analyzed `SELECT` meets the planner's precondition on its `ORDER BY`: the analyzer
type-checks every sort expression, so each identifier names a column and each other
expression has a type. -/
theorem analyze_select_orderBy {ctx : String → Except DbError TableMetadata}
    {columns : List Expression} {from_ : String} {where_ : Option Expression}
    {orderBy : List Expression} {table : TableMetadata} (hctx : ctx from_ = .ok table)
    (h : (analyze ctx (.select columns from_ where_ orderBy)).run = some (.ok ())) :
    ∀ expr ∈ orderBy,
      (∃ col, expr = .identifier col ∧ (table.schema.indexOf col).isSome) ∨
        (expr.isIdentifier = false ∧ ∃ t, analyzeExpression table.schema none expr = .ok t) := by
  simp only [analyze_select, run_liftResult, Option.some.injEq, hctx, except_bind_eq_ok] at h
  obtain ⟨_, ⟨⟩, _, -, _, -, horder⟩ := h
  intro expr hexpr
  obtain ⟨t, ht⟩ := except_discard_eq_ok.mp (except_forM_eq_ok.mp horder expr hexpr)
  rw [except_mapError_eq_ok] at ht
  cases expr with
  | identifier col =>
    obtain ⟨index, hindex, -⟩ := analyzeExpression_identifier ht
    exact .inl ⟨col, rfl, by simp [hindex]⟩
  | _ => exact .inr ⟨rfl, t, ht⟩

end Mkdb
