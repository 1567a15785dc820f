import Mkdb.Sql.Proofs.ExpressionTyping
import Mkdb.Sql.Proofs.InsertColumns

/-!
# What an accepted statement guarantees

`analyze` (`analyzer.rs:90-276`) is the only check a statement goes through before the
planner and the executor run it. This module states what it guarantees for the whole
statement (`Statement.WellTyped`). The catalog agrees with the statement: every table a
`SELECT`, `INSERT`, `UPDATE`, `DELETE`, `DROP TABLE` or `CREATE INDEX` names exists, the one
`CREATE TABLE` names does not, and `CREATE INDEX` asks for a unique index under a name the
table does not use yet. Every expression has the type its use needs: a `WHERE` evaluates to a
boolean, every `SELECT` column other than `*` and every `ORDER BY` key to a value of one type,
and every value an `UPDATE` or `INSERT` stores to the type of the column it goes into.
"Evaluates" is over every tuple that carries the table's tags, and allows an arithmetic error
(overflow, division by zero), which no static check rules out.

The expression-level step is `wellTyped_of_analyzeExpression`; each arm of `analyze` then
contributes the catalog lookups and the loops it runs over the statement's expressions.
-/

namespace Mkdb

/-- `e` meets no type error on any tuple with the schema's tags: it evaluates to a value of
type `t`, or stops on an arithmetic error. -/
def Expression.WellTyped (schema : Schema) (e : Expression) (t : VmDataType) : Prop :=
  ∀ tuple, TagsConform schema tuple → ResultHasType (e.eval schema tuple) t

/-- `value` may be stored in `column` of `table`: the column exists and is not `row_id`, and
the value, evaluated over `schema`, has the column's type. -/
def TableMetadata.Stores (table : TableMetadata) (schema : Schema) (column : String)
    (value : Expression) : Prop :=
  column ≠ rowIdCol ∧ ∃ index, table.schema.indexOf column = some index ∧
    value.WellTyped schema (.ofDataType (table.schema.columns.get index).dataType)

/-- What the executor relies on once `analyze` has accepted a statement. An `INSERT`'s
values read no column, so they are evaluated over the empty schema. `CREATE DATABASE`,
`DROP DATABASE` and the transaction statements are accepted as they are. -/
def Statement.WellTyped (ctx : String → Except DbError TableMetadata) : Statement → Prop
  | .create (.table name _) => ∃ missing, ctx name = .error (.sql (.invalidTable missing))
  | .create (.index name table _ unique) => unique = true ∧
    ∃ metadata, ctx table = .ok metadata ∧ ∀ index ∈ metadata.indexes, index.name ≠ name
  | .drop (.table name) => ∃ table, ctx name = .ok table
  | .select columns from_ where_ orderBy => ∃ table, ctx from_ = .ok table ∧
    (∀ expr ∈ columns, expr ≠ .wildcard → ∃ t, expr.WellTyped table.schema t) ∧
    (∀ expr ∈ where_, expr.WellTyped table.schema .bool) ∧
    ∀ expr ∈ orderBy, ∃ t, expr.WellTyped table.schema t
  | .delete from_ where_ => ∃ table, ctx from_ = .ok table ∧
    ∀ expr ∈ where_, expr.WellTyped table.schema .bool
  | .update name columns where_ => ∃ table, ctx name = .ok table ∧
    (∀ col ∈ columns, table.Stores table.schema col.identifier col.value) ∧
    ∀ expr ∈ where_, expr.WellTyped table.schema .bool
  | .insert into columns values => ∃ table cols, ctx into = .ok table ∧
    (insertColumns table columns).run = some (.ok cols) ∧
    List.Forall₂ (fun value column => table.Stores .empty column value) values cols
  | .explain statement => statement.WellTyped ctx
  | _ => True

/-! ## Expressions -/

/-- An expression `analyze_expression` accepts evaluates to the type it predicts. -/
theorem wellTyped_of_analyzeExpression {schema : Schema} {colDataType : Option DataType}
    {e : Expression} {t : VmDataType} (h : analyzeExpression schema colDataType e = .ok t) :
    e.WellTyped schema t := by
  induction e generalizing t with
  | identifier name =>
    obtain ⟨index, hindex, rfl⟩ := analyzeExpression_identifier h
    intro tuple ht
    obtain ⟨v, hv, hvt⟩ := ht.get index
    simp only [Expression.eval, hindex, hv]
    exact hvt
  | value v => exact fun _ _ => (analyzeExpression_value h).symm
  | wildcard => cases h
  | binaryOperation left operator right ihl ihr =>
    obtain ⟨operand, hl, hr, hop⟩ := analyzeExpression_binaryOperation h
    exact fun tuple ht => resultHasType_binaryOperation (ihl hl tuple ht) (ihr hr tuple ht) hop
  | unaryOperation operator expr ih =>
    obtain ⟨rfl, ⟨n, rfl⟩ | hexpr⟩ := analyzeExpression_unaryOperation h
    · exact fun _ _ => resultHasType_unaryOperation (r := .ok (.number n)) rfl
    · exact fun tuple ht => resultHasType_unaryOperation (ih hexpr tuple ht)
  | nested expr ih => exact ih h

theorem analyzeWhere_eq_ok {schema : Schema} {where_ : Option Expression} :
    analyzeWhere schema where_ = .ok () ↔
      ∀ expr ∈ where_, analyzeExpression schema none expr = .ok .bool := by
  cases where_ with
  | none => exact iff_of_true rfl nofun
  | some expr =>
    simp only [analyzeWhere, except_bind_eq_ok, except_mapError_eq_ok, Option.mem_def,
      Option.some.injEq, forall_eq']
    constructor
    · rintro ⟨t, ht, hbool⟩
      by_cases htb : t = .bool
      · exact htb ▸ ht
      · simp only [htb, if_false] at hbool
        cases hbool
    · intro h
      exact ⟨.bool, h, rfl⟩

theorem wellTyped_of_analyzeWhere {schema : Schema} {where_ : Option Expression}
    (h : analyzeWhere schema where_ = .ok ()) :
    ∀ expr ∈ where_, expr.WellTyped schema .bool := fun expr hexpr =>
  wellTyped_of_analyzeExpression (analyzeWhere_eq_ok.mp h expr hexpr)

/-- A value `analyze_assignment` accepts may be stored in its column. -/
theorem stores_of_analyzeAssignment {table : TableMetadata} {column : String}
    {value : Expression} {allowIdentifiers : Bool}
    (h : analyzeAssignment table column value allowIdentifiers = .ok ()) :
    table.Stores (if allowIdentifiers then table.schema else .empty) column value := by
  obtain ⟨hrow, index, hindex, hty, -⟩ := analyzeAssignment_eq_ok.mp h
  exact ⟨hrow, index, hindex, wellTyped_of_analyzeExpression hty⟩

/-! ## Statements -/

/-- The analyzer's check is sound for whole statements: whatever `analyze` accepts agrees with
the catalog, and evaluates, on every tuple with the table's tags, without a type error. -/
theorem analyze_wellTyped (ctx : String → Except DbError TableMetadata) (s : Statement)
    (h : (analyze ctx s).run = some (.ok ())) : s.WellTyped ctx := by
  induction s with
  | select columns from_ where_ orderBy =>
    simp only [analyze_select, run_liftResult, Option.some.injEq, except_bind_eq_ok] at h
    obtain ⟨table, hctx, ⟨⟩, hcolumns, ⟨⟩, hwhere, horderBy⟩ := h
    refine ⟨table, hctx, fun expr hexpr hne => ?_, wellTyped_of_analyzeWhere hwhere,
      fun expr hexpr => ?_⟩
    · have hstep := except_forM_eq_ok.mp hcolumns expr hexpr
      rw [if_pos hne] at hstep
      obtain ⟨t, ht⟩ := except_discard_eq_ok.mp hstep
      exact ⟨t, wellTyped_of_analyzeExpression (except_mapError_eq_ok.mp ht)⟩
    · obtain ⟨t, ht⟩ := except_discard_eq_ok.mp (except_forM_eq_ok.mp horderBy expr hexpr)
      exact ⟨t, wellTyped_of_analyzeExpression (except_mapError_eq_ok.mp ht)⟩
  | delete from_ where_ =>
    rw [analyze_delete, run_liftResult, Option.some.injEq, except_bind_eq_ok] at h
    obtain ⟨table, hctx, h⟩ := h
    split at h
    · cases h
    · exact ⟨table, hctx, wellTyped_of_analyzeWhere h⟩
  | update name columns where_ =>
    obtain ⟨table, hctx, -, hcolumns, hwhere⟩ := analyze_update_eq_ok.mp h
    exact ⟨table, hctx, fun col hcol => stores_of_analyzeAssignment (hcolumns col hcol),
      wellTyped_of_analyzeWhere hwhere⟩
  | insert into columns values =>
    cases hctx : ctx into with
    | error e =>
      simp only [analyze_insert, run_liftResult_bind, hctx] at h
      cases h
    | ok table =>
      obtain ⟨-, cols, -, hcols, hlen, -, -, -, hvalues⟩ := analyze_insert_eq_ok hctx h
      exact ⟨table, cols, hctx, hcols, ((analyzeInsertValues_eq_ok hlen.symm).mp hvalues).imp
        fun _ _ => stores_of_analyzeAssignment⟩
  | create c =>
    cases c with
    | table name columns =>
      simp only [analyze_createTable, run_liftResult, Option.some.injEq] at h
      split at h
      · exact ⟨_, ‹_›⟩
      · cases h
      · cases h
    | index name table column unique =>
      simp only [analyze_createIndex, run_liftResult, Option.some.injEq] at h
      cases unique
      · cases h
      · simp only [Bool.not_true, Bool.false_eq_true, if_false, pure_bind, except_bind_eq_ok] at h
        obtain ⟨metadata, hctx, h⟩ := h
        refine ⟨rfl, metadata, hctx, fun index hindex hname => ?_⟩
        rw [if_pos (List.any_eq_true.mpr ⟨index, hindex, by simp [hname]⟩)] at h
        cases h
    | database => trivial
  | drop d =>
    cases d with
    | table name =>
      rw [analyze_dropTable, run_liftResult, Option.some.injEq] at h
      exact except_discard_eq_ok.mp h
    | database => trivial
  | explain statement ih => exact ih h
  | startTransaction | rollback | commit => trivial

/-- `UPDATE users SET name = 'x' WHERE id + 1 > 2;` on `users (id INT, name VARCHAR(8))`. -/
theorem analyze_wellTyped_of_update_users :
    let ctx : String → Except DbError TableMetadata :=
      fun _ => .ok ⟨⟨[Column.new "id" .int, Column.new "name" (.varchar 8)]⟩, []⟩
    let s : Statement := .update "users" [⟨"name", .value (.string "x")⟩]
      (some (.binaryOperation (.binaryOperation (.identifier "id") .plus (.value (.number 1)))
        .gt (.value (.number 2))))
    (analyze ctx s).run = some (.ok ()) ∧ s.WellTyped ctx := by
  intro ctx s
  have h : (analyze ctx s).run = some (.ok ()) := by decide
  exact ⟨h, analyze_wellTyped ctx s h⟩

end Mkdb
