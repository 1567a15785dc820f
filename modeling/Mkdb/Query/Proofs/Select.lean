import Mkdb.Query.Proofs.SortKeys

/-!
# The `SELECT` arm of the planner

What `generate_plan` (`planner.rs:54-155`) makes of a `SELECT` that `analyze`
(`analyzer.rs:213-232`) accepted against the same catalog. The arm has three `unwrap`s and
two `?`s past the scan: the table's first column, the index of every identifier in the
`ORDER BY` and in the select list, and the resolved type of every computed expression. The
analyzer checks the last two, so after analysis the only errors left are the scan
selector's, and the only panic is the first column of a table that has none. The one
exception is `*`: the analyzer skips it, and the planner then fails on it.

The output schema is described column by column (`SelectedColumn`), and the loop building it
is characterised once (`outputSchema_of_forall₂`); the whole arm is one equation
(`generatePlan_select_eq`) from which the sort chain of a sorted `SELECT`
(`generatePlan_sort_keys`) and the results after analysis follow.
-/

namespace Mkdb

/-! ## The output schema -/

/-- The column `outputSchema` builds for one select expression: the table's column for an
identifier, or a column named by the expression's display, of the type the analyzer gives the
expression (`resolve_unknown_type` widens numbers to `BIGINT` and strings to `VARCHAR`). -/
def SelectedColumn (schema : Schema) (expr : Expression) (col : Column) : Prop :=
  (∃ name index, expr = .identifier name ∧ schema.indexOf name = some index ∧
    col = schema.columns.get index) ∨
  (expr.isIdentifier = false ∧ ∃ t, analyzeExpression schema none expr = .ok t ∧
    col = ⟨expr.display, match t with
      | .bool => .bool
      | .number => .bigInt
      | .string => .varchar 65535, []⟩)

theorem outputSchema_cons_of_selected {schema out : Schema} {expr : Expression}
    {col : Column} (h : SelectedColumn schema expr col) (columns : List Expression) :
    (outputSchema schema out (expr :: columns)).run =
      (outputSchema schema (out.push col) columns).run := by
  rcases h with ⟨name, index, rfl, hindex, rfl⟩ | ⟨hne, t, ht, rfl⟩
  · simp only [outputSchema, bind_assoc, pure_bind]
    rw [run_bind_of_ok _ (by rw [run_unwrapOrPanic, hindex]; rfl)]
  · have hdt := resolveUnknownType_of_analyzeExpression hne ht
    cases expr with
    | identifier => cases hne
    | _ =>
      simp only [outputSchema, bind_assoc, pure_bind]
      cases t <;> rw [run_bind_of_ok _ (by rw [run_liftSql, hdt]; rfl)]

/-- The loop of `outputSchema` appends one selected column per expression. -/
theorem outputSchema_of_forall₂ {schema : Schema} {columns : List Expression}
    {cols : List Column} (h : List.Forall₂ (SelectedColumn schema) columns cols) (out : Schema) :
    (outputSchema schema out columns).run = some (.ok ⟨out.columns ++ cols⟩) := by
  induction h generalizing out with
  | nil => simp [outputSchema]
  | cons hcol _ ih => rw [outputSchema_cons_of_selected hcol, ih]; simp [Schema.push]

theorem exists_selectedColumn {schema : Schema} {expr : Expression}
    (h : (∃ col, expr = .identifier col ∧ (schema.indexOf col).isSome) ∨
      (expr.isIdentifier = false ∧ ∃ t, analyzeExpression schema none expr = .ok t)) :
    ∃ col, SelectedColumn schema expr col := by
  rcases h with ⟨name, rfl, hsome⟩ | ⟨hne, t, ht⟩
  · obtain ⟨index, hindex⟩ := Option.isSome_iff_exists.mp hsome
    exact ⟨_, .inl ⟨name, index, rfl, hindex, rfl⟩⟩
  · exact ⟨_, .inr ⟨hne, t, ht, rfl⟩⟩

theorem exists_forall₂_selectedColumn {schema : Schema} {columns : List Expression}
    (h : ∀ expr ∈ columns, ∃ col, SelectedColumn schema expr col) :
    ∃ cols, List.Forall₂ (SelectedColumn schema) columns cols := by
  induction columns with
  | nil => exact ⟨[], .nil⟩
  | cons expr columns ih =>
    obtain ⟨col, hcol⟩ := h expr (List.mem_cons_self _ _)
    obtain ⟨cols, hcols⟩ := ih fun e he => h e (List.mem_cons_of_mem _ he)
    exact ⟨col :: cols, .cons hcol hcols⟩

theorem analyze_select_columns {ctx : String → Except DbError TableMetadata}
    {columns : List Expression} {from_ : String} {where_ : Option Expression}
    {orderBy : List Expression} {table : TableMetadata} (hctx : ctx from_ = .ok table)
    (h : (analyze ctx (.select columns from_ where_ orderBy)).run = some (.ok ())) :
    ∀ expr ∈ columns, expr ≠ .wildcard →
      (∃ col, expr = .identifier col ∧ (table.schema.indexOf col).isSome) ∨
        (expr.isIdentifier = false ∧ ∃ t, analyzeExpression table.schema none expr = .ok t) := by
  simp only [analyze_select, run_liftResult, Option.some.injEq, hctx, except_bind_eq_ok] at h
  obtain ⟨_, ⟨⟩, ⟨⟩, hcols, -⟩ := h
  intro expr hexpr hne
  have hstep := except_forM_eq_ok.mp hcols expr hexpr
  rw [if_pos hne] at hstep
  obtain ⟨t, ht⟩ := except_discard_eq_ok.mp hstep
  rw [except_mapError_eq_ok] at ht
  cases expr with
  | identifier col =>
    obtain ⟨index, hindex, -⟩ := analyzeExpression_identifier ht
    exact .inl ⟨col, rfl, by simp [hindex]⟩
  | _ => exact .inr ⟨rfl, t, ht⟩

/-! ## The `SELECT` arm -/

/-- Whether the `SELECT` arm sorts: a non-empty `ORDER BY` other than the first column. -/
def SelectSorts (table : TableMetadata) (orderBy : List Expression) : Prop :=
  orderBy ≠ [] ∧ ∀ first, table.schema.columns[0]? = some first →
    orderBy ≠ [.identifier first.name]

theorem run_project_of_forall₂ {schema : Schema} {columns : List Expression} {cols : List Column}
    (hcols : List.Forall₂ (SelectedColumn schema) columns cols) (chain : Plan) :
    (do
      let out ← outputSchema schema Schema.empty columns
      if schema = out then pure chain else pure (Plan.project schema out columns chain) :
      ExceptT DbError Option Plan).run =
      some (.ok (if schema = ⟨cols⟩ then chain else .project schema ⟨cols⟩ columns chain)) := by
  rw [run_bind_of_ok _ (outputSchema_of_forall₂ hcols _)]
  simp only [Schema.empty, List.nil_append]
  split <;> rfl

/-- The `SELECT` arm once the scan and the catalog lookup have succeeded: the `unwrap` of the
first column panics on an `ORDER BY` over a table without columns, and otherwise the output
loop runs over the sort chain. -/
theorem generatePlan_select_eq {deps : PlannerDeps} {db : Database}
    {columns : List Expression} {from_ : String} {where_ : Option Expression}
    {orderBy : List Expression} {table : TableMetadata} {source chain : Plan}
    (hscan : deps.generateScanPlan from_ where_ db = .ok source)
    (hmeta : db.tableMetadata from_ = .ok table)
    (hsorted : SelectSorts table orderBy →
      (sortPlan deps db.pageSize table orderBy source).run = some (.ok chain))
    (hunsorted : ¬SelectSorts table orderBy → chain = source) :
    (generatePlan deps (.select columns from_ where_ orderBy) db).run =
      if orderBy ≠ [] ∧ table.schema.columns = [] then none
      else (do
        let out ← outputSchema table.schema Schema.empty columns
        if table.schema = out then pure chain else pure (Plan.project table.schema out columns chain) :
        ExceptT DbError Option Plan).run := by
  simp only [generatePlan, run_liftResult_bind, hscan, hmeta, pure_bind]
  by_cases hempty : orderBy = []
  · subst hempty
    obtain rfl := hunsorted (by simp [SelectSorts])
    simp only [List.isEmpty_nil, if_true, Bool.false_eq_true, if_false, ne_eq, not_true_eq_false,
      false_and]
  rw [if_neg (by simpa using hempty)]
  cases hcs : table.schema.columns with
  | nil =>
    rw [if_pos ⟨hempty, rfl⟩, List.getElem?_nil]
    rfl
  | cons first rest =>
    have hfirst : table.schema.columns[0]? = some first := by rw [hcs, List.getElem?_cons_zero]
    rw [if_neg fun h => List.cons_ne_nil _ _ h.2, List.getElem?_cons_zero,
      run_bind_of_ok _ (by rw [run_unwrapOrPanic]; rfl)]
    by_cases hsame : orderBy = [.identifier first.name]
    · obtain rfl := hunsorted fun h => h.2 first hfirst hsame
      rw [hsame, bne_self_eq_false, if_neg Bool.false_ne_true]
    · have hsort := hsorted ⟨hempty, fun f hf => Option.some.inj (hfirst.symm.trans hf) ▸ hsame⟩
      rw [if_pos (bne_iff_ne.mpr hsame), run_bind_of_ok _ hsort]

theorem generatePlan_select_run {deps : PlannerDeps} {db : Database}
    {columns : List Expression} {from_ : String} {where_ : Option Expression}
    {orderBy : List Expression} {table : TableMetadata} {source chain : Plan} {cols : List Column}
    (hscan : deps.generateScanPlan from_ where_ db = .ok source)
    (hmeta : db.tableMetadata from_ = .ok table)
    (hsorted : SelectSorts table orderBy →
      (sortPlan deps db.pageSize table orderBy source).run = some (.ok chain))
    (hunsorted : ¬SelectSorts table orderBy → chain = source)
    (hcols : List.Forall₂ (SelectedColumn table.schema) columns cols) :
    (generatePlan deps (.select columns from_ where_ orderBy) db).run =
      if orderBy ≠ [] ∧ table.schema.columns = [] then none
      else some (.ok (if table.schema = ⟨cols⟩ then chain
        else .project table.schema ⟨cols⟩ columns chain)) := by
  rw [generatePlan_select_eq hscan hmeta hsorted hunsorted, run_project_of_forall₂ hcols]

/-! ## The sort chain -/

theorem exists_selectChain {deps : PlannerDeps} {pageSize : Nat} {table : TableMetadata}
    {orderBy : List Expression} (source : Plan)
    (horder : ∀ expr ∈ orderBy,
      (∃ col, expr = .identifier col ∧ (table.schema.indexOf col).isSome) ∨
        (expr.isIdentifier = false ∧ ∃ t, analyzeExpression table.schema none expr = .ok t)) :
    ∃ chain, (SelectSorts table orderBy →
        (sortPlan deps pageSize table orderBy source).run = some (.ok chain)) ∧
      (¬SelectSorts table orderBy → chain = source) := by
  by_cases hsorts : SelectSorts table orderBy
  · obtain ⟨⟨sortSchema, indexes⟩, hkeys⟩ := sortKeys_isOk horder table.schema
    exact ⟨_, fun _ => sortPlan_of_sortKeys hkeys, fun h => absurd hsorts h⟩
  · exact ⟨source, fun h => absurd h hsorts, fun _ => rfl⟩

theorem exists_selectedColumns_of_analyze {ctx : String → Except DbError TableMetadata}
    {columns : List Expression} {from_ : String} {where_ : Option Expression}
    {orderBy : List Expression} {table : TableMetadata} (hctx : ctx from_ = .ok table)
    (h : (analyze ctx (.select columns from_ where_ orderBy)).run = some (.ok ()))
    (hwild : .wildcard ∉ columns) :
    ∃ cols, List.Forall₂ (SelectedColumn table.schema) columns cols :=
  exists_forall₂_selectedColumn fun expr hexpr => exists_selectedColumn
    (analyze_select_columns hctx h expr hexpr fun hw => hwild (hw ▸ hexpr))

/-- The users table of the planner's tests,
`users (id INT PRIMARY KEY, name VARCHAR(255), age INT, followers INT)`. -/
def usersTable : TableMetadata := ⟨⟨[⟨"id", .int, [.primaryKey]⟩, Column.new "name" (.varchar 255),
  Column.new "age" .int, Column.new "followers" .int]⟩, []⟩

/-- Analysis is what makes the `SELECT` arm's `unwrap`s safe. For a `SELECT` the analyzer
accepted against the planner's own catalog, with `*` already expanded, the planner returns
an error exactly when the scan selector does, with the scan's error, and panics only on an
`ORDER BY` over a table without columns. -/
theorem generatePlan_analyzed_select_failures {deps : PlannerDeps} {db : Database}
    {columns : List Expression} {from_ : String} {where_ : Option Expression}
    {orderBy : List Expression} {table : TableMetadata}
    (hmeta : db.tableMetadata from_ = .ok table)
    (hanalyze : (analyze db.tableMetadata (.select columns from_ where_ orderBy)).run =
      some (.ok ()))
    (hwild : .wildcard ∉ columns) :
    ((generatePlan deps (.select columns from_ where_ orderBy) db).run = none ↔
        (∃ source, deps.generateScanPlan from_ where_ db = .ok source) ∧ orderBy ≠ [] ∧
          table.schema.columns = []) ∧
      ∀ e, (generatePlan deps (.select columns from_ where_ orderBy) db).run = some (.error e) ↔
        deps.generateScanPlan from_ where_ db = .error e := by
  cases hscan : deps.generateScanPlan from_ where_ db with
  | error e =>
    have hrun : (generatePlan deps (.select columns from_ where_ orderBy) db).run =
        some (.error e) := by
      simp only [generatePlan, run_liftResult_bind, hscan]
    simp [hrun]
  | ok source =>
    obtain ⟨cols, hcols⟩ := exists_selectedColumns_of_analyze hmeta hanalyze hwild
    obtain ⟨chain, hsorted, hunsorted⟩ :=
      exists_selectChain source (analyze_select_orderBy hmeta hanalyze)
    rw [generatePlan_select_run hscan hmeta hsorted hunsorted hcols]
    split <;> simp_all

/-- `SELECT name, age + 10 FROM users ORDER BY followers` over a catalog holding only
`users`, with a sequential scan. -/
theorem generatePlan_analyzed_select_failures_of_users :
    let db : Database := ⟨fun _ => .ok usersTable, 4096⟩
    let deps : PlannerDeps :=
      ⟨fun _ _ _ => .ok (.seqScan usersTable), fun _ => .ok (.fixedSizeMemCmp 4), 4⟩
    let columns : List Expression := [.identifier "name",
      .binaryOperation (.identifier "age") .plus (.value (.number 10))]
    let orderBy : List Expression := [.identifier "followers"]
    (db.tableMetadata "users" = .ok usersTable ∧
      (analyze db.tableMetadata (.select columns "users" none orderBy)).run = some (.ok ()) ∧
      .wildcard ∉ columns) ∧
    (((generatePlan deps (.select columns "users" none orderBy) db).run = none ↔
        (∃ source, deps.generateScanPlan "users" none db = .ok source) ∧ orderBy ≠ [] ∧
          usersTable.schema.columns = []) ∧
      ∀ e, (generatePlan deps (.select columns "users" none orderBy) db).run = some (.error e) ↔
        deps.generateScanPlan "users" none db = .error e) :=
  ⟨⟨rfl, by decide, by decide⟩, generatePlan_analyzed_select_failures rfl (by decide) (by decide)⟩

/-- The plan of an analyzed `SELECT` whose scan was planned, `*` expanded: the sort chain
when the statement sorts (its `ORDER BY` is neither empty nor the first column alone), the
scan otherwise, projected onto one output column per select expression (the table's column
for an identifier; for another expression, its display with the analyzer's type), with the
projection left out exactly when those columns are the table's. -/
theorem generatePlan_analyzed_select {deps : PlannerDeps} {db : Database}
    {columns : List Expression} {from_ : String} {where_ : Option Expression}
    {orderBy : List Expression} {table : TableMetadata} {source : Plan}
    (hscan : deps.generateScanPlan from_ where_ db = .ok source)
    (hmeta : db.tableMetadata from_ = .ok table)
    (hanalyze : (analyze db.tableMetadata (.select columns from_ where_ orderBy)).run =
      some (.ok ()))
    (hwild : .wildcard ∉ columns)
    (hpanic : orderBy = [] ∨ table.schema.columns ≠ []) :
    ∃ chain cols, List.Forall₂ (SelectedColumn table.schema) columns cols ∧
      (SelectSorts table orderBy →
        (sortPlan deps db.pageSize table orderBy source).run = some (.ok chain)) ∧
      (¬SelectSorts table orderBy → chain = source) ∧
      (generatePlan deps (.select columns from_ where_ orderBy) db).run =
        some (.ok (if table.schema = ⟨cols⟩ then chain
          else .project table.schema ⟨cols⟩ columns chain)) := by
  obtain ⟨cols, hcols⟩ := exists_selectedColumns_of_analyze hmeta hanalyze hwild
  obtain ⟨chain, hsorted, hunsorted⟩ :=
    exists_selectChain source (analyze_select_orderBy hmeta hanalyze)
  refine ⟨chain, cols, hcols, hsorted, hunsorted, ?_⟩
  rw [generatePlan_select_run hscan hmeta hsorted hunsorted hcols,
    if_neg fun h => hpanic.elim h.1 fun hne => hne h.2]

/-- The same statement, with its plan: a sort over the scan, then a projection onto
`name` and the `BIGINT` column `age + 10`. -/
theorem generatePlan_analyzed_select_of_users :
    let db : Database := ⟨fun _ => .ok usersTable, 4096⟩
    let deps : PlannerDeps :=
      ⟨fun _ _ _ => .ok (.seqScan usersTable), fun _ => .ok (.fixedSizeMemCmp 4), 4⟩
    let columns : List Expression := [.identifier "name",
      .binaryOperation (.identifier "age") .plus (.value (.number 10))]
    let orderBy : List Expression := [.identifier "followers"]
    (deps.generateScanPlan "users" none db = .ok (.seqScan usersTable) ∧
      db.tableMetadata "users" = .ok usersTable ∧
      (analyze db.tableMetadata (.select columns "users" none orderBy)).run = some (.ok ()) ∧
      .wildcard ∉ columns ∧ (orderBy = [] ∨ usersTable.schema.columns ≠ [])) ∧
    ∃ chain cols, List.Forall₂ (SelectedColumn usersTable.schema) columns cols ∧
      (SelectSorts usersTable orderBy →
        (sortPlan deps db.pageSize usersTable orderBy (.seqScan usersTable)).run =
          some (.ok chain)) ∧
      (¬SelectSorts usersTable orderBy → chain = .seqScan usersTable) ∧
      (generatePlan deps (.select columns "users" none orderBy) db).run =
        some (.ok (if usersTable.schema = ⟨cols⟩ then chain
          else .project usersTable.schema ⟨cols⟩ columns chain)) :=
  ⟨⟨rfl, rfl, by decide, by decide, .inr (List.cons_ne_nil _ _)⟩,
    generatePlan_analyzed_select rfl rfl (by decide) (by decide) (.inr (List.cons_ne_nil _ _))⟩


/-! ## An unexpanded `*` -/

theorem outputSchema_cons_wildcard (schema out : Schema) (columns : List Expression) :
    (outputSchema schema out (.wildcard :: columns)).run =
      some (.error (.sql (.other "unexpected wildcard expression (*)"))) := rfl

/-- The output loop fails at the first `*` once every column before it resolves. -/
theorem outputSchema_of_wildcard_mem {schema : Schema} {columns : List Expression}
    (hcols : ∀ expr ∈ columns, expr ≠ .wildcard → ∃ col, SelectedColumn schema expr col)
    (hwild : .wildcard ∈ columns) (out : Schema) :
    (outputSchema schema out columns).run =
      some (.error (.sql (.other "unexpected wildcard expression (*)"))) := by
  induction columns generalizing out with
  | nil => cases hwild
  | cons expr columns ih =>
    by_cases hexpr : expr = .wildcard
    · subst hexpr
      exact outputSchema_cons_wildcard schema out columns
    · obtain ⟨col, hcol⟩ := hcols expr (List.mem_cons_self _ _) hexpr
      rw [outputSchema_cons_of_selected hcol]
      exact ih (fun e he => hcols e (List.mem_cons_of_mem _ he))
        ((List.mem_cons.mp hwild).resolve_left (Ne.symm hexpr)) _

/-- The planner never plans an unexpanded `*`. The analyzer lets `*` through among a
`SELECT`'s columns, but `generate_plan` resolves it as an expression: a `SELECT` the analyzer
accepted that holds `*` fails with the analyzer's wildcard error, once the scan selector
succeeds and the `ORDER BY` does not panic. -/
theorem generatePlan_analyzed_select_wildcard {deps : PlannerDeps} {db : Database}
    {columns : List Expression} {from_ : String} {where_ : Option Expression}
    {orderBy : List Expression} {table : TableMetadata} {source : Plan}
    (hscan : deps.generateScanPlan from_ where_ db = .ok source)
    (hmeta : db.tableMetadata from_ = .ok table)
    (hanalyze : (analyze db.tableMetadata (.select columns from_ where_ orderBy)).run =
      some (.ok ()))
    (hwild : .wildcard ∈ columns)
    (hpanic : orderBy = [] ∨ table.schema.columns ≠ []) :
    (generatePlan deps (.select columns from_ where_ orderBy) db).run =
      some (.error (.sql (.other "unexpected wildcard expression (*)"))) := by
  obtain ⟨chain, hsorted, hunsorted⟩ :=
    exists_selectChain source (analyze_select_orderBy hmeta hanalyze)
  have houtput := outputSchema_of_wildcard_mem (fun expr hexpr hne => exists_selectedColumn
    (analyze_select_columns hmeta hanalyze expr hexpr hne)) hwild Schema.empty
  rw [generatePlan_select_eq hscan hmeta hsorted hunsorted,
    if_neg fun h => hpanic.elim h.1 fun hne => hne h.2, ExceptT.run_bind, houtput]
  rfl

/-- `SELECT name, * FROM users ORDER BY followers`. -/
theorem generatePlan_analyzed_select_wildcard_of_users :
    let db : Database := ⟨fun _ => .ok usersTable, 4096⟩
    let deps : PlannerDeps :=
      ⟨fun _ _ _ => .ok (.seqScan usersTable), fun _ => .ok (.fixedSizeMemCmp 4), 4⟩
    let columns : List Expression := [.identifier "name", .wildcard]
    let orderBy : List Expression := [.identifier "followers"]
    (deps.generateScanPlan "users" none db = .ok (.seqScan usersTable) ∧
      db.tableMetadata "users" = .ok usersTable ∧
      (analyze db.tableMetadata (.select columns "users" none orderBy)).run = some (.ok ()) ∧
      .wildcard ∈ columns ∧ (orderBy = [] ∨ usersTable.schema.columns ≠ [])) ∧
    (generatePlan deps (.select columns "users" none orderBy) db).run =
      some (.error (.sql (.other "unexpected wildcard expression (*)"))) :=
  ⟨⟨rfl, rfl, by decide, by decide, .inr (List.cons_ne_nil _ _)⟩,
    generatePlan_analyzed_select_wildcard rfl rfl (by decide) (by decide)
      (.inr (List.cons_ne_nil _ _))⟩

end Mkdb
