import Mkdb.Sql.Analyzer

/-!
# CREATE TABLE

The `Create::Table` arm of `analyze` (`analyzer.rs:94-128`). When the catalog has no table of
that name, a column list is accepted exactly when its names are pairwise distinct, none is
`row_id`, and at most one column is a primary key; when the table exists, the statement
fails with `AlreadyExists(Table)`.

The loop keeps the names it has seen in a `HashSet` and whether it has found a primary key,
and returns at the first column that breaks a rule. `analyzeColumnDefinitions_eq_ok` is its
invariant, for any names seen and any flag.
-/

namespace Mkdb

/-- With `found` primary keys already counted, a column's primary key keeps the count at
most one exactly when the loop's flag test lets it through and the rest keeps it. -/
theorem countP_primaryKey_cons (col : Column) (cols : List Column) (found : Bool)
    (h : ¬(Constraint.primaryKey ∈ col.constraints ∧ found = true)) :
    (col :: cols).countP (fun col => Constraint.primaryKey ∈ col.constraints) +
        (if found then 1 else 0) ≤ 1 ↔
      cols.countP (fun col => Constraint.primaryKey ∈ col.constraints) +
        (if found || Constraint.primaryKey ∈ col.constraints then 1 else 0) ≤ 1 := by
  rw [List.countP_cons]
  by_cases hpk : Constraint.primaryKey ∈ col.constraints <;> cases found <;> simp_all

/-- The loop over the column definitions accepts exactly when no name is one seen before or
repeats in the list, none is `row_id`, and the primary keys, with one already found counted,
are at most one. -/
theorem analyzeColumnDefinitions_eq_ok (duplicates : List String) (foundPrimaryKey : Bool)
    (columns : List Column) :
    analyzeColumnDefinitions duplicates foundPrimaryKey columns = .ok () ↔
      (∀ col ∈ columns, col.name ∉ duplicates) ∧ (columns.map (·.name)).Nodup ∧
        (∀ col ∈ columns, col.name ≠ rowIdCol) ∧
        columns.countP (fun col => Constraint.primaryKey ∈ col.constraints) +
          (if foundPrimaryKey then 1 else 0) ≤ 1 := by
  induction columns generalizing duplicates foundPrimaryKey with
  | nil => cases foundPrimaryKey <;> exact iff_of_true rfl (by simp)
  | cons col cols ih =>
    simp only [analyzeColumnDefinitions]
    by_cases hdup : col.name ∈ duplicates
    · simp [hdup]
    by_cases hrow : col.name = rowIdCol
    · rw [if_neg hdup, if_pos hrow]
      simp [hrow]
    by_cases hpk : Constraint.primaryKey ∈ col.constraints ∧ foundPrimaryKey = true
    · simp only [if_neg hdup, if_neg hrow, if_pos hpk, reduceCtorEq, false_iff]
      rintro ⟨-, -, -, hcount⟩
      rw [List.countP_cons] at hcount
      simp [hpk] at hcount
    rw [if_neg hdup, if_neg hrow, if_neg hpk, ih, countP_primaryKey_cons col cols _ hpk]
    simp only [List.forall_mem_cons, List.map_cons, List.nodup_cons]
    simp only [List.mem_cons, not_or, List.mem_map, not_exists, not_and]
    constructor
    · rintro ⟨hnames, hnodup, hrows, hcount⟩
      exact ⟨⟨hdup, fun c hc => (hnames c hc).2⟩,
        ⟨fun c hc heq => (hnames c hc).1 heq, hnodup⟩, ⟨hrow, hrows⟩, hcount⟩
    · rintro ⟨⟨-, hnames⟩, ⟨hfresh, hnodup⟩, ⟨-, hrows⟩, hcount⟩
      exact ⟨fun c hc => ⟨hfresh c hc, hnames c hc⟩, hnodup, hrows, hcount⟩

/-- CREATE TABLE analysis, characterised. When the catalog has no table `name`, the
statement is accepted exactly when the column names are pairwise distinct, no column is named
`row_id`, and at most one column is a primary key; so every schema admitted has unique names,
no user `row_id` and at most one primary key. When the table exists, the statement fails with
`AlreadyExists(Table(name))`. -/
theorem analyze_create_table (ctx : String → Except DbError TableMetadata) (name : String)
    (columns : List Column) :
    ((∃ table, ctx name = .error (.sql (.invalidTable table))) →
      ((analyze ctx (.create (.table name columns))).run = some (.ok ()) ↔
        (columns.map (·.name)).Nodup ∧ (∀ col ∈ columns, col.name ≠ rowIdCol) ∧
          columns.countP (fun col => Constraint.primaryKey ∈ col.constraints) ≤ 1)) ∧
    ∀ metadata, ctx name = .ok metadata →
      (analyze ctx (.create (.table name columns))).run =
        some (.error (.sql (.analyzer (.alreadyExists (.table name))))) := by
  refine ⟨fun ⟨table, hctx⟩ => ?_, fun metadata hctx => ?_⟩
  · rw [analyze_createTable, run_liftResult, hctx, Option.some.injEq]
    show analyzeColumnDefinitions [] false columns = .ok () ↔ _
    rw [analyzeColumnDefinitions_eq_ok]
    simp
  · rw [analyze_createTable, run_liftResult, hctx]
    rfl

end Mkdb
