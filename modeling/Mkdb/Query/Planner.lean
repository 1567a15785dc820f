import Mkdb.Sql.Analyzer
import Mkdb.Vm.Plan

/-!
# Plan generation

Rendering of `query/planner.rs`. `generate_plan` turns an analyzed statement into a plan
tree: the scan the selector picks, a sort chain for an `ORDER BY`, a projection when the
output columns differ from the table's, and a `Collect` between a cursor-holding scan and an
`UPDATE` or `DELETE` sink.

The scan selector (`optimizer::generate_scan_plan`), `TableMetadata::comparator` and
`DEFAULT_SORT_INPUT_BUFFERS` are outside this excerpt and are parameters of the model
(`PlannerDeps`); of the `Database` the planner reads the catalog and the pager's page size.
-/

namespace Mkdb

/-- What `generate_plan` reads of `Database<F>`: `table_metadata` and the pager's
`page_size`. -/
structure Database where
  tableMetadata : String → Except DbError TableMetadata
  pageSize : Nat

/-- The code outside this excerpt that `generate_plan` calls. -/
structure PlannerDeps where
  generateScanPlan : String → Option Expression → Database → Except DbError Plan
  comparator : TableMetadata → Except DbError Comparator
  defaultSortInputBuffers : Nat

/-- The `?` that converts a `SqlError` into a `DbError`. -/
def liftSql {α : Type} (x : ExceptT SqlError Option α) : ExceptT DbError Option α :=
  ExceptT.adapt .sql x

@[simp] theorem run_liftSql {α : Type} (x : ExceptT SqlError Option α) :
    (liftSql x).run = x.run.map (Except.mapError .sql) := rfl

/-- `resolve_unknown_type` (`planner.rs:240-253`): the data type of the column an expression
is computed into. Identifiers keep their column's type; an unknown identifier is the
`unwrap` panic. -/
def resolveUnknownType (schema : Schema) (expr : Expression) : ExceptT SqlError Option DataType :=
  match expr with
  | .identifier col => do
    let index ← unwrapOrPanic (schema.indexOf col)
    pure (schema.columns.get index).dataType
  | _ => do
    match ← liftResult (analyzeExpression schema none expr) with
    | .bool => pure .bool
    | .number => pure .bigInt
    | .string => pure (.varchar 65535)

/-- `needs_collection` (`planner.rs:257-268`); `none` is its `unreachable!`. -/
def needsCollection : Plan → Option Bool
  | .filter _ _ source => needsCollection source
  | .keyScan .. | .exactMatch .. => some false
  | .seqScan _ | .rangeScan .. | .logicalOrScan _ => some true
  | _ => none

/-- One step of the loop over `order_by` (`planner.rs:76-88`): the sort key's index, and the
sort schema with the column the expression is computed into when it is not an identifier. -/
def sortKey (schema sortSchema : Schema) (expr : Expression) :
    ExceptT DbError Option (Schema × Nat) :=
  match expr with
  | .identifier col => do
    let index ← unwrapOrPanic (schema.indexOf col)
    pure (sortSchema, index.val)
  | _ => do
    let index := sortSchema.len
    let dataType ← liftSql (resolveUnknownType schema expr)
    pure (sortSchema.push (Column.new expr.display dataType), index)

/-- The loop over `order_by` (`planner.rs:72-89`): `sort_schema` and `sort_keys_indexes`. -/
def sortKeys (schema : Schema) : Schema → List Expression →
    ExceptT DbError Option (Schema × List Nat)
  | sortSchema, [] => pure (sortSchema, [])
  | sortSchema, expr :: orderBy => do
    let (sortSchema, index) ← sortKey schema sortSchema expr
    let (sortSchema, sortKeysIndexes) ← sortKeys schema sortSchema orderBy
    pure (sortSchema, index :: sortKeysIndexes)

/-- The sort chain of a `SELECT` (`planner.rs:67-122`): `Sort` over a `Collect` of the
source, with a `SortKeysGen` in between when some sort key is computed. -/
def sortPlan (deps : PlannerDeps) (pageSize : Nat) (table : TableMetadata)
    (orderBy : List Expression) (source : Plan) : ExceptT DbError Option Plan := do
  let (sortSchema, sortKeysIndexes) ← sortKeys table.schema table.schema orderBy
  let collectSource := if sortSchema.len > table.schema.len then
      Plan.sortKeysGen source table.schema (orderBy.filter fun expr => !expr.isIdentifier)
    else source
  pure (.sort pageSize collectSource sortSchema pageSize
    ⟨table.schema, sortSchema, sortKeysIndexes⟩ deps.defaultSortInputBuffers)

/-- The loop building the output schema of a `SELECT` (`planner.rs:127-141`). -/
def outputSchema (schema : Schema) : Schema → List Expression → ExceptT DbError Option Schema
  | out, [] => pure out
  | out, expr :: columns => do
    let col ← match expr with
      | .identifier ident => do
        let index ← unwrapOrPanic (schema.indexOf ident)
        pure (schema.columns.get index)
      | _ => do
        let dataType ← liftSql (resolveUnknownType schema expr)
        pure ⟨expr.display, dataType, []⟩
    outputSchema schema (out.push col) columns

/-- The buffering of the `UPDATE` and `DELETE` arms (`planner.rs:174-181`, `planner.rs:196-203`):
a scan that holds a cursor is collected first. -/
def collectIfNeeded (source : Plan) (metadata : TableMetadata) (pageSize : Nat) :
    ExceptT DbError Option Plan := do
  let needs ← unwrapOrPanic (needsCollection source)
  pure (if needs then .collect source metadata.schema pageSize else source)

/-- `generate_plan` (`planner.rs:30-224`). -/
def generatePlan (deps : PlannerDeps) (statement : Statement) (db : Database) :
    ExceptT DbError Option Plan :=
  match statement with
  | .insert into _ values => do
    let source := Plan.values [values]
    let table ← liftResult (db.tableMetadata into)
    let comparator ← liftResult (deps.comparator table)
    let table ← liftResult (db.tableMetadata into)
    pure (.insert source table comparator)
  | .select columns from_ where_ orderBy => do
    let source ← liftResult (deps.generateScanPlan from_ where_ db)
    let pageSize := db.pageSize
    let table ← liftResult (db.tableMetadata from_)
    let sorted ← if orderBy.isEmpty then pure false else do
      let first ← unwrapOrPanic table.schema.columns[0]?
      pure (orderBy != [.identifier first.name])
    let source ← if sorted then sortPlan deps pageSize table orderBy source else pure source
    let outputSchema ← outputSchema table.schema Schema.empty columns
    if table.schema = outputSchema then pure source
    else pure (.project table.schema outputSchema columns source)
  | .update table columns where_ => do
    let source ← liftResult (deps.generateScanPlan table where_ db)
    let pageSize := db.pageSize
    let metadata ← liftResult (db.tableMetadata table)
    let source ← collectIfNeeded source metadata pageSize
    let comparator ← liftResult (deps.comparator metadata)
    pure (.update source metadata columns comparator)
  | .delete from_ where_ => do
    let source ← liftResult (deps.generateScanPlan from_ where_ db)
    let pageSize := db.pageSize
    let metadata ← liftResult (db.tableMetadata from_)
    let source ← collectIfNeeded source metadata pageSize
    let comparator ← liftResult (deps.comparator metadata)
    pure (.delete source metadata comparator)
  | other => throw (.other ("statement " ++ other.display ++ " not yet implemeted or supported"))

end Mkdb
