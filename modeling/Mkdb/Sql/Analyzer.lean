import Mkdb.Db
import Mkdb.Storage.Tuple

/-!
# Semantic analysis

Rendering of `sql/analyzer.rs`. `analyze` checks a parsed statement against the catalog,
which it reaches through `ctx.table_metadata`; the model takes that lookup as a function.
`analyze_expression` predicts the `VmDataType` an expression evaluates to, and
`analyze_assignment` checks the right-hand side of an `INSERT` value or `UPDATE` assignment
against its column.

The loops of the source are recursive functions over the lists they iterate; the `HashSet`
of names seen so far is the list of those names.
-/

namespace Mkdb

/-- `analyze_integer_range` (`analyzer.rs:455-465`). -/
def analyzeIntegerRange (integer : Int) (dataType : DataType) : Except AnalyzerError Unit :=
  match dataType with
  | .bigInt | .int | .unsignedBigInt | .unsignedInt =>
    if !Tuple.integerIsWithinRange integer dataType then
      .error (.integerOutOfRange integer dataType)
    else .ok ()
  | _ => .ok ()

/-- `analyze_expression` (`analyzer.rs:349-452`). -/
def analyzeExpression (schema : Schema) (colDataType : Option DataType) :
    Expression → Except SqlError VmDataType
  | .value (.bool _) => .ok .bool
  | .value (.string _) => .ok .string
  | .value (.number num) => do
    if let some dataType := colDataType then
      (analyzeIntegerRange num dataType).mapError .analyzer
    pure .number
  | .identifier ident =>
    match schema.indexOf ident with
    | none => .error (.invalidColumn ident)
    | some index =>
      match (schema.columns.get index).dataType with
      | .bool => .ok .bool
      | .varchar _ => .ok .string
      | _ => .ok .number
  | .unaryOperation operator expr =>
    -- Precompute negative numbers since the optimizer hasn't run yet.
    match colDataType, operator, expr with
    | some dataType, .minus, .value (.number num) => do
      (analyzeIntegerRange (-num) dataType).mapError .analyzer
      pure .number
    | _, _, _ => do
      match ← analyzeExpression schema colDataType expr with
      | .number => pure .number
      | _ => throw (.typeError (.expectedType .number expr))
  | .binaryOperation left operator right => do
    let leftDataType ← analyzeExpression schema colDataType left
    let rightDataType ← analyzeExpression schema colDataType right
    let mismatchedTypes := SqlError.typeError (.cannotApplyBinary left operator right)
    if leftDataType ≠ rightDataType then throw mismatchedTypes
    match operator with
    | .eq | .neq | .lt | .ltEq | .gt | .gtEq => pure .bool
    | .and | .or => if leftDataType = .bool then pure .bool else throw mismatchedTypes
    | .plus | .minus | .div | .mul =>
      if leftDataType = .number then pure .number else throw mismatchedTypes
  | .nested expr => analyzeExpression schema colDataType expr
  | .wildcard => .error (.other "unexpected wildcard expression (*)")

/-- `analyze_where` (`analyzer.rs:279-292`): the predicate, if any, must be a `Bool`. -/
def analyzeWhere (schema : Schema) : Option Expression → Except DbError Unit
  | none => pure ()
  | some expr => do
    if (← (analyzeExpression schema none expr).mapError .sql) = .bool then return ()
    throw (.sql (.typeError (.expectedType .bool expr)))

/-- The `VARCHAR(max)` check that ends `analyze_assignment` (`analyzer.rs:329-335`): the
characters of a bare string literal are counted. -/
def checkValueLength (dataType : DataType) (value : Expression) : Except SqlError Unit :=
  match dataType, value with
  | .varchar max, .value (.string string) =>
    if string.length > max then .error (.analyzer (.valueTooLong string max)) else .ok ()
  | _, _ => .ok ()

/-- `analyze_assignment` (`analyzer.rs:298-338`). -/
def analyzeAssignment (table : TableMetadata) (column : String) (value : Expression)
    (allowIdentifiers : Bool) : Except SqlError Unit :=
  if column = rowIdCol then .error (.analyzer .rowIdAssignment)
  else match table.schema.indexOf column with
    | none => .error (.invalidColumn column)
    | some index => do
      let dataType := (table.schema.columns.get index).dataType
      let expectedDataType := VmDataType.ofDataType dataType
      let preEvalDataType ← analyzeExpression
        (if allowIdentifiers then table.schema else Schema.empty) (some dataType) value
      if expectedDataType ≠ preEvalDataType then
        .error (.typeError (.expectedType expectedDataType value))
      else checkValueLength dataType value

/-- The loop of the `Create::Table` arm (`analyzer.rs:113-126`) over the column
definitions: the names seen so far and whether a primary key was found. -/
def analyzeColumnDefinitions (duplicates : List String) (foundPrimaryKey : Bool) :
    List Column → Except DbError Unit
  | [] => pure ()
  | col :: cols =>
    if col.name ∈ duplicates then .error (.sql (.analyzer (.duplicatedColumn col.name)))
    else if col.name = rowIdCol then .error (.sql (.analyzer .rowIdAssignment))
    else if Constraint.primaryKey ∈ col.constraints ∧ foundPrimaryKey then
      .error (.sql (.analyzer .multiplePrimaryKeys))
    else analyzeColumnDefinitions (col.name :: duplicates)
      (foundPrimaryKey || Constraint.primaryKey ∈ col.constraints) cols

/-- The loop of the `Insert` arm (`analyzer.rs:182-192`) over the column names: each one
exists, appears once and is not `row_id`. -/
def analyzeInsertColumns (schema : Schema) (duplicates : List String) :
    List String → Except DbError Unit
  | [] => pure ()
  | col :: cols =>
    if schema.indexOf col = none then .error (.sql (.invalidColumn col))
    else if col ∈ duplicates then .error (.sql (.analyzer (.duplicatedColumn col)))
    else if col = rowIdCol then .error (.sql (.analyzer .rowIdAssignment))
    else analyzeInsertColumns schema (col :: duplicates) cols

/-- The last loop of the `Insert` arm (`analyzer.rs:205-207`), over
`values.iter().zip(columns)`. -/
def analyzeInsertValues (metadata : TableMetadata) : List Expression → List String →
    Except DbError Unit
  | expr :: values, col :: columns => do
    (analyzeAssignment metadata col expr false).mapError .sql
    analyzeInsertValues metadata values columns
  | _, _ => pure ()

/-- The columns an `INSERT` fills (`analyzer.rs:163-174`): the ones it names, or else every
column of the schema but a leading `row_id`. Indexing the first name of an empty schema is
the panic. -/
def insertColumns (metadata : TableMetadata) (columns : List String) :
    ExceptT DbError Option (List String) :=
  if columns.isEmpty then do
    let schemaColumnNamesCopy := metadata.schema.columnIdentifiers
    let first ← unwrapOrPanic schemaColumnNamesCopy[0]?
    pure (if first = rowIdCol then schemaColumnNamesCopy.drop 1 else schemaColumnNamesCopy)
  else pure columns

/-- `analyze` (`analyzer.rs:90-276`). -/
def analyze (ctx : String → Except DbError TableMetadata) : Statement → ExceptT DbError Option Unit
  | .create (.table name columns) => liftResult do
    match ctx name with
    | .error (.sql (.invalidTable _)) => pure ()
    | .ok _ => throw (.sql (.analyzer (.alreadyExists (.table name))))
    | .error e => throw e
    analyzeColumnDefinitions [] false columns
  | .create (.index name table _ unique) => liftResult do
    if !unique then throw (.sql (.other "non-unique indexes are not supported"))
    let metadata ← ctx table
    if metadata.indexes.any (·.name == name) then
      throw (.sql (.analyzer (.alreadyExists (.index name))))
  | .insert into columns values => do
    let metadata ← liftResult (ctx into)
    if into = mkdbMeta then throw (.sql (.analyzer .mkdbMetaModification))
    let columns ← insertColumns metadata columns
    if columns.length ≠ values.length then throw (.sql (.analyzer .columnValueCountMismatch))
    liftResult (analyzeInsertColumns metadata.schema [] columns)
    let first ← unwrapOrPanic metadata.schema.columns[0]?
    let schemaLen := if first.name = rowIdCol then metadata.schema.len - 1 else metadata.schema.len
    if schemaLen ≠ columns.length then throw (.sql (.analyzer .missingColumns))
    liftResult (analyzeInsertValues metadata values columns)
  | .select columns from_ where_ orderBy => liftResult do
    let metadata ← ctx from_
    columns.forM fun expr => do
      if expr ≠ .wildcard then discard <| (analyzeExpression metadata.schema none expr).mapError .sql
    analyzeWhere metadata.schema where_
    orderBy.forM fun expr => discard <| (analyzeExpression metadata.schema none expr).mapError .sql
  | .delete from_ where_ => liftResult do
    let metadata ← ctx from_
    if from_ = mkdbMeta then throw (.sql (.analyzer .mkdbMetaModification))
    analyzeWhere metadata.schema where_
  | .update table columns where_ => liftResult do
    let metadata ← ctx table
    if table = mkdbMeta then throw (.sql (.analyzer .mkdbMetaModification))
    columns.forM fun col =>
      (analyzeAssignment metadata col.identifier col.value true).mapError .sql
    analyzeWhere metadata.schema where_
  | .explain inner => analyze ctx inner
  | .drop (.table table) => liftResult (discard (ctx table))
  | _ => pure ()

/-- The `Create::Table` arm of `analyze`, stated once so that proofs need not unfold the whole
match. -/
theorem analyze_createTable (ctx : String → Except DbError TableMetadata) (name : String)
    (columns : List Column) :
    analyze ctx (.create (.table name columns)) = liftResult (do
      match ctx name with
      | .error (.sql (.invalidTable _)) => pure ()
      | .ok _ => throw (.sql (.analyzer (.alreadyExists (.table name))))
      | .error e => throw e
      analyzeColumnDefinitions [] false columns) :=
  rfl

/-- The `Create::Index` arm of `analyze`. -/
theorem analyze_createIndex (ctx : String → Except DbError TableMetadata)
    (name table column : String) (unique : Bool) :
    analyze ctx (.create (.index name table column unique)) = liftResult (do
      if !unique then throw (.sql (.other "non-unique indexes are not supported"))
      let metadata ← ctx table
      if metadata.indexes.any (·.name == name) then
        throw (.sql (.analyzer (.alreadyExists (.index name))))) :=
  rfl

/-- The `Drop::Table` arm of `analyze`. -/
theorem analyze_dropTable (ctx : String → Except DbError TableMetadata) (table : String) :
    analyze ctx (.drop (.table table)) = liftResult (discard (ctx table)) :=
  rfl

/-- The `Update` arm of `analyze`. -/
theorem analyze_update (ctx : String → Except DbError TableMetadata) (table : String)
    (columns : List Assignment) (where_ : Option Expression) :
    analyze ctx (.update table columns where_) = liftResult (do
      let metadata ← ctx table
      if table = mkdbMeta then throw (.sql (.analyzer .mkdbMetaModification))
      columns.forM fun col =>
        (analyzeAssignment metadata col.identifier col.value true).mapError .sql
      analyzeWhere metadata.schema where_) :=
  rfl

/-- The `Insert` arm of `analyze`. -/
theorem analyze_insert (ctx : String → Except DbError TableMetadata) (into : String)
    (columns : List String) (values : List Expression) :
    analyze ctx (.insert into columns values) = (do
      let metadata ← liftResult (ctx into)
      if into = mkdbMeta then throw (.sql (.analyzer .mkdbMetaModification))
      let columns ← insertColumns metadata columns
      if columns.length ≠ values.length then throw (.sql (.analyzer .columnValueCountMismatch))
      liftResult (analyzeInsertColumns metadata.schema [] columns)
      let first ← unwrapOrPanic metadata.schema.columns[0]?
      let schemaLen :=
        if first.name = rowIdCol then metadata.schema.len - 1 else metadata.schema.len
      if schemaLen ≠ columns.length then throw (.sql (.analyzer .missingColumns))
      liftResult (analyzeInsertValues metadata values columns)) :=
  rfl

/-- The `Delete` arm of `analyze`. -/
theorem analyze_delete (ctx : String → Except DbError TableMetadata) (from_ : String)
    (where_ : Option Expression) :
    analyze ctx (.delete from_ where_) = liftResult (do
      let metadata ← ctx from_
      if from_ = mkdbMeta then throw (.sql (.analyzer .mkdbMetaModification))
      analyzeWhere metadata.schema where_) :=
  rfl

/-- The `Select` arm of `analyze`. -/
theorem analyze_select (ctx : String → Except DbError TableMetadata) (columns : List Expression)
    (from_ : String) (where_ : Option Expression) (orderBy : List Expression) :
    analyze ctx (.select columns from_ where_ orderBy) = liftResult (do
      let metadata ← ctx from_
      columns.forM fun expr => do
        if expr ≠ .wildcard then
          discard <| (analyzeExpression metadata.schema none expr).mapError .sql
      analyzeWhere metadata.schema where_
      orderBy.forM fun expr =>
        discard <| (analyzeExpression metadata.schema none expr).mapError .sql) :=
  rfl

end Mkdb
