import Mathlib.Data.List.Basic
import Mathlib.Data.List.FinRange
import Mathlib.Algebra.Group.Nat.Basic

/-!
# SQL statements and the catalog's schema

Rendering of `sql/statement.rs`: the AST the parser yields (`Statement`, `Expression`), the
values expressions resolve to (`Value`) and the column types of a table (`DataType`).

`Schema` and the two reserved names come from `db.rs`, which is not part of this excerpt;
they are modelled from the spec (an ordered column list with a name lookup). `usize` and
`i128` are `Nat` and `Int`: the only `i128` operation the modelled code can overflow is the
negation of `i128::MIN` in `analyze_expression`, which no parsed literal reaches.
-/

namespace Mkdb

/-- `DataType` (`statement.rs:103-111`). -/
inductive DataType where
  | int
  | unsignedInt
  | bigInt
  | unsignedBigInt
  | bool
  | varchar (max : Nat)
  deriving DecidableEq, Repr

/-- `Value` (`statement.rs:115-137`): `Number` is an `i128`. -/
inductive Value where
  | string (s : String)
  | bool (b : Bool)
  | number (n : Int)
  deriving DecidableEq, Repr

/-- `BinaryOperator` (`statement.rs:73-86`). -/
inductive BinaryOperator where
  | eq | neq | lt | ltEq | gt | gtEq | plus | minus | mul | div | and | or
  deriving DecidableEq, Repr

/-- `UnaryOperator` (`statement.rs:90-93`). -/
inductive UnaryOperator where
  | plus | minus
  deriving DecidableEq, Repr

/-- `Expression` (`statement.rs:50-69`). -/
inductive Expression where
  | identifier (name : String)
  | value (v : Value)
  | wildcard
  | binaryOperation (left : Expression) (operator : BinaryOperator) (right : Expression)
  | unaryOperation (operator : UnaryOperator) (expr : Expression)
  | nested (expr : Expression)
  deriving DecidableEq, Repr

/-- `Constraint` (`statement.rs:97-100`). -/
inductive Constraint where
  | primaryKey | unique
  deriving DecidableEq, Repr

/-- `Column` (`statement.rs:148-152`). -/
structure Column where
  name : String
  dataType : DataType
  constraints : List Constraint
  deriving DecidableEq, Repr

/-- `Column::new` (`statement.rs:155-161`). -/
def Column.new (name : String) (dataType : DataType) : Column := ⟨name, dataType, []⟩

/-- `Assignment` (`statement.rs:141-144`). -/
structure Assignment where
  identifier : String
  value : Expression
  deriving DecidableEq, Repr

/-- `Create` (`statement.rs:182-194`). -/
inductive Create where
  | database (name : String)
  | table (name : String) (columns : List Column)
  | index (name table column : String) (unique : Bool)
  deriving DecidableEq, Repr

/-- `Drop` (`statement.rs:198-201`). -/
inductive Drop where
  | table (name : String)
  | database (name : String)
  deriving DecidableEq, Repr

/-- `Statement` (`statement.rs:10-46`). -/
inductive Statement where
  | create (c : Create)
  | select (columns : List Expression) (from_ : String) (where_ : Option Expression)
      (orderBy : List Expression)
  | delete (from_ : String) (where_ : Option Expression)
  | update (table : String) (columns : List Assignment) (where_ : Option Expression)
  | insert (into : String) (columns : List String) (values : List Expression)
  | drop (d : Drop)
  | startTransaction
  | rollback
  | commit
  | explain (inner : Statement)
  deriving DecidableEq, Repr

/-- `PartialOrd for Value` (`statement.rs:235-242`): `none` is the type error of mismatched
tags. -/
def Value.partialCmp : Value → Value → Option Ordering
  | .number a, .number b => some (compare a b)
  | .string a, .string b => some (compare a b)
  | .bool a, .bool b => some (compare a b)
  | _, _ => none

/-! ## `Display` of expressions

The planner names the columns it synthesises after the expression's text
(`format!("{expr}")`), so the `Display` impls (`statement.rs:245-337`) are part of the model. -/

/-- `Display for Value` (`statement.rs:245-253`). -/
def Value.display : Value → String
  | .number n => toString n
  | .string s => "\"" ++ s ++ "\""
  | .bool b => if b then "TRUE" else "FALSE"

/-- `Display for BinaryOperator` (`statement.rs:290-307`). -/
def BinaryOperator.display : BinaryOperator → String
  | .eq => "=" | .neq => "!=" | .lt => "<" | .ltEq => "<=" | .gt => ">" | .gtEq => ">="
  | .plus => "+" | .minus => "-" | .mul => "*" | .div => "/" | .and => "AND" | .or => "OR"

/-- `Display for UnaryOperator` (`statement.rs:309-316`). -/
def UnaryOperator.display : UnaryOperator → String
  | .minus => "-"
  | .plus => "+"

/-- `Display for Expression` (`statement.rs:318-337`). -/
def Expression.display : Expression → String
  | .identifier ident => ident
  | .value v => v.display
  | .wildcard => "*"
  | .binaryOperation l op r => l.display ++ " " ++ op.display ++ " " ++ r.display
  | .unaryOperation op e => op.display ++ e.display
  | .nested e => "(" ++ e.display ++ ")"

/-- `Display for DataType` (`statement.rs:255-266`). -/
def DataType.display : DataType → String
  | .int => "INT"
  | .unsignedInt => "INT UNSIGNED"
  | .bigInt => "BIGINT"
  | .unsignedBigInt => "BIGINT UNSIGNED"
  | .bool => "BOOL"
  | .varchar max => "VARCHAR(" ++ toString max ++ ")"

/-- `Display for Column` (`statement.rs:268-282`). -/
def Column.display (col : Column) : String :=
  col.constraints.foldl
    (fun s constraint => s ++ " " ++ match constraint with
      | .primaryKey => "PRIMARY KEY"
      | .unique => "UNIQUE")
    (col.name ++ " " ++ col.dataType.display)

/-- `Display for Assignment` (`statement.rs:284-288`). -/
def Assignment.display (a : Assignment) : String := a.identifier ++ " = " ++ a.value.display

/-- `join` (`statement.rs:204-224`): the rendered values with the separator between them,
written into one buffer. -/
def join {α : Type} (display : α → String) (values : List α) (separator : String) : String :=
  let joined := ""
  match values with
  | [] => joined
  | value :: rest =>
    rest.foldl (fun joined value => joined ++ separator ++ display value) (joined ++ display value)

section Join

variable {α : Type} (display : α → String) (separator : String)

/-- The loop of `join` appends after what it has written: it keeps any text before it. -/
theorem join_fold_append (rest : List α) (before joined : String) :
    rest.foldl (fun joined value => joined ++ separator ++ display value) (before ++ joined) =
      before ++ rest.foldl (fun joined value => joined ++ separator ++ display value) joined := by
  induction rest generalizing joined with
  | nil => rfl
  | cons value rest ih =>
    rw [List.foldl_cons, List.foldl_cons, ← ih]
    congr 1
    simp only [String.append_assoc]

/-- The loop of `join` is the accumulator loop of `String.intercalate`. -/
theorem join_fold_eq_intercalate_go (rest : List α) (joined : String) :
    rest.foldl (fun joined value => joined ++ separator ++ display value) joined =
      String.intercalate.go joined separator (rest.map display) := by
  induction rest generalizing joined with
  | nil => rfl
  | cons value rest ih => exact ih _

/-- The optimised `join` matches the plain one: the empty string for no values, the one
rendered value for one, and otherwise the first rendered value, the separator and the join of
the rest; that is, the library's `String.intercalate` of the rendered values. -/
theorem join_eq_plain_join (values : List α) :
    join display values separator = separator.intercalate (values.map display) ∧
      join display [] separator = "" ∧
      (∀ value, join display [value] separator = display value) ∧
      ∀ value next rest, join display (value :: next :: rest) separator =
        display value ++ separator ++ join display (next :: rest) separator := by
  refine ⟨?_, rfl, fun _ => rfl, fun value next rest => ?_⟩
  · cases values with
    | nil => rfl
    | cons value rest => exact join_fold_eq_intercalate_go display separator rest _
  · show rest.foldl _ ("" ++ display value ++ separator ++ display next) =
      display value ++ separator ++ rest.foldl _ ("" ++ display next)
    rw [String.empty_append, String.empty_append, join_fold_append]

end Join

/-- `Display for Statement` (`statement.rs:339-437`). -/
def Statement.display : Statement → String
  | .create (.table name columns) =>
    "CREATE TABLE " ++ name ++ " (" ++ join Column.display columns ", " ++ ");"
  | .create (.database name) => "CREATE DATABASE " ++ name ++ ";"
  | .create (.index name table column unique) =>
    "CREATE" ++ (if unique then " UNIQUE " else " ") ++ "INDEX " ++ name ++ " ON " ++ table ++
      "(" ++ column ++ ");"
  | .select columns from_ where_ orderBy =>
    "SELECT " ++ join Expression.display columns ", " ++ " FROM " ++ from_ ++
      (match where_ with | some expr => " WHERE " ++ expr.display | none => "") ++
      (if orderBy.isEmpty then "" else " ORDER BY " ++ join Expression.display orderBy ", ") ++ ";"
  | .delete from_ where_ =>
    "DELETE FROM " ++ from_ ++
      (match where_ with | some expr => " WHERE " ++ expr.display | none => "") ++ ";"
  | .update table columns where_ =>
    "UPDATE " ++ table ++ " SET " ++ join Assignment.display columns ", " ++
      (match where_ with | some expr => " WHERE " ++ expr.display | none => "") ++ ";"
  | .insert into columns values =>
    "INSERT INTO " ++ into ++
      (if columns.isEmpty then " " else " (" ++ join id columns ", " ++ ") ") ++
      "VALUES (" ++ join Expression.display values ", " ++ ");"
  | .drop (.table name) => "DROP TABLE " ++ name ++ ";"
  | .drop (.database name) => "DROP DATABASE " ++ name ++ ";"
  | .startTransaction => "START TRANSACTION;"
  | .commit => "COMMIT;"
  | .rollback => "ROLLBACK;"
  | .explain statement => "EXPLAIN " ++ statement.display ++ ";"

/-- Whether an expression is a bare `Identifier`, the test of the planner's
`matches!(expr, Expression::Identifier(_))`. -/
def Expression.isIdentifier : Expression → Bool
  | .identifier _ => true
  | _ => false

theorem Expression.isIdentifier_eq_true {expr : Expression} :
    expr.isIdentifier = true ↔ ∃ name, expr = .identifier name := by
  cases expr <;> simp [Expression.isIdentifier]

/-! ## The catalog's schema -/

/-- Modelled from the spec: `Schema` of `db.rs`, "ordered sequence of columns with an
auxiliary name→index lookup". The lookup is derived from the columns, so the columns are the
whole state. -/
structure Schema where
  columns : List Column
  deriving DecidableEq, Repr

namespace Schema

/-- Modelled from the spec: `Schema::index_of`, the position of the column of that name.
The source answers from a name→index map built from the columns; for the distinct names the
spec requires, that is the one position holding the name. An index it returns always points
into the columns, so it is a `Fin`. -/
def indexOf (s : Schema) (name : String) : Option (Fin s.columns.length) :=
  (List.finRange s.columns.length).find? fun i => (s.columns.get i).name == name

/-- Modelled from the spec: `Schema::len`. -/
def len (s : Schema) : Nat := s.columns.length

/-- Modelled from the spec: `Schema::empty`. -/
def empty : Schema := ⟨[]⟩

/-- Modelled from the spec: `Schema::push`. -/
def push (s : Schema) (col : Column) : Schema := ⟨s.columns ++ [col]⟩

/-- Modelled from the spec: `Schema::column_identifiers`, the column names in order. -/
def columnIdentifiers (s : Schema) : List String := s.columns.map (·.name)

theorem indexOf_name {s : Schema} {name : String} {i : Fin s.columns.length}
    (h : s.indexOf name = some i) : (s.columns.get i).name = name := by
  simpa using List.find?_some h

theorem indexOf_eq_none {s : Schema} {name : String} :
    s.indexOf name = none ↔ name ∉ s.columnIdentifiers := by
  simp only [indexOf, List.find?_eq_none, List.mem_finRange, true_implies, beq_iff_eq,
    columnIdentifiers, List.mem_map, not_exists, not_and]
  constructor
  · intro h c hc
    obtain ⟨i, rfl⟩ := List.get_of_mem hc
    exact h i
  · exact fun h i => h _ (List.get_mem _ _ _)

end Schema

/-- Modelled from the spec: `ROW_ID_COL`, the engine's row identifier column. -/
def rowIdCol : String := "row_id"

/-- Modelled from the spec: `MKDB_META`, the catalog table. -/
def mkdbMeta : String := "mkdb_meta"

/-- Modelled from the spec: `VmDataType` of `vm.rs`, the semantic type an expression
evaluates to. -/
inductive VmDataType where
  | bool | string | number
  deriving DecidableEq, Repr

/-- Modelled from the spec: `From<DataType> for VmDataType`; `Bool → Bool`,
`Varchar → String`, the integer types → `Number`. -/
def VmDataType.ofDataType : DataType → VmDataType
  | .bool => .bool
  | .varchar _ => .string
  | _ => .number

/-- The tag of a value, as a `VmDataType`. -/
def Value.vmType : Value → VmDataType
  | .bool _ => .bool
  | .string _ => .string
  | .number _ => .number

end Mkdb
