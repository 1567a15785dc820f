import Mkdb.Db

/-!
# Plan trees

`vm/plan.rs` is not part of this excerpt; the plan tree is modelled from the spec, with the
fields the planner sets. The shared pager, the cursors and the `work_dir` of the source's
nodes are left out: the planner copies them through unchanged, and nothing modelled reads
them.
-/

namespace Mkdb

/-- Modelled from the spec: one end of a range scan over serialized keys. -/
inductive Bound where
  | included (key : List UInt8)
  | excluded (key : List UInt8)
  | unbounded
  deriving DecidableEq, Repr

/-- Modelled from the spec: what a scan walks, a table's B-Tree or one of its indexes. -/
inductive Relation where
  | table (table : TableMetadata)
  | index (index : IndexMetadata)
  deriving DecidableEq, Repr

/-- Modelled from the spec: the key comparator of a B-Tree, a fixed-width `memcmp` for
integer keys and a lexicographic one for `VARCHAR` keys. -/
inductive Comparator where
  | fixedSizeMemCmp (width : Nat)
  | stringCmp
  deriving DecidableEq, Repr

/-- Modelled from the spec: `TuplesComparator`, which orders tuples of `sort_schema` on the
columns at `sort_keys_indexes`. -/
structure TuplesComparator where
  schema : Schema
  sortSchema : Schema
  sortKeysIndexes : List Nat
  deriving DecidableEq, Repr

/-- Modelled from the spec: `Plan`. A `Sort` owns its `Collect`, whose source, schema and
buffer size are the `collect*` fields. -/
inductive Plan where
  | seqScan (table : TableMetadata)
  | exactMatch (relation : Relation) (key : List UInt8) (expr : Expression)
      (emitTableKeyOnly : Bool)
  | rangeScan (relation : Relation) (range : Bound × Bound) (expr : Expression)
      (emitTableKeyOnly : Bool)
  | logicalOrScan (scans : List Plan)
  | keyScan (table : TableMetadata) (comparator : Comparator) (source : Plan)
  | values (values : List (List Expression))
  | filter (filter : Expression) (schema : Schema) (source : Plan)
  | project (inputSchema outputSchema : Schema) (projection : List Expression) (source : Plan)
  | sortKeysGen (source : Plan) (schema : Schema) (genExprs : List Expression)
  | collect (source : Plan) (schema : Schema) (memBufSize : Nat)
  | sort (pageSize : Nat) (collectSource : Plan) (collectSchema : Schema)
      (collectMemBufSize : Nat) (comparator : TuplesComparator) (inputBuffers : Nat)
  | insert (source : Plan) (table : TableMetadata) (comparator : Comparator)
  | update (source : Plan) (table : TableMetadata) (assignments : List Assignment)
      (comparator : Comparator)
  | delete (source : Plan) (table : TableMetadata) (comparator : Comparator)
  deriving Repr

end Mkdb
