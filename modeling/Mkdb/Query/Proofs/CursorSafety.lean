import Mkdb.Query.Planner

/-!
# Cursor safety of `UPDATE` and `DELETE` plans

An `UPDATE` or `DELETE` rewrites the B-Tree its scan walks, which can invalidate the scan's
cursor. The planner therefore puts a `Collect` between the sink and every scan that holds a
cursor: a `SeqScan`, `RangeScan` or `LogicalOrScan`, under any number of `Filter`s. `KeyScan`
buffers behind its own sorter and `ExactMatch` yields one tuple, so they feed the sink
directly.

For every plan the scan selector can return, `needs_collection` answers (it never reaches its
`unreachable!`), and `generate_plan` is determined: the sink, over `Collect` exactly when the
leaf holds a cursor, with the table's schema and the page size as buffer.
-/

namespace Mkdb

/-- The leaf scan under a chain of `Filter`s. -/
def Plan.scanLeaf : Plan → Plan
  | .filter _ _ source => source.scanLeaf
  | p => p

/-- The leaves the scan selector builds. -/
def Plan.isLeafScan : Plan → Bool
  | .seqScan _ | .rangeScan .. | .logicalOrScan _ | .keyScan .. | .exactMatch .. => true
  | _ => false

/-- The leaves that keep a cursor into the table while they yield tuples. -/
def Plan.holdsCursor : Plan → Bool
  | .seqScan _ | .rangeScan .. | .logicalOrScan _ => true
  | _ => false

/-- On a scan plan `needs_collection` is defined, and says whether its leaf holds a
cursor. -/
theorem needsCollection_eq_holdsCursor {p : Plan} (h : p.scanLeaf.isLeafScan = true) :
    needsCollection p = some p.scanLeaf.holdsCursor := by
  induction p using needsCollection.induct with
  | case1 _ _ source ih => exact ih h
  | _ => simp_all [needsCollection, Plan.scanLeaf, Plan.isLeafScan, Plan.holdsCursor]

theorem collectIfNeeded_eq {p : Plan} (h : p.scanLeaf.isLeafScan = true)
    (metadata : TableMetadata) (pageSize : Nat) :
    (collectIfNeeded p metadata pageSize).run =
      some (.ok (if p.scanLeaf.holdsCursor then .collect p metadata.schema pageSize else p)) := by
  rw [collectIfNeeded, run_bind_of_ok _ (by rw [run_unwrapOrPanic, needsCollection_eq_holdsCursor h]; rfl)]
  rfl

/-- The plan of an `UPDATE` and of a `DELETE` over any scan plan: the sink over the scan,
with a `Collect` of the table's schema and a page-sized buffer in between exactly when the
scan's leaf holds a cursor. Only the catalog lookup and the comparator can fail. -/
theorem generatePlan_dml_collects (deps : PlannerDeps) (db : Database) {table : String}
    {where_ : Option Expression} {p : Plan} (hscan : deps.generateScanPlan table where_ db = .ok p)
    (hleaf : p.scanLeaf.isLeafScan = true) (columns : List Assignment) :
    (generatePlan deps (.update table columns where_) db).run = some (do
      let metadata ← db.tableMetadata table
      let comparator ← deps.comparator metadata
      pure (.update (if p.scanLeaf.holdsCursor then .collect p metadata.schema db.pageSize else p)
        metadata columns comparator)) ∧
    (generatePlan deps (.delete table where_) db).run = some (do
      let metadata ← db.tableMetadata table
      let comparator ← deps.comparator metadata
      pure (.delete (if p.scanLeaf.holdsCursor then .collect p metadata.schema db.pageSize else p)
        metadata comparator)) := by
  constructor <;>
  · simp only [generatePlan, run_liftResult_bind, hscan]
    cases db.tableMetadata table with
    | error e => rfl
    | ok metadata =>
      dsimp only
      rw [run_bind_of_ok _ (collectIfNeeded_eq hleaf metadata db.pageSize), run_liftResult_bind]
      cases hc : deps.comparator metadata with
      | error e => simp [hc, bind, Except.bind]
      | ok comparator => simp [hc, bind, Except.bind]; rfl

/-- `UPDATE users ...` and `DELETE FROM users ...` over a filtered range scan, the leaf of
`id < 5 AND ...`: both sinks read through a `Collect`. -/
theorem generatePlan_dml_collects_of_filtered_range_scan :
    let md : TableMetadata := ⟨⟨[Column.new "id" .int, Column.new "name" (.varchar 8)]⟩, []⟩
    let predicate : Expression :=
      .binaryOperation (.identifier "id") .lt (.value (.number 5))
    let p : Plan := .filter (.binaryOperation (.identifier "name") .eq (.value (.string "b")))
      md.schema (.rangeScan (.table md) (.unbounded, .excluded [0, 0, 0, 5]) predicate false)
    let deps : PlannerDeps := ⟨fun _ _ _ => .ok p, fun _ => .ok (.fixedSizeMemCmp 4), 4⟩
    let db : Database := ⟨fun _ => .ok md, 4096⟩
    (deps.generateScanPlan "users" (some predicate) db = .ok p ∧
      p.scanLeaf.isLeafScan = true) ∧
    ((generatePlan deps (.update "users" [] (some predicate)) db).run = some (do
      let metadata ← db.tableMetadata "users"
      let comparator ← deps.comparator metadata
      pure (.update (if p.scanLeaf.holdsCursor then .collect p metadata.schema db.pageSize else p)
        metadata [] comparator)) ∧
    (generatePlan deps (.delete "users" (some predicate)) db).run = some (do
      let metadata ← db.tableMetadata "users"
      let comparator ← deps.comparator metadata
      pure (.delete (if p.scanLeaf.holdsCursor then .collect p metadata.schema db.pageSize else p)
        metadata comparator))) := by
  intro md predicate p deps db
  have hscan : deps.generateScanPlan "users" (some predicate) db = .ok p := rfl
  have hleaf : p.scanLeaf.isLeafScan = true := rfl
  exact ⟨⟨hscan, hleaf⟩, generatePlan_dml_collects deps db hscan hleaf []⟩

end Mkdb
