import Mkdb.Sql.Proofs.Assignment

/-!
# An accepted `INSERT` fills each user column once

The `Insert` arm of `analyze` checks the column list in four separate places: the count of
values, a loop rejecting unknown, repeated and `row_id` columns, the count of user columns,
and a loop analysing each value against its column. None of them alone says that the list
is a permutation of the user columns; together they do, by a counting argument: a list
without repetitions drawn from the user columns, and at least as long, is a permutation of
them.
-/

namespace Mkdb

/-- The user columns of a schema: the column names but a leading `row_id`. -/
def Schema.userColumns (s : Schema) : List String :=
  match s.columns with
  | col :: cols => if col.name = rowIdCol then cols.map (·.name) else (col :: cols).map (·.name)
  | [] => []

/-! ## The loops and the default column list -/

/-- The column loop accepts exactly the lists of known, distinct, fresh, non-`row_id`
names. -/
theorem analyzeInsertColumns_eq_ok {schema : Schema} {duplicates cols : List String} :
    analyzeInsertColumns schema duplicates cols = .ok () ↔ cols.Nodup ∧
      ∀ col ∈ cols, col ∈ schema.columnIdentifiers ∧ col ∉ duplicates ∧ col ≠ rowIdCol := by
  induction cols generalizing duplicates with
  | nil => simp [analyzeInsertColumns, pure, Except.pure]
  | cons col cols ih =>
    simp only [analyzeInsertColumns]
    split_ifs with hknown hdup hrow
    · simp [Schema.indexOf_eq_none.mp hknown]
    · simp [hdup]
    · simp [hrow]
    · rw [ih]
      have hmem : col ∈ schema.columnIdentifiers :=
        not_not.mp (mt Schema.indexOf_eq_none.mpr hknown)
      rw [List.nodup_cons, List.forall_mem_cons]
      constructor
      · rintro ⟨hnd, hall⟩
        exact ⟨⟨fun hc => (hall col hc).2.1 (List.mem_cons_self _ _), hnd⟩, ⟨hmem, hdup, hrow⟩,
          fun c hc => ⟨(hall c hc).1, fun hd => (hall c hc).2.1 (List.mem_cons_of_mem _ hd),
            (hall c hc).2.2⟩⟩
      · rintro ⟨⟨hnotin, hnd⟩, -, hall⟩
        refine ⟨hnd, fun c hc => ⟨(hall c hc).1, fun hd => ?_, (hall c hc).2.2⟩⟩
        rcases List.mem_cons.mp hd with rfl | hd
        · exact hnotin hc
        · exact (hall c hc).2.1 hd

/-- The value loop over lists of one length accepts exactly when every value is accepted for
its column. -/
theorem analyzeInsertValues_eq_ok {metadata : TableMetadata} {values : List Expression}
    {cols : List String} (hlen : values.length = cols.length) :
    analyzeInsertValues metadata values cols = .ok () ↔
      List.Forall₂ (fun expr col => analyzeAssignment metadata col expr false = .ok ())
        values cols := by
  induction values generalizing cols with
  | nil => cases cols <;> simp_all [analyzeInsertValues, pure, Except.pure]
  | cons expr values ih =>
    cases cols with
    | nil => simp at hlen
    | cons col cols =>
      simp only [analyzeInsertValues, except_bind_eq_ok, except_mapError_eq_ok,
        List.forall₂_cons, ← ih (Nat.succ.inj hlen)]
      exact ⟨fun ⟨⟨⟩, h, hrest⟩ => ⟨h, hrest⟩, fun ⟨h, hrest⟩ => ⟨(), h, hrest⟩⟩

/-- The columns an `INSERT` fills are the ones it names, or else the user columns. -/
theorem insertColumns_eq_ok {metadata : TableMetadata} {columns cols : List String}
    (h : (insertColumns metadata columns).run = some (.ok cols)) :
    cols = if columns.isEmpty then metadata.schema.userColumns else columns := by
  unfold insertColumns at h
  split at h
  · rename_i hempty
    obtain ⟨first, hfirst, h⟩ := run_bind_eq_ok.mp h
    rw [if_pos hempty]
    simp only [Schema.columnIdentifiers, run_unwrapOrPanic] at hfirst
    cases hcols : metadata.schema.columns with
    | nil => simp [hcols] at hfirst
    | cons col rest =>
      simp only [hcols, List.map_cons, List.getElem?_cons_zero, Option.map_some',
        Option.some.injEq, Except.ok.injEq] at hfirst
      subst hfirst
      simp only [run_pure, Option.some.injEq, Except.ok.injEq] at h
      simp [← h, Schema.userColumns, Schema.columnIdentifiers, hcols]
  · rename_i hne
    rw [if_neg hne]
    simpa using h.symm

/-- What an accepted `INSERT` has passed, check by check. -/
theorem analyze_insert_eq_ok {ctx : String → Except DbError TableMetadata} {into : String}
    {columns : List String} {values : List Expression} {metadata : TableMetadata}
    (hctx : ctx into = .ok metadata)
    (h : (analyze ctx (.insert into columns values)).run = some (.ok ())) :
    into ≠ mkdbMeta ∧ ∃ cols first, (insertColumns metadata columns).run = some (.ok cols) ∧
      cols.length = values.length ∧ analyzeInsertColumns metadata.schema [] cols = .ok () ∧
      metadata.schema.columns[0]? = some first ∧
      (if first.name = rowIdCol then metadata.schema.len - 1 else metadata.schema.len) =
        cols.length ∧
      analyzeInsertValues metadata values cols = .ok () := by
  simp only [analyze_insert] at h
  obtain ⟨md, hmd, h⟩ := run_bind_eq_ok.mp h
  rw [run_liftResult, hctx, Option.some.injEq, Except.ok.injEq] at hmd
  subst hmd
  split at h
  · simp [ExceptT.run_bind] at h
  rename_i hmeta
  obtain ⟨-, -, h⟩ := run_bind_eq_ok.mp h
  obtain ⟨cols, hcols, h⟩ := run_bind_eq_ok.mp h
  split at h
  · simp [ExceptT.run_bind] at h
  rename_i hlen
  obtain ⟨-, -, h⟩ := run_bind_eq_ok.mp h
  obtain ⟨⟨⟩, hcheck, h⟩ := run_bind_eq_ok.mp h
  obtain ⟨first, hfirst, h⟩ := run_bind_eq_ok.mp h
  generalize hschemaLen : (if first.name = rowIdCol then metadata.schema.len - 1
    else metadata.schema.len) = schemaLen at h
  split at h
  · simp [ExceptT.run_bind] at h
  rename_i hschema
  obtain ⟨-, -, h⟩ := run_bind_eq_ok.mp h
  simp only [run_liftResult, run_unwrapOrPanic, Option.some.injEq, Option.map_eq_some',
    Except.ok.injEq, exists_eq_right] at hcheck hfirst h
  exact ⟨hmeta, cols, first, hcols, not_not.mp hlen, hcheck, hfirst,
    hschemaLen.trans (not_not.mp hschema), h⟩

/-! ## The permutation -/

/-- A column the loop accepted is a user column. -/
theorem mem_userColumns {schema : Schema} {col : String}
    (hmem : col ∈ schema.columnIdentifiers) (hrow : col ≠ rowIdCol) :
    col ∈ schema.userColumns := by
  unfold Schema.userColumns
  unfold Schema.columnIdentifiers at hmem
  split
  · rename_i first rest hcols
    rw [hcols, List.map_cons, List.mem_cons] at hmem
    split
    · rename_i hfirst
      exact hmem.resolve_left (fun h => hrow (h.trans hfirst))
    · rw [List.map_cons, List.mem_cons]; exact hmem
  · rename_i hcols; simp [hcols] at hmem

theorem length_userColumns {schema : Schema} {first : Column}
    (hfirst : schema.columns[0]? = some first) :
    schema.userColumns.length =
      if first.name = rowIdCol then schema.len - 1 else schema.len := by
  obtain ⟨col, rest, hcols⟩ : ∃ col rest, schema.columns = col :: rest := by
    cases h : schema.columns with
    | nil => simp [h] at hfirst
    | cons c r => exact ⟨c, r, rfl⟩
  rw [hcols, List.getElem?_cons_zero, Option.some.injEq] at hfirst
  subst hfirst
  simp only [Schema.userColumns, Schema.len, hcols]
  split <;> simp

/-- An accepted `INSERT` names exactly the user columns, each once, with one value per
column, and each value has the semantic type of its column. -/
theorem analyze_insert_columns {ctx : String → Except DbError TableMetadata} {into : String}
    {columns : List String} {values : List Expression} {metadata : TableMetadata}
    (hctx : ctx into = .ok metadata)
    (h : (analyze ctx (.insert into columns values)).run = some (.ok ())) :
    into ≠ mkdbMeta ∧
      let cols := if columns.isEmpty then metadata.schema.userColumns else columns
      cols.Nodup ∧ cols.Perm metadata.schema.userColumns ∧ values.length = cols.length ∧
      ∀ (i : Nat) expr, values[i]? = some expr → ∃ col ∈ metadata.schema.columns,
        cols[i]? = some col.name ∧
        analyzeExpression .empty (some col.dataType) expr = .ok (.ofDataType col.dataType) := by
  obtain ⟨hmeta, cols, first, hcols, hlen, hcheck, hfirst, hschema, hvalues⟩ :=
    analyze_insert_eq_ok hctx h
  rw [← insertColumns_eq_ok hcols]
  obtain ⟨hnd, hall⟩ := analyzeInsertColumns_eq_ok.mp hcheck
  have hsub : cols ⊆ metadata.schema.userColumns := fun col hcol =>
    mem_userColumns (hall col hcol).1 (hall col hcol).2.2
  have hperm : cols.Perm metadata.schema.userColumns :=
    (List.subperm_of_subset hnd hsub).perm_of_length_le
      (by rw [length_userColumns hfirst, hschema])
  refine ⟨hmeta, hnd, hperm, hlen.symm, fun i expr hexpr => ?_⟩
  have htyped := (analyzeInsertValues_eq_ok hlen.symm).mp hvalues
  obtain ⟨hi, hvi⟩ := List.getElem?_eq_some_iff.mp hexpr
  have hi' : i < cols.length := hlen ▸ hi
  have hok := (List.forall₂_iff_get.mp htyped).2 i hi hi'
  obtain ⟨-, index, hindex, hty, -⟩ := analyzeAssignment_eq_ok.mp hok
  refine ⟨metadata.schema.columns.get index, List.get_mem _ _ _, ?_, by simpa [hvi] using hty⟩
  rw [Schema.indexOf_name hindex, List.getElem?_eq_getElem hi']
  rfl

/-- `INSERT INTO users (name, id) VALUES ('ab', 1)` on `users (row_id, id INT,
name VARCHAR(8))`: the named columns are the user columns in another order. -/
theorem analyze_insert_columns_of_reordered_row :
    ((fun _ => .ok ⟨⟨[⟨"row_id", .unsignedBigInt, []⟩, Column.new "id" .int, Column.new "name" (.varchar 8)]⟩, []⟩ : String → Except DbError TableMetadata) "users" = .ok ⟨⟨[⟨"row_id", .unsignedBigInt, []⟩, Column.new "id" .int, Column.new "name" (.varchar 8)]⟩, []⟩ ∧
      (analyze (fun _ => .ok ⟨⟨[⟨"row_id", .unsignedBigInt, []⟩, Column.new "id" .int, Column.new "name" (.varchar 8)]⟩, []⟩)
        (.insert "users" ["name", "id"] [.value (.string "ab"), .value (.number 1)])).run =
          some (.ok ())) ∧
    ("users" ≠ mkdbMeta ∧
      let cols := if (["name", "id"] : List String).isEmpty
        then Schema.userColumns ⟨[⟨"row_id", .unsignedBigInt, []⟩, Column.new "id" .int,
          Column.new "name" (.varchar 8)]⟩ else ["name", "id"]
      cols.Nodup ∧ cols.Perm (Schema.userColumns ⟨[⟨"row_id", .unsignedBigInt, []⟩,
          Column.new "id" .int, Column.new "name" (.varchar 8)]⟩) ∧
        ([.value (.string "ab"), .value (.number 1)] : List Expression).length = cols.length ∧
        ∀ (i : Nat) expr, ([.value (.string "ab"), .value (.number 1)] : List Expression)[i]? =
            some expr → ∃ col ∈ [⟨"row_id", .unsignedBigInt, []⟩, Column.new "id" .int,
              Column.new "name" (.varchar 8)],
          cols[i]? = some col.name ∧
          analyzeExpression .empty (some col.dataType) expr = .ok (.ofDataType col.dataType)) :=
  have hctx : (fun _ => .ok ⟨⟨[⟨"row_id", .unsignedBigInt, []⟩, Column.new "id" .int, Column.new "name" (.varchar 8)]⟩, []⟩ : String → Except DbError TableMetadata) "users" =
      .ok ⟨⟨[⟨"row_id", .unsignedBigInt, []⟩, Column.new "id" .int, Column.new "name" (.varchar 8)]⟩, []⟩ := rfl
  have h : (analyze (fun _ => .ok ⟨⟨[⟨"row_id", .unsignedBigInt, []⟩, Column.new "id" .int, Column.new "name" (.varchar 8)]⟩, []⟩)
      (.insert "users" ["name", "id"] [.value (.string "ab"), .value (.number 1)])).run =
        some (.ok ()) := by decide
  ⟨⟨hctx, h⟩, analyze_insert_columns hctx h⟩

end Mkdb
