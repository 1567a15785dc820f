import Mkdb.Sql.Analyzer

/-!
# What `analyze_assignment` accepts

`analyze_assignment` checks an `INSERT` value or an `UPDATE` right-hand side against its
column: the column is not `row_id` and exists, the analyzer's type of the value is the
column's semantic type, and a string literal fits a `VARCHAR(max)`. `analyzeAssignment_eq_ok`
says exactly that; the analysis of `INSERT` and `UPDATE` statements cites it. The `Update`
arm runs it on each assignment and on nothing else (`analyze_update_eq_ok`): unlike `INSERT`,
whose column loop keeps the names it has seen, nothing compares one target with another, so
an assignment accepted on its own joins any accepted `UPDATE`, even one that already assigns
its column (`analyze_update_cons`).

For literal constants the checks are weaker than they look. Integer literals are range-checked
inside `analyze_expression`, which negates a literal only when a `-` stands directly on it,
and the `VARCHAR` bound is checked only on a bare string literal. So for a constant built from
an integer literal, signs and parentheses, the analyzer range-checks
`Expression.checkedLiteral?`, not the integer the constant denotes
(`Expression.signedLiteral?`), and a parenthesised string is never measured.
-/

namespace Mkdb

/-! ## The spec of `analyze_assignment` -/

theorem checkValueLength_eq_ok {dataType : DataType} {value : Expression} :
    checkValueLength dataType value = .ok () ↔
      ∀ max string, dataType = .varchar max → value = .value (.string string) →
        string.length ≤ max := by
  unfold checkValueLength
  split
  · split <;> simp_all
  · rename_i hne
    simp only [true_iff]
    rintro max string rfl rfl
    exact (hne max string rfl rfl).elim

/-- An assignment is accepted exactly when its column is a column other than `row_id`, the
value's analyzed type is the column's semantic type, and the length check passes. -/
theorem analyzeAssignment_eq_ok {table : TableMetadata} {column : String} {value : Expression}
    {allowIdentifiers : Bool} :
    analyzeAssignment table column value allowIdentifiers = .ok () ↔
      column ≠ rowIdCol ∧ ∃ index, table.schema.indexOf column = some index ∧
        analyzeExpression (if allowIdentifiers then table.schema else .empty)
          (some (table.schema.columns.get index).dataType) value =
            .ok (.ofDataType (table.schema.columns.get index).dataType) ∧
        checkValueLength (table.schema.columns.get index).dataType value = .ok () := by
  unfold analyzeAssignment
  split
  · simp_all
  · rename_i hrow
    split
    · simp_all
    · rename_i index hindex
      dsimp only
      rw [except_bind_eq_ok]
      simp only [ne_eq, hrow, not_false_eq_true, hindex, Option.some.injEq, true_and,
        exists_eq_left']
      constructor
      · rintro ⟨t, ht, h⟩
        split at h
        · cases h
        · rename_i heq; rw [not_not] at heq; subst heq; exact ⟨ht, h⟩
      · rintro ⟨ht, h⟩
        exact ⟨_, ht, by rw [if_neg (not_not.mpr rfl)]; exact h⟩

/-! ## Literal constants -/

/-- The integer denoted by a constant built from one integer literal, unary signs and
parentheses; `none` outside that fragment. -/
def Expression.signedLiteral? : Expression → Option Int
  | .value (.number n) => some n
  | .unaryOperation .plus expr => expr.signedLiteral?
  | .unaryOperation .minus expr => expr.signedLiteral?.map (- ·)
  | .nested expr => expr.signedLiteral?
  | _ => none

/-- The integer `analyze_expression` range-checks in such a constant (`analyzer.rs:356-393`):
the literal, negated only when a `-` stands directly on it. -/
def Expression.checkedLiteral? : Expression → Option Int
  | .value (.number n) => some n
  | .unaryOperation .minus (.value (.number n)) => some (-n)
  | .unaryOperation _ expr => expr.checkedLiteral?
  | .nested expr => expr.checkedLiteral?
  | _ => none

/-- The string of a string literal under any number of parentheses. -/
def Expression.stringLiteral? : Expression → Option String
  | .value (.string s) => some s
  | .nested expr => expr.stringLiteral?
  | _ => none

/-- Against a column type, `analyze_expression` types such a constant as a number once its
checked literal passes the range check. -/
theorem analyzeExpression_checkedLiteral {schema : Schema} {dataType : DataType}
    {e : Expression} {m : Int} (h : e.checkedLiteral? = some m) :
    analyzeExpression schema (some dataType) e =
      (do (analyzeIntegerRange m dataType).mapError .analyzer; pure .number) := by
  induction e using Expression.checkedLiteral?.induct with
  | case1 n => cases h; rfl
  | case2 n => cases h; rfl
  | case3 operator e hplain ih =>
    rw [Expression.checkedLiteral?.eq_3 _ _ hplain] at h
    simp only [analyzeExpression]
    split
    · exact (hplain _ rfl rfl).elim
    · rw [ih h]
      cases analyzeIntegerRange m dataType <;> rfl
  | case4 e ih => exact ih h
  | case5 t h1 h2 h3 h4 =>
    rw [Expression.checkedLiteral?.eq_5 _ h1 h2 h3 h4] at h
    cases h

theorem analyzeExpression_stringLiteral {schema : Schema} {colDataType : Option DataType}
    {e : Expression} {s : String} (h : e.stringLiteral? = some s) :
    analyzeExpression schema colDataType e = .ok .string := by
  induction e with
  | value v => cases v <;> simp_all [Expression.stringLiteral?, analyzeExpression]
  | nested e ih => exact ih h
  | _ => simp [Expression.stringLiteral?] at h

theorem analyzeIntegerRange_eq_ok {integer : Int} {dataType : DataType}
    (hint : (Tuple.integerBounds dataType).isSome) :
    analyzeIntegerRange integer dataType = .ok () ↔
      Tuple.integerIsWithinRange integer dataType = true := by
  cases dataType <;> simp_all [Tuple.integerBounds, analyzeIntegerRange]

/-- The verdict on a signed integer constant assigned to an integer column: accepted exactly
when its checked literal, not the integer it denotes, is in the column type's range. -/
theorem analyzeAssignment_checkedLiteral {table : TableMetadata} {column : String}
    {index : Fin table.schema.columns.length} {e : Expression} {m : Int}
    {allowIdentifiers : Bool} (hcol : column ≠ rowIdCol)
    (hindex : table.schema.indexOf column = some index)
    (hint : (Tuple.integerBounds (table.schema.columns.get index).dataType).isSome)
    (he : e.checkedLiteral? = some m) :
    analyzeAssignment table column e allowIdentifiers = .ok () ↔
      Tuple.integerIsWithinRange m (table.schema.columns.get index).dataType = true := by
  rw [analyzeAssignment_eq_ok]
  simp only [hcol, hindex, ne_eq, not_false_eq_true, Option.some.injEq, exists_eq_left',
    true_and]
  rw [analyzeExpression_checkedLiteral he, ← analyzeIntegerRange_eq_ok hint]
  generalize (table.schema.columns.get index).dataType = dataType at hint ⊢
  have hnum : VmDataType.ofDataType dataType = .number := by
    cases dataType <;> simp_all [Tuple.integerBounds, VmDataType.ofDataType]
  have hlen : checkValueLength dataType e = .ok () := by
    cases dataType <;> simp_all [Tuple.integerBounds, checkValueLength]
  rw [hnum, hlen]
  cases analyzeIntegerRange m dataType <;> simp [Except.mapError, bind, Except.bind, pure,
    Except.pure]

/-- The verdict on a string literal assigned to a `VARCHAR(max)` column: a bare literal must
fit, a parenthesised one is accepted whatever its length. -/
theorem analyzeAssignment_stringLiteral {table : TableMetadata} {column : String}
    {index : Fin table.schema.columns.length} {e : Expression} {s : String} {max : Nat}
    {allowIdentifiers : Bool} (hcol : column ≠ rowIdCol)
    (hindex : table.schema.indexOf column = some index)
    (hvarchar : (table.schema.columns.get index).dataType = .varchar max)
    (he : e.stringLiteral? = some s) :
    analyzeAssignment table column e allowIdentifiers = .ok () ↔
      (e = .value (.string s) → s.length ≤ max) := by
  rw [analyzeAssignment_eq_ok]
  simp only [hcol, hindex, ne_eq, not_false_eq_true, Option.some.injEq, exists_eq_left',
    true_and]
  rw [analyzeExpression_stringLiteral he, checkValueLength_eq_ok, hvarchar]
  simp only [VmDataType.ofDataType, DataType.varchar.injEq, true_and]
  constructor
  · intro h hbare
    exact h max s rfl hbare
  · rintro h _ string rfl rfl
    cases he
    exact h rfl

/-- The failing inputs, on a table `(id INT, name VARCHAR(8))`: `- -2147483648` denotes
`2147483648`, outside `INT`, and is accepted; `-(2147483648)` denotes `-2147483648`, inside
`INT`, and is rejected; `('123456789')` has nine characters and is accepted for
`VARCHAR(8)`. -/
theorem analyzeAssignment_literal_range_counterexamples :
    (Expression.unaryOperation .minus (.unaryOperation .minus (.value (.number 2147483648)))
      ).signedLiteral? = some 2147483648 ∧
    Tuple.integerIsWithinRange 2147483648 .int = false ∧
    analyzeAssignment ⟨⟨[Column.new "id" .int, Column.new "name" (.varchar 8)]⟩, []⟩ "id"
      (.unaryOperation .minus (.unaryOperation .minus (.value (.number 2147483648)))) false =
        .ok () ∧
    (Expression.unaryOperation .minus (.nested (.value (.number 2147483648)))).signedLiteral? =
      some (-2147483648) ∧
    Tuple.integerIsWithinRange (-2147483648) .int = true ∧
    analyzeAssignment ⟨⟨[Column.new "id" .int, Column.new "name" (.varchar 8)]⟩, []⟩ "id"
      (.unaryOperation .minus (.nested (.value (.number 2147483648)))) false =
        .error (.analyzer (.integerOutOfRange 2147483648 .int)) ∧
    (Expression.nested (.value (.string "123456789"))).stringLiteral? = some "123456789" ∧
    "123456789".length = 9 ∧
    analyzeAssignment ⟨⟨[Column.new "id" .int, Column.new "name" (.varchar 8)]⟩, []⟩ "name"
      (.nested (.value (.string "123456789"))) false = .ok () := by
  refine ⟨rfl, rfl, ?_, rfl, rfl, by decide, rfl, rfl, ?_⟩
  · exact (analyzeAssignment_checkedLiteral (by decide) (by rfl) (by rfl) (by rfl)).mpr (by rfl)
  · exact (analyzeAssignment_stringLiteral (by decide) (by rfl) (by rfl) (by rfl)).mpr (by nofun)

/-! ## UPDATE -/

/-- The `Update` arm accepts exactly when the table exists and is not the catalog, every
assignment passes `analyze_assignment` on its own, and the predicate is a `Bool`. -/
theorem analyze_update_eq_ok {ctx : String → Except DbError TableMetadata} {table : String}
    {columns : List Assignment} {where_ : Option Expression} :
    (analyze ctx (.update table columns where_)).run = some (.ok ()) ↔
      ∃ metadata, ctx table = .ok metadata ∧ table ≠ mkdbMeta ∧
        (∀ col ∈ columns, analyzeAssignment metadata col.identifier col.value true = .ok ()) ∧
        analyzeWhere metadata.schema where_ = .ok () := by
  rw [analyze_update, run_liftResult, Option.some.injEq, except_bind_eq_ok]
  refine exists_congr fun metadata => and_congr_right fun _ => ?_
  by_cases hmeta : table = mkdbMeta
  · rw [if_pos hmeta]
    exact iff_of_false nofun fun ⟨hne, _⟩ => hne hmeta
  · rw [if_neg hmeta, pure_bind, except_bind_eq_ok]
    constructor
    · rintro ⟨⟨⟩, hall, hwhere⟩
      exact ⟨hmeta, fun col hcol => except_mapError_eq_ok.mp (except_forM_eq_ok.mp hall col hcol),
        hwhere⟩
    · rintro ⟨-, hall, hwhere⟩
      exact ⟨(), except_forM_eq_ok.mpr fun col hcol => except_mapError_eq_ok.mpr (hall col hcol),
        hwhere⟩

/-- Duplicates never cause a rejection: an assignment that passes `analyze_assignment` on its
own can be put in front of an accepted `UPDATE`, whether or not its target is already
assigned there. -/
theorem analyze_update_cons {ctx : String → Except DbError TableMetadata} {table : String}
    {columns : List Assignment} {where_ : Option Expression} {metadata : TableMetadata}
    {col : Assignment} (hctx : ctx table = .ok metadata)
    (hcol : analyzeAssignment metadata col.identifier col.value true = .ok ())
    (h : (analyze ctx (.update table columns where_)).run = some (.ok ())) :
    (analyze ctx (.update table (col :: columns) where_)).run = some (.ok ()) := by
  obtain ⟨md, hmd, hmeta, hall, hwhere⟩ := analyze_update_eq_ok.mp h
  obtain rfl : metadata = md := Except.ok.inj (hctx.symm.trans hmd)
  exact analyze_update_eq_ok.mpr ⟨metadata, hctx, hmeta, List.forall_mem_cons.mpr ⟨hcol, hall⟩,
    hwhere⟩

/-- The failing input: on a table `users (id INT, age INT)`, `UPDATE users SET age = 1,
age = 2;` is accepted, and it assigns `age` twice. -/
theorem analyze_update_duplicate_target :
    (analyze (fun _ => .ok ⟨⟨[Column.new "id" .int, Column.new "age" .int]⟩, []⟩)
      (.update "users" [⟨"age", .value (.number 1)⟩, ⟨"age", .value (.number 2)⟩] none)).run =
        some (.ok ()) ∧
    ¬(([⟨"age", .value (.number 1)⟩, ⟨"age", .value (.number 2)⟩] : List Assignment).map
      (·.identifier)).Nodup :=
  ⟨analyze_update_cons rfl (by decide) (by decide), by decide⟩

end Mkdb
