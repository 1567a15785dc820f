import Mkdb.Sql.Statement

/-!
# The database context seen by the analyzer and the planner

`db.rs` and `vm.rs` are not part of this excerpt. What the analyzer and the planner read of
them is modelled from the spec: the catalog's `TableMetadata`, and the error types their
`?`s convert into (`SqlError`, `DbError`, `TypeError`). `AnalyzerError` itself is declared in
`analyzer.rs`; it stands here because `SqlError` wraps it.

A function of the source that can panic returns `ExceptT DbError Option`: `none` is the
panic, `some (.error e)` the `Err(e)` it returns, `some (.ok a)` its `Ok(a)`.
-/

namespace Mkdb

/-- Results compare by their values, so that `decide` can evaluate what a check returns. -/
instance instDecidableEqExcept {ε α : Type} [DecidableEq ε] [DecidableEq α] :
    DecidableEq (Except ε α)
  | .ok a, .ok b => decidable_of_iff (a = b) (by simp)
  | .error e, .error e' => decidable_of_iff (e = e') (by simp)
  | .ok _, .error _ => isFalse nofun
  | .error _, .ok _ => isFalse nofun

/-- Modelled from the spec: the `TypeError`s of `vm.rs` that the analyzer raises. -/
inductive TypeError where
  | expectedType (expected : VmDataType) (found : Expression)
  | cannotApplyBinary (left : Expression) (operator : BinaryOperator) (right : Expression)
  deriving DecidableEq, Repr

/-- `AlreadyExists` (`analyzer.rs:44-48`). -/
inductive AlreadyExists where
  | table (name : String)
  | index (name : String)
  deriving DecidableEq, Repr

/-- `AnalyzerError` (`analyzer.rs:21-42`). -/
inductive AnalyzerError where
  | columnValueCountMismatch
  | missingColumns
  | duplicatedColumn (col : String)
  | multiplePrimaryKeys
  | alreadyExists (e : AlreadyExists)
  | valueTooLong (string : String) (max : Nat)
  | integerOutOfRange (integer : Int) (dataType : DataType)
  | rowIdAssignment
  | mkdbMetaModification
  deriving DecidableEq, Repr

/-- Modelled from the spec: `SqlError` of `db.rs`, with the `From` conversions of
`AnalyzerError` and `TypeError` as its `analyzer` and `typeError` cases. -/
inductive SqlError where
  | invalidTable (name : String)
  | invalidColumn (name : String)
  | typeError (e : TypeError)
  | analyzer (e : AnalyzerError)
  | other (message : String)
  deriving DecidableEq, Repr

/-- Modelled from the spec: `DbError` of `db.rs`; `sql` is `From<SqlError>`, and `other`
stands for every error that is not a SQL one (I/O, corruption, `DbError::Other`). -/
inductive DbError where
  | sql (e : SqlError)
  | other (message : String)
  deriving DecidableEq, Repr

/-- Modelled from the spec: `IndexMetadata`. Only the name is read by the modelled code. -/
structure IndexMetadata where
  name : String
  deriving DecidableEq, Repr

/-- Modelled from the spec: `TableMetadata`, the catalog entry of a table. The root page and
the row id counter are read only by code outside this excerpt. -/
structure TableMetadata where
  schema : Schema
  indexes : List IndexMetadata
  deriving DecidableEq, Repr

/-! ## Results that may panic -/

section Outcome

variable {ε α β : Type}

/-- The `?` of a call that returns a `Result` and cannot panic. -/
def liftResult (x : Except ε α) : ExceptT ε Option α := ExceptT.mk (some x)

/-- A value the source takes with `unwrap` or an index: `none` is the panic. -/
def unwrapOrPanic (x : Option α) : ExceptT ε Option α := ExceptT.lift x

@[simp] theorem run_liftResult (x : Except ε α) : (liftResult x).run = some x := rfl

@[simp] theorem run_unwrapOrPanic (x : Option α) :
    (unwrapOrPanic x : ExceptT ε Option α).run = x.map .ok := by
  cases x <;> rfl

@[simp] theorem run_pure (a : α) : (pure a : ExceptT ε Option α).run = some (.ok a) := rfl

@[simp] theorem run_throw (e : ε) : (throw e : ExceptT ε Option α).run = some (.error e) := rfl

/-- A sequence of `?`s succeeds exactly when each step does. -/
theorem run_bind_eq_ok {x : ExceptT ε Option α} {g : α → ExceptT ε Option β} {b : β} :
    (x >>= g).run = some (.ok b) ↔ ∃ a, x.run = some (.ok a) ∧ (g a).run = some (.ok b) := by
  rw [ExceptT.run_bind]
  rcases h : x.run with _ | _ | a <;> simp [h]

theorem run_bind_of_ok {x : ExceptT ε Option α} {a : α} (g : α → ExceptT ε Option β)
    (h : x.run = some (.ok a)) : (x >>= g).run = (g a).run := by
  rw [ExceptT.run_bind, h]; rfl

theorem run_liftResult_bind (x : Except ε α) (g : α → ExceptT ε Option β) :
    (liftResult x >>= g).run = match x with
      | .ok a => (g a).run
      | .error e => some (.error e) := by
  cases x <;> rfl

/-- The same for a `Result` computation. -/
theorem except_bind_eq_ok {x : Except ε α} {g : α → Except ε β} {b : β} :
    (x >>= g) = .ok b ↔ ∃ a, x = .ok a ∧ g a = .ok b := by
  cases x <;> simp [bind, Except.bind]

theorem except_mapError_eq_ok {ε' : Type} {f : ε → ε'} {x : Except ε α} {a : α} :
    x.mapError f = .ok a ↔ x = .ok a := by
  cases x <;> simp [Except.mapError]

/-- A loop of `?`s succeeds exactly when every iteration does. -/
theorem except_forM_eq_ok {f : α → Except ε PUnit} {xs : List α} :
    xs.forM f = .ok () ↔ ∀ x ∈ xs, f x = .ok () := by
  induction xs with
  | nil => exact iff_of_true rfl (by simp)
  | cons x xs ih =>
    show (f x >>= fun _ => xs.forM f) = _ ↔ _
    rw [except_bind_eq_ok, List.forall_mem_cons, ← ih]
    exact ⟨fun ⟨⟨⟩, hx, hxs⟩ => ⟨hx, hxs⟩, fun ⟨hx, hxs⟩ => ⟨(), hx, hxs⟩⟩

theorem except_discard_eq_ok {x : Except ε α} : discard x = .ok () ↔ ∃ a, x = .ok a := by
  cases x <;> simp [discard, Functor.mapConst, Except.map]

end Outcome

end Mkdb
