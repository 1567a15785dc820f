import Mkdb.Sql.Proofs.Rendering

/-!
# Printed statements lex back

`Display for Statement` (`statement.rs:339-437`), with the impls it calls for columns, data
types and assignments (`statement.rs:255-288`) and the `join` helper (`statement.rs:204-224`),
writes a statement as SQL text. Each impl writes tokens one after the other
(`render_statement_tokens`), always with a space, a comma, a parenthesis or a semicolon after a
word or a number, so the tokenizer reads the statement's tokens back from the text whenever its
names are identifiers and its strings hold no double quote (`tokenize_statement_display`).
-/

namespace Mkdb

/-- The tokens `Display for DataType` writes. -/
def DataType.tokens : DataType → List Token
  | .int => [.keyword .int]
  | .unsignedInt => [.keyword .int, .whitespace .space, .keyword .unsigned]
  | .bigInt => [.keyword .bigInt]
  | .unsignedBigInt => [.keyword .bigInt, .whitespace .space, .keyword .unsigned]
  | .bool => [.keyword .bool]
  | .varchar max => [.keyword .varchar, .leftParen, .number (toString max), .rightParen]

/-- The tokens `Display for Column` writes for a constraint. -/
def Constraint.tokens : Constraint → List Token
  | .primaryKey => [.keyword .primary, .whitespace .space, .keyword .key]
  | .unique => [.keyword .unique]

/-- The tokens `Display for Column` writes: name, type, then each constraint after a space. -/
def Column.tokens (col : Column) : List Token :=
  .identifier col.name :: .whitespace .space :: col.dataType.tokens ++
    col.constraints.flatMap fun constraint => .whitespace .space :: constraint.tokens

/-- The tokens `Display for Assignment` writes. -/
def Assignment.tokens (assignment : Assignment) : List Token :=
  [.identifier assignment.identifier, .whitespace .space, .eq, .whitespace .space] ++
    assignment.value.tokens

/-- The tokens `join` writes: each value's, with the separator's between them. -/
def joinTokens {α : Type} (tokens : α → List Token) (values : List α)
    (separator : List Token) : List Token :=
  match values with
  | [] => []
  | value :: rest => tokens value ++ rest.flatMap fun value => separator ++ tokens value

/-- The tokens of the optional `WHERE` clause. -/
def whereTokens : Option Expression → List Token
  | some expr => [.whitespace .space, .keyword .where, .whitespace .space] ++ expr.tokens
  | none => []

/-- The tokens `Display for Statement` writes. -/
def Statement.tokens : Statement → List Token
  | .create (.table name columns) =>
    [.keyword .create, .whitespace .space, .keyword .table, .whitespace .space, .identifier name,
      .whitespace .space, .leftParen] ++
    joinTokens Column.tokens columns [.comma, .whitespace .space] ++ [.rightParen, .semiColon]
  | .create (.database name) =>
    [.keyword .create, .whitespace .space, .keyword .database, .whitespace .space,
      .identifier name, .semiColon]
  | .create (.index name table column unique) =>
    .keyword .create ::
      (if unique then [.whitespace .space, .keyword .unique, .whitespace .space]
        else [.whitespace .space]) ++
    [.keyword .index, .whitespace .space, .identifier name, .whitespace .space, .keyword .on,
      .whitespace .space, .identifier table, .leftParen, .identifier column, .rightParen,
      .semiColon]
  | .select columns from_ where_ orderBy =>
    [.keyword .select, .whitespace .space] ++
    joinTokens Expression.tokens columns [.comma, .whitespace .space] ++
    [.whitespace .space, .keyword .from, .whitespace .space, .identifier from_] ++
    whereTokens where_ ++
    (if orderBy.isEmpty then []
      else [.whitespace .space, .keyword .order, .whitespace .space, .keyword .by,
        .whitespace .space] ++ joinTokens Expression.tokens orderBy [.comma, .whitespace .space]) ++
    [.semiColon]
  | .delete from_ where_ =>
    [.keyword .delete, .whitespace .space, .keyword .from, .whitespace .space,
      .identifier from_] ++ whereTokens where_ ++ [.semiColon]
  | .update table columns where_ =>
    [.keyword .update, .whitespace .space, .identifier table, .whitespace .space, .keyword .set,
      .whitespace .space] ++
    joinTokens Assignment.tokens columns [.comma, .whitespace .space] ++ whereTokens where_ ++
    [.semiColon]
  | .insert into columns values =>
    [.keyword .insert, .whitespace .space, .keyword .into, .whitespace .space, .identifier into] ++
    (if columns.isEmpty then [.whitespace .space]
      else [.whitespace .space, .leftParen] ++
        joinTokens (fun column => [.identifier column]) columns [.comma, .whitespace .space] ++
        [.rightParen, .whitespace .space]) ++
    [.keyword .values, .whitespace .space, .leftParen] ++
    joinTokens Expression.tokens values [.comma, .whitespace .space] ++ [.rightParen, .semiColon]
  | .drop (.table name) =>
    [.keyword .drop, .whitespace .space, .keyword .table, .whitespace .space, .identifier name,
      .semiColon]
  | .drop (.database name) =>
    [.keyword .drop, .whitespace .space, .keyword .database, .whitespace .space,
      .identifier name, .semiColon]
  | .startTransaction => [.keyword .start, .whitespace .space, .keyword .transaction, .semiColon]
  | .commit => [.keyword .commit, .semiColon]
  | .rollback => [.keyword .rollback, .semiColon]
  | .explain statement =>
    [.keyword .explain, .whitespace .space] ++ statement.tokens ++ [.semiColon]

/-- Every name of the statement lexes as an identifier, and every expression is printable. -/
def Statement.printable (lex : Lexicon) : Statement → Bool
  | .create (.table name columns) =>
    lex.lexesAsIdentifier name && columns.all fun col => lex.lexesAsIdentifier col.name
  | .create (.database name) => lex.lexesAsIdentifier name
  | .create (.index name table column _) =>
    lex.lexesAsIdentifier name && lex.lexesAsIdentifier table && lex.lexesAsIdentifier column
  | .select columns from_ where_ orderBy =>
    columns.all (·.printable lex) && lex.lexesAsIdentifier from_ &&
      where_.all (·.printable lex) && orderBy.all (·.printable lex)
  | .delete from_ where_ => lex.lexesAsIdentifier from_ && where_.all (·.printable lex)
  | .update table columns where_ =>
    lex.lexesAsIdentifier table &&
      columns.all (fun a => lex.lexesAsIdentifier a.identifier && a.value.printable lex) &&
      where_.all (·.printable lex)
  | .insert into columns values =>
    lex.lexesAsIdentifier into && columns.all lex.lexesAsIdentifier &&
      values.all (·.printable lex)
  | .drop (.table name) | .drop (.database name) => lex.lexesAsIdentifier name
  | .startTransaction | .commit | .rollback => true
  | .explain statement => statement.printable lex

/-! ## The text is the tokens written out -/

/-- The loops that append after what they have written (`join`, `Display for Column`) write
their tokens after it. -/
theorem foldl_eq_append_render {α : Type} {step : String → α → String} {f : α → List Token}
    (h : ∀ s x, step s x = s ++ render (f x)) (xs : List α) (init : String) :
    xs.foldl step init = init ++ render (xs.flatMap f) := by
  induction xs generalizing init with
  | nil => exact (String.append_empty _).symm
  | cons x xs ih =>
    rw [List.foldl_cons, ih, h, List.flatMap_cons, render_append, String.append_assoc]

theorem render_joinTokens {α : Type} {tokens : α → List Token} {display : α → String}
    (h : ∀ value, render (tokens value) = display value) (values : List α)
    (separator : List Token) :
    render (joinTokens tokens values separator) = join display values (render separator) := by
  cases values with
  | nil => rfl
  | cons value rest =>
    rw [joinTokens, join, render_append, String.empty_append, h,
      foldl_eq_append_render (f := fun value => separator ++ tokens value)
        fun s value => by rw [render_append, h, String.append_assoc]]

theorem render_value_tokens (v : Value) : render v.tokens = v.display := by
  cases v with
  | number n =>
    cases n with
    | ofNat m =>
      rw [Value.tokens, if_neg (show ¬Int.ofNat m < 0 from Int.not_lt.mpr (Int.ofNat_nonneg m))]
      exact String.append_empty _
    | negSucc m =>
      rw [Value.tokens, if_pos (Int.negSucc_lt_zero m)]
      exact congrArg ("-" ++ ·) (String.append_empty _)
  | string s => exact String.append_empty _
  | bool b => cases b <;> rfl

theorem render_expression_tokens (e : Expression) : render e.tokens = e.display := by
  induction e with
  | identifier ident => exact String.append_empty _
  | value v => exact render_value_tokens v
  | wildcard => rfl
  | binaryOperation left op right ihl ihr =>
    have hop : op.token.text = op.display := by cases op <;> rfl
    simp only [Expression.tokens, Expression.display, render_append, render, ihl, ihr, hop,
      String.append_assoc]
    rfl
  | unaryOperation op expr ih =>
    have hop : op.token.text = op.display := by cases op <;> rfl
    rw [Expression.tokens, render, ih, hop]
    rfl
  | nested expr ih =>
    rw [Expression.tokens, List.cons_append, render, render_append, ih]
    simp only [render, Token.text, String.append_empty, String.append_assoc]
    rfl

theorem render_column_tokens (col : Column) : render col.tokens = col.display := by
  have hdataType : render col.dataType.tokens = col.dataType.display := by
    cases col.dataType <;> simp only [DataType.tokens, DataType.display, render, Token.text,
      Keyword.spelling, String.append_empty, ← String.append_assoc, String.reduceAppend]
  rw [Column.tokens, Column.display, render_append, render, render, hdataType,
    foldl_eq_append_render (f := fun constraint => .whitespace .space :: constraint.tokens)
      fun s constraint => by rw [String.append_assoc]; cases constraint <;> rfl]
  simp only [Token.text, String.append_assoc]

theorem render_assignment_tokens (assignment : Assignment) :
    render assignment.tokens = assignment.display := by
  rw [Assignment.tokens, render_append, render_expression_tokens]
  simp only [render, Token.text, Assignment.display, String.append_empty, String.append_assoc]
  rfl

theorem render_identifier (name : String) : render [.identifier name] = id name :=
  String.append_empty name

/-- `Display for Statement` writes exactly the statement's tokens. -/
theorem render_statement_tokens (s : Statement) : render s.tokens = s.display := by
  induction s
  case' create c => rcases c with _ | _ | ⟨_, _, _, _ | _⟩
  case' select _ _ where_ orderBy => rcases where_ with _ | _ <;> rcases orderBy with _ | _
  case' delete _ where_ => rcases where_ with _ | _
  case' update _ _ where_ => rcases where_ with _ | _
  case' insert _ columns _ => rcases columns with _ | _
  case' drop d => rcases d with _ | _
  all_goals
    simp only [Statement.tokens, Statement.display, whereTokens, render_append, render_cons,
      render_nil, Token.text, Keyword.spelling, render_expression_tokens,
      render_joinTokens render_column_tokens, render_joinTokens render_expression_tokens,
      render_joinTokens render_assignment_tokens,
      render_joinTokens render_identifier,
      List.isEmpty_nil, List.isEmpty_cons, Bool.false_eq_true, reduceIte, String.append_empty,
      ← String.append_assoc, String.reduceAppend, *]

/-! ## The printer spaces its tokens

Whatever the names, every word or number the printer writes is followed by a separator. -/

theorem spaced_flatMap {α : Type} {f : α → List Token} (h : ∀ x, Spaced (f x))
    (hhead : ∀ x, ∀ t ∈ (f x).head?, t.isSeparator = true) (xs : List α) :
    Spaced (xs.flatMap f) ∧ ∀ t ∈ (xs.flatMap f).head?, t.isSeparator = true := by
  induction xs with
  | nil => exact ⟨spaced_nil, fun _ h => (nomatch h)⟩
  | cons x xs ih =>
    rw [List.flatMap_cons]
    refine ⟨(h x).append_of_isSeparator ih.1 ih.2, fun t ht => ?_⟩
    cases hfx : f x with
    | nil => exact ih.2 t (by rwa [hfx, List.nil_append] at ht)
    | cons y ys =>
      rw [hfx, List.cons_append] at ht
      exact hhead x t (by rw [hfx]; exact ht)

theorem spaced_joinTokens {α : Type} {tokens : α → List Token}
    (h : ∀ value, Spaced (tokens value)) (values : List α) :
    Spaced (joinTokens tokens values [.comma, .whitespace .space]) := by
  cases values with
  | nil => exact spaced_nil
  | cons value rest =>
    obtain ⟨hrest, hhead⟩ := spaced_flatMap
      (f := fun value => [.comma, .whitespace .space] ++ tokens value)
      (fun value => .cons_of_isOpen_eq_false (by rfl) (.cons_of_isOpen_eq_false (by rfl) (h value)))
      (fun _ _ ht => by cases ht; rfl) rest
    exact (h value).append_of_isSeparator hrest hhead

theorem spaced_expression_tokens (e : Expression) : Spaced e.tokens := by
  induction e with
  | value v =>
    cases v with
    | number n =>
      simp only [Expression.tokens, Value.tokens]
      split
      · exact .cons_of_isOpen_eq_false (by rfl) (spaced_singleton _)
      · exact spaced_singleton _
    | _ => exact spaced_singleton _
  | identifier | wildcard => exact spaced_singleton _
  | binaryOperation left op right ihl ihr =>
    apply ihl.append_of_isSeparator
    · exact .cons_of_isOpen_eq_false (by rfl)
        (.cons_of_isSeparator (fun _ ht => by cases ht; rfl)
          (.cons_of_isOpen_eq_false (by rfl) ihr))
    · rintro _ ⟨⟩
      rfl
  | unaryOperation op expr ih => exact .cons_of_isOpen_eq_false (by cases op <;> rfl) ih
  | nested expr ih =>
    exact (Spaced.cons_of_isOpen_eq_false (by rfl) ih).append_of_isSeparator (spaced_singleton _)
      fun _ ht => by cases ht; rfl

theorem spaced_column_tokens (col : Column) : Spaced col.tokens := by
  have hdataType : Spaced col.dataType.tokens := by
    cases col.dataType with
    | unsignedInt | unsignedBigInt =>
      exact .cons_of_isSeparator (fun _ ht => by cases ht; rfl)
        (.cons_of_isOpen_eq_false (by rfl) (spaced_singleton _))
    | varchar max =>
      exact .cons_of_isSeparator (fun _ ht => by cases ht; rfl) (.cons_of_isOpen_eq_false (by rfl)
        (.cons_of_isSeparator (fun _ ht => by cases ht; rfl) (spaced_singleton _)))
    | _ => exact spaced_singleton _
  obtain ⟨hconstraints, hhead⟩ := spaced_flatMap
    (f := fun constraint => .whitespace .space :: constraint.tokens)
    (fun constraint => .cons_of_isOpen_eq_false (by rfl) (by
      cases constraint
      · exact .cons_of_isSeparator (fun _ ht => by cases ht; rfl)
          (.cons_of_isOpen_eq_false (by rfl) (spaced_singleton _))
      · exact spaced_singleton _))
    (fun _ _ ht => by cases ht; rfl) col.constraints
  exact Spaced.append_of_isSeparator (.cons_of_isSeparator (fun _ ht => by cases ht; rfl)
    (.cons_of_isOpen_eq_false (by rfl) hdataType)) hconstraints hhead

theorem spaced_assignment_tokens (assignment : Assignment) : Spaced assignment.tokens :=
  .cons_of_isSeparator (fun _ ht => by cases ht; rfl) (.cons_of_isOpen_eq_false (by rfl)
    (.cons_of_isOpen_eq_false (by rfl) (.cons_of_isOpen_eq_false (by rfl)
      (spaced_expression_tokens assignment.value))))

/-- Every statement's tokens are spaced. -/
theorem spaced_statement_tokens (s : Statement) : Spaced s.tokens := by
  induction s
  case' create c => rcases c with _ | _ | ⟨_, _, _, _ | _⟩
  case' select _ _ where_ orderBy => rcases where_ with _ | _ <;> rcases orderBy with _ | _
  case' delete _ where_ => rcases where_ with _ | _
  case' update _ _ where_ => rcases where_ with _ | _
  case' insert _ columns _ => rcases columns with _ | _
  case' drop d => rcases d with _ | _
  all_goals
    simp only [Statement.tokens, whereTokens, List.append_assoc, List.cons_append,
      List.nil_append, List.isEmpty_nil, List.isEmpty_cons, Bool.false_eq_true, reduceIte,
      spaced_cons_cons, spaced_cons_iff_of_isOpen_eq_false, spaced_append, spaced_singleton,
      spaced_nil, spaced_joinTokens spaced_column_tokens,
      spaced_joinTokens spaced_expression_tokens, spaced_joinTokens spaced_assignment_tokens,
      spaced_joinTokens fun _ => spaced_singleton _, spaced_expression_tokens,
      List.head?_cons, Option.mem_def, Option.some.injEq, forall_eq', Token.isOpen,
      Token.isSeparator, or_true, true_or, implies_true, and_true, true_and, *]

/-! ## Printable statements print readable tokens -/

section Readable

variable {lex : Lexicon}

theorem readable_keyword {word : Keyword} (h : word ≠ .none) :
    (Token.keyword word).readable lex = true := by
  simpa [Token.readable] using h

theorem readable_identifier (ident : String) :
    (Token.identifier ident).readable lex = lex.lexesAsIdentifier ident := rfl

theorem readable_of_isSeparator {t : Token} (h : t.isSeparator = true) : t.readable lex = true := by
  cases t with
  | whitespace w => cases w <;> rfl
  | _ => first | rfl | cases h

theorem readable_toString (m : Nat) : (Token.number (toString m)).readable lex = true := by
  obtain ⟨digit, digits, hdigits, hall⟩ := toString_digits m
  exact readable_number.mpr ⟨hdigits ▸ List.cons_ne_nil _ _, hdigits ▸ hall⟩

theorem all_readable_expression_tokens {e : Expression} (he : e.printable lex = true) :
    e.tokens.all (·.readable lex) = true := by
  induction e with
  | identifier ident => simpa [Expression.tokens, readable_identifier] using he
  | value v =>
    cases v with
    | number n =>
      simp only [Expression.tokens, Value.tokens]
      split
      · simp only [List.all_cons, List.all_nil, readable_toString, Bool.and_true]
        rfl
      · simp only [List.all_cons, List.all_nil, readable_toString, Bool.and_true]
    | string s => simpa [Expression.tokens, Value.tokens, Token.readable, Expression.printable]
        using he
    | bool b => cases b <;> rfl
  | wildcard => rfl
  | binaryOperation left op right ihl ihr =>
    simp only [Expression.printable, Bool.and_eq_true] at he
    have hop : op.token.readable lex = true := by cases op <;> rfl
    simp only [Expression.tokens, List.all_append, List.all_cons, ihl he.1, ihr he.2, hop,
      readable_of_isSeparator, Token.isSeparator, Bool.and_self]
  | unaryOperation op expr ih =>
    have hop : op.token.readable lex = true := by cases op <;> rfl
    simp only [Expression.tokens, List.all_cons, hop, ih he, Bool.and_self]
  | nested expr ih =>
    simp only [Expression.tokens, List.cons_append, List.all_cons, List.all_append, List.all_nil,
      ih he, readable_of_isSeparator, Token.isSeparator, Bool.and_self]

theorem all_readable_joinTokens {α : Type} {tokens : α → List Token} {ok : α → Bool}
    (h : ∀ value, ok value = true → (tokens value).all (·.readable lex) = true)
    {values : List α} (hvalues : values.all ok = true) :
    (joinTokens tokens values [.comma, .whitespace .space]).all (·.readable lex) = true := by
  cases values with
  | nil => rfl
  | cons value rest =>
    rw [List.all_cons, Bool.and_eq_true] at hvalues
    rw [joinTokens, List.all_append, h value hvalues.1, Bool.true_and, List.all_flatMap,
      List.all_eq_true]
    intro value' hvalue'
    rw [List.all_append, h value' (List.all_eq_true.mp hvalues.2 value' hvalue')]
    rfl

theorem all_readable_column_tokens {col : Column} (h : lex.lexesAsIdentifier col.name = true) :
    col.tokens.all (·.readable lex) = true := by
  have hdataType : col.dataType.tokens.all (·.readable lex) = true := by
    cases col.dataType with
    | varchar max =>
      simp only [DataType.tokens, List.all_cons, List.all_nil, readable_toString, Bool.and_true]
      rfl
    | _ => rfl
  have hconstraint : ∀ constraint : Constraint,
      (Token.whitespace .space :: constraint.tokens).all (·.readable lex) = true := by
    intro constraint
    cases constraint <;> rfl
  simp only [Column.tokens, List.cons_append, List.all_cons, List.all_append, List.all_flatMap,
    readable_identifier, h, hdataType, hconstraint, readable_of_isSeparator, Token.isSeparator,
    Bool.true_and, List.all_eq_true, implies_true]

theorem all_readable_assignment_tokens {assignment : Assignment}
    (h : (lex.lexesAsIdentifier assignment.identifier && assignment.value.printable lex) = true) :
    assignment.tokens.all (·.readable lex) = true := by
  simp only [Bool.and_eq_true] at h
  simp only [Assignment.tokens, List.all_append, List.all_cons, List.all_nil,
    readable_identifier, h.1, all_readable_expression_tokens h.2, readable_of_isSeparator,
    Token.isSeparator]
  rfl

/-- A printable statement's tokens can each be read from their text. -/
theorem all_readable_statement_tokens {s : Statement} (hs : s.printable lex = true) :
    s.tokens.all (·.readable lex) = true := by
  induction s
  case' create c => rcases c with _ | _ | ⟨_, _, _, _ | _⟩
  case' select where_ orderBy => rcases where_ with _ | _ <;> rcases orderBy with _ | _
  case' delete where_ => rcases where_ with _ | _
  case' update where_ => rcases where_ with _ | _
  case' insert _ columns _ => rcases columns with _ | _
  case' drop d => rcases d with _ | _
  all_goals
    simp_all only [Statement.printable, Statement.tokens, whereTokens, Option.all,
      Bool.and_eq_true, List.all_append, List.all_cons, List.all_nil, List.isEmpty_nil,
      List.isEmpty_cons, Bool.false_eq_true, reduceIte, readable_identifier, Token.isSeparator,
      readable_of_isSeparator, readable_keyword, ne_eq, reduceCtorEq, not_false_eq_true,
      Bool.and_true, Bool.true_and, and_true, true_and, and_self,
      all_readable_expression_tokens,
      all_readable_joinTokens fun _ => all_readable_column_tokens,
      all_readable_joinTokens fun _ => all_readable_expression_tokens,
      all_readable_joinTokens fun _ => all_readable_assignment_tokens,
      all_readable_joinTokens fun (column : String) (h : lex.lexesAsIdentifier column = true) =>
        (by simp only [List.all_cons, List.all_nil, readable_identifier, h]; rfl :
          [Token.identifier column].all (·.readable lex) = true)]

end Readable

/-- The tokenizer reads a printed statement back: when its names lex as identifiers and its
strings hold no double quote, the text `Display for Statement` writes tokenizes into the
statement's tokens, then `Eof`. -/
theorem tokenize_statement_display (lex : Lexicon) (hlex : lex.ReadsKeywords) (s : Statement)
    (hs : s.printable lex = true) : tokenize lex s.display = .ok (s.tokens ++ [.eof]) := by
  have hread := List.all_eq_true.mp (all_readable_statement_tokens hs)
  rw [← render_statement_tokens]
  exact tokenizeFrom_of_scan
    (scan_render hlex (lex.renders_of_spaced hread (spaced_statement_tokens s))) _ ⟨1, 1⟩

/-- `CREATE TABLE users (id INT UNSIGNED PRIMARY KEY, name VARCHAR(255) UNIQUE);` under an
ASCII lexicon that upper-cases character by character. -/
theorem tokenize_statement_display_of_create_table :
    let lex : Lexicon := ⟨fun chr => chr.isAlphanum || chr = '_',
      fun s => ⟨s.toList.map Char.toUpper⟩, by decide⟩
    let s : Statement := .create (.table "users"
      [⟨"id", .unsignedInt, [.primaryKey]⟩, ⟨"name", .varchar 255, [.unique]⟩])
    lex.ReadsKeywords ∧ s.printable lex = true ∧
      tokenize lex s.display = .ok (s.tokens ++ [.eof]) := by
  intro lex s
  have hlex : lex.ReadsKeywords := by
    intro keyword hk
    cases keyword <;> first | exact absurd rfl hk | decide
  have hs : s.printable lex = true := by decide
  exact ⟨hlex, hs, tokenize_statement_display lex hlex s hs⟩

end Mkdb
