import Mkdb.Sql.Proofs.Lexemes
import Mkdb.Sql.Statement
import Mathlib.Data.Nat.Digits

/-!
# Printed expressions lex back

`Display for Expression` (`statement.rs:245-337`) writes an expression as SQL text; the planner
names the columns it computes after that text. This module states what the tokenizer
(`tokenizer.rs`) reads back from it. The printer keeps lexemes apart: a binary operator is
written between two spaces, a nested expression closes with `)`, and nothing else follows a
word or a number. So the text lexes into the expression's own tokens, as long as its
identifiers are identifiers and its strings hold no double quote. `Display for Value` writes a
string between double quotes and escapes nothing, so a string that holds one is cut there.

The lexicon must read its own keywords (`Lexicon.ReadsKeywords`): `AND`, `OR`, `TRUE` and
`FALSE` are printed in upper case and must come back as keywords.
-/

namespace Mkdb

/-- The tokens a value is written as: a negative number is a `-` before its digits. -/
def Value.tokens : Value → List Token
  | .number n =>
    if n < 0 then [.minus, .number (toString n.natAbs)] else [.number (toString n.natAbs)]
  | .string s => [.string s]
  | .bool b => [.keyword (if b then .true else .false)]

/-- The token a binary operator is written as. -/
def BinaryOperator.token : BinaryOperator → Token
  | .eq => .eq | .neq => .neq | .lt => .lt | .ltEq => .ltEq | .gt => .gt | .gtEq => .gtEq
  | .plus => .plus | .minus => .minus | .mul => .mul | .div => .div
  | .and => .keyword .and | .or => .keyword .or

/-- The token a unary operator is written as. -/
def UnaryOperator.token : UnaryOperator → Token
  | .minus => .minus
  | .plus => .plus

/-- The tokens an expression is written as, with the spaces around each binary operator. -/
def Expression.tokens : Expression → List Token
  | .identifier ident => [.identifier ident]
  | .value v => v.tokens
  | .wildcard => [.mul]
  | .binaryOperation left op right =>
    left.tokens ++ .whitespace .space :: op.token :: .whitespace .space :: right.tokens
  | .unaryOperation op expr => op.token :: expr.tokens
  | .nested expr => .leftParen :: expr.tokens ++ [.rightParen]

/-- `ident` lexes as the identifier `ident`: identifier characters, not starting with a digit,
and no keyword once upper-cased. -/
def Lexicon.lexesAsIdentifier (lex : Lexicon) (ident : String) : Bool :=
  match ident.toList with
  | [] => false
  | chr :: _ =>
    !chr.isDigit && ident.toList.all lex.isPartOfIdentOrKeyword &&
      keywordOf (lex.toUppercase ident) == .none

/-- Every identifier of the expression is one, and none of its strings holds a double quote. -/
def Expression.printable (lex : Lexicon) : Expression → Bool
  | .identifier ident => lex.lexesAsIdentifier ident
  | .value (.string s) => !s.toList.contains '"'
  | .value _ => true
  | .wildcard => true
  | .binaryOperation left _ right => left.printable lex && right.printable lex
  | .unaryOperation _ expr => expr.printable lex
  | .nested expr => expr.printable lex

/-- The lexicon reads every keyword's spelling as that keyword: its letters are identifier
characters and upper-casing leaves it as it is. -/
def Lexicon.ReadsKeywords (lex : Lexicon) : Prop :=
  ∀ keyword : Keyword, keyword ≠ .none →
    lex.toUppercase keyword.spelling = keyword.spelling ∧
      ∀ chr ∈ keyword.spelling.toList, lex.isPartOfIdentOrKeyword chr = true

/-! ## Decimal digits -/

theorem isDigit_of_mem_toDigitsCore (fuel n : Nat) {ds : List Char}
    (hds : ∀ chr ∈ ds, chr.isDigit = true) :
    ∀ chr ∈ Nat.toDigitsCore 10 fuel n ds, chr.isDigit = true := by
  induction fuel generalizing n ds with
  | zero => exact hds
  | succ fuel ih =>
    have hdigit : ∀ d < 10, (Nat.digitChar d).isDigit = true := by decide
    have hcons : ∀ chr ∈ Nat.digitChar (n % 10) :: ds, chr.isDigit = true :=
      List.forall_mem_cons.mpr ⟨hdigit _ (Nat.mod_lt n (by decide)), hds⟩
    simp only [Nat.toDigitsCore]
    split
    · exact hcons
    · exact ih _ hcons

theorem toDigitsCore_ne_nil (fuel n : Nat) {ds : List Char} (hds : ds ≠ []) :
    Nat.toDigitsCore 10 fuel n ds ≠ [] := by
  induction fuel generalizing n ds with
  | zero => exact hds
  | succ fuel ih =>
    simp only [Nat.toDigitsCore]
    split
    · exact List.cons_ne_nil _ _
    · exact ih _ (List.cons_ne_nil _ _)

/-- A natural number is printed as a non-empty run of decimal digits. -/
theorem toString_digits (m : Nat) :
    ∃ digit digits, (toString m).toList = digit :: digits ∧
      ∀ chr ∈ digit :: digits, chr.isDigit = true := by
  have hdigits := @isDigit_of_mem_toDigitsCore (m + 1) m [] (by simp)
  cases h : Nat.toDigitsCore 10 (m + 1) m [] with
  | nil =>
    simp only [Nat.toDigitsCore] at h
    split at h
    · cases h
    · exact (toDigitsCore_ne_nil _ _ (List.cons_ne_nil _ _) h).elim
  | cons digit digits => exact ⟨digit, digits, h, h ▸ hdigits⟩

/-! ## Lexemes of printed text -/

section Lexemes

variable {lex : Lexicon}

theorem separates_of_dispatch {chr : Char} (h : chr ∈ dispatchChars) (hnl : chr ≠ '\n')
    (heq : chr ≠ '=') : Separates lex chr :=
  ⟨hnl, heq, Bool.eq_false_iff.mpr fun hdigit => not_mem_dispatchChars_of_isDigit hdigit h,
    lex.isPartOfIdentOrKeyword_dispatch chr h⟩

theorem separates_space : Separates lex ' ' :=
  separates_of_dispatch (by decide) (by decide) (by decide)

theorem separates_rightParen : Separates lex ')' :=
  separates_of_dispatch (by decide) (by decide) (by decide)

theorem Scan.single {chr : Char} {token : Token} {more : List Char} {tokens : List Token}
    (h : (chr, token) ∈ singleCharTokens) (hmore : Scan lex more tokens) :
    Scan lex (chr :: more) (token :: tokens) :=
  .lexeme (w := [chr]) (.single h more) hmore

/-- A keyword's spelling, followed by a separating character or nothing, is that keyword. -/
theorem lexeme_spelling (hlex : lex.ReadsKeywords) {keyword : Keyword} (hk : keyword ≠ .none)
    {more : List Char} (hsep : ∀ chr, more.head? = some chr → Separates lex chr) :
    Lexeme lex keyword.spelling.toList more (.keyword keyword) := by
  obtain ⟨hupper, hletters⟩ := hlex keyword hk
  obtain ⟨chr, word, hspelling, hdigit⟩ :
      ∃ chr word, keyword.spelling.toList = chr :: word ∧ chr.isDigit = false := by
    cases keyword <;> first | exact absurd rfl hk | exact ⟨_, _, rfl, rfl⟩
  have hstring : (⟨chr :: word⟩ : String) = keyword.spelling := by rw [← hspelling]; rfl
  rw [hspelling] at hletters ⊢
  exact .keyword ⟨hletters, fun c hc => (hsep c hc).2.2.2⟩ hdigit hk (hstring ▸ hupper)

/-- An identifier's text, followed by a separating character or nothing, is that
identifier. -/
theorem lexeme_identifier {ident : String} (hident : lex.lexesAsIdentifier ident = true)
    {more : List Char} (hsep : ∀ chr, more.head? = some chr → Separates lex chr) :
    Lexeme lex ident.toList more (.identifier ident) := by
  obtain ⟨data⟩ := ident
  cases data with
  | nil => simp [Lexicon.lexesAsIdentifier] at hident
  | cons chr word =>
    obtain ⟨hdigit, hrun, hkeyword⟩ : chr.isDigit = false ∧
        (∀ c ∈ chr :: word, lex.isPartOfIdentOrKeyword c = true) ∧
        keywordOf (lex.toUppercase ⟨chr :: word⟩) = .none := by
      simpa [Lexicon.lexesAsIdentifier, and_assoc] using hident
    refine .identifier ⟨hrun, fun c hc => (hsep c hc).2.2.2⟩ hdigit ?_
    intro keyword hk hspelling
    rw [hspelling, keywordOf_spelling] at hkeyword
    exact hk hkeyword

/-- A non-empty run of digits, followed by a non-digit or nothing, is that number. -/
theorem lexeme_number {digits : String} (hne : digits.toList ≠ [])
    (hdigits : ∀ chr ∈ digits.toList, chr.isDigit = true) {more : List Char}
    (hsep : ∀ chr, more.head? = some chr → Separates lex chr) :
    Lexeme lex digits.toList more (.number digits) := by
  obtain ⟨data⟩ := digits
  cases data with
  | nil => exact absurd rfl hne
  | cons digit rest => exact .number ⟨hdigits, fun c hc => (hsep c hc).2.2.1⟩

/-- A binary operator's text, followed by a space, is its token. -/
theorem lexeme_binaryOperator (hlex : lex.ReadsKeywords) (op : BinaryOperator)
    (rest : List Char) : Lexeme lex op.display.toList (' ' :: rest) op.token := by
  have hsep : ∀ chr, (' ' :: rest).head? = some chr → Separates lex chr := by
    rintro chr ⟨⟩
    exact separates_space
  cases op with
  | eq => exact .single (by decide) _
  | neq => exact .neq _
  | lt => exact .lt (by simp)
  | ltEq => exact .ltEq _
  | gt => exact .gt (by simp)
  | gtEq => exact .gtEq _
  | plus | minus | mul | div => exact .single (by decide) _
  | and => exact lexeme_spelling hlex (show Keyword.and ≠ .none by decide) hsep
  | or => exact lexeme_spelling hlex (show Keyword.or ≠ .none by decide) hsep

/-- A string's text is the string, whatever follows, when it holds no double quote. -/
theorem scan_string_display {s : String} (hquote : '"' ∉ s.toList) {more : List Char}
    {tokens : List Token} (hmore : Scan lex more tokens) :
    Scan lex ((Value.string s).display.toList ++ more) (.string s :: tokens) := by
  simpa [Value.display] using
    Scan.lexeme (.string (Or.inl (rfl : '"' = '"')) hquote more) hmore

/-- A value's text, followed by a separating character or nothing, is its tokens. -/
theorem scan_value_display (hlex : lex.ReadsKeywords) (v : Value)
    (hv : (Expression.value v).printable lex = true) {more : List Char} {tokens : List Token}
    (hmore : Scan lex more tokens) (hsep : ∀ chr, more.head? = some chr → Separates lex chr) :
    Scan lex (v.display.toList ++ more) (v.tokens ++ tokens) := by
  cases v with
  | number n =>
    have hnumber : ∀ m : Nat, Scan lex ((toString m).toList ++ more)
        (.number (toString m) :: tokens) := by
      intro m
      obtain ⟨digit, digits, hdigits, hall⟩ := toString_digits m
      exact .lexeme (lexeme_number (hdigits ▸ List.cons_ne_nil _ _) (hdigits ▸ hall) hsep) hmore
    cases n with
    | ofNat m => simpa [Value.display, Value.tokens] using hnumber m
    | negSucc m =>
      simpa [Value.display, Value.tokens, Int.negSucc_lt_zero] using
        Scan.single (show ('-', Token.minus) ∈ singleCharTokens by decide) (hnumber (m + 1))
  | string s => exact scan_string_display (by simpa [Expression.printable] using hv) hmore
  | bool b =>
    cases b
    · exact .lexeme (lexeme_spelling hlex (show Keyword.false ≠ .none by decide) hsep) hmore
    · exact .lexeme (lexeme_spelling hlex (show Keyword.true ≠ .none by decide) hsep) hmore

/-- An expression's text, followed by a separating character or nothing, is its tokens. -/
theorem scan_display (hlex : lex.ReadsKeywords) (e : Expression) (he : e.printable lex = true)
    {more : List Char} {tokens : List Token} (hmore : Scan lex more tokens)
    (hsep : ∀ chr, more.head? = some chr → Separates lex chr) :
    Scan lex (e.display.toList ++ more) (e.tokens ++ tokens) := by
  induction e generalizing more tokens with
  | identifier ident => exact .lexeme (lexeme_identifier he hsep) hmore
  | value v => exact scan_value_display hlex v he hmore hsep
  | wildcard => exact Scan.single (show ('*', Token.mul) ∈ singleCharTokens by decide) hmore
  | binaryOperation left op right ihl ihr =>
    simp only [Expression.printable, Bool.and_eq_true] at he
    have hspace : (' ', Token.whitespace .space) ∈ singleCharTokens := by decide
    have hright := Scan.single hspace (ihr he.2 hmore hsep)
    have hleft := ihl he.1 (Scan.single hspace
      (.lexeme (lexeme_binaryOperator hlex op _) hright)) fun chr hchr => by
        cases hchr
        exact separates_space
    simpa [Expression.display, Expression.tokens] using hleft
  | unaryOperation op expr ih =>
    obtain ⟨chr, hchr, hmem⟩ : ∃ chr, op.display = chr.toString ∧
        (chr, op.token) ∈ singleCharTokens := by
      cases op <;> exact ⟨_, rfl, by decide⟩
    simpa [Expression.display, Expression.tokens, hchr] using Scan.single hmem (ih he hmore hsep)
  | nested expr ih =>
    have hexpr := ih he (Scan.single (show (')', Token.rightParen) ∈ singleCharTokens by decide)
      hmore) fun chr hchr => by
        cases hchr
        exact separates_rightParen
    simpa [Expression.display, Expression.tokens] using
      Scan.single (show ('(', Token.leftParen) ∈ singleCharTokens by decide) hexpr

end Lexemes

/-- Printed expressions lex back. The text `Display` writes for an expression whose identifiers
are identifiers and whose strings hold no double quote lexes into exactly the expression's
tokens; and a string value comes back as itself exactly when it holds no double quote. -/
theorem tokenize_display (lex : Lexicon) (hlex : lex.ReadsKeywords) :
    (∀ e : Expression, e.printable lex = true →
      tokenize lex e.display = .ok (e.tokens ++ [.eof])) ∧
    ∀ s, tokenize lex (Value.string s).display = .ok [.string s, .eof] ↔ '"' ∉ s.toList := by
  refine ⟨fun e he => tokenizeFrom_of_scan (by simpa using scan_display hlex e he .eof (by simp))
    _ ⟨1, 1⟩, fun s => ⟨fun h => ?_, fun h => tokenizeFrom_of_scan (by
      simpa using scan_string_display h .eof) _ ⟨1, 1⟩⟩⟩
  have hscan := scan_of_tokenize h
  generalize hchars : (Value.string s).display.toList = chars at hscan
  generalize htokens : [Token.string s, .eof] = tokens at hscan
  cases hscan with
  | eof => cases htokens
  | lexeme hlexeme _ =>
    obtain ⟨htoken, -⟩ := List.cons.inj htokens
    cases hlexeme with
    | single hmem => simp [singleCharTokens, ← htoken] at hmem
    | @string quote contents _ hquote _ =>
      cases htoken
      change '"' :: (contents ++ ['"']) = _ at hchars
      obtain ⟨rfl, -⟩ := List.cons.inj hchars
      exact hquote
    | _ => cases htoken

/-- `a + 10 > -5 AND b = "x"` under an ASCII lexicon that upper-cases character by
character. -/
theorem tokenize_display_of_condition :
    let lex : Lexicon := ⟨fun chr => chr.isAlphanum || chr = '_',
      fun s => ⟨s.toList.map Char.toUpper⟩, by decide⟩
    let e : Expression := .binaryOperation
      (.binaryOperation (.binaryOperation (.identifier "a") .plus (.value (.number 10))) .gt
        (.value (.number (-5))))
      .and (.binaryOperation (.identifier "b") .eq (.value (.string "x")))
    lex.ReadsKeywords ∧ e.printable lex = true ∧
      tokenize lex e.display = .ok (e.tokens ++ [.eof]) := by
  intro lex e
  have hlex : lex.ReadsKeywords := by
    intro keyword hk
    cases keyword <;> first | exact absurd rfl hk | decide
  have he : e.printable lex = true := by decide
  exact ⟨hlex, he, (tokenize_display lex hlex).1 e he⟩

end Mkdb
