import Mkdb.Sql.Token
import Mathlib.Data.List.Basic

/-!
# Lexemes

What the text of each token is, stated as the tokenizer's contract and not as its code: the
spelling of a whitespace or operator token, a run of ASCII digits, a quoted string, a run of
identifier characters. `Lexeme lex w rest token` reads "`w`, followed by `rest`, is the text
of `token`": the maximal-munch conditions (`<` only when no `=` follows, a run only when the
next character cannot extend it) are conditions on `rest`. `Fault` lists the three ways a scan
can get stuck: a character that starts no lexeme, a `!` not followed by `=`, a quote that is
never closed.
-/

namespace Mkdb

/-- The spelling of each keyword. -/
def Keyword.spelling : Keyword → String
  | .select => "SELECT"
  | .create => "CREATE"
  | .update => "UPDATE"
  | .delete => "DELETE"
  | .insert => "INSERT"
  | .values => "VALUES"
  | .into => "INTO"
  | .set => "SET"
  | .drop => "DROP"
  | .from => "FROM"
  | .where => "WHERE"
  | .and => "AND"
  | .or => "OR"
  | .primary => "PRIMARY"
  | .key => "KEY"
  | .unique => "UNIQUE"
  | .table => "TABLE"
  | .database => "DATABASE"
  | .int => "INT"
  | .bigInt => "BIGINT"
  | .unsigned => "UNSIGNED"
  | .varchar => "VARCHAR"
  | .bool => "BOOL"
  | .true => "TRUE"
  | .false => "FALSE"
  | .order => "ORDER"
  | .by => "BY"
  | .index => "INDEX"
  | .on => "ON"
  | .start => "START"
  | .transaction => "TRANSACTION"
  | .rollback => "ROLLBACK"
  | .commit => "COMMIT"
  | .explain => "EXPLAIN"
  | .none => ""

/-- The keyword table recognises exactly the spellings. -/
theorem keywordOf_spelling (keyword : Keyword) : keywordOf keyword.spelling = keyword := by
  cases keyword <;> rfl

theorem spelling_keywordOf {value : String} (h : keywordOf value ≠ .none) :
    (keywordOf value).spelling = value := by
  have htable : ∀ entry ∈ keywordTable, entry.2.spelling = entry.1 := by decide
  unfold keywordOf at h ⊢
  cases hfind : keywordTable.find? fun entry => entry.1 = value with
  | none => simp [hfind] at h
  | some entry =>
    have hvalue := List.find?_some hfind
    simp only [decide_eq_true_eq] at hvalue
    simp [htable entry (List.mem_of_find?_eq_some hfind), hvalue]

/-- `run` is a maximal run of characters that `p` accepts: the next character, if any, is
refused. -/
def IsRun (p : Char → Bool) (run rest : List Char) : Prop :=
  (∀ chr ∈ run, p chr = true) ∧ ∀ chr, rest.head? = some chr → p chr = false

/-- A \`take_while\` splits off a maximal run. -/
theorem isRun_takeWhile (p : Char → Bool) (chars : List Char) :
    IsRun p (chars.takeWhile p) (chars.dropWhile p) := by
  refine ⟨fun _ h => List.mem_takeWhile_imp h, fun chr h => ?_⟩
  have := List.head?_dropWhile_not p chars
  rwa [h] at this

/-- And a maximal run is what a \`take_while\` splits off. -/
theorem IsRun.takeWhile_append {p : Char → Bool} {run rest : List Char} (h : IsRun p run rest) :
    (run ++ rest).takeWhile p = run ∧ (run ++ rest).dropWhile p = rest := by
  have hrest : rest.takeWhile p = [] ∧ rest.dropWhile p = rest := by
    cases rest with
    | nil => exact ⟨rfl, rfl⟩
    | cons chr rest =>
      have hchr : ¬p chr = true := by simp [h.2 chr rfl]
      exact ⟨List.takeWhile_cons_of_neg hchr, List.dropWhile_cons_of_neg hchr⟩
  rw [List.takeWhile_append_of_pos h.1, List.dropWhile_append_of_pos h.1, hrest.1, hrest.2,
    List.append_nil]
  exact ⟨rfl, rfl⟩

/-- The tokens whose text is one character, whatever follows it. -/
def singleCharTokens : List (Char × Token) :=
  [(' ', .whitespace .space), ('\t', .whitespace .tab), ('\n', .whitespace .newline),
    ('*', .mul), ('/', .div), ('+', .plus), ('-', .minus), ('=', .eq), ('(', .leftParen),
    (')', .rightParen), (',', .comma), (';', .semiColon)]

/-- `w`, followed by `rest`, is the text of `token`. -/
inductive Lexeme (lex : Lexicon) : List Char → List Char → Token → Prop
  | single {chr : Char} {token : Token} (h : (chr, token) ∈ singleCharTokens) (rest : List Char) :
      Lexeme lex [chr] rest token
  | crlf (rest : List Char) : Lexeme lex ['\r', '\n'] rest (.whitespace .newline)
  | cr {rest : List Char} (h : rest.head? ≠ some '\n') :
      Lexeme lex ['\r'] rest (.whitespace .newline)
  | ltEq (rest : List Char) : Lexeme lex ['<', '='] rest .ltEq
  | lt {rest : List Char} (h : rest.head? ≠ some '=') : Lexeme lex ['<'] rest .lt
  | gtEq (rest : List Char) : Lexeme lex ['>', '='] rest .gtEq
  | gt {rest : List Char} (h : rest.head? ≠ some '=') : Lexeme lex ['>'] rest .gt
  | neq (rest : List Char) : Lexeme lex ['!', '='] rest .neq
  /-- A non-empty run of ASCII digits. -/
  | number {digit : Char} {digits rest : List Char}
      (h : IsRun Char.isDigit (digit :: digits) rest) :
      Lexeme lex (digit :: digits) rest (.number ⟨digit :: digits⟩)
  /-- A quoted string: the quote does not occur inside. -/
  | string {quote : Char} {contents : List Char} (hquote : quote = '"' ∨ quote = '\'')
      (h : quote ∉ contents) (rest : List Char) :
      Lexeme lex (quote :: contents ++ [quote]) rest (.string ⟨contents⟩)
  /-- A run of identifier characters, not starting with a digit, whose upper case is the
  spelling of a keyword. -/
  | keyword {chr : Char} {word rest : List Char} {keyword : Keyword}
      (hrun : IsRun lex.isPartOfIdentOrKeyword (chr :: word) rest) (hdigit : chr.isDigit = false)
      (hkeyword : keyword ≠ .none) (hspelling : lex.toUppercase ⟨chr :: word⟩ = keyword.spelling) :
      Lexeme lex (chr :: word) rest (.keyword keyword)
  /-- Any other such run. -/
  | identifier {chr : Char} {word rest : List Char}
      (hrun : IsRun lex.isPartOfIdentOrKeyword (chr :: word) rest) (hdigit : chr.isDigit = false)
      (hspelling : ∀ keyword : Keyword, keyword ≠ .none →
        lex.toUppercase ⟨chr :: word⟩ ≠ keyword.spelling) :
      Lexeme lex (chr :: word) rest (.identifier ⟨chr :: word⟩)

/-- Where a scan gets stuck, and the error it reports there. -/
inductive Fault (lex : Lexicon) : List Char → ErrorKind → Prop
  /-- A character that starts no lexeme. -/
  | unexpected {chr : Char} (hdispatch : chr ∉ dispatchChars) (hdigit : chr.isDigit = false)
      (hident : lex.isPartOfIdentOrKeyword chr = false) (rest : List Char) :
      Fault lex (chr :: rest) (.unexpectedOrUnsupportedToken chr)
  /-- A `!` followed by a character other than `=`. -/
  | bang {chr : Char} (h : chr ≠ '=') (rest : List Char) :
      Fault lex ('!' :: chr :: rest) (.unexpectedWhileParsingOperator chr .neq)
  /-- A `!` at the end of the input. -/
  | bangEnd : Fault lex ['!'] (.operatorNotClosed .neq)
  /-- An opening quote that is never closed. -/
  | unclosed {quote : Char} {contents : List Char} (hquote : quote = '"' ∨ quote = '\'')
      (h : quote ∉ contents) : Fault lex (quote :: contents) .stringNotClosed

/-- What `next_token` consumes of `chars` before it reports a fault of kind `kind`: nothing
before a character that starts no lexeme, the `!` before the character that follows it, and
all of it when the input ends inside an operator or a string. -/
def faultConsumed : ErrorKind → List Char → List Char
  | .unexpectedOrUnsupportedToken _, _ => []
  | .unexpectedWhileParsingOperator _ _, _ => ['!']
  | _, chars => chars

theorem Lexeme.ne_nil {lex : Lexicon} {w rest : List Char} {token : Token}
    (h : Lexeme lex w rest token) : w ≠ [] := by
  cases h <;> simp

theorem Lexeme.ne_eof {lex : Lexicon} {w rest : List Char} {token : Token}
    (h : Lexeme lex w rest token) : token ≠ .eof := by
  cases h with
  | single h =>
    have hne : ∀ entry ∈ singleCharTokens, entry.2 ≠ .eof := by decide
    exact hne _ h
  | _ => simp

end Mkdb
