/-!
# Tokens

The token types of `sql/token.rs`, which is not part of this excerpt, modelled from what
`sql/tokenizer.rs` builds and matches on, with the tokenizer's own location and error types.

`Token::is_part_of_ident_or_keyword` (in `token.rs`) and `str::to_uppercase` stand on Unicode
tables; they are the two parameters of a `Lexicon`. The one property the tokenizer relies on
is a field of it: no character that `next_token` dispatches on before identifiers is part of
an identifier.
-/

namespace Mkdb

/-- Modelled from the tokenizer: `Whitespace`. A lone `\r` and `\r\n` are both `Newline`. -/
inductive Whitespace where
  | space
  | tab
  | newline
  deriving DecidableEq, Repr

/-- Modelled from the tokenizer: `Keyword`, the words `tokenize_keyword_or_identifier`
recognises, and `None` for every other word. -/
inductive Keyword where
  | select | create | update | delete | insert | values | into | set | drop | «from» | «where»
  | and | or | primary | key | unique | table | database | int | bigInt | unsigned | varchar
  | bool | true | false | order | «by» | index | «on» | start | transaction | rollback | commit
  | explain | none
  deriving DecidableEq, Repr

/-- Modelled from the tokenizer: `Token`. -/
inductive Token where
  | eof
  | whitespace (whitespace : Whitespace)
  | identifier (identifier : String)
  | keyword (keyword : Keyword)
  | string (string : String)
  | number (number : String)
  | eq | neq | lt | gt | ltEq | gtEq | mul | div | plus | minus
  | leftParen | rightParen | comma | semiColon
  deriving DecidableEq, Repr

/-- `Location` (`tokenizer.rs:8-14`): line and column, both counted from 1. -/
structure Location where
  line : Nat
  col : Nat
  deriving DecidableEq, Repr

/-- The location update of `Stream::next` (`tokenizer.rs:66-75`). -/
def Location.advance (location : Location) (chr : Char) : Location :=
  if chr = '\n' then ⟨location.line + 1, 1⟩ else ⟨location.line, location.col + 1⟩

/-- `ErrorKind` (`tokenizer.rs:126-136`). -/
inductive ErrorKind where
  | unexpectedOrUnsupportedToken (chr : Char)
  | unexpectedWhileParsingOperator (unexpected : Char) (operator : Token)
  | operatorNotClosed (operator : Token)
  | stringNotClosed
  | other (message : String)
  deriving DecidableEq, Repr

/-- `TokenizerError` (`tokenizer.rs:166-170`). -/
structure TokenizerError where
  kind : ErrorKind
  location : Location
  input : String
  deriving DecidableEq, Repr

/-- The arms of the keyword `match` of `tokenize_keyword_or_identifier`
(`tokenizer.rs:361-397`), in order: each spelling with its keyword. -/
def keywordTable : List (String × Keyword) :=
  [("SELECT", .select), ("CREATE", .create), ("UPDATE", .update), ("DELETE", .delete),
    ("INSERT", .insert), ("VALUES", .values), ("INTO", .into), ("SET", .set), ("DROP", .drop),
    ("FROM", .from), ("WHERE", .where), ("AND", .and), ("OR", .or), ("PRIMARY", .primary),
    ("KEY", .key), ("UNIQUE", .unique), ("TABLE", .table), ("DATABASE", .database),
    ("INT", .int), ("BIGINT", .bigInt), ("UNSIGNED", .unsigned), ("VARCHAR", .varchar),
    ("BOOL", .bool), ("TRUE", .true), ("FALSE", .false), ("ORDER", .order), ("BY", .by),
    ("INDEX", .index), ("ON", .on), ("START", .start), ("TRANSACTION", .transaction),
    ("ROLLBACK", .rollback), ("COMMIT", .commit), ("EXPLAIN", .explain)]

/-- That `match` on the upper-cased word: the first arm whose spelling it is, and
`Keyword::None` when there is none. -/
def keywordOf (value : String) : Keyword :=
  ((keywordTable.find? fun entry => entry.1 = value).map (·.2)).getD .none

/-- The characters with an arm of their own in `next_token` (`tokenizer.rs:246-301`), tried
before identifiers: whitespace, operators, parentheses and punctuation, and the two quotes. -/
def dispatchChars : List Char :=
  [' ', '\t', '\n', '\r', '<', '>', '*', '/', '+', '-', '=', '!', '(', ')', ',', ';', '"', '\'']

/-- What the tokenizer reads of `token.rs` and of the standard library's Unicode tables. -/
structure Lexicon where
  /-- `Token::is_part_of_ident_or_keyword`. -/
  isPartOfIdentOrKeyword : Char → Bool
  /-- `str::to_uppercase`. -/
  toUppercase : String → String
  /-- No character with an arm of its own in `next_token` is part of an identifier. -/
  isPartOfIdentOrKeyword_dispatch : ∀ chr ∈ dispatchChars, isPartOfIdentOrKeyword chr = false

/-- ASCII letters, digits and underscores, upper-cased in ASCII: the lexicon on ASCII input. -/
def Lexicon.ascii : Lexicon where
  isPartOfIdentOrKeyword chr := chr.isAlphanum || chr = '_'
  toUppercase := String.toUpper
  isPartOfIdentOrKeyword_dispatch := by decide

end Mkdb
