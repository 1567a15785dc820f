import Mkdb.Sql.Lexeme

/-!
# The tokenizer

Rendering of `sql/tokenizer.rs`. A `Stream` is the input, the location of the next
character, and the characters not yet consumed: the `Peekable<Chars>` of the source, whose
`peek` is the head of that list and whose `next` pops it. `next_token` mutates the tokenizer
and returns a `TokenResult`; here it returns both.

`next_token` is described once, by `nextToken_cases`: on any state it returns `Eof` at the
end of the input, or the token of a lexeme and the state after it, or the error of a fault.
The same lemma gives the termination of `tokenize`.
-/

namespace Mkdb

/-- `Stream` (`tokenizer.rs:46-53`). -/
structure Stream where
  input : String
  location : Location
  chars : List Char
  deriving DecidableEq, Repr

/-- `Stream::new` (`tokenizer.rs:57-63`). -/
def Stream.new (input : String) : Stream := ⟨input, ⟨1, 1⟩, input.toList⟩

/-- `Stream::next` (`tokenizer.rs:66-75`). -/
def Stream.next (s : Stream) : Option Char × Stream :=
  match s.chars with
  | [] => (none, s)
  | chr :: chars => (some chr, { s with location := s.location.advance chr, chars })

/-- `Stream::peek` (`tokenizer.rs:79-81`). -/
def Stream.peek (s : Stream) : Option Char := s.chars.head?

/-- `Stream::peek_next` (`tokenizer.rs:85-88`): consumes one character and peeks at the
next. -/
def Stream.peekNext (s : Stream) : Option Char × Stream :=
  let s := s.next.2
  (s.peek, s)

/-- The characters a `TakeWhile` yields, and the location and characters left after them
(`tokenizer.rs:107-122`): it peeks, and consumes only a character the predicate accepts. -/
def takeWhileFrom (predicate : Char → Bool) (location : Location) :
    List Char → List Char × Location × List Char
  | [] => ([], location, [])
  | chr :: chars =>
    if predicate chr then
      let (taken, location, chars) := takeWhileFrom predicate (location.advance chr) chars
      (chr :: taken, location, chars)
    else ([], location, chr :: chars)

/-- `Stream::take_while` (`tokenizer.rs:92-97`), collected. -/
def Stream.takeWhile (predicate : Char → Bool) (s : Stream) : List Char × Stream :=
  let (taken, location, chars) := takeWhileFrom predicate s.location s.chars
  (taken, { s with location, chars })

/-- `Tokenizer` (`tokenizer.rs:173-178`). -/
structure Tokenizer where
  stream : Stream
  reachedEof : Bool
  deriving DecidableEq, Repr

/-- `Tokenizer::new` (`tokenizer.rs:188-193`). -/
def Tokenizer.new (input : String) : Tokenizer := ⟨Stream.new input, false⟩

/-- `Tokenizer::consume` (`tokenizer.rs:315-318`). -/
def Tokenizer.consume (t : Tokenizer) (token : Token) : Except TokenizerError Token × Tokenizer :=
  (.ok token, { t with stream := t.stream.next.2 })

/-- `Tokenizer::error` (`tokenizer.rs:322-328`): the error at the stream's location. -/
def Tokenizer.error (t : Tokenizer) (kind : ErrorKind) : Except TokenizerError Token × Tokenizer :=
  (.error ⟨kind, t.stream.location, t.stream.input⟩, t)

/-- `Tokenizer::tokenize_string` (`tokenizer.rs:332-342`). Its `next().unwrap()` consumes the
quote that `next_token` has just peeked, passed here as `quote`. -/
def Tokenizer.tokenizeString (quote : Char) (t : Tokenizer) :
    Except TokenizerError Token × Tokenizer :=
  let (string, stream) := t.stream.next.2.takeWhile fun chr => chr != quote
  let (closing, stream) := stream.next
  let t := { t with stream }
  if closing = some quote then (.ok (.string ⟨string⟩), t) else t.error .stringNotClosed

/-- `Tokenizer::tokenize_number` (`tokenizer.rs:345-349`). -/
def Tokenizer.tokenizeNumber (t : Tokenizer) : Except TokenizerError Token × Tokenizer :=
  let (number, stream) := t.stream.takeWhile Char.isDigit
  (.ok (.number ⟨number⟩), { t with stream })

/-- `Tokenizer::tokenize_keyword_or_identifier` (`tokenizer.rs:353-403`). -/
def Tokenizer.tokenizeKeywordOrIdentifier (lex : Lexicon) (t : Tokenizer) :
    Except TokenizerError Token × Tokenizer :=
  let (value, stream) := t.stream.takeWhile lex.isPartOfIdentOrKeyword
  let value : String := ⟨value⟩
  let keyword := keywordOf (lex.toUppercase value)
  (.ok (match keyword with
    | .none => .identifier value
    | _ => .keyword keyword), { t with stream })

/-- `Tokenizer::next_token` (`tokenizer.rs:239-311`). -/
def Tokenizer.nextToken (lex : Lexicon) (t : Tokenizer) : Except TokenizerError Token × Tokenizer :=
  match t.stream.peek with
  | none => (.ok .eof, { t with reachedEof := true })
  | some chr =>
    match chr with
    | ' ' => t.consume (.whitespace .space)
    | '\t' => t.consume (.whitespace .tab)
    | '\n' => t.consume (.whitespace .newline)
    | '\r' =>
      let (next, stream) := t.stream.peekNext
      let t := { t with stream }
      match next with
      | some '\n' => t.consume (.whitespace .newline)
      | _ => (.ok (.whitespace .newline), t)
    | '<' =>
      let (next, stream) := t.stream.peekNext
      let t := { t with stream }
      match next with
      | some '=' => t.consume .ltEq
      | _ => (.ok .lt, t)
    | '>' =>
      let (next, stream) := t.stream.peekNext
      let t := { t with stream }
      match next with
      | some '=' => t.consume .gtEq
      | _ => (.ok .gt, t)
    | '*' => t.consume .mul
    | '/' => t.consume .div
    | '+' => t.consume .plus
    | '-' => t.consume .minus
    | '=' => t.consume .eq
    | '!' =>
      let (next, stream) := t.stream.peekNext
      let t := { t with stream }
      match next with
      | some '=' => t.consume .neq
      | some unexpected => t.error (.unexpectedWhileParsingOperator unexpected .neq)
      | none => t.error (.operatorNotClosed .neq)
    | '(' => t.consume .leftParen
    | ')' => t.consume .rightParen
    | ',' => t.consume .comma
    | ';' => t.consume .semiColon
    | '"' | '\'' => t.tokenizeString chr
    | chr =>
      if chr.isDigit then t.tokenizeNumber
      else if lex.isPartOfIdentOrKeyword chr then t.tokenizeKeywordOrIdentifier lex
      else t.error (.unexpectedOrUnsupportedToken chr)

/-! ## The stream -/

@[simp] theorem Stream.next_nil (input : String) (location : Location) :
    (Stream.mk input location []).next = (none, ⟨input, location, []⟩) := rfl

@[simp] theorem Stream.next_cons (input : String) (location : Location) (chr : Char)
    (chars : List Char) :
    (Stream.mk input location (chr :: chars)).next =
      (some chr, ⟨input, location.advance chr, chars⟩) := rfl

/-- A `TakeWhile` yields the characters `List.takeWhile` keeps, leaves those `List.dropWhile`
leaves, and advances the location over exactly the characters it yields. -/
theorem takeWhileFrom_eq (p : Char → Bool) (location : Location) (chars : List Char) :
    takeWhileFrom p location chars =
      (chars.takeWhile p, (chars.takeWhile p).foldl Location.advance location,
        chars.dropWhile p) := by
  induction chars generalizing location with
  | nil => rfl
  | cons chr chars ih =>
    by_cases hp : p chr = true
    · simp [takeWhileFrom, hp, ih, List.takeWhile_cons_of_pos, List.dropWhile_cons_of_pos]
    · simp [takeWhileFrom, hp, List.takeWhile_cons_of_neg, List.dropWhile_cons_of_neg]

theorem Stream.takeWhile_eq (p : Char → Bool) (input : String) (location : Location)
    (chars : List Char) : (Stream.mk input location chars).takeWhile p =
      (chars.takeWhile p,
        ⟨input, (chars.takeWhile p).foldl Location.advance location, chars.dropWhile p⟩) := by
  simp [Stream.takeWhile, takeWhileFrom_eq]

/-! ## One call of `next_token`, arm by arm -/

section Step

variable (lex : Lexicon) (input : String) (location : Location) (reachedEof : Bool)

theorem nextToken_single {chr : Char} {token : Token} (h : (chr, token) ∈ singleCharTokens)
    (chars : List Char) :
    Tokenizer.nextToken lex ⟨⟨input, location, chr :: chars⟩, reachedEof⟩ =
      (.ok token, ⟨⟨input, location.advance chr, chars⟩, reachedEof⟩) := by
  simp only [singleCharTokens, List.mem_cons, Prod.mk.injEq, List.not_mem_nil, or_false] at h
  rcases h with ⟨rfl, rfl⟩ | ⟨rfl, rfl⟩ | ⟨rfl, rfl⟩ | ⟨rfl, rfl⟩ | ⟨rfl, rfl⟩ | ⟨rfl, rfl⟩ |
    ⟨rfl, rfl⟩ | ⟨rfl, rfl⟩ | ⟨rfl, rfl⟩ | ⟨rfl, rfl⟩ | ⟨rfl, rfl⟩ | ⟨rfl, rfl⟩ <;> rfl

theorem nextToken_cr {chars : List Char} (h : chars.head? ≠ some '\n') :
    Tokenizer.nextToken lex ⟨⟨input, location, '\r' :: chars⟩, reachedEof⟩ =
      (.ok (.whitespace .newline), ⟨⟨input, location.advance '\r', chars⟩, reachedEof⟩) := by
  cases chars with
  | nil => rfl
  | cons chr chars =>
    simp only [List.head?_cons, ne_eq, Option.some.injEq] at h
    simp [Tokenizer.nextToken, Stream.peekNext, Stream.peek, h]

theorem nextToken_lt {chars : List Char} (h : chars.head? ≠ some '=') :
    Tokenizer.nextToken lex ⟨⟨input, location, '<' :: chars⟩, reachedEof⟩ =
      (.ok .lt, ⟨⟨input, location.advance '<', chars⟩, reachedEof⟩) := by
  cases chars with
  | nil => rfl
  | cons chr chars =>
    simp only [List.head?_cons, ne_eq, Option.some.injEq] at h
    simp [Tokenizer.nextToken, Stream.peekNext, Stream.peek, h]

theorem nextToken_gt {chars : List Char} (h : chars.head? ≠ some '=') :
    Tokenizer.nextToken lex ⟨⟨input, location, '>' :: chars⟩, reachedEof⟩ =
      (.ok .gt, ⟨⟨input, location.advance '>', chars⟩, reachedEof⟩) := by
  cases chars with
  | nil => rfl
  | cons chr chars =>
    simp only [List.head?_cons, ne_eq, Option.some.injEq] at h
    simp [Tokenizer.nextToken, Stream.peekNext, Stream.peek, h]

theorem nextToken_bang {chr : Char} (h : chr ≠ '=') (chars : List Char) :
    Tokenizer.nextToken lex ⟨⟨input, location, '!' :: chr :: chars⟩, reachedEof⟩ =
      (.error ⟨.unexpectedWhileParsingOperator chr .neq, location.advance '!', input⟩,
        ⟨⟨input, location.advance '!', chr :: chars⟩, reachedEof⟩) := by
  simp [Tokenizer.nextToken, Stream.peekNext, Stream.peek, Tokenizer.error, h]

theorem nextToken_quote {quote : Char} (h : quote = '"' ∨ quote = '\'') (chars : List Char) :
    Tokenizer.nextToken lex ⟨⟨input, location, quote :: chars⟩, reachedEof⟩ =
      Tokenizer.tokenizeString quote ⟨⟨input, location, quote :: chars⟩, reachedEof⟩ := by
  rcases h with rfl | rfl <;> rfl

/-- Past the arms of its own characters, `next_token` tries a number, then a word. -/
theorem nextToken_of_not_mem_dispatchChars {chr : Char} (h : chr ∉ dispatchChars)
    (chars : List Char) :
    Tokenizer.nextToken lex ⟨⟨input, location, chr :: chars⟩, reachedEof⟩ =
      let t : Tokenizer := ⟨⟨input, location, chr :: chars⟩, reachedEof⟩
      if chr.isDigit then t.tokenizeNumber
      else if lex.isPartOfIdentOrKeyword chr then t.tokenizeKeywordOrIdentifier lex
      else t.error (.unexpectedOrUnsupportedToken chr) := by
  simp only [dispatchChars, List.mem_cons, List.not_mem_nil, or_false, not_or] at h
  simp [Tokenizer.nextToken, Stream.peek, h]

/-- `tokenize_string` keeps what stands before the next quote and consumes the quote; without
one it fails at the end of the input. -/
theorem tokenizeString_eq (quote : Char) (chars : List Char) :
    Tokenizer.tokenizeString quote ⟨⟨input, location, quote :: chars⟩, reachedEof⟩ =
      let string := chars.takeWhile (· != quote)
      let location' := (quote :: string).foldl Location.advance location
      match chars.dropWhile (· != quote) with
      | [] => (.error ⟨.stringNotClosed, location', input⟩, ⟨⟨input, location', []⟩, reachedEof⟩)
      | closing :: rest => (.ok (.string ⟨string⟩),
          ⟨⟨input, location'.advance closing, rest⟩, reachedEof⟩) := by
  have hhead := List.head?_dropWhile_not (· != quote) chars
  simp only [Tokenizer.tokenizeString, Stream.next_cons, Stream.takeWhile_eq]
  cases hdrop : chars.dropWhile (· != quote) with
  | nil => rfl
  | cons closing rest =>
    rw [hdrop] at hhead
    simp only [List.head?_cons, bne_eq_false_iff_eq] at hhead
    simp [hhead, Tokenizer.error, List.foldl_cons]

theorem tokenizeNumber_eq (chars : List Char) :
    Tokenizer.tokenizeNumber ⟨⟨input, location, chars⟩, reachedEof⟩ =
      (.ok (.number ⟨chars.takeWhile Char.isDigit⟩),
        ⟨⟨input, (chars.takeWhile Char.isDigit).foldl Location.advance location,
          chars.dropWhile Char.isDigit⟩, reachedEof⟩) := by
  simp [Tokenizer.tokenizeNumber, Stream.takeWhile_eq]

theorem tokenizeKeywordOrIdentifier_eq (chars : List Char) :
    Tokenizer.tokenizeKeywordOrIdentifier lex ⟨⟨input, location, chars⟩, reachedEof⟩ =
      let value : String := ⟨chars.takeWhile lex.isPartOfIdentOrKeyword⟩
      let keyword := keywordOf (lex.toUppercase value)
      (.ok (match keyword with
        | .none => .identifier value
        | _ => .keyword keyword),
        ⟨⟨input, (chars.takeWhile lex.isPartOfIdentOrKeyword).foldl Location.advance location,
          chars.dropWhile lex.isPartOfIdentOrKeyword⟩, reachedEof⟩) := by
  simp only [Tokenizer.tokenizeKeywordOrIdentifier, Stream.takeWhile_eq]

end Step

/-! ## What one call does -/

/-- The tokenizer once its stream has consumed `w`, leaving `rest`: the location has advanced
over `w` as `Stream::next` advances it, one character at a time. -/
def Tokenizer.skip (t : Tokenizer) (w rest : List Char) : Tokenizer :=
  { t with stream := { t.stream with
      location := w.foldl Location.advance t.stream.location, chars := rest } }

/-- What one call of `next_token` on `t` returns. -/
inductive Tokenizer.Step (lex : Lexicon) (t : Tokenizer) :
    Except TokenizerError Token × Tokenizer → Prop
  /-- At the end of the input, `Eof`, and the end is marked reached. -/
  | eof (h : t.stream.chars = []) : Step lex t (.ok .eof, { t with reachedEof := true })
  /-- The token of the lexeme the input starts with, and the stream past that lexeme. -/
  | lexeme {w rest : List Char} {token : Token} (h : t.stream.chars = w ++ rest)
      (hlex : Lexeme lex w rest token) : Step lex t (.ok token, t.skip w rest)
  /-- The error of the fault the input starts with, reported, and left, past what was
  consumed before it. -/
  | fault {kind : ErrorKind} {rest : List Char} (hfault : Fault lex t.stream.chars kind)
      (h : t.stream.chars = faultConsumed kind t.stream.chars ++ rest) :
      Step lex t ((t.skip (faultConsumed kind t.stream.chars) rest).error kind)

theorem Tokenizer.Step.of_lexeme {lex : Lexicon} {t : Tokenizer} {w rest : List Char}
    {token : Token} {result : Except TokenizerError Token × Tokenizer}
    (h : t.stream.chars = w ++ rest) (hlex : Lexeme lex w rest token)
    (hresult : result = (.ok token, t.skip w rest)) : t.Step lex result :=
  hresult ▸ .lexeme h hlex

section Step

variable (lex : Lexicon) (input : String) (location : Location) (reachedEof : Bool)

theorem nextToken_quote_step {quote : Char} (hquote : quote = '"' ∨ quote = '\'')
    (chars : List Char) :
    let t : Tokenizer := ⟨⟨input, location, quote :: chars⟩, reachedEof⟩
    t.Step lex (t.nextToken lex) := by
  have hrun := isRun_takeWhile (· != quote) chars
  have hsplit := List.takeWhile_append_dropWhile (· != quote) chars
  simp only [nextToken_quote lex input location reachedEof hquote, tokenizeString_eq]
  cases hdrop : chars.dropWhile (· != quote) with
  | nil =>
    rw [hdrop, List.append_nil] at hsplit
    rw [hsplit]
    refine .fault (.unclosed hquote fun hmem => ?_) (List.append_nil _).symm
    simpa using List.dropWhile_eq_nil_iff.mp hdrop quote hmem
  | cons closing rest =>
    rw [hdrop] at hrun hsplit
    obtain rfl : closing = quote := by simpa using hrun.2 closing rfl
    refine .of_lexeme (w := closing :: chars.takeWhile (· != closing) ++ [closing])
      ?_ (.string hquote (fun hmem => ?_) rest) (by simp [Tokenizer.skip])
    · conv_lhs => rw [← hsplit]
      simp
    · simpa using hrun.1 _ hmem

theorem nextToken_word_step {chr : Char} (hdispatch : chr ∉ dispatchChars) (chars : List Char) :
    let t : Tokenizer := ⟨⟨input, location, chr :: chars⟩, reachedEof⟩
    t.Step lex (t.nextToken lex) := by
  simp only [nextToken_of_not_mem_dispatchChars lex input location reachedEof hdispatch]
  split_ifs with hdigit hident
  · have hrun := isRun_takeWhile Char.isDigit (chr :: chars)
    rw [List.takeWhile_cons_of_pos hdigit, List.dropWhile_cons_of_pos hdigit] at hrun
    rw [tokenizeNumber_eq, List.takeWhile_cons_of_pos hdigit, List.dropWhile_cons_of_pos hdigit]
    exact .lexeme (by rw [List.cons_append, List.takeWhile_append_dropWhile]) (.number hrun)
  · have hrun := isRun_takeWhile lex.isPartOfIdentOrKeyword (chr :: chars)
    rw [List.takeWhile_cons_of_pos hident, List.dropWhile_cons_of_pos hident] at hrun
    have hsplit : chr :: chars = (chr :: chars.takeWhile lex.isPartOfIdentOrKeyword) ++
        chars.dropWhile lex.isPartOfIdentOrKeyword := by
      rw [List.cons_append, List.takeWhile_append_dropWhile]
    simp only [Bool.not_eq_true] at hdigit
    simp only [tokenizeKeywordOrIdentifier_eq, List.takeWhile_cons_of_pos hident,
      List.dropWhile_cons_of_pos hident]
    split
    · rename_i hnone
      exact .lexeme hsplit (.identifier hrun hdigit fun keyword hkeyword hs => by
        rw [hs, keywordOf_spelling] at hnone
        exact hkeyword hnone)
    · rename_i hsome
      exact .lexeme hsplit (.keyword hrun hdigit hsome (spelling_keywordOf hsome).symm)
  · simp only [Bool.not_eq_true] at hdigit hident
    exact .fault (.unexpected hdispatch hdigit hident chars) rfl

end Step

/-- One call of `next_token`: at the end of the input it returns `Eof` and marks it reached;
otherwise it reads one lexeme and moves the stream past it, or reports the fault the input
starts with. -/
theorem nextToken_step (lex : Lexicon) (t : Tokenizer) : t.Step lex (t.nextToken lex) := by
  obtain ⟨⟨input, location, chars⟩, reachedEof⟩ := t
  rcases chars with _ | ⟨chr, chars⟩
  · exact .eof rfl
  by_cases hdispatch : chr ∈ dispatchChars
  · cases hsingle : singleCharTokens.find? (·.1 = chr) with
    | some entry =>
      have hchr := List.find?_some hsingle
      simp only [decide_eq_true_eq] at hchr
      subst hchr
      have hmem := List.mem_of_find?_eq_some hsingle
      rw [nextToken_single lex input location reachedEof hmem chars]
      exact .lexeme (w := [_]) rfl (.single hmem chars)
    | none => ?_
    simp only [dispatchChars, List.mem_cons, List.not_mem_nil, or_false] at hdispatch
    rcases hdispatch with rfl | rfl | rfl | rfl | rfl | rfl | rfl | rfl | rfl | rfl | rfl | rfl |
      rfl | rfl | rfl | rfl | hquote <;> try cases hsingle
    · -- \r, maybe followed by \n
      rcases chars with _ | ⟨next, chars⟩
      · rw [nextToken_cr lex input location reachedEof (by simp)]
        exact .lexeme (w := ['\r']) rfl (.cr (by simp))
      by_cases hnext : next = '\n'
      · subst hnext
        exact .lexeme (w := ['\r', '\n']) rfl (.crlf chars)
      · rw [nextToken_cr lex input location reachedEof (by simpa using hnext)]
        exact .lexeme (w := ['\r']) rfl (.cr (by simpa using hnext))
    · -- <, maybe followed by =
      rcases chars with _ | ⟨next, chars⟩
      · rw [nextToken_lt lex input location reachedEof (by simp)]
        exact .lexeme (w := ['<']) rfl (.lt (by simp))
      by_cases hnext : next = '='
      · subst hnext
        exact .lexeme (w := ['<', '=']) rfl (.ltEq chars)
      · rw [nextToken_lt lex input location reachedEof (by simpa using hnext)]
        exact .lexeme (w := ['<']) rfl (.lt (by simpa using hnext))
    · -- >, maybe followed by =
      rcases chars with _ | ⟨next, chars⟩
      · rw [nextToken_gt lex input location reachedEof (by simp)]
        exact .lexeme (w := ['>']) rfl (.gt (by simp))
      by_cases hnext : next = '='
      · subst hnext
        exact .lexeme (w := ['>', '=']) rfl (.gtEq chars)
      · rw [nextToken_gt lex input location reachedEof (by simpa using hnext)]
        exact .lexeme (w := ['>']) rfl (.gt (by simpa using hnext))
    · -- !, which needs an =
      rcases chars with _ | ⟨next, chars⟩
      · exact .fault .bangEnd (List.append_nil _).symm
      by_cases hnext : next = '='
      · subst hnext
        exact .lexeme (w := ['!', '=']) rfl (.neq chars)
      · rw [nextToken_bang lex input location reachedEof hnext chars]
        exact .fault (.bang hnext chars) rfl
    · exact nextToken_quote_step lex input location reachedEof hquote chars
  · exact nextToken_word_step lex input location reachedEof hdispatch chars

/-- `next_token` read one lexeme: it returned the lexeme's token and moved the stream past
it. -/
def Tokenizer.ReadsLexeme (lex : Lexicon) (t : Tokenizer)
    (result : Except TokenizerError Token × Tokenizer) : Prop :=
  ∃ w rest token location, t.stream.chars = w ++ rest ∧ Lexeme lex w rest token ∧
    result = (.ok token, ⟨⟨t.stream.input, location, rest⟩, t.reachedEof⟩)

/-- `next_token` stopped at a fault and reported it. -/
def Tokenizer.HitsFault (lex : Lexicon) (t : Tokenizer)
    (result : Except TokenizerError Token × Tokenizer) : Prop :=
  ∃ kind location, Fault lex t.stream.chars kind ∧
    result.1 = .error ⟨kind, location, t.stream.input⟩

/-- `nextToken_step` with the locations forgotten. -/
theorem nextToken_cases (lex : Lexicon) (t : Tokenizer) :
    (t.stream.chars = [] ∧ t.nextToken lex = (.ok .eof, { t with reachedEof := true })) ∨
      t.ReadsLexeme lex (t.nextToken lex) ∨ t.HitsFault lex (t.nextToken lex) := by
  have hstep := nextToken_step lex t
  generalize t.nextToken lex = result at hstep ⊢
  cases hstep with
  | eof h => exact .inl ⟨h, rfl⟩
  | lexeme h hlex => exact .inr (.inl ⟨_, _, _, _, h, hlex, rfl⟩)
  | fault hfault _ => exact .inr (.inr ⟨_, _, hfault, rfl⟩)

/-! ## The loop -/

/-- What is left to produce: the characters not yet consumed, and `Eof` until it has been
returned. -/
def Tokenizer.remaining (t : Tokenizer) : Nat :=
  t.stream.chars.length + if t.reachedEof then 0 else 1

/-- Every token before `Eof` consumes input, and `Eof` ends the iteration. -/
theorem remaining_nextToken_lt {lex : Lexicon} {t t' : Tokenizer} {token : Token}
    (h : t.reachedEof = false) (hnext : t.nextToken lex = (.ok token, t')) :
    t'.remaining < t.remaining := by
  rcases nextToken_cases lex t with ⟨hnil, heq⟩ | ⟨w, rest, _, location, hchars, hlex, heq⟩ |
    ⟨_, _, -, herr⟩
  · rw [heq, Prod.mk.injEq] at hnext
    simp [← hnext.2, Tokenizer.remaining, hnil, h]
  · rw [heq, Prod.mk.injEq] at hnext
    have := List.length_pos.mpr hlex.ne_nil
    simp [← hnext.2, Tokenizer.remaining, hchars, h]
    omega
  · rw [hnext] at herr
    cases herr

/-- `Tokenizer::tokenize` from a state (`tokenizer.rs:208-225`): the iterator calls
`next_token` until `Eof` has been returned, and collecting into a `Result` stops at the
first error. The locations `next_token_with_location` attaches are dropped by
`token_only`. -/
def Tokenizer.tokenizeFrom (lex : Lexicon) (t : Tokenizer) : Except TokenizerError (List Token) :=
  if t.reachedEof then .ok []
  else
    match hnext : t.nextToken lex with
    | (.error e, _) => .error e
    | (.ok token, t') => (t'.tokenizeFrom lex).map (token :: ·)
termination_by t.remaining
decreasing_by exact remaining_nextToken_lt (by simpa using ‹¬t.reachedEof = true›) hnext

theorem tokenizeFrom_of_reachedEof {lex : Lexicon} {t : Tokenizer} (h : t.reachedEof = true) :
    t.tokenizeFrom lex = .ok [] := by
  rw [Tokenizer.tokenizeFrom, if_pos h]

theorem tokenizeFrom_of_ok {lex : Lexicon} {t t' : Tokenizer} {token : Token}
    (h : t.reachedEof = false) (hnext : t.nextToken lex = (.ok token, t')) :
    t.tokenizeFrom lex = (t'.tokenizeFrom lex).map (token :: ·) := by
  rw [Tokenizer.tokenizeFrom, if_neg (by simp [h])]
  split <;> simp_all

theorem tokenizeFrom_of_error {lex : Lexicon} {t : Tokenizer} {e : TokenizerError}
    (h : t.reachedEof = false) (hnext : (t.nextToken lex).1 = .error e) :
    t.tokenizeFrom lex = .error e := by
  rw [Tokenizer.tokenizeFrom, if_neg (by simp [h])]
  split <;> simp_all

/-- `Tokenizer::new(input).tokenize()`. -/
def tokenize (lex : Lexicon) (input : String) : Except TokenizerError (List Token) :=
  (Tokenizer.new input).tokenizeFrom lex

/-! ## The iterator -/

/-- `TokenWithLocation` (`tokenizer.rs:22-27`): a token and the location where it starts. -/
structure TokenWithLocation where
  variant : Token
  location : Location
  deriving DecidableEq, Repr

/-- `TokenWithLocation::token_only` (`tokenizer.rs:32-34`). -/
def TokenWithLocation.tokenOnly (token : TokenWithLocation) : Token := token.variant

/-- `Tokenizer::next_token_with_location` (`tokenizer.rs:229-236`): the stream's location
before the call, attached to the token. -/
def Tokenizer.nextTokenWithLocation (lex : Lexicon) (t : Tokenizer) :
    Except TokenizerError TokenWithLocation × Tokenizer :=
  let location := t.stream.location
  let (result, t) := t.nextToken lex
  (result.map fun token => ⟨token, location⟩, t)

/-- `Tokenizer::optional_next_token_with_location` (`tokenizer.rs:213-223`), which is
`Iter::next`: `None` once `Eof` has been returned. -/
def Tokenizer.optionalNextTokenWithLocation (lex : Lexicon) (t : Tokenizer) :
    Option (Except TokenizerError TokenWithLocation) × Tokenizer :=
  if !t.reachedEof then
    let (result, t) := t.nextTokenWithLocation lex
    (some result, t)
  else (none, t)

theorem Tokenizer.optionalNextTokenWithLocation_of_reachedEof {lex : Lexicon} {t : Tokenizer}
    (h : t.reachedEof = true) : t.optionalNextTokenWithLocation lex = (none, t) := by
  rw [Tokenizer.optionalNextTokenWithLocation, h]
  rfl

theorem Tokenizer.optionalNextTokenWithLocation_of_not_reachedEof {lex : Lexicon} {t : Tokenizer}
    (h : t.reachedEof = false) : t.optionalNextTokenWithLocation lex =
      (some ((t.nextToken lex).1.map fun token => ⟨token, t.stream.location⟩),
        (t.nextToken lex).2) := by
  rw [Tokenizer.optionalNextTokenWithLocation, h]
  rfl

/-- The tokenizer after `n` calls of `Iter::next`. -/
def Tokenizer.iterate (lex : Lexicon) : Nat → Tokenizer → Tokenizer
  | 0, t => t
  | n + 1, t => (t.optionalNextTokenWithLocation lex).2.iterate lex n

/-- `tokenize` as its code runs it, `iter().map(token_only).collect()`, allowed at most `fuel`
calls of `next_token`: `none` when it would need another. -/
def Tokenizer.tokenizeWithin (lex : Lexicon) :
    Nat → Tokenizer → Option (Except TokenizerError (List Token))
  | 0, t => if t.reachedEof then some (.ok []) else none
  | fuel + 1, t =>
    match t.optionalNextTokenWithLocation lex with
    | (none, _) => some (.ok [])
    | (some (.error e), _) => some (.error e)
    | (some (.ok token), t) => (t.tokenizeWithin lex fuel).map (·.map (token.tokenOnly :: ·))

end Mkdb
