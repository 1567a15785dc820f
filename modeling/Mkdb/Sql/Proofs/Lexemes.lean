import Mkdb.Sql.Tokenizer

/-!
# The tokenizer is a maximal-munch lexer that loses no character

`Scan lex chars tokens` says that `chars` is a concatenation of lexemes of the tokens before
`Eof`, in order; `Stuck lex chars kind` says that after some lexemes `chars` reaches a fault
of that kind. `tokenize` returns `Ok tokens` exactly when `Scan` holds, and fails with `kind`
exactly when `Stuck` holds.

Forward, from the code to the relations, the step is `nextToken_cases`. Backward, each lexeme
and each fault is read by `next_token` as the relation says (`nextToken_of_lexeme`,
`nextToken_of_fault`); this is where the `Lexicon` field is used, since a word must not start
with a character that has an arm of its own.
-/

namespace Mkdb

/-- `chars` is the concatenation of lexemes of the tokens before `Eof`, in order. -/
inductive Scan (lex : Lexicon) : List Char → List Token → Prop
  | eof : Scan lex [] [.eof]
  | lexeme {w rest : List Char} {token : Token} {tokens : List Token} :
      Lexeme lex w rest token → Scan lex rest tokens → Scan lex (w ++ rest) (token :: tokens)

/-- After some lexemes, `chars` reaches a fault of kind `kind`. -/
inductive Stuck (lex : Lexicon) : List Char → ErrorKind → Prop
  | fault {chars : List Char} {kind : ErrorKind} : Fault lex chars kind → Stuck lex chars kind
  | lexeme {w rest : List Char} {token : Token} {kind : ErrorKind} :
      Lexeme lex w rest token → Stuck lex rest kind → Stuck lex (w ++ rest) kind

/-- A scan ends with its only `Eof`. -/
theorem Scan.eof_last {lex : Lexicon} {chars : List Char} {tokens : List Token}
    (h : Scan lex chars tokens) : ∃ body, tokens = body ++ [.eof] ∧ .eof ∉ body := by
  induction h with
  | eof => exact ⟨[], rfl, List.not_mem_nil _⟩
  | lexeme hlex _ ih =>
    obtain ⟨body, rfl, hbody⟩ := ih
    exact ⟨_ :: body, rfl, by simp [hbody, hlex.ne_eof.symm]⟩

theorem not_mem_dispatchChars_of_isDigit {chr : Char} (h : chr.isDigit = true) :
    chr ∉ dispatchChars := by
  have hdigits : ∀ chr ∈ dispatchChars, chr.isDigit = false := by decide
  exact fun hmem => absurd h (by simp [hdigits chr hmem])

/-! ## Each lexeme and each fault, read by `next_token` -/

section Step

variable {lex : Lexicon} (input : String) (location : Location) (reachedEof : Bool)

/-- A word is read whole, and is a keyword exactly when its upper case is a spelling. -/
theorem nextToken_of_word {chr : Char} {word rest : List Char} {token : Token}
    (hrun : IsRun lex.isPartOfIdentOrKeyword (chr :: word) rest) (hdigit : chr.isDigit = false)
    (htoken : (match keywordOf (lex.toUppercase ⟨chr :: word⟩) with
      | .none => Token.identifier ⟨chr :: word⟩
      | _ => .keyword (keywordOf (lex.toUppercase ⟨chr :: word⟩))) = token) :
    ∃ location', Tokenizer.nextToken lex ⟨⟨input, location, chr :: word ++ rest⟩, reachedEof⟩ =
      (.ok token, ⟨⟨input, location', rest⟩, reachedEof⟩) := by
  have hident := hrun.1 chr (List.mem_cons_self _ _)
  have hdispatch : chr ∉ dispatchChars := fun hmem => by
    simp [lex.isPartOfIdentOrKeyword_dispatch chr hmem] at hident
  have h := tokenizeKeywordOrIdentifier_eq lex input location reachedEof (chr :: word ++ rest)
  obtain ⟨htake, hdrop⟩ := hrun.takeWhile_append
  rw [List.cons_append, nextToken_of_not_mem_dispatchChars lex input location reachedEof hdispatch]
  simp only [hdigit, hident, if_true, Bool.false_eq_true, if_false]
  rw [← List.cons_append, h, htake, hdrop]
  subst htoken
  exact ⟨_, rfl⟩

theorem nextToken_of_lexeme {w rest : List Char} {token : Token} (h : Lexeme lex w rest token) :
    ∃ location', Tokenizer.nextToken lex ⟨⟨input, location, w ++ rest⟩, reachedEof⟩ =
      (.ok token, ⟨⟨input, location', rest⟩, reachedEof⟩) := by
  cases h with
  | single h rest => exact ⟨_, nextToken_single lex input location reachedEof h rest⟩
  | crlf | ltEq | gtEq | neq => exact ⟨_, rfl⟩
  | cr h => exact ⟨_, nextToken_cr lex input location reachedEof h⟩
  | lt h => exact ⟨_, nextToken_lt lex input location reachedEof h⟩
  | gt h => exact ⟨_, nextToken_gt lex input location reachedEof h⟩
  | @number digit digits rest h =>
    have hnumber := tokenizeNumber_eq input location reachedEof (digit :: digits ++ rest)
    have hdigit := h.1 digit (List.mem_cons_self _ _)
    obtain ⟨htake, hdrop⟩ := h.takeWhile_append
    rw [List.cons_append, nextToken_of_not_mem_dispatchChars lex input location reachedEof
      (not_mem_dispatchChars_of_isDigit hdigit)]
    simp only [hdigit, if_true]
    rw [← List.cons_append, hnumber, htake, hdrop]
    exact ⟨_, rfl⟩
  | @string quote contents hquote h rest =>
    have hrun : IsRun (· != quote) contents (quote :: rest) :=
      ⟨fun chr hchr => bne_iff_ne.mpr fun heq => h (heq ▸ hchr), fun _ hchr => by
        simp only [List.head?_cons, Option.some.injEq] at hchr; simp [hchr]⟩
    obtain ⟨htake, hdrop⟩ := hrun.takeWhile_append
    have hstring := tokenizeString_eq input location reachedEof quote (contents ++ quote :: rest)
    simp only [List.cons_append, List.append_assoc, List.nil_append]
    rw [nextToken_quote lex input location reachedEof hquote, hstring, hdrop, htake]
    exact ⟨_, rfl⟩
  | keyword hrun hdigit hkeyword hspelling =>
    refine nextToken_of_word input location reachedEof hrun hdigit ?_
    rw [hspelling, keywordOf_spelling]
    split
    · exact absurd rfl hkeyword
    · rfl
  | identifier hrun hdigit hspelling =>
    refine nextToken_of_word input location reachedEof hrun hdigit ?_
    split
    · rfl
    · rename_i hsome
      exact absurd (spelling_keywordOf hsome).symm (hspelling _ hsome)

theorem nextToken_of_fault {chars : List Char} {kind : ErrorKind} (h : Fault lex chars kind) :
    ∃ location', (Tokenizer.nextToken lex ⟨⟨input, location, chars⟩, reachedEof⟩).1 =
      .error ⟨kind, location', input⟩ := by
  cases h with
  | @unexpected chr hdispatch hdigit hident rest =>
    rw [nextToken_of_not_mem_dispatchChars lex input location reachedEof hdispatch]
    simp only [hdigit, hident, Bool.false_eq_true, if_false]
    exact ⟨_, rfl⟩
  | bang h rest => exact ⟨_, by rw [nextToken_bang lex input location reachedEof h rest]⟩
  | bangEnd => exact ⟨_, rfl⟩
  | @unclosed quote contents hquote h =>
    have hdrop : contents.dropWhile (· != quote) = [] :=
      List.dropWhile_eq_nil_iff.mpr fun chr hchr => bne_iff_ne.mpr fun heq => h (heq ▸ hchr)
    have hstring := tokenizeString_eq input location reachedEof quote contents
    rw [nextToken_quote lex input location reachedEof hquote, hstring]
    simp only [hdrop]
    exact ⟨_, rfl⟩

end Step

/-! ## The loop -/

/-- From the code to the relations: from a state that has not returned `Eof`, the loop either
returns the tokens of a scan of what is left, or fails at a fault after some lexemes. -/
theorem tokenizeFrom_cases (lex : Lexicon) (t : Tokenizer) (h : t.reachedEof = false) :
    (∃ tokens, t.tokenizeFrom lex = .ok tokens ∧ Scan lex t.stream.chars tokens) ∨
      ∃ kind location, t.tokenizeFrom lex = .error ⟨kind, location, t.stream.input⟩ ∧
        Stuck lex t.stream.chars kind := by
  induction t using Tokenizer.tokenizeFrom.induct lex with
  | case1 t heof => simp [heof] at h
  | case2 t _ e t' hnext =>
    rcases nextToken_cases lex t with ⟨-, heq⟩ | ⟨_, _, _, _, -, -, heq⟩ |
      ⟨kind, location, hfault, herr⟩
    · simp [hnext] at heq
    · simp [hnext] at heq
    · rw [hnext] at herr
      exact .inr ⟨kind, location, tokenizeFrom_of_error h (by rw [hnext]; exact herr),
        .fault hfault⟩
  | case3 t _ token t' hnext ih =>
    rw [tokenizeFrom_of_ok h hnext]
    rcases nextToken_cases lex t with ⟨hnil, heq⟩ | ⟨w, rest, _, location, hchars, hlex, heq⟩ |
      ⟨_, _, -, herr⟩
    · rw [hnext, Prod.mk.injEq, Except.ok.injEq] at heq
      obtain ⟨rfl, rfl⟩ := heq
      exact .inl ⟨[.eof], by rw [tokenizeFrom_of_reachedEof rfl]; rfl, hnil ▸ .eof⟩
    · rw [hnext, Prod.mk.injEq, Except.ok.injEq] at heq
      obtain ⟨rfl, rfl⟩ := heq
      rw [hchars]
      rcases ih h with ⟨tokens, hok, hscan⟩ | ⟨kind, location', herr, hstuck⟩
      · exact .inl ⟨_, by rw [hok]; rfl, .lexeme hlex hscan⟩
      · exact .inr ⟨kind, location', by rw [herr]; rfl, .lexeme hlex hstuck⟩
    · rw [hnext] at herr
      cases herr

/-- From the relations to the code: a scan is what the loop returns. -/
theorem tokenizeFrom_of_scan {lex : Lexicon} {chars : List Char} {tokens : List Token}
    (h : Scan lex chars tokens) (input : String) (location : Location) :
    Tokenizer.tokenizeFrom lex ⟨⟨input, location, chars⟩, false⟩ = .ok tokens := by
  induction h generalizing location with
  | eof =>
    have hnext : Tokenizer.nextToken lex ⟨⟨input, location, []⟩, false⟩ =
        (.ok .eof, ⟨⟨input, location, []⟩, true⟩) := rfl
    rw [tokenizeFrom_of_ok rfl hnext, tokenizeFrom_of_reachedEof rfl]
    rfl
  | lexeme hlex _ ih =>
    obtain ⟨location', hnext⟩ := nextToken_of_lexeme input location false hlex
    rw [tokenizeFrom_of_ok rfl hnext, ih]
    rfl

/-- And a fault after some lexemes is where the loop fails. -/
theorem tokenizeFrom_of_stuck {lex : Lexicon} {chars : List Char} {kind : ErrorKind}
    (h : Stuck lex chars kind) (input : String) (location : Location) :
    ∃ location', Tokenizer.tokenizeFrom lex ⟨⟨input, location, chars⟩, false⟩ =
      .error ⟨kind, location', input⟩ := by
  induction h generalizing location with
  | fault hfault =>
    obtain ⟨location', herr⟩ := nextToken_of_fault input location false hfault
    exact ⟨location', tokenizeFrom_of_error rfl herr⟩
  | lexeme hlex _ ih =>
    obtain ⟨location', hnext⟩ := nextToken_of_lexeme input location false hlex
    obtain ⟨location'', herr⟩ := ih location'
    exact ⟨location'', by rw [tokenizeFrom_of_ok rfl hnext, herr]; rfl⟩

/-- The tokenizer is a maximal-munch lexer that loses no character. `tokenize` returns
`Ok tokens` exactly when the input is the concatenation of lexemes of the tokens before
`Eof`; it fails with an error of kind `kind`, naming the input, exactly when the input reaches
a fault of that kind after some lexemes; every error names the input; and the tokens end with
their only `Eof`. -/
theorem tokenize_maximal_munch (lex : Lexicon) (s : String) :
    (∀ tokens, tokenize lex s = .ok tokens ↔ Scan lex s.toList tokens) ∧
    (∀ kind, (∃ location, tokenize lex s = .error ⟨kind, location, s⟩) ↔
      Stuck lex s.toList kind) ∧
    (∀ e, tokenize lex s = .error e → e.input = s) ∧
    ∀ tokens, tokenize lex s = .ok tokens → ∃ body, tokens = body ++ [.eof] ∧ .eof ∉ body := by
  have hcases : (∃ tokens, tokenize lex s = .ok tokens ∧ Scan lex s.toList tokens) ∨
      ∃ kind location, tokenize lex s = .error ⟨kind, location, s⟩ ∧ Stuck lex s.toList kind :=
    tokenizeFrom_cases lex (Tokenizer.new s) rfl
  have hscan : ∀ tokens, tokenize lex s = .ok tokens ↔ Scan lex s.toList tokens := by
    refine fun tokens => ⟨fun hok => ?_, fun hscan => tokenizeFrom_of_scan hscan s ⟨1, 1⟩⟩
    rcases hcases with ⟨_, h, hscan⟩ | ⟨_, _, h, -⟩ <;> rw [h] at hok <;> cases hok
    exact hscan
  refine ⟨hscan, fun kind => ⟨fun ⟨location, herr⟩ => ?_, fun hstuck =>
    tokenizeFrom_of_stuck hstuck s ⟨1, 1⟩⟩, fun e herr => ?_,
    fun tokens hok => ((hscan tokens).mp hok).eof_last⟩
  · rcases hcases with ⟨_, h, -⟩ | ⟨_, _, h, hstuck⟩ <;> rw [h] at herr <;> cases herr
    exact hstuck
  · rcases hcases with ⟨_, h, -⟩ | ⟨_, _, h, -⟩ <;> rw [h] at herr <;> cases herr
    rfl


/-! ## Concatenation

A lexeme's extent depends on what follows it only through the next character: a `\r` takes
a following `\n`, a `<`, `>` or `!` a following `=`, a run of digits or of identifier
characters whatever extends it. Text that starts with any other character therefore lexes
on its own after a complete scan: the tokens of a concatenation are the tokens of its
parts. -/

/-- `chr` cannot extend, or change, the lexeme just before it. -/
def Separates (lex : Lexicon) (chr : Char) : Prop :=
  chr ≠ '\n' ∧ chr ≠ '=' ∧ chr.isDigit = false ∧ lex.isPartOfIdentOrKeyword chr = false

instance (lex : Lexicon) (chr : Char) : Decidable (Separates lex chr) :=
  inferInstanceAs (Decidable (_ ∧ _ ∧ _ ∧ _))

section Concatenation

variable {lex : Lexicon}

theorem IsRun.of_head? {p : Char → Bool} {run rest rest' : List Char} (h : IsRun p run rest)
    (hhead : ∀ chr, rest'.head? = some chr → rest.head? = some chr ∨ p chr = false) :
    IsRun p run rest' :=
  ⟨h.1, fun chr hchr => (hhead chr hchr).elim (h.2 chr) id⟩

/-- A lexeme stays one when what follows it starts with the same character, or with one that
separates. -/
theorem Lexeme.of_head? {w rest rest' : List Char} {token : Token} (h : Lexeme lex w rest token)
    (hhead : ∀ chr, rest'.head? = some chr → rest.head? = some chr ∨ Separates lex chr) :
    Lexeme lex w rest' token := by
  cases h with
  | single h => exact .single h _
  | crlf => exact .crlf _
  | cr h => exact .cr fun h' => (hhead _ h').elim h fun hsep => hsep.1 rfl
  | ltEq => exact .ltEq _
  | lt h => exact .lt fun h' => (hhead _ h').elim h fun hsep => hsep.2.1 rfl
  | gtEq => exact .gtEq _
  | gt h => exact .gt fun h' => (hhead _ h').elim h fun hsep => hsep.2.1 rfl
  | neq => exact .neq _
  | number h => exact .number (h.of_head? fun chr hchr => (hhead chr hchr).imp_right (·.2.2.1))
  | string hquote h => exact .string hquote h _
  | keyword hrun hdigit hkeyword hspelling =>
    exact .keyword (hrun.of_head? fun chr hchr => (hhead chr hchr).imp_right (·.2.2.2)) hdigit
      hkeyword hspelling
  | identifier hrun hdigit hspelling =>
    exact .identifier (hrun.of_head? fun chr hchr => (hhead chr hchr).imp_right (·.2.2.2)) hdigit
      hspelling

theorem head?_append_of_separates {rest more : List Char}
    (hmore : ∀ chr, more.head? = some chr → Separates lex chr) :
    ∀ chr, (rest ++ more).head? = some chr → rest.head? = some chr ∨ Separates lex chr := by
  cases rest with
  | nil => exact fun chr hchr => .inr (hmore chr hchr)
  | cons _ _ => exact fun _ hchr => .inl hchr

theorem eq_cons_of_cons_eq_append_eof {token : Token} {tokens body : List Token}
    (hne : token ≠ .eof) (h : token :: tokens = body ++ [.eof]) :
    ∃ body', body = token :: body' ∧ tokens = body' ++ [.eof] := by
  cases body with
  | nil => exact absurd (List.cons.inj h).1 hne
  | cons _ body' =>
    obtain ⟨rfl, rfl⟩ := List.cons.inj h
    exact ⟨body', rfl, rfl⟩

/-- A scan followed by a scan of text that starts with a separating character is a scan of
the concatenation: the first's tokens before `Eof`, then the second's. -/
theorem Scan.append {chars more : List Char} {body tokens : List Token}
    (h : Scan lex chars (body ++ [.eof])) (h' : Scan lex more tokens)
    (hmore : ∀ chr, more.head? = some chr → Separates lex chr) :
    Scan lex (chars ++ more) (body ++ tokens) := by
  generalize hts : body ++ [.eof] = ts at h
  induction h generalizing body with
  | eof =>
    obtain rfl : body = [] := by simpa using hts
    exact h'
  | lexeme hlex _ ih =>
    obtain ⟨body', rfl, htail⟩ := eq_cons_of_cons_eq_append_eof hlex.ne_eof hts.symm
    rw [List.append_assoc]
    exact .lexeme (hlex.of_head? (head?_append_of_separates hmore)) (ih htail.symm)

/-- And a scan followed by text that gets stuck gets stuck at the same fault. -/
theorem Scan.append_stuck {chars more : List Char} {body : List Token} {kind : ErrorKind}
    (h : Scan lex chars (body ++ [.eof])) (h' : Stuck lex more kind)
    (hmore : ∀ chr, more.head? = some chr → Separates lex chr) :
    Stuck lex (chars ++ more) kind := by
  generalize hts : body ++ [.eof] = ts at h
  induction h generalizing body with
  | eof => exact h'
  | lexeme hlex _ ih =>
    obtain ⟨body', -, htail⟩ := eq_cons_of_cons_eq_append_eof hlex.ne_eof hts.symm
    rw [List.append_assoc]
    exact .lexeme (hlex.of_head? (head?_append_of_separates hmore)) (ih htail.symm)

end Concatenation

theorem scan_of_tokenize {lex : Lexicon} {s : String} {tokens : List Token}
    (h : tokenize lex s = .ok tokens) : Scan lex s.toList tokens := by
  rcases tokenizeFrom_cases lex (Tokenizer.new s) rfl with ⟨_, h', hscan⟩ | ⟨_, _, h', -⟩ <;>
    rw [tokenize, h'] at h <;> cases h
  exact hscan

/-- Tokenizing text after a complete input: when `s` tokenizes and `s'` starts with a
character that separates (not a newline, `=`, a digit or an identifier character), `s ++ s'`
gives the tokens of `s` before its `Eof` followed by exactly what `s'` gives, and it fails
exactly when `s'` fails, with the same kind of error. -/
theorem tokenize_append (lex : Lexicon) {s s' : String} {body : List Token}
    (hs : tokenize lex s = .ok (body ++ [.eof]))
    (hsep : ∀ chr, s'.toList.head? = some chr → Separates lex chr) :
    (∀ tokens, tokenize lex (s ++ s') = .ok (body ++ tokens) ↔ tokenize lex s' = .ok tokens) ∧
    ∀ kind, (∃ location, tokenize lex (s ++ s') = .error ⟨kind, location, s ++ s'⟩) ↔
      ∃ location, tokenize lex s' = .error ⟨kind, location, s'⟩ := by
  have hscan := scan_of_tokenize hs
  rcases tokenizeFrom_cases lex (Tokenizer.new s') rfl with
    ⟨tokens', hok, hscan'⟩ | ⟨kind', location', herr, hstuck'⟩
  · have hall : tokenize lex (s ++ s') = .ok (body ++ tokens') :=
      tokenizeFrom_of_scan (hscan.append hscan' hsep) (s ++ s') ⟨1, 1⟩
    have hok : tokenize lex s' = .ok tokens' := hok
    exact ⟨fun tokens => by simp [hall, hok], fun kind => by simp [hall, hok]⟩
  · obtain ⟨location, hall⟩ : ∃ location,
        tokenize lex (s ++ s') = .error ⟨kind', location, s ++ s'⟩ :=
      tokenizeFrom_of_stuck (hscan.append_stuck hstuck' hsep) (s ++ s') ⟨1, 1⟩
    have herr : tokenize lex s' = .error ⟨kind', location', s'⟩ := herr
    exact ⟨fun tokens => by simp [hall, herr], fun kind => by simp [hall, herr]⟩

/-- `1` followed by ` 2`: the number, the space, the number. -/
theorem tokenize_append_of_numbers :
    tokenize Lexicon.ascii "1" = .ok ([.number "1"] ++ [.eof]) ∧
      (∀ chr, " 2".toList.head? = some chr → Separates Lexicon.ascii chr) ∧
      ((∀ tokens, tokenize Lexicon.ascii ("1" ++ " 2") = .ok ([.number "1"] ++ tokens) ↔
          tokenize Lexicon.ascii " 2" = .ok tokens) ∧
        ∀ kind, (∃ location, tokenize Lexicon.ascii ("1" ++ " 2") =
            .error ⟨kind, location, "1" ++ " 2"⟩) ↔
          ∃ location, tokenize Lexicon.ascii " 2" = .error ⟨kind, location, " 2"⟩) := by
  have hs : tokenize Lexicon.ascii "1" = .ok ([.number "1"] ++ [.eof]) :=
    tokenizeFrom_of_scan (.lexeme (w := ['1']) (.number ⟨by decide, by decide⟩) .eof) "1" ⟨1, 1⟩
  have hsep : ∀ chr, " 2".toList.head? = some chr → Separates Lexicon.ascii chr := by
    rintro chr ⟨⟩
    decide
  exact ⟨hs, hsep, tokenize_append Lexicon.ascii hs hsep⟩

end Mkdb
