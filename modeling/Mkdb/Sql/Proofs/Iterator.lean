import Mkdb.Sql.Tokenizer

/-!
# The tokenizer's iterator: where it reports tokens and errors, and how long it runs

`Location.after p` is the location after the text `p`, counted from `1:1`: a line per
newline of `p`, and a column per character after its last newline. `Stream::next` advances
the location one character at a time, and every path of `next_token` consumes the input
through it: one `next`, a `peek_next`, or a `TakeWhile`, which consumes exactly the longest
run its predicate accepts (`Stream.takeWhile_consumes_longest_run`). So the iterator stays
in step with the input (`Tokenizer.Consumed`): whatever it has consumed of `s`, the location
is the one after it. A token is reported where its lexeme starts, and an error where the
offending character stands, or at the end of the input when it ends inside an operator or a
string (`iterator_locations`).

The loop of `tokenize` calls `next_token` at most `|s| + 1` times: each token before `Eof`
consumes a character, and `Eof` ends the iteration (`tokenize_calls_le_length_succ`).
-/

namespace Mkdb

/-! ## Locations -/

/-- The location after the text `p`: one line per newline in `p`, and one column per
character after its last newline. A lone `\r` does not start a line. -/
def Location.after (p : List Char) : Location :=
  ⟨1 + p.count '\n', 1 + (p.reverse.takeWhile (· != '\n')).length⟩

theorem Location.after_append_singleton (p : List Char) (chr : Char) :
    Location.after (p ++ [chr]) = (Location.after p).advance chr := by
  by_cases h : chr = '\n'
  · subst h
    simp [Location.after, Location.advance]
    omega
  · simp [Location.after, Location.advance, h, List.count_singleton]
    omega

/-- `Stream::next`, character by character over `w`, moves the location after `p` to the
one after `p ++ w`. -/
theorem Location.foldl_advance_after (p w : List Char) :
    w.foldl Location.advance (Location.after p) = Location.after (p ++ w) := by
  induction w generalizing p with
  | nil => simp
  | cons chr w ih =>
    rw [List.foldl_cons, ← Location.after_append_singleton, ih, List.append_assoc]
    rfl

/-! ## `TakeWhile` -/

theorem length_le_takeWhile_of_prefix {p : Char → Bool} {v chars : List Char} (hv : v <+: chars)
    (hp : ∀ chr ∈ v, p chr = true) : v.length ≤ (chars.takeWhile p).length := by
  induction chars generalizing v with
  | nil => simp [List.prefix_nil.mp hv]
  | cons chr chars ih =>
    rcases v with _ | ⟨c, v⟩
    · exact Nat.zero_le _
    obtain ⟨rfl, htail⟩ := List.cons_prefix_cons.mp hv
    rw [List.takeWhile_cons_of_pos (hp c (List.mem_cons_self _ _)), List.length_cons,
      List.length_cons]
    exact Nat.succ_le_succ (ih htail fun chr hchr => hp chr (List.mem_cons_of_mem _ hchr))

/-- Collecting `stream.take_while(p)` yields the longest prefix of the remaining characters
that `p` accepts throughout, leaves exactly the rest, so the first character `p` refuses is
not consumed, and advances the location over exactly the characters it yields. -/
theorem Stream.takeWhile_consumes_longest_run (p : Char → Bool) (stream : Stream) :
    let u := (stream.takeWhile p).1
    let rest := (stream.takeWhile p).2
    u <+: stream.chars ∧ (∀ chr ∈ u, p chr = true) ∧
      (∀ v, v <+: stream.chars → (∀ chr ∈ v, p chr = true) → v.length ≤ u.length) ∧
      stream.chars = u ++ rest.chars ∧ (∀ chr, rest.chars.head? = some chr → p chr = false) ∧
      rest.location = u.foldl Location.advance stream.location ∧ rest.input = stream.input := by
  obtain ⟨input, location, chars⟩ := stream
  have hrun := isRun_takeWhile p chars
  simp only [Stream.takeWhile_eq]
  exact ⟨List.takeWhile_prefix p, hrun.1, fun _ hv hp => length_le_takeWhile_of_prefix hv hp,
    (List.takeWhile_append_dropWhile p chars).symm, hrun.2, trivial, trivial⟩

/-! ## The iterator stays in step with the input -/

/-- The tokenizer has consumed `p` of `s`: its input is `s`, what is left of `s` follows `p`,
and the location is the one after `p`. -/
def Tokenizer.Consumed (s : String) (p : List Char) (t : Tokenizer) : Prop :=
  t.stream.input = s ∧ s.toList = p ++ t.stream.chars ∧ t.stream.location = Location.after p

theorem Tokenizer.consumed_new (s : String) : (Tokenizer.new s).Consumed s [] :=
  ⟨rfl, rfl, rfl⟩

theorem Tokenizer.Consumed.skip {s : String} {p w rest : List Char} {t : Tokenizer}
    (h : t.Consumed s p) (hchars : t.stream.chars = w ++ rest) :
    (t.skip w rest).Consumed s (p ++ w) :=
  ⟨h.1, by rw [h.2.1, hchars, List.append_assoc]; rfl,
    by simp only [Tokenizer.skip, h.2.2, Location.foldl_advance_after]⟩

section Step

variable (lex : Lexicon) {s : String}

/-- One call of `Iter::next` on a tokenizer that has consumed `p` of `s`: a token is reported
at the location after `p`, where its lexeme starts (or, for `Eof`, where the input ends); an
error names `s` and is reported where the offending character stands, or after all of `s`
when it ends inside an operator or a string; and the tokenizer after the call has consumed
more of `s`. -/
theorem Tokenizer.Consumed.optionalNext {p : List Char} {t : Tokenizer} (h : t.Consumed s p) :
    (∀ token, (t.optionalNextTokenWithLocation lex).1 = some (.ok token) →
      token.location = Location.after p ∧
      ∃ w rest, t.stream.chars = w ++ rest ∧
        (t.optionalNextTokenWithLocation lex).2.stream.chars = rest ∧
        (Lexeme lex w rest token.variant ∨ w = [] ∧ rest = [] ∧ token.variant = .eof)) ∧
    (∀ e, (t.optionalNextTokenWithLocation lex).1 = some (.error e) →
      e.input = s ∧
        ((∃ chr rest, t.stream.chars = chr :: rest ∧
            e.kind = .unexpectedOrUnsupportedToken chr ∧ e.location = Location.after p) ∨
         (∃ chr rest, t.stream.chars = '!' :: chr :: rest ∧
            e.kind = .unexpectedWhileParsingOperator chr .neq ∧
            e.location = Location.after (p ++ ['!'])) ∨
         ((e.kind = .operatorNotClosed .neq ∨ e.kind = .stringNotClosed) ∧
            e.location = Location.after s.toList))) ∧
    ∃ w, (t.optionalNextTokenWithLocation lex).2.Consumed s (p ++ w) := by
  obtain ⟨⟨input, location, chars⟩, reachedEof⟩ := t
  cases reachedEof
  case true =>
    rw [Tokenizer.optionalNextTokenWithLocation_of_reachedEof rfl]
    exact ⟨fun _ h => Option.noConfusion h, fun _ h => Option.noConfusion h, [],
      by rw [List.append_nil]; exact h⟩
  case false =>
  have hstep := nextToken_step lex ⟨⟨input, location, chars⟩, false⟩
  rw [Tokenizer.optionalNextTokenWithLocation_of_not_reachedEof rfl]
  generalize Tokenizer.nextToken lex _ = result at hstep ⊢
  cases hstep with
  | eof hnil =>
    refine ⟨?_, fun _ h => Except.noConfusion (Option.some.inj h), [],
      by rw [List.append_nil]; exact h⟩
    rintro token ⟨⟩
    exact ⟨h.2.2, [], [], hnil, hnil, .inr ⟨rfl, rfl, rfl⟩⟩
  | lexeme hchars hlex =>
    refine ⟨?_, fun _ h => Except.noConfusion (Option.some.inj h), _, h.skip hchars⟩
    rintro token ⟨⟩
    exact ⟨h.2.2, _, _, hchars, rfl, .inl hlex⟩
  | @fault kind rest hfault hchars =>
    have hconsumed := h.skip hchars
    refine ⟨fun _ h => Except.noConfusion (Option.some.inj h), ?_, _, hconsumed⟩
    rintro e ⟨⟩
    refine ⟨h.1, ?_⟩
    have hlocation := hconsumed.2.2
    simp only [Tokenizer.skip] at hlocation ⊢
    rw [hlocation]
    have hall : p ++ chars = s.toList := h.2.1.symm
    cases hfault with
    | unexpected => exact .inl ⟨_, _, rfl, rfl, by simp [faultConsumed]⟩
    | bang hne rest => exact .inr (.inl ⟨_, rest, rfl, rfl, rfl⟩)
    | bangEnd => exact .inr (.inr ⟨.inl rfl, by rw [← hall]; rfl⟩)
    | unclosed hquote hnot => exact .inr (.inr ⟨.inr rfl, by rw [← hall]; rfl⟩)

end Step

/-- Whatever the iterator has been asked for, it has consumed some text of the input and its
location is the one after that text. -/
theorem iterate_consumed (lex : Lexicon) (s : String) (n : Nat) :
    ∃ p, ((Tokenizer.new s).iterate lex n).Consumed s p := by
  suffices ∀ (t : Tokenizer) (p : List Char), t.Consumed s p →
      ∃ p', (t.iterate lex n).Consumed s p' from this _ _ (Tokenizer.consumed_new s)
  induction n with
  | zero => exact fun t p h => ⟨p, h⟩
  | succ n ih =>
    intro t p h
    obtain ⟨-, -, w, hnext⟩ := h.optionalNext lex
    exact ih _ _ hnext

/-- Tokens and errors report correct locations. However many calls of `Iter::next` precede
it, a call on the tokenizer of `s` that has consumed `p` reports its token at the location
after `p`, where the token's lexeme starts (the next call starts after it), and `Eof` where
`s` ends. An error names `s` and is reported at the location after the text before the
offending character: the unsupported character itself, or the character after a lone `!`;
when the input ends inside an operator or a string, after all of `s`. -/
theorem iterator_locations (lex : Lexicon) (s : String) (n : Nat) :
    let t := (Tokenizer.new s).iterate lex n
    ∃ p, s.toList = p ++ t.stream.chars ∧
      (∀ token, (t.optionalNextTokenWithLocation lex).1 = some (.ok token) →
        token.location = Location.after p ∧
        ∃ w rest, t.stream.chars = w ++ rest ∧
          (t.optionalNextTokenWithLocation lex).2.stream.chars = rest ∧
          (Lexeme lex w rest token.variant ∨ w = [] ∧ rest = [] ∧ token.variant = .eof)) ∧
      ∀ e, (t.optionalNextTokenWithLocation lex).1 = some (.error e) →
        e.input = s ∧
          ((∃ chr rest, t.stream.chars = chr :: rest ∧
              e.kind = .unexpectedOrUnsupportedToken chr ∧ e.location = Location.after p) ∨
           (∃ chr rest, t.stream.chars = '!' :: chr :: rest ∧
              e.kind = .unexpectedWhileParsingOperator chr .neq ∧
              e.location = Location.after (p ++ ['!'])) ∨
           ((e.kind = .operatorNotClosed .neq ∨ e.kind = .stringNotClosed) ∧
              e.location = Location.after s.toList)) := by
  obtain ⟨p, h⟩ := iterate_consumed lex s n
  obtain ⟨htokens, herrors, -⟩ := h.optionalNext lex
  exact ⟨p, h.2.1, htokens, herrors⟩

/-! ## How many calls -/

/-- With a budget of calls at least what is left to produce, the loop of `tokenize` returns,
and returns what `tokenize` does. -/
theorem tokenizeWithin_of_remaining_le (lex : Lexicon) (fuel : Nat) (t : Tokenizer)
    (h : t.remaining ≤ fuel) : t.tokenizeWithin lex fuel = some (t.tokenizeFrom lex) := by
  induction fuel generalizing t with
  | zero =>
    have heof : t.reachedEof = true := by
      by_contra hne
      simp [Tokenizer.remaining, hne] at h
    simp [Tokenizer.tokenizeWithin, heof, tokenizeFrom_of_reachedEof heof]
  | succ fuel ih =>
    cases heof : t.reachedEof
    case true =>
      simp [Tokenizer.tokenizeWithin, Tokenizer.optionalNextTokenWithLocation, heof,
        tokenizeFrom_of_reachedEof heof]
    case false =>
    rcases hnext : t.nextToken lex with ⟨result, t'⟩
    cases result with
    | error e =>
      rw [tokenizeFrom_of_error heof (by rw [hnext])]
      simp [Tokenizer.tokenizeWithin, Tokenizer.optionalNextTokenWithLocation,
        Tokenizer.nextTokenWithLocation, heof, hnext, Except.map]
    | ok token =>
      have hlt := remaining_nextToken_lt heof hnext
      rw [tokenizeFrom_of_ok heof hnext]
      simp [Tokenizer.tokenizeWithin, Tokenizer.optionalNextTokenWithLocation,
        Tokenizer.nextTokenWithLocation, heof, hnext, ih t' (by omega), Except.map,
        TokenWithLocation.tokenOnly]

/-- The tokenizer terminates: on any input `s`, `Tokenizer::new(s).tokenize()` returns after
at most `|s| + 1` calls of `next_token`, with its result. -/
theorem tokenize_calls_le_length_succ (lex : Lexicon) (s : String) :
    (Tokenizer.new s).tokenizeWithin lex (s.length + 1) = some (tokenize lex s) :=
  tokenizeWithin_of_remaining_le lex _ _ (Nat.le_refl _)

end Mkdb
