import Mkdb.Sql.Proofs.Printing
import Mathlib.Data.List.Chain

/-!
# Rendered tokens lex back

The tokenizer (`tokenizer.rs`) is a left inverse of writing tokens out. `Token.text` is the
text `Lexeme` reads as each token, and `render` writes a list of tokens one after the other.
Writing loses nothing as long as every token is one the tokenizer can produce (an identifier
that is no keyword, a string without a double quote, a non-empty run of digits) and every token
whose lexeme looks at the next character (a word, a number, `<`, `>`) is followed by text that
ends it. `Lexicon.Renders` says both; under it the tokenizer returns exactly the tokens, then
`Eof`.
-/

namespace Mkdb

/-- The text of a token, as `Lexeme` reads it: a keyword's spelling, a string between double
quotes. `Eof` has none. -/
def Token.text : Token → String
  | .eof => ""
  | .whitespace .space => " "
  | .whitespace .tab => "\t"
  | .whitespace .newline => "\n"
  | .identifier ident => ident
  | .keyword word => word.spelling
  | .string s => "\"" ++ s ++ "\""
  | .number digits => digits
  | .eq => "=" | .neq => "!=" | .lt => "<" | .gt => ">" | .ltEq => "<=" | .gtEq => ">="
  | .mul => "*" | .div => "/" | .plus => "+" | .minus => "-"
  | .leftParen => "(" | .rightParen => ")" | .comma => "," | .semiColon => ";"

/-- Tokens written one after the other. -/
def render : List Token → String
  | [] => ""
  | token :: tokens => token.text ++ render tokens

/-- The token is one the tokenizer produces from its text: an identifier that lexes as one, a
keyword other than `none`, a string without a double quote, a non-empty run of digits. -/
def Token.readable (lex : Lexicon) : Token → Bool
  | .eof => false
  | .identifier ident => lex.lexesAsIdentifier ident
  | .keyword word => word != .none
  | .string s => !s.toList.contains '"'
  | .number digits => !digits.toList.isEmpty && digits.toList.all Char.isDigit
  | _ => true

/-- The tokens whose lexeme looks at the character after it. -/
def Token.isOpen : Token → Bool
  | .identifier _ | .keyword _ | .number _ | .lt | .gt => true
  | _ => false

/-- `t'` may follow `t`: when `t` looks at the next character, `t'` starts with one that ends
`t`. -/
def Token.Separated (lex : Lexicon) (t t' : Token) : Prop :=
  t.isOpen = true → ∀ chr ∈ t'.text.toList.head?, Separates lex chr

instance (lex : Lexicon) : DecidableRel (Token.Separated lex) := fun _ _ =>
  inferInstanceAs (Decidable (_ → _))

/-- The tokenizer reads `tokens` back from their text: each is readable, and each follows the
one before it. -/
def Lexicon.Renders (lex : Lexicon) (tokens : List Token) : Prop :=
  (∀ t ∈ tokens, t.readable lex = true) ∧ tokens.Chain' (Token.Separated lex)

instance (lex : Lexicon) (tokens : List Token) : Decidable (lex.Renders tokens) :=
  inferInstanceAs (Decidable (_ ∧ _))

section Rendering

variable {lex : Lexicon}

theorem render_nil : render [] = "" := rfl

theorem render_cons (t : Token) (tokens : List Token) :
    render (t :: tokens) = t.text ++ render tokens :=
  rfl

theorem render_append (tokens tokens' : List Token) :
    render (tokens ++ tokens') = render tokens ++ render tokens' := by
  induction tokens with
  | nil => exact (String.empty_append _).symm
  | cons t tokens ih => rw [List.cons_append, render_cons, render_cons, ih, String.append_assoc]

theorem readable_number {digits : String} :
    (Token.number digits).readable lex = true ↔
      digits.toList ≠ [] ∧ ∀ chr ∈ digits.toList, chr.isDigit = true := by
  simp [Token.readable]

/-- A readable token has some text. -/
theorem text_ne_nil {t : Token} (h : t.readable lex = true) : t.text.toList ≠ [] := by
  cases t with
  | eof => cases h
  | identifier ident =>
    intro hnil
    change ident.data = [] at hnil
    simp [Token.readable, Lexicon.lexesAsIdentifier, hnil] at h
  | keyword word => cases word <;> first | decide | cases h
  | string s => exact List.cons_ne_nil _ _
  | number digits => exact (readable_number.mp h).1
  | whitespace w => cases w <;> decide
  | _ => decide

/-- A readable token's text, followed by text that ends it when it must, is its lexeme. -/
theorem lexeme_text (hlex : lex.ReadsKeywords) {t : Token} (h : t.readable lex = true)
    {more : List Char}
    (hsep : t.isOpen = true → ∀ chr, more.head? = some chr → Separates lex chr) :
    Lexeme lex t.text.toList more t := by
  cases t with
  | eof => cases h
  | whitespace w => cases w <;> exact .single (by decide) more
  | identifier ident => exact lexeme_identifier h (hsep rfl)
  | keyword word => exact lexeme_spelling hlex (by simpa [Token.readable] using h) (hsep rfl)
  | string s => exact .string (Or.inl rfl) (by simpa [Token.readable] using h) more
  | number digits =>
    obtain ⟨hne, hdigits⟩ := readable_number.mp h
    exact lexeme_number hne hdigits (hsep rfl)
  | lt => exact .lt fun h' => (hsep rfl '=' h').2.1 rfl
  | gt => exact .gt fun h' => (hsep rfl '=' h').2.1 rfl
  | neq => exact .neq more
  | ltEq => exact .ltEq more
  | gtEq => exact .gtEq more
  | eq | mul | div | plus | minus | leftParen | rightParen | comma | semiColon =>
    exact .single (by decide) more

theorem head?_render {t : Token} (tokens : List Token) (h : t.readable lex = true) :
    (render (t :: tokens)).toList.head? = t.text.toList.head? := by
  obtain ⟨chr, chars, hchars⟩ := List.exists_cons_of_ne_nil (text_ne_nil h)
  show (t.text.toList ++ (render tokens).toList).head? = _
  rw [hchars]
  rfl

/-- The text of tokens that render is a scan of them. -/
theorem scan_render (hlex : lex.ReadsKeywords) :
    ∀ {tokens : List Token}, lex.Renders tokens →
      Scan lex (render tokens).toList (tokens ++ [.eof])
  | [], _ => .eof
  | t :: tokens, ⟨hread, hchain⟩ => by
    have hrest : lex.Renders tokens :=
      ⟨fun t' h => hread t' (List.mem_cons_of_mem t h), hchain.tail⟩
    refine .lexeme (lexeme_text hlex (hread t (List.mem_cons_self t tokens))
      fun hopen chr hchr => ?_) (scan_render hlex hrest)
    cases tokens with
    | nil => cases hchr
    | cons t' tokens =>
      change (render (t' :: tokens)).toList.head? = some chr at hchr
      rw [head?_render tokens (hread t' (by simp))] at hchr
      exact (List.chain'_cons.mp hchain).1 hopen chr hchr

/-! ### Spaced sequences -/

/-- The tokens that end any lexeme before them: a space, a comma, a parenthesis, a
semicolon. -/
def Token.isSeparator : Token → Bool
  | .whitespace .space | .comma | .leftParen | .rightParen | .semiColon => true
  | _ => false

/-- Every token that looks at the next character is followed by a separator. Unlike
`Lexicon.Renders`, this does not depend on the lexicon. -/
def Spaced (tokens : List Token) : Prop :=
  tokens.Chain' fun t t' => t.isOpen = false ∨ t'.isSeparator = true

theorem spaced_nil : Spaced [] := List.chain'_nil

theorem spaced_cons {t : Token} {tokens : List Token} :
    Spaced (t :: tokens) ↔
      (∀ t' ∈ tokens.head?, t.isOpen = false ∨ t'.isSeparator = true) ∧ Spaced tokens :=
  List.chain'_cons'

theorem spaced_singleton (t : Token) : Spaced [t] := List.chain'_singleton t

theorem spaced_cons_cons {t t' : Token} {tokens : List Token} :
    Spaced (t :: t' :: tokens) ↔
      (t.isOpen = false ∨ t'.isSeparator = true) ∧ Spaced (t' :: tokens) :=
  List.chain'_cons

theorem spaced_append {tokens tokens' : List Token} :
    Spaced (tokens ++ tokens') ↔ Spaced tokens ∧ Spaced tokens' ∧
      ∀ t ∈ tokens.getLast?, ∀ t' ∈ tokens'.head?, t.isOpen = false ∨ t'.isSeparator = true :=
  List.chain'_append

theorem Spaced.cons_of_isOpen_eq_false {t : Token} {tokens : List Token} (ht : t.isOpen = false)
    (h : Spaced tokens) : Spaced (t :: tokens) :=
  spaced_cons.mpr ⟨fun _ _ => Or.inl ht, h⟩

theorem spaced_cons_iff_of_isOpen_eq_false {t : Token} {tokens : List Token}
    (ht : t.isOpen = false) : Spaced (t :: tokens) ↔ Spaced tokens :=
  ⟨fun h => (spaced_cons.mp h).2, .cons_of_isOpen_eq_false ht⟩

theorem Spaced.cons_of_isSeparator {t : Token} {tokens : List Token}
    (hhead : ∀ t' ∈ tokens.head?, t'.isSeparator = true) (h : Spaced tokens) :
    Spaced (t :: tokens) :=
  spaced_cons.mpr ⟨fun t' ht' => Or.inr (hhead t' ht'), h⟩

theorem Spaced.append_of_isSeparator {tokens tokens' : List Token} (h : Spaced tokens)
    (h' : Spaced tokens') (hhead : ∀ t' ∈ tokens'.head?, t'.isSeparator = true) :
    Spaced (tokens ++ tokens') :=
  spaced_append.mpr ⟨h, h', fun _ _ t' ht' => Or.inr (hhead t' ht')⟩

theorem separated_of_head? {t t' : Token} {chr : Char} (htext : t'.text.toList.head? = some chr)
    (hsep : Separates lex chr) : Token.Separated lex t t' := by
  intro _ c hc
  rw [htext] at hc
  cases hc
  exact hsep

theorem separated_of_isSeparator {t t' : Token} (h : t.isOpen = false ∨ t'.isSeparator = true) :
    Token.Separated lex t t' := by
  rcases h with h | h
  · exact fun h' => absurd (h'.symm.trans h) Bool.noConfusion
  · have hdispatch : ∀ chr ∈ [' ', ',', '(', ')', ';'], Separates lex chr := fun chr hchr =>
      separates_of_dispatch (by fin_cases hchr <;> decide) (by fin_cases hchr <;> decide)
        (by fin_cases hchr <;> decide)
    cases t' with
    | whitespace w =>
      cases w with
      | space => exact separated_of_head? rfl (hdispatch _ (by simp))
      | tab | newline => cases h
    | comma | leftParen | rightParen | semiColon =>
      exact separated_of_head? rfl (hdispatch _ (by simp))
    | _ => cases h

/-- Spaced tokens that the tokenizer can each produce render. -/
theorem Lexicon.renders_of_spaced {tokens : List Token}
    (hread : ∀ t ∈ tokens, t.readable lex = true) (h : Spaced tokens) : lex.Renders tokens :=
  ⟨hread, h.imp fun _ _ => separated_of_isSeparator⟩

end Rendering

/-- The tokenizer reads back what is written: tokens that render, written one after the other,
tokenize into exactly those tokens, then `Eof`. -/
theorem tokenize_render (lex : Lexicon) (hlex : lex.ReadsKeywords) (tokens : List Token)
    (h : lex.Renders tokens) : tokenize lex (render tokens) = .ok (tokens ++ [.eof]) :=
  tokenizeFrom_of_scan (scan_render hlex h) _ ⟨1, 1⟩

/-- `a<=10 AND b != "x y";` written out under an ASCII lexicon that upper-cases character by
character: `<=` needs no space after it, `a` and `10` end at the characters after them. -/
theorem tokenize_render_of_condition :
    let lex : Lexicon := ⟨fun chr => chr.isAlphanum || chr = '_',
      fun s => ⟨s.toList.map Char.toUpper⟩, by decide⟩
    let tokens : List Token := [.identifier "a", .ltEq, .number "10", .whitespace .space,
      .keyword .and, .whitespace .space, .identifier "b", .whitespace .space, .neq,
      .whitespace .space, .string "x y", .semiColon]
    lex.ReadsKeywords ∧ lex.Renders tokens ∧
      tokenize lex (render tokens) = .ok (tokens ++ [.eof]) := by
  intro lex tokens
  have hlex : lex.ReadsKeywords := by
    intro keyword hk
    cases keyword <;> first | exact absurd rfl hk | decide
  have h : lex.Renders tokens := by
    refine ⟨by decide, ?_⟩
    simp only [tokens, List.chain'_cons, List.chain'_singleton, and_true]
    decide
  exact ⟨hlex, h, tokenize_render lex hlex tokens h⟩

end Mkdb
