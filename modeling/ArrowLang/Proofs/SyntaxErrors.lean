import ArrowLang.Proofs.Acceptance
import ArrowLang.Proofs.Scanning

/-!
# ArrowLang.Proofs.SyntaxErrors

A text is rejected at the first place where no program can go on.

* `Blames source ts before rest message span`: after the text `before`, which holds the tokens `ts`,
  the text `rest` is to blame for what the message says.
* `DeadEnd`: all that is to be said of a complaint about the form of a text.

That some program starts with the tokens in front of that place is read off the parser's state. That
none goes on comes from the parser accepting every program: it would have read on. Nothing else is
ever rejected, so the bare complaint that there is a syntax error is never made.
-/

namespace ArrowLang

open ArrowLang.Parser (Viable)

inductive Blames (source : String) (ts : List Token) (before : List Char) :
    List Char → String → Span → Prop where
  | token {tok : Token} {after : List Char} :
      Token.read? (tok.text.toList ++ after) = some (tok, after) → ¬ Viable (ts ++ [tok]) →
      Blames source ts before (tok.text.toList ++ after)
        ("unexpected token " ++ Text.quote tok.text)
        ((Position.after before).spanTo source (Position.after (before ++ tok.text.toList)))
  | endOfInput :
      (∀ t, ¬ Derives ts (.program t)) →
      Blames source ts before [] "unexpected end of input"
        ((Position.after before).spanTo source (Position.after before))
  | character {c : Char} {after : List Char} :
      isLayout c = false → ¬ ['/', '/'] <+: c :: after →
      (∀ tok : Token, ¬ tok.Matches (c :: after)) →
      Blames source ts before (c :: after)
        ("unexpected character " ++ Text.quote (String.singleton c))
        ((Position.after before).spanTo source
          ⟨(Position.after before).line, (Position.after before).column + 1⟩)

/-- The text is cut into `before`, which is read as the lexemes `lxs`, and `rest`, and there the
complaint `e` is in place. -/
structure DeadEnd (text source : String) (lxs : List Lexeme) (before rest : List Char)
    (e : ParseError) : Prop where
  text_eq : text.toList = before ++ rest
  lexes : Lexes .origin text.toList lxs (Position.after before) rest
  viable : Viable (lxs.map Lexeme.token)
  blames : Blames source (lxs.map Lexeme.token) before rest e.cause.message e.span
  /-- it is neither the bare complaint that there is an error nor one in words of its own -/
  cause : e.cause ≠ .syntaxError ∧ ∀ complaint, e.cause ≠ .other complaint
  span : Span.between e.span.start e.span.stop = .ok e.span

/-! ## Rejected tokens -/

namespace Parser

variable {source : String} {s : State} {lx : Lexeme}

theorem feedAll_error {lxs : List Lexeme} (h : feedAll source s lxs = .error lx) :
    ∃ before after s', lxs = before ++ lx :: after ∧ feedAll source s before = .ok s' ∧
      feed source s' lx = none := by
  induction lxs generalizing s with
  | nil => cases h
  | cons lx' lxs ih =>
    unfold feedAll at h
    split at h
    · rename_i s₁ hf
      obtain ⟨before, after, s', rfl, hs, hlx⟩ := ih h
      exact ⟨lx' :: before, after, s', rfl, Reaches.step hf hs, hlx⟩
    · rename_i hf
      cases h
      exact ⟨[], lxs, s, rfl, rfl, hf⟩

theorem feedAll_append_error {before : List Lexeme} {s' : State}
    (hs : feedAll source s before = .ok s') (hlx : feed source s' lx = none)
    (after : List Lexeme) : feedAll source s (before ++ lx :: after) = .error lx := by
  induction before generalizing s with
  | nil =>
    cases hs
    rw [List.nil_append, feedAll, hlx]
  | cons lx' before ih =>
    unfold feedAll at hs
    split at hs
    · rename_i hf
      rw [List.cons_append, feedAll, hf]
      exact ih hs
    · cases hs

/-- No program goes on with a token that is not read. -/
theorem not_viable_of_feed_none {before : List Lexeme}
    (hs : feedAll source .initial before = .ok s) (hlx : feed source s lx = none) :
    ¬ Viable (before.map Lexeme.token ++ [lx.token]) := by
  rintro ⟨v, t, hd⟩
  let after : List Lexeme := v.map fun tok => ⟨tok, .origin, .origin⟩
  have htokens : (before ++ lx :: after).map Lexeme.token =
      before.map Lexeme.token ++ [lx.token] ++ v := by
    simp [after, Function.comp_def]
  rw [← htokens] at hd
  obtain ⟨s', t', hs', _⟩ := accepts_of_derives source hd
  rw [feedAll_append_error hs hlx] at hs'
  cases hs'

end Parser

/-! ## Rejected texts -/

section Malformed

variable {text : String} {source : Option String} {e : ParseError}

theorem deadEnd_of_token {lxs : List Lexeme} {lx : Lexeme} {q : Position} {rest : List Char}
    (hlex : Lexes .origin text.toList lxs q rest) {name : String}
    (h : Parser.feedAll name .initial lxs = .error lx) :
    ∃ lxs before rest, DeadEnd text name lxs before rest (.ofRejection text name (.token lx)) := by
  obtain ⟨read, unread, s, rfl, hs, hlx⟩ := Parser.feedAll_error h
  obtain ⟨after, hlex', hread, hstop, _⟩ := hlex.split
  obtain ⟨before, htext, hstart⟩ := hlex'.exists_append
  rw [Position.advanceAll_origin] at hstart
  have hend : lx.stop = Position.after (before ++ lx.token.text.toList) := by
    rw [hstop, hstart, Position.advanceAll_after]
  refine ⟨read, before, lx.token.text.toList ++ after, htext, hstart ▸ hlex',
    (Parser.after_of_feedAll hs).viable, ?_, by simp [ParseError.ofRejection], ?_⟩
  · rw [ParseError.ofRejection, hstart, hend]
    exact .token hread (Parser.not_viable_of_feed_none hs hlx)
  · rw [ParseError.ofRejection, hstop]
    exact Span.between_of_le (Position.locate_le_advanceAll name _ _)

/-- What is rejected is a token, the end of the text or a character, and the complaint about it is
in place. -/
theorem deadEnd_of_rejection {name : String} {r : Parser.Rejection}
    (h : Parser.readTree text name = .error r) :
    ∃ lxs before rest, DeadEnd text name lxs before rest (.ofRejection text name r) := by
  obtain ⟨q, rest, hlex, hend⟩ := Scan.ofText_lexes text
  obtain ⟨before, htext, hq⟩ := hlex.exists_append
  rw [Position.advanceAll_origin] at hq
  subst hq
  simp only [Parser.readTree] at h
  split at h
  · cases h
    rename_i hf
    exact deadEnd_of_token hlex hf
  · -- all tokens in front of the scan's end are read
    rename_i s hs
    have hviable := (Parser.after_of_feedAll hs).viable
    split at h
    · rename_i c p hstuck
      rw [hstuck] at hend
      obtain ⟨rfl, ⟨cs, rfl⟩, hlayout, hcomment, hread⟩ := hend
      cases h
      refine ⟨_, before, c :: cs, htext, hlex, hviable, .character (hlayout c rfl) hcomment ?_,
        by simp [ParseError.ofRejection], Span.between_of_le ?_⟩
      · exact Token.not_matches_of_read?_none hread
      · right
        simp only [ParseError.ofRejection, Position.spanTo, Position.locate, true_and]
        omega
    · rename_i p htextEnd
      rw [htextEnd] at hend
      obtain ⟨rfl, rfl⟩ := hend
      split at h
      · rename_i hfinish
        cases h
        rw [List.append_nil] at htext
        have hplace : ParseError.ofRejection text name .textEnd =
            ⟨.endOfInput, (Position.after before).spanTo name (Position.after before)⟩ := by
          rw [ParseError.ofRejection, htext]
          rfl
        rw [hplace]
        refine ⟨_, before, [], by rw [htext, List.append_nil], hlex, hviable, .endOfInput ?_,
          by simp, Span.between_of_le (Position.locate_le_advanceAll _ _ [])⟩
        intro t hd
        obtain ⟨s', _, hs', hf', _⟩ := Parser.accepts_of_derives name hd
        rw [hs] at hs'
        cases hs'
        rw [hfinish] at hf'
        cases hf'
      · cases h

/-- For every text that is rejected for its form: the tokens in front of the place that the
complaint names are the start of some program, and no program goes on from there. Either the token
at that place continues no program, or the text ends there and is none, or the character there
starts nothing that a text is made of. -/
theorem malformed_at_first_dead_end (h : parse text source = .error (.malformed e)) :
    ∃ lxs before rest, DeadEnd text (sourceName source) lxs before rest e := by
  simp only [parse] at h
  split at h
  · rename_i r hr
    cases h
    exact deadEnd_of_rejection hr
  · rename_i tree _
    cases hb : tree.build <;> rw [hb] at h <;> cases h

end Malformed

/-- The text of a call that is not closed, with a comment behind it. -/
theorem malformed_unclosed_call :
    parse "f(1, // x\n" none = .error (.malformed
      ⟨.endOfInput, Position.spanTo "<stdin>" ⟨2, 0⟩ ⟨2, 0⟩⟩) ∧
    ∃ lxs before rest, DeadEnd "f(1, // x\n" "<stdin>" lxs before rest
      ⟨.endOfInput, Position.spanTo "<stdin>" ⟨2, 0⟩ ⟨2, 0⟩⟩ := by
  have hlex : Lexes .origin "f(1, // x\n".toList
      [⟨.name "f", ⟨1, 0⟩, ⟨1, 1⟩⟩, ⟨.symbol .openParen, ⟨1, 1⟩, ⟨1, 2⟩⟩,
        ⟨.int "1", ⟨1, 2⟩, ⟨1, 3⟩⟩, ⟨.symbol .comma, ⟨1, 3⟩, ⟨1, 4⟩⟩] ⟨2, 0⟩ [] :=
    .token rfl (.token rfl (.token rfl (.token rfl (.blank rfl (.comment (.blank rfl .done))))))
  have hparse : parse "f(1, // x\n" none = .error (.malformed
      ⟨.endOfInput, Position.spanTo "<stdin>" ⟨2, 0⟩ ⟨2, 0⟩⟩) := by
    simp only [parse, Parser.readTree, hlex.ofText_eq]
    rfl
  exact ⟨hparse, malformed_at_first_dead_end hparse⟩

end ArrowLang
