import ArrowLang.Proofs.Scanning

/-!
# ArrowLang.Proofs.Tiling

The lexemes of a text and the gaps between them make up the whole text.

* `Layout gap rest`: the text `gap`, with `rest` behind it, is made of blanks and comments.
* `Token.Continues tok c`: right after `tok`, the character `c` would make it longer.
* `Lexeme.Stands before lx after`: all that is to be said of a lexeme with `before` in front of it
  and `after` behind it.
* `Tiled before lxs rest`: behind `before`, the text `rest` is a gap and a lexeme, and so on up to
  the gap after the last lexeme.
-/

namespace ArrowLang

/-! ## Gaps -/

/-- Space, tab, form feed, carriage return and line feed. -/
def blanks : List Char := [' ', '\t', '\x0c', '\r', '\n']

theorem isLayout_iff {c : Char} : isLayout c = true ↔ c ∈ blanks := by
  simp [isLayout, blanks, or_assoc]

/-- Blanks and comments with `rest` behind them. A comment goes on up to the next line feed, which
is no part of it, or up to the end of the text. -/
inductive Layout : List Char → List Char → Prop where
  | nil {rest : List Char} : Layout [] rest
  | blank {c : Char} {gap rest : List Char} :
      c ∈ blanks → Layout gap rest → Layout (c :: gap) rest
  | comment {body gap rest : List Char} :
      '\n' ∉ body → (∀ c ∈ (gap ++ rest).head?, c = '\n') → Layout gap rest →
      Layout ('/' :: '/' :: (body ++ gap)) rest

theorem Layout.append {gap gap' rest : List Char} (h : Layout gap (gap' ++ rest))
    (h' : Layout gap' rest) : Layout (gap ++ gap') rest := by
  generalize hrest : gap' ++ rest = after at h
  induction h with
  | nil => exact h'
  | blank hc _ ih => exact .blank hc (ih hrest)
  | comment hbody hend _ ih =>
    subst hrest
    rw [← List.append_assoc] at hend
    rw [List.cons_append, List.cons_append, List.append_assoc]
    exact .comment hbody hend (ih rfl)

/-- The comment at the front of a text, up to the end of its line. -/
theorem layout_comment (cs : List Char) :
    Layout ('/' :: '/' :: cs.takeWhile (· != '\n')) (cs.dropWhile (· != '\n')) := by
  have hbody : '\n' ∉ cs.takeWhile (· != '\n') := by
    intro hmem
    have := List.all_eq_true.mp List.all_takeWhile '\n' hmem
    simp at this
  have h : Layout ('/' :: '/' :: (cs.takeWhile (· != '\n') ++ [])) (cs.dropWhile (· != '\n')) :=
    .comment hbody (head?_dropWhile_line cs) .nil
  rwa [List.append_nil] at h

/-! ## Lexemes in their places -/

/-- Words go on with letters, digits and `_` of ASCII, names with `$` as well, numbers with digits,
and an `=` could be an arrow. -/
def Token.Continues : Token → Char → Prop
  | .name _, c => c.isAlphanum = true ∨ c = '_' ∨ c = '$'
  | .keyword _, c => c.isAlphanum = true ∨ c = '_'
  | .int _, c => c.isDigit = true
  | .symbol s, c => s = .equals ∧ c = '>'

structure Lexeme.Stands (before : List Char) (lx : Lexeme) (after : List Char) : Prop where
  nonempty : lx.token.text.toList ≠ []
  start : lx.start = .after before
  stop : lx.stop = .after (before ++ lx.token.text.toList)
  ends : ∀ c ∈ after.head?, ¬ lx.token.Continues c
  /-- a name neither is a keyword nor starts with one and a dollar sign -/
  name : ∀ x, lx.token = .name x →
    ∀ k : Keyword, x ≠ k.text ∧ ¬ k.text.toList ++ ['$'] <+: x.toList

inductive Tiled : List Char → List Lexeme → List Char → Prop where
  | done {before gap : List Char} : Layout gap [] → Tiled before [] gap
  | lexeme {before gap after : List Char} {lx : Lexeme} {lxs : List Lexeme} :
      Layout gap (lx.token.text.toList ++ after) → lx.Stands (before ++ gap) after →
      Tiled (before ++ gap ++ lx.token.text.toList) lxs after →
      Tiled before (lx :: lxs) (gap ++ (lx.token.text.toList ++ after))

theorem Token.Continues.goesOn {tok : Token} {c : Char} (h : tok.Continues c) :
    tok.goesOn c = true := by
  cases tok with
  | name x =>
    change isNameChar c = true
    rcases h with h | rfl | rfl
    · simp [isNameChar, h]
    · decide
    · decide
  | int digits => exact h
  | keyword k =>
    change Text.isWordChar c = true
    rcases h with h | rfl
    · simp [Text.isWordChar, isAlphanum_lt h, h]
    · decide
  | symbol s =>
    obtain ⟨rfl, rfl⟩ := h
    rfl

/-- Where a legal token is read, it stands as it should. -/
theorem Lexeme.stands_of_read? {before cs after : List Char} {tok : Token}
    (h : Token.read? cs = some (tok, after)) (hlegal : tok.Legal) :
    Stands before ⟨tok, .after before, .after (before ++ tok.text.toList)⟩ after where
  nonempty := Token.text_ne_nil_of_read? h
  start := rfl
  stop := rfl
  ends := by
    intro c hc hcontinues
    have hends : tok.goesOn c = false := Token.ends_of_read? h c hc
    rw [hcontinues.goesOn] at hends
    cases hends
  name := by
    rintro x rfl k
    exact ⟨isLegalName.not_keyword hlegal k, isLegalName.not_keyword_dollar hlegal k⟩

/-! ## Texts -/

/-- The scan has come past `before` and the part `gap` of a gap. -/
theorem Lexes.tiled {p q : Position} {cs : List Char} {lxs : List Lexeme}
    (h : Lexes p cs lxs q []) (hlegal : ∀ lx ∈ lxs, lx.token.Legal) :
    ∀ {before gap : List Char}, Layout gap cs → p = .after (before ++ gap) →
      Tiled before lxs (gap ++ cs) := by
  generalize hend : [] = rest at h
  induction h with
  | done =>
    intro before gap hgap _
    subst hend
    rw [List.append_nil]
    exact .done hgap
  | @blank p q c cs rest lxs hc _ ih =>
    intro before gap hgap hp
    have hgap' : Layout (gap ++ [c]) cs := hgap.append (.blank (isLayout_iff.mp hc) .nil)
    have hp' : p.advance c = .after (before ++ (gap ++ [c])) := by
      rw [hp, ← Position.after_concat, List.append_assoc]
    simpa using ih hlegal hend hgap' hp'
  | @comment p q cs rest lxs _ ih =>
    intro before gap hgap hp
    have hcs : '/' :: '/' :: cs =
        '/' :: '/' :: cs.takeWhile (· != '\n') ++ cs.dropWhile (· != '\n') := by
      simp
    rw [hcs] at hgap ⊢
    rw [← List.append_assoc]
    refine ih hlegal hend (hgap.append (layout_comment cs)) ?_
    rw [hp, Position.advanceAll_after, List.append_assoc]
  | @token p q cs cs' rest tok lxs hr _ ih =>
    intro before gap hgap hp
    subst hp
    rw [Position.advanceAll_after] at ih ⊢
    obtain ⟨htok, hlegal'⟩ := List.forall_mem_cons.mp hlegal
    rw [Token.read?_eq_append hr] at hgap ⊢
    refine .lexeme hgap (Lexeme.stands_of_read? hr htok) ?_
    exact ih hlegal' hend .nil (by simp)

/-- The scan loses nothing, and its positions are right. Of every text that is scanned to its end,
the lexemes and the gaps between them make up the text, each lexeme not empty and behind the one
before. The gaps are made of blanks and comments. Lines and columns are as if counted afresh for
each lexeme and for the end of the text. No lexeme could go on where it ends, and no name looks like
a keyword. -/
theorem scan_tiles_text {text : String} {lxs : List Lexeme} {p : Position}
    (h : Scan.ofText text = ⟨lxs, .textEnd p⟩) :
    Tiled [] lxs text.toList ∧ p = .after text.toList := by
  have hlex := Scan.lexes_of_ofText h
  refine ⟨hlex.tiled hlex.legal .nil rfl, ?_⟩
  obtain ⟨before, htext, rfl⟩ := hlex.exists_append
  rw [htext, List.append_nil, Position.advanceAll_origin]

/-- A keyword right before a name, blanks over two lines, and a comment that the text ends in. -/
theorem scan_tiles_constant :
    let lxs : List Lexeme :=
      [⟨.keyword .const, ⟨1, 0⟩, ⟨1, 5⟩⟩, ⟨.name "$", ⟨1, 5⟩, ⟨1, 6⟩⟩,
        ⟨.symbol .equals, ⟨1, 7⟩, ⟨1, 8⟩⟩, ⟨.int "1", ⟨2, 1⟩, ⟨2, 2⟩⟩,
        ⟨.symbol .semicolon, ⟨2, 2⟩, ⟨2, 3⟩⟩, ⟨.name "$", ⟨3, 0⟩, ⟨3, 1⟩⟩]
    Scan.ofText "const$ =\r\n\t1; // x\n$// y" = ⟨lxs, .textEnd ⟨3, 5⟩⟩ ∧
      Tiled [] lxs "const$ =\r\n\t1; // x\n$// y".toList := by
  intro lxs
  have hlex : Lexes .origin "const$ =\r\n\t1; // x\n$// y".toList lxs ⟨3, 5⟩ [] :=
    .token rfl (.token rfl (.blank rfl (.token rfl (.blank rfl (.blank rfl (.blank rfl (.token rfl
      (.token rfl (.blank rfl (.comment (.blank rfl (.token rfl (.comment .done)))))))))))))
  exact ⟨hlex.ofText_eq, (scan_tiles_text hlex.ofText_eq).1⟩

end ArrowLang
