import ArrowLang.Proofs.Extents

/-!
# ArrowLang.Proofs.Slices

The text that the span of a node denotes.

* `Span.Denotes span source text before slice`: the span is that of the part `slice` of the text,
  which has `before` in front of it. No span denotes two parts of a text.
* `Lexes.take`: up to the end of a token, a text has the same tokens with or without what follows.
* `parse_text_of_span`: the text that a node's span denotes is parsed as that node.
-/

namespace ArrowLang

/-! ## Parts of a text -/

def Span.Denotes (span : Span) (source : String) (text before slice : List Char) : Prop :=
  (∃ after, text = before ++ (slice ++ after)) ∧
    span = (Position.after before).spanTo source (Position.after (before ++ slice))

/-- Of two beginnings of a text, one goes on after the other, and then its end is further on. -/
theorem Position.eq_of_locate_after {source : String} {cs ds text : List Char} (hcs : cs <+: text)
    (hds : ds <+: text) (h : (after cs).locate source = (after ds).locate source) : cs = ds := by
  have key {cs ds : List Char} (hp : cs <+: ds)
      (h : (after cs).locate source = (after ds).locate source) : cs = ds := by
    obtain ⟨v, rfl⟩ := hp
    by_cases hv : v = []
    · rw [hv, List.append_nil]
    · have hlt := locate_lt_advanceAll source (after cs) hv
      rw [advanceAll_after, h] at hlt
      exact absurd hlt (Location.lt_irrefl _)
  rcases List.prefix_or_prefix_of_prefix hcs hds with hp | hp
  · exact key hp h
  · exact (key hp h.symm).symm

theorem Span.Denotes.unique {span : Span} {source : String} {text : List Char}
    {before slice before' slice' : List Char} (h : span.Denotes source text before slice)
    (h' : span.Denotes source text before' slice') : before' = before ∧ slice' = slice := by
  obtain ⟨⟨after, htext⟩, hspan⟩ := h
  obtain ⟨⟨after', htext'⟩, hspan'⟩ := h'
  obtain ⟨hstart, hstop⟩ := Span.mk.inj (hspan'.symm.trans hspan)
  have hbefore : before' = before :=
    Position.eq_of_locate_after ⟨_, htext'.symm⟩ ⟨_, htext.symm⟩ hstart
  subst hbefore
  have hp : before' ++ slice <+: text := ⟨after, by rw [htext, List.append_assoc]⟩
  have hp' : before' ++ slice' <+: text := ⟨after', by rw [htext', List.append_assoc]⟩
  exact ⟨rfl, List.append_cancel_left (Position.eq_of_locate_after hp' hp hstop)⟩

/-! ## Tokens of a part of a text -/

namespace Lexes

variable {p q : Position} {cs rest : List Char}

/-- A text can be cut off after any of its tokens. -/
theorem take {lx : Lexeme} {l after : List Lexeme} (h : Lexes p cs (lx :: l ++ after) q rest)
    (hlegal : ∀ lx' ∈ lx :: l, lx'.token.Legal) :
    ∃ slice back, cs = slice ++ back ∧ slice ≠ [] ∧
      Spells slice ((lx :: l).map Lexeme.token) ∧
      ∀ lx' ∈ (lx :: l).getLast?, lx'.stop = p.advanceAll slice := by
  generalize hl : lx :: l ++ after = lxs at h
  induction h generalizing lx l with
  | done => cases hl
  | @blank p q c cs rest lxs hc _ ih =>
    obtain ⟨slice, back, rfl, _, hspells, hstop⟩ := ih hlegal hl
    exact ⟨c :: slice, back, rfl, by simp, .blank hc hspells, hstop⟩
  | @comment p q cs rest lxs _ ih =>
    obtain ⟨slice, back, hcs, _, hspells, hstop⟩ := ih hlegal hl
    refine ⟨'/' :: '/' :: (cs.takeWhile (· != '\n') ++ slice), back, comment_append hcs, by simp,
      .comment ?_, ?_⟩
    · -- the line ends before the next token, so the comment ends where it did
      have hline : ∀ c ∈ slice.head?, (c != '\n') = false := by
        intro c hc
        refine head?_dropWhile (· != '\n') cs c ?_
        rw [hcs, List.head?_append, hc]
        rfl
      rw [(takeWhile_append_of_head? (List.all_eq_true.mp List.all_takeWhile) hline).2]
      exact hspells
    · intro lx' hlx'
      rw [hstop lx' hlx', ← Position.advanceAll_append]
      rfl
  | @token p q cs cs' rest tok lxs hr hlex ih =>
    obtain ⟨rfl, htail⟩ := List.cons.inj hl
    have htok : tok.Legal := hlegal _ List.mem_cons_self
    have hne := Token.text_ne_nil_of_read? hr
    -- the token is read also if the text is cut off further on
    obtain ⟨slice, back, rfl, hspells, hstop⟩ : ∃ slice back, cs' = slice ++ back ∧
        Spells slice (l.map Lexeme.token) ∧
        ∀ lx' ∈ (⟨tok, p, p.advanceAll tok.text.toList⟩ :: l).getLast?,
          lx'.stop = (p.advanceAll tok.text.toList).advanceAll slice := by
      cases l with
      | nil =>
        refine ⟨[], cs', rfl, .nil, ?_⟩
        rintro _ ⟨⟩
        rfl
      | cons lx l =>
        obtain ⟨slice, back, hcs, _, hspells, hstop⟩ :=
          ih (fun lx' hlx' => hlegal lx' (List.mem_cons_of_mem _ hlx')) htail
        rw [List.getLast?_cons_cons]
        exact ⟨slice, back, hcs, hspells, hstop⟩
    have hread := Token.read?_of_ends htok hne
      ((Token.ends_of_read? hr).shorten (List.prefix_append slice back))
    refine ⟨tok.text.toList ++ slice, back, ?_, by simp [hne], .token hread hspells, ?_⟩
    · rw [List.append_assoc]
      exact Token.read?_eq_append hr
    · rw [Position.advanceAll_append]
      exact hstop

/-- The part of a text that lexemes next to each other stand in has their tokens. -/
theorem slice {before l after : List Lexeme} {p' q' : Position}
    (h : Lexes p cs (before ++ (l ++ after)) q rest) (hl : Spread l p' q')
    (hlegal : ∀ lx ∈ l, lx.token.Legal) :
    ∃ front slice back, cs = front ++ (slice ++ back) ∧ slice ≠ [] ∧ p' = p.advanceAll front ∧
      q' = p.advanceAll (front ++ slice) ∧ Spells slice (l.map Lexeme.token) := by
  obtain ⟨lx, l, rfl, rfl⟩ := hl.start
  obtain ⟨cs', hfront, _, _, hmid⟩ := h.split
  obtain ⟨front, hcs, hstart⟩ := hfront.exists_append
  obtain ⟨slice, back, hcs', hne, hspells, hlast⟩ := take hmid hlegal
  refine ⟨front, slice, back, by rw [hcs, hcs'], hne, hstart, ?_, hspells⟩
  obtain ⟨init, last, heq, rfl⟩ := hl.stop
  rw [hlast last (by simp [heq]), hstart, Position.advanceAll_append]

end Lexes

/-! ## Parsed texts -/

/-- The lexemes of a node, and the part of the text that they stand in. -/
theorem slice_of_parse {text : String} {source : Option String} {t u : Term}
    (h : parse text source = .ok t) (hu : u ∈ t.preorder) :
    ∃ l before slice, (∀ lx ∈ l, lx ∈ (Scan.ofText text).lexemes) ∧
      Spread l (.after before) (.after (before ++ slice)) ∧
      u.span.Denotes (sourceName source) text.toList before slice ∧ slice ≠ [] ∧
      Spells slice (l.map Lexeme.token) ∧
      Derives (l.map Lexeme.token) (.program u.eraseSpans) ∧
      ∀ lx ∈ l, lx.token.excessDigits? = none := by
  obtain ⟨front, l, back, stop, p, q, tree, layer, hlex, hspan, htree, hp, _, hfits⟩ :=
    node_of_parse h hu
  have hlegal : ∀ lx ∈ l, lx.token.Legal := fun lx hlx => hlex.legal lx (by simp [hlx])
  obtain ⟨before, slice, after, htext, hne, hstart, hstop, hspells⟩ := hlex.slice hp.spread hlegal
  rw [Position.advanceAll_origin] at hstart hstop
  subst hstart hstop
  refine ⟨l, before, slice, ?_, hp.spread, ⟨⟨after, htext⟩, ?_⟩, hne, hspells, htree ▸ hp.derives,
    hfits⟩
  · intro lx hlx
    simp [hlex.ofText_eq, hlx]
  · rw [hspan]
    rfl

/-- For every parsed text and every node of the term, the span of the node denotes one part of the
text. It is not empty, starts where a token starts and ends where a token ends. By itself, that part
is parsed as the node, up to spans. -/
theorem parse_text_of_span {text : String} {source : Option String} {t u : Term}
    (h : parse text source = .ok t) (hu : u ∈ t.preorder) :
    ∃ before slice, u.span.Denotes (sourceName source) text.toList before slice ∧
      (∀ before' slice', u.span.Denotes (sourceName source) text.toList before' slice' →
        before' = before ∧ slice' = slice) ∧
      slice ≠ [] ∧
      (∃ first ∈ (Scan.ofText text).lexemes, first.start = Position.after before) ∧
      (∃ last ∈ (Scan.ofText text).lexemes, last.stop = Position.after (before ++ slice)) ∧
      ∀ source', ∃ u', parse (String.ofList slice) source' = .ok u' ∧
        u'.eraseSpans = u.eraseSpans := by
  obtain ⟨l, before, slice, hmem, hspread, hdenotes, hne, hspells, hd, hfits⟩ :=
    slice_of_parse h hu
  refine ⟨before, slice, hdenotes, fun _ _ => hdenotes.unique, hne, ?_, ?_, fun source' => ?_⟩
  · obtain ⟨first, rest, rfl, hfirst⟩ := hspread.start
    exact ⟨first, hmem first List.mem_cons_self, hfirst⟩
  · obtain ⟨front, last, rfl, hlast⟩ := hspread.stop
    exact ⟨last, hmem last (by simp), hlast⟩
  · rw [← String.toList_ofList (l := slice)] at hspells
    exact parse_of_spells source' hspells hd (List.forall_mem_map.mpr hfits)

/-- A call in brackets, with a comment and a `;` inside and outside. -/
theorem parse_text_of_call :
    let t : Term := .node (.call (.node (.var "f") (Position.spanTo "<stdin>" ⟨1, 1⟩ ⟨1, 2⟩))
      [.node (.var "a") (Position.spanTo "<stdin>" ⟨2, 1⟩ ⟨2, 2⟩)])
      (Position.spanTo "<stdin>" ⟨1, 1⟩ ⟨2, 5⟩)
    parse "(f(// x\n(a;)));" none = .ok t ∧ t ∈ t.preorder ∧
      ∃ t', parse "f(// x\n(a;))" none = .ok t' ∧ t'.eraseSpans = t.eraseSpans := by
  intro t
  have hlex : Lexes .origin "(f(// x\n(a;)));".toList
      [⟨.symbol .openParen, ⟨1, 0⟩, ⟨1, 1⟩⟩, ⟨.name "f", ⟨1, 1⟩, ⟨1, 2⟩⟩,
        ⟨.symbol .openParen, ⟨1, 2⟩, ⟨1, 3⟩⟩, ⟨.symbol .openParen, ⟨2, 0⟩, ⟨2, 1⟩⟩,
        ⟨.name "a", ⟨2, 1⟩, ⟨2, 2⟩⟩, ⟨.symbol .semicolon, ⟨2, 2⟩, ⟨2, 3⟩⟩,
        ⟨.symbol .closeParen, ⟨2, 3⟩, ⟨2, 4⟩⟩, ⟨.symbol .closeParen, ⟨2, 4⟩, ⟨2, 5⟩⟩,
        ⟨.symbol .closeParen, ⟨2, 5⟩, ⟨2, 6⟩⟩, ⟨.symbol .semicolon, ⟨2, 6⟩, ⟨2, 7⟩⟩] ⟨2, 7⟩ [] :=
    .token rfl (.token rfl (.token rfl (.comment (.blank rfl (.token rfl (.token rfl (.token rfl
      (.token rfl (.token rfl (.token rfl (.token rfl .done)))))))))))
  have hparse : parse "(f(// x\n(a;)));" none = .ok t :=
    (parse_ok_iff hlex.ofText_eq).mpr ⟨⟨_, _, rfl, rfl, rfl⟩, by decide⟩
  have hmem : t ∈ t.preorder := t.mem_preorder_self
  obtain ⟨before, slice, _, hunique, _, _, _, hslice⟩ := parse_text_of_span hparse hmem
  have hdenotes : t.span.Denotes "<stdin>" "(f(// x\n(a;)));".toList "(".toList
      "f(// x\n(a;))".toList := ⟨⟨");".toList, rfl⟩, rfl⟩
  obtain ⟨_, rfl⟩ := hunique _ _ hdenotes
  obtain ⟨t', ht', herase⟩ := hslice none
  rw [String.ofList_toList] at ht'
  exact ⟨hparse, hmem, t', ht', herase⟩

end ArrowLang
