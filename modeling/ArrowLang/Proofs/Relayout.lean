import ArrowLang.Proofs.Outcomes
import ArrowLang.Proofs.Slices
import ArrowLang.Proofs.Tiling

/-!
# ArrowLang.Proofs.Relayout

Layout around the tokens of a text means nothing.

* `Seam text before after`: the text is cut at its start or its end, or at the start or the end of
  one of its lexemes.
* `Relaid text text'`: layout put into seams, as often as one likes, makes `text'` of `text`.
* `Lexes.insert`: with layout put into a seam, the same tokens are read on both sides of it.

Every token ends in front of layout. A comment that has layout put right behind it takes all of it
up to the next line feed, and what is left is layout still.
-/

namespace ArrowLang

/-! ## Layout in front of a text -/

section Gaps

variable {gap rest : List Char} {w : List Token}

theorem dropWhile_line {body : List Char} (hbody : '\n' ∉ body)
    (hrest : ∀ c ∈ rest.head?, c = '\n') : (body ++ rest).dropWhile (· != '\n') = rest := by
  refine (takeWhile_append_of_head? (fun c hc => ?_) fun c hc => ?_).2
  · rw [bne_iff_ne]
    rintro rfl
    exact hbody hc
  · rw [hrest c hc]
    rfl

theorem Layout.spells (h : Layout gap rest) (hrest : Spells rest w) : Spells (gap ++ rest) w := by
  induction h with
  | nil => exact hrest
  | blank hc _ ih => exact .blank (isLayout_iff.mpr hc) (ih hrest)
  | comment hbody hend _ ih =>
    rw [List.cons_append, List.cons_append, List.append_assoc]
    refine .comment ?_
    rw [dropWhile_line hbody hend]
    exact ih hrest

/-- A comment that runs into layout takes no token away. -/
theorem Layout.spells_line (h : Layout gap rest) (hrest : Spells rest w)
    (hline : ∀ c ∈ rest.head?, c = '\n') :
    Spells ((gap ++ rest).dropWhile (· != '\n')) w := by
  induction h with
  | nil =>
    rw [dropWhile_line (by simp) hline]
    exact hrest
  | @blank c gap rest hc hgap ih =>
    by_cases hfeed : c = '\n'
    · subst hfeed
      exact (Layout.blank hc hgap).spells hrest
    · rw [List.cons_append, List.dropWhile_cons_of_pos (by simpa using hfeed)]
      exact ih hrest hline
  | @comment body gap rest hbody hend hgap ih =>
    -- the one comment goes on as the other
    have hbody' : '\n' ∉ '/' :: '/' :: body := by simpa using hbody
    have hdrop := dropWhile_line hbody' hend
    rw [List.cons_append, List.cons_append] at hdrop
    rw [List.cons_append, List.cons_append, List.append_assoc, hdrop]
    exact hgap.spells hrest

end Gaps

/-! ## Tokens in front of layout -/

theorem Token.goesOn_layout (tok : Token) {c : Char} (hc : c ∈ '/' :: blanks) :
    tok.goesOn c = false := by
  have hall : ('/' :: blanks).all (fun c =>
      !isNameChar c && !c.isDigit && !Text.isWordChar c && c != '>') = true := by decide
  have := List.all_eq_true.mp hall c hc
  simp only [Bool.and_eq_true, Bool.not_eq_true', bne_iff_ne] at this
  obtain ⟨⟨⟨hname, hdigit⟩, hword⟩, harrow⟩ := this
  cases tok with
  | name x => exact hname
  | int digits => exact hdigit
  | keyword k => exact hword
  | symbol s => simp [goesOn, harrow]

theorem Token.Ends.insert {tok : Token} {before gap after : List Char}
    (h : tok.Ends (before ++ after)) (hgap : Layout gap after) :
    tok.Ends (before ++ (gap ++ after)) := by
  cases before with
  | cons c before => exact h
  | nil =>
    cases hgap with
    | nil => exact h
    | blank hc _ =>
      rintro c ⟨⟩
      exact tok.goesOn_layout (List.mem_cons_of_mem _ hc)
    | comment _ _ _ =>
      rintro c ⟨⟩
      exact tok.goesOn_layout List.mem_cons_self

namespace Lexes

variable {p q : Position} {cs : List Char} {lxs : List Lexeme}

/-- The lexemes up to `after` are read as before if layout is put there, and what follows is too. -/
theorem insert {gap after : List Char} {w : List Token} (h : Lexes p cs lxs q after)
    (hlegal : ∀ lx ∈ lxs, lx.token.Legal) (hgap : Layout gap after) (hafter : Spells after w) :
    ∃ before, cs = before ++ after ∧ (before = [] → lxs = []) ∧
      Spells (before ++ (gap ++ after)) (lxs.map Lexeme.token ++ w) := by
  induction h with
  | done => exact ⟨[], rfl, fun _ => rfl, hgap.spells hafter⟩
  | @blank p q c cs after lxs hc _ ih =>
    obtain ⟨before, rfl, _, hspells⟩ := ih hlegal hgap hafter
    exact ⟨c :: before, rfl, by simp, .blank hc hspells⟩
  | @comment p q cs after lxs _ ih =>
    obtain ⟨before, hcs, hnil, hspells⟩ := ih hlegal hgap hafter
    have hline : ∀ c ∈ (before ++ after).head?, c = '\n' := by
      rw [← hcs]
      exact head?_dropWhile_line cs
    have hspells' : Spells ((before ++ (gap ++ after)).dropWhile (· != '\n'))
        (lxs.map Lexeme.token ++ w) := by
      cases before with
      | nil =>
        -- the layout is put right behind the comment
        rw [hnil rfl]
        exact hgap.spells_line hafter hline
      | cons c before =>
        obtain rfl : c = '\n' := hline c rfl
        exact hspells
    refine ⟨'/' :: '/' :: (cs.takeWhile (· != '\n') ++ before), comment_append hcs, by simp, ?_⟩
    rw [List.cons_append, List.cons_append, List.append_assoc]
    refine .comment ?_
    rwa [List.dropWhile_append_of_pos (List.all_eq_true.mp List.all_takeWhile)]
  | @token p q cs cs' after tok lxs hr _ ih =>
    obtain ⟨htok, hlegal'⟩ := List.forall_mem_cons.mp hlegal
    obtain ⟨before, rfl, _, hspells⟩ := ih hlegal' hgap hafter
    have hne := Token.text_ne_nil_of_read? hr
    have hends := (Token.ends_of_read? hr).insert hgap
    refine ⟨tok.text.toList ++ before, ?_, by simp [hne], ?_⟩
    · rw [List.append_assoc]
      exact Token.read?_eq_append hr
    · rw [List.append_assoc]
      exact .token (Token.read?_of_ends htok hne hends) hspells

end Lexes

/-! ## Seams -/

inductive Seam (text : String) : List Char → List Char → Prop where
  | start : Seam text [] text.toList
  | stop : Seam text text.toList []
  | beforeToken {lx : Lexeme} {before after : List Char} :
      lx ∈ (Scan.ofText text).lexemes → text.toList = before ++ after →
      lx.start = .after before → Seam text before after
  | afterToken {lx : Lexeme} {before after : List Char} :
      lx ∈ (Scan.ofText text).lexemes → text.toList = before ++ after →
      lx.stop = .after before → Seam text before after

/-- A text is cut at a position in one way. -/
theorem Lexes.rest_eq {cs before after rest : List Char} {lxs : List Lexeme}
    (h : Lexes .origin cs lxs (.after before) rest) (hcs : cs = before ++ after) :
    rest = after := by
  obtain ⟨before', hcs', hq⟩ := h.exists_append
  rw [Position.advanceAll_origin] at hq
  obtain rfl : before = before' :=
    Position.eq_of_locate_after ⟨after, hcs.symm⟩ ⟨rest, hcs'.symm⟩
      (congrArg (Position.locate "") hq)
  exact List.append_cancel_left (hcs'.symm.trans hcs)

/-- At a seam, the lexemes of a text are cut in two. -/
theorem Seam.lexes {text : String} {lxs : List Lexeme} {p : Position} {before after : List Char}
    (h : Seam text before after) (hscan : Scan.ofText text = ⟨lxs, .textEnd p⟩) :
    text.toList = before ++ after ∧ ∃ front back, lxs = front ++ back ∧
      Lexes .origin text.toList front (.after before) after ∧
      Lexes (.after before) after back p [] := by
  have hlex := Scan.lexes_of_ofText hscan
  cases h with
  | start => exact ⟨rfl, [], lxs, rfl, .done, hlex⟩
  | stop =>
    obtain ⟨before, htext, rfl⟩ := hlex.exists_append
    rw [List.append_nil] at htext
    rw [Position.advanceAll_origin, ← htext] at hlex ⊢
    exact ⟨(List.append_nil _).symm, lxs, [], (List.append_nil _).symm, hlex, .done⟩
  | @beforeToken lx _ _ hmem htext hstart =>
    rw [hscan] at hmem
    obtain ⟨front, back, rfl⟩ := List.append_of_mem hmem
    obtain ⟨cs, hfront, _, _, hback⟩ := hlex.split
    rw [hstart] at hfront hback
    obtain rfl := hfront.rest_eq htext
    exact ⟨htext, front, lx :: back, rfl, hfront, hback⟩
  | @afterToken lx _ _ hmem htext hstop =>
    rw [hscan] at hmem
    obtain ⟨front, back, rfl⟩ := List.append_of_mem hmem
    obtain ⟨cs, hfront, hback⟩ := hlex.split_after
    rw [hstop] at hfront hback
    obtain rfl := hfront.rest_eq htext
    exact ⟨htext, front ++ [lx], back, by simp, hfront, hback⟩

/-- The first text with layout put into seams. -/
inductive Relaid (text : String) : String → Prop where
  | refl : Relaid text text
  | insert {text' : String} {before gap after : List Char} :
      Relaid text text' → Seam text' before after → Layout gap after →
      Relaid text (String.ofList (before ++ (gap ++ after)))

/-- Layout in a seam keeps the tokens of a text. -/
theorem Seam.insert {text : String} {lxs : List Lexeme} {p : Position}
    {before gap after : List Char} (h : Seam text before after) (hgap : Layout gap after)
    (hscan : Scan.ofText text = ⟨lxs, .textEnd p⟩) :
    ∃ lxs' p', Scan.ofText (String.ofList (before ++ (gap ++ after))) = ⟨lxs', .textEnd p'⟩ ∧
      lxs'.map Lexeme.token = lxs.map Lexeme.token := by
  obtain ⟨htext, front, back, rfl, hfront, hback⟩ := h.lexes hscan
  have hlegal := (Scan.lexes_of_ofText hscan).legal
  obtain ⟨before', htext', _, hspells⟩ :=
    hfront.insert (fun lx hlx => hlegal lx (List.mem_append_left _ hlx)) hgap hback.spells
  obtain rfl : before = before' := List.append_cancel_right (htext.symm.trans htext')
  rw [← List.map_append] at hspells
  exact Scan.ofText_of_spells (by rwa [String.toList_ofList])

/-- Layout never changes what a text means. Put blanks and comments into any text that is scanned to
its end, in front of it or behind it, before or after any of its tokens, and do so any number of
times: the new text is scanned to its end too, it has the same tokens, and it is parsed as the same
term or rejected with the same complaint, apart from places. -/
theorem layout_changes_nothing {text text' : String} {p : Position}
    (hscan : (Scan.ofText text).ending = .textEnd p) (h : Relaid text text') :
    (∃ p', (Scan.ofText text').ending = .textEnd p') ∧
      (Scan.ofText text').lexemes.map Lexeme.token =
        (Scan.ofText text).lexemes.map Lexeme.token ∧
      ∀ source, SameReading (parse text source) (parse text' source) := by
  have hscan₀ : Scan.ofText text = ⟨(Scan.ofText text).lexemes, .textEnd p⟩ := by rw [← hscan]
  obtain ⟨lxs', p', hscan', htokens⟩ : ∃ lxs' p', Scan.ofText text' = ⟨lxs', .textEnd p'⟩ ∧
      lxs'.map Lexeme.token = (Scan.ofText text).lexemes.map Lexeme.token := by
    induction h with
    | refl => exact ⟨_, p, hscan₀, rfl⟩
    | insert _ hseam hgap ih =>
      obtain ⟨lxs₁, p₁, hscan₁, htokens₁⟩ := ih
      obtain ⟨lxs₂, p₂, hscan₂, htokens₂⟩ := hseam.insert hgap hscan₁
      exact ⟨lxs₂, p₂, hscan₂, htokens₂.trans htokens₁⟩
  refine ⟨⟨p', by rw [hscan']⟩, by rw [hscan', htokens], ?_⟩
  exact parse_alike hscan₀ hscan' htokens.symm

/-- A comment between a keyword and the name right behind it, and layout behind a comment that the
text ends in. -/
theorem layout_changes_nothing_in_constant :
    (Scan.ofText "const$=1;$// x").ending = .textEnd ⟨1, 14⟩ ∧
      Relaid "const$=1;$// x" "const//a\n$=1;$// x //b\n\t" ∧
      (Scan.ofText "const//a\n$=1;$// x //b\n\t").lexemes.map Lexeme.token =
        [.keyword .const, .name "$", .symbol .equals, .int "1", .symbol .semicolon, .name "$"] ∧
      SameReading (parse "const$=1;$// x" none) (parse "const//a\n$=1;$// x //b\n\t" none) := by
  have hlex : Lexes .origin "const$=1;$// x".toList
      [⟨.keyword .const, ⟨1, 0⟩, ⟨1, 5⟩⟩, ⟨.name "$", ⟨1, 5⟩, ⟨1, 6⟩⟩,
        ⟨.symbol .equals, ⟨1, 6⟩, ⟨1, 7⟩⟩, ⟨.int "1", ⟨1, 7⟩, ⟨1, 8⟩⟩,
        ⟨.symbol .semicolon, ⟨1, 8⟩, ⟨1, 9⟩⟩, ⟨.name "$", ⟨1, 9⟩, ⟨1, 10⟩⟩] ⟨1, 14⟩ [] :=
    .token rfl (.token rfl (.token rfl (.token rfl (.token rfl (.token rfl (.comment .done))))))
  have hend : (Scan.ofText "const$=1;$// x").ending = .textEnd ⟨1, 14⟩ := by rw [hlex.ofText_eq]
  have hseam : Seam "const$=1;$// x" "const".toList "$=1;$// x".toList :=
    .afterToken (by rw [hlex.ofText_eq]; exact List.mem_cons_self) rfl rfl
  have hgap (rest : List Char) : Layout ['/', '/', 'a', '\n'] rest :=
    @Layout.comment ['a'] ['\n'] rest (by decide) (by simp) (.blank (by decide) .nil)
  have hgap' : Layout [' ', '/', '/', 'b', '\n', '\t'] [] :=
    .blank (by decide) (@Layout.comment ['b'] ['\n', '\t'] [] (by decide) (by simp)
      (.blank (by decide) (.blank (by decide) .nil)))
  have hrelaid : Relaid "const$=1;$// x" "const//a\n$=1;$// x //b\n\t" :=
    .insert (.insert .refl hseam (hgap _)) .stop hgap'
  obtain ⟨_, htokens, hparse⟩ := layout_changes_nothing hend hrelaid
  rw [hlex.ofText_eq] at htokens
  exact ⟨hend, hrelaid, htokens, hparse none⟩

end ArrowLang
