import ArrowLang.Proofs.Lexing

/-!
# ArrowLang.Proofs.Scanning

What a scan finds, and where.

* `Position.advanceAll_origin`: positions that are moved on with the scan are those counted afresh.
* `Lexes p cs lxs q rest`: from the position `p` on, the text `cs` holds the lexemes `lxs`, apart
  from layout, up to the text `rest` at the position `q`. Every token is read with all the text
  behind it in view, so `rest` cannot cut one short.
* `Token.Reads cs tok rest`: the ways in which a token is read, one for each kind of token.
* `Token.Matches tok cs`: a text of the form of `tok` stands at the front of `cs`.
* `Token.Ends tok rest`: no character at the front of `rest` would be taken for a part of `tok`. So
  it is wherever `tok` has been read, and where it is so, a legal `tok` is read.
* `Token.Legal`: what `Lexes.legal` says of all tokens of a text that is scanned to its end. Names
  that look like keywords are not among them.
-/

namespace ArrowLang

/-! ## Positions -/

namespace Position

theorem advanceAll_append (p : Position) (cs ds : List Char) :
    p.advanceAll (cs ++ ds) = (p.advanceAll cs).advanceAll ds :=
  List.foldl_append

theorem after_concat (cs : List Char) (c : Char) : after (cs ++ [c]) = (after cs).advance c := by
  unfold after advance
  by_cases hc : c = '\n'
  · simp [hc, Nat.add_assoc]
  · simp [hc]

theorem advanceAll_after (cs ds : List Char) : (after cs).advanceAll ds = after (cs ++ ds) := by
  induction ds generalizing cs with
  | nil => simp [advanceAll]
  | cons d ds ih =>
    have hstep : (after cs).advanceAll (d :: ds) = (after (cs ++ [d])).advanceAll ds := by
      rw [after_concat]
      rfl
    rw [hstep, ih, List.append_assoc, List.singleton_append]

/-- Positions that are moved on character by character are those counted afresh. -/
theorem advanceAll_origin (cs : List Char) : origin.advanceAll cs = after cs :=
  advanceAll_after [] cs

end Position

namespace Location

theorem le_iff {a b : Location} :
    a ≤ b ↔ a.line < b.line ∨ (a.line = b.line ∧ a.column ≤ b.column) := Iff.rfl

theorem lt_iff {a b : Location} :
    a < b ↔ a.line < b.line ∨ (a.line = b.line ∧ a.column < b.column) := Iff.rfl

theorem le_refl (a : Location) : a ≤ a := .inr ⟨rfl, Int.le_refl _⟩

theorem le_trans {a b c : Location} (hab : a ≤ b) (hbc : b ≤ c) : a ≤ c := by
  rw [le_iff] at hab hbc ⊢
  omega

theorem lt_irrefl (a : Location) : ¬ a < a := by
  rw [lt_iff]
  omega

theorem le_of_lt {a b : Location} (h : a < b) : a ≤ b := by
  rw [lt_iff] at h
  rw [le_iff]
  omega

theorem lt_of_lt_of_le {a b c : Location} (hab : a < b) (hbc : b ≤ c) : a < c := by
  rw [le_iff] at hbc
  rw [lt_iff] at hab ⊢
  omega

theorem lt_of_le_of_lt {a b c : Location} (hab : a ≤ b) (hbc : b < c) : a < c := by
  rw [le_iff] at hab
  rw [lt_iff] at hbc ⊢
  omega

end Location

namespace Position

theorem locate_lt_advance (source : String) (p : Position) (c : Char) :
    p.locate source < (p.advance c).locate source := by
  rw [Location.lt_iff]
  by_cases hc : c = '\n'
  · left
    simp only [advance, hc, if_true, locate]
    omega
  · right
    simp only [advance, hc, if_false, locate, true_and]
    omega

theorem locate_le_advanceAll (source : String) (p : Position) (cs : List Char) :
    p.locate source ≤ (p.advanceAll cs).locate source := by
  induction cs generalizing p with
  | nil => exact Location.le_refl _
  | cons c cs ih =>
    exact Location.le_trans (Location.le_of_lt (locate_lt_advance source p c)) (ih (p.advance c))

theorem locate_lt_advanceAll (source : String) (p : Position) {cs : List Char} (h : cs ≠ []) :
    p.locate source < (p.advanceAll cs).locate source := by
  cases cs with
  | nil => exact absurd rfl h
  | cons c cs =>
    exact Location.lt_of_lt_of_le (locate_lt_advance source p c)
      (locate_le_advanceAll source (p.advance c) cs)

end Position

/-! ## Lexemes -/

inductive Lexes : Position → List Char → List Lexeme → Position → List Char → Prop where
  | done {p : Position} {cs : List Char} : Lexes p cs [] p cs
  | blank {p q : Position} {c : Char} {cs rest : List Char} {lxs : List Lexeme} :
      isLayout c = true → Lexes (p.advance c) cs lxs q rest → Lexes p (c :: cs) lxs q rest
  | comment {p q : Position} {cs rest : List Char} {lxs : List Lexeme} :
      Lexes (p.advanceAll ('/' :: '/' :: cs.takeWhile (· != '\n'))) (cs.dropWhile (· != '\n')) lxs q
        rest →
      Lexes p ('/' :: '/' :: cs) lxs q rest
  | token {p q : Position} {cs cs' rest : List Char} {tok : Token} {lxs : List Lexeme} :
      Token.read? cs = some (tok, cs') → Lexes (p.advanceAll tok.text.toList) cs' lxs q rest →
      Lexes p cs (⟨tok, p, p.advanceAll tok.text.toList⟩ :: lxs) q rest

theorem Symbol.toList_text {c : Char} {s : Symbol} (h : ofChar? c = some s) :
    s.text.toList = [c] := by
  unfold ofChar? at h
  split at h <;> cases h <;> rfl

theorem Keyword.eq_append {k : Keyword} {cs : List Char} (h : k.standsAt cs = true) :
    cs = k.text.toList ++ cs.drop k.text.length := by
  simp only [standsAt, Bool.and_eq_true, List.isPrefixOf_iff_prefix] at h
  obtain ⟨v, rfl⟩ := h.1
  rw [Token.drop_text]

theorem Token.readWord_eq_append (cs : List Char) :
    cs = (readWord cs).1.text.toList ++ (readWord cs).2 := by
  unfold readWord
  split
  · rename_i k hk
    have hstands : k.standsAt cs = true := List.find?_some (p := (Keyword.standsAt · cs)) hk
    exact Keyword.eq_append hstands
  · simp [Token.text]

/-- The ways in which a token is read from the front of a text. -/
inductive Token.Reads : List Char → Token → List Char → Prop where
  | arrow {rest : List Char} : Reads ('=' :: '>' :: rest) (.symbol .arrow) rest
  | int {c : Char} {cs : List Char} : c.isDigit = true →
      Reads (c :: cs) (.int (String.ofList ((c :: cs).takeWhile Char.isDigit)))
        ((c :: cs).dropWhile Char.isDigit)
  | word {c : Char} {cs rest : List Char} {tok : Token} :
      isNameStart c = true → readWord (c :: cs) = (tok, rest) → Reads (c :: cs) tok rest
  | symbol {c : Char} {rest : List Char} {s : Symbol} :
      Symbol.ofChar? c = some s → Reads (c :: rest) (.symbol s) rest

theorem Token.reads_of_read? {cs rest : List Char} {tok : Token}
    (h : read? cs = some (tok, rest)) : Reads cs tok rest := by
  unfold read? at h
  split at h
  · cases h
  · cases h
    exact .arrow
  · split at h
    · rename_i hd
      cases h
      exact .int hd
    · split at h
      · rename_i hn
        exact .word hn (Option.some.inj h)
      · obtain ⟨s, hs, heq⟩ := Option.map_eq_some_iff.mp h
        cases heq
        exact .symbol hs

/-- A token is the front of the text it is read from. -/
theorem Token.read?_eq_append {cs rest : List Char} {tok : Token}
    (h : read? cs = some (tok, rest)) : cs = tok.text.toList ++ rest := by
  cases reads_of_read? h with
  | arrow => rfl
  | int _ => simp [Token.text]
  | @word c cs _ _ _ hword =>
    have happend := readWord_eq_append (c :: cs)
    rw [hword] at happend
    exact happend
  | symbol hs =>
    rw [Token.text, Symbol.toList_text hs]
    rfl

theorem Token.text_ne_nil_of_read? {cs rest : List Char} {tok : Token}
    (h : read? cs = some (tok, rest)) : tok.text.toList ≠ [] := by
  intro hnil
  have happend := read?_eq_append h
  have hlt := length_read?_lt h
  rw [hnil, List.nil_append] at happend
  simp [happend] at hlt

/-- A text with a comment at its front is cut somewhere behind the comment. -/
theorem comment_append {cs before rest : List Char}
    (h : cs.dropWhile (· != '\n') = before ++ rest) :
    '/' :: '/' :: cs = '/' :: '/' :: (cs.takeWhile (· != '\n') ++ before) ++ rest := by
  rw [List.cons_append, List.cons_append, List.append_assoc, ← h, List.takeWhile_append_dropWhile]

namespace Lexes

variable {p q : Position} {cs rest : List Char} {lxs : List Lexeme}

theorem exists_append (h : Lexes p cs lxs q rest) :
    ∃ before, cs = before ++ rest ∧ q = p.advanceAll before := by
  induction h with
  | done => exact ⟨[], rfl, rfl⟩
  | @blank p q c cs rest lxs _ _ ih =>
    obtain ⟨before, rfl, rfl⟩ := ih
    exact ⟨c :: before, rfl, rfl⟩
  | @comment p q cs rest lxs _ ih =>
    obtain ⟨before, hcs, rfl⟩ := ih
    refine ⟨'/' :: '/' :: (cs.takeWhile (· != '\n') ++ before), comment_append hcs, ?_⟩
    rw [← Position.advanceAll_append]
    rfl
  | @token p q cs cs' rest tok lxs hr _ ih =>
    obtain ⟨before, rfl, rfl⟩ := ih
    refine ⟨tok.text.toList ++ before, ?_, (Position.advanceAll_append _ _ _).symm⟩
    rw [List.append_assoc]
    exact Token.read?_eq_append hr

/-- Where a lexeme stands, its token is read, and the lexemes after it are found. -/
theorem split {before after : List Lexeme} {lx : Lexeme}
    (h : Lexes p cs (before ++ lx :: after) q rest) :
    ∃ cs', Lexes p cs before lx.start (lx.token.text.toList ++ cs') ∧
      Token.read? (lx.token.text.toList ++ cs') = some (lx.token, cs') ∧
      lx.stop = lx.start.advanceAll lx.token.text.toList ∧
      Lexes lx.start (lx.token.text.toList ++ cs') (lx :: after) q rest := by
  generalize hl : before ++ lx :: after = lxs at h
  induction h generalizing before with
  | done => simp at hl
  | blank hc _ ih =>
    obtain ⟨cs', hlex, hrest⟩ := ih hl
    exact ⟨cs', .blank hc hlex, hrest⟩
  | comment _ ih =>
    obtain ⟨cs', hlex, hrest⟩ := ih hl
    exact ⟨cs', .comment hlex, hrest⟩
  | @token p q cs cs' rest tok lxs hr hlex ih =>
    have hcs := Token.read?_eq_append hr
    cases before with
    | nil =>
      cases hl
      refine ⟨cs', ?_⟩
      rw [← hcs]
      exact ⟨.done, hr, rfl, .token hr hlex⟩
    | cons lx' before =>
      obtain ⟨rfl, htail⟩ := List.cons.inj hl
      obtain ⟨cs'', hlex, hrest⟩ := ih htail
      exact ⟨cs'', .token hr hlex, hrest⟩

/-- Where a lexeme ends, the lexemes after it are found. -/
theorem split_after {before after : List Lexeme} {lx : Lexeme}
    (h : Lexes p cs (before ++ lx :: after) q rest) :
    ∃ cs', Lexes p cs (before ++ [lx]) lx.stop cs' ∧ Lexes lx.stop cs' after q rest := by
  generalize hl : before ++ lx :: after = lxs at h
  induction h generalizing before with
  | done => simp at hl
  | blank hc _ ih =>
    obtain ⟨cs', hlex, hrest⟩ := ih hl
    exact ⟨cs', .blank hc hlex, hrest⟩
  | comment _ ih =>
    obtain ⟨cs', hlex, hrest⟩ := ih hl
    exact ⟨cs', .comment hlex, hrest⟩
  | @token p q cs cs' rest tok lxs hr hrest ih =>
    cases before with
    | nil =>
      cases hl
      exact ⟨cs', .token hr .done, hrest⟩
    | cons lx' before =>
      obtain ⟨rfl, htail⟩ := List.cons.inj hl
      obtain ⟨cs'', hlex, hrest⟩ := ih htail
      exact ⟨cs'', .token hr hlex, hrest⟩

end Lexes

/-! ## Scans -/

/-- Nothing that a text is made of stands at the front of `rest`. -/
def Stuck (rest : List Char) : Prop :=
  (∀ c ∈ rest.head?, isLayout c = false) ∧ ¬ ['/', '/'] <+: rest ∧ Token.read? rest = none

/-- A scan that ends so has come to the text `rest` at the position `q`. -/
def ScanEnd.At : ScanEnd → Position → List Char → Prop
  | .textEnd p, q, rest => p = q ∧ rest = []
  | .stuck c p, q, rest => p = q ∧ (∃ cs, rest = c :: cs) ∧ Stuck rest

theorem Scan.onto_lexes (seen : List Lexeme) (p : Position) (cs : List Char) :
    ∃ lxs q rest, (onto seen p cs).lexemes = seen.reverse ++ lxs ∧ Lexes p cs lxs q rest ∧
      (onto seen p cs).ending.At q rest := by
  fun_induction onto seen p cs with
  | case1 seen p => exact ⟨[], p, [], by simp, .done, rfl, rfl⟩
  | case2 seen p rest ih =>
    obtain ⟨lxs, q, rest', hl, hlex, hend⟩ := ih
    exact ⟨lxs, q, rest', hl, .comment hlex, hend⟩
  | case3 seen p c rest _ hc ih =>
    obtain ⟨lxs, q, rest', hl, hlex, hend⟩ := ih
    exact ⟨lxs, q, rest', hl, .blank hc hlex, hend⟩
  | case4 seen p c rest hslash hc hr =>
    refine ⟨[], p, c :: rest, by simp, .done, rfl, ⟨rest, rfl⟩, ?_, ?_, hr⟩
    · simpa using hc
    · rintro ⟨cs, hcs⟩
      obtain ⟨rfl, rfl⟩ := List.cons.inj hcs
      exact hslash _ rfl rfl
  | case5 seen p c rest _ _ tok rest' hr stop ih =>
    obtain ⟨lxs, q, rest'', hl, hlex, hend⟩ := ih
    refine ⟨⟨tok, p, stop⟩ :: lxs, q, rest'', ?_, .token hr hlex, hend⟩
    rw [hl]
    simp

theorem Lexes.onto_eq {p q : Position} {cs rest : List Char} {lxs : List Lexeme}
    (h : Lexes p cs lxs q rest) :
    ∀ seen, Scan.onto seen p cs = Scan.onto (lxs.reverse ++ seen) q rest := by
  induction h with
  | done => exact fun seen => rfl
  | blank hc _ ih =>
    intro seen
    rw [Scan.onto_blank seen _ _ hc, ih]
  | comment _ ih =>
    intro seen
    rw [Scan.onto_comment, ih]
  | token hr _ ih =>
    intro seen
    rw [Scan.onto_token seen _ hr, ih]
    simp

/-- A text that is made of lexemes and layout up to its end is scanned to its end. -/
theorem Lexes.ofText_eq {text : String} {q : Position} {lxs : List Lexeme}
    (h : Lexes .origin text.toList lxs q []) : Scan.ofText text = ⟨lxs, .textEnd q⟩ := by
  rw [Scan.ofText, h.onto_eq, Scan.onto]
  simp

theorem Scan.ofText_lexes (text : String) :
    ∃ q rest, Lexes .origin text.toList (ofText text).lexemes q rest ∧
      (ofText text).ending.At q rest := by
  obtain ⟨lxs, q, rest, hl, hlex, hend⟩ := onto_lexes [] .origin text.toList
  rw [List.reverse_nil, List.nil_append] at hl
  refine ⟨q, rest, ?_, hend⟩
  unfold ofText
  rw [hl]
  exact hlex

/-- A scan that comes to the end of the text has found all that the text is made of. -/
theorem Scan.lexes_of_ofText {text : String} {lxs : List Lexeme} {p : Position}
    (h : ofText text = ⟨lxs, .textEnd p⟩) : Lexes .origin text.toList lxs p [] := by
  obtain ⟨q, rest, hlex, hend⟩ := ofText_lexes text
  rw [h] at hlex hend
  obtain ⟨rfl, rfl⟩ := hend
  exact hlex

theorem Lexes.spells {p q : Position} {cs : List Char} {lxs : List Lexeme}
    (h : Lexes p cs lxs q []) : Spells cs (lxs.map Lexeme.token) := by
  generalize hend : [] = rest at h
  induction h with
  | done =>
    subst hend
    exact .nil
  | blank hc _ ih => exact .blank hc (ih hend)
  | comment _ ih => exact .comment (ih hend)
  | token hr _ ih => exact .token hr (ih hend)

/-! ## Forms of tokens -/

/-- Some text of the form of the token stands at the front of `cs`. Only a name depends on what
follows it: no keyword may stand there as a word of its own. -/
def Token.Matches : Token → List Char → Prop
  | .name x, cs => x.toList <+: cs ∧ x.toList.head?.any isNameStart = true ∧
      x.toList.all isNameChar = true ∧ ∀ k : Keyword, k.standsAt cs = false
  | .int digits, cs => digits.toList <+: cs ∧ digits.toList ≠ [] ∧
      digits.toList.all Char.isDigit = true
  | .keyword k, cs => k.text.toList <+: cs
  | .symbol s, cs => s.text.toList <+: cs

theorem Token.read?_none_cons {c : Char} {cs : List Char} (h : read? (c :: cs) = none) :
    c.isDigit = false ∧ isNameStart c = false ∧ Symbol.ofChar? c = none := by
  unfold read? at h
  split at h
  · rename_i hc
    cases hc
  · cases h
  · rename_i hc
    cases hc
    split at h
    · cases h
    · split at h
      · cases h
      · rename_i hd hn
        exact ⟨by simpa using hd, by simpa using hn, by simpa using h⟩

/-- Where no token is read, none matches. -/
theorem Token.not_matches_of_read?_none {cs : List Char} (h : read? cs = none) (tok : Token) :
    ¬ tok.Matches cs := by
  -- every token starts with a character of its class
  have hstart : tok.Matches cs → ∃ c cs', cs = c :: cs' ∧
      (c.isDigit = true ∨ isNameStart c = true ∨ (Symbol.ofChar? c).isSome = true) := by
    intro hm
    cases tok with
    | name x =>
      obtain ⟨⟨v, hv⟩, hhead, _⟩ := hm
      cases hx : x.toList with
      | nil => simp [hx] at hhead
      | cons c x' =>
        rw [hx] at hv hhead
        exact ⟨c, x' ++ v, hv.symm, .inr (.inl (by simpa using hhead))⟩
    | int digits =>
      obtain ⟨⟨v, hv⟩, hne, hall⟩ := hm
      cases hx : digits.toList with
      | nil => exact absurd hx hne
      | cons c x' =>
        rw [hx] at hv hall
        exact ⟨c, x' ++ v, hv.symm, .inl (List.all_eq_true.mp hall c List.mem_cons_self)⟩
    | keyword k =>
      obtain ⟨v, hv⟩ := hm
      cases k <;> exact ⟨_, _, hv.symm, .inr (.inl (by decide))⟩
    | symbol s =>
      obtain ⟨v, hv⟩ := hm
      cases s <;> exact ⟨_, _, hv.symm, .inr (.inr (by decide))⟩
  intro hm
  obtain ⟨c, cs', rfl, hc⟩ := hstart hm
  obtain ⟨hd, hn, hs⟩ := read?_none_cons h
  simp [hd, hn, hs] at hc

/-! ## Where a token ends -/

/-- The characters that, right after the token, would be taken for a part of it. -/
def Token.goesOn : Token → Char → Bool
  | .name _, c => isNameChar c
  | .int _, c => c.isDigit
  | .keyword _, c => Text.isWordChar c
  | .symbol s, c => s == .equals && c == '>'

def Token.Ends (tok : Token) (rest : List Char) : Prop := ∀ c ∈ rest.head?, tok.goesOn c = false

theorem Token.Ends.shorten {tok : Token} {cs rest : List Char} (h : tok.Ends rest)
    (hp : cs <+: rest) : tok.Ends cs := by
  obtain ⟨v, rfl⟩ := hp
  cases cs with
  | nil => simp [Ends]
  | cons c cs => exact h

theorem wordEnds_iff {cs : List Char} :
    wordEnds cs = true ↔ ∀ c ∈ cs.head?, Text.isWordChar c = false := by
  cases cs <;> simp [wordEnds]

theorem head?_dropWhile (p : Char → Bool) (cs : List Char) :
    ∀ c ∈ (cs.dropWhile p).head?, p c = false := by
  intro c hc
  have := List.head?_dropWhile_not p cs
  rw [hc] at this
  simpa using this

/-- A comment ends at the end of its line. -/
theorem head?_dropWhile_line (cs : List Char) :
    ∀ c ∈ (cs.dropWhile (· != '\n')).head?, c = '\n' := by
  intro c hc
  simpa using head?_dropWhile (· != '\n') cs c hc

/-- A token that has been read ends there. -/
theorem Token.ends_of_read? {cs rest : List Char} {tok : Token} (h : read? cs = some (tok, rest)) :
    tok.Ends rest := by
  cases reads_of_read? h with
  | arrow => intro c _; rfl
  | int _ => exact head?_dropWhile Char.isDigit _
  | @word c cs _ _ _ hword =>
    unfold readWord at hword
    split at hword
    · rename_i k hk
      cases hword
      have hstands : k.standsAt (c :: cs) = true :=
        List.find?_some (p := (Keyword.standsAt · (c :: cs))) hk
      simp only [Keyword.standsAt, Bool.and_eq_true] at hstands
      exact wordEnds_iff.mp hstands.2
    · cases hword
      exact head?_dropWhile isNameChar _
  | @symbol c rest s hs =>
    intro d hd
    simp only [goesOn, Bool.and_eq_false_imp, beq_iff_eq, beq_eq_false_iff_ne]
    rintro rfl rfl
    -- then it would have been an arrow
    have hc : c = '=' := by simpa [Symbol.text, eq_comm] using Symbol.toList_text hs
    obtain ⟨rest, rfl⟩ := List.head?_eq_some_iff.mp hd
    subst hc
    cases h

/-! ## Legal tokens -/

/-- A name that can be read back wherever it is written, or a literal of digits. -/
def Token.Legal : Token → Prop
  | .name x => isLegalName x = true
  | .int digits => ∀ c ∈ digits.toList, c.isDigit = true
  | .keyword _ | .symbol _ => True

/-- In front of a text in which it ends, a token is read. -/
theorem Token.read?_of_ends {tok : Token} {rest : List Char} (hlegal : tok.Legal)
    (hne : tok.text.toList ≠ []) (h : tok.Ends rest) :
    read? (tok.text.toList ++ rest) = some (tok, rest) := by
  cases tok with
  | name x => exact read?_name hlegal h
  | int digits => exact read?_int hne hlegal h
  | keyword k => exact read?_keyword k (wordEnds_iff.mpr h)
  | symbol s =>
    cases s with
    | arrow => rfl
    | equals =>
      cases rest with
      | nil => rfl
      | cons c rest =>
        have hc : c ≠ '>' := by simpa [Ends, goesOn] using h
        change read? ('=' :: c :: rest) = _
        unfold read?
        split
        · rename_i heq; cases heq
        · rename_i heq; cases heq; exact absurd rfl hc
        · rename_i heq; cases heq; rfl
    | _ => exact read?_symbol rest rfl (by decide)

theorem isNameStart_lt {c : Char} (h : isNameStart c = true) : c.toNat < 0x80 := by
  simp only [isNameStart, Bool.or_eq_true, beq_iff_eq, isAlpha_iff_toNat] at h
  rcases h with (h | rfl) | rfl
  · omega
  · decide
  · decide

/-- What a text is made of starts with characters of ASCII. -/
theorem Token.read?_head_lt {c : Char} {cs rest : List Char} {tok : Token}
    (h : read? (c :: cs) = some (tok, rest)) : c.toNat < 0x80 := by
  cases reads_of_read? h with
  | arrow => decide
  | int hd =>
    have h9 : '9'.toNat = 57 := rfl
    have := Char.isDigit_iff_toNat.mp hd
    omega
  | word hn _ => exact isNameStart_lt hn
  | symbol hs =>
    unfold Symbol.ofChar? at hs
    split at hs
    case h_9 => cases hs
    all_goals decide

theorem Lexes.head_lt {p q : Position} {c : Char} {cs : List Char} {lxs : List Lexeme}
    (h : Lexes p (c :: cs) lxs q []) : c.toNat < 0x80 := by
  cases h with
  | blank hc _ =>
    simp only [isLayout, Bool.or_eq_true, beq_iff_eq] at hc
    rcases hc with (((rfl | rfl) | rfl) | rfl) | rfl <;> decide
  | comment _ => decide
  | token hr _ => exact Token.read?_head_lt hr

theorem isNameChar_of_isWordChar {c : Char} (h : Text.isWordChar c = true) (hc : c.toNat < 0x80) :
    isNameChar c = true := by
  rw [Text.isWordChar, if_pos hc] at h
  rw [isNameChar, h, Bool.true_or]

theorem Keyword.standsAt_append (k : Keyword) (rest : List Char) :
    k.standsAt (k.text.toList ++ rest) = wordEnds rest := by
  simp [standsAt, Token.drop_text]

/-- Where a name is read and ASCII follows, no keyword stands. A keyword is read as a name only if a
letter beyond ASCII is right behind it, and there the scan gets stuck. -/
theorem isLegalName_of_readWord {c : Char} {cs rest : List Char} {x : String}
    (hc : isNameStart c = true) (h : Token.readWord (c :: cs) = (.name x, rest))
    (hrest : ∀ d ∈ rest.head?, d.toNat < 0x80) : isLegalName x = true := by
  unfold Token.readWord at h
  split at h
  · cases h
  rename_i hnone
  obtain ⟨hx, hdrop⟩ := Prod.mk.inj h
  have hword : x.toList = (c :: cs).takeWhile isNameChar := by
    rw [← Token.name.inj hx, String.toList_ofList]
  have happend : x.toList ++ rest = c :: cs := by
    rw [hword, ← hdrop, List.takeWhile_append_dropWhile]
  have hno (k : Keyword) (hk : k ∈ Keyword.all) : ¬ k.standsAt (x.toList ++ rest) = true := by
    rw [happend]
    exact List.find?_eq_none.mp hnone k hk
  simp only [isLegalName, Bool.and_eq_true]
  refine ⟨⟨?_, ?_⟩, List.all_eq_true.mpr fun k hk => ?_⟩
  · rw [hword, List.takeWhile_cons_of_pos (isNameChar_of_isNameStart hc)]
    exact hc
  · rw [hword]
    exact List.all_takeWhile
  · simp only [Bool.and_eq_true, bne_iff_ne, Bool.not_eq_true', Bool.eq_false_iff, ne_eq,
      List.isPrefixOf_iff_prefix]
    constructor
    · rintro rfl
      refine hno k hk ?_
      rw [Keyword.standsAt_append]
      cases rest with
      | nil => rfl
      | cons d rest =>
        have hd : isNameChar d = false := by
          have hend := head?_dropWhile isNameChar (c :: cs)
          rw [hdrop] at hend
          exact hend d rfl
        simp only [wordEnds, Bool.not_eq_true', Bool.eq_false_iff, ne_eq]
        intro hw
        rw [isNameChar_of_isWordChar hw (hrest d rfl)] at hd
        cases hd
    · rintro ⟨v, hv⟩
      refine hno k hk ?_
      rw [← hv, List.append_assoc, List.append_assoc, Keyword.standsAt_append]
      rfl

theorem Token.legal_of_read? {cs rest : List Char} {tok : Token} (h : read? cs = some (tok, rest))
    (hrest : ∀ d ∈ rest.head?, d.toNat < 0x80) : tok.Legal := by
  cases reads_of_read? h with
  | arrow => trivial
  | int _ =>
    simp only [Legal, String.toList_ofList]
    exact List.all_eq_true.mp List.all_takeWhile
  | word hn hword =>
    cases tok with
    | name x => exact isLegalName_of_readWord hn hword hrest
    | int digits =>
      unfold readWord at hword
      split at hword <;> cases hword
    | keyword k => trivial
    | symbol s => trivial
  | symbol _ => trivial

/-- All tokens of a text that is scanned to its end are legal. -/
theorem Lexes.legal {p q : Position} {cs : List Char} {lxs : List Lexeme}
    (h : Lexes p cs lxs q []) : ∀ lx ∈ lxs, lx.token.Legal := by
  generalize hend : [] = rest at h
  induction h with
  | done => simp
  | blank _ _ ih => exact ih hend
  | comment _ ih => exact ih hend
  | @token p q cs cs' rest tok lxs hr hlex ih =>
    subst hend
    refine List.forall_mem_cons.mpr ⟨Token.legal_of_read? hr ?_, ih rfl⟩
    intro d hd
    cases cs' with
    | nil => cases hd
    | cons c cs' =>
      cases hd
      exact hlex.head_lt

end ArrowLang
