import ArrowLang.Proofs.Trees

/-!
# ArrowLang.Proofs.Lexing

Texts and the tokens they spell.

* `Spells cs w`: the text `cs` is made of blanks, comments and the tokens `w`. A scan of such a text
  comes to its end and finds `w`.
* `Breaks`: the texts in front of which every word ends.
* `Writes cs w`: in front of any such text, `cs` adds just the tokens `w`. Texts that write tokens
  are put together with `Writes.symbol`, `Writes.blank` and `Writes.append`.
-/

namespace ArrowLang

inductive Spells : List Char → List Token → Prop where
  | nil : Spells [] []
  | blank {c : Char} {cs : List Char} {w : List Token} :
      isLayout c = true → Spells cs w → Spells (c :: cs) w
  | comment {cs : List Char} {w : List Token} :
      Spells (cs.dropWhile (· != '\n')) w → Spells ('/' :: '/' :: cs) w
  | token {cs rest : List Char} {tok : Token} {w : List Token} :
      Token.read? cs = some (tok, rest) → Spells rest w → Spells cs (tok :: w)

/-! ## Scanning -/

theorem Token.read?_blank {c : Char} (cs : List Char) (h : isLayout c = true) :
    read? (c :: cs) = none := by
  simp only [isLayout, Bool.or_eq_true, beq_iff_eq] at h
  rcases h with (((rfl | rfl) | rfl) | rfl) | rfl <;> rfl

theorem Token.read?_slash (cs : List Char) : read? ('/' :: cs) = none := rfl

namespace Scan

theorem onto_blank {c : Char} (seen : List Lexeme) (p : Position) (cs : List Char)
    (h : isLayout c = true) : onto seen p (c :: cs) = onto seen (p.advance c) cs := by
  rw [onto.eq_def]
  split
  · rename_i hc; cases hc
  · rename_i hc; cases hc; cases h
  · rename_i hc; cases hc; rw [if_pos h]

theorem onto_comment (seen : List Lexeme) (p : Position) (cs : List Char) :
    onto seen p ('/' :: '/' :: cs) =
      onto seen (p.advanceAll ('/' :: '/' :: cs.takeWhile (· != '\n')))
        (cs.dropWhile (· != '\n')) := by
  rw [onto]

theorem onto_token {cs rest : List Char} {tok : Token} (seen : List Lexeme) (p : Position)
    (h : Token.read? cs = some (tok, rest)) :
    onto seen p cs = onto (⟨tok, p, p.advanceAll tok.text.toList⟩ :: seen)
      (p.advanceAll tok.text.toList) rest := by
  rw [onto.eq_def]
  split
  · cases h
  · rw [Token.read?_slash] at h; cases h
  · rename_i c cs _
    split
    · rename_i hc; rw [Token.read?_blank cs hc] at h; cases h
    · split
      · rename_i hn; rw [h] at hn; cases hn
      · rename_i hs; rw [h] at hs; cases hs; rfl

/-- A scan finds the tokens that a text spells, and comes to the end of the text. -/
theorem onto_of_spells {cs : List Char} {w : List Token} (h : Spells cs w) :
    ∀ (seen : List Lexeme) (p : Position), ∃ (lxs : List Lexeme) (q : Position),
      onto seen p cs = ⟨seen.reverse ++ lxs, .textEnd q⟩ ∧ lxs.map Lexeme.token = w := by
  induction h with
  | nil => exact fun seen p => ⟨[], p, by simp [onto], rfl⟩
  | blank hc _ ih =>
    intro seen p
    rw [onto_blank seen p _ hc]
    exact ih seen _
  | comment _ ih =>
    intro seen p
    rw [onto_comment]
    exact ih seen _
  | @token cs rest tok w hr _ ih =>
    intro seen p
    rw [onto_token seen p hr]
    let lx : Lexeme := ⟨tok, p, p.advanceAll tok.text.toList⟩
    obtain ⟨lxs, q, hs, hl⟩ := ih (lx :: seen) lx.stop
    exact ⟨lx :: lxs, q, by rw [hs]; simp, by simp [hl, lx]⟩

theorem ofText_of_spells {text : String} {w : List Token} (h : Spells text.toList w) :
    ∃ lxs p, ofText text = ⟨lxs, .textEnd p⟩ ∧ lxs.map Lexeme.token = w :=
  onto_of_spells h [] .origin

end Scan

theorem Spells.unique {cs : List Char} {w w' : List Token} (h : Spells cs w) (h' : Spells cs w') :
    w = w' := by
  rw [← String.toList_ofList (l := cs)] at h h'
  obtain ⟨lxs, p, hscan, rfl⟩ := Scan.ofText_of_spells h
  obtain ⟨lxs', p', hscan', rfl⟩ := Scan.ofText_of_spells h'
  cases hscan.symm.trans hscan'
  rfl

/-! ## Single tokens -/

/-- The names that a program can have for variables and parameters. A word that is a keyword, or
that starts with a keyword and a dollar sign, is not read as one name. -/
def isLegalName (name : String) : Bool :=
  name.toList.head?.any isNameStart && name.toList.all isNameChar &&
    Keyword.all.all fun k => name != k.text && !(k.text.toList ++ ['$']).isPrefixOf name.toList

namespace isLegalName

variable {name : String}

theorem start (h : isLegalName name = true) :
    ∃ c cs, name.toList = c :: cs ∧ isNameStart c = true := by
  simp only [isLegalName, Bool.and_eq_true] at h
  cases hl : name.toList with
  | nil => simp [hl] at h
  | cons c cs => exact ⟨c, cs, rfl, by simpa [hl] using h.1.1⟩

theorem chars (h : isLegalName name = true) : ∀ c ∈ name.toList, isNameChar c = true := by
  simp only [isLegalName, Bool.and_eq_true] at h
  exact List.all_eq_true.mp h.1.2

theorem not_keyword (h : isLegalName name = true) (k : Keyword) : name ≠ k.text := by
  simp only [isLegalName, Bool.and_eq_true, List.all_eq_true] at h
  exact bne_iff_ne.mp (h.2 k (by cases k <;> decide)).1

theorem not_keyword_dollar (h : isLegalName name = true) (k : Keyword) :
    ¬ k.text.toList ++ ['$'] <+: name.toList := by
  simp only [isLegalName, Bool.and_eq_true, List.all_eq_true] at h
  intro hp
  have hk := (h.2 k (by cases k <;> decide)).2
  rw [List.isPrefixOf_iff_prefix.mpr hp] at hk
  cases hk

end isLegalName

/-- The characters that may follow a printed word. -/
def breakers : List Char := [' ', '(', ')', ',', ';', ':']

/-- The text is empty or starts with a character at which every word ends. -/
def Breaks (cs : List Char) : Prop := ∀ c ∈ cs.head?, c ∈ breakers

namespace Breaks

variable {rest : List Char}

theorem wordEnds (h : Breaks rest) : wordEnds rest = true := by
  cases rest with
  | nil => rfl
  | cons c rest =>
    have hall : breakers.all (fun c => !Text.isWordChar c) = true := by decide
    exact List.all_eq_true.mp hall c (h c rfl)

/-- A class of characters that no break is in ends at a break. -/
theorem head_not {p : Char → Bool} (h : Breaks rest) (hp : breakers.all (fun c => !p c) = true) :
    ∀ c ∈ rest.head?, p c = false := by
  intro c hc
  have := List.all_eq_true.mp hp c (h c hc)
  simpa using this

end Breaks

/-- Characters of a class are taken up to the first one that is not in the class. -/
theorem takeWhile_append_of_head? {p : Char → Bool} {cs rest : List Char}
    (hcs : ∀ c ∈ cs, p c = true) (hrest : ∀ c ∈ rest.head?, p c = false) :
    (cs ++ rest).takeWhile p = cs ∧ (cs ++ rest).dropWhile p = rest := by
  rw [List.takeWhile_append_of_pos hcs, List.dropWhile_append_of_pos hcs]
  cases rest with
  | nil => simp
  | cons c rest => simp [hrest c rfl]

theorem isUpper_iff_toNat {c : Char} : c.isUpper = true ↔ 65 ≤ c.toNat ∧ c.toNat ≤ 90 := by
  change decide (c.val ≥ 65 ∧ c.val ≤ 90) = true ↔ 65 ≤ c.val.toNat ∧ c.val.toNat ≤ 90
  simp [UInt32.le_iff_toNat_le]

theorem isLower_iff_toNat {c : Char} : c.isLower = true ↔ 97 ≤ c.toNat ∧ c.toNat ≤ 122 := by
  change (decide (c.val ≥ 97) && decide (c.val ≤ 122)) = true ↔
    97 ≤ c.val.toNat ∧ c.val.toNat ≤ 122
  simp [UInt32.le_iff_toNat_le]

theorem isAlpha_iff_toNat {c : Char} : c.isAlpha = true ↔
    (65 ≤ c.toNat ∧ c.toNat ≤ 90) ∨ (97 ≤ c.toNat ∧ c.toNat ≤ 122) := by
  change (c.isUpper || c.isLower) = true ↔ _
  rw [Bool.or_eq_true, isUpper_iff_toNat, isLower_iff_toNat]

theorem isAlphanum_lt {c : Char} (h : c.isAlphanum = true) : c.toNat < 0x80 := by
  change (c.isAlpha || c.isDigit) = true at h
  rw [Bool.or_eq_true, isAlpha_iff_toNat, Char.isDigit_iff_toNat] at h
  have h9 : '9'.toNat = 57 := rfl
  omega

/-- Only the dollar sign can stand in a name without being part of a word. -/
theorem eq_dollar_of_isNameChar {c : Char} (h : isNameChar c = true)
    (hw : Text.isWordChar c = false) : c = '$' := by
  simp only [isNameChar, Bool.or_eq_true, beq_iff_eq] at h
  rcases h with (h | rfl) | h
  · simp [Text.isWordChar, isAlphanum_lt h, h] at hw
  · exact absurd hw (by decide)
  · exact h

namespace Token

theorem read?_symbol {c : Char} {sym : Symbol} (rest : List Char)
    (h : Symbol.ofChar? c = some sym) (hne : sym ≠ .equals) :
    read? (c :: rest) = some (.symbol sym, rest) := by
  unfold Symbol.ofChar? at h
  split at h
  case h_2 => cases h; exact absurd rfl hne
  case h_9 => cases h
  all_goals cases h; rfl

theorem read?_word {c : Char} (cs : List Char) (h : isNameStart c = true) :
    read? (c :: cs) = some (readWord (c :: cs)) := by
  have hd : c.isDigit = false := by
    rw [Bool.eq_false_iff, ne_eq, Char.isDigit_iff_toNat]
    simp only [isNameStart, Bool.or_eq_true, beq_iff_eq, isAlpha_iff_toNat] at h
    have h9 : '9'.toNat = 57 := rfl
    rcases h with (h | rfl) | rfl
    · omega
    · decide
    · decide
  unfold read?
  split
  · rename_i hc; cases hc
  · rename_i hc; cases hc; exact absurd h (by decide)
  · rename_i hc; cases hc; simp [hd, h]

theorem drop_text (k : Keyword) (rest : List Char) :
    (k.text.toList ++ rest).drop k.text.length = rest := by
  rw [← String.length_toList, List.drop_left]

theorem standsAt_text {rest : List Char} (j k : Keyword) (h : wordEnds rest = true) :
    j.standsAt (k.text.toList ++ rest) = decide (j = k) := by
  unfold Keyword.standsAt
  -- no keyword is the start of another
  by_cases hjk : j = k
  · subst hjk
    simp [drop_text, h]
  · cases j <;> cases k <;> simp [Keyword.text] at hjk ⊢

theorem read?_keyword {rest : List Char} (k : Keyword) (h : wordEnds rest = true) :
    read? (k.text.toList ++ rest) = some (.keyword k, rest) := by
  have hword : read? (k.text.toList ++ rest) = some (readWord (k.text.toList ++ rest)) := by
    cases k <;> exact read?_word _ (by decide)
  have hfind : Keyword.all.find? (·.standsAt (k.text.toList ++ rest)) = some k := by
    simp only [standsAt_text _ k h]
    cases k <;> rfl
  simp only [hword, readWord, hfind, drop_text]

/-- No keyword is read at the front of a legal name. -/
theorem not_standsAt {name : String} {rest : List Char} (hn : isLegalName name = true)
    (hr : ∀ c ∈ rest.head?, isNameChar c = false) (k : Keyword) :
    k.standsAt (name.toList ++ rest) = false := by
  rw [Bool.eq_false_iff]
  intro h
  simp only [Keyword.standsAt, Bool.and_eq_true, List.isPrefixOf_iff_prefix] at h
  obtain ⟨hp, hw⟩ := h
  rcases List.prefix_or_prefix_of_prefix hp (List.prefix_append name.toList rest) with hk | hk
  · -- the name goes on after the keyword, and only `$` can be next
    obtain ⟨v, hv⟩ := hk
    rw [← hv, List.append_assoc, drop_text] at hw
    cases v with
    | nil => exact isLegalName.not_keyword hn k (String.toList_inj.mp (by simpa using hv.symm))
    | cons c v =>
      have hc : c = '$' := by
        refine eq_dollar_of_isNameChar (isLegalName.chars hn c (by simp [← hv])) ?_
        simpa [wordEnds] using hw
      subst hc
      exact isLegalName.not_keyword_dollar hn k ⟨v, by simpa using hv⟩
  · -- the keyword goes on after the name, but it is made of characters of names
    obtain ⟨v, hv⟩ := hk
    cases v with
    | nil => exact isLegalName.not_keyword hn k (String.toList_inj.mp (by simpa using hv))
    | cons c v =>
      obtain ⟨u, hu⟩ := hp
      rw [← hv, List.append_assoc, List.append_cancel_left_eq] at hu
      have hno : isNameChar c = false := hr c (by simp [← hu])
      have hall : k.text.toList.all isNameChar = true := by cases k <;> decide
      have hc : isNameChar c = true := List.all_eq_true.mp hall c (by simp [← hv])
      rw [hno] at hc
      cases hc

theorem read?_name {name : String} {rest : List Char} (hn : isLegalName name = true)
    (hr : ∀ c ∈ rest.head?, isNameChar c = false) :
    read? (name.toList ++ rest) = some (.name name, rest) := by
  obtain ⟨c, cs, hl, hc⟩ := isLegalName.start hn
  have hword : read? (name.toList ++ rest) = some (readWord (name.toList ++ rest)) := by
    rw [hl]
    exact read?_word (cs ++ rest) hc
  have hnone : Keyword.all.find? (·.standsAt (name.toList ++ rest)) = none := by
    rw [List.find?_eq_none]
    intro k _
    simp [not_standsAt hn hr k]
  obtain ⟨htake, hdrop⟩ := takeWhile_append_of_head? (isLegalName.chars hn) hr
  rw [hword, readWord, hnone, htake, hdrop, String.ofList_toList]

theorem read?_int {digits : String} {rest : List Char} (hne : digits.toList ≠ [])
    (hd : ∀ c ∈ digits.toList, c.isDigit = true) (hr : ∀ c ∈ rest.head?, c.isDigit = false) :
    read? (digits.toList ++ rest) = some (.int digits, rest) := by
  obtain ⟨htake, hdrop⟩ := takeWhile_append_of_head? hd hr
  cases hl : digits.toList with
  | nil => exact absurd hl hne
  | cons c cs =>
    have hc : c.isDigit = true := hd c (by simp [hl])
    rw [hl] at htake hdrop
    unfold read?
    split
    · rename_i h; cases h
    · rename_i h
      obtain ⟨rfl, _⟩ := List.cons.inj h
      exact absurd hc (by decide)
    · rename_i h
      cases h
      rw [if_pos hc, htake, hdrop, ← hl, String.ofList_toList]

end Token

/-! ## Written tokens -/

/-- Wherever a word ends after `cs`, `cs` adds just the tokens `w`. None of them is a literal that
is too long. -/
structure Writes (cs : List Char) (w : List Token) : Prop where
  spells : ∀ (rest : List Char) (v : List Token), Breaks rest → Spells rest v →
    Spells (cs ++ rest) (w ++ v)
  fits : ∀ tok ∈ w, tok.excessDigits? = none

namespace Writes

variable {cs ds : List Char} {w v : List Token}

theorem nil : Writes [] [] := ⟨fun _ _ _ h => h, by simp⟩

theorem blank (h : Writes cs w) : Writes (' ' :: cs) w :=
  ⟨fun rest v hr hv => .blank rfl (h.spells rest v hr hv), h.fits⟩

/-- A token that is read in front of any text. -/
theorem cons {tok : Token} (lead : List Char) (h : Writes cs w)
    (hread : ∀ rest, Token.read? (lead ++ (cs ++ rest)) = some (tok, cs ++ rest))
    (hfits : tok.excessDigits? = none) : Writes (lead ++ cs) (tok :: w) := by
  refine ⟨fun rest v hr hv => ?_, by simpa using ⟨hfits, h.fits⟩⟩
  rw [List.append_assoc]
  exact .token (hread rest) (h.spells rest v hr hv)

theorem symbol {c : Char} {sym : Symbol} (hc : Symbol.ofChar? c = some sym) (hne : sym ≠ .equals)
    (h : Writes cs w) : Writes (c :: cs) (.symbol sym :: w) :=
  h.cons [c] (fun _ => Token.read?_symbol _ hc hne) rfl

theorem equals (h : Writes (' ' :: cs) w) : Writes ('=' :: ' ' :: cs) (.symbol .equals :: w) :=
  h.cons ['='] (fun _ => rfl) rfl

theorem arrow (h : Writes cs w) : Writes ('=' :: '>' :: cs) (.symbol .arrow :: w) :=
  h.cons ['=', '>'] (fun _ => rfl) rfl

/-- A token that is read where a word ends after it. -/
theorem word {tok : Token}
    (hread : ∀ rest, Breaks rest → Token.read? (cs ++ rest) = some (tok, rest))
    (hfits : tok.excessDigits? = none) : Writes cs [tok] :=
  ⟨fun rest _ hr hv => .token (hread rest hr) hv, by simpa using hfits⟩

theorem keyword (k : Keyword) : Writes k.text.toList [.keyword k] :=
  .word (fun _ hr => Token.read?_keyword k hr.wordEnds) rfl

theorem name {x : String} (hx : isLegalName x = true) : Writes x.toList [.name x] :=
  .word (fun _ hr => Token.read?_name hx (hr.head_not (by decide))) rfl

theorem append {d : Char} (h : Writes cs w) (h' : Writes (d :: ds) v)
    (hd : d ∈ breakers) : Writes (cs ++ d :: ds) (w ++ v) := by
  refine ⟨fun rest u hr hu => ?_, fun tok htok => ?_⟩
  · rw [List.append_assoc, List.append_assoc]
    exact h.spells _ _ (by simpa [Breaks] using hd) (h'.spells rest u hr hu)
  · rcases List.mem_append.mp htok with htok | htok
    · exact h.fits tok htok
    · exact h'.fits tok htok

theorem spells_self (h : Writes cs w) : Spells cs w := by
  simpa using h.spells [] [] (by simp [Breaks]) .nil

end Writes

end ArrowLang
