import ArrowLang.Proofs.ParserStates
import ArrowLang.Proofs.Scanning

/-!
# ArrowLang.Proofs.Acceptance

The parser decides the grammar.

* `Accepts source lxs t`: the lexemes are read to their end, as the term `t`.
* `accepts_iff`: the terms that lexemes are read as are, up to spans, those the grammar derives.
* `parse_ok_iff`: what that means for texts.

Since reading is a function, at most one term can be derived for a sequence of tokens.
-/

namespace ArrowLang
namespace Parser

def Accepts (source : String) (lxs : List Lexeme) (t : Term) : Prop :=
  ∃ s tree, feedAll source .initial lxs = .ok s ∧ finish source s = some tree ∧ tree.term = t

variable {source : String} {lxs : List Lexeme} {t u : Term}

theorem Accepts.unique (ht : Accepts source lxs t) (hu : Accepts source lxs u) : t = u := by
  obtain ⟨s, tree, hs, hf, rfl⟩ := ht
  obtain ⟨s', tree', hs', hf', rfl⟩ := hu
  rw [hs] at hs'
  cases hs'
  rw [hf] at hf'
  cases hf'
  rfl

/-- What is known of the state after some lexemes is what the grammar says of their tokens. -/
theorem after_of_feedAll {s : State} (h : feedAll source .initial lxs = .ok s) :
    After s (lxs.map Lexeme.token) := by
  have hs : After s ([] ++ lxs.map Lexeme.token) := (After.program .start).feedAll h
  simpa using hs

/-- What the lexemes are read as stands in its place. -/
theorem placed_of_finish {s : State} {tree : ParseTree} (hs : feedAll source .initial lxs = .ok s)
    (hf : finish source s = some tree) : ∃ p q, Placed source lxs p q (.program tree) := by
  have hd : Derives (lxs.map Lexeme.token) (.program tree.bare) := (after_of_feedAll hs).finish hf
  obtain ⟨p, q, tree', _, hplaced⟩ := hd.placeable source lxs rfl
  -- it is in its place as some tree, and the lexemes are read as one tree only
  obtain ⟨s', hs', hf'⟩ := accepts_of_placed hplaced
  rw [hs] at hs'
  cases hs'
  rw [hf] at hf'
  cases hf'
  exact ⟨p, q, hplaced⟩

theorem accepts_iff_placed :
    Accepts source lxs t ↔ ∃ p q tree, Placed source lxs p q (.program tree) ∧ tree.term = t := by
  constructor
  · rintro ⟨s, tree, hs, hf, ht⟩
    obtain ⟨p, q, hplaced⟩ := placed_of_finish hs hf
    exact ⟨p, q, tree, hplaced, ht⟩
  · rintro ⟨p, q, tree, hplaced, ht⟩
    obtain ⟨s, hs, hf⟩ := accepts_of_placed hplaced
    exact ⟨s, tree, hs, hf, ht⟩

theorem accepts_iff :
    (∃ t', Accepts source lxs t' ∧ t'.eraseSpans = t) ↔
      Derives (lxs.map Lexeme.token) (.program t) := by
  constructor
  · rintro ⟨t', ⟨s, tree, hs, hf, rfl⟩, rfl⟩
    exact (after_of_feedAll hs).finish hf
  · intro h
    obtain ⟨s, tree, hs, hf, ht⟩ := accepts_of_derives source h
    exact ⟨tree.term, ⟨s, tree, hs, hf, rfl⟩, ht⟩

end Parser

open ArrowLang.Parser (Accepts accepts_iff accepts_iff_placed)

theorem Derives.program_unique {w : List Token} {t u : Term} (ht : Derives w (.program t))
    (hu : Derives w (.program u)) : t = u := by
  -- any places will do for the tokens
  let lxs : List Lexeme := w.map fun tok => ⟨tok, .origin, .origin⟩
  have hw : lxs.map Lexeme.token = w := by simp [lxs, Function.comp_def]
  rw [← hw] at ht hu
  obtain ⟨t', hat, rfl⟩ := (@accepts_iff defaultSource _ _).mpr ht
  obtain ⟨u', hau, rfl⟩ := accepts_iff.mpr hu
  rw [hat.unique hau]

/-! ## Texts -/

section Texts

variable {text : String} {source : Option String} {lxs : List Lexeme} {p : Position} {t : Term}

/-- Once the lexemes are read as a term, only a literal that is too long is in the way. -/
theorem parse_of_accepts (hscan : Scan.ofText text = ⟨lxs, .textEnd p⟩)
    (h : Accepts (sourceName source) lxs t) :
    parse text source = ((lxs.map Lexeme.token).findSome? Token.excessDigits?).elim (.ok t)
      fun digits => .error (.literalTooLong digits) := by
  obtain ⟨_, _, tree, hplaced, rfl⟩ := accepts_iff_placed.mp h
  exact parse_of_placed hscan hplaced

/-- A text of which a term is built has been read as a tree. -/
theorem accepts_of_parse (hscan : Scan.ofText text = ⟨lxs, .textEnd p⟩)
    (h : parse text source = .ok t) : ∃ t', Accepts (sourceName source) lxs t' := by
  simp only [parse, Parser.readTree, hscan] at h
  cases hs : Parser.feedAll (sourceName source) .initial lxs with
  | error lx => simp [hs] at h
  | ok s =>
    cases hf : Parser.finish (sourceName source) s with
    | none => simp [hs, hf] at h
    | some tree => exact ⟨tree.term, s, tree, hs, hf, rfl⟩

/-- A text that scans to its end is parsed as what its lexemes are read as, unless one of them is a
literal that is too long. -/
theorem parse_ok_iff (hscan : Scan.ofText text = ⟨lxs, .textEnd p⟩) :
    parse text source = .ok t ↔
      Accepts (sourceName source) lxs t ∧ ∀ lx ∈ lxs, lx.token.excessDigits? = none := by
  have hfits : (lxs.map Lexeme.token).findSome? Token.excessDigits? = none ↔
      ∀ lx ∈ lxs, lx.token.excessDigits? = none := by
    rw [List.findSome?_eq_none_iff, List.forall_mem_map]
  rw [← hfits]
  constructor
  · intro h
    obtain ⟨t', ht'⟩ := accepts_of_parse hscan h
    rw [parse_of_accepts hscan ht'] at h
    cases hd : (lxs.map Lexeme.token).findSome? Token.excessDigits? with
    | none =>
      rw [hd] at h
      cases h
      exact ⟨ht', rfl⟩
    | some digits =>
      rw [hd] at h
      cases h
  · rintro ⟨ht, hnone⟩
    rw [parse_of_accepts hscan ht, hnone]
    rfl

end Texts

/-- For every sequence of tokens, wherever they stand: the parser accepts it if and only if the
grammar derives it, what it is read as is what the grammar derives, and the grammar derives one term
at most. A text of these tokens is parsed as that term, up to spans, if its literals have values. -/
theorem parser_decides_grammar (source : Option String) (lxs : List Lexeme) :
    ((∃ t, Accepts (sourceName source) lxs t) ↔
      ∃ t, Derives (lxs.map Lexeme.token) (.program t)) ∧
    (∀ t, (∃ t', Accepts (sourceName source) lxs t' ∧ t'.eraseSpans = t) ↔
      Derives (lxs.map Lexeme.token) (.program t)) ∧
    (∀ t u, Derives (lxs.map Lexeme.token) (.program t) →
      Derives (lxs.map Lexeme.token) (.program u) → t = u) ∧
    ∀ (text : String) (p : Position), Scan.ofText text = ⟨lxs, .textEnd p⟩ →
      ∀ t, (∃ t', parse text source = .ok t' ∧ t'.eraseSpans = t) ↔
        Derives (lxs.map Lexeme.token) (.program t) ∧
          ∀ lx ∈ lxs, lx.token.excessDigits? = none := by
  refine ⟨?_, fun t => accepts_iff, fun t u => Derives.program_unique, ?_⟩
  · constructor
    · rintro ⟨t, ht⟩
      exact ⟨_, accepts_iff.mp ⟨t, ht, rfl⟩⟩
    · rintro ⟨t, ht⟩
      obtain ⟨t', ht', _⟩ := accepts_iff.mpr ht
      exact ⟨t', ht'⟩
  · intro text p hscan t
    rw [← @accepts_iff (sourceName source)]
    simp only [parse_ok_iff hscan]
    constructor
    · rintro ⟨t', ⟨ha, hfits⟩, ht⟩
      exact ⟨⟨t', ha, ht⟩, hfits⟩
    · rintro ⟨⟨t', ha, ht⟩, hfits⟩
      exact ⟨t', ⟨ha, hfits⟩, ht⟩

/-- `+` associates to the left, and there is no other way to read it. -/
theorem parser_decides_double_sum :
    let w : List Token := [.name "a", .symbol .plus, .name "b", .symbol .plus, .name "c"]
    let t : Term := .bare (.add (.bare (.add (.bare (.var "a")) (.bare (.var "b"))))
      (.bare (.var "c")))
    Derives w (.program t) ∧ (∀ u, Derives w (.program u) → u = t) ∧
      ∃ t', parse "a+b+c" none = .ok t' ∧ t'.eraseSpans = t := by
  intro w t
  let lxs : List Lexeme :=
    [⟨.name "a", ⟨1, 0⟩, ⟨1, 1⟩⟩, ⟨.symbol .plus, ⟨1, 1⟩, ⟨1, 2⟩⟩, ⟨.name "b", ⟨1, 2⟩, ⟨1, 3⟩⟩,
      ⟨.symbol .plus, ⟨1, 3⟩, ⟨1, 4⟩⟩, ⟨.name "c", ⟨1, 4⟩, ⟨1, 5⟩⟩]
  have hlex : Lexes .origin "a+b+c".toList lxs ⟨1, 5⟩ [] :=
    .token rfl (.token rfl (.token rfl (.token rfl (.token rfl .done))))
  have hname (x : String) : Derives [.name x] (.operand (.bare (.var x))) := .atom .name
  have hd : Derives w (.program t) :=
    .expr (.sum (.add (.add (.operand (hname "a")) (hname "b")) (hname "c")))
  obtain ⟨_, _, hunique, hparse⟩ := parser_decides_grammar none lxs
  refine ⟨hd, fun u hu => hunique u t hu hd, ?_⟩
  exact (hparse "a+b+c" ⟨1, 5⟩ hlex.ofText_eq t).mpr ⟨hd, by simp [lxs, Token.excessDigits?]⟩

end ArrowLang
