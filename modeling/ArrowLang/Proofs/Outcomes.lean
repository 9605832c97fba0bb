import ArrowLang.Proofs.Extents
import ArrowLang.Proofs.SyntaxErrors
import ArrowLang.Proofs.Walks
import Mathlib.Data.Nat.Digits.Defs

/-!
# ArrowLang.Proofs.Outcomes

What becomes of a text.

* `SameReading r r'`: two attempts to read a text come to the same, apart from places.
* `parse_alike`: so it is for texts with the same tokens.
* `IsProgram text`: the grammar derives the tokens that the text is made of.
* `Term.literals`: the literals of a term in post-order. By `Placed.term_literals` they are the
  integers among the lexemes, one by one.

The form of a text is settled first. Only the literals of a program are looked at for their size,
and the first that is too long in the text is the first that a walk over the term would come to.
-/

namespace ArrowLang

/-! ## Texts with the same tokens -/

namespace Parser

variable {source : String} {lxs lxs' : List Lexeme} {lx : Lexeme}

/-- No program goes on past a dead end. -/
theorem Viable.before_dead_end {u v : List Token} {tok : Token} (h : Viable (u ++ tok :: v)) :
    Viable (u ++ [tok]) := by
  rw [List.append_cons] at h
  exact h.of_append

theorem dead_end_of_feedAll (h : feedAll source .initial lxs = .error lx) :
    ∃ u v, lxs.map Lexeme.token = u ++ lx.token :: v ∧ Viable u ∧ ¬ Viable (u ++ [lx.token]) := by
  obtain ⟨before, after, s, rfl, hs, hlx⟩ := feedAll_error h
  exact ⟨before.map Lexeme.token, after.map Lexeme.token, by simp, (after_of_feedAll hs).viable,
    not_viable_of_feed_none hs hlx⟩

/-- Lexemes are read to their end if and only if some program starts with their tokens. -/
theorem feedAll_ok_iff :
    (∃ s, feedAll source .initial lxs = .ok s) ↔ Viable (lxs.map Lexeme.token) := by
  constructor
  · rintro ⟨s, hs⟩
    exact (after_of_feedAll hs).viable
  · intro h
    cases hs : feedAll source .initial lxs with
    | ok s => exact ⟨s, rfl⟩
    | error lx =>
      obtain ⟨u, v, hw, _, hdead⟩ := dead_end_of_feedAll hs
      rw [hw] at h
      exact absurd h.before_dead_end hdead

/-- Tokens have one first place where no program goes on. -/
theorem dead_end_unique {u v u' v' : List Token} {tok tok' : Token}
    (h : u ++ tok :: v = u' ++ tok' :: v') (hu : Viable u) (hu' : Viable u')
    (hdead : ¬ Viable (u ++ [tok])) (hdead' : ¬ Viable (u' ++ [tok'])) : tok = tok' := by
  rcases List.append_eq_append_iff.mp h with ⟨w, rfl, hw⟩ | ⟨w, rfl, hw⟩
  · cases w with
    | nil => exact (List.cons.inj hw).1
    | cons a w =>
      obtain ⟨rfl, _⟩ := List.cons.inj hw
      exact absurd hu'.before_dead_end hdead
  · cases w with
    | nil => exact (List.cons.inj hw).1.symm
    | cons a w =>
      obtain ⟨rfl, _⟩ := List.cons.inj hw
      exact absurd hu.before_dead_end hdead'

/-- Which token is rejected does not depend on where the tokens stand. -/
theorem feedAll_error_alike (source' : String)
    (htokens : lxs.map Lexeme.token = lxs'.map Lexeme.token)
    (h : feedAll source .initial lxs = .error lx) :
    ∃ lx', feedAll source' .initial lxs' = .error lx' ∧ lx.token = lx'.token := by
  obtain ⟨u, v, hw, hu, hdead⟩ := dead_end_of_feedAll h
  cases h' : feedAll source' .initial lxs' with
  | ok s' =>
    have hviable : Viable (lxs'.map Lexeme.token) := feedAll_ok_iff.mp ⟨s', h'⟩
    rw [← htokens, hw] at hviable
    exact absurd hviable.before_dead_end hdead
  | error lx' =>
    obtain ⟨u', v', hw', hu', hdead'⟩ := dead_end_of_feedAll h'
    rw [hw, hw'] at htokens
    exact ⟨lx', rfl, dead_end_unique htokens hu hu' hdead hdead'⟩

end Parser

open ArrowLang.Parser (Accepts)

/-- Two attempts to read a text come to the same, apart from places. -/
inductive SameReading : Except ParseFailure Term → Except ParseFailure Term → Prop where
  | term {t t' : Term} : t.eraseSpans = t'.eraseSpans → SameReading (.ok t) (.ok t')
  | malformed {e e' : ParseError} :
      e.cause = e'.cause → SameReading (.error (.malformed e)) (.error (.malformed e'))
  | literalTooLong {digits : Nat} :
      SameReading (.error (.literalTooLong digits)) (.error (.literalTooLong digits))

section Texts

variable {text text' : String} {source : Option String} {lxs lxs' : List Lexeme} {p p' : Position}
  {t : Term}

theorem accepts_alike (htokens : lxs.map Lexeme.token = lxs'.map Lexeme.token) {name : String}
    (h : Accepts name lxs t) : ∃ t', Accepts name lxs' t' ∧ t.eraseSpans = t'.eraseSpans := by
  have hd : Derives (lxs'.map Lexeme.token) (.program t.eraseSpans) :=
    htokens ▸ Parser.accepts_iff.mp ⟨t, h, rfl⟩
  obtain ⟨t', ht', herase⟩ := Parser.accepts_iff.mpr hd
  exact ⟨t', ht', herase.symm⟩

/-- What becomes of a text depends on its tokens only. -/
theorem parse_alike (hscan : Scan.ofText text = ⟨lxs, .textEnd p⟩)
    (hscan' : Scan.ofText text' = ⟨lxs', .textEnd p'⟩)
    (htokens : lxs.map Lexeme.token = lxs'.map Lexeme.token) (source : Option String) :
    SameReading (parse text source) (parse text' source) := by
  cases hs : Parser.feedAll (sourceName source) .initial lxs with
  | error lx =>
    obtain ⟨lx', hs', htok⟩ := Parser.feedAll_error_alike (sourceName source) htokens hs
    simp only [parse, Parser.readTree, hscan, hscan', hs, hs']
    refine .malformed ?_
    simp only [ParseError.ofRejection, htok]
  | ok s =>
    cases hf : Parser.finish (sourceName source) s with
    | some tree =>
      have h : Accepts (sourceName source) lxs tree.term := ⟨s, tree, hs, hf, rfl⟩
      obtain ⟨t', h', herase⟩ := accepts_alike htokens h
      rw [parse_of_accepts hscan h, parse_of_accepts hscan' h', htokens]
      cases (lxs'.map Lexeme.token).findSome? Token.excessDigits? with
      | none => exact .term herase
      | some digits => exact .literalTooLong
    | none =>
      have hviable := Parser.feedAll_ok_iff.mp ⟨s, hs⟩
      obtain ⟨s', hs'⟩ := Parser.feedAll_ok_iff.mpr (htokens ▸ hviable)
      have hf' : Parser.finish (sourceName source) s' = none := by
        rw [Option.eq_none_iff_forall_ne_some]
        intro tree' hf'
        obtain ⟨_, ⟨s'', _, hs'', hf'', _⟩, _⟩ :=
          accepts_alike htokens.symm ⟨s', tree', hs', hf', rfl⟩
        rw [hs] at hs''
        cases hs''
        rw [hf] at hf''
        cases hf''
      simp only [parse, Parser.readTree, hscan, hscan', hs, hs', hf, hf']
      exact .malformed rfl

/-! ## Programs -/

/-- The text is made of layout and the tokens of a program. -/
def IsProgram (text : String) : Prop :=
  ∃ w t, Spells text.toList w ∧ Derives w (.program t)

/-- The lexemes of a program are read as a tree, in which every node has its place. -/
theorem IsProgram.placed (h : IsProgram text) (source : String) :
    ∃ lxs p tree start stop, Scan.ofText text = ⟨lxs, .textEnd p⟩ ∧
      Placed source lxs start stop (.program tree) := by
  obtain ⟨w, t, hspells, hd⟩ := h
  obtain ⟨lxs, p, hscan, rfl⟩ := Scan.ofText_of_spells hspells
  obtain ⟨start, stop, tree, _, htree⟩ := hd.placeable source lxs rfl
  exact ⟨lxs, p, tree, start, stop, hscan, htree⟩

theorem isProgram_of_accepts (hscan : Scan.ofText text = ⟨lxs, .textEnd p⟩) {name : String}
    (h : Accepts name lxs t) : IsProgram text :=
  ⟨_, _, (Scan.lexes_of_ofText hscan).spells, Parser.accepts_iff.mp ⟨t, h, rfl⟩⟩

/-- A text that is no program is rejected for its form, whatever literals are in it. -/
theorem malformed_of_not_isProgram (h : ¬ IsProgram text) (source : Option String) :
    ∃ e, parse text source = .error (.malformed e) := by
  cases hs : Parser.feedAll (sourceName source) .initial (Scan.ofText text).lexemes with
  | error lx => exact ⟨_, by simp only [parse, Parser.readTree, hs]; rfl⟩
  | ok s =>
    cases hend : (Scan.ofText text).ending with
    | stuck c p => exact ⟨_, by simp only [parse, Parser.readTree, hs, hend]; rfl⟩
    | textEnd p =>
      cases hf : Parser.finish (sourceName source) s with
      | none => exact ⟨_, by simp only [parse, Parser.readTree, hs, hend, hf]; rfl⟩
      | some tree =>
        have hscan : Scan.ofText text = ⟨(Scan.ofText text).lexemes, .textEnd p⟩ := by rw [← hend]
        exact absurd (isProgram_of_accepts hscan ⟨s, tree, hs, hf, rfl⟩) h

end Texts

/-! ## Literals -/

namespace Term

/-- The value and the span of a literal that an algebra is called for. -/
def Call.literal? {R : Type} : Call R → Option (Int × Span)
  | (.number value, span) => some (value, span)
  | _ => none

/-- The literals of a term, in the order in which a walk comes to them. -/
def literals (t : Term) : List (Int × Span) :=
  (t.calls fun _ => ()).filterMap Call.literal?

theorem literals_node (layer : Layer Term) (span : Span) :
    (node layer span).literals =
      layer.children.flatMap literals ++ (call (fun _ => ()) layer span).literal?.toList := by
  rw [literals, calls_node, List.filterMap_append, List.filterMap_flatMap]
  rfl

end Term

/-- A walk over the terms of a phrase comes to the integers of the phrase, one by one. -/
theorem Placed.term_literals {source : String} {l : List Lexeme} {p q : Position}
    {x : Phrase ParseTree} (h : Placed source l p q x) :
    (l.filterMap (Lexeme.int? source)).map (Prod.map Parser.literalValue id) =
      (x.parts.map ParseTree.term).flatMap Term.literals := by
  induction h <;>
    simp only [Lexeme.int?, List.filterMap_append, List.filterMap_cons, List.filterMap_nil,
      List.map_append, List.map_cons, List.map_nil, Phrase.parts, List.flatMap_cons,
      List.flatMap_nil, List.append_nil, List.nil_append, ParseTree.term_node,
      ParseTree.term_literal, Term.literals_node, Layer.children, Term.call, Layer.map,
      Term.Call.literal?, Option.toList_none, Option.toList_some, *] at *
  case int => rfl

/-! ## Values and sizes -/

/-- The number that digits are written for in decimal notation. -/
def placeValue (digits : String) : Int :=
  (Nat.ofDigits 10 (digits.toList.reverse.map fun c => c.toNat - '0'.toNat) : Nat)

theorem literalValue_eq_placeValue (digits : String) :
    Parser.literalValue digits = placeValue digits := by
  have hvalue : decimalValue digits.toList =
      Nat.ofDigits 10 (digits.toList.reverse.map fun c => c.toNat - '0'.toNat) := by
    rw [Nat.ofDigits_eq_foldr, List.foldr_map, List.foldr_reverse]
    simp only [decimalValue, Nat.cast_id, Nat.add_comm]
  rw [Parser.literalValue, hvalue, placeValue]

namespace Parser

theorem excessDigits?_none_iff {digits : String} :
    excessDigits? digits = none ↔ digits.length ≤ 4300 := by
  rw [excessDigits?, ite_eq_left_iff]
  simp [maxDigits]

theorem length_of_excessDigits? {digits : String} {n : Nat} (h : excessDigits? digits = some n) :
    4300 < digits.length ∧ digits.length = n := by
  unfold excessDigits? at h
  split at h
  · cases h
  · rename_i hlong
    exact ⟨Nat.lt_of_not_le hlong, Option.some.inj h⟩

end Parser

/-- The form of a text decides first, and then the size of its literals. A text that is no program
is rejected for its form. The lexemes of a program are read as a term, and a walk over the term
comes to its literals in the order of the integers in the text. If none of them has more than 4300
digits, this term is the outcome, and each literal has the value of its digits. Else there is no
term, but a complaint that names the number of digits of the first that has more. -/
theorem form_decides_before_size (text : String) (source : Option String) :
    let lxs := (Scan.ofText text).lexemes
    let ints := lxs.filterMap (Lexeme.int? (sourceName source))
    (¬ IsProgram text → ∃ e, parse text source = .error (.malformed e)) ∧
    (IsProgram text → ∃ t, Accepts (sourceName source) lxs t ∧
      t.literals.map Prod.snd = ints.map Prod.snd ∧
      ((∀ int ∈ ints, int.1.length ≤ 4300) →
        parse text source = .ok t ∧ t.literals = ints.map (Prod.map placeValue id)) ∧
      ((∃ int ∈ ints, 4300 < int.1.length) →
        ∃ front int back, ints = front ++ int :: back ∧ (∀ int' ∈ front, int'.1.length ≤ 4300) ∧
          4300 < int.1.length ∧ parse text source = .error (.literalTooLong int.1.length))) := by
  intro lxs ints
  refine ⟨fun h => malformed_of_not_isProgram h source, fun h => ?_⟩
  obtain ⟨lxs', p, tree, _, _, hscan, hplaced⟩ := h.placed (sourceName source)
  obtain rfl : lxs = lxs' := congrArg Scan.lexemes hscan
  have haccepts : Accepts (sourceName source) lxs tree.term :=
    Parser.accepts_iff_placed.mpr ⟨_, _, tree, hplaced, rfl⟩
  have hdigits : tree.literals = ints := by
    simpa [Phrase.parts] using hplaced.literals.symm
  have hliterals : tree.term.literals = ints.map (Prod.map Parser.literalValue id) := by
    simpa [Phrase.parts] using hplaced.term_literals.symm
  have hparse := parse_of_placed hscan hplaced
  rw [← hplaced.firstExcess?, hdigits] at hparse
  refine ⟨tree.term, haccepts, ?_, fun hfits => ?_, fun hlong => ?_⟩
  · rw [hliterals, List.map_map]
    rfl
  · have hnone : ParseTree.firstExcess? ints = none :=
      List.findSome?_eq_none_iff.mpr fun int hint =>
        Parser.excessDigits?_none_iff.mpr (hfits int hint)
    rw [hparse, hnone, hliterals, funext literalValue_eq_placeValue]
    exact ⟨rfl, rfl⟩
  · cases hsize : ParseTree.firstExcess? ints with
    | none =>
      obtain ⟨int, hint, hlong⟩ := hlong
      have hfits := Parser.excessDigits?_none_iff.mp (List.findSome?_eq_none_iff.mp hsize int hint)
      omega
    | some n =>
      rw [hparse, hsize]
      obtain ⟨front, int, back, hints, hint, hfront⟩ := List.findSome?_eq_some_iff.mp hsize
      obtain ⟨hlong, rfl⟩ := Parser.length_of_excessDigits? hint
      exact ⟨front, int, back, hints,
        fun int' hint' => Parser.excessDigits?_none_iff.mp (hfront int' hint'), hlong, rfl⟩

/-- Two literals that are too long, the first of them in brackets, and a bracket that is not opened
behind such a literal. -/
theorem form_decides_before_size_of_zeros :
    let zeros (n : Nat) : List Char := List.replicate n '0'
    let sum := String.ofList ('(' :: zeros 4301 ++ ')' :: '+' :: zeros 5000)
    let closed := String.ofList (zeros 4301 ++ [')'])
    IsProgram sum ∧ parse sum none = .error (.literalTooLong 4301) ∧
      ¬ IsProgram closed ∧ ∃ e, parse closed none = .error (.malformed e) := by
  intro zeros sum closed
  have hread (n : Nat) (hn : n ≠ 0) (rest : List Char) (h : ∀ c ∈ rest.head?, c.isDigit = false) :
      Token.read? (zeros n ++ rest) = some (.int (String.ofList (zeros n)), rest) := by
    have hdigits : ∀ c ∈ (String.ofList (zeros n)).toList, c.isDigit = true := by
      simp [zeros, hn]
    simpa using Token.read?_int (by simp [zeros, hn]) hdigits h
  have hlength (n : Nat) : (String.ofList (zeros n)).length = n := by
    simp [zeros]
  have hlast : Token.read? (zeros 5000) = some (.int (String.ofList (zeros 5000)), []) := by
    simpa only [List.append_nil] using hread 5000 (by decide) [] (by simp)
  have hsum : Spells sum.toList [.symbol .openParen, .int (String.ofList (zeros 4301)),
      .symbol .closeParen, .symbol .plus, .int (String.ofList (zeros 5000))] := by
    rw [String.toList_ofList]
    exact .token rfl (.token (hread 4301 (by decide) _ (by simp)) (.token rfl (.token rfl
      (.token hlast .nil))))
  have hprogram : IsProgram sum := ⟨_, _, hsum, .expr (.sum (.add
    (.operand (.atom (.group (.expr (.sum (.operand (.atom .int))))))) (.atom .int)))⟩
  have hclosed : Spells closed.toList [.int (String.ofList (zeros 4301)), .symbol .closeParen] := by
    rw [String.toList_ofList]
    exact .token (hread 4301 (by decide) [')'] (by simp)) (.token rfl .nil)
  -- the integers of the sum, wherever they stand
  obtain ⟨span, span', hints⟩ : ∃ span span', (Scan.ofText sum).lexemes.filterMap
      (Lexeme.int? (sourceName none)) = [(String.ofList (zeros 4301), span),
        (String.ofList (zeros 5000), span')] := by
    obtain ⟨lxs, p, hscan, htokens⟩ := Scan.ofText_of_spells hsum
    simp only [List.map_eq_cons_iff, List.map_eq_nil_iff] at htokens
    obtain ⟨_, _, rfl, h₁, _, _, rfl, h₂, _, _, rfl, h₃, _, _, rfl, h₄, _, _, rfl, h₅, rfl⟩ :=
      htokens
    simp [hscan, Lexeme.int?, h₁, h₂, h₃, h₄, h₅]
  refine ⟨hprogram, ?_, ?_⟩
  · obtain ⟨_, hform⟩ := form_decides_before_size sum none
    obtain ⟨t, _, _, _, hsize⟩ := hform hprogram
    rw [hints] at hsize
    obtain ⟨front, int, back, hsplit, hfront, hlong, hparse⟩ :=
      hsize ⟨_, List.mem_cons_self, by rw [hlength]; decide⟩
    cases front with
    | nil =>
      obtain ⟨rfl, _⟩ := List.cons.inj hsplit
      rwa [hlength] at hparse
    | cons int' front =>
      obtain ⟨rfl, _⟩ := List.cons.inj hsplit
      have hfits := hfront _ List.mem_cons_self
      rw [hlength] at hfits
      exact absurd hfits (by decide)
  · have hnot : ¬ IsProgram closed := by
      rintro ⟨w, t, hspells, hd⟩
      cases hspells.unique hclosed
      let lxs : List Lexeme := [⟨.int (String.ofList (zeros 4301)), .origin, .origin⟩,
        ⟨.symbol .closeParen, .origin, .origin⟩]
      obtain ⟨_, ⟨s, _, hs, _⟩, _⟩ := (@Parser.accepts_iff "" lxs t).mpr hd
      cases hs
    exact ⟨hnot, (form_decides_before_size closed none).1 hnot⟩

end ArrowLang
