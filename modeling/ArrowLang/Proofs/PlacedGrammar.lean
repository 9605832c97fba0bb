import ArrowLang.Proofs.Grammar
import ArrowLang.Proofs.Trees

/-!
# ArrowLang.Proofs.PlacedGrammar

The grammar of programs, over lexemes.

* `Placed source lxs p q x`: the lexemes `lxs` are a phrase over the stretch from `p` to `q`, and it
  stands for `x`, in which every node has the span of the phrase that it was built for.
* `Placed.derives`: without places, this is the grammar over tokens.
* `Derives.placeable`: tokens that are a phrase are one wherever they stand.
* `Placed.literals`: a tree has its literals in the order in which they stand in the text.

Brackets and a `;` at the end widen the stretch of a phrase, but not the span of what it stands for.
-/

namespace ArrowLang

inductive Placed (source : String) : List Lexeme → Position → Position →
    Phrase ParseTree → Prop where
  -- programs
  | expr {l : List Lexeme} {p q : Position} {t : ParseTree} :
      Placed source l p q (.expr t) → Placed source l p q (.program t)
  | statement {l : List Lexeme} {p q : Position} {t : ParseTree} {semi : Lexeme} :
      Placed source l p q (.expr t) → semi.token = .symbol .semicolon →
      Placed source (l ++ [semi]) p semi.stop (.program t)
  | seq {l₁ l₂ : List Lexeme} {p₁ q₁ p₂ q₂ : Position} {t u : ParseTree} {semi : Lexeme} :
      Placed source l₁ p₁ q₁ (.expr t) → semi.token = .symbol .semicolon →
      Placed source l₂ p₂ q₂ (.program u) →
      Placed source (l₁ ++ semi :: l₂) p₁ q₂ (.program (.node (.seq t u) (p₁.spanTo source q₂)))
  | const {l₁ l₂ : List Lexeme} {p₁ q₁ p₂ q₂ : Position} {t u : ParseTree} {name : String}
      {const bound equals semi : Lexeme} :
      const.token = .keyword .const → bound.token = .name name →
      equals.token = .symbol .equals → Placed source l₁ p₁ q₁ (.expr t) →
      semi.token = .symbol .semicolon → Placed source l₂ p₂ q₂ (.program u) →
      Placed source (const :: bound :: equals :: (l₁ ++ semi :: l₂)) const.start q₂
        (.program (.node (.const name t u) (const.start.spanTo source q₂)))
  -- expressions
  | sum {l : List Lexeme} {p q : Position} {t : ParseTree} :
      Placed source l p q (.sum t) → Placed source l p q (.expr t)
  | ite {l₁ l₂ l₃ : List Lexeme} {p₁ q₁ p₂ q₂ p₃ q₃ : Position} {c a b : ParseTree}
      {question colon : Lexeme} :
      Placed source l₁ p₁ q₁ (.sum c) → question.token = .symbol .question →
      Placed source l₂ p₂ q₂ (.expr a) → colon.token = .symbol .colon →
      Placed source l₃ p₃ q₃ (.expr b) →
      Placed source (l₁ ++ question :: (l₂ ++ colon :: l₃)) p₁ q₃
        (.expr (.node (.ite c a b) (p₁.spanTo source q₃)))
  | thunk {l : List Lexeme} {p q : Position} {t : ParseTree} {opener closer arrow : Lexeme} :
      opener.token = .symbol .openParen → closer.token = .symbol .closeParen →
      arrow.token = .symbol .arrow → Placed source l p q (.expr t) →
      Placed source (opener :: closer :: arrow :: l) opener.start q
        (.expr (.node (.func [] t) (opener.start.spanTo source q)))
  | func {l₁ l₂ : List Lexeme} {p₁ q₁ p₂ q₂ : Position} {ps : List (Param Ty)} {t : ParseTree}
      {opener closer arrow : Lexeme} :
      opener.token = .symbol .openParen → Placed source l₁ p₁ q₁ (.params ps) →
      closer.token = .symbol .closeParen → arrow.token = .symbol .arrow →
      Placed source l₂ p₂ q₂ (.expr t) →
      Placed source (opener :: (l₁ ++ closer :: arrow :: l₂)) opener.start q₂
        (.expr (.node (.func ps t) (opener.start.spanTo source q₂)))
  -- sums
  | operand {l : List Lexeme} {p q : Position} {t : ParseTree} :
      Placed source l p q (.operand t) → Placed source l p q (.sum t)
  | add {l₁ l₂ : List Lexeme} {p₁ q₁ p₂ q₂ : Position} {a b : ParseTree} {plus : Lexeme} :
      Placed source l₁ p₁ q₁ (.sum a) → plus.token = .symbol .plus →
      Placed source l₂ p₂ q₂ (.operand b) →
      Placed source (l₁ ++ plus :: l₂) p₁ q₂ (.sum (.node (.add a b) (p₁.spanTo source q₂)))
  -- operands
  | atom {l : List Lexeme} {p q : Position} {t : ParseTree} :
      Placed source l p q (.atom t) → Placed source l p q (.operand t)
  | run {l : List Lexeme} {p q : Position} {f : ParseTree} {opener closer : Lexeme} :
      Placed source l p q (.operand f) → opener.token = .symbol .openParen →
      closer.token = .symbol .closeParen →
      Placed source (l ++ [opener, closer]) p closer.stop
        (.operand (.node (.call f []) (p.spanTo source closer.stop)))
  | call {l₁ l₂ : List Lexeme} {p₁ q₁ p₂ q₂ : Position} {f : ParseTree} {ts : List ParseTree}
      {opener closer : Lexeme} :
      Placed source l₁ p₁ q₁ (.operand f) → opener.token = .symbol .openParen →
      Placed source l₂ p₂ q₂ (.args ts) → closer.token = .symbol .closeParen →
      Placed source (l₁ ++ opener :: (l₂ ++ [closer])) p₁ closer.stop
        (.operand (.node (.call f ts) (p₁.spanTo source closer.stop)))
  -- arguments
  | arg {l : List Lexeme} {p q : Position} {t : ParseTree} :
      Placed source l p q (.expr t) → Placed source l p q (.args [t])
  | args {l₁ l₂ : List Lexeme} {p₁ q₁ p₂ q₂ : Position} {t : ParseTree} {ts : List ParseTree}
      {comma : Lexeme} :
      Placed source l₁ p₁ q₁ (.expr t) → comma.token = .symbol .comma →
      Placed source l₂ p₂ q₂ (.args ts) →
      Placed source (l₁ ++ comma :: l₂) p₁ q₂ (.args (t :: ts))
  -- atoms
  | trueLit {lx : Lexeme} :
      lx.token = .keyword .trueLit →
      Placed source [lx] lx.start lx.stop
        (.atom (.node (.bool true) (lx.start.spanTo source lx.stop)))
  | falseLit {lx : Lexeme} :
      lx.token = .keyword .falseLit →
      Placed source [lx] lx.start lx.stop
        (.atom (.node (.bool false) (lx.start.spanTo source lx.stop)))
  | int {lx : Lexeme} {digits : String} :
      lx.token = .int digits →
      Placed source [lx] lx.start lx.stop
        (.atom (.literal digits (lx.start.spanTo source lx.stop)))
  | name {lx : Lexeme} {name : String} :
      lx.token = .name name →
      Placed source [lx] lx.start lx.stop
        (.atom (.node (.var name) (lx.start.spanTo source lx.stop)))
  | group {l : List Lexeme} {p q : Position} {t : ParseTree} {opener closer : Lexeme} :
      opener.token = .symbol .openParen → Placed source l p q (.program t) →
      closer.token = .symbol .closeParen →
      Placed source (opener :: (l ++ [closer])) opener.start closer.stop (.atom t)
  -- parameters
  | param {l : List Lexeme} {p q : Position} {name : String} {τ : Ty} {bound colon : Lexeme} :
      bound.token = .name name → colon.token = .symbol .colon → Placed source l p q (.type τ) →
      Placed source (bound :: colon :: l) bound.start q (.params [⟨name, τ⟩])
  | params {l₁ l₂ : List Lexeme} {p₁ q₁ p₂ q₂ : Position} {name : String} {τ : Ty}
      {ps : List (Param Ty)} {bound colon comma : Lexeme} :
      bound.token = .name name → colon.token = .symbol .colon →
      Placed source l₁ p₁ q₁ (.type τ) → comma.token = .symbol .comma →
      Placed source l₂ p₂ q₂ (.params ps) →
      Placed source (bound :: colon :: (l₁ ++ comma :: l₂)) bound.start q₂
        (.params (⟨name, τ⟩ :: ps))
  -- types
  | boolean {lx : Lexeme} :
      lx.token = .keyword .boolean → Placed source [lx] lx.start lx.stop (.type .boolean)
  | number {lx : Lexeme} :
      lx.token = .keyword .number → Placed source [lx] lx.start lx.stop (.type .number)
  | thunkType {l : List Lexeme} {p q : Position} {τ : Ty} {opener closer arrow : Lexeme} :
      opener.token = .symbol .openParen → closer.token = .symbol .closeParen →
      arrow.token = .symbol .arrow → Placed source l p q (.type τ) →
      Placed source (opener :: closer :: arrow :: l) opener.start q (.type (.func [] τ))
  | funcType {l₁ l₂ : List Lexeme} {p₁ q₁ p₂ q₂ : Position} {ps : List (Param Ty)} {τ : Ty}
      {opener closer arrow : Lexeme} :
      opener.token = .symbol .openParen → Placed source l₁ p₁ q₁ (.params ps) →
      closer.token = .symbol .closeParen → arrow.token = .symbol .arrow →
      Placed source l₂ p₂ q₂ (.type τ) →
      Placed source (opener :: (l₁ ++ closer :: arrow :: l₂)) opener.start q₂ (.type (.func ps τ))
  | typeGroup {l : List Lexeme} {p q : Position} {τ : Ty} {opener closer : Lexeme} :
      opener.token = .symbol .openParen → Placed source l p q (.type τ) →
      closer.token = .symbol .closeParen →
      Placed source (opener :: (l ++ [closer])) opener.start closer.stop (.type τ)

/-! ## Without places -/

/-- The term of a tree, without places in a text. -/
def ParseTree.bare (t : ParseTree) : Term := t.term.eraseSpans

theorem ParseTree.bare_node (layer : Layer ParseTree) (span : Span) :
    (node layer span).bare = .bare (layer.map bare) := by
  rw [bare, term_node, Term.eraseSpans_node, Layer.map_map]
  rfl

theorem ParseTree.bare_literal (digits : String) (span : Span) :
    (literal digits span).bare = .bare (.number (Parser.literalValue digits)) := by
  rw [bare, term_literal, Term.eraseSpans_node]
  rfl

@[simp] def Phrase.bare : Phrase ParseTree → Phrase Term
  | .program t => .program t.bare
  | .expr t => .expr t.bare
  | .sum t => .sum t.bare
  | .operand t => .operand t.bare
  | .atom t => .atom t.bare
  | .args ts => .args (ts.map ParseTree.bare)
  | .params ps => .params ps
  | .type τ => .type τ

theorem Placed.derives {source : String} {l : List Lexeme} {p q : Position} {x : Phrase ParseTree}
    (h : Placed source l p q x) : Derives (l.map Lexeme.token) x.bare := by
  induction h <;>
    simp only [Phrase.bare, ParseTree.bare_node, ParseTree.bare_literal, Layer.map, List.map_append,
      List.map_cons, List.map_nil, *] at *
  case expr ih => exact .expr ih
  case statement ih => exact .statement ih
  case seq iht ihu => exact .seq iht ihu
  case const iht ihu => exact .const iht ihu
  case sum ih => exact .sum ih
  case ite ihc iha ihb => simpa using Derives.ite ihc iha ihb
  case thunk ih => exact .thunk ih
  case func ihps iht => exact .func ihps iht
  case operand ih => exact .operand ih
  case add iha ihb => exact .add iha ihb
  case atom ih => exact .atom ih
  case run ih => exact .run ih
  case call ihf ihts => simpa using Derives.call ihf ihts
  case arg ih => exact .arg ih
  case args iht ihts => exact .args iht ihts
  case trueLit => exact .trueLit
  case falseLit => exact .falseLit
  case int => exact .int
  case name => exact .name
  case group ih => exact .group ih
  case param ih => exact .param ih
  case params ihτ ihps => exact .params ihτ ihps
  case boolean => exact .boolean
  case number => exact .number
  case thunkType ih => exact .thunkType ih
  case funcType ihps ihτ => exact .funcType ihps ihτ
  case typeGroup ih => exact .typeGroup ih

/-! ## Every phrase has its places -/

/-- With some spans for its nodes, `x` is what the lexemes stand for. -/
def Placeable (source : String) (l : List Lexeme) : Phrase Term → Prop
  | .program t => ∃ p q t', t'.bare = t ∧ Placed source l p q (.program t')
  | .expr t => ∃ p q t', t'.bare = t ∧ Placed source l p q (.expr t')
  | .sum t => ∃ p q t', t'.bare = t ∧ Placed source l p q (.sum t')
  | .operand t => ∃ p q t', t'.bare = t ∧ Placed source l p q (.operand t')
  | .atom t => ∃ p q t', t'.bare = t ∧ Placed source l p q (.atom t')
  | .args ts => ∃ p q ts', ts'.map ParseTree.bare = ts ∧ Placed source l p q (.args ts')
  | .params ps => ∃ p q, Placed source l p q (.params ps)
  | .type τ => ∃ p q, Placed source l p q (.type τ)

theorem Derives.placeable {w : List Token} {x : Phrase Term} (h : Derives w x) (source : String) :
    ∀ l : List Lexeme, l.map Lexeme.token = w → Placeable source l x := by
  -- each case cuts the lexemes where the production cuts the tokens
  induction h with
  | expr _ ih =>
    intro l hl
    obtain ⟨p, q, t, rfl, ht⟩ := ih l hl
    exact ⟨_, _, _, rfl, .expr ht⟩
  | statement _ ih =>
    intro l hl
    obtain ⟨l₁, l₂, rfl, h₁, h₂⟩ := List.map_eq_append_iff.mp hl
    obtain ⟨semi, rfl, hsemi⟩ := List.map_eq_singleton_iff.mp h₂
    obtain ⟨p, q, t, rfl, ht⟩ := ih l₁ h₁
    exact ⟨_, _, _, rfl, .statement ht hsemi⟩
  | seq _ _ iht ihu =>
    intro l hl
    obtain ⟨l₁, _, rfl, h₁, hl⟩ := List.map_eq_append_iff.mp hl
    obtain ⟨semi, l₂, rfl, hsemi, h₂⟩ := List.map_eq_cons_iff.mp hl
    obtain ⟨p₁, q₁, t, rfl, ht⟩ := iht l₁ h₁
    obtain ⟨p₂, q₂, u, rfl, hu⟩ := ihu l₂ h₂
    exact ⟨_, _, _, ParseTree.bare_node _ _, .seq ht hsemi hu⟩
  | const _ _ iht ihu =>
    intro l hl
    simp only [List.cons_append] at hl
    obtain ⟨const, _, rfl, hconst, hl⟩ := List.map_eq_cons_iff.mp hl
    obtain ⟨bound, _, rfl, hbound, hl⟩ := List.map_eq_cons_iff.mp hl
    obtain ⟨equals, _, rfl, hequals, hl⟩ := List.map_eq_cons_iff.mp hl
    obtain ⟨l₁, _, rfl, h₁, hl⟩ := List.map_eq_append_iff.mp hl
    obtain ⟨semi, l₂, rfl, hsemi, h₂⟩ := List.map_eq_cons_iff.mp hl
    obtain ⟨p₁, q₁, t, rfl, ht⟩ := iht l₁ h₁
    obtain ⟨p₂, q₂, u, rfl, hu⟩ := ihu l₂ h₂
    exact ⟨_, _, _, ParseTree.bare_node _ _, .const hconst hbound hequals ht hsemi hu⟩
  | sum _ ih =>
    intro l hl
    obtain ⟨p, q, t, rfl, ht⟩ := ih l hl
    exact ⟨_, _, _, rfl, .sum ht⟩
  | ite _ _ _ ihc iha ihb =>
    intro l hl
    simp only [List.append_assoc, List.cons_append] at hl
    obtain ⟨l₁, _, rfl, h₁, hl⟩ := List.map_eq_append_iff.mp hl
    obtain ⟨question, _, rfl, hquestion, hl⟩ := List.map_eq_cons_iff.mp hl
    obtain ⟨l₂, _, rfl, h₂, hl⟩ := List.map_eq_append_iff.mp hl
    obtain ⟨colon, l₃, rfl, hcolon, h₃⟩ := List.map_eq_cons_iff.mp hl
    obtain ⟨p₁, q₁, c, rfl, hc⟩ := ihc l₁ h₁
    obtain ⟨p₂, q₂, a, rfl, ha⟩ := iha l₂ h₂
    obtain ⟨p₃, q₃, b, rfl, hb⟩ := ihb l₃ h₃
    exact ⟨_, _, _, ParseTree.bare_node _ _, .ite hc hquestion ha hcolon hb⟩
  | thunk _ ih =>
    intro l hl
    obtain ⟨opener, _, rfl, hopener, hl⟩ := List.map_eq_cons_iff.mp hl
    obtain ⟨closer, _, rfl, hcloser, hl⟩ := List.map_eq_cons_iff.mp hl
    obtain ⟨arrow, l, rfl, harrow, hl⟩ := List.map_eq_cons_iff.mp hl
    obtain ⟨p, q, t, rfl, ht⟩ := ih l hl
    exact ⟨_, _, _, ParseTree.bare_node _ _, .thunk hopener hcloser harrow ht⟩
  | func _ _ ihps iht =>
    intro l hl
    obtain ⟨opener, _, rfl, hopener, hl⟩ := List.map_eq_cons_iff.mp hl
    obtain ⟨l₁, _, rfl, h₁, hl⟩ := List.map_eq_append_iff.mp hl
    obtain ⟨closer, _, rfl, hcloser, hl⟩ := List.map_eq_cons_iff.mp hl
    obtain ⟨arrow, l₂, rfl, harrow, h₂⟩ := List.map_eq_cons_iff.mp hl
    obtain ⟨p₁, q₁, hps⟩ := ihps l₁ h₁
    obtain ⟨p₂, q₂, t, rfl, ht⟩ := iht l₂ h₂
    exact ⟨_, _, _, ParseTree.bare_node _ _, .func hopener hps hcloser harrow ht⟩
  | operand _ ih =>
    intro l hl
    obtain ⟨p, q, t, rfl, ht⟩ := ih l hl
    exact ⟨_, _, _, rfl, .operand ht⟩
  | add _ _ iha ihb =>
    intro l hl
    obtain ⟨l₁, _, rfl, h₁, hl⟩ := List.map_eq_append_iff.mp hl
    obtain ⟨plus, l₂, rfl, hplus, h₂⟩ := List.map_eq_cons_iff.mp hl
    obtain ⟨p₁, q₁, a, rfl, ha⟩ := iha l₁ h₁
    obtain ⟨p₂, q₂, b, rfl, hb⟩ := ihb l₂ h₂
    exact ⟨_, _, _, ParseTree.bare_node _ _, .add ha hplus hb⟩
  | atom _ ih =>
    intro l hl
    obtain ⟨p, q, t, rfl, ht⟩ := ih l hl
    exact ⟨_, _, _, rfl, .atom ht⟩
  | run _ ih =>
    intro l hl
    obtain ⟨l, _, rfl, h₁, hl⟩ := List.map_eq_append_iff.mp hl
    obtain ⟨opener, _, rfl, hopener, hl⟩ := List.map_eq_cons_iff.mp hl
    obtain ⟨closer, rfl, hcloser⟩ := List.map_eq_singleton_iff.mp hl
    obtain ⟨p, q, f, rfl, hf⟩ := ih l h₁
    exact ⟨_, _, _, ParseTree.bare_node _ _, .run hf hopener hcloser⟩
  | call _ _ ihf ihts =>
    intro l hl
    simp only [List.append_assoc, List.cons_append] at hl
    obtain ⟨l₁, _, rfl, h₁, hl⟩ := List.map_eq_append_iff.mp hl
    obtain ⟨opener, _, rfl, hopener, hl⟩ := List.map_eq_cons_iff.mp hl
    obtain ⟨l₂, _, rfl, h₂, hl⟩ := List.map_eq_append_iff.mp hl
    obtain ⟨closer, rfl, hcloser⟩ := List.map_eq_singleton_iff.mp hl
    obtain ⟨p₁, q₁, f, rfl, hf⟩ := ihf l₁ h₁
    obtain ⟨p₂, q₂, ts, rfl, hts⟩ := ihts l₂ h₂
    exact ⟨_, _, _, ParseTree.bare_node _ _, .call hf hopener hts hcloser⟩
  | arg _ ih =>
    intro l hl
    obtain ⟨p, q, t, rfl, ht⟩ := ih l hl
    exact ⟨_, _, _, rfl, .arg ht⟩
  | args _ _ iht ihts =>
    intro l hl
    obtain ⟨l₁, _, rfl, h₁, hl⟩ := List.map_eq_append_iff.mp hl
    obtain ⟨comma, l₂, rfl, hcomma, h₂⟩ := List.map_eq_cons_iff.mp hl
    obtain ⟨p₁, q₁, t, rfl, ht⟩ := iht l₁ h₁
    obtain ⟨p₂, q₂, ts, rfl, hts⟩ := ihts l₂ h₂
    exact ⟨_, _, _, rfl, .args ht hcomma hts⟩
  | trueLit =>
    intro l hl
    obtain ⟨lx, rfl, hlx⟩ := List.map_eq_singleton_iff.mp hl
    exact ⟨_, _, _, ParseTree.bare_node _ _, .trueLit hlx⟩
  | falseLit =>
    intro l hl
    obtain ⟨lx, rfl, hlx⟩ := List.map_eq_singleton_iff.mp hl
    exact ⟨_, _, _, ParseTree.bare_node _ _, .falseLit hlx⟩
  | int =>
    intro l hl
    obtain ⟨lx, rfl, hlx⟩ := List.map_eq_singleton_iff.mp hl
    exact ⟨_, _, _, ParseTree.bare_literal _ _, .int hlx⟩
  | name =>
    intro l hl
    obtain ⟨lx, rfl, hlx⟩ := List.map_eq_singleton_iff.mp hl
    exact ⟨_, _, _, ParseTree.bare_node _ _, .name hlx⟩
  | group _ ih =>
    intro l hl
    obtain ⟨opener, _, rfl, hopener, hl⟩ := List.map_eq_cons_iff.mp hl
    obtain ⟨l, _, rfl, h₁, hl⟩ := List.map_eq_append_iff.mp hl
    obtain ⟨closer, rfl, hcloser⟩ := List.map_eq_singleton_iff.mp hl
    obtain ⟨p, q, t, rfl, ht⟩ := ih l h₁
    exact ⟨_, _, _, rfl, .group hopener ht hcloser⟩
  | param _ ih =>
    intro l hl
    obtain ⟨bound, _, rfl, hbound, hl⟩ := List.map_eq_cons_iff.mp hl
    obtain ⟨colon, l, rfl, hcolon, hl⟩ := List.map_eq_cons_iff.mp hl
    obtain ⟨p, q, hτ⟩ := ih l hl
    exact ⟨_, _, .param hbound hcolon hτ⟩
  | params _ _ ihτ ihps =>
    intro l hl
    obtain ⟨bound, _, rfl, hbound, hl⟩ := List.map_eq_cons_iff.mp hl
    obtain ⟨colon, _, rfl, hcolon, hl⟩ := List.map_eq_cons_iff.mp hl
    obtain ⟨l₁, _, rfl, h₁, hl⟩ := List.map_eq_append_iff.mp hl
    obtain ⟨comma, l₂, rfl, hcomma, h₂⟩ := List.map_eq_cons_iff.mp hl
    obtain ⟨p₁, q₁, hτ⟩ := ihτ l₁ h₁
    obtain ⟨p₂, q₂, hps⟩ := ihps l₂ h₂
    exact ⟨_, _, .params hbound hcolon hτ hcomma hps⟩
  | boolean =>
    intro l hl
    obtain ⟨lx, rfl, hlx⟩ := List.map_eq_singleton_iff.mp hl
    exact ⟨_, _, .boolean hlx⟩
  | number =>
    intro l hl
    obtain ⟨lx, rfl, hlx⟩ := List.map_eq_singleton_iff.mp hl
    exact ⟨_, _, .number hlx⟩
  | thunkType _ ih =>
    intro l hl
    obtain ⟨opener, _, rfl, hopener, hl⟩ := List.map_eq_cons_iff.mp hl
    obtain ⟨closer, _, rfl, hcloser, hl⟩ := List.map_eq_cons_iff.mp hl
    obtain ⟨arrow, l, rfl, harrow, hl⟩ := List.map_eq_cons_iff.mp hl
    obtain ⟨p, q, hτ⟩ := ih l hl
    exact ⟨_, _, .thunkType hopener hcloser harrow hτ⟩
  | funcType _ _ ihps ihτ =>
    intro l hl
    obtain ⟨opener, _, rfl, hopener, hl⟩ := List.map_eq_cons_iff.mp hl
    obtain ⟨l₁, _, rfl, h₁, hl⟩ := List.map_eq_append_iff.mp hl
    obtain ⟨closer, _, rfl, hcloser, hl⟩ := List.map_eq_cons_iff.mp hl
    obtain ⟨arrow, l₂, rfl, harrow, h₂⟩ := List.map_eq_cons_iff.mp hl
    obtain ⟨p₁, q₁, hps⟩ := ihps l₁ h₁
    obtain ⟨p₂, q₂, hτ⟩ := ihτ l₂ h₂
    exact ⟨_, _, .funcType hopener hps hcloser harrow hτ⟩
  | typeGroup _ ih =>
    intro l hl
    obtain ⟨opener, _, rfl, hopener, hl⟩ := List.map_eq_cons_iff.mp hl
    obtain ⟨l, _, rfl, h₁, hl⟩ := List.map_eq_append_iff.mp hl
    obtain ⟨closer, rfl, hcloser⟩ := List.map_eq_singleton_iff.mp hl
    obtain ⟨p, q, hτ⟩ := ih l h₁
    exact ⟨_, _, .typeGroup hopener hτ hcloser⟩

/-! ## Literals -/

/-- All that the phrase stands for. -/
def Phrase.parts {T : Type} : Phrase T → List T
  | .program t | .expr t | .sum t | .operand t | .atom t => [t]
  | .args ts => ts
  | .params _ | .type _ => []

/-- The digits and the span of an integer. -/
def Lexeme.int? (source : String) (lx : Lexeme) : Option (String × Span) :=
  match lx.token with
  | .int digits => some (digits, lx.start.spanTo source lx.stop)
  | _ => none

/-- Literals come in post-order as they come in the text: the integers of a phrase are the literals
of what it stands for, one by one. -/
theorem Placed.literals {source : String} {l : List Lexeme} {p q : Position} {x : Phrase ParseTree}
    (h : Placed source l p q x) :
    l.filterMap (Lexeme.int? source) = x.parts.flatMap ParseTree.literals := by
  -- the children of a node stand in the order of its phrases, and no other token is an integer
  induction h <;>
    simp only [Lexeme.int?, List.filterMap_append, List.filterMap_cons, List.filterMap_nil,
      Phrase.parts, List.flatMap_cons, List.flatMap_nil, List.append_nil, List.nil_append,
      ParseTree.literals_node, ParseTree.literals_literal, Layer.children, *] at *

/-- So the first literal with too many digits is the first such token. -/
theorem Placed.firstExcess? {source : String} {l : List Lexeme} {p q : Position} {t : ParseTree}
    (h : Placed source l p q (.program t)) :
    ParseTree.firstExcess? t.literals = (l.map Lexeme.token).findSome? Token.excessDigits? := by
  have hliterals : l.filterMap (Lexeme.int? source) = t.literals := by
    simpa [Phrase.parts] using h.literals
  have hint (lx : Lexeme) : (lx.int? source).bind (fun int => Parser.excessDigits? int.1) =
      lx.token.excessDigits? := by
    unfold Lexeme.int?
    cases lx.token <;> rfl
  rw [ParseTree.firstExcess?, ← hliterals, ← List.head?_filterMap, ← List.head?_filterMap,
    List.filterMap_map, List.filterMap_filterMap]
  exact congrArg (fun f => (l.filterMap f).head?) (funext hint)

end ArrowLang
