import ArrowLang.Parser
import ArrowLang.Proofs.Recursion

/-!
# ArrowLang.Proofs.Grammar

The grammar of programs, over tokens.

* `Phrase`: a kind of phrase, with what a phrase of that kind stands for.
* `Derives w x`: the tokens `w` are a phrase that stands for `x`.

Terms are built without spans, since the grammar knows nothing of places in a text.
-/

namespace ArrowLang

/-- What a phrase stands for, with a `T` for every term. Sums are `+` over operands, operands are
calls over atoms. -/
inductive Phrase (T : Type) where
  | program (t : T)
  | expr (t : T)
  | sum (t : T)
  | operand (t : T)
  | atom (t : T)
  | args (ts : List T)
  | params (ps : List (Param Ty))
  | type (τ : Ty)

/-- A node without a place in a text. -/
def Term.bare (layer : Layer Term) : Term := .node layer .unknown

open Term (bare)

inductive Derives : List Token → Phrase Term → Prop where
  -- programs
  | expr {w : List Token} {t : Term} : Derives w (.expr t) → Derives w (.program t)
  | statement {w : List Token} {t : Term} :
      Derives w (.expr t) → Derives (w ++ [.symbol .semicolon]) (.program t)
  | seq {w v : List Token} {t u : Term} :
      Derives w (.expr t) → Derives v (.program u) →
      Derives (w ++ .symbol .semicolon :: v) (.program (bare (.seq t u)))
  | const {name : String} {w v : List Token} {t u : Term} :
      Derives w (.expr t) → Derives v (.program u) →
      Derives (.keyword .const :: .name name :: .symbol .equals :: w ++ .symbol .semicolon :: v)
        (.program (bare (.const name t u)))
  -- expressions
  | sum {w : List Token} {t : Term} : Derives w (.sum t) → Derives w (.expr t)
  | ite {w v u : List Token} {c a b : Term} :
      Derives w (.sum c) → Derives v (.expr a) → Derives u (.expr b) →
      Derives (w ++ .symbol .question :: v ++ .symbol .colon :: u) (.expr (bare (.ite c a b)))
  | thunk {w : List Token} {t : Term} :
      Derives w (.expr t) →
      Derives (.symbol .openParen :: .symbol .closeParen :: .symbol .arrow :: w)
        (.expr (bare (.func [] t)))
  | func {v w : List Token} {ps : List (Param Ty)} {t : Term} :
      Derives v (.params ps) → Derives w (.expr t) →
      Derives (.symbol .openParen :: v ++ .symbol .closeParen :: .symbol .arrow :: w)
        (.expr (bare (.func ps t)))
  -- sums
  | operand {w : List Token} {t : Term} : Derives w (.operand t) → Derives w (.sum t)
  | add {w v : List Token} {a b : Term} :
      Derives w (.sum a) → Derives v (.operand b) →
      Derives (w ++ .symbol .plus :: v) (.sum (bare (.add a b)))
  -- operands
  | atom {w : List Token} {t : Term} : Derives w (.atom t) → Derives w (.operand t)
  | run {w : List Token} {f : Term} :
      Derives w (.operand f) →
      Derives (w ++ [.symbol .openParen, .symbol .closeParen]) (.operand (bare (.call f [])))
  | call {w v : List Token} {f : Term} {ts : List Term} :
      Derives w (.operand f) → Derives v (.args ts) →
      Derives (w ++ .symbol .openParen :: v ++ [.symbol .closeParen])
        (.operand (bare (.call f ts)))
  -- arguments
  | arg {w : List Token} {t : Term} : Derives w (.expr t) → Derives w (.args [t])
  | args {w v : List Token} {t : Term} {ts : List Term} :
      Derives w (.expr t) → Derives v (.args ts) →
      Derives (w ++ .symbol .comma :: v) (.args (t :: ts))
  -- atoms
  | trueLit : Derives [.keyword .trueLit] (.atom (bare (.bool true)))
  | falseLit : Derives [.keyword .falseLit] (.atom (bare (.bool false)))
  | int {digits : String} :
      Derives [.int digits] (.atom (bare (.number (Parser.literalValue digits))))
  | name {name : String} : Derives [.name name] (.atom (bare (.var name)))
  | group {w : List Token} {t : Term} :
      Derives w (.program t) →
      Derives (.symbol .openParen :: w ++ [.symbol .closeParen]) (.atom t)
  -- parameters
  | param {name : String} {w : List Token} {τ : Ty} :
      Derives w (.type τ) → Derives (.name name :: .symbol .colon :: w) (.params [⟨name, τ⟩])
  | params {name : String} {w v : List Token} {τ : Ty} {ps : List (Param Ty)} :
      Derives w (.type τ) → Derives v (.params ps) →
      Derives (.name name :: .symbol .colon :: w ++ .symbol .comma :: v) (.params (⟨name, τ⟩ :: ps))
  -- types
  | boolean : Derives [.keyword .boolean] (.type .boolean)
  | number : Derives [.keyword .number] (.type .number)
  | thunkType {w : List Token} {τ : Ty} :
      Derives w (.type τ) →
      Derives (.symbol .openParen :: .symbol .closeParen :: .symbol .arrow :: w)
        (.type (.func [] τ))
  | funcType {v w : List Token} {ps : List (Param Ty)} {τ : Ty} :
      Derives v (.params ps) → Derives w (.type τ) →
      Derives (.symbol .openParen :: v ++ .symbol .closeParen :: .symbol .arrow :: w)
        (.type (.func ps τ))
  | typeGroup {w : List Token} {τ : Ty} :
      Derives w (.type τ) →
      Derives (.symbol .openParen :: w ++ [.symbol .closeParen]) (.type τ)

end ArrowLang
