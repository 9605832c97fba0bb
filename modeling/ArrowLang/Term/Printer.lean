import ArrowLang.Term.Walk
import ArrowLang.Text.Decimal
import ArrowLang.Ty.Render

/-!
# ArrowLang.Term.Printer

Terms as program text. Expressions are fully parenthesized, and a sequence is put in parentheses
wherever it stands inside an expression, so that reading the text gives the term back.

A number is written out in up to `maxDigits` digits. The first literal with more of them, or the
first node of unknown variant if that comes before it, is what a term cannot be printed for.
-/

namespace ArrowLang

/-- Why a term cannot be printed. -/
inductive PrintFailure where
  | fault (f : Fault)
  | tooManyDigits
  deriving DecidableEq

def PrintFailure.message : PrintFailure → String
  | .fault f => f.message
  | .tooManyDigits =>
    "Exceeds the limit (" ++ toString maxDigits ++ " digits) for integer string conversion; " ++
      "use sys.set_int_max_str_digits() to increase the limit"

instance : MonadExceptOf Fault (Except PrintFailure) where
  throw f := .error (.fault f)
  tryCatch
    | .error (.fault f), handle => handle f
    | other, _ => other

/-- A number in decimal digits; its sign is not counted among them. -/
def numeral (n : Int) : Except PrintFailure String :=
  if (toString n.natAbs).length ≤ maxDigits then .ok (toString n) else .error .tooManyDigits

/-- A piece of program text. A `sequence` holds statements and cannot stand inside an expression
as it is. -/
structure Doc where
  text : String
  sequence : Bool

namespace Doc

/-- The text of `d` for use inside an expression. -/
def embed (d : Doc) : String :=
  if d.sequence then "(" ++ d.text ++ ")" else d.text

/-- The text of one node over the texts of its children. -/
def ofLayer : Layer Doc → Except PrintFailure Doc
  | .bool true => return ⟨"true", false⟩
  | .bool false => return ⟨"false", false⟩
  | .number n => return ⟨← numeral n, false⟩
  | .add left right => return ⟨"(" ++ left.embed ++ " + " ++ right.embed ++ ")", false⟩
  | .ite cond onTrue onFalse =>
    return ⟨"(" ++ cond.embed ++ " ? " ++ onTrue.embed ++ " : " ++ onFalse.embed ++ ")", false⟩
  | .var name => return ⟨name, false⟩
  | .func params body =>
    return ⟨"((" ++ ", ".intercalate (params.map Param.render) ++ ") => " ++ body.embed ++ ")",
      false⟩
  | .call callee args =>
    return ⟨callee.embed ++ "(" ++ ", ".intercalate (args.map embed) ++ ")", false⟩
  | .seq first rest => return ⟨first.embed ++ "; " ++ rest.text, true⟩
  | .const name init rest =>
    return ⟨"const " ++ name ++ " = " ++ init.embed ++ "; " ++ rest.text, true⟩

end Doc

/-- A term as program text. -/
def Term.render (t : Term) : Except PrintFailure String :=
  Doc.text <$> t.fold fun layer _ => Doc.ofLayer layer

end ArrowLang
