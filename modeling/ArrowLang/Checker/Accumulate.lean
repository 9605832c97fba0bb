import ArrowLang.Term.Walk
import ArrowLang.Ty.Equality
import ArrowLang.Verdict.Candidate

/-!
# ArrowLang.Checker.Accumulate

The typing rules that go on after a violation, for literals, `+` and conditionals. Violations in
independent parts are all kept, in evaluation order. Other nodes are outside of this fragment; each
of them is reported as such, whatever stands inside of it.
-/

namespace ArrowLang
namespace Accumulate

def outside (span : Span) (what : String) : Except Fault (Verdict Ty) :=
  Verdict.reject [.ofCode .notImplemented span (some what)]

/-- The verdict on an operand of `+`, which has to be a number. -/
def operand (c : Child (Verdict Ty)) : Except Fault (Verdict Ty) :=
  match c.out with
  | .ok .number => .ok (.ok .number)
  | .ok _ => Verdict.reject [.ofCode .operandNotNumber c.span]
  | .error ds => .ok (.error ds)

/-- The complaint about a condition that has a type other than boolean. -/
def condition (c : Child (Verdict Ty)) : List Diagnostic :=
  match c.out with
  | .ok .boolean => []
  | .ok _ => [.ofCode .conditionNotBoolean c.span]
  | .error _ => []

/-- The complaint about branches that both have a type, but different ones. -/
def branches (span : Span) : Verdict Ty → Verdict Ty → List Diagnostic
  | .ok σ, .ok τ => if σ.equal τ then [] else [.ofCode .branchesDiffer span]
  | _, _ => []

/-- All complaints about a conditional. -/
def found (span : Span) (cond onTrue onFalse : Child (Verdict Ty)) : List Diagnostic :=
  Verdict.errors cond.out ++ Verdict.errors onTrue.out ++ Verdict.errors onFalse.out ++
    condition cond ++ branches span onTrue.out onFalse.out

/-- The verdict on a node, from the verdicts on its children. -/
def rule : Layer (Child (Verdict Ty)) → Span → Except Fault (Verdict Ty)
  | .bool _, _ => .ok (.ok .boolean)
  | .number _, _ => .ok (.ok .number)
  | .add left right, _ => do
    let l ← operand left
    let r ← operand right
    Candidate.map2 Ty.inFull Ty.inFull (fun _ _ => .number) (.verdict l) (.verdict r)
  | .ite cond onTrue onFalse, span =>
    match found span cond onTrue onFalse with
    | [] => .ok onTrue.out
    | ds => Verdict.reject ds
  | .var _, span => outside span "variable"
  | .func _ _, span => outside span "function"
  | .call _ _, span => outside span "call"
  | .seq _ _, span => outside span "sequence"
  | .const _ _ _, span => outside span "const"

/-- The verdict on a term. -/
def verdict (t : Term) : Except Fault (Verdict Ty) := t.para rule

end Accumulate
end ArrowLang
