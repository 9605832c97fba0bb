import ArrowLang.Comp
import ArrowLang.Env
import ArrowLang.Term.Walk
import ArrowLang.Ty.Equality

/-!
# ArrowLang.Checker.FailFast

The typing rules of the whole language, as computations that stop at the first violation. A rule
enters each child across a boundary, from left to right, and judges the types of the children only
when it has all of them. So the violation reported is the first in evaluation order.
-/

namespace ArrowLang

/-- A check of a term: it reads the type environment and ends with a type. -/
abbrev Check := Comp Env Ty

namespace FailFast

def reject (code : Code) (span : Span) (detail : Option String := none) : Check :=
  .fail (.ofCode code span detail)

/-- Both operands of `+` are numbers. The spans are those of the operands. -/
def sumRule (left right : Span) : Ty → Ty → Check
  | .number, .number => .pure .number
  | .number, _ => reject .operandNotNumber right
  | _, _ => reject .operandNotNumber left

/-- The condition is a boolean and the branches agree; the conditional has the type of the first
branch. -/
def iteRule (cond whole : Span) : Ty → Ty → Ty → Check
  | .boolean, τ, υ => if τ.equal υ then .pure τ else reject .branchesDiffer whole
  | _, _, _ => reject .conditionNotBoolean cond

def varRule (name : String) (span : Span) : Option Ty → Check
  | some τ => .pure τ
  | none => reject .unknownVariable span (some name)

/-- The span of the first argument whose type is not that of its parameter. -/
def mismatch? (params : List (Param Ty)) (args : List Span) (τs : List Ty) : Option Span :=
  ((params.zip (args.zip τs)).find? fun x => !x.1.type.equal x.2.2).map fun x => x.2.1

/-- The callee is a function of as many parameters as there are arguments, and these have the types
of the parameters. -/
def callRule (callee whole : Span) (args : List Span) : Ty → List Ty → Check
  | .func params ret, τs =>
    if params.length = τs.length then
      match mismatch? params args τs with
      | some span => reject .argumentType span
      | none => .pure ret
    else reject .argumentCount whole
  | _, _ => reject .functionExpected callee

/-- The bindings that a parameter list makes. -/
def paramBindings (params : List (Param Ty)) : Bindings :=
  params.map fun p => (p.name, p.type)

/-- The check of a node, from the checks of its children. -/
def rule : Layer (Child Check) → Span → Check
  | .bool _, _ => .pure .boolean
  | .number _, _ => .pure .number
  | .add left right, _ =>
    .bind (.suspend left.out) fun σ =>
    .bind (.suspend right.out) fun τ => sumRule left.span right.span σ τ
  | .ite cond onTrue onFalse, span =>
    .bind (.suspend cond.out) fun γ =>
    .bind (.suspend onTrue.out) fun σ =>
    .bind (.suspend onFalse.out) fun τ => iteRule cond.span span γ σ τ
  | .var name, span => .bind (.asks fun env => env.lookup name) (varRule name span)
  | .func params body, _ =>
    .map (.func params) (.within (fun env => env.extend (paramBindings params)) (.suspend body.out))
  | .call callee args, span =>
    .bind (.suspend callee.out) fun φ =>
    .bind (.sequence (args.map fun arg => .suspend arg.out)) fun τs =>
    callRule callee.span span (args.map Child.span) φ τs
  | .seq first rest, _ => .andThen (.suspend first.out) (.suspend rest.out)
  | .const name init rest, _ =>
    .bind (.suspend init.out) fun τ =>
    .within (fun env => env.extend [(name, τ)]) (.suspend rest.out)

/-- The check of a term. -/
def build (t : Term) : Except Fault Check := t.para fun layer span => pure (rule layer span)

end FailFast

end ArrowLang
