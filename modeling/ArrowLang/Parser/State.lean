import ArrowLang.Parser.Tree
import ArrowLang.Token

/-!
# ArrowLang.Parser.State

The states of the parser, which reads one token at a time.

```
program ::= expr [";"] | expr ";" program | "const" NAME "=" expr ";" program
expr    ::= sum "?" expr ":" expr | "(" [params] ")" "=>" expr | sum
sum     ::= [sum "+"] operand
operand ::= operand "(" [expr ("," expr)*] ")" | atom
atom    ::= "true" | "false" | INT | NAME | "(" program ")"
params  ::= NAME ":" type ("," NAME ":" type)*
type    ::= "boolean" | "number" | "(" [params] ")" "=>" type | "(" type ")"
```

* `Frame`: a phrase that has begun, with a gap for the part that is being read.
* `Control`: the place within the innermost part.
* `closeSum`, `closeExpr`, `closeProgram`, `closeType`: fill the gaps of all phrases that end
  together with the part just read.
-/

namespace ArrowLang
namespace Parser

/-- A tree with the stretch of text it takes up. Parentheses around it and a `;` that closes it
belong to the stretch, but not to the tree's own span. -/
structure Piece where
  tree : ParseTree
  start : Position
  stop : Position

/-- A new node over the stretch from `start` to `stop`. -/
def Piece.ofLayer (source : String) (layer : Layer ParseTree) (start stop : Position) : Piece :=
  ⟨.node layer (start.spanTo source stop), start, stop⟩

/-- A literal over the stretch from `start` to `stop`. -/
def Piece.ofDigits (source digits : String) (start stop : Position) : Piece :=
  ⟨.literal digits (start.spanTo source stop), start, stop⟩

/-- What a parameter list belongs to: a function that starts at a place, or a function type. -/
inductive Owner where
  | func (start : Position)
  | type

inductive Frame where
  /-- `left + ·` -/
  | sum (left : Piece)
  /-- `cond ? · : onFalse` -/
  | onTrue (cond : Piece)
  /-- `cond ? onTrue : ·` -/
  | onFalse (cond onTrue : Piece)
  /-- `(params) => ·` -/
  | body (start : Position) (params : List (Param Ty))
  /-- `callee(args, ·`, the newest argument first -/
  | argument (callee : Piece) (args : List ParseTree)
  /-- `(·)` around a program -/
  | group (start : Position)
  /-- `first; ·` -/
  | rest (first : Piece)
  /-- `const name = ·;` -/
  | init (start : Position) (name : String)
  /-- `const name = init; ·` -/
  | scope (start : Position) (name : String) (init : ParseTree)
  /-- `(params, name: ·`, the newest parameter first -/
  | paramType (owner : Owner) (params : List (Param Ty)) (name : String)
  /-- `(params) => ·` in a type -/
  | result (params : List (Param Ty))
  /-- `(·)` around a type -/
  | typeGroup

inductive Control where
  /-- before a program -/
  | program
  /-- before an expression -/
  | expr
  /-- before an operand of `+` -/
  | operand
  /-- after an operand -/
  | operandEnd (p : Piece)
  /-- after the `;` that ends at `stop` and follows a statement -/
  | statementEnd (p : Piece) (stop : Position)
  /-- after the `(` of a call -/
  | callOpen (callee : Piece)
  /-- after a `(` where an expression starts: a function or a group -/
  | opened (start : Position)
  /-- after such a `(` and a name -/
  | openedName (start : Position) (name : Piece) (text : String)
  /-- after `const` -/
  | constOpen (start : Position)
  /-- after `const name` -/
  | constName (start : Position) (name : String)
  /-- before the name of a further parameter -/
  | paramOpen (owner : Owner) (params : List (Param Ty))
  /-- after the name of a parameter -/
  | paramName (owner : Owner) (params : List (Param Ty)) (name : String)
  /-- after a parameter list -/
  | arrow (owner : Owner) (params : List (Param Ty))
  /-- before a type -/
  | type
  /-- after a `(` where a type starts -/
  | typeOpen
  /-- after a type -/
  | typeEnd (τ : Ty)

structure State where
  control : Control
  frames : List Frame

/-- The state before the first token. -/
def State.initial : State := ⟨.program, []⟩

/-- Closes the sum that ends with the operand `p`. -/
def closeSum (source : String) (p : Piece) : List Frame → Piece × List Frame
  | .sum left :: frames =>
    (.ofLayer source (.add left.tree p.tree) left.start p.stop, frames)
  | frames => (p, frames)

/-- Closes the conditionals and functions that end with the expression `p`. -/
def closeExpr (source : String) (p : Piece) : List Frame → Piece × List Frame
  | .onFalse cond onTrue :: frames =>
    closeExpr source
      (.ofLayer source (.ite cond.tree onTrue.tree p.tree) cond.start p.stop) frames
  | .body start params :: frames =>
    closeExpr source (.ofLayer source (.func params p.tree) start p.stop) frames
  | frames => (p, frames)

/-- Closes the sequences and bindings that end with the program `p`. -/
def closeProgram (source : String) (p : Piece) : List Frame → Piece × List Frame
  | .rest first :: frames =>
    closeProgram source (.ofLayer source (.seq first.tree p.tree) first.start p.stop) frames
  | .scope start name init :: frames =>
    closeProgram source (.ofLayer source (.const name init p.tree) start p.stop) frames
  | frames => (p, frames)

/-- Closes the function types that end with the type `τ`. -/
def closeType (τ : Ty) : List Frame → Ty × List Frame
  | .result params :: frames => closeType (.func params τ) frames
  | frames => (τ, frames)

/-- The innermost phrase is one that a program stands in: the whole text, a group, or the part
after a `;`. -/
def inProgram : List Frame → Bool
  | [] => true
  | .group _ :: _ => true
  | .rest _ :: _ => true
  | .scope _ _ _ :: _ => true
  | _ => false

end Parser
end ArrowLang
