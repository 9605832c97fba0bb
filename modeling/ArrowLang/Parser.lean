import ArrowLang.Parser.State
import ArrowLang.Text.Decimal
import ArrowLang.Text.Quoted
import ArrowLang.Token.Lexer

/-!
# ArrowLang.Parser

From program text to terms.

* `Parser.feed`: the state after one more token, if some program goes on with that token.
* `Parser.finish`: the program read, if the text may end here.
* `Parser.readTree`: the tree of a text. The text is rejected at the first token, or at the first
  character that starts no token, with which no program goes on.
* `parse`: the term of a text. Only a text that has a tree is rejected for a literal that is too
  long.

These functions take the place of a parser that is generated from the grammar. What they say beyond
the grammar are facts about such a parser:

* It asks for one token at a time, so a token that no program goes on with is noticed before a
  character further on that starts no token (`readTree`).
* It rejects a token as soon as no program goes on with it, whatever phrases it could still have
  closed in front of the token (`feed`).
* A phrase with one part is that part and has no node of its own. Brackets and a `;` around a part
  count for the extent of a phrase that it is in, but not for its own span (`Piece`).
* Nodes are handed over to be built once the whole text has been read, in post-order and children
  from left to right (`ParseTree.build`).
* What it rejects is the end of the text, a token, a character, or something of which no more is
  known than a place, if that (`Rejection`).
-/

namespace ArrowLang

namespace Parser

/-- The atom that is a single token. -/
def atom? (source : String) (lx : Lexeme) : Option Piece :=
  match lx.token with
  | .keyword .trueLit => some (.ofLayer source (.bool true) lx.start lx.stop)
  | .keyword .falseLit => some (.ofLayer source (.bool false) lx.start lx.stop)
  | .int digits => some (.ofDigits source digits lx.start lx.stop)
  | .name text => some (.ofLayer source (.var text) lx.start lx.stop)
  | _ => none

/-- Reads `lx` at the start of an operand of `+`. -/
def feedOperand (source : String) (frames : List Frame) (lx : Lexeme) : Option State :=
  match lx.token with
  | .symbol .openParen => some ⟨.program, .group lx.start :: frames⟩
  | _ => (atom? source lx).map fun p => ⟨.operandEnd p, frames⟩

/-- Reads `lx` at the start of an expression. -/
def feedExpr (source : String) (frames : List Frame) (lx : Lexeme) : Option State :=
  match lx.token with
  | .symbol .openParen => some ⟨.opened lx.start, frames⟩
  | _ => (atom? source lx).map fun p => ⟨.operandEnd p, frames⟩

/-- Reads `lx` at the start of a program. -/
def feedProgram (source : String) (frames : List Frame) (lx : Lexeme) : Option State :=
  match lx.token with
  | .keyword .const => some ⟨.constOpen lx.start, frames⟩
  | _ => feedExpr source frames lx

/-- Reads a `)` that ends the program `p`. -/
def closeGroup (source : String) (p : Piece) (frames : List Frame) (lx : Lexeme) : Option State :=
  match closeProgram source p frames with
  | (p, .group start :: frames) => some ⟨.operandEnd ⟨p.tree, start, lx.stop⟩, frames⟩
  | _ => none

/-- Reads `lx` after the expression `p`. -/
def feedExprEnd (source : String) (p : Piece) (frames : List Frame) (lx : Lexeme) : Option State :=
  match lx.token, closeExpr source p frames with
  | .symbol .colon, (p, .onTrue cond :: frames) => some ⟨.expr, .onFalse cond p :: frames⟩
  | .symbol .comma, (p, .argument callee args :: frames) =>
    some ⟨.expr, .argument callee (p.tree :: args) :: frames⟩
  | .symbol .closeParen, (p, .argument callee args :: frames) =>
    some ⟨.operandEnd (.ofLayer source (.call callee.tree (p.tree :: args).reverse)
      callee.start lx.stop), frames⟩
  | .symbol .semicolon, (p, .init start name :: frames) =>
    some ⟨.program, .scope start name p.tree :: frames⟩
  | .symbol .semicolon, (p, frames) =>
    if inProgram frames then some ⟨.statementEnd p lx.stop, frames⟩ else none
  | .symbol .closeParen, (p, frames) => closeGroup source p frames lx
  | _, _ => none

/-- Reads `lx` after the operand `p`. -/
def feedOperandEnd (source : String) (p : Piece) (frames : List Frame) (lx : Lexeme) :
    Option State :=
  match lx.token with
  | .symbol .openParen => some ⟨.callOpen p, frames⟩
  | .symbol .plus =>
    let (p, frames) := closeSum source p frames
    some ⟨.operand, .sum p :: frames⟩
  | .symbol .question =>
    let (p, frames) := closeSum source p frames
    some ⟨.expr, .onTrue p :: frames⟩
  | _ =>
    let (p, frames) := closeSum source p frames
    feedExprEnd source p frames lx

/-- Reads `lx` at the start of a type. -/
def feedType (frames : List Frame) (lx : Lexeme) : Option State :=
  match lx.token with
  | .keyword .boolean => some ⟨.typeEnd .boolean, frames⟩
  | .keyword .number => some ⟨.typeEnd .number, frames⟩
  | .symbol .openParen => some ⟨.typeOpen, frames⟩
  | _ => none

/-- Reads `lx` after the type `τ`. -/
def feedTypeEnd (τ : Ty) (frames : List Frame) (lx : Lexeme) : Option State :=
  match lx.token, closeType τ frames with
  | .symbol .closeParen, (τ, .typeGroup :: frames) => some ⟨.typeEnd τ, frames⟩
  | .symbol .comma, (τ, .paramType owner params name :: frames) =>
    some ⟨.paramOpen owner (⟨name, τ⟩ :: params), frames⟩
  | .symbol .closeParen, (τ, .paramType owner params name :: frames) =>
    some ⟨.arrow owner (⟨name, τ⟩ :: params).reverse, frames⟩
  | _, _ => none

/-- Reads one more token. -/
def feed (source : String) (s : State) (lx : Lexeme) : Option State :=
  match s.control with
  | .program => feedProgram source s.frames lx
  | .expr => feedExpr source s.frames lx
  | .operand => feedOperand source s.frames lx
  | .operandEnd p => feedOperandEnd source p s.frames lx
  | .statementEnd p stop =>
    match lx.token with
    | .symbol .closeParen => closeGroup source { p with stop } s.frames lx
    | _ => feedProgram source (.rest p :: s.frames) lx
  | .callOpen callee =>
    match lx.token with
    | .symbol .closeParen =>
      some ⟨.operandEnd (.ofLayer source (.call callee.tree []) callee.start lx.stop), s.frames⟩
    | _ => feedExpr source (.argument callee [] :: s.frames) lx
  | .opened start =>
    match lx.token with
    | .symbol .closeParen => some ⟨.arrow (.func start) [], s.frames⟩
    | .name text =>
      some ⟨.openedName start (.ofLayer source (.var text) lx.start lx.stop) text, s.frames⟩
    | _ => feedProgram source (.group start :: s.frames) lx
  | .openedName start name text =>
    match lx.token with
    | .symbol .colon => some ⟨.type, .paramType (.func start) [] text :: s.frames⟩
    | _ => feedOperandEnd source name (.group start :: s.frames) lx
  | .constOpen start =>
    match lx.token with
    | .name text => some ⟨.constName start text, s.frames⟩
    | _ => none
  | .constName start name =>
    match lx.token with
    | .symbol .equals => some ⟨.expr, .init start name :: s.frames⟩
    | _ => none
  | .paramOpen owner params =>
    match lx.token with
    | .name text => some ⟨.paramName owner params text, s.frames⟩
    | _ => none
  | .paramName owner params name =>
    match lx.token with
    | .symbol .colon => some ⟨.type, .paramType owner params name :: s.frames⟩
    | _ => none
  | .arrow owner params =>
    match lx.token, owner with
    | .symbol .arrow, .func start => some ⟨.expr, .body start params :: s.frames⟩
    | .symbol .arrow, .type => some ⟨.type, .result params :: s.frames⟩
    | _, _ => none
  | .type => feedType s.frames lx
  | .typeOpen =>
    match lx.token with
    | .symbol .closeParen => some ⟨.arrow .type [], s.frames⟩
    | .name text => some ⟨.paramName .type [] text, s.frames⟩
    | _ => feedType (.typeGroup :: s.frames) lx
  | .typeEnd τ => feedTypeEnd τ s.frames lx

/-- Reads tokens in turn, up to the first that cannot be read. -/
def feedAll (source : String) (s : State) : List Lexeme → Except Lexeme State
  | [] => .ok s
  | lx :: lxs =>
    match feed source s lx with
    | some s => feedAll source s lxs
    | none => .error lx

/-- The whole program `p`, if no phrase is left open around it. -/
def closeAll (source : String) (p : Piece) (frames : List Frame) : Option ParseTree :=
  match closeProgram source p frames with
  | (p, []) => some p.tree
  | _ => none

/-- The program read, if it may end here. -/
def finish (source : String) (s : State) : Option ParseTree :=
  match s.control with
  | .operandEnd p =>
    let (p, frames) := closeSum source p s.frames
    let (p, frames) := closeExpr source p frames
    closeAll source p frames
  | .statementEnd p stop => closeAll source { p with stop } s.frames
  | _ => none

/-- What stops the reading of a text. -/
inductive Rejection where
  /-- the end of the text, where no program ends -/
  | textEnd
  /-- a token with which no program goes on -/
  | token (lx : Lexeme)
  /-- a character that starts no token -/
  | character (c : Char) (p : Position)
  /-- anything else, with its line and its column counted from one. If it has no place, its line is
  negative. -/
  | other (line column : Int)

/-- The tree of a text. -/
def readTree (text source : String) : Except Rejection ParseTree :=
  let scan := Scan.ofText text
  match feedAll source .initial scan.lexemes with
  | .error lx => .error (.token lx)
  | .ok s =>
    match scan.ending with
    | .stuck c p => .error (.character c p)
    | .textEnd _ =>
      match finish source s with
      | none => .error .textEnd
      | some t => .ok t

end Parser

/-- Why a text is not a program. -/
inductive Unexpected where
  | endOfInput
  | token (text : String)
  | character (c : Char)
  | syntaxError
  /-- a complaint in words of its own, which is not about the form of a text -/
  | other (complaint : String)

def Unexpected.message : Unexpected → String
  | .endOfInput => "unexpected end of input"
  | .token text => "unexpected token " ++ Text.quote text
  | .character c => "unexpected character " ++ Text.quote (String.singleton c)
  | .syntaxError => "syntax error"
  | .other complaint => complaint

/-- A complaint about a text, and the span it is about. -/
structure ParseError where
  cause : Unexpected
  span : Span

namespace ParseError

def message (e : ParseError) : String :=
  e.span.render ++ " " ++ e.cause.message

/-- A complaint about no more than the place `a`. -/
def point (cause : Unexpected) (a : Location) : ParseError := ⟨cause, ⟨a, a⟩⟩

/-- The complaint about a text, named `source`, that is rejected. -/
def ofRejection (text source : String) : Parser.Rejection → ParseError
  | .textEnd => point .endOfInput ((Position.after text.toList).locate source)
  | .token lx => ⟨.token lx.token.text, lx.start.spanTo source lx.stop⟩
  | .character c p => ⟨.character c, p.spanTo source ⟨p.line, p.column + 1⟩⟩
  | .other line column =>
    if 0 < line then point .syntaxError ⟨line, column - 1, some source⟩
    else point .syntaxError ((Position.after text.toList).locate source)

end ParseError

/-- Why a text has no term: it is no program, or it is one with a literal of too many digits. -/
inductive ParseFailure where
  | malformed (e : ParseError)
  | literalTooLong (digits : Nat)

def ParseFailure.message : ParseFailure → String
  | .malformed e => e.message
  | .literalTooLong digits =>
    "Error trying to process rule \"number\":\n\nExceeds the limit (" ++ toString maxDigits ++
      " digits) for integer string conversion: value has " ++ toString digits ++
      " digits; use sys.set_int_max_str_digits() to increase the limit"

/-- The term of a text. Spans carry the name `sourceName source`. -/
def parse (text : String) (source : Option String) : Except ParseFailure Term :=
  let name := sourceName source
  match Parser.readTree text name with
  | .error r => .error (.malformed (.ofRejection text name r))
  | .ok tree => tree.build.mapError .literalTooLong

end ArrowLang
