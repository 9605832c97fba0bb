import ArrowLang.Entries
import ArrowLang.Ty.Render

/-!
# ArrowLang.Env

Type environments. Two strategies share one contract: extending an environment gives a new one and
leaves the old one as it was.

* `Env.chain`: a chain of scopes, the innermost first. Extending adds a scope in front; looking up
  goes through the chain.
* `Env.copy`: one scope. Extending copies it.

Bindings are listed in the order in which their names were first bound, each with its last type.
-/

namespace ArrowLang

abbrev Bindings := List (String × Ty)

/-- Names with their types, each name once, in the order of their first binding. -/
structure Scope where
  entries : Bindings

namespace Scope

def empty : Scope := ⟨[]⟩

def isEmpty (s : Scope) : Bool := s.entries.isEmpty

def get? (s : Scope) (name : String) : Option Ty := s.entries.lookup name

def binds (s : Scope) (name : String) : Bool := s.entries.any fun e => e.1 == name

/-- Binds `name` to `τ`. A name that is bound already keeps its place. -/
def bind (s : Scope) (name : String) (τ : Ty) : Scope :=
  ⟨putEntry s.entries name τ⟩

/-- Binds the names of `bindings` in turn. -/
def bindAll (s : Scope) (bindings : Bindings) : Scope :=
  bindings.foldl (fun s b => s.bind b.1 b.2) s

def ofBindings (bindings : Bindings) : Scope := empty.bindAll bindings

end Scope

inductive Strategy where
  | chain
  | copy
  deriving DecidableEq

def Strategy.name : Strategy → String
  | .chain => "chain"
  | .copy => "copy"

/-- The strategy of that name, if there is one. -/
def Strategy.ofName? (name : String) : Option Strategy :=
  [.chain, .copy].find? fun s => s.name == name

inductive Env where
  | chain (innermost : Scope) (outer : List Scope)
  | copy (bindings : Scope)

namespace Env

def empty : Strategy → Env
  | .chain => .chain .empty []
  | .copy => .copy .empty

/-- The environment is its own extension by `bindings`: a chain grows by non-empty scopes only. -/
def isOwnExtension : Env → Bindings → Bool
  | .chain _ _, bindings => bindings.isEmpty
  | .copy _, _ => false

/-- The environment with `bindings` on top; among them the last binding of a name counts. -/
def extend : Env → Bindings → Env
  | .chain innermost outer, bindings =>
    if bindings.isEmpty then .chain innermost outer
    else .chain (.ofBindings bindings) (innermost :: outer)
  | .copy scope, bindings => .copy (scope.bindAll bindings)

/-- The environment with a further scope, which may be empty. A copying environment takes the
bindings in. -/
def addScope : Env → Bindings → Env
  | .chain innermost outer, bindings => .chain (.ofBindings bindings) (innermost :: outer)
  | .copy scope, bindings => .copy (scope.bindAll bindings)

def ofBindings (strategy : Strategy) (bindings : Bindings) : Env :=
  (empty strategy).extend bindings

/-- The type of `name` in the innermost scope that binds it. A copying environment has one scope to
ask. -/
def lookup : Env → String → Option Ty
  | .chain innermost outer, name => (innermost :: outer).findSome? (·.get? name)
  | .copy bindings, name => bindings.get? name

/-- All visible bindings as one scope. Those of a chain are put together from the outermost scope
inwards; a copying environment has them so already. -/
def flatten : Env → Scope
  | .chain innermost outer =>
    (innermost :: outer).reverse.foldl (fun s t => s.bindAll t.entries) .empty
  | .copy bindings => bindings

/-- The number of scopes around the innermost one; a copying environment has no such number. -/
def depth? : Env → Option Nat
  | .chain _ outer => some outer.length
  | .copy _ => none

/-- The visible names in the order of their first binding. -/
def names (env : Env) : List String := env.flatten.entries.map Prod.fst

/-- The visible names in alphabetical order, by code point. -/
def sortedNames (env : Env) : List String := env.names.mergeSort fun a b => !decide (b < a)

/-- What is asked for in a test of membership: a name, or some other value, which may be of a kind
that cannot serve as a key. -/
inductive Key where
  | name (text : String)
  | other (usable : Bool)

/-- Membership. A chain looks up names and has no other value for a member. A copying environment
asks its one scope for the key; it cannot be asked for a value that is no key, and then has no
answer. -/
def contains? : Env → Key → Option Bool
  | .chain innermost outer, .name text => some ((chain innermost outer).lookup text).isSome
  | .chain _ _, .other _ => some false
  | .copy bindings, .name text => some (bindings.binds text)
  | .copy _, .other usable => if usable then some false else none

def variantName : Env → String
  | .chain _ _ => "TypeEnv"
  | .copy _ => "FlatTypeEnv"

def render (env : Env) : String :=
  let items := env.flatten.entries.map fun e => e.1 ++ ": " ++ e.2.render
  env.variantName ++ "(" ++ ", ".intercalate items ++ ")"

end Env

end ArrowLang
