import ArrowLang.Span
import ArrowLang.Ty

/-!
# ArrowLang.Term

The terms of the language. Every node carries the span of the text it was read from.

* `Layer R`: one node with an `R` in the place of each child.
* `Term`: a layer of terms with its span, or a node of a variant unknown to the language, which can
  only come from outside.
* `Layer.children`, `Layer.refill`: the children in evaluation order, and the same node over others.
-/

namespace ArrowLang

universe u v

inductive Layer (R : Type u) : Type u where
  | bool (value : Bool)
  | number (value : Int)
  | add (left right : R)
  /-- `cond ? onTrue : onFalse` -/
  | ite (cond onTrue onFalse : R)
  | var (name : String)
  | func (params : List (Param Ty)) (body : R)
  | call (callee : R) (args : List R)
  /-- `first; rest` -/
  | seq (first rest : R)
  /-- `const name = init; rest`, where the name is visible in `rest` only -/
  | const (name : String) (init rest : R)

namespace Layer

variable {R : Type u} {S : Type v}

/-- The children in evaluation order. -/
def children : Layer R → List R
  | .bool _ | .number _ | .var _ => []
  | .add left right => [left, right]
  | .ite cond onTrue onFalse => [cond, onTrue, onFalse]
  | .func _ body => [body]
  | .call callee args => callee :: args
  | .seq first rest => [first, rest]
  | .const _ init rest => [init, rest]

def map (f : R → S) : Layer R → Layer S
  | .bool value => .bool value
  | .number value => .number value
  | .add left right => .add (f left) (f right)
  | .ite cond onTrue onFalse => .ite (f cond) (f onTrue) (f onFalse)
  | .var name => .var name
  | .func params body => .func params (f body)
  | .call callee args => .call (f callee) (args.map f)
  | .seq first rest => .seq (f first) (f rest)
  | .const name init rest => .const name (f init) (f rest)

/-- The node with `kids` for its children, if their number is right. -/
def refill : Layer R → List S → Option (Layer S)
  | .bool value, [] => some (.bool value)
  | .number value, [] => some (.number value)
  | .add _ _, [left, right] => some (.add left right)
  | .ite _ _ _, [cond, onTrue, onFalse] => some (.ite cond onTrue onFalse)
  | .var name, [] => some (.var name)
  | .func params _, [body] => some (.func params body)
  | .call _ args, callee :: args' =>
    if args.length = args'.length then some (.call callee args') else none
  | .seq _ _, [first, rest] => some (.seq first rest)
  | .const name _ _, [init, rest] => some (.const name init rest)
  | _, _ => none

@[simp] theorem children_map (f : R → S) (l : Layer R) : (l.map f).children = l.children.map f := by
  cases l <;> rfl

theorem refill_map_children (f : R → S) (l : Layer R) :
    l.refill (l.children.map f) = some (l.map f) := by
  cases l <;> simp [children, refill, map]

/-- The name of the node's variant. -/
def variantName : Layer R → String
  | .bool true => "TrueLit"
  | .bool false => "FalseLit"
  | .number _ => "NumberLit"
  | .add _ _ => "Add"
  | .ite _ _ _ => "If"
  | .var _ => "Var"
  | .func _ _ => "Func"
  | .call _ _ => "Call"
  | .seq _ _ => "Seq"
  | .const _ _ _ => "Const"

end Layer

inductive Term where
  | node (layer : Layer Term) (span : Span)
  | unknown (variant : String) (span : Span)

namespace Term

def span : Term → Span
  | .node _ span => span
  | .unknown _ span => span

def variantName : Term → String
  | .node layer _ => layer.variantName
  | .unknown variant _ => variant

/-- The number of nodes. -/
def size : Term → Nat
  | .node (.bool _) _ | .node (.number _) _ | .node (.var _) _ => 1
  | .node (.add left right) _ => left.size + right.size + 1
  | .node (.ite cond onTrue onFalse) _ => cond.size + onTrue.size + onFalse.size + 1
  | .node (.func _ body) _ => body.size + 1
  | .node (.call callee args) _ => callee.size + argsSize args + 1
  | .node (.seq first rest) _ => first.size + rest.size + 1
  | .node (.const _ init rest) _ => init.size + rest.size + 1
  | .unknown _ _ => 1
where
  argsSize : List Term → Nat
    | [] => 0
    | t :: ts => t.size + argsSize ts

/-- The sizes of a list of terms, added up. -/
def totalSize (ts : List Term) : Nat := ts.foldr (fun t n => t.size + n) 0

@[simp] theorem totalSize_nil : totalSize [] = 0 := rfl

@[simp] theorem totalSize_cons (t : Term) (ts : List Term) :
    totalSize (t :: ts) = t.size + totalSize ts := rfl

@[simp] theorem totalSize_append (ts us : List Term) :
    totalSize (ts ++ us) = totalSize ts + totalSize us := by
  induction ts with
  | nil => simp
  | cons t ts ih => simp [ih, Nat.add_assoc]

theorem argsSize_eq (ts : List Term) : size.argsSize ts = totalSize ts := by
  induction ts with
  | nil => rfl
  | cons t ts ih => simp [size.argsSize, ih]

/-- A node counts once and its children count for themselves. -/
theorem size_node (layer : Layer Term) (span : Span) :
    (node layer span).size = totalSize layer.children + 1 := by
  cases layer <;> simp [size, Layer.children, argsSize_eq, Nat.add_assoc]

theorem size_pos (t : Term) : 0 < t.size := by
  cases t with
  | node layer span => rw [size_node]; omega
  | unknown variant span => simp [size]

/-- The subterms of the pending terms in pre-order, after those in `seen`, of which the newest
comes first. -/
def preorderOnto (seen : List Term) (pending : List Term) : List Term :=
  match pending with
  | [] => seen.reverse
  | .node layer span :: rest =>
    preorderOnto (.node layer span :: seen) (layer.children ++ rest)
  | .unknown variant span :: rest => preorderOnto (.unknown variant span :: seen) rest
termination_by totalSize pending
decreasing_by
  · simp [size_node]
  · simp [size]

/-- The subterms in pre-order, children in evaluation order. -/
def preorder (t : Term) : List Term := preorderOnto [] [t]

end Term

end ArrowLang
