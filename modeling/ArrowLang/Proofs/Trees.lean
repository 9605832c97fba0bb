import ArrowLang.Parser
import ArrowLang.Proofs.Recursion

/-!
# ArrowLang.Proofs.Trees

The terms of trees.

* `ParseTree.term`: the term that stands for a tree, however many digits its literals have.
* `ParseTree.literals`: the literals of a tree in post-order.
* `ParseTree.build_eq`: the term of a tree is built, or it fails for the first of the literals that
  has too many digits.

Code for a stack machine is shown to be right in the same way: the nodes of a tree, whatever comes
behind them, leave its term on top of what was there.
-/

namespace ArrowLang

open ArrowLang.Parser (excessDigits? literalValue)

namespace ParseTree

/-! ## Terms -/

def term : ParseTree → Term
  | .literal digits span => .node (.number (literalValue digits)) span
  | .node (.bool value) span => .node (.bool value) span
  | .node (.number value) span => .node (.number value) span
  | .node (.add left right) span => .node (.add left.term right.term) span
  | .node (.ite cond onTrue onFalse) span => .node (.ite cond.term onTrue.term onFalse.term) span
  | .node (.var name) span => .node (.var name) span
  | .node (.func params body) span => .node (.func params body.term) span
  | .node (.call callee args) span => .node (.call callee.term (terms args)) span
  | .node (.seq first rest) span => .node (.seq first.term rest.term) span
  | .node (.const name init rest) span => .node (.const name init.term rest.term) span
where
  terms : List ParseTree → List Term
    | [] => []
    | t :: ts => t.term :: terms ts

theorem terms_eq (ts : List ParseTree) : term.terms ts = ts.map term := by
  induction ts with
  | nil => rfl
  | cons t ts ih => rw [term.terms, ih, List.map_cons]

theorem term_node (layer : Layer ParseTree) (span : Span) :
    (node layer span).term = .node (layer.map term) span := by
  cases layer <;> simp [term, Layer.map, terms_eq]

theorem term_literal (digits : String) (span : Span) :
    (literal digits span).term = .node (.number (literalValue digits)) span := rfl

/-! ## Literals -/

/-- The digits and the span of a literal. -/
def literal? : ParseTree → Option (String × Span)
  | .literal digits span => some (digits, span)
  | .node _ _ => none

def literals (t : ParseTree) : List (String × Span) := t.postorder.filterMap literal?

theorem literals_node (layer : Layer ParseTree) (span : Span) :
    (node layer span).literals = layer.children.flatMap literals := by
  rw [literals, postorder_eq, List.filterMap_append, List.filterMap_flatMap]
  exact List.append_nil _

theorem literals_literal (digits : String) (span : Span) :
    (literal digits span).literals = [(digits, span)] := by
  rw [literals, postorder_eq]
  rfl

/-- The number of digits of the first of the literals that has too many. -/
def firstExcess? (literals : List (String × Span)) : Option Nat :=
  literals.findSome? fun l => excessDigits? l.1

theorem firstExcess?_append (l₁ l₂ : List (String × Span)) :
    firstExcess? (l₁ ++ l₂) = (firstExcess? l₁).or (firstExcess? l₂) :=
  List.findSome?_append

/-! ## Building -/

theorem buildAll_congr {ts : List ParseTree} {done done' : List Term} (hdone : done = done')
    (h : Balanced ts done.length) (h' : Balanced ts done'.length) :
    buildAll ts done h = buildAll ts done' h' := by
  subst hdone
  rfl

/-- A node takes the terms of its children off the list. -/
theorem buildAll_node {layer : Layer ParseTree} {span : Span} {rest : List ParseTree}
    {done : List Term}
    (h : Balanced (node layer span :: rest) ((layer.children.map term).reverse ++ done).length)
    (h' : Balanced rest ((node layer span).term :: done).length) :
    buildAll (node layer span :: rest) ((layer.children.map term).reverse ++ done) h =
      buildAll rest ((node layer span).term :: done) h' := by
  have hlength : layer.children.length = (layer.children.map term).reverse.length := by simp
  have htake : (((layer.children.map term).reverse ++ done).take layer.children.length).reverse =
      layer.children.map term := by
    rw [List.take_left' hlength.symm, List.reverse_reverse]
  have hdrop : ((layer.children.map term).reverse ++ done).drop layer.children.length = done :=
    List.drop_left' hlength.symm
  rw [buildAll]
  refine buildAll_congr ?_ _ _
  simp only [htake, hdrop, Layer.refill_map_children, Option.get_some, term_node]

/-- The nodes of a tree, whatever comes behind them, put its term on the list, unless one of its
literals is too long. -/
def Builds (t : ParseTree) : Prop :=
  ∀ (rest : List ParseTree) (done : List Term) (h : Balanced (t.postorder ++ rest) done.length)
    (h' : Balanced rest (t.term :: done).length),
    buildAll (t.postorder ++ rest) done h =
      (firstExcess? t.literals).elim (buildAll rest (t.term :: done) h') .error

theorem buildAll_flatMap {ts rest : List ParseTree} (ih : ∀ t ∈ ts, t.Builds) (done : List Term)
    (h : Balanced (ts.flatMap postorder ++ rest) done.length)
    (h' : Balanced rest ((ts.map term).reverse ++ done).length) :
    buildAll (ts.flatMap postorder ++ rest) done h =
      (firstExcess? (ts.flatMap literals)).elim
        (buildAll rest ((ts.map term).reverse ++ done) h') .error := by
  induction ts generalizing done with
  | nil => rfl
  | cons t ts ihts =>
    rw [List.forall_mem_cons] at ih
    have hdone : ((t :: ts).map term).reverse ++ done =
        (ts.map term).reverse ++ t.term :: done := by
      simp
    have hrest : Balanced rest ((ts.map term).reverse ++ t.term :: done).length := hdone ▸ h'
    have hmid : Balanced (ts.flatMap postorder ++ rest) (t.term :: done).length :=
      balanced_flatMap (fun t _ => t.balanced_postorder_append) _ (by
        simpa [Nat.add_comm, Nat.add_left_comm] using hrest)
    simp only [List.flatMap_cons, List.append_assoc, firstExcess?_append,
      buildAll_congr hdone h' hrest]
    rw [ih.1 _ done _ hmid, ihts ih.2 _ hmid hrest]
    cases firstExcess? t.literals <;> rfl

theorem builds (t : ParseTree) : t.Builds := by
  induction t using byChildren with
  | step t ih =>
    intro rest done h h'
    cases t with
    | literal digits span =>
      have hpost : (literal digits span).postorder ++ rest = literal digits span :: rest := by
        rw [postorder_eq]
        rfl
      simp only [hpost, literals_literal, firstExcess?, List.findSome?_cons, List.findSome?_nil]
      rw [buildAll]
      cases excessDigits? digits <;> rfl
    | node layer span =>
      have hpost : (node layer span).postorder ++ rest =
          layer.children.flatMap postorder ++ node layer span :: rest := by
        rw [postorder_eq, List.append_assoc]
        rfl
      have hnode : Balanced (node layer span :: rest)
          ((layer.children.map term).reverse ++ done).length := by
        refine ⟨by simp [children], ?_⟩
        simpa [children] using h'
      simp only [hpost, literals_node]
      refine (buildAll_flatMap ih done _ hnode).trans ?_
      rw [← buildAll_node hnode h']
      rfl

theorem build_eq (t : ParseTree) :
    t.build = (firstExcess? t.literals).elim (.ok t.term) .error := by
  have hone : Balanced [] [t.term].length := rfl
  have h : Balanced (t.postorder ++ []) 0 := by
    rw [List.append_nil]
    exact t.balanced_postorder
  have hall := t.builds [] [] h hone
  simp only [List.append_nil] at hall
  exact hall

end ParseTree

/-- The number of digits of a token that is a literal with too many. -/
def Token.excessDigits? : Token → Option Nat
  | .int digits => Parser.excessDigits? digits
  | _ => none

end ArrowLang
