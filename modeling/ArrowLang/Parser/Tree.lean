import ArrowLang.Term
import ArrowLang.Text.Decimal

/-!
# ArrowLang.Parser.Tree

What a text is read as, before its literals have values.

* `ParseTree`: a term in which the digits of a literal stand in the place of its value.
* `ParseTree.postorder`: the nodes of a tree, each of them behind its children.
* `ParseTree.build`: the term of a tree. Its nodes are built in post-order, up to the first literal
  that has too many digits.

While a term is built, finished subterms wait on a list. `ParseTree.Balanced` says that every node
finds its children there, so a literal is all that can be in the way.
-/

namespace ArrowLang

theorem Layer.refill_isSome {R S : Type} {layer : Layer R} {kids : List S}
    (h : kids.length = layer.children.length) : (layer.refill kids).isSome = true := by
  cases layer with
  | call callee args =>
    cases kids with
    | nil => cases h
    | cons kid kids => simp_all [refill, children]
  | _ =>
    rcases kids with _ | ⟨a, _ | ⟨b, _ | ⟨c, _ | ⟨d, kids⟩⟩⟩⟩ <;> simp_all [refill, children]

namespace Parser

/-- The value of a literal. -/
def literalValue (digits : String) : Int := decimalValue digits.toList

/-- The number of digits of a literal that has too many. -/
def excessDigits? (digits : String) : Option Nat :=
  if digits.length ≤ maxDigits then none else some digits.length

end Parser

inductive ParseTree where
  | node (layer : Layer ParseTree) (span : Span)
  | literal (digits : String) (span : Span)

namespace ParseTree

def children : ParseTree → List ParseTree
  | .node layer _ => layer.children
  | .literal _ _ => []

/-! ## Post-order -/

/-- The sizes of a list of trees, added up. -/
noncomputable def totalSize (ts : List ParseTree) : Nat := ts.foldr (fun t n => sizeOf t + n) 0

@[simp] theorem totalSize_nil : totalSize [] = 0 := rfl

@[simp] theorem totalSize_cons (t : ParseTree) (ts : List ParseTree) :
    totalSize (t :: ts) = sizeOf t + totalSize ts := rfl

@[simp] theorem totalSize_append (ts us : List ParseTree) :
    totalSize (ts ++ us) = totalSize ts + totalSize us := by
  induction ts with
  | nil => simp
  | cons t ts ih => simp [ih, Nat.add_assoc]

@[simp] theorem totalSize_reverse (ts : List ParseTree) : totalSize ts.reverse = totalSize ts := by
  induction ts with
  | nil => rfl
  | cons t ts ih => simp [ih, Nat.add_comm]

theorem totalSize_lt_sizeOf (ts : List ParseTree) : totalSize ts < sizeOf ts := by
  induction ts with
  | nil => simp
  | cons t ts ih =>
    simp only [totalSize_cons, List.cons.sizeOf_spec]
    omega

theorem totalSize_children_lt (t : ParseTree) : totalSize t.children < sizeOf t := by
  cases t with
  | literal digits span =>
    simp only [children, totalSize_nil, literal.sizeOf_spec]
    omega
  | node layer span =>
    cases layer with
    | call callee args =>
      have := totalSize_lt_sizeOf args
      simp only [children, Layer.children, totalSize_cons, node.sizeOf_spec,
        Layer.call.sizeOf_spec]
      omega
    | _ => simp [children, Layer.children] <;> omega

/-- The nodes of the pending trees, of which the last comes first, in front of those listed. -/
def postorderOnto (listed pending : List ParseTree) : List ParseTree :=
  match pending with
  | [] => listed
  | t :: rest => postorderOnto (t :: listed) (t.children.reverse ++ rest)
termination_by totalSize pending
decreasing_by
  have := totalSize_children_lt t
  simp only [totalSize_append, totalSize_reverse, totalSize_cons]
  omega

/-- The nodes of a tree in post-order, children in evaluation order. -/
def postorder (t : ParseTree) : List ParseTree := postorderOnto [] [t]

/-- Pending trees are listed one after the other, the last of them first. -/
theorem postorderOnto_eq (listed pending : List ParseTree) :
    postorderOnto listed pending = pending.reverse.flatMap postorder ++ listed := by
  -- the first pending tree is listed by itself as well, so the size is what goes down
  have h (n : Nat) : ∀ listed pending, totalSize pending < n →
      postorderOnto listed pending = pending.reverse.flatMap postorder ++ listed := by
    induction n with
    | zero => intro listed pending hn; omega
    | succ n ih =>
      intro listed pending hn
      cases pending with
      | nil => simp [postorderOnto]
      | cons t rest =>
        have hsize := totalSize_children_lt t
        rw [totalSize_cons] at hn
        have hchildren := ih [t] t.children.reverse (by rw [totalSize_reverse]; omega)
        have hboth := ih (t :: listed) (t.children.reverse ++ rest) (by
          rw [totalSize_append, totalSize_reverse]
          omega)
        simp [postorder, postorderOnto, hchildren, hboth]
  exact h _ listed pending (Nat.lt_succ_self _)

theorem postorder_eq (t : ParseTree) : t.postorder = t.children.flatMap postorder ++ [t] := by
  rw [postorder, postorderOnto, postorderOnto_eq]
  simp

/-- Induction over trees. -/
@[elab_as_elim] theorem byChildren {P : ParseTree → Prop}
    (step : ∀ t : ParseTree, (∀ u ∈ t.children, P u) → P t) (t : ParseTree) : P t := by
  refine step t fun u hu => ?_
  have hlt : sizeOf u < sizeOf t := by
    have hsize := totalSize_children_lt t
    obtain ⟨before, after, hc⟩ := List.append_of_mem hu
    rw [hc, totalSize_append, totalSize_cons] at hsize
    omega
  exact byChildren step u
termination_by sizeOf t

/-! ## Terms -/

/-- If `n` terms are waiting, each of the nodes finds its children among them, and in the end there
is one term. -/
def Balanced : List ParseTree → Nat → Prop
  | [], n => n = 1
  | t :: ts, n => t.children.length ≤ n ∧ Balanced ts (n - t.children.length + 1)

theorem balanced_flatMap {ts rest : List ParseTree}
    (ih : ∀ t ∈ ts, ∀ rest n, Balanced rest (n + 1) → Balanced (t.postorder ++ rest) n) (n : Nat)
    (h : Balanced rest (n + ts.length)) : Balanced (ts.flatMap postorder ++ rest) n := by
  induction ts generalizing n with
  | nil => exact h
  | cons t ts ihts =>
    rw [List.forall_mem_cons] at ih
    rw [List.flatMap_cons, List.append_assoc]
    refine ih.1 _ n (ihts ih.2 (n + 1) ?_)
    rwa [Nat.add_assoc, Nat.add_comm 1]

/-- All the nodes of a tree together make one term. -/
theorem balanced_postorder_append (t : ParseTree) :
    ∀ rest n, Balanced rest (n + 1) → Balanced (t.postorder ++ rest) n := by
  induction t using byChildren with
  | step t ih =>
    intro rest n h
    rw [postorder_eq, List.append_assoc]
    refine balanced_flatMap ih n ⟨Nat.le_add_left _ _, ?_⟩
    rwa [Nat.add_sub_cancel]

theorem balanced_postorder (t : ParseTree) : Balanced t.postorder 0 := by
  rw [← List.append_nil t.postorder]
  exact t.balanced_postorder_append [] 0 rfl

/-- Builds the nodes one by one. `done` holds the terms that wait, the newest first. -/
def buildAll (ts : List ParseTree) (done : List Term) (h : Balanced ts done.length) :
    Except Nat Term :=
  match ts with
  | [] => .ok (done.head (List.ne_nil_of_length_pos (by rw [h]; exact Nat.one_pos)))
  | .literal digits span :: ts =>
    match Parser.excessDigits? digits with
    | some n => .error n
    | none => buildAll ts (.node (.number (Parser.literalValue digits)) span :: done) h.2
  | .node layer span :: ts =>
    let kids := (done.take layer.children.length).reverse
    have hkids : kids.length = layer.children.length := by
      rw [List.length_reverse, List.length_take]
      exact Nat.min_eq_left h.1
    let built := (layer.refill kids).get (Layer.refill_isSome hkids)
    buildAll ts (.node built span :: done.drop layer.children.length) (by
      rw [List.length_cons, List.length_drop]
      exact h.2)

/-- The term of a tree, or the number of digits of the first literal that has too many. -/
def build (t : ParseTree) : Except Nat Term := buildAll t.postorder [] t.balanced_postorder

end ParseTree
end ArrowLang
