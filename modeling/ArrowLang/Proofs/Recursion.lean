import ArrowLang.Term.Walk

/-!
# ArrowLang.Proofs.Recursion

Structural induction and recursion over terms.

* `Term.byChildren`: induction over terms, with the hypothesis for all children of a node at once.
* `Term.Known`: every node of a term is of a variant of the language.
* `Term.preorder_node`: the nodes of a term are the root and the nodes of its children.
* `Term.unknowns`: the nodes that keep a term from being known.
* `Term.recurse`: recursion over a term that hands each child's result over with the child.
* `Term.mapSpans`, `Term.eraseSpans`: the term with other spans, or with none to speak of.
-/

namespace ArrowLang

universe u v w

theorem Layer.map_map {R : Type u} {S : Type v} {T : Type w} (f : R → S) (g : S → T)
    (layer : Layer R) : (layer.map f).map g = layer.map fun r => g (f r) := by
  cases layer <;> simp [Layer.map]

theorem Layer.map_id {R : Type u} (layer : Layer R) : layer.map (fun r => r) = layer := by
  cases layer <;> simp [Layer.map]

theorem Layer.map_congr {R : Type u} {S : Type v} {f g : R → S} {layer : Layer R}
    (h : ∀ r ∈ layer.children, f r = g r) : layer.map f = layer.map g := by
  cases layer with
  | call callee args =>
    simp only [Layer.children, List.forall_mem_cons] at h
    simp only [Layer.map, h.1, List.map_congr_left h.2]
  | _ => simp_all [Layer.map, Layer.children]

namespace Term

theorem size_lt_of_mem_children {layer : Layer Term} {t : Term} (span : Span)
    (h : t ∈ layer.children) : t.size < (node layer span).size := by
  obtain ⟨before, after, hc⟩ := List.append_of_mem h
  rw [size_node, hc, totalSize_append, totalSize_cons]
  omega

/-- Induction over terms. -/
@[elab_as_elim] theorem byChildren {P : Term → Prop}
    (node : ∀ (layer : Layer Term) (span : Span), (∀ t ∈ layer.children, P t) →
      P (.node layer span))
    (unknown : ∀ (variant : String) (span : Span), P (.unknown variant span)) (t : Term) : P t := by
  have h (n : Nat) : ∀ t : Term, t.size < n → P t := by
    induction n with
    | zero => intro t ht; omega
    | succ n ih =>
      intro t ht
      cases t with
      | unknown variant span => exact unknown variant span
      | node layer span =>
        refine node layer span fun u hu => ih u ?_
        have := size_lt_of_mem_children span hu
        omega
  exact h (t.size + 1) t (Nat.lt_succ_self _)

/-- No node of the term is of unknown variant. -/
inductive Known : Term → Prop where
  | node {layer : Layer Term} {span : Span} :
      (∀ t ∈ layer.children, Known t) → Known (.node layer span)

@[simp] theorem known_node {layer : Layer Term} {span : Span} :
    (node layer span).Known ↔ ∀ t ∈ layer.children, t.Known := by
  constructor
  · intro h
    cases h with
    | node h => exact h
  · exact .node

@[simp] theorem not_known_unknown {variant : String} {span : Span} :
    ¬ (unknown variant span).Known := by
  intro h
  cases h

/-! ## Nodes of a term -/

/-- Pending terms are walked one after the other. -/
theorem preorderOnto_eq (seen pending : List Term) :
    preorderOnto seen pending = seen.reverse ++ pending.flatMap preorder := by
  -- the first pending term is walked by itself as well, so the size is what goes down
  have h (n : Nat) : ∀ seen pending, totalSize pending < n →
      preorderOnto seen pending = seen.reverse ++ pending.flatMap preorder := by
    induction n with
    | zero => intro seen pending hn; omega
    | succ n ih =>
      intro seen pending hn
      cases pending with
      | nil => simp [preorderOnto]
      | cons t rest =>
        cases t with
        | unknown variant span =>
          have hrest : totalSize rest < n := by
            simp only [totalSize_cons, size] at hn
            omega
          simp [preorder, preorderOnto, ih _ rest hrest]
        | node layer span =>
          have hsize : totalSize layer.children + totalSize rest < n := by
            simp only [totalSize_cons, size_node] at hn
            omega
          have hchildren := ih [node layer span] layer.children (by omega)
          have hboth := ih (node layer span :: seen) (layer.children ++ rest) (by simpa using hsize)
          simp [preorder, preorderOnto, hchildren, hboth]
  exact h (totalSize pending + 1) seen pending (Nat.lt_succ_self _)

theorem preorder_node (layer : Layer Term) (span : Span) :
    (node layer span).preorder = node layer span :: layer.children.flatMap preorder := by
  rw [preorder, preorderOnto, preorderOnto_eq]
  simp

/-- What is listed for each node is listed for the root and then for the children. -/
theorem flatMap_preorder_node {β : Type u} (f : Term → List β) (layer : Layer Term) (span : Span) :
    (node layer span).preorder.flatMap f =
      f (node layer span) ++ layer.children.flatMap fun t => t.preorder.flatMap f := by
  rw [preorder_node, List.flatMap_cons, List.flatMap_assoc]

theorem preorder_unknown (variant : String) (span : Span) :
    (unknown variant span).preorder = [unknown variant span] := by
  simp [preorder, preorderOnto]

theorem preorder_eq_cons (t : Term) : t.preorder = t :: t.preorder.tail := by
  cases t with
  | node layer span => rw [preorder_node]; rfl
  | unknown variant span => rw [preorder_unknown]; rfl

theorem mem_preorder_self (t : Term) : t ∈ t.preorder := by
  rw [preorder_eq_cons]
  exact List.mem_cons_self

/-- What is listed once for each node of each term is as long as the terms are large. -/
theorem length_flatMap_of_size {β : Type u} {f : Term → List β} {ts : List Term}
    (h : ∀ t ∈ ts, (f t).length = t.size) : (ts.flatMap f).length = totalSize ts := by
  induction ts with
  | nil => rfl
  | cons t ts ih =>
    rw [List.forall_mem_cons] at h
    rw [List.flatMap_cons, List.length_append, totalSize_cons, h.1, ih h.2]

theorem length_preorder (t : Term) : t.preorder.length = t.size := by
  induction t using byChildren with
  | unknown variant span => rw [preorder_unknown]; rfl
  | node layer span ih =>
    rw [preorder_node, size_node, List.length_cons, length_flatMap_of_size ih]

/-- The variant of a node that is of no variant of the language. -/
def unknown? : Term → Option String
  | .unknown variant _ => some variant
  | .node _ _ => none

/-- The variants of all nodes of unknown variant, in pre-order. -/
def unknowns (t : Term) : List String := t.preorder.filterMap unknown?

theorem unknowns_node (layer : Layer Term) (span : Span) :
    (node layer span).unknowns = layer.children.flatMap unknowns := by
  rw [unknowns, preorder_node, List.filterMap_cons_none rfl, List.filterMap_flatMap]
  rfl

theorem unknowns_unknown (variant : String) (span : Span) :
    (unknown variant span).unknowns = [variant] := by
  rw [unknowns, preorder_unknown]
  rfl

theorem known_iff_unknowns {t : Term} : t.Known ↔ t.unknowns = [] := by
  induction t using byChildren with
  | unknown variant span => simp [unknowns_unknown]
  | node layer span ih =>
    rw [known_node, unknowns_node, List.flatMap_eq_nil_iff]
    exact forall_congr' fun t => forall_congr' fun ht => ih t ht

variable {R : Type u}

/-- Recursion over a term. Each child's result arrives with the child itself; `stray` gives the
results for nodes of unknown variant. -/
def recurse (alg : Layer (Child R) → Span → R) (stray : String → Span → R) : Term → R
  | .node (.bool value) span => alg (.bool value) span
  | .node (.number value) span => alg (.number value) span
  | .node (.add left right) span =>
    alg (.add ⟨left.recurse alg stray, left⟩ ⟨right.recurse alg stray, right⟩) span
  | .node (.ite cond onTrue onFalse) span =>
    alg (.ite ⟨cond.recurse alg stray, cond⟩ ⟨onTrue.recurse alg stray, onTrue⟩
      ⟨onFalse.recurse alg stray, onFalse⟩) span
  | .node (.var name) span => alg (.var name) span
  | .node (.func params body) span => alg (.func params ⟨body.recurse alg stray, body⟩) span
  | .node (.call callee args) span =>
    alg (.call ⟨callee.recurse alg stray, callee⟩ (recurseArgs args)) span
  | .node (.seq first rest) span =>
    alg (.seq ⟨first.recurse alg stray, first⟩ ⟨rest.recurse alg stray, rest⟩) span
  | .node (.const name init rest) span =>
    alg (.const name ⟨init.recurse alg stray, init⟩ ⟨rest.recurse alg stray, rest⟩) span
  | .unknown variant span => stray variant span
where
  recurseArgs : List Term → List (Child R)
    | [] => []
    | t :: ts => ⟨t.recurse alg stray, t⟩ :: recurseArgs ts

variable (alg : Layer (Child R) → Span → R) (stray : String → Span → R)

theorem recurseArgs_eq (ts : List Term) :
    recurse.recurseArgs alg stray ts = ts.map fun t => ⟨t.recurse alg stray, t⟩ := by
  induction ts with
  | nil => rfl
  | cons t ts ih => rw [recurse.recurseArgs, ih]; rfl

/-- The equation of the recursion, for all variants at once. -/
theorem recurse_node (layer : Layer Term) (span : Span) :
    (node layer span).recurse alg stray =
      alg (layer.map fun t => ⟨t.recurse alg stray, t⟩) span := by
  cases layer with
  | call callee args => rw [recurse, recurseArgs_eq]; rfl
  | _ => rfl

@[simp] theorem recurse_unknown (variant : String) (span : Span) :
    (unknown variant span).recurse alg stray = stray variant span := rfl

/-- The term with `f` applied to the span of each node. -/
def mapSpans (f : Span → Span) : Term → Term :=
  recurse (fun layer span => .node (layer.map Child.out) (f span))
    fun variant span => .unknown variant (f span)

theorem mapSpans_node (f : Span → Span) (layer : Layer Term) (span : Span) :
    (node layer span).mapSpans f = node (layer.map (mapSpans f)) (f span) := by
  rw [mapSpans, recurse_node, Layer.map_map]

theorem span_mapSpans (f : Span → Span) (t : Term) : (t.mapSpans f).span = f t.span := by
  cases t with
  | node layer span => rw [mapSpans_node]; rfl
  | unknown variant span => rfl

theorem mapSpans_id (t : Term) : t.mapSpans (fun s => s) = t := by
  induction t using byChildren with
  | unknown variant span => rfl
  | node layer span ih => rw [mapSpans_node, Layer.map_congr ih, Layer.map_id]

theorem known_mapSpans (f : Span → Span) (t : Term) : (t.mapSpans f).Known ↔ t.Known := by
  induction t using byChildren with
  | unknown variant span => exact iff_of_false not_known_unknown not_known_unknown
  | node layer span ih =>
    simp only [mapSpans_node, known_node, Layer.children_map, List.forall_mem_map]
    exact forall_congr' fun t => forall_congr' fun ht => ih t ht

/-- The term as it would be without a source text. -/
def eraseSpans : Term → Term := mapSpans fun _ => .unknown

theorem eraseSpans_node (layer : Layer Term) (span : Span) :
    (node layer span).eraseSpans = node (layer.map eraseSpans) .unknown :=
  mapSpans_node _ layer span

end Term
end ArrowLang
