import ArrowLang.Proofs.Walks
import ArrowLang.Term.Printer

/-!
# ArrowLang.Proofs.Printing

What a term is printed as, and what it cannot be printed for.

* `Term.doc`: the printed form of a term, by recursion on the term.
* `Term.hurdles`: the literals with too many digits and the nodes of unknown variant, in the order
  of the text.

`Term.render_eq` says that a term without hurdles is printed as `Term.doc` says, and that the first
hurdle is what stops the printing of any other.
-/

namespace ArrowLang

/-! ## Numbers -/

theorem length_repr_le_iff {n k : Nat} (hk : 0 < k) : n.repr.length ≤ k ↔ n < Nat.pow 10 k := by
  rw [Nat.pow_eq, ← String.length_toList, Nat.toList_repr]
  exact Nat.length_toDigits_le_iff (by decide) hk

/-- The number can be written out. -/
def Writable (n : Int) : Prop := n.natAbs < Nat.pow 10 maxDigits

instance (n : Int) : Decidable (Writable n) := Nat.decLt _ _

theorem numeral_eq (n : Int) :
    numeral n = if Writable n then .ok (toString n) else .error .tooManyDigits := by
  have hdigits : (toString n.natAbs).length ≤ maxDigits ↔ Writable n :=
    length_repr_le_iff (by decide)
  simp only [numeral, hdigits]

theorem Doc.ofLayer_number (n : Int) :
    ofLayer (.number n) =
      if Writable n then .ok ⟨toString n, false⟩ else .error .tooManyDigits := by
  rw [ofLayer, numeral_eq]
  split <;> rfl

/-! ## Terms -/

/-- The text of one node over the texts of its children, and nothing for a number that cannot be
written out. -/
def Doc.ofDocs (layer : Layer Doc) : Doc :=
  match ofLayer layer with
  | .ok d => d
  | .error _ => ⟨"", false⟩

theorem Doc.ofDocs_number {n : Int} (h : Writable n) :
    ofDocs (.number n) = ⟨toString n, false⟩ := by
  rw [ofDocs, ofLayer_number, if_pos h]

namespace Term

def doc : Term → Doc :=
  recurse (fun layer _ => Doc.ofDocs (layer.map Child.out)) fun variant _ => ⟨variant, false⟩

theorem doc_node (layer : Layer Term) (span : Span) :
    (node layer span).doc = Doc.ofDocs (layer.map doc) := by
  rw [doc, recurse_node, Layer.map_map]

/-- What the term cannot be printed for, if it is this node. -/
def hurdle? : Term → Option PrintFailure
  | .unknown variant _ => some (.fault (.unknownTerm variant))
  | .node (.number n) _ => if Writable n then none else some .tooManyDigits
  | .node _ _ => none

def hurdles (t : Term) : List PrintFailure := t.preorder.filterMap hurdle?

theorem hurdles_node (layer : Layer Term) (span : Span) :
    (node layer span).hurdles =
      (node layer span).hurdle?.toList ++ layer.children.flatMap hurdles := by
  rw [hurdles, preorder_node]
  cases h : (node layer span).hurdle? with
  | none => rw [List.filterMap_cons_none h, List.filterMap_flatMap]; rfl
  | some e => rw [List.filterMap_cons_some h, List.filterMap_flatMap]; rfl

/-- All literals of the term can be written out. -/
def Fits (t : Term) : Prop := ∀ n span, .node (.number n) span ∈ t.preorder → Writable n

theorem hurdles_of_fits {t : Term} (h : t.Fits) :
    t.hurdles = t.unknowns.map fun variant => .fault (.unknownTerm variant) := by
  rw [hurdles, unknowns]
  unfold Fits at h
  generalize t.preorder = us at h
  induction us with
  | nil => rfl
  | cons u us ih =>
    have hus := ih fun n span hmem => h n span (List.mem_cons_of_mem u hmem)
    cases u with
    | unknown variant span =>
      simp only [List.filterMap_cons, hurdle?, unknown?, hus, List.map_cons]
    | node layer span =>
      have hnone : (node layer span).hurdle? = none := by
        cases layer with
        | number n => rw [hurdle?, if_pos (h n span List.mem_cons_self)]
        | bool | add | ite | var | func | call | seq | const => rfl
      simp only [List.filterMap_cons, hnone, unknown?, hus]

theorem hurdles_of_known {t : Term} (ht : t.Known) : ∀ e ∈ t.hurdles, e = .tooManyDigits := by
  intro e he
  obtain ⟨u, hu, hhurdle⟩ := List.mem_filterMap.mp he
  cases u with
  | unknown variant span =>
    have hmem : variant ∈ t.unknowns := List.mem_filterMap.mpr ⟨_, hu, rfl⟩
    rw [known_iff_unknowns.mp ht] at hmem
    cases hmem
  | node layer span =>
    cases layer with
    | number n =>
      rw [hurdle?] at hhurdle
      split at hhurdle
      · cases hhurdle
      · exact (Option.some.inj hhurdle).symm
    | bool | add | ite | var | func | call | seq | const => cases hhurdle

theorem render_eq (t : Term) : t.render = stopAt t.hurdles t.doc.text := by
  have hwalk : t.fold (fun layer _ => Doc.ofLayer layer) = stopAt t.hurdles t.doc := by
    refine walk_stopAt (fun variant _ => ⟨.fault (.unknownTerm variant), rfl, rfl⟩) ?_ t
    intro layer span
    rw [apply_map, doc_node]
    cases layer with
    | number n =>
      rw [hurdle?, Layer.map, Doc.ofLayer_number]
      by_cases h : Writable n
      · rw [if_pos h, if_pos h, Doc.ofDocs_number h]
        exact .inl ⟨rfl, rfl⟩
      · rw [if_neg h]
        refine .inr ⟨.tooManyDigits, rfl, rfl, ?_⟩
        change Doc.ofLayer (.number n) = _
        rw [Doc.ofLayer_number, if_neg h]
    | bool value => exact .inl ⟨rfl, by cases value <;> rfl⟩
    | add | ite | var | func | call | seq | const => exact .inl ⟨rfl, rfl⟩
  rw [render, hwalk]
  cases t.hurdles <;> rfl

theorem render_ne_fault {t : Term} (ht : t.Known) (f : Fault) : t.render ≠ .error (.fault f) := by
  intro hf
  have hhurdles := hurdles_of_known ht
  rw [render_eq] at hf
  cases hfirst : t.hurdles with
  | nil => rw [hfirst] at hf; cases hf
  | cons failure rest =>
    rw [hfirst] at hf hhurdles
    cases hf
    cases hhurdles _ List.mem_cons_self

end Term
end ArrowLang
