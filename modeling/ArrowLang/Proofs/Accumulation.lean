import ArrowLang.Proofs.Policies
import Mathlib.Data.List.Perm.Basic

/-!
# ArrowLang.Proofs.Accumulation

Accumulation loses nothing, finds nothing twice and keeps the order of the text.

* `Term.reached`: the nodes of a term that accumulation looks at, each with its place. They are
  those below sums and conditionals only.
* `Accumulate.complaints`: the diagnostics of a term, and `Accumulate.own`: those of them that are
  about the rule for its root.
* `BlockAt b l k`: the list `b` stands in `l` from number `k` on.

The complaints of a node are those of its parts, from left to right, with its own in between or at
the end: `Accumulate.complaints_add` and `Accumulate.complaints_ite`. All else is put together from
these two equations along the path to a node.
-/

namespace ArrowLang

universe u

/-! ## Blocks -/

def BlockAt {α : Type} (b l : List α) (k : Nat) : Prop :=
  ∃ before after, l = before ++ b ++ after ∧ before.length = k

namespace BlockAt

variable {α : Type} {a b l : List α} {k m : Nat}

theorem refl (l : List α) : BlockAt l l 0 := ⟨[], [], by simp, rfl⟩

theorem trans (h : BlockAt b l k) (h' : BlockAt a b m) : BlockAt a l (k + m) := by
  obtain ⟨before, after, rfl, rfl⟩ := h
  obtain ⟨before', after', rfl, rfl⟩ := h'
  exact ⟨before ++ before', after' ++ after, by simp, by simp⟩

theorem le_length (h : BlockAt b l k) : k + b.length ≤ l.length := by
  obtain ⟨before, after, rfl, rfl⟩ := h
  simp only [List.length_append]
  omega

end BlockAt

/-! ## Nodes that are reached -/

/-- The children that accumulation looks at. -/
def Layer.parts {R : Type u} : Layer R → List R
  | .add left right => [left, right]
  | .ite cond onTrue onFalse => [cond, onTrue, onFalse]
  | _ => []

theorem Layer.parts_map {R S : Type u} (f : R → S) (layer : Layer R) :
    (layer.map f).parts = layer.parts.map f := by
  cases layer <;> rfl

theorem Layer.parts_subset {R : Type u} (layer : Layer R) : layer.parts ⊆ layer.children := by
  cases layer with
  | add | ite => exact List.Subset.refl _
  | bool | number | var | func | call | seq | const => exact List.nil_subset _

namespace Term

def reached : Term → List (Path × Term) :=
  recurse (fun layer span => ([], .node (layer.map Child.node) span) ::
      (layer.map Child.out).parts.zipIdx.flatMap fun x => x.1.map fun y => (x.2 :: y.1, y.2))
    fun variant span => [([], .unknown variant span)]

theorem reached_node (layer : Layer Term) (span : Span) :
    (node layer span).reached = ([], node layer span) ::
      layer.parts.zipIdx.flatMap fun x => x.1.reached.map fun y => (x.2 :: y.1, y.2) := by
  rw [reached, recurse_node, Layer.map_map, Layer.map_map, Layer.map_id, Layer.parts_map,
    List.zipIdx_map, List.flatMap_map]
  rfl

theorem mem_reached_nil {t u : Term} : ([], u) ∈ t.reached ↔ u = t := by
  cases t with
  | unknown variant span => simp [reached]
  | node layer span => simp [reached_node]

theorem mem_reached_cons {t u : Term} {i : Nat} {p : Path} :
    (i :: p, u) ∈ t.reached ↔
      ∃ layer span v, t = node layer span ∧ layer.parts[i]? = some v ∧ (p, u) ∈ v.reached := by
  cases t with
  | unknown variant span => simp [reached]
  | node layer span =>
    rw [reached_node, List.mem_cons, List.mem_flatMap]
    constructor
    · rintro (h | ⟨⟨v, j⟩, hv, hy⟩)
      · cases h
      · obtain ⟨⟨q, w⟩, hw, heq⟩ := List.mem_map.mp hy
        cases heq
        exact ⟨layer, span, v, rfl, List.mem_zipIdx_iff_getElem?.mp hv, hw⟩
    · rintro ⟨layer, span, v, heq, hv, hu⟩
      cases heq
      exact .inr ⟨(v, i), List.mem_zipIdx_iff_getElem?.mpr hv, List.mem_map.mpr ⟨(p, u), hu, rfl⟩⟩

theorem Known.part {layer : Layer Term} {span : Span} {i : Nat} {u : Term}
    (ht : (Term.node layer span).Known) (hu : layer.parts[i]? = some u) : u.Known :=
  known_node.mp ht u (layer.parts_subset (List.mem_of_getElem? hu))

theorem Known.reached {t u : Term} {p : Path} (ht : t.Known) (hu : (p, u) ∈ t.reached) :
    u.Known := by
  induction p generalizing t with
  | nil => exact mem_reached_nil.mp hu ▸ ht
  | cons i p ih =>
    obtain ⟨layer, span, v, rfl, hv, hu⟩ := mem_reached_cons.mp hu
    exact ih (ht.part hv) hu

/-- To list something for each node reached is to list it for the root and then below each part. -/
theorem flatMap_reached {α : Type} (f : Term → List α) (layer : Layer Term) (span : Span) :
    ((node layer span).reached.flatMap fun x => f x.2) =
      f (node layer span) ++ layer.parts.flatMap fun u => u.reached.flatMap fun x => f x.2 := by
  rw [reached_node, List.flatMap_cons, List.flatMap_assoc]
  simp only [List.flatMap_map]
  conv => rhs; rw [← List.zipIdx_map_fst 0 layer.parts, List.flatMap_map]

end Term

/-! ## Complaints -/

namespace Accumulate

open scoped List

def complaints (t : Term) : List Diagnostic :=
  match verdict t with
  | .ok v => Verdict.errors v
  | .error _ => []

/-- The type that accumulation ends with, if it does. -/
def typeOf? (t : Term) : Option Ty :=
  match verdict t with
  | .ok (.ok τ) => some τ
  | _ => none

/-- The complaint about a term that has a type, but another than the one expected. -/
def mistyped (expected : Ty) (code : Code) (t : Term) : List Diagnostic :=
  match typeOf? t with
  | some τ => if τ.equal expected then [] else [.ofCode code t.span]
  | none => []

/-- The complaint about branches that both have a type, but different ones. -/
def unlike (span : Span) (onTrue onFalse : Term) : List Diagnostic :=
  match typeOf? onTrue, typeOf? onFalse with
  | some σ, some τ => if σ.equal τ then [] else [.ofCode .branchesDiffer span]
  | _, _ => []

def own : Term → List Diagnostic
  | .node (.bool _) _ | .node (.number _) _ => []
  | .node (.add left right) _ =>
    mistyped .number .operandNotNumber left ++ mistyped .number .operandNotNumber right
  | .node (.ite cond onTrue onFalse) span =>
    mistyped .boolean .conditionNotBoolean cond ++ unlike span onTrue onFalse
  | .node (.var _) span => [.ofCode .notImplemented span (some "variable")]
  | .node (.func _ _) span => [.ofCode .notImplemented span (some "function")]
  | .node (.call _ _) span => [.ofCode .notImplemented span (some "call")]
  | .node (.seq _ _) span => [.ofCode .notImplemented span (some "sequence")]
  | .node (.const _ _ _) span => [.ofCode .notImplemented span (some "const")]
  | .unknown _ _ => []

theorem complaints_of_known {t : Term} (ht : t.Known) :
    complaints t = Verdict.errors (judge t) := by
  rw [complaints, verdict_of_known ht]

theorem typeOf?_of_known {t : Term} (ht : t.Known) : typeOf? t = (judge t).toOption := by
  rw [typeOf?, verdict_of_known ht]
  cases judge t <;> rfl

theorem errors_numeric {t : Term} (ht : t.Known) :
    Verdict.errors (numeric ⟨judge t, t⟩) =
      complaints t ++ mistyped .number .operandNotNumber t := by
  rw [complaints_of_known ht, mistyped, typeOf?_of_known ht]
  cases judge t with
  | error ds => simp [numeric, settled, operand, Verdict.errors, Except.toOption]
  | ok τ =>
    cases τ <;> simp [numeric, settled, operand, Verdict.errors, Except.toOption,
      Diagnostics.toList, Child.span, Ty.equal, Ty.equalPairs]

theorem condition_eq {t : Term} (ht : t.Known) :
    condition ⟨judge t, t⟩ = mistyped .boolean .conditionNotBoolean t := by
  rw [mistyped, typeOf?_of_known ht]
  cases judge t with
  | error ds => rfl
  | ok τ => cases τ <;> simp [condition, Except.toOption, Child.span, Ty.equal, Ty.equalPairs]

theorem branches_eq {onTrue onFalse : Term} (ht : onTrue.Known) (hf : onFalse.Known)
    (span : Span) : branches span (judge onTrue) (judge onFalse) = unlike span onTrue onFalse := by
  rw [unlike, typeOf?_of_known ht, typeOf?_of_known hf]
  cases judge onTrue <;> cases judge onFalse <;> rfl

section Node

variable {span : Span}

theorem complaints_add {left right : Term} (ht : (Term.node (.add left right) span).Known) :
    complaints (.node (.add left right) span) =
      (complaints left ++ mistyped .number .operandNotNumber left) ++
        (complaints right ++ mistyped .number .operandNotNumber right) := by
  have hleft : left.Known := ht.part (i := 0) rfl
  have hright : right.Known := ht.part (i := 1) rfl
  rw [complaints_of_known ht, judge_node, Layer.map, errors_add, errors_numeric hleft,
    errors_numeric hright]

theorem complaints_ite {cond onTrue onFalse : Term}
    (ht : (Term.node (.ite cond onTrue onFalse) span).Known) :
    complaints (.node (.ite cond onTrue onFalse) span) =
      complaints cond ++ complaints onTrue ++ complaints onFalse ++
        own (.node (.ite cond onTrue onFalse) span) := by
  have hcond : cond.Known := ht.part (i := 0) rfl
  have htrue : onTrue.Known := ht.part (i := 1) rfl
  have hfalse : onFalse.Known := ht.part (i := 2) rfl
  rw [complaints_of_known ht, judge_node, Layer.map, errors_ite, found, condition_eq hcond,
    branches_eq htrue hfalse, complaints_of_known hcond, complaints_of_known htrue,
    complaints_of_known hfalse, own]
  simp only [List.append_assoc]

/-- A node that is not looked into has its own complaints only. -/
theorem complaints_of_parts_nil {layer : Layer Term} (ht : (Term.node layer span).Known)
    (hp : layer.parts = []) : complaints (.node layer span) = own (.node layer span) := by
  rw [complaints_of_known ht, judge_node]
  cases layer with
  | add | ite => cases hp
  | bool | number | var | func | call | seq | const => rfl

/-- A node adds its own complaints to those of its parts and drops none of them. -/
theorem complaints_perm {layer : Layer Term} (ht : (Term.node layer span).Known) :
    complaints (.node layer span) ~ own (.node layer span) ++ layer.parts.flatMap complaints := by
  cases layer with
  | add left right =>
    rw [complaints_add ht, own, Layer.parts]
    simp only [List.flatMap_cons, List.flatMap_nil, List.append_nil]
    -- the complaint about an operand stands behind those in it, and not at the end
    generalize complaints left = ls, complaints right = rs
    generalize mistyped _ _ left = l, mistyped _ _ right = r
    calc (ls ++ l) ++ (rs ++ r)
      _ ~ (l ++ ls) ++ (r ++ rs) := .append List.perm_append_comm List.perm_append_comm
      _ = l ++ (ls ++ (r ++ rs)) := List.append_assoc ..
      _ ~ l ++ (r ++ (ls ++ rs)) := .append_left l (List.perm_append_comm_assoc ..)
      _ = (l ++ r) ++ (ls ++ rs) := (List.append_assoc ..).symm
  | ite cond onTrue onFalse =>
    rw [complaints_ite ht, Layer.parts, List.append_assoc (complaints cond)]
    simp only [List.flatMap_cons, List.flatMap_nil, List.append_nil]
    exact List.perm_append_comm
  | bool | number | var | func | call | seq | const =>
    exact .of_eq ((complaints_of_parts_nil ht rfl).trans (List.append_nil _).symm)

end Node

/-! ## Places of blocks -/

/-- The complaints of a node that come before those of its part number `i`. -/
def before : Layer Term → Nat → List Diagnostic
  | .add left _, 1 => complaints left ++ mistyped .number .operandNotNumber left
  | .ite cond _ _, 1 => complaints cond
  | .ite cond onTrue _, 2 => complaints cond ++ complaints onTrue
  | _, _ => []

def start : Path → Term → Nat
  | i :: p, .node layer _ => (before layer i).length + (layer.parts[i]?.map (start p)).getD 0
  | _, _ => 0

theorem start_cons {layer : Layer Term} {i : Nat} {u : Term} (hu : layer.parts[i]? = some u)
    (p : Path) (span : Span) :
    start (i :: p) (.node layer span) = (before layer i).length + start p u := by
  rw [start, hu]
  rfl

theorem blockAt_part {layer : Layer Term} {span : Span} {i : Nat} {u : Term}
    (ht : (Term.node layer span).Known) (hu : layer.parts[i]? = some u) :
    BlockAt (complaints u) (complaints (.node layer span)) (before layer i).length := by
  cases layer with
  | add left right =>
    rw [complaints_add ht]
    rcases i with _ | _ | i
    · cases hu
      exact ⟨[], _, List.append_assoc .., rfl⟩
    · cases hu
      exact ⟨before _ 1, _, (List.append_assoc ..).symm, rfl⟩
    · cases hu
  | ite cond onTrue onFalse =>
    rw [complaints_ite ht]
    rcases i with _ | _ | _ | i
    · cases hu
      exact ⟨[], _, (List.append_assoc ..).trans (List.append_assoc ..), rfl⟩
    · cases hu
      exact ⟨before _ 1, _, List.append_assoc .., rfl⟩
    · cases hu
      exact ⟨before _ 2, _, rfl, rfl⟩
    · cases hu
  | bool | number | var | func | call | seq | const => cases hu

/-- The complaints of a part are all before those of the next. -/
theorem before_le {layer : Layer Term} {i j : Nat} {u v : Term} (hu : layer.parts[i]? = some u)
    (hv : layer.parts[j]? = some v) (hij : i < j) :
    (before layer i).length + (complaints u).length ≤ (before layer j).length := by
  cases layer with
  | add left right =>
    obtain ⟨rfl, rfl⟩ : i = 0 ∧ j = 1 := by
      have := (List.getElem?_eq_some_iff.mp hv).1
      simp only [Layer.parts, List.length_cons, List.length_nil] at this
      omega
    cases hu
    simp [before]
  | ite cond onTrue onFalse =>
    obtain ⟨rfl, rfl | rfl⟩ | ⟨rfl, rfl⟩ : (i = 0 ∧ (j = 1 ∨ j = 2)) ∨ (i = 1 ∧ j = 2) := by
      have := (List.getElem?_eq_some_iff.mp hv).1
      simp only [Layer.parts, List.length_cons, List.length_nil] at this
      omega
    all_goals
      cases hu
      simp [before]
  | bool | number | var | func | call | seq | const => cases hu

theorem blockAt_reached {t u : Term} {p : Path} (ht : t.Known) (hu : (p, u) ∈ t.reached) :
    BlockAt (complaints u) (complaints t) (start p t) := by
  induction p generalizing t with
  | nil =>
    cases Term.mem_reached_nil.mp hu
    rw [start]
    · exact .refl _
    · intro i q layer span hp
      cases hp
  | cons i p ih =>
    obtain ⟨layer, span, v, rfl, hv, hu⟩ := Term.mem_reached_cons.mp hu
    rw [start_cons hv]
    exact (blockAt_part ht hv).trans (ih (ht.part hv) hu)

/-- In two parts of one node, what is reached in the earlier part comes first, wherever that node
is itself. -/
theorem start_le {t u v : Term} {p q q' : Path} {i j : Nat} (ht : t.Known) (hij : i < j)
    (hu : (p ++ i :: q, u) ∈ t.reached) (hv : (p ++ j :: q', v) ∈ t.reached) :
    start (p ++ i :: q) t + (complaints u).length ≤ start (p ++ j :: q') t := by
  induction p generalizing t with
  | nil =>
    obtain ⟨layer, span, a, rfl, ha, hu⟩ := Term.mem_reached_cons.mp hu
    obtain ⟨_, _, b, heq, hb, _⟩ := Term.mem_reached_cons.mp hv
    cases heq
    -- `u` is in part `i` of the root, which ends before part `j` begins
    have hinside := (blockAt_reached (ht.part ha) hu).le_length
    have hbefore := before_le ha hb hij
    rw [List.nil_append, List.nil_append, start_cons ha, start_cons hb]
    omega
  | cons k p ih =>
    obtain ⟨layer, span, a, rfl, ha, hu⟩ := Term.mem_reached_cons.mp hu
    obtain ⟨_, _, b, heq, hb, hv⟩ := Term.mem_reached_cons.mp hv
    cases heq
    -- both are in part `k`, and what is before it moves both places by as much
    cases ha.symm.trans hb
    have hle := ih (ht.part ha) hu hv
    rw [List.cons_append, List.cons_append, start_cons ha, start_cons ha]
    omega

theorem complaints_perm_reached {t : Term} (ht : t.Known) :
    complaints t ~ t.reached.flatMap fun x => own x.2 := by
  induction t using Term.byChildren with
  | unknown variant span => cases ht
  | node layer span ih =>
    rw [Term.flatMap_reached]
    refine (complaints_perm ht).trans (.append_left _ (.flatMap_left _ fun u hu => ?_))
    have hchild := layer.parts_subset hu
    exact ih u hchild (Term.known_node.mp ht u hchild)

end Accumulate

open scoped List
open Accumulate

/-- The complaints of every node that is reached stand together among those of the whole term, in
the order of the parts that the nodes are in. No complaint is in none of these places or in two:
altogether they are the own complaints of the nodes reached, each once. -/
theorem complaints_in_blocks {t : Term} (ht : t.Known) :
    (∃ place : Path → Nat,
      (∀ p u, (p, u) ∈ t.reached →
        (∃ v, verdict u = .ok v ∧ complaints u = Verdict.errors v) ∧
          BlockAt (complaints u) (complaints t) (place p)) ∧
      ∀ p i j q q' u v, i < j → (p ++ i :: q, u) ∈ t.reached → (p ++ j :: q', v) ∈ t.reached →
        place (p ++ i :: q) + (complaints u).length ≤ place (p ++ j :: q')) ∧
    complaints t ~ (t.reached.flatMap fun x => own x.2) ∧
    (complaints t).length = t.reached.foldr (fun x n => (own x.2).length + n) 0 := by
  refine ⟨⟨(start · t), ?_, ?_⟩, complaints_perm_reached ht, ?_⟩
  · intro p u hu
    have hknown := ht.reached hu
    exact ⟨⟨_, verdict_of_known hknown, complaints_of_known hknown⟩, blockAt_reached ht hu⟩
  · intro p i j q q' u v hij hu hv
    exact start_le ht hij hu hv
  · rw [(complaints_perm_reached ht).length_eq, List.length_flatMap, List.sum_eq_foldr,
      List.foldr_map]

/-- The complaints of `(true + 1) + (1 ? x : true)`. -/
theorem complaints_in_blocks_of_sum :
    let node (layer : Layer Term) (i j : Nat) : Term :=
      .node layer (Position.spanTo "<stdin>" ⟨1, i⟩ ⟨1, j⟩)
    let left := node (.add (node (.bool true) 1 5) (node (.number 1) 8 9)) 0 10
    let x := node (.var "x") 18 19
    let right := node (.ite (node (.number 1) 14 15) x (node (.bool true) 22 26)) 13 27
    let t := node (.add left right) 0 27
    t.Known ∧ ∃ place : Path → Nat,
      BlockAt (complaints left) (complaints t) (place [0]) ∧
      BlockAt (complaints x) (complaints t) (place [1, 1]) ∧
      place [0] + (complaints left).length ≤ place [1, 1] ∧
      (complaints left).length = 1 ∧ (complaints x).length = 1 ∧
      t.reached.foldr (fun x n => (own x.2).length + n) 0 = 3 := by
  intro node left x right t
  have ht : t.Known := by simp [t, left, right, x, node, Layer.children]
  obtain ⟨⟨place, hblock, horder⟩, -, hlength⟩ := complaints_in_blocks ht
  have hleft : ([0], left) ∈ t.reached :=
    Term.mem_reached_cons.mpr ⟨_, _, left, rfl, rfl, Term.mem_reached_nil.mpr rfl⟩
  have hright : ([1], x) ∈ right.reached :=
    Term.mem_reached_cons.mpr ⟨_, _, x, rfl, rfl, Term.mem_reached_nil.mpr rfl⟩
  have hx : ([1, 1], x) ∈ t.reached := Term.mem_reached_cons.mpr ⟨_, _, right, rfl, rfl, hright⟩
  refine ⟨ht, place, (hblock _ _ hleft).2, (hblock _ _ hx).2, ?_, ?_, ?_, ?_⟩
  · exact horder [] 0 1 [] [1] _ _ Nat.zero_lt_one hleft hx
  · rw [complaints_of_known (ht.reached hleft)]
    rfl
  · rw [complaints_of_known (ht.reached hx)]
    rfl
  · rw [← hlength, complaints_of_known ht]
    rfl

end ArrowLang
