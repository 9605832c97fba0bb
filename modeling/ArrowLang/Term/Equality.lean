import ArrowLang.Term
import ArrowLang.Ty.Equality

/-!
# ArrowLang.Term.Equality

Equality of terms as programs: spans and the names of function parameters play no part.
-/

namespace ArrowLang

universe u

/-- Parameter lists with equal types in the same order. -/
def sameParams (ps qs : List (Param Ty)) : Bool :=
  ps.length == qs.length && (ps.zip qs).all fun pq => pq.1 == pq.2

/-- The pairs of corresponding children, if the two nodes agree apart from their children. -/
def Layer.matchUp {R : Type u} : Layer R → Layer R → Option (List (R × R))
  | .bool a, .bool b => if a = b then some [] else none
  | .number a, .number b => if a = b then some [] else none
  | .add l r, .add l' r' => some [(l, l'), (r, r')]
  | .ite c t e, .ite c' t' e' => some [(c, c'), (t, t'), (e, e')]
  | .var x, .var y => if x = y then some [] else none
  | .func ps b, .func qs b' => if sameParams ps qs then some [(b, b')] else none
  | .call f as, .call g bs => if as.length = bs.length then some ((f, g) :: as.zip bs) else none
  | .seq a b, .seq a' b' => some [(a, a'), (b, b')]
  | .const x a b, .const y a' b' => if x = y then some [(a, a'), (b, b')] else none
  | _, _ => none

/-- The left members of matched children are the left node's children. -/
theorem Layer.matchUp_fst {R : Type u} {l m : Layer R} {pairs : List (R × R)}
    (h : l.matchUp m = some pairs) : pairs.map Prod.fst = l.children := by
  cases l <;> cases m <;> simp [Layer.matchUp, Layer.children] at h ⊢
  case call.call f as g bs =>
    obtain ⟨hl, rfl⟩ := h
    simpa using List.map_fst_zip (by omega)
  all_goals grind

namespace Term

/-- All pairs are equal as programs. -/
def equalPairs (pending : List (Term × Term)) : Bool :=
  match pending with
  | [] => true
  | (.node l _, .node m _) :: rest =>
    match _h : l.matchUp m with
    | some pairs => equalPairs (pairs ++ rest)
    | none => false
  | _ :: _ => false
termination_by totalSize (pending.map Prod.fst)
decreasing_by
  simp [Layer.matchUp_fst _h, size_node]

/-- Equality up to spans and the names of function parameters. -/
def equal (t u : Term) : Bool := equalPairs [(t, u)]

end Term

end ArrowLang
