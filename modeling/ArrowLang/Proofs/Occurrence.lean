import ArrowLang.Proofs.Typing

/-!
# ArrowLang.Proofs.Occurrence

The places of a term. A place is the path that leads to it from the root, as the numbers of the
children passed on the way.

* `Term.postorder`: all places of a term, those inside a node before the node itself.
* `Occurs Γ t p Δ u`: at the place `p` of `t` stands `u`, and its scope is `Δ` if that of `t` is
  `Γ`.
* `TypedAt Γ t p`: what stands at `p` has a type in its scope.

The scope of a place depends on types, since `const` gives its name the type of what it binds. So a
place behind a `const` has a scope only if the part that is bound has a type.
-/

namespace ArrowLang

abbrev Path := List Nat

namespace Path

/-- The places inside of children, from the `n`-th child on, given the places of each. -/
def below : Nat → List (List Path) → List Path
  | _, [] => []
  | n, paths :: rest => paths.map (n :: ·) ++ below (n + 1) rest

theorem below_append (n : Nat) (as bs : List (List Path)) :
    below n (as ++ bs) = below n as ++ below (n + as.length) bs := by
  induction as generalizing n with
  | nil => rfl
  | cons a as ih =>
    rw [List.cons_append, below, below, ih, List.append_assoc, List.length_cons,
      Nat.add_right_comm, Nat.add_assoc]

theorem mem_below {n : Nat} {as : List (List Path)} {p : Path} :
    p ∈ below n as ↔ ∃ i paths q, as[i]? = some paths ∧ q ∈ paths ∧ p = (n + i) :: q := by
  induction as generalizing n with
  | nil => simp [below]
  | cons a as ih =>
    rw [below, List.mem_append, ih]
    constructor
    · rintro (h | ⟨i, paths, q, hi, hq, rfl⟩)
      · obtain ⟨q, hq, rfl⟩ := List.mem_map.mp h
        exact ⟨0, a, q, rfl, hq, rfl⟩
      · exact ⟨i + 1, paths, q, hi, hq, by rw [Nat.add_right_comm, Nat.add_assoc]⟩
    · rintro ⟨i, paths, q, hi, hq, rfl⟩
      cases i with
      | zero =>
        cases hi
        exact .inl (List.mem_map_of_mem hq)
      | succ i => exact .inr ⟨i, paths, q, hi, hq, by rw [Nat.add_right_comm, Nat.add_assoc]⟩

/-- The places inside of the child with number `i` stand between those of the children around it. -/
theorem below_split {α : Type} (f : α → List Path) {ts : List α} {i : Nat} {u : α}
    (hu : ts[i]? = some u) :
    below 0 (ts.map f) = below 0 ((ts.take i).map f) ++
      ((f u).map (i :: ·) ++ below (i + 1) ((ts.drop (i + 1)).map f)) := by
  obtain ⟨hi, rfl⟩ := List.getElem?_eq_some_iff.mp hu
  have hsplit : ts = ts.take i ++ ts[i] :: ts.drop (i + 1) := by
    rw [← List.drop_eq_getElem_cons hi, List.take_append_drop]
  have hlen : ((ts.take i).map f).length = i := by
    rw [List.length_map, List.length_take, Nat.min_eq_left (Nat.le_of_lt hi)]
  conv => lhs; rw [hsplit]
  rw [List.map_append, List.map_cons, below_append, below, hlen, Nat.zero_add]

end Path

/-- The places of a term in post-order, children in evaluation order. -/
def Term.postorder : Term → List Path :=
  Term.recurse (fun layer _ => Path.below 0 (layer.map Child.out).children ++ [[]]) fun _ _ => [[]]

theorem Term.postorder_node (layer : Layer Term) (span : Span) :
    (node layer span).postorder = Path.below 0 (layer.children.map postorder) ++ [[]] := by
  rw [postorder, recurse_node, Layer.children_map, Layer.children_map, List.map_map]
  rfl

/-- The scope of the child with number `i` is `Δ` if that of the node is `Γ`. -/
def ChildScope (Γ : Context) (layer : Layer Term) (i : Nat) (Δ : Context) : Prop :=
  match layer, i with
  | .func params _, _ => Δ = Γ.bindParams params
  | .const name init _, 1 => ∃ τ, HasType Γ init τ ∧ Δ = Γ.bind name τ
  | _, _ => Δ = Γ

inductive Occurs : Context → Term → Path → Context → Term → Prop where
  | here {Γ : Context} {t : Term} : Occurs Γ t [] Γ t
  | child {Γ Δ Θ : Context} {layer : Layer Term} {span : Span} {i : Nat} {u v : Term} {p : Path} :
      layer.children[i]? = some u → ChildScope Γ layer i Δ → Occurs Δ u p Θ v →
      Occurs Γ (.node layer span) (i :: p) Θ v

def TypedAt (Γ : Context) (t : Term) (p : Path) : Prop :=
  ∃ Δ u τ, Occurs Γ t p Δ u ∧ HasType Δ u τ

theorem HasType.unique {Γ : Context} {t : Term} {σ τ : Ty} (hσ : HasType Γ t σ)
    (hτ : HasType Γ t τ) : σ = τ := by
  induction hσ generalizing τ with
  | bool => exact (hasType_bool.mp hτ).symm
  | number => exact (hasType_number.mp hτ).symm
  | add _ _ _ _ => exact (hasType_add.mp hτ).2.2.symm
  | ite _ _ _ _ _ iht _ => exact iht (hasType_ite.mp hτ).2.1
  | var h => exact Option.some.inj (h.symm.trans (hasType_var.mp hτ))
  | func _ ih =>
    obtain ⟨ret, hb, rfl⟩ := hasType_func.mp hτ
    rw [ih hb]
  | call _ _ _ _ _ ihc _ =>
    obtain ⟨params, τs, hc, _⟩ := hasType_call.mp hτ
    exact (Ty.func.inj (ihc hc)).2
  | seq _ _ _ ihr => exact ihr (hasType_seq.mp hτ).2
  | const _ _ ihi ihr =>
    obtain ⟨υ, hi, hr⟩ := hasType_const.mp hτ
    rw [← ihi hi] at hr
    exact ihr hr

theorem ChildScope.unique {Γ Δ Δ' : Context} {layer : Layer Term} {i : Nat}
    (h : ChildScope Γ layer i Δ) (h' : ChildScope Γ layer i Δ') : Δ = Δ' := by
  cases layer with
  | const name init rest =>
    match i, h, h' with
    | 0, h, h' => exact Eq.trans h (Eq.symm h')
    | 1, ⟨σ, hσ, hΔ⟩, ⟨τ, hτ, hΔ'⟩ => rw [hΔ, hΔ', hσ.unique hτ]
    | n + 2, h, h' => exact Eq.trans h (Eq.symm h')
  | _ => exact Eq.trans h (Eq.symm h')

theorem Occurs.unique {Γ Δ Δ' : Context} {t u u' : Term} {p : Path} (h : Occurs Γ t p Δ u)
    (h' : Occurs Γ t p Δ' u') : Δ = Δ' ∧ u = u' := by
  induction h with
  | here => cases h'; exact ⟨rfl, rfl⟩
  | child hc hs _ ih =>
    cases h' with
    | child hc' hs' ho' =>
      cases hc.symm.trans hc'
      cases hs.unique hs'
      exact ih ho'

/-- A node that has a type gives its children scopes in which they have types. -/
theorem HasType.child {Γ : Context} {layer : Layer Term} {span : Span} {τ : Ty} {i : Nat} {u : Term}
    (h : HasType Γ (.node layer span) τ) (hu : layer.children[i]? = some u) :
    ∃ Δ υ, ChildScope Γ layer i Δ ∧ HasType Δ u υ := by
  cases h with
  | bool => simp [Layer.children] at hu
  | number => simp [Layer.children] at hu
  | var _ => simp [Layer.children] at hu
  | add hl hr =>
    rcases i with _ | _ | i <;> cases hu
    · exact ⟨Γ, _, rfl, hl⟩
    · exact ⟨Γ, _, rfl, hr⟩
  | ite hc ht hf _ =>
    rcases i with _ | _ | _ | i <;> cases hu
    · exact ⟨Γ, _, rfl, hc⟩
    · exact ⟨Γ, _, rfl, ht⟩
    · exact ⟨Γ, _, rfl, hf⟩
  | func hb =>
    rcases i with _ | i <;> cases hu
    exact ⟨_, _, rfl, hb⟩
  | call hc hl ha _ _ =>
    rcases i with _ | i
    · cases hu
      exact ⟨Γ, _, rfl, hc⟩
    · obtain ⟨τ, hx⟩ := exists_mem_zip hl (List.mem_of_getElem? hu)
      exact ⟨Γ, τ, rfl, ha _ hx⟩
  | seq hf hr =>
    rcases i with _ | _ | i <;> cases hu
    · exact ⟨Γ, _, rfl, hf⟩
    · exact ⟨Γ, _, rfl, hr⟩
  | const hi hr =>
    rcases i with _ | _ | i <;> cases hu
    · exact ⟨Γ, _, rfl, hi⟩
    · exact ⟨_, _, ⟨_, hi, rfl⟩, hr⟩

theorem TypedAt.of_child {Γ Δ : Context} {layer : Layer Term} {span : Span} {i : Nat} {u : Term}
    {p : Path} (hu : layer.children[i]? = some u) (hs : ChildScope Γ layer i Δ)
    (h : TypedAt Δ u p) : TypedAt Γ (.node layer span) (i :: p) := by
  obtain ⟨Θ, v, τ, ho, hv⟩ := h
  exact ⟨Θ, v, τ, .child hu hs ho, hv⟩

/-- Where a term has a type, everything in it has one. -/
theorem HasType.typedAt {t : Term} :
    ∀ {Γ : Context} {τ : Ty}, HasType Γ t τ → ∀ p ∈ t.postorder, TypedAt Γ t p := by
  induction t using Term.byChildren with
  | unknown variant span => intro Γ τ h; exact absurd h not_hasType_unknown
  | node layer span ih =>
    intro Γ τ h p hp
    rw [Term.postorder_node, List.mem_append, List.mem_singleton, Path.mem_below] at hp
    rcases hp with ⟨i, paths, q, hi, hq, rfl⟩ | rfl
    · rw [List.getElem?_map, Option.map_eq_some_iff] at hi
      obtain ⟨u, hu, rfl⟩ := hi
      obtain ⟨Δ, υ, hs, hc⟩ := h.child hu
      rw [Nat.zero_add]
      exact .of_child hu hs (ih u (List.mem_of_getElem? hu) hc q hq)
    · exact ⟨Γ, _, τ, .here, h⟩

end ArrowLang
