import ArrowLang.Proofs.ParameterNames
import ArrowLang.Proofs.Scopes

/-!
# ArrowLang.Proofs.BoundNames

Renaming what a term binds does not change how it is checked.

* `Term.rename x y`: the term with its free occurrences of the variable `x` renamed to `y`.
* `Term.put p u`: the term with `u` at the place `p`.
* `Corresponds ρ x y`: `x` and `y` refer to the same binder, or both to none, where `ρ` pairs up the
  binders around them, the innermost first.
* `Term.AlphaEq v ρ t t'`: the terms are the same but for the names that they bind, and types in
  annotations look the same in the view `v`.

`FailFast.check_alike_of_alphaEq` says that the checks of such terms do the same things. That a
renamed term is such a term is a matter of names only: `AlphaEq.rename` for what stands below the
binder, and `AlphaEq.put` for what stands around it.
-/

namespace ArrowLang

/-! ## Renaming and replacing -/

namespace Layer

universe u v w

variable {R : Type u} {S : Type v}

theorem mapIdx_map {T : Type w} (g : R → S) (f : Nat → S → T) (layer : Layer R) :
    (layer.map g).mapIdx f = layer.mapIdx fun i r => f i (g r) := by
  cases layer with
  | call callee args =>
    have hargs : (args.map g).mapIdx (fun i arg => f (i + 1) arg) =
        args.mapIdx fun i arg => f (i + 1) (g arg) :=
      List.ext_getElem? fun i => by simp [Function.comp_def]
    simp only [map, mapIdx, hargs]
  | _ => rfl

/-- A child is left as it was where the node binds the name. -/
def rename (x y : String) : Layer (Child Term) → Layer Term
  | .var z => .var (if z = x then y else z)
  | layer => layer.mapIdx fun i child => if x ∈ layer.binds i then child.node else child.out

theorem rename_of_ne {layer : Layer (Child Term)} (h : ∀ z, layer ≠ .var z) (x y : String) :
    layer.rename x y =
      layer.mapIdx fun i child => if x ∈ layer.binds i then child.node else child.out := by
  cases layer with
  | var z => exact absurd rfl (h z)
  | _ => rfl

end Layer

/-- The parameter with the name `y` if its name is `x`. -/
def Param.rename (x y : String) (p : Param Ty) : Param Ty :=
  { p with name := if p.name = x then y else p.name }

namespace Term

def rename (x y : String) : Term → Term :=
  recurse (fun layer span => .node (layer.rename x y) span) .unknown

def put : Path → Term → Term → Term
  | [], _, u => u
  | i :: p, .node layer span, u =>
    .node (layer.mapIdx fun j child => if j = i then put p child u else child) span
  | _ :: _, .unknown variant span, _ => .unknown variant span

/-- The names that the root of a term has in it: that of a variable or a constant, or those of
parameters. -/
def ownNames : Term → List String
  | .node (.var name) _ => [name]
  | .node (.func params _) _ => params.map Param.name
  | .node (.const name _ _) _ => [name]
  | _ => []

/-- The names that the root of a term binds. -/
def ownBinders : Term → List String
  | .node (.func params _) _ => params.map Param.name
  | .node (.const name _ _) _ => [name]
  | _ => []

/-- All names of variables, constants and parameters in a term. -/
def names (t : Term) : List String := t.preorder.flatMap ownNames

theorem rename_var (x y z : String) (span : Span) :
    (node (.var z) span).rename x y = node (.var (if z = x then y else z)) span := rfl

theorem rename_node {layer : Layer Term} (h : ∀ z, layer ≠ .var z) (x y : String) (span : Span) :
    (node layer span).rename x y =
      node (layer.mapIdx fun i u => if x ∈ layer.binds i then u else u.rename x y) span := by
  have hmap (z : String) : (layer.map fun t => Child.mk (t.rename x y) t) ≠ .var z := by
    cases layer with
    | var w => exact absurd rfl (h w)
    | _ => exact nofun
  have hnode : (node layer span).rename x y =
      node ((layer.map fun t => Child.mk (t.rename x y) t).rename x y) span :=
    recurse_node _ _ layer span
  rw [hnode, Layer.rename_of_ne hmap, Layer.mapIdx_map]
  simp only [Layer.binds_map]

theorem names_node (layer : Layer Term) (span : Span) :
    (node layer span).names = (node layer span).ownNames ++ layer.children.flatMap names :=
  flatMap_preorder_node ownNames layer span

theorem mem_names_var (x : String) (span : Span) : x ∈ (node (.var x) span).names := by
  rw [names_node]
  exact List.mem_cons_self

theorem mem_names_of_child {layer : Layer Term} {span : Span} {i : Nat} {u : Term} {x : String}
    (hu : layer.children[i]? = some u) (hx : x ∈ u.names) : x ∈ (node layer span).names := by
  rw [names_node, List.mem_append, List.mem_flatMap]
  exact .inr ⟨u, List.mem_of_getElem? hu, hx⟩

theorem mem_ownBinders_of_binds {layer : Layer Term} {span : Span} {i : Nat} {x : String}
    (hx : x ∈ layer.binds i) : x ∈ (node layer span).ownBinders := by
  cases layer with
  | func params body => exact hx
  | const name init rest =>
    rcases i with _ | _ | i
    · cases hx
    · exact hx
    · cases hx
  | _ => cases hx

theorem mem_ownNames_of_ownBinders {t : Term} {x : String} (hx : x ∈ t.ownBinders) :
    x ∈ t.ownNames := by
  rcases t with ⟨layer, span⟩ | ⟨variant, span⟩
  · cases layer with
    | func params body => exact hx
    | const name init rest => exact hx
    | _ => cases hx
  · cases hx

theorem mem_names_of_binds {layer : Layer Term} {span : Span} {i : Nat} {x : String}
    (hx : x ∈ layer.binds i) : x ∈ (node layer span).names := by
  rw [names_node, List.mem_append]
  exact .inl (mem_ownNames_of_ownBinders (mem_ownBinders_of_binds hx))

end Term

/-! ## Names that correspond -/

def Corresponds : List (String × String) → String → String → Prop
  | [], x, y => x = y
  | (a, b) :: ρ, x, y => (x = a ∧ y = b) ∨ (x ≠ a ∧ y ≠ b ∧ Corresponds ρ x y)

/-- Each of the pairs in front is the one in question, or has nothing to do with it. -/
theorem corresponds_append {δ ρ : List (String × String)} {x y : String}
    (hδ : ∀ p ∈ δ, (x = p.1 ∧ y = p.2) ∨ (x ≠ p.1 ∧ y ≠ p.2))
    (h : (x, y) ∈ δ ∨ Corresponds ρ x y) : Corresponds (δ ++ ρ) x y := by
  induction δ with
  | nil => simpa using h
  | cons p δ ih =>
    rw [List.forall_mem_cons] at hδ
    rcases hδ.1 with hp | ⟨hx, hy⟩
    · exact .inl hp
    · refine .inr ⟨hx, hy, ih hδ.2 ?_⟩
      rw [List.mem_cons] at h
      rcases h with (heq | hmem) | hρ
      · exact absurd (congrArg Prod.fst heq) hx
      · exact .inl hmem
      · exact .inr hρ

theorem mem_zip_self {names : List String} {a b : String} :
    (a, b) ∈ names.zip names ↔ a ∈ names ∧ b = a := by
  induction names with
  | nil => simp
  | cons n names ih =>
    simp only [List.zip_cons_cons, List.mem_cons, Prod.mk.injEq, ih]
    grind

/-- Names that are bound on both sides alike. -/
theorem corresponds_self {names : List String} {ρ : List (String × String)} {x : String}
    (h : x ∈ names ∨ Corresponds ρ x x) : Corresponds ((names.zip names).reverse ++ ρ) x x := by
  refine corresponds_append ?_ ?_
  · rintro ⟨a, b⟩ hp
    obtain ⟨_, rfl⟩ := mem_zip_self.mp (List.mem_reverse.mp hp)
    by_cases hx : x = b
    · exact .inl ⟨hx, hx⟩
    · exact .inr ⟨hx, hx⟩
  · exact h.imp (fun hx => List.mem_reverse.mpr (mem_zip_self.mpr ⟨hx, rfl⟩)) id

/-- The names, paired up with what they are once `x` is renamed to `y`. -/
def renamedPairs (x y : String) (names : List String) : List (String × String) :=
  names.map fun n => (n, if n = x then y else n)

theorem corresponds_renamed {names : List String} {ρ : List (String × String)} {x y : String}
    (hx : x ∈ names) (hy : y ∉ names) :
    Corresponds ((renamedPairs x y names).reverse ++ ρ) x y := by
  refine corresponds_append ?_ (.inl ?_)
  · simp only [renamedPairs, List.mem_reverse, List.forall_mem_map]
    intro n hn
    by_cases hnx : n = x
    · exact .inl ⟨hnx.symm, (if_pos hnx).symm⟩
    · rw [if_neg hnx]
      exact .inr ⟨Ne.symm hnx, fun hyn => hy (hyn ▸ hn)⟩
  · rw [renamedPairs, List.mem_reverse, List.mem_map]
    exact ⟨x, hx, by rw [if_pos rfl]⟩

theorem corresponds_other {names : List String} {ρ : List (String × String)} {x y z : String}
    (hzx : z ≠ x) (hzy : z ≠ y) (h : Corresponds ρ z z) :
    Corresponds ((renamedPairs x y names).reverse ++ ρ) z z := by
  refine corresponds_append ?_ (.inr h)
  simp only [renamedPairs, List.mem_reverse, List.forall_mem_map]
  intro n _
  by_cases hnx : n = x
  · rw [if_pos hnx, hnx]
    exact .inr ⟨hzx, hzy⟩
  · rw [if_neg hnx]
    by_cases hzn : z = n
    · exact .inl ⟨hzn, hzn⟩
    · exact .inr ⟨hzn, hzn⟩

/-! ## Terms that are the same but for bound names -/

namespace Term

/-- Children are compared with the names that the two nodes bind in them paired up. -/
inductive AlphaEq (v : Ty.View) : List (String × String) → Term → Term → Prop where
  | unknown {ρ : List (String × String)} {variant : String} {span : Span} :
      AlphaEq v ρ (.unknown variant span) (.unknown variant span)
  | node {ρ : List (String × String)} {layer layer' : Layer Term} {span : Span} :
      layer.Resembles v (Corresponds ρ) layer' →
      (∀ (i : Nat) (u u' : Term), layer.children[i]? = some u → layer'.children[i]? = some u' →
        AlphaEq v (((layer.binds i).zip (layer'.binds i)).reverse ++ ρ) u u') →
      AlphaEq v ρ (.node layer span) (.node layer' span)

namespace AlphaEq

variable {v : Ty.View} {ρ : List (String × String)} {t t' : Term} {x y : String}

theorem span_eq (h : AlphaEq v ρ t t') : t.span = t'.span := by
  cases h <;> rfl

theorem variantName_eq (h : AlphaEq v ρ t t') : t.variantName = t'.variantName := by
  cases h with
  | unknown => rfl
  | node hlayers _ => cases hlayers <;> rfl

theorem known (h : AlphaEq v ρ t t') : t.Known → t'.Known := by
  induction h with
  | unknown => exact id
  | node hlayers _ ih =>
    intro ht
    rw [known_node] at ht ⊢
    intro u' hu'
    obtain ⟨i, hi⟩ := List.getElem?_of_mem hu'
    obtain ⟨u, hu⟩ := hlayers.child hi
    exact ih i u u' hu hi (ht u (List.mem_of_getElem? hu))

theorem refl : ∀ {ρ : List (String × String)}, (∀ z ∈ t.names, Corresponds ρ z z) →
    AlphaEq v ρ t t := by
  induction t using byChildren with
  | unknown variant span => intro ρ _; exact .unknown
  | node layer span ih =>
    intro ρ h
    refine .node (Layer.resembles_self fun x hx => ?_) fun i u u' hu hu' => ?_
    · subst hx
      exact h x (mem_names_var x span)
    · cases hu.symm.trans hu'
      refine ih u (List.mem_of_getElem? hu) fun z hz => corresponds_self ?_
      exact .inr (h z (mem_names_of_child hu hz))

/-- Where `x` is bound again, what stands there has kept its name. -/
theorem rename : ∀ {ρ : List (String × String)}, y ∉ t.names → Corresponds ρ x y →
    (∀ z, z ≠ x → z ≠ y → Corresponds ρ z z) → AlphaEq v ρ t (t.rename x y) := by
  induction t using byChildren with
  | unknown variant span => intro ρ _ _ _; exact .unknown
  | node layer span ih =>
    intro ρ hy hxy hother
    by_cases hvar : ∃ z, layer = .var z
    · obtain ⟨z, rfl⟩ := hvar
      rw [rename_var]
      refine .node (.var ?_) nofun
      by_cases hz : z = x
      · rw [if_pos hz, hz]
        exact hxy
      · rw [if_neg hz]
        exact hother z hz fun hzy => hy (hzy ▸ mem_names_var z span)
    · rw [rename_node (not_exists.mp hvar)]
      refine .node (Layer.resembles_mapIdx fun z hz => absurd ⟨z, hz⟩ hvar) fun i u u' hu hu' => ?_
      rw [Layer.children_mapIdx, List.getElem?_mapIdx, hu] at hu'
      cases hu'
      rw [Layer.binds_mapIdx]
      have hyu : y ∉ u.names := fun h => hy (mem_names_of_child hu h)
      split
      · rename_i hx
        refine refl fun z hz => corresponds_self ?_
        by_cases hzx : z = x
        · exact .inl (hzx ▸ hx)
        · exact .inr (hother z hzx fun hzy => hyu (hzy ▸ hz))
      · rename_i hx
        refine ih u (List.mem_of_getElem? hu) hyu (corresponds_append ?_ (.inr hxy)) ?_
        · rintro ⟨a, b⟩ hp
          obtain ⟨ha, rfl⟩ := mem_zip_self.mp (List.mem_reverse.mp hp)
          refine .inr ⟨fun hxa => hx (hxa ▸ ha), fun hya => hy (mem_names_of_binds (i := i) ?_)⟩
          exact hya ▸ ha
        · exact fun z hzx hzy => corresponds_self (.inr (hother z hzx hzy))

/-- What stands around a place is not changed by what is put there. -/
theorem put {u u' : Term}
    (h : ∀ ρ : List (String × String), (∀ z, Corresponds ρ z z) → AlphaEq v ρ u u') {p : Path} :
    ∀ {t : Term} {ρ : List (String × String)}, t.at? p = some u → (∀ z, Corresponds ρ z z) →
      AlphaEq v ρ t (t.put p u') := by
  induction p with
  | nil =>
    intro t ρ ht hρ
    cases ht
    exact h ρ hρ
  | cons i p ih =>
    intro t ρ ht hρ
    cases t with
    | unknown variant span => cases ht
    | node layer span =>
      obtain ⟨c, hc, hat⟩ := at?_cons.mp ht
      refine .node (Layer.resembles_mapIdx fun x _ => hρ x) fun j w w' hw hw' => ?_
      rw [Layer.children_mapIdx, List.getElem?_mapIdx, hw] at hw'
      cases hw'
      rw [Layer.binds_mapIdx]
      have hdiag (z : String) : Corresponds
          (((layer.binds j).zip (layer.binds j)).reverse ++ ρ) z z := corresponds_self (.inr (hρ z))
      split
      · rename_i hj
        subst hj
        cases hc.symm.trans hw
        exact ih hat hdiag
      · exact refl fun z _ => hdiag z

theorem const {init rest : Term} {span : Span} (hy : y ∉ rest.names)
    (hρ : ∀ z, Corresponds ρ z z) :
    AlphaEq v ρ (.node (.const x init rest) span)
      (.node (.const y init (rest.rename x y)) span) := by
  refine .node .const fun i u u' hu hu' => ?_
  rcases i with _ | _ | i
  · cases hu
    cases hu'
    exact refl fun z _ => hρ z
  · cases hu
    cases hu'
    exact rename hy (.inl ⟨rfl, rfl⟩) fun z hzx hzy => .inr ⟨hzx, hzy, hρ z⟩
  · cases hu

theorem func {params : List (Param Ty)} {body : Term} {span : Span}
    (hx : x ∈ params.map Param.name) (hy : y ∉ params.map Param.name) (hbody : y ∉ body.names)
    (hρ : ∀ z, Corresponds ρ z z) :
    AlphaEq .upToNames ρ (.node (.func params body) span)
      (.node (.func (params.map (Param.rename x y)) (body.rename x y)) span) := by
  have hpairs : (params.map Param.name).zip ((params.map (Param.rename x y)).map Param.name) =
      renamedPairs x y (params.map Param.name) := by
    rw [renamedPairs, List.map_map, List.map_map, List.zip_map']
    rfl
  refine .node (.func ?_) fun i u u' hu hu' => ?_
  · rw [List.map_map]
    rfl
  · rcases i with _ | i
    · cases hu
      cases hu'
      simp only [Layer.binds, hpairs]
      exact rename hbody (corresponds_renamed hx hy) fun z hzx hzy =>
        corresponds_other hzx hzy (hρ z)
    · cases hu

end AlphaEq

end Term

/-! ## Checks -/

namespace Context

/-- Names that correspond have types that look the same, and a name without a type corresponds to
itself only. -/
def Match (v : Ty.View) (ρ : List (String × String)) (Γ Γ' : Context) : Prop :=
  ∀ x y, Corresponds ρ x y → (Γ x).map v.type = (Γ' y).map v.type ∧ (Γ x = none → x = y)

namespace Match

variable {v : Ty.View} {ρ : List (String × String)} {Γ Γ' : Context}

theorem refl : Match v [] Γ Γ := by
  rintro x _ rfl
  exact ⟨rfl, fun _ => rfl⟩

theorem bind (h : Match v ρ Γ Γ') (a b : String) {σ τ : Ty} (hσ : v.Same σ τ) :
    Match v ((a, b) :: ρ) (Γ.bind a σ) (Γ'.bind b τ) := by
  rintro x y (⟨rfl, rfl⟩ | ⟨hx, hy, hxy⟩)
  · simp only [Context.bind, if_pos]
    exact ⟨congrArg some hσ, fun hnone => absurd hnone (Option.some_ne_none σ)⟩
  · simp only [Context.bind, if_neg hx, if_neg hy]
    exact h x y hxy

theorem bindAll {bs bs' : Bindings}
    (hτ : bs.map (fun b => v.type b.2) = bs'.map fun b => v.type b.2) :
    ∀ {ρ : List (String × String)} {Γ Γ' : Context}, Match v ρ Γ Γ' →
      Match v (((bs.map Prod.fst).zip (bs'.map Prod.fst)).reverse ++ ρ) (Γ.bindAll bs)
        (Γ'.bindAll bs') := by
  induction bs generalizing bs' with
  | nil =>
    cases bs' with
    | nil => intro ρ Γ Γ' h; exact h
    | cons b' bs' => cases hτ
  | cons b bs ih =>
    cases bs' with
    | nil => cases hτ
    | cons b' bs' =>
      intro ρ Γ Γ' h
      rw [List.map_cons, List.map_cons, List.cons.injEq] at hτ
      rw [List.map_cons, List.map_cons, List.zip_cons_cons, List.reverse_cons, List.append_assoc]
      exact ih hτ.2 (h.bind b.1 b'.1 hτ.1)

end Match

end Context

/-- Below a binder the names that it binds on the two sides are paired up, and so are their
types. -/
theorem FailFast.check_alike_of_alphaEq {v : Ty.View} {ρ : List (String × String)} {t t' : Term}
    (h : t.AlphaEq v ρ t') :
    Comp.Alike (fun s => s) (fun e e' => Context.Match v ρ e.lookup e'.lookup) v.Same (check t)
      (check t') := by
  induction h with
  | unknown => exact .stray
  | @node ρ layer layer' span hlayers hchildren ih =>
    refine check_node_alike hlayers (fun x y e e' hxy he => he x y hxy) ?_ span
    intro i u u' hu hu'
    refine ⟨(hchildren i u u' hu hu').span_eq.symm, _, ih i u u' hu hu', ?_⟩
    intro e e' bs bs' he hb hb' hτ
    rw [Env.lookup_extend, Env.lookup_extend, ← hb, ← hb']
    exact he.bindAll hτ

namespace Checker

variable {c : Checker} {t t' : Term} {given : Given} {env : Env}

theorem check_of_alphaEq (hp : c.policy = .failFast) (ht : t.Known) (h : t.AlphaEq .exact [] t')
    (he : c.env given = .ok env) (host : Host) :
    c.check host t' given = c.check host t given := by
  have hself : Context.Match .exact [] env.lookup env.lookup := .refl
  have hrun := (FailFast.check_alike_of_alphaEq h).hostRun_eq hself host c.interval true
  rw [Report.mapSpans_id] at hrun
  have hopen : c.opening host t' = c.opening host t := by
    simp only [opening, h.variantName_eq]
  simp only [check, hp]
  rw [checkFirst_eq_ofRun host (FailFast.build_of_known (h.known ht)) he,
    checkFirst_eq_ofRun host (FailFast.build_of_known ht) he, hrun, hopen]

theorem agree_of_alphaEq (hp : c.policy = .failFast) (ht : t.Known)
    (h : t.AlphaEq .upToNames [] t') (he : c.env given = .ok env) (host : Host) :
    ∃ v v', (c.check host t given).outcome = .ok v ∧ (c.check host t' given).outcome = .ok v' ∧
      Verdict.Agree v v' := by
  have hself : Context.Match .upToNames [] env.lookup env.lookup := .refl
  obtain ⟨v, v', hv, hv', hagree⟩ := FailFast.agree_of_alike ht
    (FailFast.check_alike_of_alphaEq h) hself host c.interval true
  refine ⟨v, v', ?_, ?_, hagree⟩
  · simp only [check, hp, checkFirst_eq_ofRun host (FailFast.build_of_known ht) he]
    exact (CheckReport.ofRun_of_ok hv).1
  · simp only [check, hp, checkFirst_eq_ofRun host (FailFast.build_of_known (h.known ht)) he]
    exact (CheckReport.ofRun_of_ok hv').1

end Checker

/-- Renaming what is bound does not change checking. Take any place of a known term. If a constant
is bound there, it can be given a name that does not occur in what follows it, and the check leaves
the same behind as before. If a function stands there, the parameters of one name can be given
another that occurs neither among its parameters nor in its body. Then the two checks end with equal
types, or with the same diagnostic. The variables that refer to what was renamed are renamed with
it. -/
theorem renaming_keeps_checks {c : Checker} (hp : c.policy = .failFast) {t : Term} (ht : t.Known)
    {given : Given} {env : Env} (he : c.env given = .ok env) (host : Host) (p : Path)
    (x y : String) (span : Span) :
    (∀ init rest, t.at? p = some (.node (.const x init rest) span) → y ∉ rest.names →
      c.check host (t.put p (.node (.const y init (rest.rename x y)) span)) given =
        c.check host t given) ∧
    ∀ params body, t.at? p = some (.node (.func params body) span) →
      x ∈ params.map Param.name → y ∉ params.map Param.name → y ∉ body.names →
      ∃ v v', (c.check host t given).outcome = .ok v ∧
        (c.check host (t.put p (.node (.func (params.map (Param.rename x y)) (body.rename x y))
          span)) given).outcome = .ok v' ∧ Verdict.Agree v v' := by
  have hnone (z : String) : Corresponds [] z z := rfl
  constructor
  · intro init rest hat hy
    have halpha := Term.AlphaEq.put (v := .exact) (fun ρ hρ => .const hy hρ) hat hnone
    exact Checker.check_of_alphaEq hp ht halpha he host
  · intro params body hat hx hy hbody
    have halpha := Term.AlphaEq.put (fun ρ hρ => .func hx hy hbody hρ) hat hnone
    exact Checker.agree_of_alphaEq hp ht halpha he host

/-- In `const x = 1; x + ((x: number) => x)(x)` the constant and the parameter have one name. Each
can be renamed for itself. -/
theorem renaming_keeps_checks_of_shadowed :
    let var (z : String) : Term := .node (.var z) .unknown
    let identity (z : String) : Term := .node (.func [⟨z, .number⟩] (var z)) .unknown
    let sum (a z : String) : Term :=
      .node (.add (var a) (.node (.call (identity z) [var a]) .unknown)) .unknown
    let t (a z : String) : Term :=
      .node (.const a (.node (.number 1) .unknown) (sum a z)) .unknown
    let c : Checker := ⟨.failFast, .one, "chain"⟩
    (t "x" "x").Known ∧ (sum "x" "x").rename "x" "y" = sum "y" "x" ∧
      (c.check .direct (t "x" "x") .fresh).outcome = .ok (.ok .number) ∧
      c.check .direct (t "y" "x") .fresh = c.check .direct (t "x" "x") .fresh ∧
      ∃ v v', (c.check .direct (t "x" "x") .fresh).outcome = .ok v ∧
        (c.check .direct (t "x" "y") .fresh).outcome = .ok v' ∧ Verdict.Agree v v' := by
  intro var identity sum t c
  have ht : (t "x" "x").Known := by simp [t, sum, identity, var, Layer.children]
  have hnames : "y" ∉ (sum "x" "x").names := by
    simp [sum, identity, var, Term.names_node, Term.ownNames, Layer.children]
  have hbody : "y" ∉ (var "x").names := by
    simp [var, Term.names_node, Term.ownNames, Layer.children]
  have henv : c.env .fresh = .ok (.empty .chain) := rfl
  have hconst := (renaming_keeps_checks rfl ht henv .direct [] "x" "y" .unknown).1 _ _ rfl hnames
  have hfunc := (renaming_keeps_checks rfl ht henv .direct [1, 1, 0] "x" "y" .unknown).2 _ _ rfl
    (by decide) (by decide) hbody
  have hcall {Γ : Context} (hx : Γ "x" = some .number) :
      HasType Γ (.node (.call (identity "x") [var "x"]) .unknown) .number := by
    refine hasType_call.mpr ⟨[⟨"x", .number⟩], [.number], .func (.var rfl), ⟨rfl, ?_⟩, rfl, ?_⟩
    · simpa using HasType.var hx
    · simp [Ty.equal_iff]
  have htype : HasType (Env.empty .chain).lookup (t "x" "x") .number :=
    .const .number (.add (.var rfl) (hcall rfl))
  have houtcome := (Checker.failFast_ok_iff rfl ht henv .direct .number).mpr
    ((FailFast.eval_check_ok _ _ _).mpr htype)
  exact ⟨ht, rfl, houtcome, hconst, hfunc⟩

end ArrowLang
