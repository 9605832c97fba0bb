import ArrowLang.Proofs.Descent
import ArrowLang.Proofs.FreeVariables
import ArrowLang.Proofs.Policies

/-!
# ArrowLang.Proofs.Scopes

Which names are visible where.

* `Term.at? t p`: the subterm that stands at the place `p` of `t`.
* `Term.boundAt t p`: the names that are bound on the way from the root to `p`.
* `Term.FreeAt t p x s`: at `p` the variable `x` occurs with the span `s`, and is not bound there.

`Occurs.visible` says that the scope of a place has the names bound on the way to it, and for all
other names what the whole term is checked in. `FailFast.staged_check` says that a run is at each of
its boundaries in the scope of the place that it enters, so scopes that were left do not show.
-/

namespace ArrowLang

namespace Term

def at? : Path → Term → Option Term
  | [], t => some t
  | i :: p, .node layer _ => layer.children[i]?.bind (at? p)
  | _ :: _, .unknown _ _ => none

def boundAt : Path → Term → List String
  | i :: p, .node layer _ => layer.binds i ++ (layer.children[i]?.map (boundAt p)).getD []
  | _, _ => []

def FreeAt (t : Term) (p : Path) (x : String) (s : Span) : Prop :=
  t.at? p = some (.node (.var x) s) ∧ x ∉ t.boundAt p

theorem at?_cons {layer : Layer Term} {span : Span} {i : Nat} {p : Path} {v : Term} :
    (node layer span).at? (i :: p) = some v ↔
      ∃ u, layer.children[i]? = some u ∧ u.at? p = some v :=
  Option.bind_eq_some_iff

theorem boundAt_child {layer : Layer Term} {i : Nat} {u : Term} (hu : layer.children[i]? = some u)
    (span : Span) (p : Path) :
    (node layer span).boundAt (i :: p) = layer.binds i ++ u.boundAt p := by
  rw [boundAt, hu]
  rfl

theorem mem_postorder_of_at? {p : Path} :
    ∀ {t u : Term}, t.at? p = some u → p ∈ t.postorder := by
  induction p with
  | nil =>
    intro t u _
    cases t with
    | node layer span => simp [postorder_node]
    | unknown variant span => exact List.mem_cons_self
  | cons i p ih =>
    intro t u h
    cases t with
    | unknown variant span => cases h
    | node layer span =>
      obtain ⟨v, hv, hu⟩ := at?_cons.mp h
      rw [postorder_node, List.mem_append, Path.mem_below]
      exact .inl ⟨i, v.postorder, p, by rw [List.getElem?_map, hv]; rfl, ih hu, by simp⟩

/-! ## Free variables and where they occur -/

theorem mem_freeVars_iff {t : Term} {x : String} :
    x ∈ t.freeVars ↔ ∃ p s, t.FreeAt p x s := by
  induction t using byChildren with
  | unknown variant span =>
    refine iff_of_false (by simp [freeVars]) ?_
    rintro ⟨p, s, hp, _⟩
    cases p <;> cases hp
  | node layer span ih =>
    rw [mem_freeVars_node]
    constructor
    · rintro (rfl | ⟨i, u, hu, hx, hfree⟩)
      · exact ⟨[], span, rfl, by simp [boundAt]⟩
      · obtain ⟨p, s, hp, hx⟩ := (ih u (List.mem_of_getElem? hu)).mp hx
        refine ⟨i :: p, s, at?_cons.mpr ⟨u, hu, hp⟩, ?_⟩
        rw [boundAt_child hu, List.mem_append]
        exact not_or.mpr ⟨hfree, hx⟩
    · rintro ⟨p, s, hp, hx⟩
      cases p with
      | nil =>
        cases hp
        exact .inl rfl
      | cons i p =>
        obtain ⟨u, hu, hp⟩ := at?_cons.mp hp
        rw [boundAt_child hu, List.mem_append, not_or] at hx
        exact .inr ⟨i, u, hu, (ih u (List.mem_of_getElem? hu)).mpr ⟨p, s, hp, hx.2⟩, hx.1⟩

end Term

/-! ## Scopes of places -/

/-- Bindings give every one of their names a type and leave all others as they are. -/
theorem Context.bindAll_visible (bindings : Bindings) (x : String) :
    ∀ Γ : Context, (x ∈ bindings.map Prod.fst → (Γ.bindAll bindings x).isSome) ∧
      (x ∉ bindings.map Prod.fst → Γ.bindAll bindings x = Γ x) := by
  induction bindings with
  | nil => intro Γ; simp [bindAll]
  | cons b bindings ih =>
    intro Γ
    obtain ⟨hin, hout⟩ := ih (Γ.bind b.1 b.2)
    rw [List.map_cons, List.mem_cons, bindAll]
    constructor
    · intro hx
      by_cases hlater : x ∈ bindings.map Prod.fst
      · exact hin hlater
      · rw [hout hlater, bind, if_pos (hx.resolve_right hlater)]
        rfl
    · intro hx
      rw [hout fun h => hx (.inr h), bind, if_neg fun h => hx (.inl h)]

theorem ChildScope.visible {Γ Δ : Context} {layer : Layer Term} {i : Nat}
    (h : ChildScope Γ layer i Δ) (x : String) :
    (x ∈ layer.binds i → (Δ x).isSome) ∧ (x ∉ layer.binds i → Δ x = Γ x) := by
  have hsame (hΔ : Δ = Γ) : (x ∈ ([] : List String) → (Δ x).isSome) ∧ (x ∉ [] → Δ x = Γ x) := by
    simp [hΔ]
  cases layer with
  | func params body =>
    cases h
    rw [Context.bindParams_eq]
    have hvisible := Context.bindAll_visible (params.map fun p => (p.name, p.type)) x Γ
    rw [List.map_map] at hvisible
    exact hvisible
  | const name init rest =>
    rcases i with _ | _ | i
    · exact hsame h
    · obtain ⟨τ, _, rfl⟩ := h
      exact Context.bindAll_visible [(name, τ)] x Γ
    · exact hsame h
  | _ => exact hsame h

theorem Occurs.at? {Γ Δ : Context} {t u : Term} {p : Path} (h : Occurs Γ t p Δ u) :
    t.at? p = some u := by
  induction h with
  | here => rfl
  | child hu _ _ ih => exact Term.at?_cons.mpr ⟨_, hu, ih⟩

theorem Occurs.visible {Γ Δ : Context} {t u : Term} {p : Path} (h : Occurs Γ t p Δ u)
    (x : String) :
    (x ∈ t.boundAt p → (Δ x).isSome) ∧ (x ∉ t.boundAt p → Δ x = Γ x) := by
  induction h with
  | here => simp [Term.boundAt]
  | @child Γ Δ Θ layer span i u v p hu hs _ ih =>
    obtain ⟨hin, hout⟩ := hs.visible x
    obtain ⟨hbelow, habove⟩ := ih
    rw [Term.boundAt_child hu, List.mem_append]
    constructor
    · intro hx
      by_cases hp : x ∈ u.boundAt p
      · exact hbelow hp
      · rw [habove hp]
        exact hin (hx.resolve_right hp)
    · intro hx
      rw [not_or] at hx
      rw [habove hx.2, hout hx.1]

/-! ## Scopes of a run -/

/-- Each scene of `l` is the check of what stands at the place of `ps` with the same number, in the
scope of that place. There may be places to which `l` does not come. -/
def Follows (Γ : Context) (t : Term) (l : List (Scene Env)) (ps : List Path) : Prop :=
  ∀ (k : Nat) (e : Entry Env) (env : Env), l[k]? = some (e, env) →
    ∃ p u, ps[k]? = some p ∧ Occurs Γ t p env.lookup u ∧ e = FailFast.entry u

namespace Follows

variable {Γ Δ : Context} {t : Term} {l l' : List (Scene Env)} {ps ps' : List Path}

theorem nil : Follows Γ t [] ps := by
  intro k e env h
  simp at h

theorem stop (h : Follows Γ t l ps) (ps' : List Path) : Follows Γ t l (ps ++ ps') := by
  intro k e env hk
  obtain ⟨p, u, hp, hu⟩ := h k e env hk
  obtain ⟨hlt, _⟩ := List.getElem?_eq_some_iff.mp hp
  exact ⟨p, u, by rw [List.getElem?_append_left hlt, hp], hu⟩

theorem append (h : Follows Γ t l ps) (hlength : l.length = ps.length) (h' : Follows Γ t l' ps') :
    Follows Γ t (l ++ l') (ps ++ ps') := by
  intro k e env hk
  by_cases hlt : k < l.length
  · rw [List.getElem?_append_left hlt] at hk
    exact h.stop ps' k e env hk
  · rw [List.getElem?_append_right (by omega)] at hk
    rw [List.getElem?_append_right (by omega), ← hlength]
    exact h' _ e env hk

theorem child {layer : Layer Term} {span : Span} {i : Nat} {u : Term}
    (hu : layer.children[i]? = some u) (hs : ChildScope Γ layer i Δ) (h : Follows Δ u l ps) :
    Follows Γ (.node layer span) l (ps.map (i :: ·)) := by
  intro k e env hk
  obtain ⟨p, v, hp, ho, he⟩ := h k e env hk
  exact ⟨i :: p, v, by rw [List.getElem?_map, hp]; rfl, .child hu hs ho, he⟩

end Follows

namespace FailFast

/-- The check of `t` in `env` goes through the places of `t` in pre-order. -/
def Staged (t : Term) (env : Env) : Prop :=
  Follows env.lookup t ((entry t, env) :: (check t).scenes env) t.places

theorem length_scenes {t : Term} {env : Env} {τ : Ty} (h : (check t).eval env = .ok τ) :
    ((entry t, env) :: (check t).scenes env).length = t.places.length := by
  have hyields := yields_check ((eval_check_ok t env τ).mp h)
  rw [← Comp.length_scenes] at hyields
  rw [List.length_cons, hyields, Term.length_places]

theorem Round.follows {env : Env} {layer : Layer Term} {i : Nat} {l : List (Scene Env)}
    {r : Option Halt} (h : Round env layer i l r) (span : Span)
    (hall : ∀ u ∈ layer.children, ∀ env', Staged u env') :
    Follows env.lookup (.node layer span) l
      (Path.below i ((layer.children.drop i).map Term.places)) := by
  have hbelow {i : Nat} {u : Term} (hu : layer.children[i]? = some u) :
      Path.below i ((layer.children.drop i).map Term.places) = u.places.map (i :: ·) ++
        Path.below (i + 1) ((layer.children.drop (i + 1)).map Term.places) := by
    obtain ⟨hi, rfl⟩ := List.getElem?_eq_some_iff.mp hu
    rw [List.drop_eq_getElem_cons hi, List.map_cons, Path.below]
  induction h with
  | finished _ => exact .nil
  | failed hu hs _ =>
    rw [hbelow hu]
    exact (Follows.child hu hs (hall _ (List.mem_of_getElem? hu) _)).stop _
  | passed hu hs hv _ ih =>
    rw [hbelow hu]
    refine (Follows.child hu hs (hall _ (List.mem_of_getElem? hu) _)).append ?_ ih
    rw [List.length_map, length_scenes hv]

theorem staged_check (t : Term) : ∀ env, Staged t env := by
  induction t using Term.byChildren with
  | unknown variant span =>
    intro env k e env' hk
    rcases k with _ | k
    · cases hk
      exact ⟨[], _, rfl, .here, rfl⟩
    · cases hk
  | node layer span ih =>
    intro env
    obtain ⟨r, hr, _⟩ := rounds_check layer span env
    have hroot : Follows env.lookup (.node layer span) [(entry (.node layer span), env)] [[]] := by
      intro k e env' hk
      rcases k with _ | k <;> cases hk
      exact ⟨[], _, rfl, .here, rfl⟩
    rw [Staged, Term.places_node]
    exact hroot.append rfl (Round.follows hr span ih)

end FailFast

/-! ## Variables without a type -/

/-- Where a term has a type, its free variables do. -/
theorem HasType.isSome_of_free {Γ : Context} {t : Term} {τ : Ty} (h : HasType Γ t τ) {p : Path}
    {x : String} {s : Span} (hx : t.FreeAt p x s) : (Γ x).isSome := by
  obtain ⟨hp, hfree⟩ := hx
  obtain ⟨Δ, u, υ, ho, hu⟩ := h.typedAt p (Term.mem_postorder_of_at? hp)
  cases hp.symm.trans ho.at?
  rw [← (ho.visible x).2 hfree, hasType_var.mp hu]
  rfl

/-- A variable that is reported as unknown is free where it stands. -/
theorem free_of_unknownVariable {t : Term} (ht : t.Known) {env : Env} {d : Diagnostic}
    (h : (FailFast.check t).eval env = .error (.rejected d)) (hd : d.code = .unknownVariable) :
    ∃ p x s, t.FreeAt p x s ∧ env.lookup x = none ∧
      d = .ofCode .unknownVariable s (some x) := by
  obtain ⟨p, _, _, _, _, Δ, u, ho, hv⟩ := firstViolation_of_rejected ht env d h
  cases hv with
  | @var x s hx =>
    have hvisible := ho.visible x
    have hfree : x ∉ t.boundAt p := by
      intro hbound
      have := hvisible.1 hbound
      rw [hx] at this
      cases this
    exact ⟨p, x, s, ⟨ho.at?, hfree⟩, by rw [← hvisible.2 hfree, hx], rfl⟩
  | _ => cases hd

/-- Scoping is exact. A fail-fast check of a known term reports no unknown variable if its
environment binds all free variables of the term; it ends with a type only if they are bound; and a
variable that it does report is one that the environment does not bind, at a place where the term
does not bind it either. The run enters each place with the names that the nodes on the way to it
bind there, and otherwise with those of its environment: parameters are visible in the body of their
function only, and a constant in what follows it only. -/
theorem scoping_exact {c : Checker} (hp : c.policy = .failFast) {t : Term} (ht : t.Known)
    {given : Given} {env : Env} (he : c.env given = .ok env) (host : Host) :
    ((∀ x ∈ t.freeVars, (env.lookup x).isSome) →
      ∀ ds, (c.check host t given).outcome = .ok (.error ds) →
        ∀ d ∈ ds.toList, d.code ≠ .unknownVariable) ∧
    (∀ τ, (c.check host t given).outcome = .ok (.ok τ) →
      ∀ x ∈ t.freeVars, (env.lookup x).isSome) ∧
    (∀ ds, (c.check host t given).outcome = .ok (.error ds) →
      ∀ d ∈ ds.toList, d.code = .unknownVariable →
        ∃ p x s, t.FreeAt p x s ∧ env.lookup x = none ∧
          ds = .single (.ofCode .unknownVariable s (some x))) ∧
    ∃ comp scenes, FailFast.build t = .ok comp ∧
      (∀ l, (Config.initial comp env).Shows l ↔ l = scenes) ∧
      ∀ (k : Nat) (e : Entry Env) (env' : Env), scenes[k]? = some (e, env') →
        ∃ p u, t.places[k + 1]? = some p ∧ Occurs env.lookup t p env'.lookup u ∧
          e = FailFast.entry u ∧
          ∀ x, (x ∈ t.boundAt p → (env'.lookup x).isSome) ∧
            (x ∉ t.boundAt p → env'.lookup x = env.lookup x) := by
  have hreported (ds : Diagnostics) (hds : (c.check host t given).outcome = .ok (.error ds))
      (d : Diagnostic) (hd : d ∈ ds.toList) (hcode : d.code = .unknownVariable) :
      ∃ p x s, t.FreeAt p x s ∧ env.lookup x = none ∧
        ds = .single (.ofCode .unknownVariable s (some x)) := by
    obtain ⟨d', hv, rfl⟩ := (Checker.failFast_error_iff hp ht he host ds).mp hds
    cases List.mem_singleton.mp hd
    obtain ⟨p, x, s, hfree, hnone, rfl⟩ := free_of_unknownVariable ht hv hcode
    exact ⟨p, x, s, hfree, hnone, rfl⟩
  refine ⟨?_, ?_, hreported, ?_⟩
  · intro hbound ds hds d hd hcode
    obtain ⟨p, x, s, hfree, hnone, _⟩ := hreported ds hds d hd hcode
    have hx := hbound x (Term.mem_freeVars_iff.mpr ⟨p, s, hfree⟩)
    rw [hnone] at hx
    cases hx
  · intro τ hτ x hx
    obtain ⟨p, s, hfree⟩ := Term.mem_freeVars_iff.mp hx
    rw [Checker.failFast_ok_iff hp ht he host, FailFast.eval_check_ok] at hτ
    exact hτ.isSome_of_free hfree
  · have hshows := (FailFast.check t).shows env
    refine ⟨_, (FailFast.check t).scenes env, FailFast.build_of_known ht, ?_, ?_⟩
    · exact fun l => ⟨fun h => h.unique hshows, fun h => h ▸ hshows⟩
    · intro k e env' hk
      obtain ⟨p, u, hplace, ho, rfl⟩ := FailFast.staged_check t env (k + 1) e env' hk
      exact ⟨p, u, hplace, ho, rfl, fun x => ho.visible x⟩

/-- In `const f = (x: number) => x + y; f(x)` the parameter is not visible behind its function.
Where `y` is bound, the argument is reported. -/
theorem scoping_exact_behind_function :
    let place (i j : Nat) : Span := Position.spanTo "<stdin>" ⟨1, i⟩ ⟨1, j⟩
    let sum : Term := .node (.add (.node (.var "x") (place 25 26)) (.node (.var "y") (place 29 30)))
      (place 25 30)
    let call : Term := .node (.call (.node (.var "f") (place 32 33))
      [.node (.var "x") (place 34 35)]) (place 32 36)
    let t : Term := .node (.const "f" (.node (.func [⟨"x", .number⟩] sum) (place 10 30)) call)
      (place 0 36)
    let c : Checker := ⟨.failFast, .one, "chain"⟩
    let env : Env := .ofBindings .chain [("y", .number)]
    t.Known ∧ c.env (.bindings [("y", .number)]) = .ok env ∧ t.freeVars = ["y", "x"] ∧
      (c.check .direct t (.bindings [("y", .number)])).outcome =
        .ok (.error (.single (.ofCode .unknownVariable (place 34 35) (some "x")))) ∧
      ∃ p x s, t.FreeAt p x s ∧ env.lookup x = none ∧ s = place 34 35 := by
  intro place sum call t c env
  have ht : t.Known := by simp [t, sum, call, Layer.children]
  have houtcome : (c.check .direct t (.bindings [("y", .number)])).outcome =
      .ok (.error (.single (.ofCode .unknownVariable (place 34 35) (some "x")))) :=
    Checker.failFast_outcome rfl ht rfl .direct rfl
  have henv : c.env (.bindings [("y", .number)]) = .ok env := rfl
  refine ⟨ht, henv, rfl, houtcome, ?_⟩
  obtain ⟨_, _, hreported, _⟩ := scoping_exact rfl ht henv .direct
  obtain ⟨p, x, s, hfree, hnone, hds⟩ := hreported _ houtcome _ List.mem_cons_self rfl
  exact ⟨p, x, s, hfree, hnone, (congrArg (fun ds => ds.first.span) hds).symm⟩

end ArrowLang
