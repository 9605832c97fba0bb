import ArrowLang.Proofs.BoundNames

/-!
# ArrowLang.Proofs.Constants

What it means to bind a constant: `const x = init; rest` is checked like `rest` with `init` in the
place of `x`, and like a call of a function with the parameter `x`.

* `t.subst x u`: the term `t` with `u` in the place of the free occurrences of the variable `x`.
* `Term.binders`: the names that a term binds somewhere, as constants or as parameters.
* `Env.Inlines x u e e'`: in `e'` the name `x` has the type that `u` has in `e`, and all other names
  mean the same in both.
* `FailFast.eval_check_subst`: in such environments the checks of a term and of the term with `u`
  for `x` end alike.

What is put in has spans of its own. So what a check complains about may stand elsewhere after that,
and the checks are compared on terms without spans.
-/

namespace ArrowLang

/-! ## Terms in the place of variables -/

namespace Layer

universe u v

variable {R : Type u} {S : Type v}

/-- The node is the variable `x`. -/
def isVar (x : String) : Layer R → Bool
  | .var z => z == x
  | _ => false

theorem isVar_iff {layer : Layer R} {x : String} : layer.isVar x = true ↔ layer = .var x := by
  cases layer <;> simp [isVar]

theorem isVar_map (g : R → S) (layer : Layer R) (x : String) :
    (layer.map g).isVar x = layer.isVar x := by
  cases layer <;> rfl

end Layer

namespace Term

/-- A child is left as it was where its node binds the name. -/
def subst (t : Term) (x : String) (u : Term) : Term :=
  t.recurse (fun layer span =>
    if layer.isVar x then u
    else .node (layer.mapIdx fun i child => if x ∈ layer.binds i then child.node else child.out)
      span) .unknown

def binders (t : Term) : List String := t.preorder.flatMap ownBinders

variable {x : String} {u : Term}

theorem subst_node (layer : Layer Term) (span : Span) (x : String) (u : Term) :
    (node layer span).subst x u =
      if layer.isVar x then u
      else node (layer.mapIdx fun i t => if x ∈ layer.binds i then t else t.subst x u) span := by
  rw [subst, recurse_node]
  simp only [Layer.isVar_map, Layer.mapIdx_map, Layer.binds_map]
  rfl

theorem binders_node (layer : Layer Term) (span : Span) :
    (node layer span).binders = (node layer span).ownBinders ++ layer.children.flatMap binders :=
  flatMap_preorder_node ownBinders layer span

theorem mem_binders_of_binds {layer : Layer Term} {span : Span} {i : Nat}
    (hx : x ∈ layer.binds i) : x ∈ (node layer span).binders := by
  rw [binders_node, List.mem_append]
  exact .inl (mem_ownBinders_of_binds hx)

theorem mem_binders_of_child {layer : Layer Term} {span : Span} {t : Term}
    (ht : t ∈ layer.children) (hx : x ∈ t.binders) : x ∈ (node layer span).binders := by
  rw [binders_node, List.mem_append, List.mem_flatMap]
  exact .inr ⟨t, ht, hx⟩

theorem Known.subst (hu : u.Known) {t : Term} (ht : t.Known) : (t.subst x u).Known := by
  induction t using byChildren with
  | unknown variant span => exact absurd ht not_known_unknown
  | node layer span ih =>
    rw [subst_node]
    split
    · exact hu
    · rw [known_node] at ht ⊢
      rw [Layer.children_mapIdx]
      intro t' ht'
      obtain ⟨i, hi⟩ := List.mem_iff_getElem?.mp ht'
      rw [List.getElem?_mapIdx, Option.map_eq_some_iff] at hi
      obtain ⟨t, hi, rfl⟩ := hi
      have hmem := List.mem_of_getElem? hi
      split
      · exact ht t hmem
      · exact ih t hmem (ht t hmem)

theorem span_eraseSpans (t : Term) : t.eraseSpans.span = .unknown := span_mapSpans _ t

theorem freeVars_eraseSpans (t : Term) : t.eraseSpans.freeVars = t.freeVars := by
  induction t using byChildren with
  | unknown variant span => rfl
  | node layer span ih =>
    rw [eraseSpans_node, freeVars_node, freeVars_node, Layer.map_map, Layer.map_congr ih]

end Term

/-! ## Environments -/

namespace Env

structure Inlines (x : String) (u : Term) (e e' : Env) : Prop where
  value : ∃ σ, (FailFast.check u).eval e = .ok σ ∧ e'.lookup x = some σ
  others : ∀ y, y ≠ x → e.lookup y = e'.lookup y

variable {x : String} {u : Term} {e e' : Env} {bs : Bindings}

theorem lookup_extend_of_not_mem {y : String} (h : y ∉ bs.map Prod.fst) (e : Env) :
    (e.extend bs).lookup y = e.lookup y := by
  rw [lookup_extend]
  exact (Context.bindAll_visible bs y e.lookup).2 h

/-- Bindings of other names do no harm, unless `u` refers to these names. -/
theorem Inlines.extend (h : Inlines x u e e') (hx : x ∉ bs.map Prod.fst)
    (hu : ∀ y ∈ bs.map Prod.fst, y ∉ u.freeVars) : Inlines x u (e.extend bs) (e'.extend bs) where
  value := by
    obtain ⟨σ, hσ, hlookup⟩ := h.value
    refine ⟨σ, ?_, by rw [lookup_extend_of_not_mem hx, hlookup]⟩
    rw [← hσ]
    exact FailFast.eval_of_agree fun y hy => lookup_extend_of_not_mem (fun hb => hu y hb hy) e
  others y hy := by
    rw [lookup_extend, lookup_extend]
    exact Context.bindAll_congr fun _ => h.others y hy

/-- Where `x` is bound again, the environments agree on all names. -/
theorem Inlines.agree (h : Inlines x u e e') (hx : x ∈ bs.map Prod.fst) (names : List String) :
    AgreeOn names (e.extend bs) (e'.extend bs) := by
  intro y _
  rw [lookup_extend, lookup_extend]
  refine Context.bindAll_congr fun hfree => h.others y ?_
  rintro rfl
  obtain ⟨b, hb, hname⟩ := List.mem_map.mp hx
  exact hfree b hb hname

end Env

namespace FailFast

open ArrowLang.Comp

/-- The induction is over the term, for all environments at once. Where the term binds `x` again,
nothing is put in, and the environments agree; where it binds another name, that name is not free in
`u`, so `u` keeps its type. -/
theorem eval_check_subst {x : String} {u t : Term} (hcapture : ∀ y ∈ t.binders, y ∉ u.freeVars) :
    ∀ {e e' : Env}, Env.Inlines x u.eraseSpans e e' →
      (check (t.subst x u).eraseSpans).eval e = (check t.eraseSpans).eval e' := by
  induction t using Term.byChildren with
  | unknown variant span => intro e e' _; rfl
  | node layer span ih =>
    intro e e' h
    rw [Term.subst_node]
    by_cases hvar : layer.isVar x = true
    · obtain ⟨σ, hσ, hlookup⟩ := h.value
      rw [if_pos hvar, hσ, Layer.isVar_iff.mp hvar]
      exact (eval_bind_ok.mpr ⟨_, rfl, eval_varRule_ok.mpr hlookup⟩).symm
    · rw [if_neg hvar, Term.eraseSpans_node, Term.eraseSpans_node, Layer.map_mapIdx,
        Layer.map_eq_mapIdx]
      refine eval_check_mapIdx ?_ ?_ ?_ _
      · rintro z rfl
        refine h.others z ?_
        rintro rfl
        exact hvar (Layer.isVar_iff.mpr rfl)
      · intro i t
        rw [Term.span_eraseSpans, Term.span_eraseSpans]
      · intro i t bs ht hbs
        have hmem := List.mem_of_getElem? ht
        split
        · rename_i hx
          exact eval_of_agree (h.agree (hbs ▸ hx) _)
        · rename_i hx
          have hfree : ∀ y ∈ bs.map Prod.fst, y ∉ u.eraseSpans.freeVars := by
            intro y hy
            rw [Term.freeVars_eraseSpans]
            rw [hbs] at hy
            exact hcapture y (Term.mem_binders_of_binds hy)
          refine ih t hmem (fun y hy => hcapture y (Term.mem_binders_of_child hmem hy)) ?_
          exact h.extend (hbs ▸ hx) hfree

end FailFast

theorem FailFast.eval_check_const {env : Env} {init : Term} {σ : Ty}
    (h : (check init).eval env = .ok σ) (x : String) (rest : Term) (span : Span) :
    (check (.node (.const x init rest) span)).eval env =
      (check rest).eval (env.extend [(x, σ)]) := by
  rw [check_node]
  simp only [Layer.map, rule, Comp.eval, h]

/-- A function that is called at once has its parameter bound to the annotated type. Its body is
checked before the argument, which is known to pass. -/
theorem FailFast.eval_check_call {env : Env} {arg : Term} {A τ : Ty}
    (h : (check arg).eval env = .ok τ) (hA : A.equal τ = true) (x : String) (body : Term)
    (span span' : Span) :
    (check (.node (.call (.node (.func [⟨x, A⟩] body) span) [arg]) span')).eval env =
      (check body).eval (env.extend [(x, A)]) := by
  have hrule (place : Span) (ret : Ty) :
      callRule span span' [place] (.func [⟨x, A⟩] ret) [τ] = .pure ret := by
    simp [callRule, mismatch?, hA]
  rw [check_node]
  simp only [Layer.map, rule, check_node, paramBindings, Comp.map, Comp.eval, Comp.eval_sequence,
    Comp.evalAll, List.map_cons, List.map_nil, Child.span, Term.span, h]
  cases (check body).eval (env.extend [(x, A)]) with
  | error d => rfl
  | ok ret => simp only [Except.map, hrule, Comp.eval]

/-- The check of a known term does not depend on the names inside of the type of a variable. -/
theorem FailFast.agree_of_equal {t : Term} (ht : t.Known) {σ τ : Ty} (h : σ.equal τ = true)
    (x : String) (env : Env) :
    ∃ v v', Outcome.ofEval ((check t).eval (env.extend [(x, σ)])) = .ok v ∧
      Outcome.ofEval ((check t).eval (env.extend [(x, τ)])) = .ok v' ∧ Verdict.Agree v v' := by
  have hself : t.AlphaEq .upToNames [(x, x)] t :=
    .refl fun z _ => @corresponds_self [x] [] z (.inr rfl)
  have henv : Context.Match .upToNames [(x, x)] (env.extend [(x, σ)]).lookup
      (env.extend [(x, τ)]).lookup := by
    rw [Env.lookup_extend, Env.lookup_extend]
    exact Context.Match.refl.bind x x (Ty.equal_iff.mp h)
  have hagree := agree_of_alike ht (check_alike_of_alphaEq hself) henv .direct .one false
  simpa only [Host.run, Comp.run_outcome] using hagree

/-! ## Whole checks -/

namespace Checker

variable {c : Checker} {given : Given} {env : Env} {t u : Term}

theorem outcome_congr (hp : c.policy = .failFast) (ht : t.Known) (hu : u.Known)
    (he : c.env given = .ok env) (host : Host)
    (h : (FailFast.check t).eval env = (FailFast.check u).eval env) :
    (c.check host t given).outcome = (c.check host u given).outcome := by
  have hsame (v : Verdict Ty) (hv : Outcome.ofEval ((FailFast.check t).eval env) = .ok v) :
      (c.check host t given).outcome = (c.check host u given).outcome := by
    rw [failFast_outcome hp ht he host hv, failFast_outcome hp hu he host (h ▸ hv)]
  rcases FailFast.eval_check_cases ht env with ⟨τ, hv⟩ | ⟨d, hv⟩
  · exact hsame _ (congrArg Outcome.ofEval hv)
  · exact hsame _ (congrArg Outcome.ofEval hv)

/-- Fail-fast checks that say the same end with one type, or with one diagnostic each, and these
differ in their spans at most. -/
theorem failFast_same (hp : c.policy = .failFast) (ht : t.Known) (hu : u.Known)
    (he : c.env given = .ok env) {host : Host}
    (h : (c.check host t.eraseSpans given).outcome = (c.check host u.eraseSpans given).outcome) :
    (∃ τ, (c.check host t given).outcome = .ok (.ok τ) ∧
      (c.check host u given).outcome = .ok (.ok τ)) ∨
    ∃ d d', (c.check host t given).outcome = .ok (.error (.single d)) ∧
      (c.check host u given).outcome = .ok (.error (.single d')) ∧
      d.code = d'.code ∧ d.message = d'.message := by
  obtain ⟨v, w, hv, hw, hgist⟩ := gist_of_eraseSpans ht hu he h
  rw [hv, hw]
  cases v with
  | ok τ =>
    cases w with
    | ok υ => cases hgist; exact .inl ⟨τ, rfl, rfl⟩
    | error ds => cases hgist
  | error ds =>
    cases w with
    | ok υ => cases hgist
    | error ds' =>
      obtain ⟨d, _, rfl⟩ := (failFast_error_iff hp ht he host ds).mp hv
      obtain ⟨d', _, rfl⟩ := (failFast_error_iff hp hu he host ds').mp hw
      have hwords : [(d.code, d.message)] = [(d'.code, d'.message)] := Except.error.inj hgist
      simp only [List.cons.injEq, Prod.mk.injEq, and_true] at hwords
      exact .inr ⟨d, d', rfl, rfl, hwords⟩

end Checker

/-- Constants can be inlined. Let `init` have a type, and let `rest` bind no name that is free in
`init`. Then `const x = init; rest` is checked like `rest` with `init` in the place of each free
occurrence of `x`. Both checks end with the same type, with all names in it; or both reject with the
same code and message. -/
theorem constants_can_be_inlined {c : Checker} (hp : c.policy = .failFast) {init rest : Term}
    (hi : init.Known) (hr : rest.Known) {given : Given} {env : Env} (he : c.env given = .ok env)
    (host : Host) {σ : Ty} (hinit : (c.check host init given).outcome = .ok (.ok σ)) (x : String)
    (hcapture : ∀ y ∈ rest.binders, y ∉ init.freeVars) (span : Span) :
    let bound := (c.check host (.node (.const x init rest) span) given).outcome
    let inlined := (c.check host (rest.subst x init) given).outcome
    (∃ τ, bound = .ok (.ok τ) ∧ inlined = .ok (.ok τ)) ∨
      ∃ d d', bound = .ok (.error (.single d)) ∧ inlined = .ok (.error (.single d')) ∧
        d.code = d'.code ∧ d.message = d'.message := by
  have hbound : (Term.node (.const x init rest) span).Known := by simp [Layer.children, hi, hr]
  have hinlined : (rest.subst x init).Known := hi.subst hr
  have herased {t : Term} (ht : t.Known) : t.eraseSpans.Known := (Term.known_mapSpans _ t).mpr ht
  have hvalue : (FailFast.check init.eraseSpans).eval env = .ok σ := by
    rw [← Checker.failFast_ok_iff hp (herased hi) he host]
    have hmap := (Checker.check_mapSpans (fun _ => .unknown) hi c host given).1
    rw [hinit] at hmap
    exact hmap
  have henv : Env.Inlines x init.eraseSpans env (env.extend [(x, σ)]) := by
    refine ⟨⟨σ, hvalue, ?_⟩, fun y hy => ?_⟩
    · rw [Env.lookup_extend]
      exact if_pos rfl
    · exact (Env.lookup_extend_of_not_mem (by simpa using hy) env).symm
  refine Checker.failFast_same hp hbound hinlined he ?_
  refine Checker.outcome_congr hp (herased hbound) (herased hinlined) he host ?_
  rw [FailFast.eval_check_subst hcapture henv, Term.eraseSpans_node]
  exact FailFast.eval_check_const hvalue x rest.eraseSpans .unknown

/-- `const x = (y: number) => x + y; const z = x(1); (w: number) => x(w) + z`, where the `x` inside
of the function is an outer one. It is still that one where the function is put in below `z` and
`w`. -/
theorem constants_can_be_inlined_below_binders :
    let var (z : String) : Term := .node (.var z) .unknown
    let call (f t : Term) : Term := .node (.call f [t]) .unknown
    let one : Term := .node (.number 1) .unknown
    let init : Term :=
      .node (.func [⟨"y", .number⟩] (.node (.add (var "x") (var "y")) .unknown)) .unknown
    let rest (f : Term) : Term := .node (.const "z" (call f one)
      (.node (.func [⟨"w", .number⟩] (.node (.add (call f (var "w")) (var "z")) .unknown))
        .unknown)) .unknown
    let bound : Term := .node (.const "x" init (rest (var "x"))) .unknown
    let given : Given := .bindings [("x", .number)]
    let c : Checker := ⟨.failFast, .one, "chain"⟩
    init.freeVars = ["x"] ∧ (rest (var "x")).binders = ["z", "w"] ∧
      (c.check .direct init given).outcome = .ok (.ok (.func [⟨"y", .number⟩] .number)) ∧
      (rest (var "x")).subst "x" init = rest init ∧
      (c.check .direct bound given).outcome = .ok (.ok (.func [⟨"w", .number⟩] .number)) ∧
      (c.check .direct (rest init) given).outcome =
        .ok (.ok (.func [⟨"w", .number⟩] .number)) := by
  intro var call one init rest bound given c
  have hi : init.Known := by simp [init, var, Layer.children]
  have hr : (rest (var "x")).Known := by simp [rest, call, one, var, Layer.children]
  have hb : bound.Known := by simp [bound, hi, hr, Layer.children]
  have henv : c.env given = .ok ((Env.empty .chain).extend [("x", .number)]) := rfl
  have hinit : (c.check .direct init given).outcome =
      .ok (.ok (.func [⟨"y", .number⟩] .number)) :=
    Checker.failFast_outcome rfl hi henv .direct rfl
  have hfree : init.freeVars = ["x"] := rfl
  have hbinders : (rest (var "x")).binders = ["z", "w"] := by
    simp [rest, call, one, var, Term.binders_node, Term.ownBinders, Layer.children]
  have hcall {Γ : Context} {t : Term} (hx : Γ "x" = some (.func [⟨"y", .number⟩] .number))
      (ht : HasType Γ t .number) : HasType Γ (call (var "x") t) .number := by
    refine hasType_call.mpr ⟨[⟨"y", .number⟩], [.number], .var hx, ⟨rfl, ?_⟩, rfl, ?_⟩
    · simpa using ht
    · simp [Ty.equal_iff]
  have htype : HasType ((Env.empty .chain).extend [("x", .number)]).lookup bound
      (.func [⟨"w", .number⟩] .number) :=
    .const (.func (.add (.var rfl) (.var rfl)))
      (.const (hcall rfl .number) (.func (.add (hcall rfl (.var rfl)) (.var rfl))))
  have hbound := (Checker.failFast_ok_iff rfl hb henv .direct _).mpr
    ((FailFast.eval_check_ok _ _ _).mpr htype)
  have hsame := constants_can_be_inlined rfl hi hr henv .direct hinit "x"
    (by rw [hbinders, hfree]; decide) .unknown
  refine ⟨hfree, hbinders, hinit, rfl, hbound, ?_⟩
  rcases hsame with ⟨τ, hτ, hinlined⟩ | ⟨d, d', hd, _⟩
  · cases hbound.symm.trans hτ
    exact hinlined
  · cases hbound.symm.trans hd

/-- A function that is called at once is a constant. Let `arg` have a type that is equal to `A`.
Then `((x: A) => body)(arg)` and `const x = arg; body` have equal types, or both are rejected with
the same diagnostic. So it does not matter that the call has its body checked first, nor that `x`
has the annotated type there and the type of `arg` here. -/
theorem immediate_call_is_constant {c : Checker} (hp : c.policy = .failFast) {arg body : Term}
    (ha : arg.Known) (hb : body.Known) {given : Given} {env : Env} (he : c.env given = .ok env)
    (host : Host) {A τ : Ty} (harg : (c.check host arg given).outcome = .ok (.ok τ))
    (hA : τ.equal A = true) (x : String) (span span' span'' : Span) :
    ∃ v v',
      (c.check host (.node (.call (.node (.func [⟨x, A⟩] body) span) [arg]) span') given).outcome =
        .ok v ∧
      (c.check host (.node (.const x arg body) span'') given).outcome = .ok v' ∧
      Verdict.Agree v v' := by
  have hcall : (Term.node (.call (.node (.func [⟨x, A⟩] body) span) [arg]) span').Known := by
    simp [Layer.children, ha, hb]
  have hconst : (Term.node (.const x arg body) span'').Known := by simp [Layer.children, ha, hb]
  have hA' : A.equal τ = true := by
    rw [Ty.equal_iff] at hA ⊢
    exact hA.symm
  have hvalue := (Checker.failFast_ok_iff hp ha he host τ).mp harg
  obtain ⟨v, v', hv, hv', hagree⟩ := FailFast.agree_of_equal hb hA' x env
  rw [← FailFast.eval_check_call hvalue hA' x body span span'] at hv
  rw [← FailFast.eval_check_const hvalue x body span''] at hv'
  exact ⟨v, v', Checker.failFast_outcome hp hcall he host hv,
    Checker.failFast_outcome hp hconst he host hv', hagree⟩

/-- `((f: (a: number) => number) => f)(g)` and `const f = g; f`, where `g` has another name for its
parameter: the types are equal and not the same. -/
theorem immediate_call_is_constant_up_to_names :
    let var (z : String) : Term := .node (.var z) .unknown
    let τ (a : String) : Ty := .func [⟨a, .number⟩] .number
    let bound : Term := .node (.const "f" (var "g") (var "f")) .unknown
    let called : Term :=
      .node (.call (.node (.func [⟨"f", τ "a"⟩] (var "f")) .unknown) [var "g"]) .unknown
    let given : Given := .bindings [("g", τ "b")]
    let c : Checker := ⟨.failFast, .one, "copy"⟩
    (c.check .session (var "g") given).outcome = .ok (.ok (τ "b")) ∧
      (τ "b").equal (τ "a") = true ∧
      (c.check .session bound given).outcome = .ok (.ok (τ "b")) ∧
      (∃ v v', (c.check .session called given).outcome = .ok v ∧
        (c.check .session bound given).outcome = .ok v' ∧ Verdict.Agree v v') := by
  intro var τ bound called given c
  have hvar (z : String) : (var z).Known := by simp [var, Layer.children]
  have hb : bound.Known := by simp [bound, hvar, Layer.children]
  have henv : c.env given = .ok ((Env.empty .copy).extend [("g", τ "b")]) := rfl
  have harg : (c.check .session (var "g") given).outcome = .ok (.ok (τ "b")) :=
    Checker.failFast_outcome rfl (hvar "g") henv .session rfl
  have hbound : (c.check .session bound given).outcome = .ok (.ok (τ "b")) :=
    Checker.failFast_outcome rfl hb henv .session rfl
  have hequal : (τ "b").equal (τ "a") = true := Ty.equal_iff.mpr rfl
  exact ⟨harg, hequal, hbound, immediate_call_is_constant rfl (hvar "g") (hvar "f") henv .session
    harg hequal "f" .unknown .unknown .unknown⟩

end ArrowLang
