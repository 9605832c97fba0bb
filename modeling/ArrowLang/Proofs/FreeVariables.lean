import ArrowLang.Proofs.Congruence

/-!
# ArrowLang.Proofs.FreeVariables

Checking looks at the environment for the free variables of the term only.

* `Term.freeVars`: the names that a term takes from its environment.
* `Env.AgreeOn xs`: environments, of either strategy, in which the names `xs` mean the same.
* `FailFast.check_alike`: in environments that agree on the free variables of a term, its check does
  the same things; and so does the check of the term with other spans, apart from these spans.

The names on which two environments have to agree change at each binder, and with them the relation
between the environments that a scope runs in.
-/

namespace ArrowLang

/-- The names that a node takes from outside, from those that its children do. -/
def Layer.freeVars : Layer (List String) → List String
  | .bool _ | .number _ => []
  | .add left right => left ++ right
  | .ite cond onTrue onFalse => cond ++ onTrue ++ onFalse
  | .var name => [name]
  | .func params body => body.filter fun x => params.all fun p => p.name != x
  | .call callee args => callee ++ args.flatten
  | .seq first rest => first ++ rest
  | .const name init rest => init ++ rest.filter fun x => name != x

theorem exists_getElem?_cons {α : Type} {P : Nat → α → Prop} {a : α} {as : List α} :
    (∃ (i : Nat) (b : α), (a :: as)[i]? = some b ∧ P i b) ↔
      P 0 a ∨ ∃ (i : Nat) (b : α), as[i]? = some b ∧ P (i + 1) b := by
  constructor
  · rintro ⟨i, b, hb, h⟩
    rcases i with _ | i
    · cases hb
      exact .inl h
    · exact .inr ⟨i, b, hb, h⟩
  · rintro (h | ⟨i, b, hb, h⟩)
    · exact ⟨0, a, rfl, h⟩
    · exact ⟨i + 1, b, hb, h⟩

namespace Term

def freeVars : Term → List String :=
  recurse (fun layer _ => (layer.map Child.out).freeVars) fun _ _ => []

theorem freeVars_node (layer : Layer Term) (span : Span) :
    (node layer span).freeVars = (layer.map freeVars).freeVars := by
  rw [freeVars, recurse_node, Layer.map_map]

/-- A name is free in a node that is this variable, and where it is free in a child and not bound
there by the node. -/
theorem mem_freeVars_node {layer : Layer Term} {span : Span} {x : String} :
    x ∈ (node layer span).freeVars ↔ layer = .var x ∨
      ∃ (i : Nat) (u : Term), layer.children[i]? = some u ∧ x ∈ u.freeVars ∧ x ∉ layer.binds i := by
  rw [freeVars_node]
  cases layer with
  | var name => simp [Layer.map, Layer.freeVars, Layer.children, eq_comm]
  | const name init rest =>
    simp [Layer.map, Layer.freeVars, Layer.children, Layer.binds, exists_getElem?_cons,
      @eq_comm _ name x]
  | call callee args =>
    have hargs : x ∈ (args.map freeVars).flatten ↔
        ∃ (i : Nat) (u : Term), args[i]? = some u ∧ x ∈ u.freeVars := by
      rw [← List.flatMap_def, List.mem_flatMap]
      simp only [@List.mem_iff_getElem? Term]
      constructor
      · rintro ⟨u, ⟨i, hu⟩, hx⟩
        exact ⟨i, u, hu, hx⟩
      · rintro ⟨i, u, hu, hx⟩
        exact ⟨u, ⟨i, hu⟩, hx⟩
    simp only [Layer.map, Layer.freeVars, List.mem_append, hargs, Layer.children, Layer.binds,
      exists_getElem?_cons, List.not_mem_nil, not_false_eq_true, and_true, reduceCtorEq, false_or]
  | _ => simp [Layer.map, Layer.freeVars, Layer.children, Layer.binds, exists_getElem?_cons]

end Term

/-! ## Environments that agree -/

theorem Context.bindAll_congr {Γ Δ : Context} {bindings : Bindings} {x : String}
    (h : (∀ b ∈ bindings, b.1 ≠ x) → Γ x = Δ x) : Γ.bindAll bindings x = Δ.bindAll bindings x := by
  induction bindings generalizing Γ Δ with
  | nil => exact h (by simp)
  | cons b bindings ih =>
    refine ih fun hfree => ?_
    simp only [bind]
    split
    · rfl
    · rename_i hx
      exact h (List.forall_mem_cons.mpr ⟨fun hb => hx hb.symm, hfree⟩)

namespace Env

def AgreeOn (names : List String) (e e' : Env) : Prop :=
  ∀ x ∈ names, e.lookup x = e'.lookup x

/-- Below a binder, environments agree on the names that it binds as well. -/
theorem AgreeOn.extend {xs ys : List String} {bindings : Bindings}
    (hsub : ∀ x ∈ xs, (∀ b ∈ bindings, b.1 ≠ x) → x ∈ ys) (e e' : Env) (h : AgreeOn ys e e') :
    AgreeOn xs (e.extend bindings) (e'.extend bindings) := by
  intro x hx
  rw [lookup_extend, lookup_extend]
  exact Context.bindAll_congr fun hfree => h x (hsub x hx hfree)

end Env

theorem Outcome.ofEval_inj {α : Type} {r r' : Except Halt α} (h : ofEval r = ofEval r') :
    r = r' := by
  rcases r with (_ | _) | a <;> rcases r' with (_ | _) | a' <;>
    simp_all [ofEval, Halt.outcome, Diagnostics.single]

/-! ## Checks -/

namespace FailFast

open Env (AgreeOn)

/-- The induction is over the term, for all environments at once: a binder hands its body over to
environments that agree on more. -/
theorem check_alike (f : Span → Span) (t : Term) :
    Comp.Alike f (AgreeOn t.freeVars) Eq (check t) (check (t.mapSpans f)) := by
  induction t using Term.byChildren with
  | unknown variant span => exact .stray
  | node layer span ih =>
    have hlayers : layer.Resembles .exact (fun x y => x = y ∧ layer = .var x)
        (layer.map (Term.mapSpans f)) := Layer.resembles_map fun x hx => ⟨rfl, hx⟩
    rw [Term.mapSpans_node]
    refine check_node_alike (v := .exact) hlayers ?_ ?_ span
    · rintro x _ e e' ⟨rfl, hx⟩ he
      have hlookup := he x (Term.mem_freeVars_node.mpr (.inl hx))
      exact ⟨congrArg _ hlookup, fun _ => rfl⟩
    · intro i u u' hu hu'
      rw [Layer.children_map, List.getElem?_map, hu] at hu'
      cases hu'
      refine ⟨Term.span_mapSpans f u, _, ih u (List.mem_of_getElem? hu), ?_⟩
      intro e e' bs bs' he hb hb' hτ
      rw [Layer.binds_map, ← hb] at hb'
      cases Bindings.ext hb'.symm hτ
      refine AgreeOn.extend (fun x hx hfree => ?_) e e' he
      -- a name that is free in the child and not bound at the node is free in the node
      refine Term.mem_freeVars_node.mpr (.inr ⟨i, u, hu, hx, ?_⟩)
      rw [← hb, List.mem_map]
      rintro ⟨b, hb, rfl⟩
      exact hfree b hb rfl

theorem build_eq_ok {t : Term} {comp : Check} (h : build t = .ok comp) :
    t.Known ∧ comp = check t := by
  by_cases ht : t.Known
  · rw [build_of_known ht] at h
    cases h
    exact ⟨ht, rfl⟩
  · obtain ⟨variant, hb⟩ := Term.para_of_not_known rule ht
    rw [build, hb] at h
    cases h

theorem hostRun_of_agree {t : Term} {e e' : Env} (h : AgreeOn t.freeVars e e') (host : Host)
    (interval : Interval) (observed : Bool) :
    host.run interval observed (check t) e = host.run interval observed (check t) e' := by
  have hsame := check_alike (fun s => s) t
  rw [Term.mapSpans_id] at hsame
  rw [hsame.hostRun_eq h, Report.mapSpans_id]

theorem eval_of_agree {t : Term} {e e' : Env} (h : AgreeOn t.freeVars e e') :
    (check t).eval e = (check t).eval e' := by
  have hrun := congrArg (fun r => r.1.outcome) (hostRun_of_agree h .direct .one false)
  simp only [Host.run, Comp.run_outcome] at hrun
  exact Outcome.ofEval_inj hrun

end FailFast

/-! ## Whole checks -/

/-- Checkers with one policy and one interval leave the same behind in environments that agree. -/
theorem Checker.check_of_agree {policy : Policy} {interval : Interval} {s s' : String}
    {given given' : Given} {t : Term} {e e' : Env}
    (he : env ⟨policy, interval, s⟩ given = .ok e)
    (he' : env ⟨policy, interval, s'⟩ given' = .ok e') (h : Env.AgreeOn t.freeVars e e')
    (host : Host) :
    check ⟨policy, interval, s⟩ host t given = check ⟨policy, interval, s'⟩ host t given' := by
  have hopen : opening ⟨policy, interval, s⟩ host t = opening ⟨policy, interval, s'⟩ host t := rfl
  cases policy with
  | accumulate => simp only [check, checkAll, hopen]
  | failFast =>
    simp only [check]
    cases hb : FailFast.build t with
    | error x => simp only [checkFirst, hb, hopen]
    | ok comp =>
      obtain ⟨_, rfl⟩ := FailFast.build_eq_ok hb
      rw [checkFirst_eq_ofRun host hb he, checkFirst_eq_ofRun host hb he',
        FailFast.hostRun_of_agree h, hopen]

theorem Env.lookup_ofBindings (s s' : Strategy) (bindings : Bindings) :
    (ofBindings s bindings).lookup = (ofBindings s' bindings).lookup := by
  have hempty (s : Strategy) : (empty s).lookup = fun _ => none := by cases s <;> rfl
  rw [ofBindings, ofBindings, lookup_extend, lookup_extend, hempty, hempty]

/-- A checker with a strategy starts from an environment of that strategy. -/
theorem Checker.env_fresh (policy : Policy) (interval : Interval) (s : Strategy) :
    env ⟨policy, interval, s.name⟩ .fresh = .ok (.ofBindings s []) := by
  cases s <;> rfl

theorem Checker.env_bindings (policy : Policy) (interval : Interval) (s : Strategy)
    (bindings : Bindings) :
    env ⟨policy, interval, s.name⟩ (.bindings bindings) = .ok (.ofBindings s bindings) := by
  cases s <;> rfl

/-- Checking depends on the environment through the free variables of the term only. Where two
environments of whatever strategies and scopes agree on these, the run of the check ends in the same
way, with the same counters and the same visits, under either host; so the whole check is the same.
In particular it does not matter which strategy a checker uses for its fresh environments. -/
theorem check_depends_on_freeVars (t : Term) :
    (∀ e e' : Env, Env.AgreeOn t.freeVars e e' →
      (t.Known → ∃ comp, FailFast.build t = .ok comp ∧
        ∀ (host : Host) (interval : Interval) (observed : Bool),
          host.run interval observed comp e = host.run interval observed comp e') ∧
      ∀ (c : Checker) (host : Host), c.check host t (.env e) = c.check host t (.env e')) ∧
    (∀ (comp : Check) (bindings : Bindings), FailFast.build t = .ok comp →
      ∀ (host : Host) (interval : Interval) (observed : Bool),
        host.run interval observed comp (.ofBindings .chain bindings) =
          host.run interval observed comp (.ofBindings .copy bindings)) ∧
    ∀ (policy : Policy) (interval : Interval) (host : Host) (given : Given),
      Checker.check ⟨policy, interval, Strategy.chain.name⟩ host t given =
        Checker.check ⟨policy, interval, Strategy.copy.name⟩ host t given := by
  have hstrategies (bindings : Bindings) :
      Env.AgreeOn t.freeVars (.ofBindings .chain bindings) (.ofBindings .copy bindings) :=
    fun x _ => congrFun (Env.lookup_ofBindings .chain .copy bindings) x
  refine ⟨fun e e' h => ⟨fun ht => ?_, fun c host => ?_⟩, ?_, ?_⟩
  · exact ⟨_, FailFast.build_of_known ht, FailFast.hostRun_of_agree h⟩
  · exact Checker.check_of_agree rfl rfl h host
  · intro comp bindings hb
    obtain ⟨_, rfl⟩ := FailFast.build_eq_ok hb
    exact FailFast.hostRun_of_agree (hstrategies bindings)
  · intro policy interval host given
    cases given with
    | fresh =>
      exact Checker.check_of_agree (Checker.env_fresh policy interval .chain)
        (Checker.env_fresh policy interval .copy) (hstrategies []) host
    | bindings b =>
      exact Checker.check_of_agree (Checker.env_bindings policy interval .chain b)
        (Checker.env_bindings policy interval .copy b) (hstrategies b) host
    | env e => exact Checker.check_of_agree rfl rfl (fun x _ => rfl) host

/-- `(x: number) => x + y` -/
def Term.openSum : Term :=
  .node (.func [⟨"x", .number⟩]
    (.node (.add (.node (.var "x") .unknown) (.node (.var "y") .unknown)) .unknown)) .unknown

/-- Outside of the function, `x` has another type in each environment, and `z` is known in one of
them only. -/
theorem check_openSum_of_agree :
    let e : Env := .chain (.ofBindings [("x", .boolean)])
      [.empty, .ofBindings [("y", .boolean), ("y", .number)]]
    let e' : Env := .copy (.ofBindings [("z", .boolean), ("y", .number), ("x", .func [] .number)])
    Env.AgreeOn Term.openSum.freeVars e e' ∧ e.lookup "x" = some .boolean ∧
      e'.lookup "x" = some (.func [] .number) ∧ e.lookup "z" = none ∧
      e'.lookup "z" = some .boolean ∧
      ∀ (c : Checker) (host : Host),
        c.check host Term.openSum (.env e) = c.check host Term.openSum (.env e') := by
  intro e e'
  have hfree : Term.openSum.freeVars = ["y"] := rfl
  have hagree : Env.AgreeOn Term.openSum.freeVars e e' := by
    rw [hfree]
    intro x hx
    rw [List.mem_singleton.mp hx]
    rfl
  exact ⟨hagree, rfl, rfl, rfl, rfl,
    ((check_depends_on_freeVars Term.openSum).1 e e' hagree).2⟩

end ArrowLang
