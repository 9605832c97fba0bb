import ArrowLang.Proofs.Relabelling

/-!
# ArrowLang.Proofs.Policies

The two policies agree on the fragment that both handle.

* `Term.Basic`: the terms of that fragment, made of literals, sums and conditionals.
* `Covers v r`: the verdict `v` of accumulation covers the end `r` of a fail-fast check. Both are
  the same type, or the diagnostic of `r` is one of those in `v`.
* `Accumulate.judge_covers`: on basic terms it always does.

The diagnostic of a fail-fast check need not be the first that accumulation finds. The check of a
sum goes on to the right operand before it complains about the left one; accumulation does not.
-/

namespace ArrowLang

inductive Term.Basic : Term → Prop where
  | bool {value : Bool} {span : Span} : Basic (.node (.bool value) span)
  | number {value : Int} {span : Span} : Basic (.node (.number value) span)
  | add {left right : Term} {span : Span} :
      Basic left → Basic right → Basic (.node (.add left right) span)
  | ite {cond onTrue onFalse : Term} {span : Span} :
      Basic cond → Basic onTrue → Basic onFalse → Basic (.node (.ite cond onTrue onFalse) span)

inductive Covers : Verdict Ty → Except Halt Ty → Prop where
  | typed {τ : Ty} : Covers (.ok τ) (.ok τ)
  | rejected {ds : Diagnostics} {d : Diagnostic} :
      d ∈ ds.toList → Covers (.error ds) (.error (.rejected d))

theorem Covers.of_mem_errors {v : Verdict Ty} {d : Diagnostic} (h : d ∈ Verdict.errors v) :
    Covers v (.error (.rejected d)) := by
  cases v with
  | ok τ => cases h
  | error ds => exact .rejected h

theorem Verdict.errors_both {α β γ : Type} (f : α → β → γ) (v : Verdict α) (w : Verdict β) :
    errors (both f v w) = errors v ++ errors w := by
  cases v <;> cases w <;> simp [both, errors]

namespace Accumulate

variable {env : Env} {span : Span} {d : Diagnostic}

/-! ## What a node finds -/

theorem mem_errors_numeric {c : Child (Verdict Ty)} (h : d ∈ Verdict.errors c.out) :
    d ∈ Verdict.errors (numeric c) := by
  obtain ⟨v, t⟩ := c
  cases v with
  | ok τ => cases h
  | error ds => exact h

theorem errors_add (left right : Child (Verdict Ty)) (span : Span) :
    Verdict.errors (ruling (.add left right) span) =
      Verdict.errors (numeric left) ++ Verdict.errors (numeric right) := by
  rw [ruling_add, Verdict.errors_both]

/-- A conditional about which there is no complaint has the verdict on its first branch. -/
theorem ruling_ite_of_nil {cond onTrue onFalse : Child (Verdict Ty)}
    (h : found span cond onTrue onFalse = []) :
    ruling (.ite cond onTrue onFalse) span = onTrue.out := by
  rw [ruling_ite, h]
  rfl

theorem errors_ite (cond onTrue onFalse : Child (Verdict Ty)) (span : Span) :
    Verdict.errors (ruling (.ite cond onTrue onFalse) span) = found span cond onTrue onFalse := by
  cases hf : found span cond onTrue onFalse with
  | nil =>
    rw [ruling_ite_of_nil hf]
    simp only [found, List.append_eq_nil_iff] at hf
    exact hf.1.1.1.2
  | cons d ds =>
    rw [ruling_ite, hf]
    rfl

/-! ## Covered checks -/

theorem covers_add {v w : Verdict Ty} {left right : Term} {c c' : Check}
    (hl : Covers v (c.eval env)) (hr : Covers w (c'.eval env)) :
    Covers (ruling (.add ⟨v, left⟩ ⟨w, right⟩) span)
      ((FailFast.rule (.add ⟨c, left⟩ ⟨c', right⟩) span).eval env) := by
  simp only [FailFast.rule, Comp.eval, Child.span]
  generalize c.eval env = r at hl ⊢
  generalize c'.eval env = r' at hr ⊢
  cases hl with
  | rejected hd =>
    refine .of_mem_errors ?_
    rw [errors_add]
    exact List.mem_append_left _ (mem_errors_numeric hd)
  | @typed σ =>
    cases hr with
    | rejected hd =>
      refine .of_mem_errors ?_
      rw [errors_add]
      exact List.mem_append_right _ (mem_errors_numeric hd)
    | @typed τ =>
      cases σ with
      | number =>
        cases τ with
        | number => exact .typed
        | boolean | func => exact .rejected List.mem_cons_self
      | boolean | func =>
        cases τ with
        | number | boolean | func => exact .rejected List.mem_cons_self

theorem covers_ite {u v w : Verdict Ty} {cond onTrue onFalse : Term} {c c' c'' : Check}
    (hc : Covers u (c.eval env)) (ht : Covers v (c'.eval env)) (hf : Covers w (c''.eval env)) :
    Covers (ruling (.ite ⟨u, cond⟩ ⟨v, onTrue⟩ ⟨w, onFalse⟩) span)
      ((FailFast.rule (.ite ⟨c, cond⟩ ⟨c', onTrue⟩ ⟨c'', onFalse⟩) span).eval env) := by
  simp only [FailFast.rule, Comp.eval, Child.span]
  generalize c.eval env = r at hc ⊢
  generalize c'.eval env = r' at ht ⊢
  generalize c''.eval env = r'' at hf ⊢
  have hmem {d : Diagnostic} (h : d ∈ found span ⟨u, cond⟩ ⟨v, onTrue⟩ ⟨w, onFalse⟩) :
      Covers (ruling (.ite ⟨u, cond⟩ ⟨v, onTrue⟩ ⟨w, onFalse⟩) span) (.error (.rejected d)) :=
    .of_mem_errors (by rw [errors_ite]; exact h)
  cases hc with
  | rejected hd => exact hmem (by simp [found, Verdict.errors, hd])
  | @typed γ =>
    cases ht with
    | rejected hd => exact hmem (by simp [found, Verdict.errors, hd])
    | @typed σ =>
      cases hf with
      | rejected hd => exact hmem (by simp [found, Verdict.errors, hd])
      | @typed τ =>
        -- all parts have types, and the rules of both policies look at these
        cases γ with
        | boolean =>
          by_cases heq : σ.equal τ = true
          · have hnil : found span ⟨.ok .boolean, cond⟩ ⟨.ok σ, onTrue⟩ ⟨.ok τ, onFalse⟩ = [] := by
              simp [found, Verdict.errors, condition, branches, heq]
            rw [ruling_ite_of_nil hnil]
            simp only [FailFast.iteRule, heq, if_true, Comp.eval]
            exact .typed
          · simp only [FailFast.iteRule, heq]
            exact hmem (by simp [found, Verdict.errors, condition, branches, heq])
        | number | func => exact hmem (by simp [found, condition, Child.span])

theorem judge_covers {t : Term} (ht : t.Basic) (env : Env) :
    Covers (judge t) ((FailFast.check t).eval env) := by
  induction ht with
  | bool => exact .typed
  | number => exact .typed
  | add _ _ ihl ihr =>
    rw [judge_node, FailFast.check_node]
    exact covers_add ihl ihr
  | ite _ _ _ ihc iht ihf =>
    rw [judge_node, FailFast.check_node]
    exact covers_ite ihc iht ihf

/-! ## The fragment -/

theorem eq_number_of_numeric_ok {c : Child (Verdict Ty)} {τ : Ty} (h : numeric c = .ok τ) :
    c.out = .ok .number := by
  obtain ⟨v, t⟩ := c
  cases v with
  | error ds => cases h
  | ok σ =>
    cases σ with
    | number => rfl
    | boolean | func => cases h

theorem exists_ok_of_errors_nil {v : Verdict Ty} (h : Verdict.errors v = []) : ∃ τ, v = .ok τ := by
  cases v with
  | ok τ => exact ⟨τ, rfl⟩
  | error ds => cases h

/-- Accumulation ends with a type on basic terms only. -/
theorem basic_of_judge_ok {t : Term} {τ : Ty} (h : judge t = .ok τ) : t.Basic := by
  induction t using Term.byChildren generalizing τ with
  | unknown variant span => cases h
  | node layer span ih =>
    rw [judge_node] at h
    have herrors : Verdict.errors (ruling (layer.map fun t => ⟨judge t, t⟩) span) = [] := by
      rw [h]
      rfl
    cases layer with
    | bool value => exact .bool
    | number value => exact .number
    | add left right =>
      rw [Layer.map, errors_add, List.append_eq_nil_iff] at herrors
      obtain ⟨_, hl⟩ := exists_ok_of_errors_nil herrors.1
      obtain ⟨_, hr⟩ := exists_ok_of_errors_nil herrors.2
      exact .add (ih left (by simp [Layer.children]) (eq_number_of_numeric_ok hl))
        (ih right (by simp [Layer.children]) (eq_number_of_numeric_ok hr))
    | ite cond onTrue onFalse =>
      rw [Layer.map, errors_ite] at herrors
      simp only [found, List.append_eq_nil_iff] at herrors
      obtain ⟨_, hc⟩ := exists_ok_of_errors_nil herrors.1.1.1.1
      obtain ⟨_, ht⟩ := exists_ok_of_errors_nil herrors.1.1.1.2
      obtain ⟨_, hf⟩ := exists_ok_of_errors_nil herrors.1.1.2
      exact .ite (ih cond (by simp [Layer.children]) hc) (ih onTrue (by simp [Layer.children]) ht)
        (ih onFalse (by simp [Layer.children]) hf)
    | var | func | call | seq | const => cases h

end Accumulate

/-! ## Whole checks -/

theorem Checker.failFast_ok_iff {c : Checker} {t : Term} {given : Given} {e : Env}
    (hp : c.policy = .failFast) (ht : t.Known) (he : c.env given = .ok e) (host : Host) (τ : Ty) :
    (c.check host t given).outcome = .ok (.ok τ) ↔ (FailFast.check t).eval e = .ok τ := by
  rcases FailFast.eval_check_cases ht e with ⟨σ, hv⟩ | ⟨d, hv⟩
  · rw [failFast_outcome hp ht he host (congrArg Outcome.ofEval hv), hv]
    simp
  · rw [failFast_outcome hp ht he host (congrArg Outcome.ofEval hv), hv]
    simp

theorem Checker.failFast_error_iff {c : Checker} {t : Term} {given : Given} {e : Env}
    (hp : c.policy = .failFast) (ht : t.Known) (he : c.env given = .ok e) (host : Host)
    (ds : Diagnostics) :
    (c.check host t given).outcome = .ok (.error ds) ↔
      ∃ d, (FailFast.check t).eval e = .error (.rejected d) ∧ ds = .single d := by
  rcases FailFast.eval_check_cases ht e with ⟨σ, hv⟩ | ⟨d, hv⟩
  · rw [failFast_outcome hp ht he host (congrArg Outcome.ofEval hv), hv]
    simp
  · rw [failFast_outcome hp ht he host (congrArg Outcome.ofEval hv), hv]
    simp [eq_comm]

/-- The two policies agree. For every known term and in every environment, accumulation ends with a
type if and only if the term is basic and the fail-fast check ends with that type. If a basic term
has no type, both reject it: the fail-fast check with one diagnostic, and accumulation with
diagnostics among which there is that one. -/
theorem policies_agree {t : Term} (ht : t.Known) {interval : Interval} {s : String} {given : Given}
    {e : Env} (he : Checker.env ⟨.failFast, interval, s⟩ given = .ok e) (host : Host) :
    let accumulated := (Checker.check ⟨.accumulate, interval, s⟩ host t given).outcome
    let first := (Checker.check ⟨.failFast, interval, s⟩ host t given).outcome
    (∀ τ, accumulated = .ok (.ok τ) ↔ t.Basic ∧ first = .ok (.ok τ)) ∧
      (t.Basic → (∀ τ, ¬ HasType e.lookup t τ) →
        ∃ ds d, accumulated = .ok (.error ds) ∧ first = .ok (.error (.single d)) ∧
          d ∈ ds.toList) := by
  intro accumulated first
  have hacc : accumulated = .ok (Accumulate.judge t) := Checker.accumulate_outcome rfl ht host
  constructor
  · intro τ
    have hfirst : first = .ok (.ok τ) ↔ (FailFast.check t).eval e = .ok τ :=
      Checker.failFast_ok_iff rfl ht he host τ
    rw [hacc, hfirst, Except.ok.injEq]
    constructor
    · intro h
      have hbasic := Accumulate.basic_of_judge_ok h
      refine ⟨hbasic, ?_⟩
      have hcovers := Accumulate.judge_covers hbasic e
      rw [h] at hcovers
      generalize (FailFast.check t).eval e = r at hcovers ⊢
      cases hcovers with
      | typed => rfl
    · rintro ⟨hbasic, h⟩
      have hcovers := Accumulate.judge_covers hbasic e
      rw [h] at hcovers
      generalize Accumulate.judge t = v at hcovers ⊢
      cases hcovers with
      | typed => rfl
  · intro hbasic hnone
    have hcovers := Accumulate.judge_covers hbasic e
    cases hv : (FailFast.check t).eval e with
    | ok τ => exact absurd ((FailFast.eval_check_ok t e τ).mp hv) (hnone τ)
    | error h =>
      rw [hv] at hcovers
      generalize Accumulate.judge t = v at hcovers hacc
      cases hcovers with
      | rejected hd =>
        exact ⟨_, _, hacc, Checker.failFast_outcome rfl ht he host (congrArg Outcome.ofEval hv), hd⟩

/-- In `true + (1 ? 1 : 1)` accumulation finds the left operand first and the fail-fast check the
condition. -/
theorem policies_agree_on_sum :
    let place (i j : Nat) : Span := Position.spanTo "<stdin>" ⟨1, i⟩ ⟨1, j⟩
    let one (i : Nat) : Term := .node (.number 1) (place i (i + 1))
    let t : Term := .node (.add (.node (.bool true) (place 0 4))
      (.node (.ite (one 8) (one 12) (one 16)) (place 8 17))) (place 0 18)
    t.Known ∧ t.Basic ∧ (∀ τ, ¬ HasType (Env.empty .chain).lookup t τ) ∧
      (Checker.check ⟨.failFast, .one, "chain"⟩ .direct t .fresh).outcome =
        .ok (.error (.single (.ofCode .conditionNotBoolean (place 8 9)))) ∧
      ∃ ds d, (Checker.check ⟨.accumulate, .one, "chain"⟩ .direct t .fresh).outcome =
          .ok (.error ds) ∧
        (Checker.check ⟨.failFast, .one, "chain"⟩ .direct t .fresh).outcome =
          .ok (.error (.single d)) ∧ d ∈ ds.toList := by
  intro place one t
  have hknown : t.Known := by simp [t, one, Layer.children]
  have hbasic : t.Basic := .add .bool (.ite .number .number .number)
  have hnone (τ : Ty) : ¬ HasType (Env.empty .chain).lookup t τ := by
    intro h
    have hleft := hasType_bool.mp (hasType_add.mp h).1
    cases hleft
  refine ⟨hknown, hbasic, hnone, Checker.failFast_outcome rfl hknown rfl .direct rfl, ?_⟩
  exact (policies_agree hknown rfl .direct).2 hbasic hnone

end ArrowLang
