import ArrowLang.Proofs.FirstViolation
import ArrowLang.Proofs.FreeVariables
import ArrowLang.Proofs.Schedule

/-!
# ArrowLang.Proofs.Relabelling

No rule looks at a span, except to say what it complains about.

* `Accumulate.ruling`: the verdict of a rule. `Accumulate.rule_eq` says that there always is one.
* `Accumulate.judge`: the verdict on a term by recursion on the term.
* `Accumulate.judge_mapSpans`: relabelling the spans of a term relabels those of the diagnostics.
* `FailFast.hostRun_mapSpans`: the same of the run of a fail-fast check, counters included.
* `Checker.check_mapSpans`: the same of a whole check, under either policy.
* `Verdict.gist`: a verdict without the places it is about, which no relabelling changes. So checks
  can be compared on terms without spans.
-/

namespace ArrowLang

/-! ## Verdicts -/

namespace Verdict

variable {α β γ : Type}

theorem errors_mapSpans (f : Span → Span) (v : Verdict α) :
    errors (v.mapSpans f) = (errors v).map (Diagnostic.mapSpan f) := by
  cases v <;> rfl

/-- Both values combined, or the diagnostics of the left followed by those of the right. -/
def both (f : α → β → γ) : Verdict α → Verdict β → Verdict γ
  | .ok a, .ok b => .ok (f a b)
  | .error ds, .error es => .error (ds.append es)
  | .error ds, .ok _ => .error ds
  | .ok _, .error es => .error es

theorem both_mapSpans (f : Span → Span) (g : α → β → γ) (v : Verdict α) (w : Verdict β) :
    both g (v.mapSpans f) (w.mapSpans f) = (both g v w).mapSpans f := by
  cases v with
  | ok a => cases w <;> rfl
  | error ds =>
    cases w with
    | ok b => rfl
    | error es =>
      simp [both, mapSpans, Diagnostics.mapSpans, Diagnostics.append, Diagnostics.toList]

end Verdict

/-- Verdicts can always be combined. -/
theorem Candidate.map2_verdict {α β γ : Type} (shown : α → String) (shown' : β → String)
    (f : α → β → γ) (v : Verdict α) (w : Verdict β) :
    map2 shown shown' f (.verdict v) (.verdict w) = .ok (v.both f w) := by
  cases v <;> cases w <;> rfl

theorem Diagnostics.ofList?_map (f : Span → Span) (l : List Diagnostic) :
    ofList? (l.map (Diagnostic.mapSpan f)) = (ofList? l).map (mapSpans f) := by
  cases l <;> rfl

/-! ## Accumulated diagnostics -/

namespace Accumulate

/-- The verdict, if no check has failed on the way to it. -/
def settled : Except Fault (Verdict Ty) → Verdict Ty
  | .ok v => v
  | .error _ => .ok .boolean

def declined (span : Span) (what : String) : Verdict Ty := settled (outside span what)

def numeric (c : Child (Verdict Ty)) : Verdict Ty := settled (operand c)

def ruling (layer : Layer (Child (Verdict Ty))) (span : Span) : Verdict Ty :=
  settled (rule layer span)

theorem operand_eq (c : Child (Verdict Ty)) : operand c = .ok (numeric c) := by
  obtain ⟨v, t⟩ := c
  cases v with
  | error ds => rfl
  | ok τ => cases τ <;> rfl

theorem rule_add (left right : Child (Verdict Ty)) (span : Span) :
    rule (.add left right) span =
      .ok ((numeric left).both (fun _ _ => .number) (numeric right)) := by
  rw [rule, operand_eq, operand_eq]
  exact Candidate.map2_verdict _ _ _ _ _

theorem rule_ite (cond onTrue onFalse : Child (Verdict Ty)) (span : Span) :
    rule (.ite cond onTrue onFalse) span =
      .ok (match Diagnostics.ofList? (found span cond onTrue onFalse) with
        | some ds => .error ds
        | none => onTrue.out) := by
  rw [rule]
  cases found span cond onTrue onFalse <;> rfl

/-- No rule makes a verdict without a diagnostic, or combines what is no verdict. -/
theorem rule_eq (layer : Layer (Child (Verdict Ty))) (span : Span) :
    rule layer span = .ok (ruling layer span) := by
  rw [ruling]
  cases layer with
  | add left right => rw [rule_add, settled]
  | ite cond onTrue onFalse => rw [rule_ite, settled]
  | bool | number | var | func | call | seq | const => rfl

theorem ruling_add (left right : Child (Verdict Ty)) (span : Span) :
    ruling (.add left right) span = (numeric left).both (fun _ _ => .number) (numeric right) := by
  rw [ruling, rule_add, settled]

theorem ruling_ite (cond onTrue onFalse : Child (Verdict Ty)) (span : Span) :
    ruling (.ite cond onTrue onFalse) span =
      match Diagnostics.ofList? (found span cond onTrue onFalse) with
      | some ds => .error ds
      | none => onTrue.out := by
  rw [ruling, rule_ite, settled]

/-- The verdict on a term, by recursion on the term. -/
def judge : Term → Verdict Ty := Term.recurse ruling fun variant span => declined span variant

theorem judge_node (layer : Layer Term) (span : Span) :
    judge (.node layer span) = ruling (layer.map fun t => ⟨judge t, t⟩) span :=
  Term.recurse_node _ _ layer span

theorem verdict_eq (t : Term) : verdict t = t.para fun layer span => pure (ruling layer span) :=
  congrArg (fun alg => t.para alg) (funext fun layer => funext fun span => rule_eq layer span)

theorem verdict_of_known {t : Term} (ht : t.Known) : verdict t = .ok (judge t) := by
  rw [verdict_eq]
  exact Term.para_of_known _ _ ht

theorem verdict_of_unknowns {t : Term} {variant : String} {rest : List String}
    (h : t.unknowns = variant :: rest) : verdict t = .error (.unknownTerm variant) := by
  rw [verdict_eq]
  exact Term.para_of_unknowns _ h

variable (f : Span → Span)

theorem declined_mapSpans (span : Span) (what : String) :
    declined (f span) what = (declined span what).mapSpans f := by
  simp [declined, settled, outside, Verdict.mapSpans, Diagnostics.mapSpans]

theorem numeric_mapSpans (v : Verdict Ty) (t : Term) :
    numeric ⟨v.mapSpans f, t.mapSpans f⟩ = (numeric ⟨v, t⟩).mapSpans f := by
  cases v with
  | error ds => rfl
  | ok τ =>
    cases τ <;> simp [numeric, settled, operand, Verdict.mapSpans, Diagnostics.mapSpans,
      Child.span, Term.span_mapSpans]

theorem condition_mapSpans (v : Verdict Ty) (t : Term) :
    condition ⟨v.mapSpans f, t.mapSpans f⟩ = (condition ⟨v, t⟩).map (Diagnostic.mapSpan f) := by
  cases v with
  | error ds => rfl
  | ok τ => cases τ <;> simp [condition, Verdict.mapSpans, Child.span, Term.span_mapSpans]

theorem branches_mapSpans (span : Span) (v w : Verdict Ty) :
    branches (f span) (v.mapSpans f) (w.mapSpans f) =
      (branches span v w).map (Diagnostic.mapSpan f) := by
  cases v with
  | error ds => rfl
  | ok σ =>
    cases w with
    | error ds => rfl
    | ok τ =>
      simp only [branches, Verdict.mapSpans]
      split <;> simp

/-- The verdict on a conditional is that on its first branch, unless something is found. -/
theorem ofList?_or_mapSpans (found : List Diagnostic) (v : Verdict Ty) :
    (match Diagnostics.ofList? (found.map (Diagnostic.mapSpan f)) with
      | some ds => .error ds
      | none => v.mapSpans f) =
    Verdict.mapSpans f (match Diagnostics.ofList? found with
      | some ds => .error ds
      | none => v) := by
  rw [Diagnostics.ofList?_map]
  cases Diagnostics.ofList? found <;> rfl

theorem judge_mapSpans (t : Term) : judge (t.mapSpans f) = (judge t).mapSpans f := by
  induction t using Term.byChildren with
  | unknown variant span => exact declined_mapSpans f span variant
  | node layer span ih =>
    rw [Term.mapSpans_node, judge_node, judge_node, Layer.map_map]
    cases layer with
    | bool value => rfl
    | number value => rfl
    | add left right =>
      have hl := ih left (by simp [Layer.children])
      have hr := ih right (by simp [Layer.children])
      simp only [Layer.map, ruling_add, hl, hr, numeric_mapSpans, Verdict.both_mapSpans]
    | ite cond onTrue onFalse =>
      have hc := ih cond (by simp [Layer.children])
      have ht := ih onTrue (by simp [Layer.children])
      have hf := ih onFalse (by simp [Layer.children])
      simp only [Layer.map, ruling_ite, found, hc, ht, hf, Verdict.errors_mapSpans,
        condition_mapSpans, branches_mapSpans, ← List.map_append]
      exact ofList?_or_mapSpans f _ _
    | var name => exact declined_mapSpans f span _
    | func params body => exact declined_mapSpans f span _
    | call callee args => exact declined_mapSpans f span _
    | seq first rest => exact declined_mapSpans f span _
    | const name init rest => exact declined_mapSpans f span _

end Accumulate

/-! ## Whole checks -/

/-- The run of the check of a relabelled term differs in the spans of its diagnostics only. -/
theorem FailFast.hostRun_mapSpans (f : Span → Span) (t : Term) (env : Env) (host : Host)
    (n : Interval) (observed : Bool) :
    host.run n observed (check (t.mapSpans f)) env =
      ((host.run n observed (check t) env).1.mapSpans f, (host.run n observed (check t) env).2) :=
  (check_alike f t).hostRun_eq (fun _ _ => rfl : Env.AgreeOn t.freeVars env env) host n observed

namespace Checker

variable {c : Checker} {given : Given} {t : Term} {env : Env}

theorem accumulate_outcome (hp : c.policy = .accumulate) (ht : t.Known) (host : Host) :
    (c.check host t given).outcome = .ok (Accumulate.judge t) := by
  simp only [check, hp, checkAll, Accumulate.verdict_of_known ht]

/-- Under either host, a fail-fast check leaves behind what the check of the term ends with. -/
theorem failFast_outcome (hp : c.policy = .failFast) (ht : t.Known) (he : c.env given = .ok env)
    (host : Host) {v : Verdict Ty} (hv : Outcome.ofEval ((FailFast.check t).eval env) = .ok v) :
    (c.check host t given).outcome = .ok v := by
  have hrun : (host.run c.interval true (FailFast.check t) env).1.outcome = .ok v := by
    rw [host.run_eq_visits]
    exact hv
  simp only [check, hp, checkFirst_eq_ofRun host (FailFast.build_of_known ht) he]
  exact (CheckReport.ofRun_of_ok hrun).1

/-- In an environment, the check of a known term comes to a verdict. -/
theorem outcome_ok (ht : t.Known) (he : c.env given = .ok env) (host : Host) :
    ∃ v, (c.check host t given).outcome = .ok v := by
  cases hp : c.policy with
  | accumulate => exact ⟨_, accumulate_outcome hp ht host⟩
  | failFast =>
    rcases FailFast.eval_check_cases ht env with ⟨τ, hv⟩ | ⟨d, hv⟩
    · exact ⟨_, failFast_outcome hp ht he host (congrArg Outcome.ofEval hv)⟩
    · exact ⟨_, failFast_outcome hp ht he host (congrArg Outcome.ofEval hv)⟩

/-- The check of a relabelled term has the same counters, and the same verdict with relabelled
diagnostics. If there is no environment to check in, both say so. -/
theorem check_mapSpans (f : Span → Span) (ht : t.Known) (c : Checker) (host : Host)
    (given : Given) :
    (c.check host (t.mapSpans f) given).outcome =
        (c.check host t given).outcome.map (Verdict.mapSpans f) ∧
      (c.check host (t.mapSpans f) given).lastStats = (c.check host t given).lastStats ∧
      (c.check host (t.mapSpans f) given).hops = (c.check host t given).hops := by
  have ht' := (Term.known_mapSpans f t).mpr ht
  unfold check
  cases c.policy with
  | accumulate =>
    simp only [checkAll, Accumulate.verdict_of_known ht, Accumulate.verdict_of_known ht',
      Accumulate.judge_mapSpans]
    exact ⟨rfl, rfl, trivial⟩
  | failFast =>
    have hb := FailFast.build_of_known ht
    have hb' := FailFast.build_of_known ht'
    cases he : c.env given with
    | error e =>
      simp only [checkFirst, hb, hb', he]
      exact ⟨rfl, rfl, trivial⟩
    | ok env =>
      rw [checkFirst_eq_ofRun host hb he, checkFirst_eq_ofRun host hb' he,
        FailFast.hostRun_mapSpans f t env]
      obtain ⟨⟨outcome, stats, seen⟩, hops⟩ := host.run c.interval true (FailFast.check t) env
      cases outcome with
      | error x => exact ⟨rfl, rfl, rfl⟩
      | ok v => exact ⟨rfl, rfl, rfl⟩

end Checker

/-- What a verdict says: a type, or the code and the message of each diagnostic. -/
def Verdict.gist : Verdict Ty → Except (List (Code × String)) Ty
  | .ok τ => .ok τ
  | .error ds => .error (ds.toList.map fun d => (d.code, d.message))

theorem Verdict.gist_mapSpans (f : Span → Span) (v : Verdict Ty) :
    (v.mapSpans f).gist = v.gist := by
  cases v with
  | ok τ => rfl
  | error ds => simp [mapSpans, gist, Diagnostics.mapSpans, Diagnostics.toList, Diagnostic.mapSpan]

/-- Terms that are checked alike without their spans are checked alike, but for places. -/
theorem Checker.gist_of_eraseSpans {c : Checker} {given : Given} {env : Env} {t u : Term}
    (ht : t.Known) (hu : u.Known) (he : c.env given = .ok env) {host : Host}
    (h : (c.check host t.eraseSpans given).outcome = (c.check host u.eraseSpans given).outcome) :
    ∃ v w, (c.check host t given).outcome = .ok v ∧ (c.check host u given).outcome = .ok w ∧
      v.gist = w.gist := by
  obtain ⟨v, hv⟩ := outcome_ok ht he host
  obtain ⟨w, hw⟩ := outcome_ok hu he host
  refine ⟨v, w, hv, hw, ?_⟩
  have hv' := (check_mapSpans (fun _ => .unknown) ht c host given).1
  have hw' := (check_mapSpans (fun _ => .unknown) hu c host given).1
  change (c.check host t.eraseSpans given).outcome = _ at hv'
  change (c.check host u.eraseSpans given).outcome = _ at hw'
  rw [h, hw', hv, hw] at hv'
  have hvw : w.mapSpans (fun _ => .unknown) = v.mapSpans (fun _ => .unknown) :=
    Except.ok.inj hv'
  rw [← v.gist_mapSpans (fun _ => .unknown), ← hvw, w.gist_mapSpans]

/-- Checking commutes with relabelling spans. Let `f` be applied to the span of every node of a
known term. Under either policy and host, whatever environment is given, the check then ends with
the same type, or with the same diagnostics in the same order and `f` applied to their spans; and it
leaves the same counters behind. The run that a fail-fast check makes in an environment has the same
final counters, and the same counters at each visit of an observer. -/
theorem checking_commutes_with_relabelling {t : Term} (ht : t.Known) (f : Span → Span) :
    (∀ (c : Checker) (host : Host) (given : Given),
      let report := c.check host t given
      let report' := c.check host (t.mapSpans f) given
      report'.outcome = report.outcome.map (Verdict.mapSpans f) ∧
        report'.lastStats = report.lastStats ∧ report'.hops = report.hops) ∧
    ∃ comp comp', FailFast.build t = .ok comp ∧ FailFast.build (t.mapSpans f) = .ok comp' ∧
      ∀ (env : Env) (host : Host) (n : Interval) (observed : Bool),
        let run := host.run n observed comp env
        let run' := host.run n observed comp' env
        run'.1.outcome = run.1.outcome.map (Verdict.mapSpans f) ∧ run'.1.stats = run.1.stats ∧
          run'.1.seen = run.1.seen ∧ run'.2 = run.2 := by
  refine ⟨fun c host given => Checker.check_mapSpans f ht c host given, ?_⟩
  have ht' := (Term.known_mapSpans f t).mpr ht
  refine ⟨_, _, FailFast.build_of_known ht, FailFast.build_of_known ht', ?_⟩
  intro env host n observed run run'
  have hrun : run' = (run.1.mapSpans f, run.2) := FailFast.hostRun_mapSpans f t env host n observed
  rw [hrun]
  exact ⟨rfl, rfl, rfl, rfl⟩

/-- `true + (false + 1)` with one span for all nodes: no diagnostic is lost with the places, and
each policy reports what it did before. -/
theorem relabelling_of_sum :
    let place (i j : Nat) : Span := Position.spanTo "<stdin>" ⟨1, i⟩ ⟨1, j⟩
    let t : Term := .node (.add (.node (.bool true) (place 0 4))
      (.node (.add (.node (.bool false) (place 8 13)) (.node (.number 1) (place 16 17)))
        (place 8 17))) (place 0 18)
    let d (s : Span) : Diagnostic := .ofCode .operandNotNumber s
    let outcome (policy : Policy) (t : Term) : Except CheckFailure (Verdict Ty) :=
      (Checker.check ⟨policy, .one, "chain"⟩ .session t .fresh).outcome
    t.Known ∧
      outcome .accumulate t = .ok (.error ⟨d (place 0 4), [d (place 8 13)]⟩) ∧
      outcome .failFast t = .ok (.error (.single (d (place 8 13)))) ∧
      outcome .accumulate (t.mapSpans fun _ => place 0 18) =
        .ok (.error ⟨d (place 0 18), [d (place 0 18)]⟩) ∧
      outcome .failFast (t.mapSpans fun _ => place 0 18) =
        .ok (.error (.single (d (place 0 18)))) := by
  intro place t d outcome
  have ht : t.Known := by simp [t, Layer.children]
  have hall : outcome .accumulate t = .ok (.error ⟨d (place 0 4), [d (place 8 13)]⟩) :=
    Checker.accumulate_outcome rfl ht .session
  have hfirst : outcome .failFast t = .ok (.error (.single (d (place 8 13)))) :=
    Checker.failFast_outcome rfl ht rfl .session rfl
  have hmoved (policy : Policy) : outcome policy (t.mapSpans fun _ => place 0 18) =
      (outcome policy t).map (Verdict.mapSpans fun _ => place 0 18) :=
    ((checking_commutes_with_relabelling ht fun _ => place 0 18).1 _ .session .fresh).1
  refine ⟨ht, hall, hfirst, ?_, ?_⟩
  · rw [hmoved, hall]
    rfl
  · rw [hmoved, hfirst]
    rfl

end ArrowLang
