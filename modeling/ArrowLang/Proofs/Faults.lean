import ArrowLang.Proofs.Policies
import ArrowLang.Proofs.Printing

/-!
# ArrowLang.Proofs.Faults

Faults come of unknown nodes only, and what is reported otherwise is in order.

* `Term.HasSpan t s`: some node of `t` has the span `s`.
* `Policy.codes`: the codes of the diagnostics that a policy can give.
* `Policy.Reports p t ds`: `ds` are diagnostics such as the policy `p` gives on `t`.
* `Checker.Orderly`: a check that is no fault ends with a type, with such diagnostics, or with the
  complaint that there is no environment to check in.

A rule complains about its own node or about a child of it. So `Violation.reported` and
`Accumulate.judge_reported` need to look at one node only, and the spans of the whole term follow
by induction.
-/

namespace ArrowLang

universe u

/-! ## Spans of nodes -/

namespace Term

def HasSpan (t : Term) (s : Span) : Prop := ∃ u ∈ t.preorder, u.span = s

theorem hasSpan_self (t : Term) : t.HasSpan t.span := ⟨t, t.mem_preorder_self, rfl⟩

theorem HasSpan.of_child {layer : Layer Term} {span s : Span} {u : Term}
    (hu : u ∈ layer.children) (h : u.HasSpan s) : (node layer span).HasSpan s := by
  obtain ⟨v, hv, hs⟩ := h
  refine ⟨v, ?_, hs⟩
  rw [preorder_node]
  exact List.mem_cons_of_mem _ (List.mem_flatMap.mpr ⟨u, hu, hv⟩)

theorem hasSpan_child {layer : Layer Term} {span : Span} {u : Term} (hu : u ∈ layer.children) :
    (node layer span).HasSpan u.span := .of_child hu u.hasSpan_self

end Term

/-! ## Diagnostics of a policy -/

namespace Policy

def codes : Policy → List Code
  | .failFast =>
    [.conditionNotBoolean, .branchesDiffer, .operandNotNumber, .unknownVariable, .functionExpected,
      .argumentCount, .argumentType]
  | .accumulate => [.conditionNotBoolean, .branchesDiffer, .operandNotNumber, .notImplemented]

/-- One diagnostic that the policy can give on `t`. -/
structure Allows (p : Policy) (t : Term) (d : Diagnostic) : Prop where
  code : d.code ∈ p.codes
  span : t.HasSpan d.span

theorem allows_ofCode {p : Policy} {t : Term} {code : Code} {s : Span} {detail : Option String}
    (hc : code ∈ p.codes) (hs : t.HasSpan s) : p.Allows t (.ofCode code s detail) := by
  cases detail <;> exact ⟨hc, hs⟩

theorem Allows.of_child {p : Policy} {layer : Layer Term} {span : Span} {u : Term} {d : Diagnostic}
    (hu : u ∈ layer.children) (h : p.Allows u d) : p.Allows (.node layer span) d :=
  ⟨h.code, .of_child hu h.span⟩

structure Reports (p : Policy) (t : Term) (ds : Diagnostics) : Prop where
  nonempty : ds.toList ≠ []
  single : p = .failFast → ds.toList.length = 1
  allowed : ∀ d ∈ ds.toList, p.Allows t d

end Policy

/-! ## The first violation -/

theorem Violation.reported {Γ : Context} {t : Term} {d : Diagnostic} (h : Violation Γ t d) :
    Policy.failFast.Allows t d := by
  cases h with
  | left _ _ _ | right _ _ _ | condition _ _ _ _ | callee _ _ _ =>
    exact Policy.allows_ofCode (by decide) (Term.hasSpan_child (by simp [Layer.children]))
  | branches _ _ _ _ | var _ | count _ _ _ =>
    exact Policy.allows_ofCode (by decide) (Term.hasSpan_self _)
  | argument _ _ _ _ _ harg _ _ =>
    have hmem := List.mem_of_getElem? harg
    exact Policy.allows_ofCode (by decide) (Term.hasSpan_child (List.mem_cons_of_mem _ hmem))

theorem FailFast.eval_check_reported {t : Term} :
    ∀ (env : Env) (d : Diagnostic), (check t).eval env = .error (.rejected d) →
      Policy.failFast.Allows t d := by
  induction t using Term.byChildren with
  | unknown variant span => intro env d he; cases he
  | node layer span ih =>
    intro env d he
    rcases eval_check_error he with ⟨i, u, env', hu, _, _, hf⟩ | ⟨d', hd, hv⟩
    · have hmem := List.mem_of_getElem? hu
      exact .of_child hmem (ih u hmem env' d hf)
    · cases hd
      exact hv.reported

/-! ## Collected violations -/

namespace Accumulate

theorem mem_numeric_cases {c : Child (Verdict Ty)} {d : Diagnostic}
    (h : d ∈ Verdict.errors (numeric c)) :
    d ∈ Verdict.errors c.out ∨ d = .ofCode .operandNotNumber c.span := by
  obtain ⟨v, t⟩ := c
  cases v with
  | error ds => exact .inl h
  | ok τ =>
    cases τ with
    | number => cases h
    | boolean | func => exact .inr (List.mem_singleton.mp h)

theorem mem_condition_cases {c : Child (Verdict Ty)} {d : Diagnostic} (h : d ∈ condition c) :
    d = .ofCode .conditionNotBoolean c.span := by
  obtain ⟨v, t⟩ := c
  cases v with
  | error ds => cases h
  | ok τ =>
    cases τ with
    | boolean => cases h
    | number | func => exact List.mem_singleton.mp h

theorem mem_branches_cases {span : Span} {v w : Verdict Ty} {d : Diagnostic}
    (h : d ∈ branches span v w) : d = .ofCode .branchesDiffer span := by
  cases v with
  | error ds => cases h
  | ok σ =>
    cases w with
    | error ds => cases h
    | ok τ =>
      rw [branches] at h
      split at h
      · cases h
      · exact List.mem_singleton.mp h

theorem judge_reported (t : Term) :
    ∀ d ∈ Verdict.errors (judge t), Policy.accumulate.Allows t d := by
  have hdeclined {t : Term} {what : String} {d : Diagnostic}
      (h : d ∈ Verdict.errors (declined t.span what)) : Policy.accumulate.Allows t d := by
    have hd : d = .ofCode .notImplemented t.span (some what) := List.mem_singleton.mp h
    rw [hd]
    exact Policy.allows_ofCode (by decide) t.hasSpan_self
  induction t using Term.byChildren with
  | unknown variant span =>
    intro d hd
    exact hdeclined hd
  | node layer span ih =>
    intro d hd
    rw [judge_node] at hd
    cases layer with
    | bool value | number value => cases hd
    | add left right =>
      rw [Layer.map, errors_add, List.mem_append] at hd
      have hl : left ∈ (Layer.add left right).children := by simp [Layer.children]
      have hr : right ∈ (Layer.add left right).children := by simp [Layer.children]
      rcases hd with hd | hd
      · rcases mem_numeric_cases hd with hd | rfl
        · exact .of_child hl (ih left hl d hd)
        · exact Policy.allows_ofCode (by decide) (Term.hasSpan_child hl)
      · rcases mem_numeric_cases hd with hd | rfl
        · exact .of_child hr (ih right hr d hd)
        · exact Policy.allows_ofCode (by decide) (Term.hasSpan_child hr)
    | ite cond onTrue onFalse =>
      rw [Layer.map, errors_ite] at hd
      simp only [found, List.mem_append] at hd
      have hc : cond ∈ (Layer.ite cond onTrue onFalse).children := by simp [Layer.children]
      have ht : onTrue ∈ (Layer.ite cond onTrue onFalse).children := by simp [Layer.children]
      have hf : onFalse ∈ (Layer.ite cond onTrue onFalse).children := by simp [Layer.children]
      rcases hd with (((hd | hd) | hd) | hd) | hd
      · exact .of_child hc (ih cond hc d hd)
      · exact .of_child ht (ih onTrue ht d hd)
      · exact .of_child hf (ih onFalse hf d hd)
      · cases mem_condition_cases hd
        exact Policy.allows_ofCode (by decide) (Term.hasSpan_child hc)
      · cases mem_branches_cases hd
        exact Policy.allows_ofCode (by decide) (Term.hasSpan_self _)
    -- what stands inside a node outside of the fragment does not show in its verdict
    | var | func | call | seq | const => exact hdeclined hd

end Accumulate

/-! ## Whole checks -/

namespace Checker

variable {c : Checker} {given : Given} {t : Term}

inductive Orderly (c : Checker) (given : Given) (t : Term) :
    Except CheckFailure (Verdict Ty) → Prop where
  | typed {τ : Ty} : Orderly c given t (.ok (.ok τ))
  | rejected {ds : Diagnostics} : c.policy.Reports t ds → Orderly c given t (.ok (.error ds))
  | unconfigured {e : ConfigError} : c.env given = .error e →
      Orderly c given t (.error (.config e))

theorem outcome_of_unknowns {variant : String} {rest : List String}
    (h : t.unknowns = variant :: rest) (host : Host) :
    (c.check host t given).outcome = .error (.fault (.unknownTerm variant)) := by
  cases hp : c.policy with
  | accumulate =>
    simp only [check, hp, checkAll, Accumulate.verdict_of_unknowns h]
  | failFast =>
    simp only [check, hp, checkFirst, FailFast.build, Term.para_of_unknowns _ h]

theorem orderly_accumulate (hp : c.policy = .accumulate) (ht : t.Known) (host : Host) :
    Orderly c given t (c.check host t given).outcome := by
  rw [accumulate_outcome hp ht host]
  have hreported := Accumulate.judge_reported t
  cases hj : Accumulate.judge t with
  | ok τ => exact .typed
  | error ds =>
    rw [hj] at hreported
    refine .rejected ⟨List.cons_ne_nil _ _, ?_, ?_⟩
    · rw [hp]
      nofun
    · rw [hp]
      exact hreported

theorem orderly_failFast (hp : c.policy = .failFast) (ht : t.Known) (host : Host) :
    Orderly c given t (c.check host t given).outcome := by
  cases he : c.env given with
  | error e =>
    have hout : (c.check host t given).outcome = .error (.config e) := by
      simp only [check, hp, checkFirst, FailFast.build_of_known ht, he]
    rw [hout]
    exact .unconfigured he
  | ok env =>
    rcases FailFast.eval_check_cases ht env with ⟨τ, hv⟩ | ⟨d, hv⟩
    · rw [failFast_outcome hp ht he host (congrArg Outcome.ofEval hv)]
      exact .typed
    · rw [failFast_outcome hp ht he host (congrArg Outcome.ofEval hv)]
      refine .rejected ⟨List.cons_ne_nil _ _, fun _ => rfl, ?_⟩
      intro d' hd'
      cases List.mem_singleton.mp hd'
      rw [hp]
      exact FailFast.eval_check_reported env d hv

theorem orderly_of_known (ht : t.Known) (host : Host) :
    Orderly c given t (c.check host t given).outcome := by
  cases hp : c.policy with
  | accumulate => exact orderly_accumulate hp ht host
  | failFast => exact orderly_failFast hp ht host

end Checker

/-- Faults come of unknown nodes only. If a term has unknown nodes anywhere, then every walk over it
is the fault of the first of them, and so is its check, under either policy and in every
environment. So is its printed form if its literals can be written out. If it has none, then nothing
of this is a fault of any kind. A check that ends with diagnostics has at least one, and one only if
it stops at the first; their codes are those of the policy, and their spans are spans of nodes of
the term. Of printing, what comes first in the text decides, be it an unknown node or a literal with
too many digits; without both there is a printed form. -/
theorem faults_of_first_hurdle (t : Term) :
    (match t.unknowns with
    | variant :: _ =>
      (∀ (R : Type u) (alg : Layer R → Span → R),
        (t.fold fun layer span => pure (alg layer span) : Except Fault R) =
          .error (.unknownTerm variant)) ∧
      (∀ (R : Type u) (alg : Layer (Child R) → Span → R),
        (t.para fun layer span => pure (alg layer span) : Except Fault R) =
          .error (.unknownTerm variant)) ∧
      (t.Fits → t.render = .error (.fault (.unknownTerm variant))) ∧
      ∀ (c : Checker) (host : Host) (given : Given),
        (c.check host t given).outcome = .error (.fault (.unknownTerm variant))
    | [] =>
      (∀ (R : Type u) (alg : Layer R → Span → R),
        ∃ r, (t.fold fun layer span => pure (alg layer span) : Except Fault R) = .ok r) ∧
      (∀ (R : Type u) (alg : Layer (Child R) → Span → R),
        ∃ r, (t.para fun layer span => pure (alg layer span) : Except Fault R) = .ok r) ∧
      (∀ f, t.render ≠ .error (.fault f)) ∧
      ∀ (c : Checker) (host : Host) (given : Given),
        c.Orderly given t (c.check host t given).outcome) ∧
    match t.hurdles with
    | failure :: _ => t.render = .error failure
    | [] => ∃ text, t.render = .ok text := by
  constructor
  · split
    · rename_i variant rest h
      refine ⟨fun R alg => Term.fold_of_unknowns alg h, fun R alg => Term.para_of_unknowns alg h,
        fun hfits => ?_, fun c host given => Checker.outcome_of_unknowns h host⟩
      rw [Term.render_eq, Term.hurdles_of_fits hfits, h]
      rfl
    · rename_i h
      have ht : t.Known := Term.known_iff_unknowns.mpr h
      refine ⟨fun R alg => ⟨_, Term.fold_of_known (fun _ span => alg (.bool true) span) alg ht⟩,
        fun R alg => ⟨_, Term.para_of_known (fun _ span => alg (.bool true) span) alg ht⟩,
        fun f => Term.render_ne_fault ht f, fun c host given => Checker.orderly_of_known ht host⟩
  · split
    · rename_i failure rest h
      rw [Term.render_eq, h]
      rfl
    · rename_i h
      exact ⟨t.doc.text, by rw [Term.render_eq, h]; rfl⟩

/-- An unknown node behind a literal that can be written out. -/
theorem faults_of_first_hurdle_in_sum :
    let t : Term := .node (.add (.node (.number 7) .unknown) (.unknown "Bogus" .unknown)) .unknown
    t.unknowns = ["Bogus"] ∧ t.Fits ∧ t.render = .error (.fault (.unknownTerm "Bogus")) := by
  intro t
  have hunknowns : t.unknowns = ["Bogus"] := by
    simp [t, Term.unknowns_node, Term.unknowns_unknown, Layer.children]
  have hfits : t.Fits := by
    intro n span hmem
    simp only [t, Term.preorder_node, Term.preorder_unknown, Layer.children, List.flatMap_cons,
      List.flatMap_nil, List.mem_append, List.mem_cons, List.not_mem_nil, Term.node.injEq,
      Layer.number.injEq, reduceCtorEq, false_and, or_false, false_or] at hmem
    have hpow : maxDigits < Nat.pow 10 maxDigits := by
      rw [Nat.pow_eq]
      exact Nat.lt_pow_self (by decide)
    rw [hmem.1]
    exact Nat.lt_trans (by decide) hpow
  have hall := (faults_of_first_hurdle.{0} t).1
  rw [hunknowns] at hall
  exact ⟨hunknowns, hfits, hall.2.2.1 hfits⟩

/-- In front of the unknown node stands a literal of 4301 digits, and it is what stops the printing.
So an unknown node alone does not make printing a fault. -/
theorem literal_stops_before_unknown :
    let t : Term := .node (.add (.node (.number (Nat.pow 10 maxDigits : Nat)) .unknown)
      (.unknown "Bogus" .unknown)) .unknown
    t.unknowns = ["Bogus"] ∧ t.render = .error .tooManyDigits ∧
      ∀ f, t.render ≠ .error (.fault f) := by
  generalize hn : Nat.pow 10 maxDigits = n
  intro t
  have hunknowns : t.unknowns = ["Bogus"] := by
    simp [t, Term.unknowns_node, Term.unknowns_unknown, Layer.children]
  have hlong : ¬ Writable (n : Int) := by
    rw [Writable, hn, Int.natAbs_natCast]
    exact Nat.lt_irrefl n
  have hleft : (Term.node (.number n) .unknown).hurdles = [.tooManyDigits] := by
    rw [Term.hurdles_node, Term.hurdle?, if_neg hlong]
    rfl
  have hrender : t.render = .error .tooManyDigits := by
    rw [Term.render_eq, Term.hurdles_node, Layer.children, List.flatMap_cons, hleft]
    rfl
  refine ⟨hunknowns, hrender, ?_⟩
  intro f hf
  rw [hrender] at hf
  cases hf

end ArrowLang
