import ArrowLang.Proofs.FirstViolation
import ArrowLang.Proofs.FreeVariables
import ArrowLang.Proofs.Schedule

/-!
# ArrowLang.Proofs.ParameterNames

Parameter names inside types never influence checking.

* `Term.Reannotated t t'`: the terms are the same, except that types which annotate parameters may
  differ in the parameter names inside of them.
* `Env.EqualTypes e e'`: the environments bind the same names, to equal types.
* `Verdict.Agree`: both verdicts are types and these are equal, or both are the same diagnostic.
* `FailFast.check_alike_of_reannotated`: the checks of such terms run side by side.

Types that arise on the two sides are the same once their names are erased, and so are the contexts.
-/

namespace ArrowLang

/-- Parameters of the same names and of equal types, in the same order. -/
def SameBinders (params params' : List (Param Ty)) : Prop :=
  params.length = params'.length ∧
    ∀ x ∈ params.zip params', x.1.name = x.2.name ∧ x.1.type.equal x.2.type = true

inductive Term.Reannotated : Term → Term → Prop where
  | bool {value : Bool} {span : Span} :
      Reannotated (.node (.bool value) span) (.node (.bool value) span)
  | number {value : Int} {span : Span} :
      Reannotated (.node (.number value) span) (.node (.number value) span)
  | add {left left' right right' : Term} {span : Span} :
      Reannotated left left' → Reannotated right right' →
      Reannotated (.node (.add left right) span) (.node (.add left' right') span)
  | ite {cond cond' onTrue onTrue' onFalse onFalse' : Term} {span : Span} :
      Reannotated cond cond' → Reannotated onTrue onTrue' → Reannotated onFalse onFalse' →
      Reannotated (.node (.ite cond onTrue onFalse) span) (.node (.ite cond' onTrue' onFalse') span)
  | var {name : String} {span : Span} :
      Reannotated (.node (.var name) span) (.node (.var name) span)
  | func {params params' : List (Param Ty)} {body body' : Term} {span : Span} :
      SameBinders params params' → Reannotated body body' →
      Reannotated (.node (.func params body) span) (.node (.func params' body') span)
  | call {callee callee' : Term} {args args' : List Term} {span : Span} :
      Reannotated callee callee' → args.length = args'.length →
      (∀ x ∈ args.zip args', Reannotated x.1 x.2) →
      Reannotated (.node (.call callee args) span) (.node (.call callee' args') span)
  | seq {first first' rest rest' : Term} {span : Span} :
      Reannotated first first' → Reannotated rest rest' →
      Reannotated (.node (.seq first rest) span) (.node (.seq first' rest') span)
  | const {name : String} {init init' rest rest' : Term} {span : Span} :
      Reannotated init init' → Reannotated rest rest' →
      Reannotated (.node (.const name init rest) span) (.node (.const name init' rest') span)
  | unknown {variant : String} {span : Span} :
      Reannotated (.unknown variant span) (.unknown variant span)

def Env.EqualTypes (e e' : Env) : Prop :=
  ∀ x, Option.Rel (fun σ τ => σ.equal τ = true) (e.lookup x) (e'.lookup x)

inductive Verdict.Agree : Verdict Ty → Verdict Ty → Prop where
  | typed {σ τ : Ty} : σ.equal τ = true → Agree (.ok σ) (.ok τ)
  | rejected {d : Diagnostic} : Agree (.error (.single d)) (.error (.single d))

/-! ## Terms without the names in their annotations -/

namespace Term.Reannotated

theorem span_eq {t t' : Term} (h : t.Reannotated t') : t.span = t'.span := by
  cases h <;> rfl

theorem known {t t' : Term} (h : t.Reannotated t') (ht : t.Known) : t'.Known := by
  induction h with
  | bool | number | var => exact ht
  | unknown => exact ht
  | add _ _ ihl ihr => simp_all [Layer.children]
  | ite _ _ _ ihc iht ihf => simp_all [Layer.children]
  | func _ _ ih => simp_all [Layer.children]
  | @call callee callee' args args' span _ hl _ ihc iha =>
    simp only [Term.known_node, Layer.children, List.forall_mem_cons] at ht ⊢
    refine ⟨ihc ht.1, fun arg' harg' => ?_⟩
    obtain ⟨i, hi, rfl⟩ := List.mem_iff_getElem.mp harg'
    have hx : (args[i], args'[i]) ∈ args.zip args' :=
      mem_zip_of_getElem? (List.getElem?_eq_getElem (by omega)) (List.getElem?_eq_getElem hi)
    exact iha _ hx (ht.2 _ (List.getElem_mem _))
  | seq _ _ ihf ihr => simp_all [Layer.children]
  | const _ _ ihi ihr => simp_all [Layer.children]

end Term.Reannotated

/-! ## Contexts -/

namespace Context

def eraseNames (Γ : Context) : Context := fun x => (Γ x).map Ty.eraseNames

theorem eraseNames_bind (Γ : Context) (name : String) (τ : Ty) :
    (Γ.bind name τ).eraseNames = Γ.eraseNames.bind name τ.eraseNames := by
  funext x
  simp only [eraseNames, bind]
  split <;> rfl

theorem eraseNames_bindAll (Γ : Context) (bindings : Bindings) :
    (Γ.bindAll bindings).eraseNames =
      Γ.eraseNames.bindAll (bindings.map fun b => (b.1, b.2.eraseNames)) := by
  induction bindings generalizing Γ with
  | nil => rfl
  | cons b bindings ih => rw [bindAll, ih, eraseNames_bind]; rfl

end Context

/-- Environments that differ in names inside of types only. -/
def Env.SameErased (e e' : Env) : Prop :=
  Context.eraseNames e.lookup = Context.eraseNames e'.lookup

theorem Env.EqualTypes.sameErased {e e' : Env} (h : e.EqualTypes e') : e.SameErased e' := by
  refine funext fun x => ?_
  have hx := h x
  unfold Context.eraseNames
  generalize e.lookup x = found at hx ⊢
  generalize e'.lookup x = found' at hx ⊢
  cases hx with
  | some hτ => exact congrArg some (Ty.equal_iff.mp hτ)
  | none => rfl

theorem Env.SameErased.extend {e e' : Env} (h : e.SameErased e') {bindings bindings' : Bindings}
    (hb : bindings.map (fun b => (b.1, b.2.eraseNames)) =
      bindings'.map fun b => (b.1, b.2.eraseNames)) :
    (e.extend bindings).SameErased (e'.extend bindings') := by
  unfold SameErased at h ⊢
  rw [lookup_extend, lookup_extend, Context.eraseNames_bindAll, Context.eraseNames_bindAll, h, hb]

theorem SameBinders.erased {params params' : List (Param Ty)} (h : SameBinders params params') :
    (FailFast.paramBindings params).map (fun b => (b.1, b.2.eraseNames)) =
        (FailFast.paramBindings params').map (fun b => (b.1, b.2.eraseNames)) ∧
      params.map Param.eraseNames = params'.map Param.eraseNames := by
  simp only [FailFast.paramBindings, List.map_map, Function.comp_def]
  constructor
  · refine (map_eq_map_iff_zip _ h.1).mpr fun x hx => ?_
    obtain ⟨hname, htype⟩ := h.2 x hx
    rw [hname, Ty.equal_iff.mp htype]
  · refine (map_eq_map_iff_zip _ h.1).mpr fun x hx => ?_
    rw [Param.eraseNames, Ty.equal_iff.mp (h.2 x hx).2, Param.eraseNames]

/-! ## Checks -/

namespace FailFast

/-- The checks run side by side and end with types that differ in names only. -/
abbrev AlikeUpToNames : Check → Check → Prop :=
  Comp.Alike (fun s => s) Env.SameErased fun σ τ => σ.eraseNames = τ.eraseNames

/-- The induction is over the two terms at once, for all environments: below a binder the
environments are extended by types that differ in names only. -/
theorem check_alike_of_reannotated {t t' : Term} (h : t.Reannotated t') :
    AlikeUpToNames (check t) (check t') := by
  induction h with
  | bool => exact .pure rfl
  | number => exact .pure rfl
  | unknown => exact .stray
  | add hl hr ihl ihr =>
    rw [check_node, check_node]
    simp only [Layer.map, rule, Child.span, hl.span_eq, hr.span_eq]
    exact .bind (.suspend ihl) fun σ σ' hσ => .bind (.suspend ihr) fun τ τ' hτ =>
      sumRule_same (v := .upToNames) _ _ hσ hτ
  | ite hc _ _ ihc iht ihf =>
    rw [check_node, check_node]
    simp only [Layer.map, rule, Child.span, hc.span_eq]
    exact .bind (.suspend ihc) fun γ γ' hγ => .bind (.suspend iht) fun σ σ' hσ =>
      .bind (.suspend ihf) fun τ τ' hτ => iteRule_same (v := .upToNames) _ _ hγ hσ hτ
  | @var name span =>
    refine .bind (.asks fun e e' he => ?_) fun found found' hfound =>
      varRule_same (v := .upToNames) span hfound fun _ => rfl
    exact congrFun he name
  | func hparams _ ih =>
    obtain ⟨hbindings, herased⟩ := hparams.erased
    refine .map (.within (fun e e' he => he.extend hbindings) (.suspend ih)) fun ret ret' hret => ?_
    rw [Ty.eraseNames_func, Ty.eraseNames_func, herased, hret]
  | @call callee callee' args args' span hc hl ha ihc iha =>
    rw [check_node, check_node]
    have hspans : args.map Term.span = args'.map Term.span :=
      (map_eq_map_iff_zip _ hl).mpr fun x hx => (ha x hx).span_eq
    have hargs : Comp.Alike (fun s => s) Env.SameErased
        (fun τs τs' => τs.map Ty.eraseNames = τs'.map Ty.eraseNames)
        (.sequence (args.map fun arg => .suspend (check arg)))
        (.sequence (args'.map fun arg => .suspend (check arg))) := by
      refine .sequence_zip (by simpa using hl) ?_
      rw [List.zip_map, List.forall_mem_map]
      exact fun x hx => .suspend (iha x hx)
    simp only [Layer.map, rule, Child.span, hc.span_eq, List.map_map, Function.comp_def]
    rw [hspans]
    refine .bind (.suspend ihc) fun φ φ' hφ => .bind hargs fun τs τs' hτs => ?_
    have hrule := callRule_same (f := fun s => s) (A := Env.SameErased) (v := .upToNames)
      callee'.span span (args'.map Term.span) hφ hτs
    rwa [List.map_id'] at hrule
  | seq _ _ ihf ihr => exact .andThen (.suspend ihf) (.suspend ihr)
  | @const name _ _ _ _ _ _ _ ihi ihr =>
    refine .bind (.suspend ihi) fun τ τ' hτ => .within (fun e e' he => he.extend ?_) (.suspend ihr)
    rw [List.map_singleton, List.map_singleton, hτ]

/-- The run of the check of a known term ends with a type or with one diagnostic. -/
theorem run_outcome_of_known {t : Term} (ht : t.Known) (e : Env) (host : Host)
    (interval : Interval) (observed : Bool) :
    (∃ τ, (host.run interval observed (check t) e).1.outcome = .ok (.ok τ)) ∨
      ∃ d, (host.run interval observed (check t) e).1.outcome = .ok (.error (.single d)) := by
  rw [host.run_eq_visits]
  rcases eval_check_cases ht e with ⟨τ, hv⟩ | ⟨d, hv⟩
  · exact .inl ⟨τ, congrArg Outcome.ofEval hv⟩
  · exact .inr ⟨d, congrArg Outcome.ofEval hv⟩

/-- Checks that are alike up to names come to verdicts that agree. -/
theorem agree_of_alike {t t' : Term} (ht : t.Known) {A : Env → Env → Prop}
    (h : Comp.Alike (fun s => s) A (fun σ τ => σ.eraseNames = τ.eraseNames) (check t) (check t'))
    {e e' : Env} (he : A e e') (host : Host) (interval : Interval) (observed : Bool) :
    ∃ v v', (host.run interval observed (check t) e).1.outcome = .ok v ∧
      (host.run interval observed (check t') e').1.outcome = .ok v' ∧ Verdict.Agree v v' := by
  obtain ⟨⟨houtcome, _, _⟩, _⟩ := h.hostRun he host interval observed
  have hsingle := run_outcome_of_known ht e host interval observed
  generalize (host.run interval observed (check t) e).1.outcome = o at houtcome hsingle ⊢
  generalize (host.run interval observed (check t') e').1.outcome = o' at houtcome ⊢
  cases houtcome with
  | value hτ => exact ⟨_, _, rfl, rfl, .typed (Ty.equal_iff.mpr hτ)⟩
  | rejected =>
    rcases hsingle with ⟨τ, h⟩ | ⟨d, h⟩
    · cases h
    · cases h
      exact ⟨_, _, rfl, rfl, .rejected⟩
  | fault =>
    rcases hsingle with ⟨τ, h⟩ | ⟨d, h⟩ <;> cases h

theorem runs_agree {t t' : Term} (ht : t.Known) (hterm : t.Reannotated t') {e e' : Env}
    (henv : e.EqualTypes e') (host : Host) (interval : Interval) (observed : Bool) :
    ∃ v v', (host.run interval observed (check t) e).1.outcome = .ok v ∧
      (host.run interval observed (check t') e').1.outcome = .ok v' ∧ Verdict.Agree v v' :=
  agree_of_alike ht (check_alike_of_reannotated hterm) henv.sameErased host interval observed

end FailFast

/-- Parameter names inside of types never influence checking. Take two known terms that differ in
such names only, and two environments that bind the same names to equal types. Then the runs of
their checks end with equal types, or with the same diagnostic, and have the same counters, under
either host. So it is with the checks of two checkers that are given these environments, and they
remember the same counters. -/
theorem check_ignores_names_in_types {t t' : Term} (ht : t.Known) (hterm : t.Reannotated t')
    {e e' : Env} (henv : e.EqualTypes e') :
    (∃ comp comp', FailFast.build t = .ok comp ∧ FailFast.build t' = .ok comp' ∧
      ∀ (host : Host) (interval : Interval) (observed : Bool),
        (∃ v v', (host.run interval observed comp e).1.outcome = .ok v ∧
          (host.run interval observed comp' e').1.outcome = .ok v' ∧ Verdict.Agree v v') ∧
        (host.run interval observed comp e).1.stats =
          (host.run interval observed comp' e').1.stats) ∧
    ∀ (interval : Interval) (s s' : String) (given given' : Given),
      Checker.env ⟨.failFast, interval, s⟩ given = .ok e →
      Checker.env ⟨.failFast, interval, s'⟩ given' = .ok e' →
      ∀ host, let report := Checker.check ⟨.failFast, interval, s⟩ host t given
        let report' := Checker.check ⟨.failFast, interval, s'⟩ host t' given'
        (∃ v v', report.outcome = .ok v ∧ report'.outcome = .ok v' ∧ Verdict.Agree v v') ∧
          report.lastStats = report'.lastStats ∧ report.hops = report'.hops := by
  have hbuild := FailFast.build_of_known ht
  have hbuild' := FailFast.build_of_known (hterm.known ht)
  have halike := FailFast.check_alike_of_reannotated hterm
  constructor
  · refine ⟨_, _, hbuild, hbuild', fun host interval observed => ?_⟩
    exact ⟨FailFast.runs_agree ht hterm henv host interval observed,
      (halike.hostRun henv.sameErased host interval observed).1.stats⟩
  · intro interval s s' given given' he he' host report report'
    have hreport : report = .ofRun _ _ := Checker.checkFirst_eq_ofRun host hbuild he
    have hreport' : report' = .ofRun _ _ := Checker.checkFirst_eq_ofRun host hbuild' he'
    obtain ⟨v, v', hv, hv', hagree⟩ := FailFast.runs_agree ht hterm henv host interval true
    obtain ⟨⟨_, hstats, hseen⟩, hhops⟩ := halike.hostRun henv.sameErased host interval true
    obtain ⟨ho, hl, hh⟩ := CheckReport.ofRun_of_ok hv
    obtain ⟨ho', hl', hh'⟩ := CheckReport.ofRun_of_ok hv'
    rw [hreport, hreport', ho, ho', hl, hl', hh, hh', hstats, hseen, hhops]
    exact ⟨⟨v, v', rfl, rfl, hagree⟩, rfl, rfl⟩

/-- `const h = g; (k: (a: number) => boolean) => h`, with a name for `a`. -/
def Term.withCallback (a : String) : Term :=
  .node (.const "h" (.node (.var "g") .unknown)
    (.node (.func [⟨"k", .func [⟨a, .number⟩] .boolean⟩] (.node (.var "h") .unknown)) .unknown))
    .unknown

/-- The names differ in the annotation and in the environment, and so they do in the result. -/
theorem check_withCallback_agree :
    let g (x : String) : Ty := .func [⟨x, .number⟩] .number
    let e (x : String) : Env := .ofBindings .copy [("g", g x)]
    let τ (a x : String) : Ty := .func [⟨"k", .func [⟨a, .number⟩] .boolean⟩] (g x)
    let check (a x : String) : CheckReport :=
      Checker.check ⟨.failFast, .one, "chain"⟩ .direct (.withCallback a) (.env (e x))
    (Term.withCallback "a").Known ∧ (Term.withCallback "a").Reannotated (.withCallback "b") ∧
      (e "x").EqualTypes (e "y") ∧
      (check "a" "x").outcome = .ok (.ok (τ "a" "x")) ∧
      (∃ v v', (check "a" "x").outcome = .ok v ∧ (check "b" "y").outcome = .ok v' ∧
        Verdict.Agree v v') ∧
      (check "a" "x").lastStats = (check "b" "y").lastStats := by
  intro g e τ check
  have hknown : (Term.withCallback "a").Known := by simp [Term.withCallback, Layer.children]
  have hnames (x y : String) (σ : Ty) :
      (Ty.func [⟨x, .number⟩] σ).equal (.func [⟨y, .number⟩] σ) = true := Ty.equal_iff.mpr rfl
  have hterm : (Term.withCallback "a").Reannotated (.withCallback "b") :=
    .const .var (.func ⟨rfl, by simp [hnames]⟩ .var)
  have hlookup (x n : String) : (e x).lookup n = if n = "g" then some (g x) else none := by
    simp only [e, Env.ofBindings, Env.lookup_extend, Context.bindAll, Context.bind]
    rfl
  have henv : (e "x").EqualTypes (e "y") := by
    intro n
    rw [hlookup, hlookup]
    split
    · exact .some (hnames "x" "y" .number)
    · exact .none
  obtain ⟨hagree, hstats, _⟩ :=
    (check_ignores_names_in_types hknown hterm henv).2 .one "chain" "chain" (.env (e "x"))
      (.env (e "y")) rfl rfl .direct
  refine ⟨hknown, hterm, henv, ?_, hagree, hstats⟩
  simp only [check, Checker.outcome_of_known _ _ hknown]
  rfl

end ArrowLang
