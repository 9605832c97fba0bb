import ArrowLang.Checker
import ArrowLang.Proofs.Context
import ArrowLang.Proofs.Evaluation
import ArrowLang.Proofs.Machine
import ArrowLang.Proofs.Walks

/-!
# ArrowLang.Proofs.Typing

The typing rules of the language, and the fail-fast checker as a decision procedure for them.

* `HasType Γ t τ`: the rules derive the type `τ` for `t` in the context `Γ`.
* `FailFast.check`: the check of a term by recursion on the term.
* `eval_check_ok`: the check ends with a type if and only if the rules derive it.

`check_ok_iff_hasType` puts this together with the walk that builds the check and the machine that
runs it.
-/

namespace ArrowLang

/-- The typing rules. A context binds the parameters of a function in turn, so of several with one
name the last is seen. -/
inductive HasType : Context → Term → Ty → Prop where
  | bool {Γ : Context} {value : Bool} {span : Span} :
      HasType Γ (.node (.bool value) span) .boolean
  | number {Γ : Context} {value : Int} {span : Span} :
      HasType Γ (.node (.number value) span) .number
  | add {Γ : Context} {left right : Term} {span : Span} :
      HasType Γ left .number → HasType Γ right .number →
      HasType Γ (.node (.add left right) span) .number
  | ite {Γ : Context} {cond onTrue onFalse : Term} {span : Span} {σ τ : Ty} :
      HasType Γ cond .boolean → HasType Γ onTrue σ → HasType Γ onFalse τ → σ.equal τ = true →
      HasType Γ (.node (.ite cond onTrue onFalse) span) σ
  | var {Γ : Context} {name : String} {span : Span} {τ : Ty} :
      Γ name = some τ → HasType Γ (.node (.var name) span) τ
  | func {Γ : Context} {params : List (Param Ty)} {body : Term} {span : Span} {ret : Ty} :
      HasType (Γ.bindParams params) body ret →
      HasType Γ (.node (.func params body) span) (.func params ret)
  | call {Γ : Context} {callee : Term} {args : List Term} {span : Span} {params : List (Param Ty)}
      {ret : Ty} {τs : List Ty} :
      HasType Γ callee (.func params ret) →
      args.length = τs.length → (∀ x ∈ args.zip τs, HasType Γ x.1 x.2) →
      params.length = τs.length → (∀ x ∈ params.zip τs, x.1.type.equal x.2 = true) →
      HasType Γ (.node (.call callee args) span) ret
  | seq {Γ : Context} {first rest : Term} {span : Span} {σ τ : Ty} :
      HasType Γ first σ → HasType Γ rest τ → HasType Γ (.node (.seq first rest) span) τ
  | const {Γ : Context} {name : String} {init rest : Term} {span : Span} {σ τ : Ty} :
      HasType Γ init σ → HasType (Γ.bind name σ) rest τ →
      HasType Γ (.node (.const name init rest) span) τ

/-- The terms have the types, one by one. -/
def HaveTypes (Γ : Context) (ts : List Term) (τs : List Ty) : Prop :=
  ts.length = τs.length ∧ ∀ x ∈ ts.zip τs, HasType Γ x.1 x.2

/-- The parameters take arguments of these types. -/
def Accept (params : List (Param Ty)) (τs : List Ty) : Prop :=
  params.length = τs.length ∧ ∀ x ∈ params.zip τs, x.1.type.equal x.2 = true

/-! ## Inversion -/

section Inversion

variable {Γ : Context} {span : Span} {τ : Ty}

theorem hasType_bool {value : Bool} :
    HasType Γ (.node (.bool value) span) τ ↔ τ = .boolean := by
  constructor
  · intro h; cases h; rfl
  · rintro rfl; exact .bool

theorem hasType_number {value : Int} :
    HasType Γ (.node (.number value) span) τ ↔ τ = .number := by
  constructor
  · intro h; cases h; rfl
  · rintro rfl; exact .number

theorem hasType_add {left right : Term} :
    HasType Γ (.node (.add left right) span) τ ↔
      HasType Γ left .number ∧ HasType Γ right .number ∧ τ = .number := by
  constructor
  · intro h
    cases h with
    | add hl hr => exact ⟨hl, hr, rfl⟩
  · rintro ⟨hl, hr, rfl⟩
    exact .add hl hr

theorem hasType_ite {cond onTrue onFalse : Term} :
    HasType Γ (.node (.ite cond onTrue onFalse) span) τ ↔
      HasType Γ cond .boolean ∧ HasType Γ onTrue τ ∧
        ∃ υ, HasType Γ onFalse υ ∧ τ.equal υ = true := by
  constructor
  · intro h
    cases h with
    | ite hc ht hf he => exact ⟨hc, ht, _, hf, he⟩
  · rintro ⟨hc, ht, υ, hf, he⟩
    exact .ite hc ht hf he

theorem hasType_var {name : String} :
    HasType Γ (.node (.var name) span) τ ↔ Γ name = some τ := by
  constructor
  · intro h
    cases h with
    | var h => exact h
  · exact .var

theorem hasType_func {params : List (Param Ty)} {body : Term} :
    HasType Γ (.node (.func params body) span) τ ↔
      ∃ ret, HasType (Γ.bindParams params) body ret ∧ τ = .func params ret := by
  constructor
  · intro h
    cases h with
    | func h => exact ⟨_, h, rfl⟩
  · rintro ⟨ret, h, rfl⟩
    exact .func h

theorem hasType_call {callee : Term} {args : List Term} :
    HasType Γ (.node (.call callee args) span) τ ↔
      ∃ params τs, HasType Γ callee (.func params τ) ∧ HaveTypes Γ args τs ∧ Accept params τs := by
  constructor
  · intro h
    cases h with
    | call hc hl ht hp he => exact ⟨_, _, hc, ⟨hl, ht⟩, hp, he⟩
  · rintro ⟨params, τs, hc, ⟨hl, ht⟩, hp, he⟩
    exact .call hc hl ht hp he

theorem hasType_seq {first rest : Term} :
    HasType Γ (.node (.seq first rest) span) τ ↔
      (∃ σ, HasType Γ first σ) ∧ HasType Γ rest τ := by
  constructor
  · intro h
    cases h with
    | seq hf hr => exact ⟨⟨_, hf⟩, hr⟩
  · rintro ⟨⟨σ, hf⟩, hr⟩
    exact .seq hf hr

theorem hasType_const {name : String} {init rest : Term} :
    HasType Γ (.node (.const name init rest) span) τ ↔
      ∃ σ, HasType Γ init σ ∧ HasType (Γ.bind name σ) rest τ := by
  constructor
  · intro h
    cases h with
    | const hi hr => exact ⟨_, hi, hr⟩
  · rintro ⟨σ, hi, hr⟩
    exact .const hi hr

theorem not_hasType_unknown {variant : String} : ¬ HasType Γ (.unknown variant span) τ := by
  intro h
  cases h

end Inversion

/-! ## The rules of the checker -/

namespace FailFast

open ArrowLang.Comp

/-- The check of a term, by recursion on the term. -/
def check : Term → Check := Term.recurse rule fun variant _ => .stray variant

theorem check_node (layer : Layer Term) (span : Span) :
    check (.node layer span) = rule (layer.map fun t => ⟨check t, t⟩) span :=
  Term.recurse_node _ _ layer span

theorem build_of_known {t : Term} (ht : t.Known) : build t = .ok (check t) :=
  Term.para_of_known _ _ ht

variable {env : Env}

theorem eval_sumRule_ok {left right : Span} {σ τ υ : Ty} :
    (sumRule left right σ τ).eval env = .ok υ ↔ σ = .number ∧ τ = .number ∧ υ = .number := by
  cases σ <;> cases τ <;> simp [sumRule, reject, eq_comm]

theorem eval_iteRule_ok {cond whole : Span} {γ σ τ υ : Ty} :
    (iteRule cond whole γ σ τ).eval env = .ok υ ↔ γ = .boolean ∧ σ.equal τ = true ∧ υ = σ := by
  cases γ with
  | boolean =>
    rw [iteRule]
    split
    · simp [*, eq_comm]
    · simp [*, reject]
  | number => simp [iteRule, reject]
  | func params ret => simp [iteRule, reject]

theorem eval_varRule_ok {name : String} {span : Span} {found : Option Ty} {τ : Ty} :
    (varRule name span found).eval env = .ok τ ↔ found = some τ := by
  cases found <;> simp [varRule, reject]

theorem zip_zip_snd (params : List (Param Ty)) {args : List Span} {τs : List Ty}
    (hl : args.length = τs.length) :
    (params.zip (args.zip τs)).map (fun x => (x.1, x.2.2)) = params.zip τs := by
  have hs : (args.zip τs).map Prod.snd = τs := List.map_snd_zip (by omega)
  calc (params.zip (args.zip τs)).map (fun x => (x.1, x.2.2))
      = params.zip ((args.zip τs).map Prod.snd) := by rw [List.zip_map_right]; rfl
    _ = params.zip τs := by rw [hs]

theorem mismatch?_none {params : List (Param Ty)} {args : List Span} {τs : List Ty}
    (hl : args.length = τs.length) :
    mismatch? params args τs = none ↔ ∀ x ∈ params.zip τs, x.1.type.equal x.2 = true := by
  rw [← zip_zip_snd params hl, List.forall_mem_map, mismatch?, Option.map_eq_none_iff,
    List.find?_eq_none]
  simp only [Bool.not_eq_true, Bool.not_eq_false']

theorem eval_callRule_ok {callee whole : Span} {args : List Span} {φ υ : Ty} {τs : List Ty}
    (hl : args.length = τs.length) :
    (callRule callee whole args φ τs).eval env = .ok υ ↔
      ∃ params, φ = .func params υ ∧ Accept params τs := by
  cases φ with
  | boolean => simp [callRule, reject]
  | number => simp [callRule, reject]
  | func params ret =>
    rw [callRule]
    have haccept : (∃ params', Ty.func params ret = .func params' υ ∧ Accept params' τs) ↔
        ret = υ ∧ params.length = τs.length ∧ mismatch? params args τs = none := by
      simp only [Ty.func.injEq, mismatch?_none hl]
      constructor
      · rintro ⟨_, ⟨rfl, h⟩, ha⟩
        exact ⟨h, ha⟩
      · rintro ⟨h, ha⟩
        exact ⟨params, ⟨rfl, h⟩, ha⟩
    rw [haccept]
    split
    · rename_i hp
      cases mismatch? params args τs <;> simp [hp, reject]
    · rename_i hp
      simp [hp, reject]

/-- Answers at once: a rule that has all types it judges enters nothing more. -/
inductive Settled : Check → Prop where
  | pure (τ : Ty) : Settled (.pure τ)
  | reject (code : Code) (span : Span) (detail : Option String) :
      Settled (reject code span detail)

theorem Settled.eval_eq {c : Check} (h : Settled c) (e e' : Env) : c.eval e = c.eval e' := by
  cases h with
  | pure τ => rfl
  | reject code span detail => rfl

theorem sumRule_settled (left right : Span) (σ τ : Ty) : Settled (sumRule left right σ τ) := by
  cases σ with
  | number =>
    cases τ with
    | number => exact .pure _
    | boolean | func => exact .reject ..
  | boolean | func =>
    cases τ with
    | number | boolean | func => exact .reject ..

theorem iteRule_settled (cond whole : Span) (γ σ τ : Ty) :
    Settled (iteRule cond whole γ σ τ) := by
  cases γ with
  | boolean =>
    rw [iteRule]
    split
    · exact .pure _
    · exact .reject ..
  | number | func => exact .reject ..

theorem varRule_settled (name : String) (span : Span) (found : Option Ty) :
    Settled (varRule name span found) := by
  cases found with
  | some τ => exact .pure _
  | none => exact .reject ..

theorem callRule_settled (callee whole : Span) (args : List Span) (φ : Ty) (τs : List Ty) :
    Settled (callRule callee whole args φ τs) := by
  cases φ with
  | func params ret =>
    rw [callRule]
    split
    · cases mismatch? params args τs with
      | some span => exact .reject ..
      | none => exact .pure _
    · exact .reject ..
  | boolean | number => exact .reject ..

theorem eval_args_ok {args : List Term} {τs : List Ty}
    (ih : ∀ arg ∈ args, ∀ τ, (check arg).eval env = .ok τ ↔ HasType env.lookup arg τ) :
    (sequence (args.map fun arg => suspend (check arg))).eval env = .ok τs ↔
      HaveTypes env.lookup args τs := by
  rw [eval_sequence, evalAll_ok, List.length_map, List.zip_map_left, List.forall_mem_map, HaveTypes]
  refine and_congr_right fun _ => forall_congr' fun x => forall_congr' fun hx => ?_
  exact ih x.1 (List.of_mem_zip hx).1 x.2

/-- The check of a term ends with a type if and only if the rules derive that type. -/
theorem eval_check_ok (t : Term) :
    ∀ (env : Env) (τ : Ty), (check t).eval env = .ok τ ↔ HasType env.lookup t τ := by
  induction t using Term.byChildren with
  | unknown variant span =>
    intro env τ
    constructor
    · intro h; cases h
    · intro h; exact absurd h not_hasType_unknown
  | node layer span ih =>
    intro env τ
    rw [check_node]
    cases layer with
    | bool value => simp [Layer.map, rule, hasType_bool, eq_comm]
    | number value => simp [Layer.map, rule, hasType_number, eq_comm]
    | add left right =>
      have ihl := ih left (by simp [Layer.children])
      have ihr := ih right (by simp [Layer.children])
      simp only [Layer.map, rule, eval_bind_ok, eval_suspend, eval_sumRule_ok, hasType_add, ihl,
        ihr]
      constructor
      · rintro ⟨_, hl, _, hr, rfl, rfl, rfl⟩
        exact ⟨hl, hr, rfl⟩
      · rintro ⟨hl, hr, rfl⟩
        exact ⟨_, hl, _, hr, rfl, rfl, rfl⟩
    | ite cond onTrue onFalse =>
      have ihc := ih cond (by simp [Layer.children])
      have iht := ih onTrue (by simp [Layer.children])
      have ihf := ih onFalse (by simp [Layer.children])
      simp only [Layer.map, rule, eval_bind_ok, eval_suspend, eval_iteRule_ok, hasType_ite, ihc,
        iht, ihf]
      constructor
      · rintro ⟨_, hc, _, ht, _, hf, rfl, he, rfl⟩
        exact ⟨hc, ht, _, hf, he⟩
      · rintro ⟨hc, ht, _, hf, he⟩
        exact ⟨_, hc, _, ht, _, hf, rfl, he, rfl⟩
    | var name => simp [Layer.map, rule, eval_bind_ok, eval_varRule_ok, hasType_var]
    | func params body =>
      have ihb := ih body (by simp [Layer.children])
      simp only [Layer.map, rule, Comp.map, eval_bind_ok, eval_within, eval_suspend, eval_pure,
        hasType_func, ihb, Env.lookup_extend, Context.bindParams_eq, paramBindings, Except.ok.injEq]
      exact exists_congr fun _ => and_congr_right fun _ => eq_comm
    | call callee args =>
      have ihc := ih callee (by simp [Layer.children])
      have iha : ∀ arg ∈ args, ∀ υ, (check arg).eval env = .ok υ ↔ HasType env.lookup arg υ := by
        intro arg harg
        exact ih arg (by simp [Layer.children, harg]) env
      simp only [Layer.map, rule, eval_bind_ok, eval_suspend, List.map_map, Function.comp_def,
        eval_args_ok iha, hasType_call, ihc]
      constructor
      · rintro ⟨φ, hc, τs, ha, hr⟩
        rw [eval_callRule_ok (by simpa using ha.1)] at hr
        obtain ⟨params, rfl, hp⟩ := hr
        exact ⟨params, τs, hc, ha, hp⟩
      · rintro ⟨params, τs, hc, ha, hp⟩
        refine ⟨_, hc, τs, ha, ?_⟩
        rw [eval_callRule_ok (by simpa using ha.1)]
        exact ⟨params, rfl, hp⟩
    | seq first rest =>
      have ihf := ih first (by simp [Layer.children])
      have ihr := ih rest (by simp [Layer.children])
      simp only [Layer.map, rule, andThen, eval_bind_ok, eval_suspend, hasType_seq, ihf, ihr,
        exists_and_right]
    | const name init rest =>
      have ihi := ih init (by simp [Layer.children])
      have ihr := ih rest (by simp [Layer.children])
      simp only [Layer.map, rule, eval_bind_ok, eval_within, eval_suspend, hasType_const, ihi, ihr,
        Env.lookup_extend, Context.bindAll]

end FailFast

theorem exists_mem_zip {α β : Type} {as : List α} {bs : List β} (hl : as.length = bs.length) {a : α}
    (ha : a ∈ as) : ∃ b, (a, b) ∈ as.zip bs := by
  have hz : (as.zip bs).map Prod.fst = as := List.map_fst_zip (by omega)
  have hmem : a ∈ (as.zip bs).map Prod.fst := by rw [hz]; exact ha
  obtain ⟨x, hx, rfl⟩ := List.mem_map.mp hmem
  exact ⟨x.2, hx⟩

theorem mem_zip_of_getElem? {α β : Type} {as : List α} {bs : List β} {i : Nat} {a : α} {b : β}
    (ha : as[i]? = some a) (hb : bs[i]? = some b) : (a, b) ∈ as.zip bs := by
  have hz : (as.zip bs)[i]? = some (a, b) := List.getElem?_zip_eq_some.mpr ⟨ha, hb⟩
  exact List.mem_of_getElem? hz

theorem HasType.known {Γ : Context} {t : Term} {τ : Ty} (h : HasType Γ t τ) : t.Known := by
  induction h with
  | bool => simp [Layer.children]
  | number => simp [Layer.children]
  | add _ _ ihl ihr => simp [Layer.children, ihl, ihr]
  | ite _ _ _ _ ihc iht ihf => simp [Layer.children, ihc, iht, ihf]
  | var _ => simp [Layer.children]
  | func _ ih => simp [Layer.children, ih]
  | @call _ _ args _ _ _ τs _ hl _ _ _ ihc iha =>
    have hargs : ∀ arg ∈ args, arg.Known := by
      intro arg harg
      obtain ⟨τ, hx⟩ := exists_mem_zip hl harg
      exact iha (arg, τ) hx
    simpa [Layer.children, ihc] using hargs
  | seq _ _ ihf ihr => simp [Layer.children, ihf, ihr]
  | const _ _ ihi ihr => simp [Layer.children, ihi, ihr]

/-- What a fail-fast check of a known term leaves behind is what the check of the term ends with. -/
theorem Checker.outcome_of_known (interval : Interval) (strategy : String) {t : Term}
    (ht : t.Known) (env : Env) :
    (Checker.check ⟨.failFast, interval, strategy⟩ .direct t (.env env)).outcome =
      match (FailFast.check t).eval env with
      | .ok τ => .ok (.ok τ)
      | .error (.rejected d) => .ok (.error (.single d))
      | .error (.fault f) => .error (.fault f) := by
  have hrun := (FailFast.check t).run_outcome env interval true
  simp only [Checker.check, Checker.checkFirst, FailFast.build_of_known ht, Checker.env, Host.run,
    hrun]
  cases (FailFast.check t).eval env with
  | ok τ => rfl
  | error h =>
    cases h with
    | fault f => rfl
    | rejected d => rfl

/-- The fail-fast checker is sound and complete for the typing rules: for every term, every
environment of either strategy and every type. -/
theorem check_ok_iff_hasType (interval : Interval) (strategy : String) (t : Term) (env : Env)
    (τ : Ty) :
    (Checker.check ⟨.failFast, interval, strategy⟩ .direct t (.env env)).outcome = .ok (.ok τ) ↔
      HasType env.lookup t τ := by
  by_cases ht : t.Known
  · rw [Checker.outcome_of_known interval strategy ht env, ← FailFast.eval_check_ok]
    cases (FailFast.check t).eval env with
    | ok υ => simp
    | error h => cases h <;> simp
  · -- an unknown node is a fault before anything runs, and no rule types it
    obtain ⟨variant, hb⟩ := Term.para_of_not_known FailFast.rule ht
    constructor
    · intro h
      simp [Checker.check, Checker.checkFirst, FailFast.build, hb] at h
    · intro h
      exact absurd h.known ht

end ArrowLang
