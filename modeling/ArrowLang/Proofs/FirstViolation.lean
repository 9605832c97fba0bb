import ArrowLang.Proofs.Occurrence

/-!
# ArrowLang.Proofs.FirstViolation

The fail-fast checker reports the first violation in evaluation order.

* `Violation Γ t d`: the parts of `t` have types, but these break the rule for `t` itself, and `d`
  is the diagnostic that tells of it.
* `FirstViolation Γ t p d`: in post-order, `p` is the first place of `t` without a type, and what
  stands there breaks its own rule.

`eval_check_error` says how the check of a single node fails: at its first child that fails, or by
its own rule if none does. All else follows by induction over the term.
-/

namespace ArrowLang

/-- Each rule with the order of its tests and the span that it complains about. -/
inductive Violation (Γ : Context) : Term → Diagnostic → Prop where
  | left {left right : Term} {span : Span} {σ τ : Ty} :
      HasType Γ left σ → HasType Γ right τ → σ ≠ .number →
      Violation Γ (.node (.add left right) span) (.ofCode .operandNotNumber left.span)
  | right {left right : Term} {span : Span} {τ : Ty} :
      HasType Γ left .number → HasType Γ right τ → τ ≠ .number →
      Violation Γ (.node (.add left right) span) (.ofCode .operandNotNumber right.span)
  | condition {cond onTrue onFalse : Term} {span : Span} {γ σ τ : Ty} :
      HasType Γ cond γ → HasType Γ onTrue σ → HasType Γ onFalse τ → γ ≠ .boolean →
      Violation Γ (.node (.ite cond onTrue onFalse) span) (.ofCode .conditionNotBoolean cond.span)
  | branches {cond onTrue onFalse : Term} {span : Span} {σ τ : Ty} :
      HasType Γ cond .boolean → HasType Γ onTrue σ → HasType Γ onFalse τ → σ.equal τ = false →
      Violation Γ (.node (.ite cond onTrue onFalse) span) (.ofCode .branchesDiffer span)
  | var {name : String} {span : Span} :
      Γ name = none →
      Violation Γ (.node (.var name) span) (.ofCode .unknownVariable span (some name))
  | callee {callee : Term} {args : List Term} {span : Span} {φ : Ty} {τs : List Ty} :
      HasType Γ callee φ → HaveTypes Γ args τs → (∀ params ret, φ ≠ .func params ret) →
      Violation Γ (.node (.call callee args) span) (.ofCode .functionExpected callee.span)
  | count {callee : Term} {args : List Term} {span : Span} {params : List (Param Ty)} {ret : Ty}
      {τs : List Ty} :
      HasType Γ callee (.func params ret) → HaveTypes Γ args τs → params.length ≠ args.length →
      Violation Γ (.node (.call callee args) span) (.ofCode .argumentCount span)
  | argument {callee : Term} {args : List Term} {span : Span} {params : List (Param Ty)} {ret : Ty}
      {τs : List Ty} {i : Nat} {p : Param Ty} {arg : Term} {τ : Ty} :
      HasType Γ callee (.func params ret) → HaveTypes Γ args τs → params.length = args.length →
      (∀ j q υ, j < i → params[j]? = some q → τs[j]? = some υ → q.type.equal υ = true) →
      params[i]? = some p → args[i]? = some arg → τs[i]? = some τ → p.type.equal τ = false →
      Violation Γ (.node (.call callee args) span) (.ofCode .argumentType arg.span)

def FirstViolation (Γ : Context) (t : Term) (p : Path) (d : Diagnostic) : Prop :=
  ∃ before after, t.postorder = before ++ p :: after ∧ (∀ q ∈ before, TypedAt Γ t q) ∧
    ∃ Δ u, Occurs Γ t p Δ u ∧ Violation Δ u d

/-! ## At most one first violation -/

theorem HaveTypes.unique {Γ : Context} {ts : List Term} {σs τs : List Ty} (hσ : HaveTypes Γ ts σs)
    (hτ : HaveTypes Γ ts τs) : σs = τs := by
  obtain ⟨hl, hσ⟩ := hσ
  obtain ⟨hl', hτ⟩ := hτ
  apply List.ext_getElem (by omega)
  intro i h₁ h₂
  have ht : ts[i]? = some ts[i] := List.getElem?_eq_getElem (by omega)
  have hσi := hσ _ (mem_zip_of_getElem? ht (List.getElem?_eq_getElem h₁))
  have hτi := hτ _ (mem_zip_of_getElem? ht (List.getElem?_eq_getElem h₂))
  exact hσi.unique hτi

theorem Violation.not_hasType {Γ : Context} {t : Term} {d : Diagnostic} {υ : Ty}
    (hv : Violation Γ t d) : ¬ HasType Γ t υ := by
  intro h
  cases hv with
  | left hl _ hne => exact hne (hl.unique (hasType_add.mp h).1)
  | right _ hr hne => exact hne (hr.unique (hasType_add.mp h).2.1)
  | condition hc _ _ hne => exact hne (hc.unique (hasType_ite.mp h).1)
  | branches _ ht hf hne =>
    obtain ⟨_, ht', τ', hf', he⟩ := hasType_ite.mp h
    rw [ht.unique ht', hf.unique hf', he] at hne
    cases hne
  | var hn =>
    rw [hasType_var, hn] at h
    cases h
  | callee hc _ hne =>
    obtain ⟨params, τs, hc', _⟩ := hasType_call.mp h
    exact hne _ _ (hc.unique hc')
  | count hc ha hne =>
    obtain ⟨params, τs, hc', ha', hp⟩ := hasType_call.mp h
    cases hc.unique hc'
    exact hne (by rw [hp.1, ha'.1])
  | argument hc ha _ _ hp _ hτ hne =>
    obtain ⟨params, τs, hc', ha', hp'⟩ := hasType_call.mp h
    cases hc.unique hc'
    cases ha.unique ha'
    rw [hp'.2 _ (mem_zip_of_getElem? hp hτ)] at hne
    cases hne

theorem Violation.unique {Γ : Context} {t : Term} {d d' : Diagnostic} (h : Violation Γ t d)
    (h' : Violation Γ t d') : d = d' := by
  cases h with
  | left hl _ hne =>
    cases h' with
    | left _ _ _ => rfl
    | right hl' _ _ => exact absurd (hl.unique hl') hne
  | right hl _ _ =>
    cases h' with
    | left hl' _ hne => exact absurd (hl'.unique hl) hne
    | right _ _ _ => rfl
  | condition hc _ _ hne =>
    cases h' with
    | condition _ _ _ _ => rfl
    | branches hc' _ _ _ => exact absurd (hc.unique hc') hne
  | branches hc _ _ _ =>
    cases h' with
    | condition hc' _ _ hne => exact absurd (hc'.unique hc) hne
    | branches _ _ _ _ => rfl
  | var _ => cases h'; rfl
  | callee hc _ hne =>
    cases h' with
    | callee _ _ _ => rfl
    | count hc' _ _ => exact absurd (hc.unique hc') (hne _ _)
    | argument hc' _ _ _ _ _ _ _ => exact absurd (hc.unique hc') (hne _ _)
  | count hc _ hne =>
    cases h' with
    | callee hc' _ hne' => exact absurd (hc'.unique hc) (hne' _ _)
    | count _ _ _ => rfl
    | argument hc' _ hl _ _ _ _ _ => cases hc.unique hc'; exact absurd hl hne
  | @argument _ _ _ _ _ _ i p _ τ hc ha hl hb hp harg hτ hne =>
    cases h' with
    | callee hc' _ hne' => exact absurd (hc'.unique hc) (hne' _ _)
    | count hc' _ hne' => cases hc.unique hc'; exact absurd hl hne'
    | @argument _ _ _ _ _ _ i' p' _ τ' hc' ha' _ hb' hp' harg' hτ' hne' =>
      cases hc.unique hc'
      cases ha.unique ha'
      -- of two arguments that are each the first to differ neither stands before the other
      have hi : i = i' := by
        rcases Nat.lt_trichotomy i i' with hlt | heq | hlt
        · rw [hb' i p τ hlt hp hτ] at hne; cases hne
        · exact heq
        · rw [hb i' p' τ' hlt hp' hτ'] at hne'; cases hne'
      subst hi
      cases harg.symm.trans harg'
      rfl

/-- A place with a type is no place of a violation. -/
theorem TypedAt.not_violation {Γ Δ : Context} {t u : Term} {p : Path} {d : Diagnostic}
    (h : TypedAt Γ t p) (ho : Occurs Γ t p Δ u) : ¬ Violation Δ u d := by
  obtain ⟨Δ', u', τ, ho', hτ⟩ := h
  obtain ⟨rfl, rfl⟩ := ho.unique ho'
  intro hv
  exact hv.not_hasType hτ

theorem FirstViolation.not_hasType {Γ : Context} {t : Term} {p : Path} {d : Diagnostic} {τ : Ty}
    (h : FirstViolation Γ t p d) : ¬ HasType Γ t τ := by
  obtain ⟨before, after, hp, _, Δ, u, ho, hv⟩ := h
  intro hτ
  exact (hτ.typedAt p (by simp [hp])).not_violation ho hv

theorem FirstViolation.place_unique {Γ : Context} {t : Term} {p p' : Path} {d d' : Diagnostic}
    (h : FirstViolation Γ t p d) (h' : FirstViolation Γ t p' d') : p = p' := by
  obtain ⟨before, after, hp, hb, Δ, u, ho, hv⟩ := h
  obtain ⟨before', after', hp', hb', Δ', u', ho', hv'⟩ := h'
  rw [hp] at hp'
  -- whichever of the two places comes later has the other one, a violation, in front of it
  rcases List.append_eq_append_iff.mp hp' with ⟨mid, hmid, hrest⟩ | ⟨mid, hmid, hrest⟩
  · cases mid with
    | nil => exact (List.cons.inj hrest).1
    | cons q mid =>
      cases (List.cons.inj hrest).1
      exact absurd hv ((hb' p (by simp [hmid])).not_violation ho)
  · cases mid with
    | nil => exact (List.cons.inj hrest).1.symm
    | cons q mid =>
      cases (List.cons.inj hrest).1
      exact absurd hv' ((hb p' (by simp [hmid])).not_violation ho')

theorem FirstViolation.unique {Γ : Context} {t : Term} {p p' : Path} {d d' : Diagnostic}
    (h : FirstViolation Γ t p d) (h' : FirstViolation Γ t p' d') : d = d' := by
  cases h.place_unique h'
  obtain ⟨_, _, _, _, Δ, u, ho, hv⟩ := h
  obtain ⟨_, _, _, _, Δ', u', ho', hv'⟩ := h'
  obtain ⟨rfl, rfl⟩ := ho.unique ho'
  exact hv.unique hv'

/-! ## How a check fails -/

/-- The first `n` children of the node have types in their scopes. -/
def TypedBefore (Γ : Context) (layer : Layer Term) (n : Nat) : Prop :=
  ∀ (j : Nat) (v : Term), j < n → layer.children[j]? = some v →
    ∃ Δ τ, ChildScope Γ layer j Δ ∧ HasType Δ v τ

theorem TypedBefore.zero {Γ : Context} {layer : Layer Term} : TypedBefore Γ layer 0 := by
  intro j v hj
  omega

theorem TypedBefore.succ {Γ Δ : Context} {layer : Layer Term} {n : Nat} {u : Term} {τ : Ty}
    (h : TypedBefore Γ layer n) (hu : layer.children[n]? = some u) (hs : ChildScope Γ layer n Δ)
    (hτ : HasType Δ u τ) : TypedBefore Γ layer (n + 1) := by
  intro j v hj hv
  by_cases hjn : j = n
  · subst hjn
    cases hu.symm.trans hv
    exact ⟨Δ, τ, hs, hτ⟩
  · exact h j v (by omega) hv

namespace FailFast

open ArrowLang.Comp

variable {env : Env} {Γ : Context} {span : Span} {h : Halt}

theorem violation_of_sumRule {left right : Term} {σ τ : Ty} (hl : HasType Γ left σ)
    (hr : HasType Γ right τ) (he : (sumRule left.span right.span σ τ).eval env = .error h) :
    ∃ d, h = .rejected d ∧ Violation Γ (.node (.add left right) span) d := by
  by_cases hσ : σ = .number
  · subst hσ
    by_cases hτ : τ = .number
    · subst hτ
      cases he
    · refine ⟨_, ?_, .right hl hr hτ⟩
      cases τ with
      | number => exact absurd rfl hτ
      | boolean => cases he; rfl
      | func params ret => cases he; rfl
  · refine ⟨_, ?_, .left hl hr hσ⟩
    cases σ with
    | number => exact absurd rfl hσ
    | boolean => cases τ <;> cases he <;> rfl
    | func params ret => cases τ <;> cases he <;> rfl

theorem violation_of_iteRule {cond onTrue onFalse : Term} {γ σ τ : Ty} (hc : HasType Γ cond γ)
    (ht : HasType Γ onTrue σ) (hf : HasType Γ onFalse τ)
    (he : (iteRule cond.span span γ σ τ).eval env = .error h) :
    ∃ d, h = .rejected d ∧ Violation Γ (.node (.ite cond onTrue onFalse) span) d := by
  by_cases hγ : γ = .boolean
  · subst hγ
    rw [iteRule] at he
    split at he
    · cases he
    · rename_i hne
      cases he
      exact ⟨_, rfl, .branches hc ht hf (by simpa using hne)⟩
  · refine ⟨_, ?_, .condition hc ht hf hγ⟩
    cases γ with
    | boolean => exact absurd rfl hγ
    | number => cases he; rfl
    | func params ret => cases he; rfl

/-- The argument found is the first whose type is not that of its parameter. -/
theorem mismatch?_some {params : List (Param Ty)} {args : List Span} {τs : List Ty} {found : Span}
    (hm : mismatch? params args τs = some found) :
    ∃ (i : Nat) (p : Param Ty) (τ : Ty), params[i]? = some p ∧ args[i]? = some found ∧
      τs[i]? = some τ ∧ p.type.equal τ = false ∧
      ∀ (j : Nat) (q : Param Ty) (υ : Ty), j < i → params[j]? = some q → τs[j]? = some υ →
        q.type.equal υ = true := by
  rw [mismatch?, Option.map_eq_some_iff] at hm
  obtain ⟨⟨p, sp, τ⟩, hfind, rfl⟩ := hm
  obtain ⟨hne, i, hi, hx, hbefore⟩ := List.find?_eq_some_iff_getElem.mp hfind
  have hget : (params.zip (args.zip τs))[i]? = some (p, sp, τ) := by
    rw [List.getElem?_eq_getElem hi, hx]
  rw [List.getElem?_zip_eq_some, List.getElem?_zip_eq_some] at hget
  obtain ⟨hp, harg, hτ⟩ := hget
  refine ⟨i, p, τ, hp, harg, hτ, by simpa using hne, ?_⟩
  intro j q υ hj hq hυ
  have heq := hbefore j hj
  simp only [List.getElem_zip, Bool.not_not] at heq
  obtain ⟨_, rfl⟩ := List.getElem?_eq_some_iff.mp hq
  obtain ⟨_, rfl⟩ := List.getElem?_eq_some_iff.mp hυ
  exact heq

theorem violation_of_callRule {callee : Term} {args : List Term} {φ : Ty} {τs : List Ty}
    (hc : HasType Γ callee φ) (ha : HaveTypes Γ args τs)
    (he : (callRule callee.span span (args.map Term.span) φ τs).eval env = .error h) :
    ∃ d, h = .rejected d ∧ Violation Γ (.node (.call callee args) span) d := by
  cases φ with
  | boolean => cases he; exact ⟨_, rfl, .callee hc ha nofun⟩
  | number => cases he; exact ⟨_, rfl, .callee hc ha nofun⟩
  | func params ret =>
    rw [callRule] at he
    split at he
    · rename_i hl
      split at he
      · rename_i found hm
        cases he
        obtain ⟨i, p, τ, hp, harg, hτ, hne, hb⟩ := mismatch?_some hm
        rw [List.getElem?_map, Option.map_eq_some_iff] at harg
        obtain ⟨arg, harg, rfl⟩ := harg
        exact ⟨_, rfl, .argument hc ha (by rw [hl, ha.1]) hb hp harg hτ hne⟩
      · cases he
    · rename_i hl
      cases he
      exact ⟨_, rfl, .count hc ha (by rw [ha.1]; exact hl)⟩

/-- A child fails with `h`, and those in front of it have types. -/
def ChildFails (env : Env) (layer : Layer Term) (h : Halt) : Prop :=
  ∃ (i : Nat) (u : Term) (env' : Env), layer.children[i]? = some u ∧
    ChildScope env.lookup layer i env'.lookup ∧ TypedBefore env.lookup layer i ∧
    (check u).eval env' = .error h

theorem eval_args_error {args : List Term}
    (he : (sequence (args.map fun arg => suspend (check arg))).eval env = .error h) :
    ∃ (i : Nat) (arg : Term), args[i]? = some arg ∧
      (∀ (j : Nat) (v : Term), j < i → args[j]? = some v → ∃ τ, HasType env.lookup v τ) ∧
      (check arg).eval env = .error h := by
  rw [eval_sequence] at he
  obtain ⟨i, c, hi, hb, hc⟩ := evalAll_error he
  rw [List.getElem?_map, Option.map_eq_some_iff] at hi
  obtain ⟨arg, harg, rfl⟩ := hi
  refine ⟨i, arg, harg, ?_, hc⟩
  intro j v hj hv
  obtain ⟨τ, hτ⟩ := hb j (suspend (check v)) hj (by rw [List.getElem?_map, hv]; rfl)
  exact ⟨τ, (eval_check_ok v env τ).mp hτ⟩

/-- The check of a node fails at the first child that fails, and by its own rule if none does. -/
theorem eval_check_error {layer : Layer Term}
    (he : (check (.node layer span)).eval env = .error h) :
    ChildFails env layer h ∨
      ∃ d, h = .rejected d ∧ Violation env.lookup (.node layer span) d := by
  rw [check_node] at he
  cases layer with
  | bool value => cases he
  | number value => cases he
  | add left right =>
    simp only [Layer.map, rule, eval_bind_error, eval_suspend, eval_check_ok] at he
    rcases he with hl | ⟨σ, hl, hr | ⟨τ, hr, he⟩⟩
    · exact .inl ⟨0, left, env, rfl, rfl, .zero, hl⟩
    · exact .inl ⟨1, right, env, rfl, rfl, .succ .zero rfl rfl hl, hr⟩
    · exact .inr (violation_of_sumRule hl hr he)
  | ite cond onTrue onFalse =>
    simp only [Layer.map, rule, eval_bind_error, eval_suspend, eval_check_ok] at he
    rcases he with hc | ⟨γ, hc, ht | ⟨σ, ht, hf | ⟨τ, hf, he⟩⟩⟩
    · exact .inl ⟨0, cond, env, rfl, rfl, .zero, hc⟩
    · exact .inl ⟨1, onTrue, env, rfl, rfl, .succ .zero rfl rfl hc, ht⟩
    · exact .inl ⟨2, onFalse, env, rfl, rfl, .succ (.succ .zero rfl rfl hc) rfl rfl ht, hf⟩
    · exact .inr (violation_of_iteRule hc ht hf he)
  | var name =>
    simp only [Layer.map, rule, eval_bind_error, eval_asks] at he
    rcases he with he | ⟨found, hf, he⟩
    · cases he
    · cases hf
      cases hn : env.lookup name with
      | some τ => rw [hn] at he; cases he
      | none =>
        rw [hn] at he
        cases he
        exact .inr ⟨_, rfl, .var hn⟩
  | func params body =>
    simp only [Layer.map, rule, Comp.map, eval_bind_error, eval_within, eval_suspend] at he
    rcases he with hb | ⟨ret, _, he⟩
    · refine .inl ⟨0, body, _, rfl, ?_, .zero, hb⟩
      rw [Env.lookup_extend, paramBindings, ← Context.bindParams_eq]
      rfl
    · cases he
  | call callee args =>
    simp only [Layer.map, rule, eval_bind_error, eval_suspend, List.map_map, Function.comp_def,
      eval_check_ok] at he
    rcases he with hc | ⟨φ, hc, ha | ⟨τs, ha, he⟩⟩
    · exact .inl ⟨0, callee, env, rfl, rfl, .zero, hc⟩
    · obtain ⟨i, arg, hi, hb, harg⟩ := eval_args_error ha
      refine .inl ⟨i + 1, arg, env, hi, rfl, ?_, harg⟩
      intro j v hj hv
      rcases j with _ | j
      · cases hv
        exact ⟨_, φ, rfl, hc⟩
      · obtain ⟨τ, hτ⟩ := hb j v (by omega) hv
        exact ⟨_, τ, rfl, hτ⟩
    · rw [eval_args_ok fun arg _ => eval_check_ok arg env] at ha
      exact .inr (violation_of_callRule hc ha he)
  | seq first rest =>
    simp only [Layer.map, rule, andThen, eval_bind_error, eval_suspend, eval_check_ok] at he
    rcases he with hf | ⟨σ, hf, hr⟩
    · exact .inl ⟨0, first, env, rfl, rfl, .zero, hf⟩
    · exact .inl ⟨1, rest, env, rfl, rfl, .succ .zero rfl rfl hf, hr⟩
  | const name init rest =>
    simp only [Layer.map, rule, eval_bind_error, eval_within, eval_suspend, eval_check_ok] at he
    rcases he with hi | ⟨σ, hi, hr⟩
    · exact .inl ⟨0, init, env, rfl, rfl, .zero, hi⟩
    · exact .inl ⟨1, rest, _, rfl, ⟨σ, hi, Env.lookup_extend _ _⟩, .succ .zero rfl rfl hi, hr⟩

/-- The check of a known term is never a fault. -/
theorem eval_check_ne_fault {t : Term} (ht : t.Known) :
    ∀ (env : Env) (f : Fault), (check t).eval env ≠ .error (.fault f) := by
  induction t using Term.byChildren with
  | unknown variant span => exact absurd ht Term.not_known_unknown
  | node layer span ih =>
    intro env f he
    rw [Term.known_node] at ht
    rcases eval_check_error he with ⟨i, u, env', hu, _, _, hf⟩ | ⟨d, hd, _⟩
    · have hmem := List.mem_of_getElem? hu
      exact ih u hmem (ht u hmem) env' f hf
    · cases hd

/-- The check of a known term ends with a type or with one diagnostic. -/
theorem eval_check_cases {t : Term} (ht : t.Known) (env : Env) :
    (∃ τ, (check t).eval env = .ok τ) ∨ ∃ d, (check t).eval env = .error (.rejected d) := by
  cases hv : (check t).eval env with
  | ok τ => exact .inl ⟨τ, rfl⟩
  | error h =>
    cases h with
    | fault f => exact absurd hv (eval_check_ne_fault ht env f)
    | rejected d => exact .inr ⟨d, rfl⟩

end FailFast

/-- Children that have types have types at all their places. -/
theorem typedAt_below {Γ : Context} {layer : Layer Term} {span : Span} {n : Nat}
    (hb : TypedBefore Γ layer n) :
    ∀ p ∈ Path.below 0 ((layer.children.take n).map Term.postorder),
      TypedAt Γ (.node layer span) p := by
  intro p hp
  obtain ⟨j, paths, q, hj, hq, rfl⟩ := Path.mem_below.mp hp
  rw [List.getElem?_map, Option.map_eq_some_iff] at hj
  obtain ⟨v, hv, rfl⟩ := hj
  rw [List.getElem?_take] at hv
  split at hv
  · rename_i hjn
    obtain ⟨Δ, τ, hs, hτ⟩ := hb j v hjn hv
    rw [Nat.zero_add]
    exact .of_child hv hs (hτ.typedAt q hq)
  · cases hv

/-- The first violation in a child is the first in the node if the children in front of it have
types. -/
theorem FirstViolation.of_child {Γ Δ : Context} {layer : Layer Term} {span : Span} {i : Nat}
    {u : Term} {p : Path} {d : Diagnostic} (hu : layer.children[i]? = some u)
    (hs : ChildScope Γ layer i Δ) (hb : TypedBefore Γ layer i)
    (h : FirstViolation Δ u p d) : FirstViolation Γ (.node layer span) (i :: p) d := by
  obtain ⟨before, after, hp, hbefore, Θ, v, ho, hv⟩ := h
  refine ⟨Path.below 0 ((layer.children.take i).map Term.postorder) ++ before.map (i :: ·),
    after.map (i :: ·) ++ Path.below (i + 1) ((layer.children.drop (i + 1)).map Term.postorder) ++
      [[]], ?_, ?_, Θ, v, .child hu hs ho, hv⟩
  · rw [Term.postorder_node, Path.below_split _ hu, hp]
    simp only [List.map_append, List.map_cons, List.append_assoc, List.cons_append]
  · intro q hq
    rcases List.mem_append.mp hq with hq | hq
    · exact typedAt_below hb q hq
    · obtain ⟨r, hr, rfl⟩ := List.mem_map.mp hq
      exact .of_child hu hs (hbefore r hr)

theorem HaveTypes.exists_type {Γ : Context} {ts : List Term} {τs : List Ty}
    (h : HaveTypes Γ ts τs) {i : Nat} {t : Term} (ht : ts[i]? = some t) : ∃ τ, HasType Γ t τ := by
  obtain ⟨τ, hx⟩ := exists_mem_zip h.1 (List.mem_of_getElem? ht)
  exact ⟨τ, h.2 _ hx⟩

/-- A rule is broken only by types that the children do have. -/
theorem Violation.child {Γ : Context} {layer : Layer Term} {span : Span} {d : Diagnostic} {i : Nat}
    {u : Term} (h : Violation Γ (.node layer span) d) (hu : layer.children[i]? = some u) :
    ∃ Δ τ, ChildScope Γ layer i Δ ∧ HasType Δ u τ := by
  have hadd {left right : Term} {σ τ : Ty} (hl : HasType Γ left σ) (hr : HasType Γ right τ)
      (hu : [left, right][i]? = some u) : ∃ τ, HasType Γ u τ := by
    rcases i with _ | _ | i <;> cases hu
    · exact ⟨σ, hl⟩
    · exact ⟨τ, hr⟩
  have hite {cond onTrue onFalse : Term} {γ σ τ : Ty} (hc : HasType Γ cond γ)
      (ht : HasType Γ onTrue σ) (hf : HasType Γ onFalse τ)
      (hu : [cond, onTrue, onFalse][i]? = some u) : ∃ τ, HasType Γ u τ := by
    rcases i with _ | _ | _ | i <;> cases hu
    · exact ⟨γ, hc⟩
    · exact ⟨σ, ht⟩
    · exact ⟨τ, hf⟩
  have hcall {callee : Term} {args : List Term} {φ : Ty} {τs : List Ty} (hc : HasType Γ callee φ)
      (ha : HaveTypes Γ args τs) (hu : (callee :: args)[i]? = some u) : ∃ τ, HasType Γ u τ := by
    rcases i with _ | i
    · cases hu
      exact ⟨φ, hc⟩
    · exact ha.exists_type hu
  -- no rule that can be broken is one that binds names, so every child is in the scope of the node
  cases h with
  | left hl hr _ | right hl hr _ =>
    obtain ⟨τ, hτ⟩ := hadd hl hr hu
    exact ⟨Γ, τ, rfl, hτ⟩
  | condition hc ht hf _ | branches hc ht hf _ =>
    obtain ⟨τ, hτ⟩ := hite hc ht hf hu
    exact ⟨Γ, τ, rfl, hτ⟩
  | var _ => simp [Layer.children] at hu
  | callee hc ha _ | count hc ha _ | argument hc ha _ _ _ _ _ _ =>
    obtain ⟨τ, hτ⟩ := hcall hc ha hu
    exact ⟨Γ, τ, rfl, hτ⟩

theorem FirstViolation.of_violation {Γ : Context} {layer : Layer Term} {span : Span}
    {d : Diagnostic} (h : Violation Γ (.node layer span) d) :
    FirstViolation Γ (.node layer span) [] d := by
  refine ⟨Path.below 0 (layer.children.map Term.postorder), [], Term.postorder_node layer span, ?_,
    Γ, _, .here, h⟩
  have hb : ∀ p ∈ Path.below 0 ((layer.children.take layer.children.length).map Term.postorder),
      TypedAt Γ (.node layer span) p := typedAt_below fun j v _ hv => h.child hv
  rw [List.take_length] at hb
  exact hb

theorem firstViolation_of_rejected {t : Term} (ht : t.Known) :
    ∀ (env : Env) (d : Diagnostic), (FailFast.check t).eval env = .error (.rejected d) →
      ∃ p, FirstViolation env.lookup t p d := by
  induction t using Term.byChildren with
  | unknown variant span => exact absurd ht Term.not_known_unknown
  | node layer span ih =>
    intro env d he
    rw [Term.known_node] at ht
    rcases FailFast.eval_check_error he with ⟨i, u, env', hu, hs, hb, hf⟩ | ⟨d', hd, hv⟩
    · have hmem := List.mem_of_getElem? hu
      obtain ⟨p, hp⟩ := ih u hmem (ht u hmem) env' d hf
      exact ⟨i :: p, .of_child hu hs hb hp⟩
    · cases hd
      exact ⟨[], .of_violation hv⟩

/-- The fail-fast checker rejects a known term if and only if there is a first violation in
post-order, and its verdict then holds the diagnostic of that violation and nothing else. -/
theorem check_error_iff_firstViolation (interval : Interval) (strategy : String) {t : Term}
    (ht : t.Known) (env : Env) (ds : Diagnostics) :
    (Checker.check ⟨.failFast, interval, strategy⟩ .direct t (.env env)).outcome =
        .ok (.error ds) ↔
      ∃ p d, FirstViolation env.lookup t p d ∧ ds = .single d := by
  rw [Checker.outcome_of_known interval strategy ht env]
  cases he : (FailFast.check t).eval env with
  | ok τ =>
    have hτ := (FailFast.eval_check_ok t env τ).mp he
    constructor
    · intro h; cases h
    · rintro ⟨p, d, hv, _⟩
      exact absurd hτ hv.not_hasType
  | error h =>
    cases h with
    | fault f => exact absurd he (FailFast.eval_check_ne_fault ht env f)
    | rejected d =>
      obtain ⟨p, hp⟩ := firstViolation_of_rejected ht env d he
      constructor
      · intro h
        cases h
        exact ⟨p, d, hp, rfl⟩
      · rintro ⟨p', d', hp', rfl⟩
        rw [hp.unique hp']

/-- In `1(x)` the callee is no function, but the argument comes first. -/
theorem check_unbound_argument :
    let x : Term := .node (.var "x") ⟨⟨1, 2, none⟩, ⟨1, 3, none⟩⟩
    let one : Term := .node (.number 1) ⟨⟨1, 0, none⟩, ⟨1, 1, none⟩⟩
    let t : Term := .node (.call one [x]) ⟨⟨1, 0, none⟩, ⟨1, 4, none⟩⟩
    t.Known ∧ (Checker.check ⟨.failFast, .one, "chain"⟩ .direct t (.env (.empty .chain))).outcome =
      .ok (.error (.single (.ofCode .unknownVariable x.span (some "x")))) := by
  intro x one t
  have ht : t.Known := by simp [t, one, x, Layer.children]
  refine ⟨ht, (check_error_iff_firstViolation .one "chain" ht (.empty .chain) _).mpr ?_⟩
  refine ⟨[1], _, ⟨[[0]], [[]], rfl, ?_, _, x, .child rfl rfl .here, .var rfl⟩, rfl⟩
  intro q hq
  cases List.mem_singleton.mp hq
  exact ⟨_, one, .number, .child rfl rfl .here, .number⟩

end ArrowLang
