import ArrowLang.Proofs.Formatting
import ArrowLang.Proofs.Policies

/-!
# ArrowLang.Proofs.Annotations

Rendered types are annotations.

* `Ty.ReadsBack source τ`: where a parameter is annotated with the rendered form of `τ`, the program
  is read as a function with a parameter of the type `τ`, all names included.
* `Ty.readsBack_iff`: that holds of legal types and of no others.
* `HasType.legal`: in a context of legal types, a printable term has a legal type.

So two legal types with one rendered form are the same type, and the type of a program can be
written into another program.
-/

namespace ArrowLang

/-- A term that is a function with a literal for its body, up to spans, is just that. -/
theorem Term.of_eraseSpans_func {t : Term} {params : List (Param Ty)} {value : Bool}
    (h : t.eraseSpans = bare (.func params (bare (.bool value)))) :
    ∃ inner outer, t = .node (.func params (.node (.bool value) inner)) outer := by
  cases t with
  | unknown variant span => cases h
  | node layer outer =>
    rw [Term.eraseSpans_node] at h
    cases layer with
    | func params' body =>
      simp only [Layer.map, Term.bare, Term.node.injEq, Layer.func.injEq, and_true] at h
      obtain ⟨rfl, hbody⟩ := h
      cases body with
      | unknown variant span => cases hbody
      | node layer inner =>
        rw [Term.eraseSpans_node] at hbody
        cases layer <;> cases hbody
        exact ⟨inner, outer, rfl⟩
    | _ => cases h

namespace Ty

def ReadsBack (source : Option String) (τ : Ty) : Prop :=
  ∃ inner outer : Span, parse ("(p: " ++ τ.render ++ ") => true") source =
    .ok (.node (.func [⟨"p", τ⟩] (.node (.bool true) inner)) outer)

theorem written_annotated {τ : Ty} (h : τ.Legal) :
    Written ("(p: " ++ τ.render ++ ") => true").toList
      (.program (.bare (.func [⟨"p", τ⟩] (.bare (.bool true))))) := by
  have hname : ∀ p ∈ [Param.mk "p" τ], isLegalName p.name = true := by
    simp only [List.mem_singleton, forall_eq]
    decide
  have htype : ∀ p ∈ [Param.mk "p" τ], p.type.Legal := by
    simp only [List.mem_singleton, forall_eq]
    exact h
  have htrue : Written "true".toList (.operand (.bare (.bool true))) :=
    ⟨_, .keyword .trueLit, .atom .trueLit⟩
  have htext : ("(p: " ++ τ.render ++ ") => true").toList =
      '(' :: ((", ".intercalate ([Param.mk "p" τ].map Param.render)).toList ++
        ')' :: ' ' :: '=' :: '>' :: ' ' :: "true".toList) := by
    simp [Param.render]
  rw [htext]
  exact (Written.func hname htype htrue).program

theorem readsBack_iff (source : Option String) {τ : Ty} : τ.ReadsBack source ↔ τ.Legal := by
  constructor
  · rintro ⟨inner, outer, hparse⟩
    have hlegal := (Term.printable_node.mp (parse_printable hparse)).1
    exact hlegal.2 _ List.mem_cons_self
  · intro h
    obtain ⟨t, hparse, herase⟩ := parse_of_written source (written_annotated h)
    obtain ⟨inner, outer, rfl⟩ := Term.of_eraseSpans_func herase
    exact ⟨inner, outer, hparse⟩

theorem render_injective {σ τ : Ty} (hσ : σ.Legal) (hτ : τ.Legal) (h : σ.render = τ.render) :
    σ = τ := by
  obtain ⟨_, _, hparse⟩ := (readsBack_iff none).mpr hσ
  obtain ⟨_, _, hparse'⟩ := (readsBack_iff none).mpr hτ
  rw [h, hparse'] at hparse
  cases hparse
  rfl

end Ty

/-! ## Types of programs -/

namespace Context

def Legal (Γ : Context) : Prop := ∀ (x : String) (τ : Ty), Γ x = some τ → τ.Legal

theorem Legal.bind {Γ : Context} (h : Γ.Legal) {σ : Ty} (hσ : σ.Legal) (name : String) :
    (Γ.bind name σ).Legal := by
  intro x τ hx
  unfold Context.bind at hx
  split at hx
  · cases hx
    exact hσ
  · exact h x τ hx

theorem Legal.bindParams {params : List (Param Ty)} (hparams : ∀ p ∈ params, p.type.Legal) :
    ∀ {Γ : Context}, Γ.Legal → (Γ.bindParams params).Legal := by
  induction params with
  | nil => exact fun h => h
  | cons p params ih =>
    intro Γ h
    rw [List.forall_mem_cons] at hparams
    exact ih hparams.2 (h.bind hparams.1 p.name)

end Context

/-- The names in the type of a term come from its annotations and from its context. -/
theorem HasType.legal {Γ : Context} {t : Term} {τ : Ty} (h : HasType Γ t τ) :
    t.Printable → Γ.Legal → τ.Legal := by
  induction h with
  | bool => intro _ _; exact .boolean
  | number => intro _ _; exact .number
  | add _ _ _ _ => intro _ _; exact .number
  | ite _ _ _ _ _ iht _ =>
    intro ht hΓ
    exact iht ((Term.printable_node.mp ht).2 _ (by simp [Layer.children])) hΓ
  | var hx =>
    intro _ hΓ
    exact hΓ _ _ hx
  | func _ ih =>
    intro ht hΓ
    obtain ⟨⟨hnames, htypes⟩, hchildren⟩ := Term.printable_node.mp ht
    have hret := ih (hchildren _ (by simp [Layer.children])) (.bindParams htypes hΓ)
    exact .func hnames htypes hret
  | call _ _ _ _ _ ihc _ =>
    intro ht hΓ
    -- the result type is a part of the type of the callee
    cases ihc ((Term.printable_node.mp ht).2 _ (by simp [Layer.children])) hΓ with
    | func _ _ hret => exact hret
  | seq _ _ _ ihr =>
    intro ht hΓ
    exact ihr ((Term.printable_node.mp ht).2 _ (by simp [Layer.children])) hΓ
  | const _ _ ihi ihr =>
    intro ht hΓ
    have hchildren := (Term.printable_node.mp ht).2
    have hinit := ihi (hchildren _ (by simp [Layer.children])) hΓ
    exact ihr (hchildren _ (by simp [Layer.children])) (hΓ.bind hinit _)

/-- Accumulation knows basic terms only, so it has no use for an environment. -/
theorem Accumulate.hasType_of_judge_ok {t : Term} {τ : Ty} (h : judge t = .ok τ) (env : Env) :
    HasType env.lookup t τ := by
  have hcovers := judge_covers (basic_of_judge_ok h) env
  rw [h] at hcovers
  generalize hr : (FailFast.check t).eval env = r at hcovers
  cases hcovers with
  | typed => exact (FailFast.eval_check_ok t env τ).mp hr

theorem Checker.legal_of_outcome {c : Checker} {host : Host} {t : Term} {given : Given} {τ : Ty}
    (ht : t.Printable) (henv : ∀ env, c.env given = .ok env → Context.Legal env.lookup)
    (h : (c.check host t given).outcome = .ok (.ok τ)) : τ.Legal := by
  cases hp : c.policy with
  | accumulate =>
    have hempty : Context.Legal (Env.empty .chain).lookup := by
      intro x σ hx
      cases hx
    rw [accumulate_outcome hp ht.known host, Except.ok.injEq] at h
    exact (Accumulate.hasType_of_judge_ok h (.empty .chain)).legal ht hempty
  | failFast =>
    cases he : c.env given with
    | error e =>
      simp only [check, hp, checkFirst, FailFast.build_of_known ht.known, he] at h
      cases h
    | ok env =>
      rw [failFast_ok_iff hp ht.known he host, FailFast.eval_check_ok] at h
      exact h.legal ht (henv env he)

/-- Rendered types are annotations that are read back as they were. A type has legal parameter names
at every depth if and only if a program that annotates a parameter with its rendered form is read
as a function of one parameter of just that type. So rendering is injective on such types. And a
program that was parsed has such a type, under every policy and host, if it is checked in an
environment that binds nothing. -/
theorem rendered_types_read_back (source : Option String) :
    (∀ τ : Ty, τ.Legal ↔ ∃ inner outer : Span,
      parse ("(p: " ++ τ.render ++ ") => true") source =
        .ok (.node (.func [⟨"p", τ⟩] (.node (.bool true) inner)) outer)) ∧
    (∀ σ τ : Ty, σ.Legal → τ.Legal → σ.render = τ.render → σ = τ) ∧
    ∀ (text : String) (t : Term), parse text source = .ok t →
      ∀ (c : Checker) (host : Host) (given : Given),
        (∀ env, c.env given = .ok env → ∀ x, env.lookup x = none) →
        ∀ τ, (c.check host t given).outcome = .ok (.ok τ) → τ.Legal := by
  refine ⟨fun τ => (Ty.readsBack_iff source).symm, fun σ τ => Ty.render_injective, ?_⟩
  intro text t hparse c host given hnone τ hτ
  refine Checker.legal_of_outcome (parse_printable hparse) ?_ hτ
  intro env he x σ hx
  rw [hnone env he x] at hx
  cases hx

/-- A function type on both sides of an arrow. The program that is read has it in its own type. -/
theorem rendered_types_read_back_callback :
    let τ : Ty := .func [⟨"f", .func [⟨"x", .number⟩] .boolean⟩] (.func [] .number)
    let υ : Ty := .func [⟨"p", τ⟩] .boolean
    τ.Legal ∧ (∀ σ : Ty, σ.Legal → σ.render = τ.render → σ = τ) ∧
      ∃ t, parse ("(p: " ++ τ.render ++ ") => true") none = .ok t ∧
        (Checker.check ⟨.failFast, .one, "chain"⟩ .direct t .fresh).outcome = .ok (.ok υ) ∧
        υ.Legal := by
  intro τ υ
  obtain ⟨hread, hinjective, hchecked⟩ := rendered_types_read_back none
  have hx : (Ty.func [⟨"x", .number⟩] .boolean).Legal :=
    .func (by simpa using by decide) (by simpa using .number) .boolean
  have hτ : τ.Legal :=
    .func (by simpa using by decide) (by simpa using hx) (.func (by simp) (by simp) .number)
  obtain ⟨inner, outer, hparse⟩ := (hread τ).mp hτ
  have hknown : (Term.node (.func [⟨"p", τ⟩] (.node (.bool true) inner)) outer).Known := by
    simp [Layer.children]
  have houtcome : (Checker.check ⟨.failFast, .one, "chain"⟩ .direct
      (.node (.func [⟨"p", τ⟩] (.node (.bool true) inner)) outer) .fresh).outcome = .ok (.ok υ) :=
    Checker.failFast_outcome rfl hknown rfl .direct rfl
  refine ⟨hτ, fun σ hσ hrender => hinjective σ τ hσ hτ hrender, _, hparse, houtcome, ?_⟩
  refine hchecked _ _ hparse ⟨.failFast, .one, "chain"⟩ .direct .fresh ?_ υ houtcome
  intro env he x
  cases he
  rfl

end ArrowLang
