import ArrowLang.Proofs.Schedule
import ArrowLang.Proofs.Typing

/-!
# ArrowLang.Proofs.Costs

What a check costs is written in the term.

* `Comp.Costs c s m`: in every environment `c` takes at most `s` steps and `m` frames, and just as
  many if it ends with a value. Each way to build a computation has its price.
* `Term.steps`: the steps of all nodes of a term, added up.
* `Term.frames`: the frames that stand open at the deepest point of the check of a term.
* `Term.height`: the number of nodes on the longest way down.

`FailFast.check_costs` follows the rules, which are built from computations of known price.
-/

namespace ArrowLang

namespace Comp

variable {E α β : Type}

structure Costs (c : Comp E α) (steps frames : Nat) : Prop where
  steps_le : ∀ env, c.steps env ≤ steps
  maxStack_le : ∀ env, c.maxStack env ≤ frames
  of_ok : ∀ env a, c.eval env = .ok a → c.steps env = steps ∧ c.maxStack env = frames

namespace Costs

variable {c : Comp E α} {s m s' m' : Nat}

theorem congr (h : Costs c s m) (hs : s = s') (hm : m = m') : Costs c s' m' := by
  subst hs hm
  exact h

theorem pure (a : α) : Costs (.pure a : Comp E α) 1 0 :=
  ⟨fun _ => Nat.le_refl _, fun _ => Nat.le_refl _, fun _ _ _ => ⟨rfl, rfl⟩⟩

theorem fail (d : Diagnostic) : Costs (.fail d : Comp E α) 1 0 :=
  ⟨fun _ => Nat.le_refl _, fun _ => Nat.le_refl _, fun _ _ _ => ⟨rfl, rfl⟩⟩

theorem ask : Costs (.ask : Comp E E) 1 0 :=
  ⟨fun _ => Nat.le_refl _, fun _ => Nat.le_refl _, fun _ _ _ => ⟨rfl, rfl⟩⟩

theorem stray (shown : String) : Costs (.stray shown : Comp E α) 1 0 :=
  ⟨fun _ => Nat.le_refl _, fun _ => Nat.le_refl _, fun _ _ _ => ⟨rfl, rfl⟩⟩

theorem suspend (h : Costs c s m) : Costs (.suspend c) (s + 1) m where
  steps_le env := Nat.succ_le_succ (h.steps_le env)
  maxStack_le env := h.maxStack_le env
  of_ok env a ha := by
    obtain ⟨hs, hm⟩ := h.of_ok env a ha
    exact ⟨congrArg (· + 1) hs, hm⟩

theorem within (modify : E → E) (h : Costs c s m) : Costs (.within modify c) (s + 1) (m + 1) where
  steps_le env := Nat.succ_le_succ (h.steps_le (modify env))
  maxStack_le env := Nat.succ_le_succ (h.maxStack_le (modify env))
  of_ok env a ha := by
    obtain ⟨hs, hm⟩ := h.of_ok (modify env) a ha
    exact ⟨congrArg (· + 1) hs, congrArg (· + 1) hm⟩

/-- The frame of the continuation stands open only while `c` runs. -/
theorem bind {next : α → Comp E β} (hc : Costs c s m) (hn : ∀ a, Costs (next a) s' m') :
    Costs (.bind c next) (s + s' + 1) (max (m + 1) m') where
  steps_le env := by
    have hs := hc.steps_le env
    rw [steps]
    cases c.eval env with
    | error h => rw [after_error]; omega
    | ok a =>
      have hs' := (hn a).steps_le env
      rw [after_ok]
      omega
  maxStack_le env := by
    have hm := hc.maxStack_le env
    rw [maxStack]
    cases c.eval env with
    | error h => rw [after_error]; omega
    | ok a =>
      have hm' := (hn a).maxStack_le env
      rw [after_ok]
      omega
  of_ok env b hb := by
    obtain ⟨a, ha, hb⟩ := eval_bind_ok.mp hb
    obtain ⟨hs, hm⟩ := hc.of_ok env a ha
    obtain ⟨hs', hm'⟩ := (hn a).of_ok env b hb
    simp only [steps, maxStack, ha, after_ok, hs, hm, hs', hm', and_self]

theorem map (f : α → β) (h : Costs c s m) : Costs (Comp.map f c) (s + 2) (m + 1) :=
  (h.bind fun a => pure (f a)).congr rfl (Nat.max_eq_left (Nat.zero_le _))

theorem asks (f : E → α) : Costs (Comp.asks f) 3 1 :=
  ask.bind fun env => pure (f env)

/-- A list of computations takes the steps of all and a further one for each; there are no more
frames than for the one that needs most. -/
theorem collectOnto {ι : Type} {f : ι → Comp E α} {s m : ι → Nat} {ts : List ι}
    (h : ∀ t ∈ ts, Costs (f t) (s t) (m t)) (finish : List α → β) (seen : List α) :
    Costs (Comp.collectOnto finish seen (ts.map f)) (ts.foldr (fun t n => s t + n + 1) 1)
      (ts.foldr (fun t n => max (m t + 1) n) 0) := by
  induction ts generalizing seen with
  | nil => exact pure _
  | cons t ts ih =>
    rw [List.forall_mem_cons] at h
    exact h.1.bind fun a => ih h.2 (a :: seen)

end Costs

end Comp

/-! ## The cost of a term -/

/-- The steps that the rule for the node takes, apart from those for the children. -/
def Layer.ownSteps {R : Type} : Layer R → Nat
  | .bool _ | .number _ => 1
  | .add _ _ => 5
  | .ite _ _ _ => 7
  | .var _ => 5
  | .func _ _ => 4
  | .call _ args => 5 + 2 * args.length
  | .seq _ _ => 3
  | .const _ _ _ => 4

/-- The frames of a node, from those of its children. -/
def Layer.frames : Layer Nat → Nat
  | .bool _ | .number _ => 0
  | .add left right => 1 + max left right
  | .ite cond onTrue onFalse => 1 + max cond (max onTrue onFalse)
  | .var _ => 2
  | .func _ body => 2 + body
  | .call callee args => args.foldr (fun arg n => max (2 + arg) n) (1 + callee)
  | .seq first rest => max (1 + first) rest
  | .const _ init rest => 1 + max init rest

namespace Term

def ownSteps : Term → Nat
  | .node layer _ => layer.ownSteps
  | .unknown _ _ => 1

def steps (t : Term) : Nat := t.preorder.foldr (fun u n => u.ownSteps + n) 0

def frames : Term → Nat := recurse (fun layer _ => (layer.map Child.out).frames) fun _ _ => 0

def height : Term → Nat :=
  recurse (fun layer _ => (layer.map Child.out).children.foldr max 0 + 1) fun _ _ => 1

/-- The steps of a list of terms, added up. -/
def totalSteps (ts : List Term) : Nat := ts.foldr (fun t n => t.steps + n) 0

theorem totalSteps_nil : totalSteps [] = 0 := rfl

theorem totalSteps_cons (t : Term) (ts : List Term) :
    totalSteps (t :: ts) = t.steps + totalSteps ts := rfl

theorem foldr_ownSteps (ts : List Term) (k : Nat) :
    ts.foldr (fun u n => u.ownSteps + n) k = ts.foldr (fun u n => u.ownSteps + n) 0 + k := by
  induction ts with
  | nil => simp
  | cons t ts ih => simp only [List.foldr_cons, ih, Nat.add_assoc]

theorem steps_node (layer : Layer Term) (span : Span) :
    (node layer span).steps = layer.ownSteps + totalSteps layer.children := by
  have hchildren (ts : List Term) :
      (ts.flatMap preorder).foldr (fun u n => u.ownSteps + n) 0 = totalSteps ts := by
    induction ts with
    | nil => rfl
    | cons t ts ih => rw [List.flatMap_cons, List.foldr_append, ih, foldr_ownSteps]; rfl
  rw [steps, preorder_node, List.foldr_cons, hchildren]
  rfl

theorem frames_node (layer : Layer Term) (span : Span) :
    (node layer span).frames = (layer.map frames).frames := by
  rw [frames, recurse_node, Layer.map_map]

theorem height_node (layer : Layer Term) (span : Span) :
    (node layer span).height = (layer.children.map height).foldr max 0 + 1 := by
  rw [height, recurse_node, Layer.map_map, Layer.children_map]

theorem height_lt {layer : Layer Term} {u : Term} (hu : u ∈ layer.children) (span : Span) :
    u.height < (node layer span).height := by
  rw [height_node]
  have hmax (ts : List Term) (h : u ∈ ts) : u.height ≤ (ts.map height).foldr max 0 := by
    induction ts with
    | nil => cases h
    | cons t ts ih =>
      rw [List.map_cons, List.foldr_cons]
      rcases List.mem_cons.mp h with rfl | h
      · omega
      · have := ih h
        omega
  have := hmax layer.children hu
  omega

end Term

/-- A node needs at most two frames more than some child, or than nothing. -/
theorem Layer.frames_le {layer : Layer Nat} {n : Nat} (hn : 2 ≤ n)
    (h : ∀ m ∈ layer.children, m + 2 ≤ n) : layer.frames ≤ n := by
  cases layer with
  | call callee args =>
    simp only [Layer.children, List.forall_mem_cons] at h
    obtain ⟨hcallee, hargs⟩ := h
    rw [Layer.frames]
    induction args with
    | nil => simp only [List.foldr_nil]; omega
    | cons arg args ih =>
      rw [List.forall_mem_cons] at hargs
      have := ih hargs.2
      rw [List.foldr_cons]
      omega
  | _ =>
    simp [Layer.children] at h
    simp only [Layer.frames]
    omega

theorem Term.frames_le_height (t : Term) : t.frames ≤ 2 * t.height := by
  induction t using byChildren with
  | unknown variant span => exact Nat.zero_le _
  | node layer span ih =>
    rw [frames_node]
    refine Layer.frames_le ?_ ?_
    · rw [height_node]
      omega
    · rw [Layer.children_map, List.forall_mem_map]
      intro u hu
      have := ih u hu
      have := height_lt hu span
      omega

/-! ## The cost of the rules -/

namespace FailFast

open ArrowLang.Comp

theorem Settled.costs {c : Check} (h : Settled c) : Costs c 1 0 := by
  cases h with
  | pure τ => exact .pure τ
  | reject code span detail => exact .fail _

/-- Two steps for each argument, and one at the end. -/
theorem foldr_argSteps (args : List Term) :
    args.foldr (fun t n => (t.steps + 1) + n + 1) 1 =
      Term.totalSteps args + 2 * args.length + 1 := by
  induction args with
  | nil => rfl
  | cons arg args ih =>
    simp only [List.foldr_cons, ih, Term.totalSteps_cons, List.length_cons]
    omega

theorem foldr_argFrames (callee : Nat) (args : List Term) :
    max (callee + 1) (max (args.foldr (fun t n => max (t.frames + 1) n) 0 + 1) 0) =
      (args.map Term.frames).foldr (fun arg n => max (2 + arg) n) (1 + callee) := by
  induction args with
  | nil => simp only [List.foldr_nil, List.map_nil]; omega
  | cons arg args ih =>
    simp only [List.foldr_cons, List.map_cons, ← ih]
    omega

theorem check_costs (t : Term) : Costs (check t) t.steps t.frames := by
  induction t using Term.byChildren with
  | unknown variant span =>
    rw [Term.steps, Term.preorder_unknown]
    exact .stray variant
  | node layer span ih =>
    rw [check_node, Term.steps_node, Term.frames_node]
    cases layer with
    | bool value => exact .pure _
    | number value => exact .pure _
    | add left right =>
      have hl := ih left (by simp [Layer.children])
      have hr := ih right (by simp [Layer.children])
      have h := hl.suspend.bind fun σ => hr.suspend.bind fun τ =>
        (sumRule_settled left.span right.span σ τ).costs
      refine h.congr ?_ ?_
      · simp only [Layer.ownSteps, Layer.children, Term.totalSteps_cons, Term.totalSteps_nil]
        omega
      · simp only [Layer.map, Layer.frames]; omega
    | ite cond onTrue onFalse =>
      have hc := ih cond (by simp [Layer.children])
      have ht := ih onTrue (by simp [Layer.children])
      have hf := ih onFalse (by simp [Layer.children])
      have h := hc.suspend.bind fun γ => ht.suspend.bind fun σ => hf.suspend.bind fun τ =>
        (iteRule_settled cond.span span γ σ τ).costs
      refine h.congr ?_ ?_
      · simp only [Layer.ownSteps, Layer.children, Term.totalSteps_cons, Term.totalSteps_nil]
        omega
      · simp only [Layer.map, Layer.frames]; omega
    | var name =>
      exact (Costs.asks fun env => env.lookup name).bind fun found =>
        (varRule_settled name span found).costs
    | func params body =>
      have hb := ih body (by simp [Layer.children])
      have h := (hb.suspend.within fun env => Env.extend env (paramBindings params)).map
        (Ty.func params)
      refine h.congr ?_ ?_
      · simp only [Layer.ownSteps, Layer.children, Term.totalSteps_cons, Term.totalSteps_nil]
        omega
      · simp only [Layer.map, Layer.frames]; omega
    | call callee args =>
      have hc := ih callee (by simp [Layer.children])
      have ha : Costs (sequence (args.map fun arg => suspend (check arg))) _ _ :=
        Costs.collectOnto (fun arg harg => (ih arg (by simp [Layer.children, harg])).suspend) id []
      have h := hc.suspend.bind fun φ => ha.bind fun τs =>
        (callRule_settled callee.span span (args.map Term.span) φ τs).costs
      simp only [Layer.map, rule, List.map_map, Function.comp_def]
      refine h.congr ?_ ?_
      · rw [foldr_argSteps]
        simp only [Layer.ownSteps, Layer.children, Term.totalSteps_cons]
        omega
      · exact foldr_argFrames callee.frames args
    | seq first rest =>
      have hf := ih first (by simp [Layer.children])
      have hr := ih rest (by simp [Layer.children])
      have h := hf.suspend.bind fun _ => hr.suspend
      refine h.congr ?_ ?_
      · simp only [Layer.ownSteps, Layer.children, Term.totalSteps_cons, Term.totalSteps_nil]
        omega
      · simp only [Layer.map, Layer.frames]; omega
    | const name init rest =>
      have hi := ih init (by simp [Layer.children])
      have hr := ih rest (by simp [Layer.children])
      have h := hi.suspend.bind fun τ =>
        hr.suspend.within fun env => Env.extend env [(name, τ)]
      refine h.congr ?_ ?_
      · simp only [Layer.ownSteps, Layer.children, Term.totalSteps_cons, Term.totalSteps_nil]
        omega
      · simp only [Layer.map, Layer.frames]; omega

end FailFast

/-- The term alone says what its check costs. For every known term and every environment, whoever
runs the check and however often it is visited: a run that ends with a type takes the steps and the
frames of the term, and no run takes more. There are at most two frames for each level of the
term. -/
theorem check_cost_of_term {t : Term} (ht : t.Known) (env : Env) :
    ∃ comp, FailFast.build t = .ok comp ∧
      ∀ (host : Host) (interval : Interval) (observed : Bool),
        let report := (host.run interval observed comp env).1
        (∀ τ, report.outcome = .ok (.ok τ) →
          report.stats.steps = t.steps ∧ report.stats.maxStack = t.frames) ∧
        report.stats.steps ≤ t.steps ∧ report.stats.maxStack ≤ t.frames ∧
        t.frames ≤ 2 * t.height := by
  refine ⟨FailFast.check t, FailFast.build_of_known ht, ?_⟩
  intro host interval observed
  have hcosts := FailFast.check_costs t
  rw [host.run_eq_visits]
  refine ⟨?_, hcosts.steps_le env, hcosts.maxStack_le env, t.frames_le_height⟩
  intro τ hτ
  cases hv : (FailFast.check t).eval env with
  | ok υ => exact hcosts.of_ok env υ hv
  | error h =>
    rw [hv] at hτ
    cases h with
    | fault f => cases hτ
    | rejected d => cases hτ

/-- The check of `((x: number) => x + 1)(2)`. -/
theorem check_cost_of_call :
    let node (layer : Layer Term) : Term := .node layer .unknown
    let t : Term := node (.call (node (.func [⟨"x", .number⟩]
      (node (.add (node (.var "x")) (node (.number 1)))))) [node (.number 2)])
    t.Known ∧ ∃ comp, FailFast.build t = .ok comp ∧
      ∀ (host : Host) (interval : Interval) (observed : Bool),
        let report := (host.run interval observed comp (.empty .copy)).1
        report.outcome = .ok (.ok .number) ∧ report.stats.steps = 23 ∧
          report.stats.maxStack = 6 := by
  intro node t
  have ht : t.Known := by simp [t, node, Layer.children]
  obtain ⟨comp, hcomp, hrun⟩ := check_cost_of_term ht (.empty .copy)
  refine ⟨ht, comp, hcomp, ?_⟩
  intro host interval observed report
  have hnumber : HasType (Env.empty .copy).lookup t .number := by
    refine hasType_call.mpr ⟨[⟨"x", .number⟩], [.number], .func (.add (.var rfl) .number),
      ⟨rfl, ?_⟩, rfl, ?_⟩
    · intro x hx
      cases List.mem_singleton.mp hx
      exact .number
    · intro x hx
      cases List.mem_singleton.mp hx
      simp [Ty.equal, Ty.equalPairs]
  have houtcome : report.outcome = .ok (.ok .number) := by
    cases hcomp.symm.trans (FailFast.build_of_known ht)
    simp only [report, host.run_eq_visits, (FailFast.eval_check_ok t _ _).mpr hnumber]
    rfl
  obtain ⟨hsteps, hframes⟩ := (hrun host interval observed).1 .number houtcome
  refine ⟨houtcome, hsteps.trans ?_, hframes.trans ?_⟩
  · simp only [t, node, Term.steps_node, Layer.ownSteps, Layer.children, Term.totalSteps_cons,
      Term.totalSteps_nil, List.length_cons, List.length_nil]
  · rfl

end ArrowLang
