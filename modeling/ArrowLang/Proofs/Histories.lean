import ArrowLang.Proofs.Descent
import ArrowLang.Proofs.Faults

/-!
# ArrowLang.Proofs.Histories

A checker that is used again and again.

* `Checker.alone c call`: the answer to a call of a new checker, and what it remembers afterwards.
* `Checker.Remembers c call last`: `last` is what there is to remember of the call.

Nothing is left of the calls before: `CheckerState.calls_eq_map` says that each call of a history is
answered as it would be alone.
-/

namespace ArrowLang

/-! ## What is remembered of a check -/

/-- The counters at the end of a run, unless it was too short for a visit. -/
def Interval.noticed (n : Interval) (stats : Stats) : Option Stats :=
  if stats.yields < n.val then none else some stats

theorem Interval.noticed_eq_none (n : Interval) (stats : Stats) :
    n.noticed stats = none ↔ stats.yields < n.val := by
  rw [noticed]
  split <;> simp [*]

theorem Comp.visits_eq_nil {E α : Type} (c : Comp E α) (n : Interval) (env : E) :
    c.visits n env = [] ↔ c.yields env < n.val := by
  have hlength : (c.visits n env).length = c.yields env / n.val :=
    (c.visits_onSchedule n env).length_eq
  rw [← List.length_eq_zero_iff, hlength, Nat.div_eq_zero_iff]
  have := n.pos
  omega

namespace Checker

variable {c : Checker} {given : Given} {t : Term} {env : Env}

theorem lastStats_accumulate (hp : c.policy = .accumulate) (host : Host) :
    (c.check host t given).lastStats = none := by
  simp only [check, hp, checkAll]
  split <;> rfl

theorem lastStats_of_unknowns {variant : String} {rest : List String}
    (h : t.unknowns = variant :: rest) (host : Host) :
    (c.check host t given).lastStats = none := by
  cases hp : c.policy with
  | accumulate => exact lastStats_accumulate hp host
  | failFast =>
    simp only [check, hp, checkFirst, FailFast.build, Term.para_of_unknowns _ h]
    rfl

/-- The checker keeps hold of the counters of its run, which go on after a visit. So it remembers
those at the end, whenever the visits were. -/
theorem lastStats_failFast (hp : c.policy = .failFast) (ht : t.Known) (he : c.env given = .ok env)
    (host : Host) :
    (c.check host t given).lastStats = c.interval.noticed ((FailFast.check t).cost env) := by
  simp only [check, hp, checkFirst_eq_ofRun host (FailFast.build_of_known ht) he,
    CheckReport.lastStats_ofRun, host.run_eq_visits, if_true, Interval.noticed, Comp.cost]
  by_cases hshort : (FailFast.check t).yields env < c.interval.val
  · have hnil := (Comp.visits_eq_nil (FailFast.check t) c.interval env).mpr hshort
    simp [hnil, hshort]
  · have hvisits := mt (Comp.visits_eq_nil (FailFast.check t) c.interval env).mp hshort
    simp [hvisits, hshort]

def alone (c : Checker) (call : Call) : Answer × Option Stats :=
  let (answer, s) := (CheckerState.initial c).call call
  (answer, s.lastStats)

structure Remembers (c : Checker) (call : Call) (last : Option Stats) : Prop where
  /-- collecting violations makes no run -/
  accumulate : c.policy = .accumulate → last = none
  /-- a fault comes before the run -/
  unknown : ¬ call.term.Known → last = none
  /-- all else makes a run of the check of the term, and a term with a type has a boundary for each
  node but the root -/
  failFast : c.policy = .failFast → call.term.Known → ∃ comp env,
    FailFast.build call.term = .ok comp ∧ c.env call.given = .ok env ∧
    last = c.interval.noticed (call.host.run c.interval true comp env).1.stats ∧
    ∀ τ, HasType env.lookup call.term τ → (last = none ↔ call.term.size - 1 < c.interval.val)

theorem remembers_lastStats {call : Call} (he : c.env call.given = .ok env) :
    c.Remembers call (c.check call.host call.term call.given).lastStats where
  accumulate hp := lastStats_accumulate hp call.host
  unknown hnot := by
    cases h : call.term.unknowns with
    | nil => exact absurd (Term.known_iff_unknowns.mpr h) hnot
    | cons variant rest => exact lastStats_of_unknowns h call.host
  failFast hp ht := by
    refine ⟨FailFast.check call.term, env, FailFast.build_of_known ht, he, ?_, ?_⟩
    · rw [lastStats_failFast hp ht he, call.host.run_eq_visits]
    · intro τ hτ
      have hyields := FailFast.yields_check hτ
      rw [lastStats_failFast hp ht he, Interval.noticed_eq_none, Comp.cost]
      simp only
      omega

theorem env_of_strategy (policy : Policy) (interval : Interval) (strategy : Strategy)
    (given : Given) : ∃ env, Checker.env ⟨policy, interval, strategy.name⟩ given = .ok env := by
  have hempty : emptyEnv ⟨policy, interval, strategy.name⟩ = .ok (.empty strategy) := by
    cases strategy <;> rfl
  cases given with
  | fresh => exact ⟨_, hempty⟩
  | bindings b => exact ⟨_, by rw [Checker.env, hempty]; rfl⟩
  | env e => exact ⟨e, rfl⟩

end Checker

/-! ## Histories -/

namespace CheckerState

theorem check_eq (s : CheckerState) (host : Host) (t : Term) (given : Given) :
    (s.check host t given).1 = s.checker.check host t given ∧
      (s.check host t given).2.checker = s.checker ∧
      (s.check host t given).2.lastStats = (s.checker.check host t given).lastStats := by
  simp only [check, CheckReport.lastStats]
  split
  · rename_i run hrun
    have hkept : s.memory.forget.kept = none := rfl
    simp only [hrun, lastStats, Memory.lastStats_afterRun hkept, Option.bind_some,
      Memory.lastStats_afterRun (rfl : Memory.fresh.kept = none), and_self]
  · rename_i hrun
    rw [hrun]
    exact ⟨rfl, rfl, rfl⟩

/-- A call is answered by what the check leaves behind, whatever there is in memory. -/
theorem call_eq (s : CheckerState) (call : Checker.Call) :
    (s.call call).1 =
        call.request.answer (s.checker.check call.host call.term call.given).outcome ∧
      (s.call call).2.checker = s.checker ∧
      (s.call call).2.lastStats = (s.checker.check call.host call.term call.given).lastStats := by
  obtain ⟨hreport, hchecker, hlast⟩ := s.check_eq call.host call.term call.given
  simp only [CheckerState.call]
  exact ⟨by rw [hreport], hchecker, hlast⟩

theorem call_eq_alone (s : CheckerState) (call : Checker.Call) :
    ((s.call call).1, (s.call call).2.lastStats) = s.checker.alone call := by
  obtain ⟨hanswer, _, hlast⟩ := s.call_eq call
  obtain ⟨hanswer', _, hlast'⟩ := (initial s.checker).call_eq call
  simp only [Checker.alone]
  rw [hanswer, hlast, hanswer', hlast']
  rfl

theorem calls_eq_map (s : CheckerState) (history : List Checker.Call) :
    s.calls history = history.map s.checker.alone := by
  induction history generalizing s with
  | nil => rfl
  | cons call rest ih =>
    rw [List.map_cons, ← s.call_eq_alone call, ← (s.call_eq call).2.1, ← ih]
    rfl

end CheckerState

/-- Calls of one checker stand alone. For every valid configuration and every sequence of calls,
each call is answered as by a new checker of that configuration, and the checker remembers the same
afterwards: nothing, if violations are collected, if there is an unknown node, or if the run crosses
fewer boundaries than it takes for a visit; and otherwise the counters at the end of the run. For a
term with a type there is nothing to remember if and only if its nodes other than the root are fewer
than it takes for a visit. -/
theorem calls_stand_alone (policy : Policy) (interval : Interval) (strategy : Strategy) :
    let c : Checker := ⟨policy, interval, strategy.name⟩
    (∀ history, (CheckerState.initial c).calls history = history.map c.alone) ∧
    ∀ call, c.Remembers call (c.alone call).2 := by
  intro c
  refine ⟨fun history => CheckerState.calls_eq_map _ history, ?_⟩
  intro call
  obtain ⟨env, he⟩ := Checker.env_of_strategy policy interval strategy call.given
  have hlast : (c.alone call).2 = (c.check call.host call.term call.given).lastStats :=
    ((CheckerState.initial c).call_eq call).2.2
  rw [hlast]
  exact Checker.remembers_lastStats he

end ArrowLang
