import ArrowLang.Comp.Run

/-!
# ArrowLang.Proofs.Machine

The machine computes the meaning of a computation.

* `Config.Steps c n c'`: `c'` is reached from `c` by `n` steps, none of which ends the run.
* `Config.Ends c n o s`: the run from `c` is over after `n` steps, with outcome `o` and counters
  `s`.
* `Config.arrive`: what the machine does next once a computation under some frames has come to its
  end: it hands a value to the frames, and drops them otherwise.

`Comp.arrives` is the simulation. It says of a computation under arbitrary frames that the machine
comes to `arrive` with the computation's meaning, in the environment that it started in, and with
the counters raised by the computation's cost. `run_computes_meaning` is the case of no frames.
-/

namespace ArrowLang

namespace Stats

/-- The counters after `steps` more steps and `yields` more boundaries, with up to `peak` frames
open meanwhile. -/
def raise (s : Stats) (steps yields peak : Nat) : Stats :=
  ⟨s.steps + steps, s.yields + yields, max s.maxStack peak⟩

/-- Frames that have been counted before do not show in the peak. -/
theorem tick_of_le {s : Stats} {depth : Nat} (h : depth ≤ s.maxStack) :
    s.tick depth = ⟨s.steps + 1, s.yields, s.maxStack⟩ := by
  rw [tick, Nat.max_eq_left h]

theorem le_raise {s : Stats} {steps yields peak depth : Nat} (h : depth ≤ peak) :
    depth ≤ (s.raise steps yields peak).maxStack :=
  Nat.le_trans h (Nat.le_max_right _ _)

end Stats

/-- All counters of a run of `c` by itself. -/
def Comp.cost {E α : Type} (c : Comp E α) (env : E) : Stats :=
  ⟨c.steps env, c.yields env, c.maxStack env⟩

namespace Config

variable {E ω : Type}

/-- One step leads from `c` to `c'`, across a boundary or not. -/
def Goes (c c' : Config E ω) : Prop := c.step = .next c' ∨ c.step = .boundary c'

inductive Steps : Config E ω → Nat → Config E ω → Prop where
  | refl {c : Config E ω} : Steps c 0 c
  | cons {c c' c'' : Config E ω} {n : Nat} : c.Goes c' → Steps c' n c'' → Steps c (n + 1) c''

theorem Steps.trans {c c' c'' : Config E ω} {m n : Nat} (h₁ : Steps c m c') (h₂ : Steps c' n c'') :
    Steps c (m + n) c'' := by
  induction h₁ with
  | refl => rw [Nat.zero_add]; exact h₂
  | cons hs _ ih => rw [Nat.add_right_comm]; exact .cons hs (ih h₂)

/-- The run from `c` is over after `n` steps, the last of which gives `outcome` and `stats`. -/
def Ends (c : Config E ω) (n : Nat) (outcome : Outcome ω) (stats : Stats) : Prop :=
  ∃ m c', n = m + 1 ∧ c.Steps m c' ∧ c'.step = .ended outcome stats

/-- The step at the end of a computation whose meaning is `r`. -/
def arrive {α : Type} (r : Except Halt α) (env : E) (frames : Frames E α ω) (depth : Nat)
    (stats : Stats) : Step E ω :=
  match r with
  | .ok a => resume a env frames depth stats
  | .error h => .ended h.outcome (stats.tick depth)

/-- A failure looks the same from under one frame more, as long as that frame has been counted. -/
theorem arrive_error {α β : Type} (h : Halt) (env env' : E) (frames : Frames E α ω)
    (frames' : Frames E β ω) {depth : Nat} {stats : Stats} (hd : depth + 1 ≤ stats.maxStack) :
    arrive (.error h) env frames (depth + 1) stats =
      arrive (.error h) env' frames' depth stats := by
  simp only [arrive]
  rw [Stats.tick_of_le hd, Stats.tick_of_le (Nat.le_of_succ_le hd)]

/-- The end of a scope is the end of what stands in it, back in the environment outside. -/
theorem arrive_restore {α : Type} (r : Except Halt α) (env env' : E) (frames : Frames E α ω)
    {depth : Nat} {stats : Stats} (hd : depth + 1 ≤ stats.maxStack) :
    arrive r env' (.restore env frames) (depth + 1) stats = arrive r env frames depth stats := by
  cases r with
  | ok a => rfl
  | error h => exact arrive_error h env' env (.restore env frames) frames hd

/-- From `c` the machine takes `n` steps, and the step after them is `last`. -/
def Leads (c : Config E ω) (n : Nat) (last : Step E ω) : Prop :=
  ∃ c', c.Steps n c' ∧ c'.step = last

theorem Leads.cons {c c' : Config E ω} {n : Nat} {last : Step E ω} (hs : c.Goes c')
    (h : c'.Leads n last) : c.Leads (n + 1) last := by
  obtain ⟨c'', hc, hl⟩ := h
  exact ⟨c'', .cons hs hc, hl⟩

/-- A step that goes on after `n` steps is followed by what its target leads to. -/
theorem Leads.trans {c c' : Config E ω} {m n : Nat} {last : Step E ω}
    (h₁ : c.Leads m (.next c')) (h₂ : c'.Leads n last) : c.Leads (m + (n + 1)) last := by
  obtain ⟨d, hd, hn⟩ := h₁
  obtain ⟨d', hd', hl⟩ := h₂
  exact ⟨d', hd.trans (.cons (.inl hn) hd'), hl⟩

end Config

open Config in
/-- The simulation. The bound on `depth` says that the frames around `c` have been counted, which
makes the peak of the whole run the maximum of what was seen before and what `c` adds. -/
theorem Comp.arrives {E α ω : Type} (c : Comp E α) :
    ∀ (env : E) (frames : Frames E α ω) (depth : Nat) (stats : Stats), depth ≤ stats.maxStack →
      ∃ n, c.steps env = n + 1 ∧
        Leads ⟨c, env, frames, depth, stats⟩ n (arrive (c.eval env) env frames depth
          (stats.raise n (c.yields env) (depth + c.maxStack env))) := by
  induction c with
  | pure a =>
    intro env frames depth stats hd
    refine ⟨0, rfl, _, .refl, ?_⟩
    simp only [step, eval, arrive, Stats.raise, yields, maxStack, Nat.add_zero,
      Nat.max_eq_left hd]
  | fail d =>
    intro env frames depth stats hd
    refine ⟨0, rfl, _, .refl, ?_⟩
    simp only [step, eval, arrive, Halt.outcome, Verdict.reject_cons, Diagnostics.single,
      Stats.raise, yields, maxStack, Nat.add_zero, Nat.max_eq_left hd]
  | ask =>
    intro env frames depth stats hd
    refine ⟨0, rfl, _, .refl, ?_⟩
    simp only [step, eval, arrive, Stats.raise, yields, maxStack, Nat.add_zero,
      Nat.max_eq_left hd]
  | stray shown =>
    intro env frames depth stats hd
    refine ⟨0, rfl, _, .refl, ?_⟩
    simp only [step, eval, arrive, Halt.outcome, Stats.raise, Stats.tick, yields, maxStack,
      Nat.add_zero, Nat.max_eq_left hd]
  | suspend inner ih =>
    intro env frames depth stats hd
    obtain ⟨n, hn, hl⟩ := ih env frames depth stats.tickBoundary hd
    refine ⟨n + 1, by rw [steps, hn], ?_⟩
    have hgo : Goes ⟨.suspend inner, env, frames, depth, stats⟩
        ⟨inner, env, frames, depth, stats.tickBoundary⟩ := .inr rfl
    have hstats : stats.tickBoundary.raise n (inner.yields env) (depth + inner.maxStack env) =
        stats.raise (n + 1) ((suspend inner).yields env)
          (depth + (suspend inner).maxStack env) := by
      simp only [Stats.raise, Stats.tickBoundary, yields, maxStack, Stats.mk.injEq, and_true]
      omega
    rw [hstats] at hl
    exact hl.cons hgo
  | within modify inner ih =>
    intro env frames depth stats hd
    obtain ⟨n, hn, hl⟩ := ih (modify env) (.restore env frames) (depth + 1)
      (stats.tick (depth + 1)) (Nat.le_max_right _ _)
    refine ⟨n + 1, by rw [steps, hn], ?_⟩
    have hgo : Goes ⟨.within modify inner, env, frames, depth, stats⟩
        ⟨inner, modify env, .restore env frames, depth + 1, stats.tick (depth + 1)⟩ := .inl rfl
    have hstats : (stats.tick (depth + 1)).raise n (inner.yields (modify env))
          (depth + 1 + inner.maxStack (modify env)) =
        stats.raise (n + 1) ((within modify inner).yields env)
          (depth + (within modify inner).maxStack env) := by
      simp only [Stats.raise, Stats.tick, yields, maxStack, Stats.mk.injEq, true_and]
      omega
    rw [arrive_restore _ _ _ _ (Stats.le_raise (by omega)), hstats] at hl
    exact hl.cons hgo
  | bind inner k ihi ihk =>
    intro env frames depth stats hd
    obtain ⟨m, hm, hl⟩ := ihi env (.next k frames) (depth + 1) (stats.tick (depth + 1))
      (Nat.le_max_right _ _)
    have hgo : Goes ⟨.bind inner k, env, frames, depth, stats⟩
        ⟨inner, env, .next k frames, depth + 1, stats.tick (depth + 1)⟩ := .inl rfl
    cases hi : inner.eval env with
    | error h =>
      -- the failure drops the frame of `k` with all others
      refine ⟨m + 1, by simp only [steps, hi, after_error, hm], ?_⟩
      have hstats : (stats.tick (depth + 1)).raise m (inner.yields env)
            (depth + 1 + inner.maxStack env) =
          stats.raise (m + 1) ((bind inner k).yields env)
            (depth + (bind inner k).maxStack env) := by
        simp only [Stats.raise, Stats.tick, yields, maxStack, hi, after_error, Stats.mk.injEq]
        omega
      rw [hi, arrive_error h env env _ frames (Stats.le_raise (by omega)), hstats] at hl
      simp only [eval, hi]
      exact hl.cons hgo
    | ok a =>
      rw [hi] at hl
      obtain ⟨n, hn, hk⟩ := ihk a env frames depth
        (((stats.tick (depth + 1)).raise m (inner.yields env)
          (depth + 1 + inner.maxStack env)).tick depth) (Nat.le_max_right _ _)
      refine ⟨m + (n + 1) + 1, by simp only [steps, hi, after_ok, hm, hn]; omega, ?_⟩
      have hstats : (((stats.tick (depth + 1)).raise m (inner.yields env)
            (depth + 1 + inner.maxStack env)).tick depth).raise n ((k a).yields env)
            (depth + (k a).maxStack env) =
          stats.raise (m + (n + 1) + 1) ((bind inner k).yields env)
            (depth + (bind inner k).maxStack env) := by
        simp only [Stats.raise, Stats.tick, yields, maxStack, hi, after_ok, Stats.mk.injEq]
        omega
      rw [hstats] at hk
      simp only [eval, hi]
      exact (hl.trans hk).cons hgo

namespace Config

variable {E ω : Type}

theorem run_next {c c' : Config E ω} (h : c.step = .next c') (interval : Interval)
    (observed : Bool) (seen : List Stats) :
    c.run interval observed seen = c'.run interval observed seen := by
  rw [run]
  split
  · rename_i hs; rw [h] at hs; cases hs; rfl
  · rename_i hs; rw [h] at hs; cases hs
  · rename_i hs; rw [h] at hs; cases hs

theorem run_boundary {c c' : Config E ω} (h : c.step = .boundary c') (interval : Interval)
    (observed : Bool) (seen : List Stats) :
    c.run interval observed seen = c'.run interval observed
      (if observed && interval.due c'.stats.yields then c'.stats :: seen else seen) := by
  rw [run]
  split
  · rename_i hs; rw [h] at hs; cases hs
  · rename_i hs
    rw [h] at hs
    cases hs
    split <;> rfl
  · rename_i hs; rw [h] at hs; cases hs

theorem run_ended {c : Config E ω} {outcome : Outcome ω} {stats : Stats}
    (h : c.step = .ended outcome stats) (interval : Interval) (observed : Bool)
    (seen : List Stats) : c.run interval observed seen = ⟨outcome, stats, seen.reverse⟩ := by
  rw [run]
  split
  · rename_i hs; rw [h] at hs; cases hs
  · rename_i hs; rw [h] at hs; cases hs
  · rename_i hs; rw [h] at hs; cases hs; rfl

/-- `run` follows the steps of the machine; on the way the observer may see more. -/
theorem Steps.run_eq {c c' : Config E ω} {n : Nat} (h : c.Steps n c') (interval : Interval)
    (observed : Bool) :
    ∀ seen, ∃ seen', c.run interval observed seen = c'.run interval observed seen' := by
  induction h with
  | refl => intro seen; exact ⟨seen, rfl⟩
  | cons hs _ ih =>
    intro seen
    rcases hs with hs | hs
    · rw [run_next hs]
      exact ih seen
    · rw [run_boundary hs]
      exact ih _

theorem Ends.run_eq {c : Config E ω} {n : Nat} {outcome : Outcome ω} {stats : Stats}
    (h : c.Ends n outcome stats) (interval : Interval) (observed : Bool) (seen : List Stats) :
    ∃ seen', c.run interval observed seen = ⟨outcome, stats, seen'⟩ := by
  obtain ⟨m, c', _, hs, he⟩ := h
  obtain ⟨seen', hr⟩ := hs.run_eq interval observed seen
  refine ⟨seen'.reverse, ?_⟩
  rw [hr, run_ended he]

/-- A machine that starts with `c` and nothing else to do ends as `c` does. -/
theorem initial_ends {α : Type} (c : Comp E α) (env : E) :
    (initial c env).Ends (c.steps env) (Outcome.ofEval (c.eval env)) (c.cost env) := by
  obtain ⟨n, hn, c', hs, hl⟩ := c.arrives env (.done : Frames E α α) 0 .zero (Nat.zero_le _)
  refine ⟨n, c', hn, hs, ?_⟩
  have hstats : (Stats.zero.raise n (c.yields env) (0 + c.maxStack env)).tick 0 = c.cost env := by
    simp only [Stats.raise, Stats.tick, Stats.zero, Comp.cost, hn, Stats.mk.injEq]
    omega
  rw [hl]
  cases c.eval env with
  | ok a => simp only [arrive, resume, Outcome.ofEval, hstats]
  | error h => simp only [arrive, Outcome.ofEval, hstats]

end Config

theorem Comp.run_outcome {E α : Type} (c : Comp E α) (env : E) (interval : Interval)
    (observed : Bool) : (c.run interval observed env).outcome = Outcome.ofEval (c.eval env) := by
  obtain ⟨seen, hr⟩ := (Config.initial_ends c env).run_eq interval observed []
  rw [Comp.run, hr]

theorem Comp.run_stats {E α : Type} (c : Comp E α) (env : E) (interval : Interval)
    (observed : Bool) : (c.run interval observed env).stats = c.cost env := by
  obtain ⟨seen, hr⟩ := (Config.initial_ends c env).run_eq interval observed []
  rw [Comp.run, hr]

/-- For every computation and environment, the machine stops after as many steps as the computation
has parts to execute. It then has the computation's meaning for its outcome and the computation's
own counts for its counters, whoever watches the run and how often. -/
theorem run_computes_meaning {E α : Type} (c : Comp E α) (env : E) (interval : Interval)
    (observed : Bool) :
    (Config.initial c env).Ends (c.steps env) (Outcome.ofEval (c.eval env))
      ⟨c.steps env, c.yields env, c.maxStack env⟩ ∧
    (c.run interval observed env).outcome = Outcome.ofEval (c.eval env) ∧
    (c.run interval observed env).stats = ⟨c.steps env, c.yields env, c.maxStack env⟩ :=
  ⟨Config.initial_ends c env, c.run_outcome env interval observed,
    c.run_stats env interval observed⟩

end ArrowLang
