import ArrowLang.Proofs.Hosts

/-!
# ArrowLang.Proofs.Schedule

When a run is visited, and what there is to see.

* `Config.Crosses c l o s`: the run from `c` ends with outcome `o` and counters `s`, and `l` holds
  the counters at the boundaries that it crosses, in order.
* `Config.Crosses.run_eq`, `Config.Crosses.drain_eq`: what the two hosts make of these boundaries.
* `OnSchedule n s seen`: `seen` is what an observer sees of a run with the final counters `s` who is
  visited at every `n`-th boundary.

The boundaries of a run are numbered from one on, whoever runs it. Both hosts pick those whose
number is divisible by the interval.
-/

namespace ArrowLang

namespace Stats

/-- The counters `s'` come one step after `s`, and no boundary is crossed by that step. -/
structure Ticks (s s' : Stats) : Prop where
  steps : s'.steps = s.steps + 1
  yields : s'.yields = s.yields
  maxStack : s.maxStack ≤ s'.maxStack

/-- The counters `s` come some steps before `s'`. -/
structure Before (s s' : Stats) : Prop where
  steps : s.steps < s'.steps
  maxStack : s.maxStack ≤ s'.maxStack

theorem ticks_tick (s : Stats) (depth : Nat) : s.Ticks (s.tick depth) :=
  ⟨rfl, rfl, Nat.le_max_left _ _⟩

theorem Ticks.before {s s' : Stats} (h : s.Ticks s') : s.Before s' :=
  ⟨by rw [h.steps]; exact Nat.lt_succ_self _, h.maxStack⟩

theorem before_tickBoundary (s : Stats) : s.Before s.tickBoundary :=
  ⟨Nat.lt_succ_self _, Nat.le_refl _⟩

theorem Before.trans {s s' s'' : Stats} (h : s.Before s') (h' : s'.Before s'') : s.Before s'' :=
  ⟨Nat.lt_trans h.steps h'.steps, Nat.le_trans h.maxStack h'.maxStack⟩

theorem Before.pairwise_cons {s s' : Stats} {l : List Stats} (h : s.Before s')
    (hl : (s' :: l).Pairwise Before) : (s :: s' :: l).Pairwise Before := by
  refine List.pairwise_cons.mpr ⟨?_, hl⟩
  intro x hx
  rcases List.mem_cons.mp hx with rfl | hx
  · exact h
  · exact h.trans ((List.pairwise_cons.mp hl).1 x hx)

end Stats

/-! ## Counters along a run -/

def Step.Counts {E ω : Type} (s : Stats) : Step E ω → Prop
  | .next c => s.Ticks c.stats
  | .boundary c => c.stats = s.tickBoundary
  | .ended _ s' => s.Ticks s'

namespace Config

variable {E ω : Type}

theorem resume_counts {α : Type} (a : α) (env : E) (frames : Frames E α ω) (depth : Nat)
    (stats : Stats) : (resume a env frames depth stats).Counts stats := by
  induction frames generalizing env depth with
  | done => exact stats.ticks_tick depth
  | next k rest => exact stats.ticks_tick (depth - 1)
  | restore env' rest ih => exact ih a env' (depth - 1)

theorem step_counts (c : Config E ω) : c.step.Counts c.stats := by
  obtain ⟨current, env, frames, depth, stats⟩ := c
  cases current with
  | pure a => exact resume_counts a env frames depth stats
  | fail d => exact stats.ticks_tick depth
  | ask => exact resume_counts env env frames depth stats
  | within modify inner => exact stats.ticks_tick (depth + 1)
  | bind inner k => exact stats.ticks_tick (depth + 1)
  | suspend inner => exact rfl
  | stray shown => exact ⟨rfl, rfl, Nat.le_refl _⟩

theorem ticks_of_next {c c' : Config E ω} (h : c.step = .next c') : c.stats.Ticks c'.stats := by
  have := c.step_counts
  rwa [h] at this

theorem stats_of_boundary {c c' : Config E ω} (h : c.step = .boundary c') :
    c'.stats = c.stats.tickBoundary := by
  have := c.step_counts
  rwa [h] at this

theorem ticks_of_ended {c : Config E ω} {outcome : Outcome ω} {stats : Stats}
    (h : c.step = .ended outcome stats) : c.stats.Ticks stats := by
  have := c.step_counts
  rwa [h] at this

inductive Crosses : Config E ω → List Stats → Outcome ω → Stats → Prop where
  | ended {c : Config E ω} {outcome : Outcome ω} {stats : Stats} :
      c.step = .ended outcome stats → Crosses c [] outcome stats
  | next {c c' : Config E ω} {l : List Stats} {outcome : Outcome ω} {stats : Stats} :
      c.step = .next c' → Crosses c' l outcome stats → Crosses c l outcome stats
  | boundary {c c' : Config E ω} {l : List Stats} {outcome : Outcome ω} {stats : Stats} :
      c.step = .boundary c' → Crosses c' l outcome stats →
      Crosses c (c'.stats :: l) outcome stats

theorem Steps.crosses {c c' : Config E ω} {n : Nat} {outcome : Outcome ω} {stats : Stats}
    (hs : c.Steps n c') (he : c'.step = .ended outcome stats) :
    ∃ l, c.Crosses l outcome stats := by
  induction hs with
  | refl => exact ⟨[], .ended he⟩
  | cons hgo _ ih =>
    obtain ⟨l, hl⟩ := ih he
    rcases hgo with hgo | hgo
    · exact ⟨l, .next hgo hl⟩
    · exact ⟨_, .boundary hgo hl⟩

namespace Crosses

variable {c : Config E ω} {l : List Stats} {outcome : Outcome ω} {stats : Stats}

/-- From the start over the boundaries to the end, the counters of a run are in order. -/
theorem pairwise_before (h : c.Crosses l outcome stats) :
    (c.stats :: (l ++ [stats])).Pairwise Stats.Before := by
  induction h with
  | ended hs => simpa using (ticks_of_ended hs).before
  | next hs _ ih => exact ((ticks_of_next hs).before.pairwise_cons ih).sublist (by simp)
  | @boundary c c' _ _ _ hs _ ih =>
    have hb : c.stats.Before c'.stats := by
      rw [stats_of_boundary hs]
      exact c.stats.before_tickBoundary
    exact hb.pairwise_cons ih

theorem map_yields (h : c.Crosses l outcome stats) :
    l.map Stats.yields = List.range' (c.stats.yields + 1) l.length ∧
      stats.yields = c.stats.yields + l.length := by
  induction h with
  | ended hs => exact ⟨rfl, (ticks_of_ended hs).yields⟩
  | next hs _ ih =>
    rw [(ticks_of_next hs).yields] at ih
    exact ih
  | @boundary c c' l _ _ hs _ ih =>
    have hy : c'.stats.yields = c.stats.yields + 1 := by
      rw [stats_of_boundary hs]
      rfl
    rw [hy] at ih
    refine ⟨?_, by rw [ih.2, List.length_cons]; omega⟩
    rw [List.map_cons, List.length_cons, List.range'_succ, hy, ih.1]

/-- `run` shows the observer those boundaries that are due. -/
theorem run_eq (h : c.Crosses l outcome stats) (interval : Interval) (observed : Bool) :
    ∀ seen, c.run interval observed seen = ⟨outcome, stats,
      seen.reverse ++ l.filter fun s => observed && interval.due s.yields⟩ := by
  induction h with
  | ended hs => intro seen; simp [run_ended hs]
  | next hs _ ih => intro seen; rw [run_next hs, ih]
  | boundary hs _ ih =>
    intro seen
    rw [run_boundary hs, ih, List.filter_cons]
    split <;> simp

/-- A session shows the observer the same, and hands control back at each boundary that is due,
observed or not. -/
theorem drain_eq (h : c.Crosses l outcome stats) (interval : Interval) (observed : Bool) :
    ∀ seen hops, (c.start interval observed seen).drain hops =
      (⟨outcome, stats, seen.reverse ++ l.filter fun s => observed && interval.due s.yields⟩,
        hops + (l.filter fun s => interval.due s.yields).length) := by
  induction h with
  | ended hs => intro seen hops; simp [start_ended hs, Session.drain]
  | next hs _ ih => intro seen hops; rw [start_next hs, ih]
  | @boundary c c' l _ _ hs _ ih =>
    intro seen hops
    rw [start_boundary hs]
    cases hd : interval.due c'.stats.yields with
    | false => simp [ih, hd]
    | true =>
      simp only [if_true, Session.drain, ih, List.filter_cons, hd, Bool.and_true, List.length_cons]
      cases observed <;> simp <;> omega

end Crosses

end Config

/-! ## Every so many boundaries -/

/-- Of the numbers from one to `m`, the multiples of the interval are due. -/
theorem Interval.filter_due (n : Interval) (m : Nat) :
    (List.range' 1 m).filter n.due = (List.range' 1 (m / n.val)).map (· * n.val) := by
  induction m with
  | zero => simp
  | succ m ih =>
    rw [List.range'_1_concat, List.filter_append, ih, Nat.add_comm 1 m, Nat.succ_div]
    by_cases hd : n.val ∣ m + 1
    · have hdue : n.due (m + 1) = true := by simp [due, Nat.mod_eq_zero_of_dvd hd]
      have hlast : (1 + m / n.val) * n.val = m + 1 := by
        rw [Nat.add_comm, ← Nat.succ_div_of_dvd hd, Nat.div_mul_cancel hd]
      rw [if_pos hd, List.range'_1_concat, List.map_append, List.map_singleton, hlast]
      simp [hdue]
    · have hdue : n.due (m + 1) = false := by
        simpa [due] using fun h => hd (Nat.dvd_of_mod_eq_zero h)
      rw [if_neg hd, Nat.add_zero]
      simp [hdue]

structure OnSchedule (n : Interval) (stats : Stats) (seen : List Stats) : Prop where
  /-- there is one visit for each full interval of boundaries -/
  length_eq : seen.length = stats.yields / n.val
  /-- the visits stand one interval apart, and the first one interval from the start -/
  yields_eq : ∀ (k : Nat) (s : Stats), seen[k]? = some s → s.yields = (k + 1) * n.val
  /-- the counters do not go back from one visit to a later one -/
  pairwise_before : seen.Pairwise Stats.Before
  /-- nor do they from a visit to the end -/
  before_end : ∀ s ∈ seen, s.Before stats

theorem Config.Crosses.onSchedule {E ω : Type} {c : Config E ω} {l : List Stats}
    {outcome : Outcome ω} {stats : Stats} (h : c.Crosses l outcome stats)
    (hc : c.stats = .zero) (n : Interval) :
    OnSchedule n stats (l.filter fun s => n.due s.yields) := by
  obtain ⟨hyields, hend⟩ := h.map_yields
  have hnumbers : (l.filter fun s => n.due s.yields).map Stats.yields =
      (List.range' 1 (stats.yields / n.val)).map (· * n.val) := by
    have hl : stats.yields = l.length := by simp [hend, hc, Stats.zero]
    rw [hl, ← n.filter_due]
    rw [hc] at hyields
    exact List.filter_map.symm.trans (congrArg (List.filter n.due) hyields)
  have horder := (List.pairwise_cons.mp h.pairwise_before).2
  obtain ⟨hsorted, _, hlast⟩ := List.pairwise_append.mp horder
  refine ⟨?_, ?_, hsorted.filter _, ?_⟩
  · simpa using congrArg List.length hnumbers
  · intro k s hk
    have hnumber := congrArg (·[k]?) hnumbers
    simp only [List.getElem?_map, hk, Option.map_some] at hnumber
    obtain ⟨i, hi, hs⟩ := Option.map_eq_some_iff.mp hnumber.symm
    obtain ⟨hlt, rfl⟩ := List.getElem?_eq_some_iff.mp hi
    rw [← hs, List.getElem_range', Nat.one_mul, Nat.add_comm]
  · intro s hs
    exact hlast s (List.mem_filter.mp hs).1 stats List.mem_cons_self

/-! ## Both hosts -/

/-- What an observer sees who is visited at every `n`-th boundary. -/
def Comp.visits {E α : Type} (c : Comp E α) (n : Interval) (env : E) : List Stats :=
  (c.run n true env).seen

/-- How often a host gets control back from a run with the final counters `stats`. -/
def Host.handovers (n : Interval) (stats : Stats) : Host → Nat
  | .direct => 0
  | .session => stats.yields / n.val

theorem Comp.crosses {E α : Type} (c : Comp E α) (env : E) :
    ∃ l, (Config.initial c env).Crosses l (Outcome.ofEval (c.eval env)) (c.cost env) := by
  obtain ⟨_, _, _, hs, he⟩ := Config.initial_ends c env
  exact hs.crosses he

theorem Comp.visits_onSchedule {E α : Type} (c : Comp E α) (n : Interval) (env : E) :
    OnSchedule n (c.cost env) (c.visits n env) := by
  obtain ⟨l, hl⟩ := c.crosses env
  rw [visits, Comp.run, hl.run_eq]
  exact hl.onSchedule rfl n

/-- All that a run leaves behind, under either host. -/
theorem Host.run_eq_visits {E α : Type} (host : Host) (n : Interval) (observed : Bool)
    (c : Comp E α) (env : E) :
    host.run n observed c env =
      (⟨Outcome.ofEval (c.eval env), c.cost env, if observed then c.visits n env else []⟩,
        host.handovers n (c.cost env)) := by
  obtain ⟨l, hl⟩ := c.crosses env
  have hvisits : c.visits n env = l.filter fun s => n.due s.yields := by
    rw [Comp.visits, Comp.run, hl.run_eq]
    rfl
  have hseen : (l.filter fun s => observed && n.due s.yields) =
      if observed then c.visits n env else [] := by
    cases observed with
    | false => simp
    | true => simp [hvisits]
  cases host with
  | direct => simp [run, Comp.run, hl.run_eq, hseen, handovers]
  | session =>
    have hlength := (c.visits_onSchedule n env).length_eq
    rw [hvisits] at hlength
    simp [run, Comp.start, hl.drain_eq, hseen, handovers, hlength]

/-- The two hosts agree and keep the schedule. For every computation and environment there are an
outcome, final counters and for each interval a list of visits on schedule, such that every run
leaves behind just these: under either host, for every interval, observed or not. A session hands
control back once for each full interval of boundaries, observed or not. -/
theorem hosts_keep_schedule {E α : Type} (c : Comp E α) (env : E) :
    ∃ (outcome : Outcome α) (stats : Stats) (visits : Interval → List Stats),
      (∀ n, OnSchedule n stats (visits n)) ∧
      ∀ (n : Interval) (observed : Bool),
        c.run n observed env = ⟨outcome, stats, if observed then visits n else []⟩ ∧
        (c.start n observed env).report =
          ⟨outcome, stats, if observed then visits n else []⟩ ∧
        (c.start n observed env).hops = stats.yields / n.val := by
  refine ⟨Outcome.ofEval (c.eval env), c.cost env, fun n => c.visits n env,
    fun n => c.visits_onSchedule n env, ?_⟩
  intro n observed
  have hdirect := Host.run_eq_visits .direct n observed c env
  have hsession := Host.run_eq_visits .session n observed c env
  exact ⟨congrArg Prod.fst hdirect, congrArg Prod.fst hsession, congrArg Prod.snd hsession⟩

end ArrowLang
