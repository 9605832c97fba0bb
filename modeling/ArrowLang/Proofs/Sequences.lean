import ArrowLang.Proofs.Entries
import ArrowLang.Proofs.Schedule

/-!
# ArrowLang.Proofs.Sequences

Computations that are run one after the other.

* `Comp.reached env cs`: the computations of `cs` that `sequence` comes to in `env`. The last of
  them may fail, and then those behind it are left out.
* `Comp.total f cs`: the amounts `f` of the computations of `cs`, added up.
* `Comp.steps_sequence`, `Comp.yields_sequence`, `Comp.scenes_sequence`: a run of `sequence` is made
  of the runs of the computations that it comes to.

`sequence` keeps the values so far in its continuations. So each statement about it is one about
`collectOnto`, with arbitrary values kept so far.
-/

namespace ArrowLang

namespace Comp

variable {E α β : Type}

def reached (env : E) : List (Comp E α) → List (Comp E α)
  | [] => []
  | c :: cs =>
    match c.eval env with
    | .ok _ => c :: reached env cs
    | .error _ => [c]

def total (f : Comp E α → Nat) (cs : List (Comp E α)) : Nat := cs.foldr (fun c n => f c + n) 0

theorem total_cons (f : Comp E α → Nat) (c : Comp E α) (cs : List (Comp E α)) :
    total f (c :: cs) = f c + total f cs := rfl

theorem reached_of_ok {env : E} {c : Comp E α} {a : α} (h : c.eval env = .ok a)
    (cs : List (Comp E α)) : reached env (c :: cs) = c :: reached env cs := by
  rw [reached, h]

theorem reached_of_error {env : E} {c : Comp E α} {h : Halt} (he : c.eval env = .error h)
    (cs : List (Comp E α)) : reached env (c :: cs) = [c] := by
  rw [reached, he]

/-- If all computations have values, all are reached, and the values are theirs. -/
theorem reached_of_all_ok {env : E} {cs : List (Comp E α)} {as : List α}
    (h : evalAll env cs = .ok as) :
    reached env cs = cs ∧ cs.map (fun c => c.eval env) = as.map .ok := by
  induction cs generalizing as with
  | nil => cases h; exact ⟨rfl, rfl⟩
  | cons c cs ih =>
    rw [evalAll] at h
    cases hc : c.eval env with
    | error x => rw [hc] at h; cases h
    | ok a =>
      rw [hc] at h
      cases hcs : evalAll env cs with
      | error x => rw [hcs] at h; cases h
      | ok bs =>
        rw [hcs] at h
        cases h
        obtain ⟨hreached, hvalues⟩ := ih hcs
        exact ⟨by rw [reached_of_ok hc, hreached], by rw [List.map_cons, hc, hvalues]; rfl⟩

/-- Otherwise there is a first computation without a value, and behind it none is reached. -/
theorem reached_of_some_error {env : E} {cs : List (Comp E α)} {h : Halt}
    (hall : evalAll env cs = .error h) :
    ∃ k c, cs[k]? = some c ∧ (∀ b ∈ cs.take k, ∃ a, b.eval env = .ok a) ∧
      c.eval env = .error h ∧ reached env cs = cs.take (k + 1) := by
  induction cs with
  | nil => cases hall
  | cons c cs ih =>
    rw [evalAll] at hall
    cases hc : c.eval env with
    | error x =>
      rw [hc] at hall
      cases hall
      exact ⟨0, c, rfl, fun b hb => absurd hb List.not_mem_nil, hc, reached_of_error hc cs⟩
    | ok a =>
      rw [hc] at hall
      cases hcs : evalAll env cs with
      | ok as => rw [hcs] at hall; cases hall
      | error x =>
        rw [hcs] at hall
        cases hall
        obtain ⟨k, d, hd, hbefore, he, hreached⟩ := ih hcs
        refine ⟨k + 1, d, hd, ?_, he, by rw [reached_of_ok hc, hreached]; rfl⟩
        intro b hb
        rcases List.mem_cons.mp hb with rfl | hb
        · exact ⟨a, hc⟩
        · exact hbefore b hb

/-! ## The run of a sequence -/

/-- There is one step for each computation, to put its continuation aside, and one for the list of
values at the end, if there is one. -/
theorem steps_collectOnto (finish : List α → β) (cs : List (Comp E α)) (env : E) :
    ∀ seen, (collectOnto finish seen cs).steps env =
      total (fun c => 1 + c.steps env) (reached env cs) + after (evalAll env cs) fun _ => 1 := by
  induction cs with
  | nil => intro seen; rfl
  | cons c cs ih =>
    intro seen
    rw [collectOnto, steps, evalAll]
    cases hc : c.eval env with
    | error h =>
      rw [reached_of_error hc, total_cons, after_error, after_error]
      have hnil : total (fun c : Comp E α => 1 + c.steps env) [] = 0 := rfl
      omega
    | ok a =>
      rw [reached_of_ok hc, total_cons, after_ok, ih]
      have hend : (after ((evalAll env cs).map (a :: ·)) fun _ => 1) =
          after (evalAll env cs) fun _ => 1 := by
        cases evalAll env cs <;> rfl
      simp only [hend]
      omega

theorem yields_collectOnto (finish : List α → β) (cs : List (Comp E α)) (env : E) :
    ∀ seen, (collectOnto finish seen cs).yields env =
      total (fun c => c.yields env) (reached env cs) := by
  induction cs with
  | nil => intro seen; rfl
  | cons c cs ih =>
    intro seen
    rw [collectOnto, yields]
    cases hc : c.eval env with
    | error h => rw [reached_of_error hc]; rfl
    | ok a => rw [reached_of_ok hc, total_cons, after_ok, ih]

theorem scenes_collectOnto (finish : List α → β) (cs : List (Comp E α)) (env : E) :
    ∀ seen, (collectOnto finish seen cs).scenes env =
      (reached env cs).flatMap fun c => c.scenes env := by
  induction cs with
  | nil => intro seen; rfl
  | cons c cs ih =>
    intro seen
    rw [collectOnto]
    cases hc : c.eval env with
    | error h => rw [scenes_bind_error hc, reached_of_error hc, List.flatMap_singleton]
    | ok a => rw [scenes_bind_ok hc, reached_of_ok hc, List.flatMap_cons, ih]

theorem steps_sequence (cs : List (Comp E α)) (env : E) :
    (sequence cs).steps env =
      total (fun c => 1 + c.steps env) (reached env cs) + after (evalAll env cs) fun _ => 1 :=
  steps_collectOnto id cs env []

theorem yields_sequence (cs : List (Comp E α)) (env : E) :
    (sequence cs).yields env = total (fun c => c.yields env) (reached env cs) :=
  yields_collectOnto id cs env []

theorem scenes_sequence (cs : List (Comp E α)) (env : E) :
    (sequence cs).scenes env = (reached env cs).flatMap fun c => c.scenes env :=
  scenes_collectOnto id cs env []

end Comp

/-- `sequence` runs computations from left to right, once each, in the environment that it is run in
itself. Either all of them have values there, if each is run by itself. Then the run of the sequence
ends with the list of these values, and it takes the steps of all runs, one more for each, and one
more at the end. Or there is a first one that fails. Then the run fails as that one does, and takes
the steps of the runs up to this one, and one more for each. In both cases it crosses the boundaries
of these runs: it enters what they enter, in the same order and in the same environments. -/
theorem sequence_in_order {E α : Type} (cs : List (Comp E α)) (env : E) (host : Host)
    (n : Interval) (observed : Bool) :
    let report (c : Comp E α) : Report α := (host.run n observed c env).1
    let whole : Report (List α) := (host.run n observed (.sequence cs) env).1
    let steps (ds : List (Comp E α)) : Nat := Comp.total (fun c => 1 + (report c).stats.steps) ds
    let yields (ds : List (Comp E α)) : Nat := Comp.total (fun c => (report c).stats.yields) ds
    let shows (ds : List (Comp E α)) : Prop :=
      ∃ scenes : Comp E α → List (Scene E), (∀ c, (Config.initial c env).Shows (scenes c)) ∧
        (Config.initial (Comp.sequence cs) env).Shows (ds.flatMap scenes)
    (∃ as : List α, cs.map (fun c => (report c).outcome) = as.map (fun a => .ok (.ok a)) ∧
      whole.outcome = .ok (.ok as) ∧ whole.stats.steps = 1 + steps cs ∧
      whole.stats.yields = yields cs ∧ shows cs) ∨
    ∃ (k : Nat) (c : Comp E α) (h : Halt), cs[k]? = some c ∧
      (∀ b ∈ cs.take k, ∃ a, (report b).outcome = .ok (.ok a)) ∧ (report c).outcome = h.outcome ∧
      whole.outcome = h.outcome ∧ whole.stats.steps = steps (cs.take (k + 1)) ∧
      whole.stats.yields = yields (cs.take (k + 1)) ∧ shows (cs.take (k + 1)) := by
  intro report whole steps yields shows
  have houtcome (c : Comp E α) : (report c).outcome = Outcome.ofEval (c.eval env) := by
    simp only [report, Host.run_eq_visits]
  have hwhole : whole.outcome = Outcome.ofEval (Comp.evalAll env cs) := by
    simp only [whole, Host.run_eq_visits, Comp.eval_sequence]
  have hsteps : whole.stats.steps =
      steps (Comp.reached env cs) + Comp.after (Comp.evalAll env cs) fun _ => 1 := by
    simp only [whole, steps, report, Host.run_eq_visits]
    exact Comp.steps_sequence cs env
  have hyields : whole.stats.yields = yields (Comp.reached env cs) := by
    simp only [whole, yields, report, Host.run_eq_visits]
    exact Comp.yields_sequence cs env
  have hshows : shows (Comp.reached env cs) := by
    refine ⟨fun c => c.scenes env, fun c => c.shows env, ?_⟩
    rw [← Comp.scenes_sequence]
    exact Comp.shows _ env
  cases hall : Comp.evalAll env cs with
  | ok as =>
    left
    obtain ⟨hreached, hvalues⟩ := Comp.reached_of_all_ok hall
    rw [hreached] at hsteps hyields hshows
    rw [hall] at hwhole hsteps
    refine ⟨as, ?_, hwhole, ?_, hyields, hshows⟩
    · have houtcomes := congrArg (List.map Outcome.ofEval) hvalues
      rw [List.map_map, List.map_map] at houtcomes
      simp only [houtcome]
      exact houtcomes
    · rw [hsteps]
      exact Nat.add_comm _ _
  | error h =>
    right
    obtain ⟨k, c, hc, hbefore, he, hreached⟩ := Comp.reached_of_some_error hall
    rw [hreached] at hsteps hyields hshows
    rw [hall] at hwhole hsteps
    refine ⟨k, c, h, hc, ?_, ?_, hwhole, hsteps, hyields, hshows⟩
    · intro b hb
      obtain ⟨a, ha⟩ := hbefore b hb
      exact ⟨a, by rw [houtcome, ha]; rfl⟩
    · rw [houtcome, he]
      rfl

end ArrowLang
