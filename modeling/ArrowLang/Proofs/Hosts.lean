import ArrowLang.Checker
import ArrowLang.Proofs.Machine

/-!
# ArrowLang.Proofs.Hosts

The two hosts of the machine, and the checks they run.

* `Config.start_next`, `Config.start_boundary`, `Config.start_ended`: a session, step by step.
* `CheckReport.ofRun`: what a fail-fast check leaves behind, by the run that it makes.
-/

namespace ArrowLang

namespace Config

variable {E ω : Type}

theorem start_next {c c' : Config E ω} (h : c.step = .next c') (interval : Interval)
    (observed : Bool) (seen : List Stats) :
    c.start interval observed seen = c'.start interval observed seen := by
  rw [start]
  split
  · rename_i hs; rw [h] at hs; cases hs; rfl
  · rename_i hs; rw [h] at hs; cases hs
  · rename_i hs; rw [h] at hs; cases hs

theorem start_boundary {c c' : Config E ω} (h : c.step = .boundary c') (interval : Interval)
    (observed : Bool) (seen : List Stats) :
    c.start interval observed seen =
      if interval.due c'.stats.yields then
        .paused fun _ => c'.start interval observed (if observed then c'.stats :: seen else seen)
      else c'.start interval observed seen := by
  rw [start]
  split
  · rename_i hs; rw [h] at hs; cases hs
  · rename_i hs; rw [h] at hs; cases hs; rfl
  · rename_i hs; rw [h] at hs; cases hs

theorem start_ended {c : Config E ω} {outcome : Outcome ω} {stats : Stats}
    (h : c.step = .ended outcome stats) (interval : Interval) (observed : Bool)
    (seen : List Stats) :
    c.start interval observed seen = .finished ⟨outcome, stats, seen.reverse⟩ := by
  rw [start]
  split
  · rename_i hs; rw [h] at hs; cases hs
  · rename_i hs; rw [h] at hs; cases hs
  · rename_i hs; rw [h] at hs; cases hs; rfl

end Config

namespace Memory

/-- The visits of a run keep hold of its cell, whatever is in it then. -/
theorem foldl_record (cell : Nat) (seen : List Stats) (m : Memory) :
    let m' := seen.foldl (fun m stats => (m.write cell stats).record cell) m
    m'.cells.length = m.cells.length ∧ m'.kept = if seen.isEmpty then m.kept else some cell := by
  induction seen generalizing m with
  | nil => exact ⟨rfl, rfl⟩
  | cons stats seen ih =>
    obtain ⟨hlength, hkept⟩ := ih ((m.write cell stats).record cell)
    refine ⟨hlength.trans List.length_set, hkept.trans ?_⟩
    split <;> rfl

/-- The counters go on after a visit, so what is found afterwards is how the run ended. -/
theorem lastStats_afterRun {m : Memory} (hm : m.kept = none) (run : Report Ty) :
    (m.afterRun run).lastStats = if run.seen.isEmpty then none else some run.stats := by
  obtain ⟨hlength, hkept⟩ :=
    foldl_record m.cells.length run.seen { m with cells := m.cells ++ [.zero] }
  rw [afterRun, lastStats, write, hkept]
  split
  · rw [hm]
    rfl
  · rw [Option.bind_some, List.getElem?_set_self]
    rw [hlength]
    simp

end Memory

/-- What a fail-fast check leaves behind, by the run that it makes. -/
def CheckReport.ofRun (opening : Event) (run : Report Ty × Nat) : CheckReport :=
  match run.1.outcome with
  | .error f => ⟨.error (.fault f), some run.1, run.2, [opening]⟩
  | .ok v => ⟨.ok v, some run.1, run.2, opening :: run.1.stats.event :: Verdict.events v⟩

theorem CheckReport.lastStats_ofRun (opening : Event) (run : Report Ty × Nat) :
    (ofRun opening run).lastStats = if run.1.seen.isEmpty then none else some run.1.stats := by
  have hrun : (ofRun opening run).run = some run.1 := by
    rw [ofRun]
    split <;> rfl
  rw [lastStats, hrun, Option.bind_some, Memory.lastStats_afterRun rfl]

/-- The report on a run that came to a verdict. -/
theorem CheckReport.ofRun_of_ok {opening : Event} {run : Report Ty × Nat} {v : Verdict Ty}
    (h : run.1.outcome = .ok v) :
    (ofRun opening run).outcome = .ok v ∧
      (ofRun opening run).lastStats = (if run.1.seen.isEmpty then none else some run.1.stats) ∧
      (ofRun opening run).hops = run.2 := by
  refine ⟨?_, lastStats_ofRun opening run, ?_⟩ <;> simp only [ofRun, h]

theorem Checker.checkFirst_eq_ofRun {c : Checker} {given : Given} {t : Term} {comp : Check}
    {env : Env} (host : Host) (hb : FailFast.build t = .ok comp) (he : c.env given = .ok env) :
    c.checkFirst host t given =
      .ofRun (c.opening host t) (host.run c.interval true comp env) := by
  simp only [checkFirst, hb, he]
  rfl

end ArrowLang
