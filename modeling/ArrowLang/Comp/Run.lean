import ArrowLang.Comp.Machine

/-!
# ArrowLang.Comp.Run

Two hosts for the machine. Both count the boundaries that a run crosses and act on every `n`-th of
them, `n` being the interval.

* `Comp.run`: runs to the end; at each such boundary an observer may look at the counters.
* `Comp.start`: runs up to each such boundary and hands control back there, as a `Session` that can
  be resumed.
-/

namespace ArrowLang

/-- The number of boundaries from one visit to the next: at least one. -/
structure Interval where
  val : Nat
  pos : 0 < val

namespace Interval

def one : Interval := ⟨1, by decide⟩

def ofInt? (n : Int) : Option Interval :=
  if h : 0 < n.toNat then some ⟨n.toNat, h⟩ else none

/-- A visit is due after that many boundaries. -/
def due (n : Interval) (yields : Nat) : Bool := yields % n.val == 0

end Interval

/-- What a run leaves behind. -/
structure Report (ω : Type) where
  outcome : Outcome ω
  /-- the counters at the end -/
  stats : Stats
  /-- the counters at each visit of the observer, if there is one -/
  seen : List Stats

/-- A run that hands control back from time to time. -/
inductive Session (ω : Type) where
  | finished (report : Report ω)
  | paused (resume : Unit → Session ω)

namespace Session

variable {ω : Type}

/-- Resumes a session up to its end. Gives the report and how often control was handed back, where
`hops` counts the times so far. -/
def drain (hops : Nat) : Session ω → Report ω × Nat
  | .finished report => (report, hops)
  | .paused resume => drain (hops + 1) (resume ())

def report (s : Session ω) : Report ω := (s.drain 0).1

/-- How often the session hands control back. -/
def hops (s : Session ω) : Nat := (s.drain 0).2

end Session

namespace Config

variable {E ω : Type}

/-- Runs `c` to its end. `seen` holds what the observer has seen so far, the newest first. -/
def run (interval : Interval) (observed : Bool) (seen : List Stats) (c : Config E ω) : Report ω :=
  match _h : c.step with
  | .next c => run interval observed seen c
  | .boundary c =>
    if observed && interval.due c.stats.yields then
      run interval observed (c.stats :: seen) c
    else run interval observed seen c
  | .ended outcome stats => ⟨outcome, stats, seen.reverse⟩
termination_by c.remaining
decreasing_by
  · exact remaining_lt_of_next _h
  · exact remaining_lt_of_boundary _h
  · exact remaining_lt_of_boundary _h

/-- Runs `c` up to the next visit. `seen` holds what the observer has seen so far, the newest
first. -/
def start (interval : Interval) (observed : Bool) (seen : List Stats) (c : Config E ω) :
    Session ω :=
  match _h : c.step with
  | .next c => start interval observed seen c
  | .boundary c =>
    if interval.due c.stats.yields then
      let seen := if observed then c.stats :: seen else seen
      .paused fun _ => start interval observed seen c
    else start interval observed seen c
  | .ended outcome stats => .finished ⟨outcome, stats, seen.reverse⟩
termination_by c.remaining
decreasing_by
  · exact remaining_lt_of_next _h
  · exact remaining_lt_of_boundary _h
  · exact remaining_lt_of_boundary _h

end Config

namespace Comp

variable {E α : Type}

/-- Runs `c` in `env` to its end. -/
def run (interval : Interval) (observed : Bool) (c : Comp E α) (env : E) : Report α :=
  (Config.initial c env).run interval observed []

/-- Runs `c` in `env` as a session. -/
def start (interval : Interval) (observed : Bool) (c : Comp E α) (env : E) : Session α :=
  (Config.initial c env).start interval observed []

end Comp

end ArrowLang
