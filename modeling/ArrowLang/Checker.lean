import ArrowLang.Checker.Accumulate
import ArrowLang.Checker.FailFast
import ArrowLang.Comp.Run
import ArrowLang.Log.Level
import ArrowLang.Parser

/-!
# ArrowLang.Checker

Type checkers with a fixed policy.

* `Checker`: the policy, the interval between visits, and the strategy for fresh environments.
* `Checker.check`: one check, with all that it leaves behind.
* `Memory`: the counters of a checker's runs, and which of them the checker has kept hold of.
* `CheckerState`: a checker that is used again and again.
* `CheckerState.calls`: the answers to a sequence of calls of one checker.
-/

namespace ArrowLang

inductive Policy where
  /-- stop at the first violation -/
  | failFast
  /-- collect independent violations -/
  | accumulate
  deriving DecidableEq

namespace Policy

def name : Policy → String
  | .failFast => "fail-fast"
  | .accumulate => "accumulate"

/-- The policy of that name, if there is one. -/
def ofName? (name : String) : Option Policy :=
  [.failFast, .accumulate].find? fun p => p.name == name

end Policy

/-- What is wrong with a configuration. -/
inductive ConfigError where
  | unknownPolicy (name : String)
  | intervalTooSmall
  | unknownStrategy (name : String)
  deriving DecidableEq

def ConfigError.message : ConfigError → String
  | .unknownPolicy name => "Unknown policy: " ++ name
  | .intervalTooSmall => "yield_interval must be at least 1"
  | .unknownStrategy name => "Unknown environment strategy: " ++ name

/-- The strategy of that name, or the complaint that there is none. -/
def Strategy.ofName (name : String) : Except ConfigError Strategy :=
  match ofName? name with
  | some strategy => .ok strategy
  | none => .error (.unknownStrategy name)

/-- The interval of that length, or the complaint that it is too small. -/
def Interval.ofInt (n : Int) : Except ConfigError Interval :=
  match ofInt? n with
  | some interval => .ok interval
  | none => .error .intervalTooSmall

structure Checker where
  policy : Policy
  interval : Interval
  /-- the name of the strategy, which is looked up when a fresh environment is needed -/
  strategy : String

/-- The environment that a check is given. -/
inductive Given where
  /-- none: a fresh one -/
  | fresh
  /-- a fresh one with these bindings -/
  | bindings (b : Bindings)
  | env (e : Env)

/-- Who runs a check: a host that waits for its end, or one that takes control back. -/
inductive Host where
  | direct
  | session
  deriving DecidableEq

/-- Runs `c` under the host. Gives the report and how often control was handed back. -/
def Host.run {E α : Type} (host : Host) (interval : Interval) (observed : Bool) (c : Comp E α)
    (env : E) : Report α × Nat :=
  match host with
  | .direct => (c.run interval observed env, 0)
  | .session => (c.start interval observed env).drain 0

/-- Why a check breaks off. -/
inductive CheckFailure where
  | fault (f : Fault)
  | config (e : ConfigError)

/-- What a check leaves behind. -/
structure CheckReport where
  outcome : Except CheckFailure (Verdict Ty)
  /-- the run that the check has made, if it has come to one -/
  run : Option (Report Ty)
  /-- how often control was handed back -/
  hops : Nat
  events : List Event

def Stats.event (s : Stats) : Event :=
  ⟨.trace, .driver, "driver.done steps=" ++ toString s.steps ++ " yields=" ++ toString s.yields ++
    " max_stack=" ++ toString s.maxStack⟩

/-- The events that tell a verdict. -/
def Verdict.events : Verdict Ty → List Event
  | .ok τ => [⟨.debug, .checker, "typecheck.done type=" ++ τ.variantName⟩]
  | .error ds => ds.toList.map fun d =>
    ⟨.debug, .checker, "typecheck.failed code=" ++ d.code.name ++ " at=" ++ d.span.render⟩

/-- The events of a text that has no term. -/
def ParseFailure.events : ParseFailure → List Event
  | .malformed e =>
    [⟨.debug, .parser, "parse.failed at=" ++ e.span.render ++ " message=" ++ e.cause.message⟩]
  | .literalTooLong _ => []

namespace Checker

/-- The checker for a configuration. The strategy is taken as it is. -/
def make (policy : String) (interval : Int) (strategy : String) : Except ConfigError Checker :=
  match Policy.ofName? policy with
  | none => .error (.unknownPolicy policy)
  | some policy =>
    match Interval.ofInt interval with
    | .error e => .error e
    | .ok interval => .ok ⟨policy, interval, strategy⟩

def emptyEnv (c : Checker) : Except ConfigError Env :=
  (Strategy.ofName c.strategy).map Env.empty

/-- The environment to check in. -/
def env (c : Checker) : Given → Except ConfigError Env
  | .fresh => c.emptyEnv
  | .bindings b => c.emptyEnv.map (·.extend b)
  | .env e => .ok e

/-- The event that opens a check. -/
def opening (c : Checker) (host : Host) (t : Term) : Event :=
  let suffix := match host with
    | .direct => ""
    | .session => " async=True"
  ⟨.debug, .checker,
    "typecheck.start policy=" ++ c.policy.name ++ " term=" ++ t.variantName ++ suffix⟩

/-- Checks `t` and collects all violations. -/
def checkAll (c : Checker) (host : Host) (t : Term) : CheckReport :=
  match Accumulate.verdict t with
  | .error f => ⟨.error (.fault f), none, 0, [c.opening host t]⟩
  | .ok v => ⟨.ok v, none, 0, c.opening host t :: Verdict.events v⟩

/-- Checks `t` up to its first violation. -/
def checkFirst (c : Checker) (host : Host) (t : Term) (given : Given) : CheckReport :=
  match FailFast.build t with
  | .error f => ⟨.error (.fault f), none, 0, [c.opening host t]⟩
  | .ok comp =>
    match c.env given with
    | .error e => ⟨.error (.config e), none, 0, [c.opening host t]⟩
    | .ok env =>
      let (report, hops) := host.run c.interval true comp env
      match report.outcome with
      | .error f => ⟨.error (.fault f), some report, hops, [c.opening host t]⟩
      | .ok v =>
        ⟨.ok v, some report, hops, c.opening host t :: report.stats.event :: Verdict.events v⟩

/-- Checks `t` under the checker's policy. -/
def check (c : Checker) (host : Host) (t : Term) (given : Given) : CheckReport :=
  match c.policy with
  | .accumulate => c.checkAll host t
  | .failFast => c.checkFirst host t given

end Checker

/-- What a caller asks for: the verdict, or the type itself. -/
inductive Request where
  | verdict
  | type

/-- What a caller gets. -/
inductive Answer where
  | verdict (v : Verdict Ty)
  | type (τ : Ty)
  /-- the type was asked for, and there is none -/
  | rejected (ds : Diagnostics)
  | failure (e : CheckFailure)

def Request.answer : Request → Except CheckFailure (Verdict Ty) → Answer
  | _, .error e => .failure e
  | .verdict, .ok v => .verdict v
  | .type, .ok (.ok τ) => .type τ
  | .type, .ok (.error ds) => .rejected ds

/-- A call of a checker. -/
structure Checker.Call where
  request : Request
  host : Host
  term : Term
  given : Given

/-- The counters of a checker's runs. Each run has a cell of its own and goes on writing to it. The
checker keeps hold of a cell, not of what is in it at the time. -/
structure Memory where
  cells : List Stats
  kept : Option Nat

namespace Memory

def fresh : Memory := ⟨[], none⟩

def forget (m : Memory) : Memory := { m with kept := none }

def write (m : Memory) (cell : Nat) (stats : Stats) : Memory :=
  { m with cells := m.cells.set cell stats }

def record (m : Memory) (cell : Nat) : Memory := { m with kept := some cell }

/-- The memory after a run, which takes a new cell and hands it over to be recorded at each
visit. -/
def afterRun (m : Memory) (run : Report Ty) : Memory :=
  let cell := m.cells.length
  let m : Memory := { m with cells := m.cells ++ [.zero] }
  let m := run.seen.foldl (fun m stats => (m.write cell stats).record cell) m
  m.write cell run.stats

/-- The counters in the cell that is kept. -/
def lastStats (m : Memory) : Option Stats := m.kept.bind fun cell => m.cells[cell]?

end Memory

/-- The counters that a new checker remembers of the check. -/
def CheckReport.lastStats (r : CheckReport) : Option Stats :=
  r.run.bind fun run => (Memory.fresh.afterRun run).lastStats

/-- A checker in use. -/
structure CheckerState where
  checker : Checker
  memory : Memory

namespace CheckerState

def initial (c : Checker) : CheckerState := ⟨c, .fresh⟩

/-- The counters of the last check, if the checker was visited in its course. -/
def lastStats (s : CheckerState) : Option Stats := s.memory.lastStats

/-- One check. What was kept is forgotten at the start. -/
def check (s : CheckerState) (host : Host) (t : Term) (given : Given) :
    CheckReport × CheckerState :=
  let s := { s with memory := s.memory.forget }
  let report := s.checker.check host t given
  match report.run with
  | some run => (report, { s with memory := s.memory.afterRun run })
  | none => (report, s)

def call (s : CheckerState) (call : Checker.Call) : Answer × CheckerState :=
  let (report, s) := s.check call.host call.term call.given
  (call.request.answer report.outcome, s)

/-- Calls one after the other. Each has its answer, and the counters that the checker remembers
after it. -/
def calls (s : CheckerState) : List Checker.Call → List (Answer × Option Stats)
  | [] => []
  | call :: rest =>
    let (answer, s) := s.call call
    (answer, s.lastStats) :: s.calls rest

end CheckerState

end ArrowLang
