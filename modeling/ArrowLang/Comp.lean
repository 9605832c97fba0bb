import ArrowLang.Diagnostic

/-!
# ArrowLang.Comp

Suspended computations. A computation reads an environment and ends with a value or with a
diagnostic. Nothing runs while a computation is built.

* `Comp`: the computations.
* `asks`, `map`, `andThen`, `collect`, `sequence`: computations built from these.
* `Comp.eval`: what a computation ends with, and `Comp.steps`, `Comp.yields`, `Comp.maxStack`: what
  running it takes, each by recursion on the computation.
-/

namespace ArrowLang

/-- Computations over environments `E` that end with a value of type `α`. -/
inductive Comp (E : Type) : Type → Type 1 where
  /-- ends with `value` -/
  | pure {α : Type} (value : α) : Comp E α
  /-- ends with the diagnostic `d` -/
  | fail {α : Type} (d : Diagnostic) : Comp E α
  /-- ends with the environment -/
  | ask : Comp E E
  /-- runs `inner` in the environment changed by `modify` -/
  | within {α : Type} (modify : E → E) (inner : Comp E α) : Comp E α
  /-- runs `inner`, then the computation that `next` gives for its value -/
  | bind {α β : Type} (inner : Comp E α) (next : α → Comp E β) : Comp E β
  /-- hands control back to the host before `inner` runs -/
  | suspend {α : Type} (inner : Comp E α) : Comp E α
  /-- stands for a value that is no computation and is shown as `shown` -/
  | stray {α : Type} (shown : String) : Comp E α

/-- How a computation ends other than with a value. -/
inductive Halt where
  | fault (f : Fault)
  | rejected (d : Diagnostic)

/-- The counters of a run. -/
structure Stats where
  steps : Nat
  yields : Nat
  maxStack : Nat
  deriving DecidableEq

namespace Comp

variable {E α β : Type}

/-- Ends with `f` of the environment. -/
def asks (f : E → α) : Comp E α := .bind .ask fun env => .pure (f env)

def map (f : α → β) (c : Comp E α) : Comp E β := .bind c fun a => .pure (f a)

/-- Runs `c` for its failures only, then `d`. -/
def andThen (c : Comp E α) (d : Comp E β) : Comp E β := .bind c fun _ => d

/-- Runs the computations from left to right and ends with `finish` of their values, which are
kept in `seen`, the newest first. -/
def collectOnto (finish : List α → β) (seen : List α) : List (Comp E α) → Comp E β
  | [] => .pure (finish seen.reverse)
  | c :: cs => .bind c fun a => collectOnto finish (a :: seen) cs

/-- Runs the computations from left to right and ends with `finish` of their values. The first
failure ends the run. -/
def collect (finish : List α → β) (cs : List (Comp E α)) : Comp E β := collectOnto finish [] cs

/-- Runs the computations from left to right and ends with the list of their values. -/
def sequence (cs : List (Comp E α)) : Comp E (List α) := collect id cs

/-! ## Meaning and cost -/

/-- What `c` ends with in the environment `env`. -/
def eval : {α : Type} → Comp E α → E → Except Halt α
  | _, .pure a, _ => .ok a
  | _, .fail d, _ => .error (.rejected d)
  | _, .ask, env => .ok env
  | _, .within modify inner, env => inner.eval (modify env)
  | _, .bind inner next, env =>
    match inner.eval env with
    | .ok a => (next a).eval env
    | .error h => .error h
  | _, .suspend inner, env => inner.eval env
  | _, .stray shown, _ => .error (.fault (.notComputation shown))

/-- The amount `f` of a value; a run that ended without a value has nothing more to do. -/
def after (r : Except Halt α) (f : α → Nat) : Nat :=
  match r with
  | .ok a => f a
  | .error _ => 0

@[simp] theorem after_ok (a : α) (f : α → Nat) : after (.ok a) f = f a := rfl

@[simp] theorem after_error (h : Halt) (f : α → Nat) : after (.error h) f = 0 := rfl

/-- How many steps `c` takes: one for each part that is executed. -/
def steps : {α : Type} → Comp E α → E → Nat
  | _, .pure _, _ => 1
  | _, .fail _, _ => 1
  | _, .ask, _ => 1
  | _, .within modify inner, env => inner.steps (modify env) + 1
  | _, .bind inner next, env =>
    inner.steps env + after (inner.eval env) (fun a => (next a).steps env) + 1
  | _, .suspend inner, env => inner.steps env + 1
  | _, .stray _, _ => 1

/-- How often `c` hands control back. -/
def yields : {α : Type} → Comp E α → E → Nat
  | _, .pure _, _ => 0
  | _, .fail _, _ => 0
  | _, .ask, _ => 0
  | _, .within modify inner, env => inner.yields (modify env)
  | _, .bind inner next, env =>
    inner.yields env + after (inner.eval env) (fun a => (next a).yields env)
  | _, .suspend inner, env => inner.yields env + 1
  | _, .stray _, _ => 0

/-- The greatest number of frames that stand open while `c` runs. -/
def maxStack : {α : Type} → Comp E α → E → Nat
  | _, .pure _, _ => 0
  | _, .fail _, _ => 0
  | _, .ask, _ => 0
  | _, .within modify inner, env => inner.maxStack (modify env) + 1
  | _, .bind inner next, env =>
    max (inner.maxStack env + 1) (after (inner.eval env) fun a => (next a).maxStack env)
  | _, .suspend inner, env => inner.maxStack env
  | _, .stray _, _ => 0

end Comp

end ArrowLang
