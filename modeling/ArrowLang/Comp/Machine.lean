import ArrowLang.Comp
import ArrowLang.Verdict

/-!
# ArrowLang.Comp.Machine

A machine that runs computations one step at a time and keeps what is left to do on a stack of its
own, so that computations may nest to any depth.

* `Frames`: the stack. A frame waits for a value, or restores an environment.
* `Config`: what runs now, in which environment, under which frames, and the counters so far.
* `Config.step`: one step. It goes on, goes on across a boundary where control may be handed back,
  or ends the run.
* `Config.remaining`: the number of steps still to go, which every step lowers by one.
-/

namespace ArrowLang

/-- Frames that turn a value of type `α` into the final one, of type `ω`. -/
inductive Frames (E : Type) : Type → Type → Type 1 where
  | done {ω : Type} : Frames E ω ω
  | next {α β ω : Type} (k : α → Comp E β) (rest : Frames E β ω) : Frames E α ω
  | restore {α ω : Type} (env : E) (rest : Frames E α ω) : Frames E α ω

/-- What a run ends with. -/
abbrev Outcome (ω : Type) := Except Fault (Verdict ω)

def Halt.outcome {ω : Type} : Halt → Outcome ω
  | .fault f => .error f
  | .rejected d => .ok (.error (.single d))

/-- The outcome that a computation's meaning stands for. -/
def Outcome.ofEval {ω : Type} : Except Halt ω → Outcome ω
  | .ok a => .ok (.ok a)
  | .error h => h.outcome

structure Config (E ω : Type) where
  {α : Type}
  current : Comp E α
  env : E
  frames : Frames E α ω
  /-- the number of frames -/
  depth : Nat
  stats : Stats

inductive Step (E ω : Type) where
  | next (c : Config E ω)
  /-- goes on after a place where control may be handed back -/
  | boundary (c : Config E ω)
  | ended (outcome : Outcome ω) (stats : Stats)

namespace Stats

def zero : Stats := ⟨0, 0, 0⟩

/-- One more step, after which `depth` frames stand open. -/
def tick (s : Stats) (depth : Nat) : Stats :=
  ⟨s.steps + 1, s.yields, max s.maxStack depth⟩

/-- One more step, and with it one more boundary. -/
def tickBoundary (s : Stats) : Stats := ⟨s.steps + 1, s.yields + 1, s.maxStack⟩

end Stats

namespace Config

variable {E ω : Type}

def initial (c : Comp E ω) (env : E) : Config E ω := ⟨c, env, .done, 0, .zero⟩

/-- Hands the value `a` to the frames: environments are restored up to the first frame that goes
on with the value. -/
def resume : {α : Type} → α → E → Frames E α ω → Nat → Stats → Step E ω
  | _, a, _, .done, depth, stats => .ended (.ok (.ok a)) (stats.tick depth)
  | _, a, env, .next k rest, depth, stats =>
    .next ⟨k a, env, rest, depth - 1, stats.tick (depth - 1)⟩
  | _, a, _, .restore env rest, depth, stats => resume a env rest (depth - 1) stats

def step : Config E ω → Step E ω
  | ⟨.pure a, env, frames, depth, stats⟩ => resume a env frames depth stats
  | ⟨.fail d, _, _, depth, stats⟩ => .ended (Verdict.reject [d]) (stats.tick depth)
  | ⟨.ask, env, frames, depth, stats⟩ => resume env env frames depth stats
  | ⟨.within modify inner, env, frames, depth, stats⟩ =>
    .next ⟨inner, modify env, .restore env frames, depth + 1, stats.tick (depth + 1)⟩
  | ⟨.bind inner k, env, frames, depth, stats⟩ =>
    .next ⟨inner, env, .next k frames, depth + 1, stats.tick (depth + 1)⟩
  | ⟨.suspend inner, env, frames, depth, stats⟩ =>
    .boundary ⟨inner, env, frames, depth, stats.tickBoundary⟩
  | ⟨.stray shown, _, _, _, stats⟩ =>
    .ended (.error (.notComputation shown)) { stats with steps := stats.steps + 1 }

end Config

/-- The steps that the frames take once they are handed the value `a`. -/
def Frames.steps {E : Type} : {α ω : Type} → Frames E α ω → α → E → Nat
  | _, _, .done, _, _ => 0
  | _, _, .next k rest, a, env =>
    (k a).steps env + Comp.after ((k a).eval env) fun b => rest.steps b env
  | _, _, .restore env rest, a, _ => rest.steps a env

namespace Config

variable {E ω : Type}

def remaining (c : Config E ω) : Nat :=
  c.current.steps c.env + Comp.after (c.current.eval c.env) fun a => c.frames.steps a c.env

theorem resume_steps {α : Type} (a : α) (env : E) (frames : Frames E α ω) (depth : Nat)
    (stats : Stats) {c : Config E ω}
    (h : resume a env frames depth stats = .next c ∨
      resume a env frames depth stats = .boundary c) :
    c.remaining = frames.steps a env := by
  induction frames generalizing env depth with
  | done => simp [resume] at h
  | next k rest =>
    simp only [resume, Step.next.injEq, reduceCtorEq, or_false] at h
    subst h
    simp only [remaining, Frames.steps]
  | restore env' rest ih =>
    simp only [resume] at h
    exact ih a env' (depth - 1) h

/-- Every step that goes on leaves one step less to go. -/
theorem remaining_step {c c' : Config E ω} (h : c.step = .next c' ∨ c.step = .boundary c') :
    c.remaining = c'.remaining + 1 := by
  obtain ⟨current, env, frames, depth, stats⟩ := c
  cases current with
  | pure a =>
    rw [resume_steps a env frames depth stats h]
    simp only [remaining, Comp.eval, Comp.steps, Comp.after_ok]; omega
  | fail d => simp [step] at h
  | ask =>
    rw [resume_steps env env frames depth stats h]
    simp only [remaining, Comp.eval, Comp.steps, Comp.after_ok]; omega
  | within modify inner =>
    simp only [step, Step.next.injEq, reduceCtorEq, or_false] at h
    subst h
    simp only [remaining, Comp.eval, Comp.steps, Frames.steps]; omega
  | bind inner k =>
    simp only [step, Step.next.injEq, reduceCtorEq, or_false] at h
    subst h
    simp only [remaining, Comp.eval, Comp.steps, Frames.steps]
    cases inner.eval env with
    | error e => rfl
    | ok a => simp only [Comp.after_ok]; omega
  | suspend inner =>
    simp only [step, Step.boundary.injEq, reduceCtorEq, false_or] at h
    subst h
    simp only [remaining, Comp.eval, Comp.steps]; omega
  | stray shown => simp [step] at h

theorem remaining_lt_of_next {c c' : Config E ω} (h : c.step = .next c') :
    c'.remaining < c.remaining := by
  rw [remaining_step (.inl h)]; omega

theorem remaining_lt_of_boundary {c c' : Config E ω} (h : c.step = .boundary c') :
    c'.remaining < c.remaining := by
  rw [remaining_step (.inr h)]; omega

end Config

end ArrowLang
