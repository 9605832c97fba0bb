import ArrowLang.Proofs.Evaluation
import ArrowLang.Proofs.Machine

/-!
# ArrowLang.Proofs.Entries

What a run enters across its boundaries.

* `Comp.scenes`: the computations that a run enters, with the environments that they are entered
  in, by recursion on the computation, and `Comp.entries`: those computations alone.
* `Config.Showing c l last`: from `c` the machine goes through the scenes of `l`, in order, and
  comes to the step `last`.
* `Config.Shows c l`: the run from `c` goes through the scenes of `l` and no others, and
  `Config.Enters c l`: it enters the computations of `l` and no others.

`Comp.showing` says of a computation under arbitrary frames that the machine goes through its scenes
on the way to `Config.arrive`. `Comp.shows` and `Comp.enters` are the case of no frames.
-/

namespace ArrowLang

/-- A computation to enter, with the type of its values. -/
abbrev Entry (E : Type) := Sigma (Comp E)

/-- A computation to enter, with the environment to enter it in. -/
abbrev Scene (E : Type) := Entry E × E

namespace Comp

variable {E α β γ : Type}

def scenes : {α : Type} → Comp E α → E → List (Scene E)
  | _, .pure _, _ => []
  | _, .fail _, _ => []
  | _, .ask, _ => []
  | _, .within modify inner, env => inner.scenes (modify env)
  | _, .bind inner next, env =>
    match inner.eval env with
    | .ok a => inner.scenes env ++ (next a).scenes env
    | .error _ => inner.scenes env
  | _, .suspend inner, env => (⟨_, inner⟩, env) :: inner.scenes env
  | _, .stray _, _ => []

theorem scenes_bind_ok {c : Comp E α} {next : α → Comp E β} {env : E} {a : α}
    (h : c.eval env = .ok a) :
    (bind c next).scenes env = c.scenes env ++ (next a).scenes env := by
  rw [scenes, h]

theorem scenes_bind_error {c : Comp E α} {next : α → Comp E β} {env : E} {h : Halt}
    (he : c.eval env = .error h) : (bind c next).scenes env = c.scenes env := by
  rw [scenes, he]

/-- Each boundary is the way into one computation. -/
theorem length_scenes (c : Comp E α) (env : E) : (c.scenes env).length = c.yields env := by
  induction c generalizing env with
  | pure a => rfl
  | fail d => rfl
  | ask => rfl
  | stray shown => rfl
  | within modify inner ih => exact ih (modify env)
  | suspend inner ih => simp only [scenes, yields, List.length_cons, ih]
  | bind inner next ihi ihn =>
    cases hi : inner.eval env with
    | error h => simp only [scenes_bind_error hi, yields, hi, after_error, ihi, Nat.add_zero]
    | ok a => simp only [scenes_bind_ok hi, yields, hi, after_ok, List.length_append, ihi, ihn]

def entries (c : Comp E α) (env : E) : List (Entry E) := (c.scenes env).map Prod.fst

theorem length_entries (c : Comp E α) (env : E) : (c.entries env).length = c.yields env := by
  rw [entries, List.length_map, length_scenes]

/-- Where a continuation is put does not show. -/
theorem scenes_bind_bind (c : Comp E α) (next : α → Comp E β) (last : β → Comp E γ) (env : E) :
    (bind (bind c next) last).scenes env = (bind c fun a => bind (next a) last).scenes env := by
  cases hc : c.eval env with
  | error h =>
    have hb : (bind c next).eval env = .error h := eval_bind_error.mpr (.inl hc)
    rw [scenes_bind_error hb, scenes_bind_error hc, scenes_bind_error hc]
  | ok a =>
    cases hn : (next a).eval env with
    | error h =>
      have hb : (bind c next).eval env = .error h := eval_bind_error.mpr (.inr ⟨a, hc, hn⟩)
      rw [scenes_bind_error hb, scenes_bind_ok hc, scenes_bind_ok hc, scenes_bind_error hn]
    | ok b =>
      have hb : (bind c next).eval env = .ok b := eval_bind_ok.mpr ⟨a, hc, hn⟩
      rw [scenes_bind_ok hb, scenes_bind_ok hc, scenes_bind_ok hc, scenes_bind_ok hn,
        List.append_assoc]

theorem eval_bind_bind (c : Comp E α) (next : α → Comp E β) (last : β → Comp E γ) (env : E) :
    (bind (bind c next) last).eval env = (bind c fun a => bind (next a) last).eval env := by
  simp only [eval]
  cases c.eval env <;> rfl

end Comp

/-! ## The machine -/

namespace Config

variable {E ω : Type}

inductive Showing : Config E ω → List (Scene E) → Step E ω → Prop where
  | now {c : Config E ω} {last : Step E ω} : c.step = last → Showing c [] last
  | next {c c' : Config E ω} {l : List (Scene E)} {last : Step E ω} :
      c.step = .next c' → Showing c' l last → Showing c l last
  | boundary {c c' : Config E ω} {l : List (Scene E)} {last : Step E ω} :
      c.step = .boundary c' → Showing c' l last →
      Showing c ((⟨c'.α, c'.current⟩, c'.env) :: l) last

theorem Showing.trans {c c' : Config E ω} {l l' : List (Scene E)} {step last : Step E ω}
    (h : Showing c l step) (hs : step = .next c') (h' : Showing c' l' last) :
    Showing c (l ++ l') last := by
  induction h with
  | now hc => exact .next (hc.trans hs) h'
  | next hc _ ih => exact .next hc (ih hs)
  | boundary hc _ ih => exact .boundary hc (ih hs)

/-- The run from `c` goes through the scenes of `l`, in order, and then ends. -/
def Shows (c : Config E ω) (l : List (Scene E)) : Prop :=
  ∃ outcome stats, c.Showing l (.ended outcome stats)

/-- The run from `c` enters the computations of `l`, in order and in some environments, and then
ends. -/
def Enters (c : Config E ω) (l : List (Entry E)) : Prop :=
  ∃ scenes, c.Shows scenes ∧ scenes.map Prod.fst = l

/-- A run is one sequence of steps, so there is one list of its scenes. -/
theorem Shows.unique {c : Config E ω} {l l' : List (Scene E)} (h : c.Shows l)
    (h' : c.Shows l') : l = l' := by
  obtain ⟨outcome, stats, h⟩ := h
  obtain ⟨outcome', stats', h'⟩ := h'
  generalize hlast : Step.ended outcome stats = last at h
  generalize hlast' : Step.ended outcome' stats' = last' at h'
  induction h generalizing l' with
  | now hc =>
    cases h' with
    | now _ => rfl
    | next hc' _ => rw [hc, ← hlast] at hc'; cases hc'
    | boundary hc' _ => rw [hc, ← hlast] at hc'; cases hc'
  | next hc _ ih =>
    cases h' with
    | now hc' => rw [hc, ← hlast'] at hc'; cases hc'
    | next hc' h' => rw [hc] at hc'; cases hc'; exact ih hlast h'
    | boundary hc' _ => rw [hc] at hc'; cases hc'
  | boundary hc _ ih =>
    cases h' with
    | now hc' => rw [hc, ← hlast'] at hc'; cases hc'
    | next hc' _ => rw [hc] at hc'; cases hc'
    | boundary hc' h' => rw [hc] at hc'; cases hc'; rw [ih hlast h']

theorem Enters.unique {c : Config E ω} {l l' : List (Entry E)} (h : c.Enters l)
    (h' : c.Enters l') : l = l' := by
  obtain ⟨scenes, hs, rfl⟩ := h
  obtain ⟨scenes', hs', rfl⟩ := h'
  rw [hs.unique hs']

end Config

namespace Comp

open ArrowLang.Config

variable {E α ω : Type}

theorem showing (c : Comp E α) :
    ∀ (env : E) (frames : Frames E α ω) (depth : Nat) (stats : Stats),
      ∃ depth' stats', Showing ⟨c, env, frames, depth, stats⟩ (c.scenes env)
        (arrive (c.eval env) env frames depth' stats') := by
  induction c with
  | pure a => intro env frames depth stats; exact ⟨depth, stats, .now rfl⟩
  | fail d => intro env frames depth stats; exact ⟨depth, stats, .now rfl⟩
  | ask => intro env frames depth stats; exact ⟨depth, stats, .now rfl⟩
  | stray shown =>
    intro env frames depth stats
    refine ⟨stats.maxStack, stats, .now ?_⟩
    simp only [step, eval, arrive, Halt.outcome, Stats.tick, Nat.max_self]
  | suspend inner ih =>
    intro env frames depth stats
    obtain ⟨depth', stats', h⟩ := ih env frames depth stats.tickBoundary
    exact ⟨depth', stats', .boundary rfl h⟩
  | within modify inner ih =>
    intro env frames depth stats
    obtain ⟨depth', stats', h⟩ :=
      ih (modify env) (.restore env frames) (depth + 1) (stats.tick (depth + 1))
    cases hi : inner.eval (modify env) with
    | error x =>
      rw [hi] at h
      exact ⟨depth', stats', by rw [eval_within, hi]; exact .next rfl h⟩
    | ok a =>
      -- the frame of the scope goes when the value is handed on
      rw [hi] at h
      exact ⟨depth' - 1, stats', by rw [eval_within, hi]; exact .next rfl h⟩
  | bind inner k ihi ihk =>
    intro env frames depth stats
    obtain ⟨depth', stats', h⟩ := ihi env (.next k frames) (depth + 1) (stats.tick (depth + 1))
    cases hi : inner.eval env with
    | error x =>
      rw [hi] at h
      have he : (bind inner k).eval env = .error x := eval_bind_error.mpr (.inl hi)
      exact ⟨depth', stats', by rw [scenes_bind_error hi, he]; exact .next rfl h⟩
    | ok a =>
      rw [hi] at h
      obtain ⟨depth'', stats'', hk⟩ :=
        ihk a env frames (depth' - 1) (stats'.tick (depth' - 1))
      have he : (bind inner k).eval env = (k a).eval env := by rw [eval, hi]
      refine ⟨depth'', stats'', ?_⟩
      rw [scenes_bind_ok hi, he]
      exact .next rfl (h.trans rfl hk)

theorem shows (c : Comp E α) (env : E) : (initial c env).Shows (c.scenes env) := by
  obtain ⟨depth, stats, h⟩ := c.showing env (.done : Frames E α α) 0 .zero
  cases hc : c.eval env with
  | ok a => rw [hc] at h; exact ⟨_, _, h⟩
  | error x => rw [hc] at h; exact ⟨_, _, h⟩

theorem enters (c : Comp E α) (env : E) : (initial c env).Enters (c.entries env) :=
  ⟨_, c.shows env, rfl⟩

end Comp

end ArrowLang
