import ArrowLang.Proofs.Hosts

/-!
# ArrowLang.Proofs.Lockstep

Two runs side by side.

* `Comp.Alike f A R c c'`: in environments that are related by `A`, the computations do the same
  things. Their values are related by `R`, and where the first gives a diagnostic, the second gives
  it with `f` applied to its span.
* `Frames.Alike`, `Config.Alike`: frames and configurations that are related part by part. Each
  frame has a relation of its own between the environments it stands in.

`Config.Alike.step` says that configurations stay alike through one step of the machine, which is
the same step on both sides. So two runs stay alike up to their ends under either host.
-/

namespace ArrowLang

/-! ## Diagnostics with other spans -/

def Diagnostic.mapSpan (f : Span → Span) (d : Diagnostic) : Diagnostic :=
  { d with span := f d.span }

@[simp] theorem Diagnostic.mapSpan_ofCode (f : Span → Span) (code : Code) (span : Span)
    (detail : Option String) :
    (ofCode code span detail).mapSpan f = ofCode code (f span) detail := by
  cases detail <;> rfl

def Diagnostics.mapSpans (f : Span → Span) (ds : Diagnostics) : Diagnostics :=
  ⟨ds.first.mapSpan f, ds.rest.map (Diagnostic.mapSpan f)⟩

theorem Diagnostics.mapSpans_id (ds : Diagnostics) : ds.mapSpans (fun s => s) = ds := by
  have hid : Diagnostic.mapSpan (fun s => s) = id := rfl
  simp [mapSpans, hid]

/-- The verdict with `f` applied to the span of each diagnostic. -/
def Verdict.mapSpans {α : Type} (f : Span → Span) : Verdict α → Verdict α
  | .ok a => .ok a
  | .error ds => .error (ds.mapSpans f)

theorem Verdict.mapSpans_id {α : Type} (v : Verdict α) : v.mapSpans (fun s => s) = v := by
  cases v with
  | ok a => rfl
  | error ds => rw [mapSpans, Diagnostics.mapSpans_id]

/-! ## Computations, frames and configurations that are alike -/

variable {E ω : Type}

inductive Comp.Alike (f : Span → Span) :
    {α : Type} → (E → E → Prop) → (α → α → Prop) → Comp E α → Comp E α → Prop where
  | pure {α : Type} {A : E → E → Prop} {R : α → α → Prop} {a a' : α} :
      R a a' → Alike f A R (.pure a) (.pure a')
  | fail {α : Type} {A : E → E → Prop} {R : α → α → Prop} {d : Diagnostic} :
      Alike f A R (.fail d) (.fail (d.mapSpan f))
  | ask {A R : E → E → Prop} : (∀ e e', A e e' → R e e') → Alike f A R .ask .ask
  | within {α : Type} {A B : E → E → Prop} {R : α → α → Prop} {modify modify' : E → E}
      {c c' : Comp E α} : (∀ e e', A e e' → B (modify e) (modify' e')) → Alike f B R c c' →
      Alike f A R (.within modify c) (.within modify' c')
  | bind {α β : Type} {A : E → E → Prop} {R : α → α → Prop} {S : β → β → Prop} {c c' : Comp E α}
      {k k' : α → Comp E β} : Alike f A R c c' →
      (∀ a a', R a a' → Alike f A S (k a) (k' a')) → Alike f A S (.bind c k) (.bind c' k')
  | suspend {α : Type} {A : E → E → Prop} {R : α → α → Prop} {c c' : Comp E α} :
      Alike f A R c c' → Alike f A R (.suspend c) (.suspend c')
  | stray {α : Type} {A : E → E → Prop} {R : α → α → Prop} {shown : String} :
      Alike f A R (.stray shown) (.stray shown)

inductive Frames.Alike (f : Span → Span) (Ω : ω → ω → Prop) :
    {α : Type} → (E → E → Prop) → (α → α → Prop) → Frames E α ω → Frames E α ω → Prop where
  | done {A : E → E → Prop} : Alike f Ω A Ω .done .done
  | next {α β : Type} {A : E → E → Prop} {R : α → α → Prop} {S : β → β → Prop}
      {k k' : α → Comp E β} {rest rest' : Frames E β ω} :
      (∀ a a', R a a' → Comp.Alike f A S (k a) (k' a')) → Alike f Ω A S rest rest' →
      Alike f Ω A R (.next k rest) (.next k' rest')
  | restore {α : Type} {A B : E → E → Prop} {R : α → α → Prop} {env env' : E}
      {rest rest' : Frames E α ω} :
      B env env' → Alike f Ω B R rest rest' →
      Alike f Ω A R (.restore env rest) (.restore env' rest')

inductive Config.Alike (f : Span → Span) (Ω : ω → ω → Prop) : Config E ω → Config E ω → Prop where
  | mk {α : Type} {A : E → E → Prop} {R : α → α → Prop} {c c' : Comp E α} {env env' : E}
      {frames frames' : Frames E α ω} {depth : Nat} {stats : Stats} :
      A env env' → Comp.Alike f A R c c' → Frames.Alike f Ω A R frames frames' →
      Alike f Ω ⟨c, env, frames, depth, stats⟩ ⟨c', env', frames', depth, stats⟩

inductive Outcome.Alike (f : Span → Span) (Ω : ω → ω → Prop) : Outcome ω → Outcome ω → Prop where
  | value {a a' : ω} : Ω a a' → Alike f Ω (.ok (.ok a)) (.ok (.ok a'))
  | rejected {ds : Diagnostics} : Alike f Ω (.ok (.error ds)) (.ok (.error (ds.mapSpans f)))
  | fault {x : Fault} : Alike f Ω (.error x) (.error x)

inductive Step.Alike (f : Span → Span) (Ω : ω → ω → Prop) : Step E ω → Step E ω → Prop where
  | next {c c' : Config E ω} : Config.Alike f Ω c c' → Alike f Ω (.next c) (.next c')
  | boundary {c c' : Config E ω} : Config.Alike f Ω c c' → Alike f Ω (.boundary c) (.boundary c')
  | ended {o o' : Outcome ω} {stats : Stats} :
      Outcome.Alike f Ω o o' → Alike f Ω (.ended o stats) (.ended o' stats)

variable {f : Span → Span} {Ω : ω → ω → Prop}

/-! ## Composite computations -/

namespace Comp.Alike

variable {α β : Type} {A B : E → E → Prop} {R : α → α → Prop} {S : β → β → Prop}

/-- Computations that are alike in some environments are alike in fewer. -/
theorem mono {c c' : Comp E α} (h : Alike f A R c c') (hAB : ∀ e e', B e e' → A e e') :
    Alike f B R c c' := by
  induction h generalizing B with
  | pure hr => exact .pure hr
  | fail => exact .fail
  | ask hr => exact .ask fun e e' he => hr e e' (hAB e e' he)
  | within hm hc _ => exact .within (fun e e' he => hm e e' (hAB e e' he)) hc
  | bind _ _ ihc ihk => exact .bind (ihc hAB) fun a a' ha => ihk a a' ha hAB
  | suspend _ ih => exact .suspend (ih hAB)
  | stray => exact .stray

theorem asks {g g' : E → α} (h : ∀ e e', A e e' → R (g e) (g' e')) :
    Alike f A R (.asks g) (.asks g') :=
  .bind (.ask fun _ _ he => he) fun e e' he => .pure (h e e' he)

theorem map {c c' : Comp E α} {g g' : α → β} (hc : Alike f A R c c')
    (hg : ∀ a a', R a a' → S (g a) (g' a')) : Alike f A S (.map g c) (.map g' c') :=
  .bind hc fun a a' ha => .pure (hg a a' ha)

theorem andThen {c c' : Comp E α} {d d' : Comp E β} (hc : Alike f A R c c')
    (hd : Alike f A S d d') : Alike f A S (.andThen c d) (.andThen c' d') :=
  .bind hc fun _ _ _ => hd

/-- Computations whose values agree under `g` one by one are run in sequence. -/
theorem sequence_zip {γ : Type} {g : α → γ} {cs cs' : List (Comp E α)}
    (hl : cs.length = cs'.length)
    (h : ∀ x ∈ cs.zip cs', Alike f A (fun a a' => g a = g a') x.1 x.2) :
    Alike f A (fun as as' => as.map g = as'.map g) (.sequence cs) (.sequence cs') := by
  have honto (seen seen' : List α) (hseen : seen.map g = seen'.map g) :
      Alike f A (fun as as' => as.map g = as'.map g) (collectOnto id seen cs)
        (collectOnto id seen' cs') := by
    induction cs generalizing cs' seen seen' with
    | nil =>
      cases cs' with
      | nil => exact .pure (by simp [List.map_reverse, hseen])
      | cons c' cs' => simp at hl
    | cons c cs ih =>
      cases cs' with
      | nil => simp at hl
      | cons c' cs' =>
        rw [List.zip_cons_cons, List.forall_mem_cons] at h
        refine .bind h.1 fun a a' ha => ih (by simpa using hl) h.2 (a :: seen) (a' :: seen') ?_
        rw [List.map_cons, List.map_cons, ha, hseen]
  exact honto [] [] rfl

end Comp.Alike

/-! ## One step -/

theorem Frames.Alike.resume {α : Type} {A : E → E → Prop} {R : α → α → Prop}
    {frames frames' : Frames E α ω} (h : Alike f Ω A R frames frames') :
    ∀ (a a' : α) (env env' : E) (depth : Nat) (stats : Stats), R a a' → A env env' →
      Step.Alike f Ω (Config.resume a env frames depth stats)
        (Config.resume a' env' frames' depth stats) := by
  induction h with
  | done =>
    intro a a' env env' depth stats ha _
    exact .ended (.value ha)
  | next hk hrest _ =>
    intro a a' env env' depth stats ha he
    exact .next (.mk he (hk a a' ha) hrest)
  | restore he' _ ih =>
    intro a a' env env' depth stats ha _
    exact ih a a' _ _ (depth - 1) stats ha he'

theorem Config.Alike.step {c c' : Config E ω} (h : Alike f Ω c c') :
    Step.Alike f Ω c.step c'.step := by
  obtain ⟨he, hc, hf⟩ := h
  cases hc with
  | pure ha => exact hf.resume _ _ _ _ _ _ ha he
  | fail => exact .ended .rejected
  | ask hr => exact hf.resume _ _ _ _ _ _ (hr _ _ he) he
  | within hm hc =>
    -- the frame keeps the relation between the environments outside of the scope
    exact .next (.mk (hm _ _ he) hc (.restore he hf))
  | bind hc hk => exact .next (.mk he hc (.next hk hf))
  | suspend hc => exact .boundary (.mk he hc hf)
  | stray => exact .ended .fault

theorem Config.Alike.stats_eq {c c' : Config E ω} (h : Alike f Ω c c') : c.stats = c'.stats := by
  cases h
  rfl

/-- What holds of two machines that end together, and of two that go on together if it holds of what
they go on with, holds of all that are alike. The induction is on the steps still to go. -/
theorem Config.Alike.bySteps {motive : (c c' : Config E ω) → Alike f Ω c c' → Prop}
    (next : ∀ {c c' d d'} (h : Alike f Ω c c') (hd : Alike f Ω d d'), c.step = .next d →
      c'.step = .next d' → motive d d' hd → motive c c' h)
    (boundary : ∀ {c c' d d'} (h : Alike f Ω c c') (hd : Alike f Ω d d'), c.step = .boundary d →
      c'.step = .boundary d' → motive d d' hd → motive c c' h)
    (ended : ∀ {c c' o o' stats} (h : Alike f Ω c c'), c.step = .ended o stats →
      c'.step = .ended o' stats → Outcome.Alike f Ω o o' → motive c c' h)
    {c c' : Config E ω} (h : Alike f Ω c c') : motive c c' h := by
  induction hn : c.remaining using Nat.strongRecOn generalizing c c' with
  | ind n ih =>
    subst hn
    have hstep := h.step
    generalize hs : c.step = s at hstep
    generalize hs' : c'.step = s' at hstep
    cases hstep with
    | next hd => exact next h hd hs hs' (ih _ (remaining_lt_of_next hs) hd rfl)
    | boundary hd => exact boundary h hd hs hs' (ih _ (remaining_lt_of_boundary hs) hd rfl)
    | ended ho => exact ended h hs hs' ho

/-! ## Whole runs -/

structure Report.Alike (f : Span → Span) (Ω : ω → ω → Prop) (r r' : Report ω) : Prop where
  outcome : Outcome.Alike f Ω r.outcome r'.outcome
  stats : r.stats = r'.stats
  seen : r.seen = r'.seen

namespace Config

theorem Alike.run {c c' : Config E ω} (h : Alike f Ω c c') (interval : Interval)
    (observed : Bool) :
    ∀ seen, Report.Alike f Ω (c.run interval observed seen) (c'.run interval observed seen) := by
  induction h using Alike.bySteps with
  | next _ _ hs hs' ih =>
    intro seen
    rw [run_next hs, run_next hs']
    exact ih seen
  | boundary _ hd hs hs' ih =>
    intro seen
    rw [run_boundary hs, run_boundary hs', hd.stats_eq]
    exact ih _
  | ended _ hs hs' ho =>
    intro seen
    rw [run_ended hs, run_ended hs']
    exact ⟨ho, rfl, rfl⟩

theorem Alike.start {c c' : Config E ω} (h : Alike f Ω c c') (interval : Interval)
    (observed : Bool) :
    ∀ seen hops, Report.Alike f Ω ((c.start interval observed seen).drain hops).1
        ((c'.start interval observed seen).drain hops).1 ∧
      ((c.start interval observed seen).drain hops).2 =
        ((c'.start interval observed seen).drain hops).2 := by
  induction h using Alike.bySteps with
  | next _ _ hs hs' ih =>
    intro seen hops
    rw [start_next hs, start_next hs']
    exact ih seen hops
  | boundary _ hd hs hs' ih =>
    intro seen hops
    rw [start_boundary hs, start_boundary hs', hd.stats_eq]
    split
    · exact ih _ (hops + 1)
    · exact ih seen hops
  | ended _ hs hs' ho =>
    intro seen hops
    rw [start_ended hs, start_ended hs']
    exact ⟨⟨ho, rfl, rfl⟩, rfl⟩

end Config

/-- Computations that are alike leave alike reports behind and hand control back as often. -/
theorem Comp.Alike.hostRun {A : E → E → Prop} {c c' : Comp E ω} (h : Alike f A Ω c c')
    {env env' : E} (he : A env env') (host : Host) (interval : Interval) (observed : Bool) :
    Report.Alike f Ω (host.run interval observed c env).1 (host.run interval observed c' env').1 ∧
      (host.run interval observed c env).2 = (host.run interval observed c' env').2 := by
  have hc : Config.Alike f Ω (.initial c env) (.initial c' env') := .mk he h .done
  cases host with
  | direct => exact ⟨hc.run interval observed [], rfl⟩
  | session => exact hc.start interval observed [] 0

/-! ## Runs with equal values -/

def Report.mapSpans (f : Span → Span) (r : Report ω) : Report ω :=
  { r with outcome := r.outcome.map (Verdict.mapSpans f) }

theorem Report.mapSpans_id (r : Report ω) : r.mapSpans (fun s => s) = r := by
  obtain ⟨outcome, stats, seen⟩ := r
  cases outcome with
  | error x => rfl
  | ok v => simp only [mapSpans, Except.map, Verdict.mapSpans_id]

theorem Report.Alike.eq_mapSpans {r r' : Report ω} (h : Alike f Eq r r') : r' = r.mapSpans f := by
  obtain ⟨outcome, stats, seen⟩ := r
  obtain ⟨outcome', stats', seen'⟩ := r'
  obtain ⟨ho, rfl, rfl⟩ := h
  cases ho with
  | value ha => cases ha; rfl
  | rejected => rfl
  | fault => rfl

theorem Comp.Alike.hostRun_eq {A : E → E → Prop} {c c' : Comp E ω} (h : Alike f A Eq c c')
    {env env' : E} (he : A env env') (host : Host) (interval : Interval) (observed : Bool) :
    host.run interval observed c' env' =
      ((host.run interval observed c env).1.mapSpans f,
        (host.run interval observed c env).2) := by
  obtain ⟨hr, hh⟩ := h.hostRun he host interval observed
  rw [← hr.eq_mapSpans, hh]

end ArrowLang
