import ArrowLang.Proofs.Entries
import ArrowLang.Proofs.FirstViolation
import ArrowLang.Proofs.Schedule

/-!
# ArrowLang.Proofs.Descent

The order in which a check goes down into a term.

* `Term.places`: all places of a term in pre-order, and `Term.LastInside t p i`: the place with the
  number `i` is the last of them inside of `p`.
* `Round env layer i l r`: the check of a node enters the children from number `i` on, in order and
  each in its scope, up to the first that fails. The scenes on the way are `l`, and `r` is the
  failure.
* `FailFast.rounds_check`: every rule makes such a round of all children.

So a check enters the nodes in pre-order, and a check that fails has entered what stands inside of
the first violation and nothing behind it: `FailFast.descends`.
-/

namespace ArrowLang

/-! ## Places in pre-order -/

namespace Path

theorem length_below (n : Nat) (as : List (List Path)) :
    (below n as).length = as.flatten.length := by
  induction as generalizing n with
  | nil => rfl
  | cons a as ih => simp only [below, List.length_append, List.length_map, List.flatten_cons, ih]

end Path

namespace Term

def places : Term → List Path :=
  recurse (fun layer _ => [] :: Path.below 0 (layer.map Child.out).children) fun _ _ => [[]]

theorem places_node (layer : Layer Term) (span : Span) :
    (node layer span).places = [] :: Path.below 0 (layer.children.map places) := by
  rw [places, recurse_node, Layer.children_map, Layer.children_map, List.map_map]
  rfl

theorem length_below_places {ts : List Term} (h : ∀ t ∈ ts, t.places.length = t.size) (n : Nat) :
    (Path.below n (ts.map places)).length = totalSize ts := by
  rw [Path.length_below, ← List.flatMap_def, length_flatMap_of_size h]

theorem length_places (t : Term) : t.places.length = t.size := by
  induction t using byChildren with
  | unknown variant span => rfl
  | node layer span ih => rw [places_node, size_node, List.length_cons, length_below_places ih]

/-- Places are counted from zero. -/
def LastInside (t : Term) (p : Path) (i : Nat) : Prop :=
  (∃ q, t.places[i]? = some (p ++ q)) ∧ ∀ j q, t.places[j]? = some (p ++ q) → j ≤ i

theorem lastInside_root {t : Term} {i : Nat} (h : i + 1 = t.size) : t.LastInside [] i := by
  have hlength := t.length_places
  have hi : i < t.places.length := by omega
  constructor
  · exact ⟨t.places[i], List.getElem?_eq_getElem hi⟩
  · intro j q hj
    obtain ⟨hj, _⟩ := List.getElem?_eq_some_iff.mp hj
    omega

/-- In front of a place in the child with number `n` stand the root and all places of the children
before it. -/
theorem LastInside.of_child {layer : Layer Term} {span : Span} {n i : Nat} {u : Term} {p : Path}
    (hu : layer.children[n]? = some u) (h : u.LastInside p i) :
    (node layer span).LastInside (n :: p) (totalSize (layer.children.take n) + i + 1) := by
  obtain ⟨⟨q, hq⟩, hlast⟩ := h
  have hbefore : (Path.below 0 ((layer.children.take n).map places)).length =
      totalSize (layer.children.take n) := length_below_places (fun t _ => t.length_places) 0
  have hchild : (u.places.map (n :: ·)).length = u.places.length := List.length_map _
  rw [LastInside, places_node, Path.below_split places hu]
  generalize totalSize (layer.children.take n) = m at hbefore ⊢
  constructor
  · obtain ⟨hi, _⟩ := List.getElem?_eq_some_iff.mp hq
    refine ⟨q, ?_⟩
    rw [List.getElem?_cons_succ, List.getElem?_append_right (by omega), hbefore,
      Nat.add_sub_cancel_left, List.getElem?_append_left (by omega), List.getElem?_map, hq]
    rfl
  · intro j q' hj
    rcases j with _ | j
    · cases hj
    · rw [List.getElem?_cons_succ] at hj
      by_cases hm : j < m
      · omega
      · rw [List.getElem?_append_right (by omega), hbefore] at hj
        by_cases hin : j - m < u.places.length
        · rw [List.getElem?_append_left (by omega), List.getElem?_map,
            Option.map_eq_some_iff] at hj
          obtain ⟨r, hr, heq⟩ := hj
          cases (List.cons.inj heq).2
          have := hlast _ _ hr
          omega
        · -- what comes behind the child is inside of a child with a greater number
          rw [List.getElem?_append_right (by omega)] at hj
          obtain ⟨k, paths, r, _, _, heq⟩ := Path.mem_below.mp (List.mem_of_getElem? hj)
          have := (List.cons.inj heq).1
          omega

end Term

namespace FailFast

open ArrowLang.Comp

/-! ## A round of the children -/

/-- What is entered for a term. -/
def entry (t : Term) : Entry Env := ⟨Ty, check t⟩

end FailFast

open FailFast in
inductive Round (env : Env) (layer : Layer Term) : Nat → List (Scene Env) → Option Halt → Prop where
  | finished {i : Nat} : layer.children.length = i → Round env layer i [] none
  | failed {i : Nat} {u : Term} {env' : Env} {h : Halt} :
      layer.children[i]? = some u → ChildScope env.lookup layer i env'.lookup →
      (check u).eval env' = .error h →
      Round env layer i ((entry u, env') :: (check u).scenes env') (some h)
  | passed {i : Nat} {u : Term} {env' : Env} {τ : Ty} {l : List (Scene Env)} {r : Option Halt} :
      layer.children[i]? = some u → ChildScope env.lookup layer i env'.lookup →
      (check u).eval env' = .ok τ → Round env layer (i + 1) l r →
      Round env layer i ((entry u, env') :: (check u).scenes env' ++ l) r

namespace FailFast

open ArrowLang.Comp

/-- The computation `c`, run in `env'`, makes a round of the children of `layer` from number `i` on,
and fails if one of them does. -/
def Rounds {α : Type} (env : Env) (layer : Layer Term) (i : Nat) (c : Comp Env α) (env' : Env) :
    Prop :=
  ∃ r, Round env layer i (c.scenes env') r ∧ ∀ h, r = some h → c.eval env' = .error h

namespace Rounds

variable {α β : Type} {env env' : Env} {layer : Layer Term} {i : Nat} {u : Term}

theorem finished {c : Comp Env α} (hi : layer.children.length = i) (hc : c.scenes env' = []) :
    Rounds env layer i c env' :=
  ⟨none, by rw [hc]; exact .finished hi, fun _ heq => by cases heq⟩

theorem congr {c c' : Comp Env α} (h : Rounds env layer i c env')
    (hscenes : c'.scenes env' = c.scenes env') (heval : c'.eval env' = c.eval env') :
    Rounds env layer i c' env' := by
  rw [Rounds, hscenes, heval]
  exact h

theorem enter {next : Ty → Comp Env α} (hu : layer.children[i]? = some u)
    (hs : ChildScope env.lookup layer i env'.lookup)
    (hnext : ∀ τ, (check u).eval env' = .ok τ → Rounds env layer (i + 1) (next τ) env') :
    Rounds env layer i (bind (suspend (check u)) next) env' := by
  cases hv : (check u).eval env' with
  | error h =>
    have hv' : (suspend (check u)).eval env' = .error h := hv
    refine ⟨some h, ?_, ?_⟩
    · rw [scenes_bind_error hv']
      exact .failed hu hs hv
    · intro h' heq
      cases heq
      exact eval_bind_error.mpr (.inl hv)
  | ok τ =>
    have hv' : (suspend (check u)).eval env' = .ok τ := hv
    obtain ⟨r, hr, hfail⟩ := hnext τ hv
    refine ⟨r, ?_, ?_⟩
    · rw [scenes_bind_ok hv']
      exact .passed hu hs hv hr
    · intro h heq
      exact eval_bind_error.mpr (.inr ⟨τ, hv, hfail h heq⟩)

theorem last (hu : layer.children[i]? = some u) (hs : ChildScope env.lookup layer i env'.lookup)
    (hi : layer.children.length = i + 1) : Rounds env layer i (suspend (check u)) env' := by
  cases hv : (check u).eval env' with
  | error h => exact ⟨some h, .failed hu hs hv, fun h' heq => by cases heq; exact hv⟩
  | ok τ =>
    refine ⟨none, ?_, fun _ heq => by cases heq⟩
    have hround := Round.passed hu hs hv (.finished hi)
    rwa [List.append_nil] at hround

theorem map {c : Comp Env α} (f : α → β) (h : Rounds env layer i c env') :
    Rounds env layer i (Comp.map f c) env' := by
  obtain ⟨r, hr, hfail⟩ := h
  refine ⟨r, ?_, fun h heq => eval_bind_error.mpr (.inl (hfail h heq))⟩
  have hscenes : (Comp.map f c).scenes env' = c.scenes env' := by
    cases hc : c.eval env' with
    | error h => exact scenes_bind_error hc
    | ok a => exact (scenes_bind_ok hc).trans (List.append_nil _)
  rw [hscenes]
  exact hr

/-- The arguments are the last children, from number `i` on. -/
theorem args {next : List Ty → Comp Env α} {before args : List Term}
    (hargs : layer.children = before ++ args) (hi : before.length = i)
    (hs : ∀ j, i ≤ j → ChildScope env.lookup layer j env'.lookup)
    (hnext : ∀ τs, (next τs).scenes env' = []) (seen : List Ty) :
    Rounds env layer i
      (bind (collectOnto id seen (args.map fun arg => suspend (check arg))) next) env' := by
  induction args generalizing i before seen with
  | nil =>
    refine finished (by rw [hargs, List.append_nil, hi]) ?_
    rw [List.map_nil, collectOnto, scenes_bind_ok rfl, hnext]
    rfl
  | cons arg args ih =>
    have hu : layer.children[i]? = some arg := by
      rw [hargs, List.getElem?_append_right (by omega), hi, Nat.sub_self]
      rfl
    have hargs' : layer.children = (before ++ [arg]) ++ args := by simp [hargs]
    have hi' : (before ++ [arg]).length = i + 1 := by simp [hi]
    have hrest (τ : Ty) := ih hargs' hi' (fun j hj => hs j (by omega)) (τ :: seen)
    exact (enter hu (hs i (Nat.le_refl i)) fun τ _ => hrest τ).congr (scenes_bind_bind _ _ _ _)
      (eval_bind_bind _ _ _ _)

end Rounds

/-! ## The rules -/

variable {env : Env}

theorem Settled.scenes {c : Check} (h : Settled c) : c.scenes env = [] := by
  cases h with
  | pure | reject => rfl

theorem rounds_check (layer : Layer Term) (span : Span) (env : Env) :
    Rounds env layer 0 (check (.node layer span)) env := by
  rw [check_node]
  cases layer with
  | bool value => exact .finished rfl rfl
  | number value => exact .finished rfl rfl
  | var name =>
    refine .finished rfl ?_
    rw [Layer.map, rule, scenes_bind_ok (eval_asks _ env), (varRule_settled _ _ _).scenes]
    rfl
  | add left right =>
    exact .enter rfl rfl fun σ _ => .enter rfl rfl fun τ _ =>
      .finished rfl (sumRule_settled _ _ σ τ).scenes
  | ite cond onTrue onFalse =>
    exact .enter rfl rfl fun γ _ => .enter rfl rfl fun σ _ => .enter rfl rfl fun τ _ =>
      .finished rfl (iteRule_settled _ _ γ σ τ).scenes
  | func params body =>
    have hs : ChildScope env.lookup (.func params body) 0
        (env.extend (paramBindings params)).lookup := by
      rw [Env.lookup_extend, paramBindings, ← Context.bindParams_eq]
      rfl
    have hbody : Rounds env (.func params body) 0 (suspend (check body))
        (env.extend (paramBindings params)) := .last rfl hs rfl
    exact .map _ hbody
  | call callee args =>
    simp only [Layer.map, rule, List.map_map, Function.comp_def]
    refine .enter rfl rfl fun φ _ => ?_
    have hargs : (Layer.call callee args).children = [callee] ++ args := rfl
    exact .args hargs rfl (fun j _ => (rfl : env.lookup = env.lookup))
      (fun τs => (callRule_settled _ _ _ φ τs).scenes) []
  | seq first rest => exact .enter rfl rfl fun σ _ => .last rfl rfl rfl
  | const name init rest =>
    refine .enter rfl rfl fun σ hσ => ?_
    have hs : ChildScope env.lookup (.const name init rest) 1 (env.extend [(name, σ)]).lookup :=
      ⟨σ, (eval_check_ok init env σ).mp hσ, Env.lookup_extend _ _⟩
    have hrest : Rounds env (.const name init rest) 1 (suspend (check rest))
        (env.extend [(name, σ)]) := .last rfl hs rfl
    exact hrest

/-! ## What a check enters -/

/-- All that there is to enter in the first `n` children. -/
def visited (layer : Layer Term) (n : Nat) : List (Entry Env) :=
  ((layer.children.take n).flatMap Term.preorder).map entry

theorem visited_all (layer : Layer Term) :
    visited layer layer.children.length = (layer.children.flatMap Term.preorder).map entry := by
  rw [visited, List.take_length]

theorem visited_succ {layer : Layer Term} {n : Nat} {u : Term}
    (hu : layer.children[n]? = some u) :
    visited layer (n + 1) = visited layer n ++ u.preorder.map entry := by
  simp [visited, List.take_add_one, hu]

theorem visited_isPrefix (layer : Layer Term) (n : Nat) :
    visited layer n <+: (layer.children.flatMap Term.preorder).map entry := by
  refine List.IsPrefix.map entry ⟨(layer.children.drop n).flatMap Term.preorder, ?_⟩
  rw [← List.flatMap_append, List.take_append_drop]

theorem length_visited (layer : Layer Term) (n : Nat) :
    (visited layer n).length = Term.totalSize (layer.children.take n) := by
  rw [visited, List.length_map, Term.length_flatMap_of_size fun t _ => t.length_preorder]

/-- A check that ends with a type has entered the whole term. -/
def Thorough (t : Term) : Prop :=
  ∀ (env : Env) (τ : Ty), (check t).eval env = .ok τ →
    entry t :: (check t).entries env = t.preorder.map entry

/-- A round passes all children, or it fails at one and has passed those in front of it. -/
theorem Round.cases {layer : Layer Term} {i : Nat} {l : List (Scene Env)} {r : Option Halt}
    (h : Round env layer i l r) (hall : ∀ u ∈ layer.children, Thorough u)
    (hb : TypedBefore env.lookup layer i) :
    (r = none ∧ TypedBefore env.lookup layer layer.children.length ∧
      visited layer i ++ l.map Prod.fst = visited layer layer.children.length) ∨
    ∃ x n u env', r = some x ∧ layer.children[n]? = some u ∧
      ChildScope env.lookup layer n env'.lookup ∧ TypedBefore env.lookup layer n ∧
      (check u).eval env' = .error x ∧
      visited layer i ++ l.map Prod.fst = visited layer n ++ entry u :: (check u).entries env' := by
  induction h with
  | finished hi =>
    subst hi
    exact .inl ⟨rfl, hb, List.append_nil _⟩
  | failed hu hs hv => exact .inr ⟨_, _, _, _, rfl, hu, hs, hb, hv, rfl⟩
  | passed hu hs hv _ ih =>
    have hτ := (eval_check_ok _ _ _).mp hv
    have hthorough := hall _ (List.mem_of_getElem? hu) _ _ hv
    have hnext := ih (hb.succ hu hs hτ)
    rw [visited_succ hu, ← hthorough] at hnext
    simpa only [List.map_append, List.map_cons, entries, List.append_assoc] using hnext

theorem thorough (t : Term) : Thorough t := by
  induction t using Term.byChildren with
  | unknown variant span => intro env τ h; cases h
  | node layer span ih =>
    intro env τ h
    obtain ⟨r, hr, hfail⟩ := rounds_check layer span env
    rcases Round.cases hr ih .zero with ⟨_, _, hl⟩ | ⟨x, _, _, _, hx, _⟩
    · rw [visited_all, ← entries] at hl
      rw [Term.preorder_node, List.map_cons, ← hl]
      rfl
    · rw [hfail x hx] at h
      cases h

/-- Children that have types do not fail. -/
theorem not_childFails {layer : Layer Term} {h : Halt}
    (hb : TypedBefore env.lookup layer layer.children.length) : ¬ ChildFails env layer h := by
  rintro ⟨i, u, env', hu, hs, _, hv⟩
  obtain ⟨hi, _⟩ := List.getElem?_eq_some_iff.mp hu
  obtain ⟨Δ, τ, hs', hτ⟩ := hb i u hi hu
  cases hs.unique hs'
  rw [(eval_check_ok u env' τ).mpr hτ] at hv
  cases hv

/-- A check that fails has entered the nodes up to the last one inside of the first violation. -/
theorem descends {t : Term} (ht : t.Known) :
    ∀ (env : Env) (d : Diagnostic), (check t).eval env = .error (.rejected d) →
      ∃ p, FirstViolation env.lookup t p d ∧ t.LastInside p ((check t).entries env).length ∧
        entry t :: (check t).entries env <+: t.preorder.map entry := by
  induction t using Term.byChildren with
  | unknown variant span => exact absurd ht Term.not_known_unknown
  | node layer span ih =>
    intro env d he
    rw [Term.known_node] at ht
    obtain ⟨r, hr, hfail⟩ := rounds_check layer span env
    have hround := Round.cases hr (fun u _ => thorough u) .zero
    rw [← entries] at hround
    rcases hround with ⟨_, hall, hl⟩ | ⟨x, n, u, env', hx, hu, hs, hb, hv, hl⟩
    · -- every child has passed, so the violation is at the root and the whole term was entered
      rcases eval_check_error he with hchild | ⟨d', hd, hviolation⟩
      · exact absurd hchild (not_childFails hall)
      · cases hd
        have hlength := congrArg List.length hl
        rw [length_visited, List.take_length] at hlength
        refine ⟨[], .of_violation hviolation, Term.lastInside_root ?_, ?_⟩
        · rw [Term.size_node, ← hlength]
          rfl
        · rw [visited_all] at hl
          rw [Term.preorder_node, List.map_cons, ← hl]
          exact List.prefix_refl _
    · -- the round stops at child `n`, and its first violation is that of the whole term
      rw [hfail x hx] at he
      cases he
      have hmem := List.mem_of_getElem? hu
      obtain ⟨p, hp, hlast, hprefix⟩ := ih u hmem (ht u hmem) env' d hv
      have hl : (check (.node layer span)).entries env =
          visited layer n ++ entry u :: (check u).entries env' := hl
      refine ⟨n :: p, .of_child hu hs hb hp, ?_, ?_⟩
      · have hlast' : (Term.node layer span).LastInside (n :: p) _ := hlast.of_child hu
        rw [hl, List.length_append, length_visited, List.length_cons]
        exact hlast'
      · have hchild : visited layer n ++ entry u :: (check u).entries env' <+:
            visited layer (n + 1) := by
          rw [visited_succ hu]
          exact (List.prefix_append_right_inj _).mpr hprefix
        rw [Term.preorder_node, List.map_cons, hl]
        exact List.cons_prefix_cons.mpr ⟨rfl, hchild.trans (visited_isPrefix layer (n + 1))⟩

/-- The nodes of a known term are entered in pre-order, as many of them as there are boundaries. -/
theorem entries_check {t : Term} (ht : t.Known) (env : Env) :
    (check t).entries env = (t.preorder.tail.take ((check t).yields env)).map entry := by
  have hprefix : entry t :: (check t).entries env <+: t.preorder.map entry := by
    rcases eval_check_cases ht env with ⟨τ, hv⟩ | ⟨d, hv⟩
    · exact thorough t env τ hv ▸ List.prefix_refl _
    · obtain ⟨_, _, _, h⟩ := descends ht env d hv
      exact h
  rw [Term.preorder_eq_cons t, List.map_cons, List.cons_prefix_cons] at hprefix
  rw [List.map_take, ← length_entries]
  exact List.prefix_iff_eq_take.mp hprefix.2

/-- The check of a term with a type crosses one boundary less than the term has nodes. -/
theorem yields_check {t : Term} {τ : Ty} (h : HasType env.lookup t τ) :
    (check t).yields env + 1 = t.size := by
  have hall := congrArg List.length (thorough t env τ ((eval_check_ok t env τ).mpr h))
  rwa [List.length_cons, List.length_map, Term.length_preorder, length_entries] at hall

end FailFast

/-- A check enters every node but the root once, in pre-order, and stops at a violation. For every
known term and every environment, whoever runs the check and however often it is visited: the
computations that the run enters are the checks of the nodes behind the root in pre-order, one for
each boundary. If the run ends with a type, these are all of them. Otherwise it ends with the first
violation in post-order, and the last node that it has entered is the last one, in pre-order, of the
subterm that stands there. -/
theorem check_enters_in_preorder {t : Term} (ht : t.Known) (env : Env) :
    ∃ comp, FailFast.build t = .ok comp ∧
      ∀ (host : Host) (interval : Interval) (observed : Bool),
        let report := (host.run interval observed comp env).1
        (∀ l, (Config.initial comp env).Enters l ↔
          l = (t.preorder.tail.take report.stats.yields).map FailFast.entry) ∧
        ((∃ τ, report.outcome = .ok (.ok τ) ∧ report.stats.yields + 1 = t.size) ∨
          ∃ p d, report.outcome = .ok (.error (.single d)) ∧ FirstViolation env.lookup t p d ∧
            t.LastInside p report.stats.yields) := by
  refine ⟨FailFast.check t, FailFast.build_of_known ht, ?_⟩
  intro host interval observed
  rw [host.run_eq_visits]
  have henters : (Config.initial (FailFast.check t) env).Enters
      ((t.preorder.tail.take ((FailFast.check t).yields env)).map FailFast.entry) := by
    rw [← FailFast.entries_check ht]
    exact (FailFast.check t).enters env
  refine ⟨fun l => ⟨fun h => h.unique henters, fun h => h ▸ henters⟩, ?_⟩
  rcases FailFast.eval_check_cases ht env with ⟨τ, hv⟩ | ⟨d, hv⟩
  · exact .inl ⟨τ, congrArg Outcome.ofEval hv,
      FailFast.yields_check ((FailFast.eval_check_ok t env τ).mp hv)⟩
  · obtain ⟨p, hp, hlast, _⟩ := FailFast.descends ht env d hv
    rw [Comp.length_entries] at hlast
    exact .inr ⟨p, d, congrArg Outcome.ofEval hv, hp, hlast⟩

/-- In `true + (x + 1)` the left operand is no number, but `x` is not bound and comes first; the
last operand is not entered. -/
theorem check_enters_up_to_unbound :
    let place (i j : Nat) : Span := Position.spanTo "<stdin>" ⟨1, i⟩ ⟨1, j⟩
    let t : Term := .node (.add (.node (.bool true) (place 0 4))
      (.node (.add (.node (.var "x") (place 8 9)) (.node (.number 1) (place 12 13)))
        (place 8 13))) (place 0 14)
    t.Known ∧ ∃ comp, FailFast.build t = .ok comp ∧
      ∀ (host : Host) (interval : Interval) (observed : Bool),
        (host.run interval observed comp (.empty .chain)).1.stats.yields = 3 := by
  intro place t
  have ht : t.Known := by simp [t, Layer.children]
  obtain ⟨comp, hcomp, hrun⟩ := check_enters_in_preorder ht (.empty .chain)
  refine ⟨ht, comp, hcomp, ?_⟩
  intro host interval observed
  obtain ⟨_, ⟨τ, hτ, _⟩ | ⟨p, d, _, hp, hlast⟩⟩ := hrun host interval observed
  · cases hcomp.symm.trans (FailFast.build_of_known ht)
    rw [host.run_eq_visits] at hτ
    cases hτ
  · have hfirst : FirstViolation (Env.empty .chain).lookup t [1, 0] _ :=
      ⟨[[0]], [[1, 1], [1], []], rfl, fun q hq => by
        cases List.mem_singleton.mp hq
        exact ⟨_, _, .boolean, .child rfl rfl .here, .bool⟩,
        _, _, .child rfl rfl (.child rfl rfl .here), .var rfl⟩
    cases hp.place_unique hfirst
    have hplaces : t.places = [[], [0], [1], [1, 0], [1, 1]] := rfl
    obtain ⟨⟨q, hq⟩, hmax⟩ := hlast
    have hle := hmax 3 [] (by rw [hplaces]; rfl)
    rw [hplaces] at hq
    obtain ⟨hlt, hget⟩ := List.getElem?_eq_some_iff.mp hq
    generalize (host.run interval observed comp (.empty .chain)).1.stats.yields = n at *
    have hlt : n < 5 := hlt
    have hn : n = 3 ∨ n = 4 := by omega
    rcases hn with rfl | rfl
    · rfl
    · cases hget

end ArrowLang
