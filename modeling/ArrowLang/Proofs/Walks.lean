import ArrowLang.Proofs.Recursion

/-!
# ArrowLang.Proofs.Walks

A walk over a term is recursion over the term.

* `Term.recurseM combine`: recursion over a term in a monad, through the children from left to right
  and then to the node itself. `Term.walk_eq_recurseM` says that the loop of a walk does the same,
  whatever combining a node may do besides giving a result.
* `stopAt hurdles r`: the result `r`, or the first hurdle if there are any. `Term.walk_stopAt`
  says of a walk that can fail what stops it, and `Term.para_eq` and `Term.fold_eq` say so of walks
  that fail at unknown nodes only.
* `Term.Catamorphism alg f`, `Term.Paramorphism alg f`: `f` is what `alg` defines by recursion over
  terms.
* `Term.calls f t`: the calls of the algebra that this recursion makes on `t`, in post-order.
* `Walk.Goes`, `Walk.Runs`: a walk does its next job, or some of them, and calls the algebra on the
  way. `Walk.Runs.walkJobs_eq` says that this is what the loop does.
* `Walk.Consistent f r w`: what is left to do in `w` is just what is missing for the result `r`.

`Walk.Goes.consistent` says that a job keeps a walk consistent, so at each moment the results at
hand are those that the jobs to come will ask for.
-/

namespace ArrowLang

universe u v w w'

/-! ## Loops of the children -/

section Monad

variable {m : Type u → Type v} [Monad m] [LawfulMonad m] {α : Type w} {β γ : Type u}

/-- What is done with a list of results needs to be known for lists of the right length only. -/
theorem mapM_bind_congr {g : α → m β} {as : List α} {k k' : List β → m γ}
    (h : ∀ bs, bs.length = as.length → k bs = k' bs) : as.mapM g >>= k = as.mapM g >>= k' := by
  induction as generalizing k k' with
  | nil => simpa using h [] rfl
  | cons a as ih =>
    simp only [List.mapM_cons, bind_assoc, pure_bind]
    refine bind_congr fun b => ih fun bs hbs => h (b :: bs) ?_
    rw [List.length_cons, List.length_cons, hbs]

theorem mapM_congr {g g' : α → m β} {as : List α} (h : ∀ a ∈ as, g a = g' a) :
    as.mapM g = as.mapM g' := by
  induction as with
  | nil => rfl
  | cons a as ih =>
    rw [List.forall_mem_cons] at h
    rw [List.mapM_cons, List.mapM_cons, h.1, ih h.2]

/-- Effects on the way to results that are known beforehand happen in the order of the list. -/
theorem mapM_forM {δ : Type w'} (effect : δ → m PUnit) (list : α → List δ) (f : α → β)
    (as : List α) :
    (as.mapM fun a => forM (list a) effect >>= fun _ => pure (f a)) =
      forM (as.flatMap list) effect >>= fun _ => pure (as.map f) := by
  induction as with
  | nil => simp
  | cons a as ih =>
    simp only [List.mapM_cons, ih, bind_assoc, pure_bind, List.flatMap_cons, List.forM_append,
      List.map_cons]

end Monad

/-- The result, unless something stands in the way of it. -/
def stopAt {ε : Type w} {R : Type u} (hurdles : List ε) (r : R) : Except ε R :=
  match hurdles with
  | [] => .ok r
  | e :: _ => .error e

/-- A loop stops at the first hurdle of all. -/
theorem mapM_stopAt {ε : Type w} {R : Type u} {α : Type v} {g : α → Except ε R}
    {hurdles : α → List ε} {f : α → R} {as : List α}
    (h : ∀ a ∈ as, g a = stopAt (hurdles a) (f a)) :
    as.mapM g = stopAt (as.flatMap hurdles) (as.map f) := by
  induction as with
  | nil => rfl
  | cons a as ih =>
    rw [List.forall_mem_cons] at h
    rw [List.mapM_cons, h.1, ih h.2, List.flatMap_cons]
    cases hurdles a with
    | cons e es => rfl
    | nil =>
      rw [List.nil_append]
      cases as.flatMap hurdles <;> rfl

/-! ## Recursion over terms -/

theorem Layer.refill_map {R S : Type u} (g : R → S) (layer : Layer Term) (kids : List R) :
    (layer.refill kids).map (Layer.map g) = layer.refill (kids.map g) := by
  cases layer with
  | call callee args =>
    cases kids with
    | nil => rfl
    | cons kid kids =>
      simp only [refill, List.map_cons, List.length_map]
      split <;> rfl
  | _ => rcases kids with _ | ⟨a, _ | ⟨b, _ | ⟨c, _ | ⟨d, kids⟩⟩⟩⟩ <;> rfl

namespace Term

section Loop

variable {R S : Type u} {m : Type u → Type v} [Monad m] [MonadExceptOf Fault m]
  {combine : Layer Term → Span → List R → m R}

def recurseM (combine : Layer Term → Span → List R → m R) : Term → m R :=
  recurse (fun layer span => layer.children.mapM Child.out >>= combine (layer.map Child.node) span)
    fun variant _ => throw (Fault.unknownTerm variant)

theorem walkJobs_unknown {variant : String} {span : Span} {expanded : Bool} {jobs : List Job}
    {done : List R} :
    walkJobs combine (⟨.unknown variant span, expanded⟩ :: jobs) done =
      throw (Fault.unknownTerm variant) := by
  rw [walkJobs]

theorem walkJobs_expand {layer : Layer Term} (h : layer.children ≠ []) (span : Span)
    (jobs : List Job) (done : List R) :
    walkJobs combine (.enter (.node layer span) :: jobs) done =
      walkJobs combine (layer.children.map .enter ++ .leave layer span :: jobs) done := by
  rw [Job.enter, walkJobs, if_neg (by simpa using h)]

theorem walkJobs_combine {layer : Layer Term} {expanded : Bool}
    (h : expanded = true ∨ layer.children = []) (span : Span) (jobs : List Job) (done : List R) :
    walkJobs combine (⟨.node layer span, expanded⟩ :: jobs) done =
      combine layer span (done.take layer.children.length).reverse >>= fun r =>
        walkJobs combine jobs (r :: done.drop layer.children.length) := by
  rw [walkJobs, if_pos (by simpa using h)]

omit [Monad m] in
theorem apply_map (alg : Layer S → Span → m R) (g : Term → S) (layer : Layer Term) (span : Span) :
    apply alg layer span (layer.children.map g) = alg (layer.map g) span := by
  rw [apply, Layer.refill_map_children]

omit [Monad m] in
theorem applyPara_map (act : Layer (Child R) → Span → m R) (f : Term → R) (layer : Layer Term)
    (span : Span) :
    applyPara act layer span (layer.children.map f) = act (layer.map fun t => ⟨f t, t⟩) span := by
  rw [applyPara, List.zipWith_map_left, List.zipWith_self, apply_map]

variable [LawfulMonad m]

theorem recurseM_node (layer : Layer Term) (span : Span) :
    (node layer span).recurseM combine =
      layer.children.mapM (recurseM combine) >>= combine layer span := by
  rw [recurseM, recurse_node, Layer.children_map, List.mapM_map, Layer.map_map, Layer.map_id]
  rfl

theorem recurseM_congr {combine' : Layer Term → Span → List R → m R}
    (h : ∀ layer span outs, outs.length = layer.children.length →
      combine layer span outs = combine' layer span outs) (t : Term) :
    t.recurseM combine = t.recurseM combine' := by
  induction t using byChildren with
  | unknown variant span => rfl
  | node layer span ih =>
    rw [recurseM_node, recurseM_node, mapM_congr ih]
    exact mapM_bind_congr (h layer span)

/-- The results for the children come on top of the finished ones, and are taken when the node is
left. Those for the first of the children, in `outs`, are there already. -/
theorem walkJobs_children {layer : Layer Term} {span : Span} {jobs : List Job} {done : List R}
    {ts : List Term}
    (hts : ∀ t ∈ ts, ∀ jobs done, walkJobs combine (.enter t :: jobs) done =
      t.recurseM combine >>= fun r => walkJobs combine jobs (r :: done)) :
    ∀ outs : List R, outs.length + ts.length = layer.children.length →
      walkJobs combine (ts.map .enter ++ .leave layer span :: jobs) (outs.reverse ++ done) =
        ts.mapM (recurseM combine) >>= fun rest => combine layer span (outs ++ rest) >>= fun r =>
          walkJobs combine jobs (r :: done) := by
  induction ts with
  | nil =>
    intro outs hlength
    have htake : (outs.reverse ++ done).take layer.children.length = outs.reverse :=
      List.take_left' (by simpa using hlength)
    have hdrop : (outs.reverse ++ done).drop layer.children.length = done :=
      List.drop_left' (by simpa using hlength)
    rw [List.map_nil, List.nil_append, Job.leave, walkJobs_combine (.inl rfl), htake, hdrop,
      List.mapM_nil, pure_bind, List.reverse_reverse, List.append_nil]
  | cons t ts ih =>
    intro outs hlength
    rw [List.forall_mem_cons] at hts
    rw [List.map_cons, List.cons_append, hts.1, List.mapM_cons, bind_assoc]
    refine bind_congr fun r => ?_
    have hnext := ih hts.2 (outs ++ [r]) (by simp at hlength ⊢; omega)
    simpa only [List.reverse_append, List.reverse_singleton, List.singleton_append,
      List.cons_append, List.nil_append, List.append_assoc, bind_assoc, pure_bind] using hnext

/-- The loop does a term as the recursion does and then goes on, if faults stop what would come
after them. -/
theorem walkJobs_enter {t : Term}
    (hstop : ∀ variant ∈ t.unknowns, ∀ k : R → m R,
      throw (Fault.unknownTerm variant) >>= k = throw (Fault.unknownTerm variant)) :
    ∀ jobs done, walkJobs combine (.enter t :: jobs) done =
      t.recurseM combine >>= fun r => walkJobs combine jobs (r :: done) := by
  induction t using byChildren with
  | unknown variant span =>
    intro jobs done
    rw [Job.enter, walkJobs_unknown]
    exact (hstop variant (by simp [unknowns_unknown]) _).symm
  | node layer span ih =>
    intro jobs done
    rw [recurseM_node, bind_assoc]
    by_cases hleaf : layer.children = []
    · rw [Job.enter, walkJobs_combine (.inr hleaf), hleaf, List.mapM_nil, pure_bind]
      rfl
    · rw [walkJobs_expand hleaf]
      refine walkJobs_children (fun t ht => ih t ht fun variant hv => hstop variant ?_) [] (by simp)
      rw [unknowns_node]
      exact List.mem_flatMap.mpr ⟨t, ht, hv⟩

theorem walk_eq_recurseM {t : Term}
    (hstop : ∀ variant ∈ t.unknowns, ∀ k : R → m R,
      throw (Fault.unknownTerm variant) >>= k = throw (Fault.unknownTerm variant)) :
    t.walk combine = t.recurseM combine := by
  have hend (r : R) : walkJobs combine [] [r] = pure r := by rw [walkJobs]
  rw [walk, walkJobs_enter hstop]
  simp only [hend, bind_pure]

theorem recurseM_ignoring {act : Layer (Child R) → Span → m R} {alg : Layer R → Span → m R}
    (h : ∀ layer span, act layer span = alg (layer.map Child.out) span) (t : Term) :
    t.recurseM (applyPara act) = t.recurseM (apply alg) := by
  refine recurseM_congr (fun layer span outs hlength => ?_) t
  have houts : (outs.zipWith Child.mk layer.children).map Child.out = outs := by
    rw [← List.map_uncurry_zip_eq_zipWith, List.map_map]
    exact List.map_fst_zip (Nat.le_of_eq hlength)
  have hlayer := Layer.refill_map Child.out layer (outs.zipWith Child.mk layer.children)
  rw [houts] at hlayer
  rw [applyPara, apply, apply, ← hlayer]
  cases layer.refill (outs.zipWith Child.mk layer.children) with
  | none => rw [← List.length_map Child.out, houts]; rfl
  | some filled => exact h filled span

end Loop

/-! ## Walks that can fail -/

section Failures

variable {ε : Type w} [MonadExceptOf Fault (Except ε)] {R : Type u}
  {combine : Layer Term → Span → List R → Except ε R}

/-- Some leaves are hurdles, unknown nodes among them, and at all other nodes `f` is what combining
gives. Then the walk gives `f`, or it stops at the first hurdle of the term. -/
theorem walk_stopAt {hurdle? : Term → Option ε} {f : Term → R}
    (hunknown : ∀ variant span, ∃ e, hurdle? (.unknown variant span) = some e ∧
      (throw (Fault.unknownTerm variant) : Except ε R) = .error e)
    (hnode : ∀ layer span,
      (hurdle? (.node layer span) = none ∧
        combine layer span (layer.children.map f) = .ok (f (.node layer span))) ∨
      ∃ e, hurdle? (.node layer span) = some e ∧ layer.children = [] ∧
        combine layer span [] = .error e) (t : Term) :
    t.walk combine = stopAt (t.preorder.filterMap hurdle?) (f t) := by
  have hstop : ∀ variant ∈ t.unknowns, ∀ k : R → Except ε R,
      throw (Fault.unknownTerm variant) >>= k = throw (Fault.unknownTerm variant) := by
    intro variant _ k
    obtain ⟨e, _, he⟩ := hunknown variant .unknown
    rw [he]
    rfl
  rw [walk_eq_recurseM hstop]
  clear hstop
  induction t using byChildren with
  | unknown variant span =>
    obtain ⟨e, hhurdle, he⟩ := hunknown variant span
    rw [preorder_unknown, List.filterMap_cons_some hhurdle]
    exact he
  | node layer span ih =>
    rw [recurseM_node, mapM_stopAt ih, preorder_node]
    rcases hnode layer span with ⟨hnone, hok⟩ | ⟨e, hsome, hleaf, herror⟩
    · rw [List.filterMap_cons_none hnone, List.filterMap_flatMap]
      cases layer.children.flatMap fun t => t.preorder.filterMap hurdle? with
      | nil => exact hok
      | cons e es => rfl
    · rw [List.filterMap_cons_some hsome, hleaf]
      exact herror

end Failures

section Pure

variable {R : Type u} (stray : String → Span → R) (t : Term)

/-- A walk that fails at no known node stops at the first unknown one. -/
theorem walk_pure {combine : Layer Term → Span → List R → Except Fault R} {f : Term → R}
    (h : ∀ layer span, combine layer span (layer.children.map f) = .ok (f (.node layer span))) :
    t.walk combine = stopAt (t.unknowns.map Fault.unknownTerm) (f t) := by
  have hwalk : t.walk combine =
      stopAt (t.preorder.filterMap fun u => u.unknown?.map Fault.unknownTerm) (f t) :=
    walk_stopAt (fun variant _ => ⟨.unknownTerm variant, rfl, rfl⟩)
      (fun layer span => .inl ⟨rfl, h layer span⟩) t
  rwa [← List.map_filterMap] at hwalk

theorem para_eq (alg : Layer (Child R) → Span → R) :
    (t.para fun layer span => pure (alg layer span)) =
      stopAt (t.unknowns.map Fault.unknownTerm) (t.recurse alg stray) := by
  refine walk_pure t fun layer span => ?_
  rw [applyPara_map, recurse_node]
  rfl

theorem fold_eq (alg : Layer R → Span → R) :
    (t.fold fun layer span => pure (alg layer span)) =
      stopAt (t.unknowns.map Fault.unknownTerm)
        (t.recurse (fun layer span => alg (layer.map Child.out) span) stray) := by
  refine walk_pure t fun layer span => ?_
  rw [apply_map, recurse_node, Layer.map_map]
  rfl

variable {t}

/-- On known terms the walk is the recursion. -/
theorem para_of_known (alg : Layer (Child R) → Span → R) (ht : t.Known) :
    (t.para fun layer span => pure (alg layer span) : Except Fault R) =
      .ok (t.recurse alg stray) := by
  rw [para_eq stray, known_iff_unknowns.mp ht]
  rfl

/-- A walk ends at the first node of unknown variant, wherever it stands. -/
theorem para_of_unknowns (alg : Layer (Child R) → Span → R) {variant : String}
    {rest : List String} (h : t.unknowns = variant :: rest) :
    (t.para fun layer span => pure (alg layer span) : Except Fault R) =
      .error (.unknownTerm variant) := by
  rw [para_eq fun _ span => alg (.bool true) span, h]
  rfl

theorem fold_of_known (alg : Layer R → Span → R) (ht : t.Known) :
    (t.fold fun layer span => pure (alg layer span) : Except Fault R) =
      .ok (t.recurse (fun layer span => alg (layer.map Child.out) span) stray) := by
  rw [fold_eq stray, known_iff_unknowns.mp ht]
  rfl

theorem fold_of_unknowns (alg : Layer R → Span → R) {variant : String} {rest : List String}
    (h : t.unknowns = variant :: rest) :
    (t.fold fun layer span => pure (alg layer span) : Except Fault R) =
      .error (.unknownTerm variant) := by
  rw [fold_eq fun _ span => alg (.bool true) span, h]
  rfl

theorem para_of_not_known (alg : Layer (Child R) → Span → R) (ht : ¬ t.Known) :
    ∃ variant, (t.para fun layer span => pure (alg layer span) : Except Fault R) =
      .error (.unknownTerm variant) := by
  cases h : t.unknowns with
  | nil => exact absurd (known_iff_unknowns.mpr h) ht
  | cons variant rest => exact ⟨variant, para_of_unknowns alg h⟩

end Pure

/-! ## Algebras and their calls -/

variable {R : Type u}

/-- The value of `f` at a node is what `alg` makes of its values at the children. -/
def Catamorphism (alg : Layer R → Span → R) (f : Term → R) : Prop :=
  ∀ layer span, f (.node layer span) = alg (layer.map f) span

/-- The value of `f` at a node is what `alg` makes of its values at the children, each with the
child that it belongs to. -/
def Paramorphism (alg : Layer (Child R) → Span → R) (f : Term → R) : Prop :=
  ∀ layer span, f (.node layer span) = alg (layer.map fun t => ⟨f t, t⟩) span

theorem Catamorphism.paramorphism {alg : Layer R → Span → R} {f : Term → R}
    (h : Catamorphism alg f) :
    Paramorphism (fun layer span => alg (layer.map Child.out) span) f := by
  intro layer span
  simp only [Layer.map_map]
  exact h layer span

/-- A call of an algebra: a node with the results for its children, and its span. -/
abbrev Call (R : Type u) := Layer (Child R) × Span

def call (f : Term → R) (layer : Layer Term) (span : Span) : Call R :=
  (layer.map fun t => ⟨f t, t⟩, span)

/-- The calls for the nodes of a term: those for the children from left to right, then that for the
node itself. -/
def calls (f : Term → R) : Term → List (Call R) :=
  recurse (fun layer span =>
    (layer.map Child.out).children.flatten ++ [call f (layer.map Child.node) span]) fun _ _ => []

theorem calls_node (f : Term → R) (layer : Layer Term) (span : Span) :
    (node layer span).calls f = layer.children.flatMap (calls f) ++ [call f layer span] := by
  rw [calls, recurse_node, Layer.map_map, Layer.map_map, Layer.map_id, Layer.children_map]
  rfl

theorem length_calls (f : Term → R) {t : Term} (ht : t.Known) : (t.calls f).length = t.size := by
  induction t using byChildren with
  | unknown variant span => exact absurd ht not_known_unknown
  | node layer span ih =>
    rw [known_node] at ht
    have hcalls (u : Term) (hu : u ∈ layer.children) : (u.calls f).length = u.size :=
      ih u hu (ht u hu)
    rw [calls_node, size_node, List.length_append, List.length_singleton,
      length_flatMap_of_size hcalls]

section Effects

variable {m : Type u → Type v} [Monad m]

/-- The algebra with something to be done at each call. -/
def doing (effect : Layer (Child R) → Span → m PUnit) (alg : Layer (Child R) → Span → R)
    (layer : Layer (Child R)) (span : Span) : m R :=
  effect layer span >>= fun _ => pure (alg layer span)

variable [LawfulMonad m] [MonadExceptOf Fault m] {alg : Layer (Child R) → Span → R} {f : Term → R}
  {t : Term}

/-- What is done at the calls is done in the order of the recursion. -/
theorem para_doing (hf : Paramorphism alg f) (ht : t.Known)
    (effect : Layer (Child R) → Span → m PUnit) :
    t.para (doing effect alg) =
      forM (t.calls f) (fun c => effect c.1 c.2) >>= fun _ => pure (f t) := by
  have hstop := known_iff_unknowns.mp ht
  refine (walk_eq_recurseM (by simp [hstop])).trans ?_
  clear hstop
  induction t using byChildren with
  | unknown variant span => exact absurd ht not_known_unknown
  | node layer span ih =>
    rw [known_node] at ht
    rw [recurseM_node, mapM_congr fun u hu => ih u hu (ht u hu), mapM_forM]
    rw [hf layer span, calls_node, List.forM_append, List.forM_cons, List.forM_nil]
    simp only [bind_assoc, pure_bind, applyPara_map, doing]
    rfl

theorem para_pure (hf : Paramorphism alg f) (ht : t.Known) :
    (t.para fun layer span => pure (alg layer span) : m R) = pure (f t) := by
  have hnothing (cs : List (Call R)) : (forM cs fun _ => (pure ⟨⟩ : m PUnit)) = pure ⟨⟩ := by
    induction cs with
    | nil => rfl
    | cons c cs ih => rw [List.forM_cons, ih, pure_bind]
  have hpara := para_doing hf ht fun _ _ => (pure ⟨⟩ : m PUnit)
  rw [hnothing, pure_bind] at hpara
  rw [← hpara]
  refine congrArg (fun act => t.para act) (funext fun layer => funext fun span => ?_)
  rw [doing, pure_bind]

/-- An algebra that does not look at the child terms does the same when they are not there. -/
theorem para_ignoring {act : Layer (Child R) → Span → m R} {alg : Layer R → Span → m R}
    (h : ∀ layer span, act layer span = alg (layer.map Child.out) span) (ht : t.Known) :
    t.para act = t.fold alg := by
  have hstop := known_iff_unknowns.mp ht
  rw [para, fold, walk_eq_recurseM (by simp [hstop]), walk_eq_recurseM (by simp [hstop]),
    recurseM_ignoring h]

theorem fold_pure {alg : Layer R → Span → R} (hf : Catamorphism alg f) (ht : t.Known) :
    (t.fold fun layer span => pure (alg layer span) : m R) = pure (f t) := by
  rw [← para_pure hf.paramorphism ht]
  exact (para_ignoring (fun _ _ => rfl) ht).symm

end Effects

end Term

/-! ## Walks in progress -/

open Term (Job Call walkJobs applyPara)

/-- The jobs still to do, and the results of finished subterms, the newest first. -/
structure Walk (R : Type u) where
  jobs : List Job
  done : List R

namespace Walk

variable {R : Type u} {alg : Layer (Child R) → Span → R} {f : Term → R}

def start (t : Term) : Walk R := ⟨[.enter t], []⟩

def finished (r : R) : Walk R := ⟨[], [r]⟩

/-- The results that a node takes from the finished ones, each with the child that it belongs to. -/
def taken (layer : Layer Term) (done : List R) : List (Child R) :=
  (done.take layer.children.length).reverse.zipWith Child.mk layer.children

inductive Goes (alg : Layer (Child R) → Span → R) : Walk R → List (Call R) → Walk R → Prop where
  | expand {layer : Layer Term} {span : Span} {jobs : List Job} {done : List R} :
      layer.children ≠ [] →
      Goes alg ⟨.enter (.node layer span) :: jobs, done⟩ []
        ⟨layer.children.map .enter ++ .leave layer span :: jobs, done⟩
  | combine {layer : Layer Term} {span : Span} {expanded : Bool} {jobs : List Job} {done : List R}
      {filled : Layer (Child R)} :
      expanded = true ∨ layer.children = [] → layer.refill (taken layer done) = some filled →
      Goes alg ⟨⟨.node layer span, expanded⟩ :: jobs, done⟩ [(filled, span)]
        ⟨jobs, alg filled span :: done.drop layer.children.length⟩

inductive Runs (alg : Layer (Child R) → Span → R) : Walk R → List (Call R) → Walk R → Prop where
  | refl {w : Walk R} : Runs alg w [] w
  | cons {w w' w'' : Walk R} {calls calls' : List (Call R)} :
      Goes alg w calls w' → Runs alg w' calls' w'' → Runs alg w (calls ++ calls') w''

theorem Runs.trans {w w' w'' : Walk R} {calls calls' : List (Call R)} (h : Runs alg w calls w')
    (h' : Runs alg w' calls' w'') : Runs alg w (calls ++ calls') w'' := by
  induction h with
  | refl => exact h'
  | cons hgo _ ih =>
    rw [List.append_assoc]
    exact .cons hgo (ih h')

theorem Runs.expand {layer : Layer Term} {span : Span} {jobs : List Job} {done : List R}
    {calls : List (Call R)} {w : Walk R} (hchildren : layer.children ≠ [])
    (h : Runs alg ⟨layer.children.map .enter ++ .leave layer span :: jobs, done⟩ calls w) :
    Runs alg ⟨.enter (.node layer span) :: jobs, done⟩ calls w := .cons (.expand hchildren) h

section Loop

variable {m : Type u → Type v} [Monad m] [LawfulMonad m] [MonadExceptOf Fault m]

/-- The loop does the next job in this way, with whatever is done at the call. -/
theorem Goes.walkJobs_eq (effect : Layer (Child R) → Span → m PUnit) {w w' : Walk R}
    {calls : List (Call R)} (h : Goes alg w calls w') :
    walkJobs (applyPara (Term.doing effect alg)) w.jobs w.done =
      forM calls (fun c => effect c.1 c.2) >>= fun _ =>
        walkJobs (applyPara (Term.doing effect alg)) w'.jobs w'.done := by
  cases h with
  | expand hchildren =>
    rw [Term.walkJobs_expand hchildren, List.forM_nil, pure_bind]
  | combine hdue hfilled =>
    rw [taken] at hfilled
    rw [Term.walkJobs_combine hdue, applyPara, Term.apply, hfilled, List.forM_cons, List.forM_nil]
    simp only [Term.doing, bind_assoc, pure_bind]

theorem Runs.walkJobs_eq (effect : Layer (Child R) → Span → m PUnit) {w w' : Walk R}
    {calls : List (Call R)} (h : Runs alg w calls w') :
    walkJobs (applyPara (Term.doing effect alg)) w.jobs w.done =
      forM calls (fun c => effect c.1 c.2) >>= fun _ =>
        walkJobs (applyPara (Term.doing effect alg)) w'.jobs w'.done := by
  induction h with
  | refl => rw [List.forM_nil, pure_bind]
  | cons hgo _ ih => rw [hgo.walkJobs_eq effect, ih, List.forM_append, bind_assoc]

end Loop

/-! ## One run to the end -/

/-- A node that has no children is combined at once, and is expanded otherwise. -/
theorem Goes.unique {w w₁ w₂ : Walk R} {calls₁ calls₂ : List (Call R)}
    (h₁ : Goes alg w calls₁ w₁) (h₂ : Goes alg w calls₂ w₂) : calls₁ = calls₂ ∧ w₁ = w₂ := by
  cases h₁ with
  | expand hchildren =>
    cases h₂ with
    | expand _ => exact ⟨rfl, rfl⟩
    | combine hdue _ => exact absurd hdue (by simp [hchildren])
  | combine hdue hfilled =>
    cases h₂ with
    | expand hchildren => exact absurd hdue (by simp [hchildren])
    | combine _ hfilled' =>
      cases hfilled.symm.trans hfilled'
      exact ⟨rfl, rfl⟩

/-- Every run is a part of the one that goes on to the end. -/
theorem Runs.rest {w w' : Walk R} {calls calls' : List (Call R)} {r : R}
    (h : Runs alg w calls w') (hend : Runs alg w calls' (finished r)) :
    ∃ rest, calls' = calls ++ rest ∧ Runs alg w' rest (finished r) := by
  induction h generalizing calls' with
  | refl => exact ⟨calls', rfl, hend⟩
  | cons hgo _ ih =>
    cases hend with
    | refl => cases hgo
    | cons hgo' hend' =>
      obtain ⟨rfl, rfl⟩ := hgo.unique hgo'
      obtain ⟨rest, rfl, hrest⟩ := ih hend'
      exact ⟨rest, (List.append_assoc _ _ _).symm, hrest⟩

/-- Terms that are walked to their results one by one are so in a row. -/
theorem runs_enterAll {ts : List Term}
    (h : ∀ t ∈ ts, ∀ jobs done,
      Runs alg ⟨.enter t :: jobs, done⟩ (t.calls f) ⟨jobs, f t :: done⟩) (jobs : List Job) :
    ∀ done, Runs alg ⟨ts.map .enter ++ jobs, done⟩ (ts.flatMap (Term.calls f))
      ⟨jobs, (ts.map f).reverse ++ done⟩ := by
  induction ts with
  | nil => intro done; exact .refl
  | cons t ts ih =>
    intro done
    have hts := ih (fun u hu => h u (List.mem_cons_of_mem t hu)) (f t :: done)
    simpa using (h t List.mem_cons_self (ts.map .enter ++ jobs) done).trans hts

/-- With the results for its children on top of the finished ones, a node is combined to its own. -/
theorem goes_combine (hf : Term.Paramorphism alg f) {layer : Layer Term} {expanded : Bool}
    (hdue : expanded = true ∨ layer.children = []) (span : Span) (jobs : List Job)
    (done : List R) :
    Goes alg ⟨⟨.node layer span, expanded⟩ :: jobs, (layer.children.map f).reverse ++ done⟩
      [Term.call f layer span] ⟨jobs, f (.node layer span) :: done⟩ := by
  have htaken : taken layer ((layer.children.map f).reverse ++ done) =
      layer.children.map fun t => ⟨f t, t⟩ := by
    rw [taken, List.take_left' (by simp), List.reverse_reverse, List.zipWith_map_left,
      List.zipWith_self]
  have hdrop : ((layer.children.map f).reverse ++ done).drop layer.children.length = done :=
    List.drop_left' (by simp)
  rw [hf]
  conv => rhs; rw [← hdrop]
  exact .combine hdue (by rw [htaken, Layer.refill_map_children])

/-- Walking a known term puts its value on top of the results, and makes the calls of the
recursion in the order of the recursion. -/
theorem runs_enter (hf : Term.Paramorphism alg f) {t : Term} (ht : t.Known) :
    ∀ jobs done, Runs alg ⟨.enter t :: jobs, done⟩ (t.calls f) ⟨jobs, f t :: done⟩ := by
  induction t using Term.byChildren with
  | unknown variant span => exact absurd ht Term.not_known_unknown
  | node layer span ih =>
    intro jobs done
    rw [Term.known_node] at ht
    rw [Term.calls_node]
    by_cases hleaf : layer.children = []
    · have hcombine : Goes alg ⟨.enter (.node layer span) :: jobs, _⟩ _ _ :=
        goes_combine hf (.inr hleaf) span jobs done
      rw [hleaf] at hcombine ⊢
      rw [List.flatMap_nil, List.nil_append]
      exact .cons hcombine .refl
    · have hchildren :=
        runs_enterAll (fun u hu => ih u hu (ht u hu)) (.leave layer span :: jobs) done
      have hcombine : Goes alg ⟨.leave layer span :: jobs, _⟩ _ _ :=
        goes_combine hf (.inl rfl) span jobs done
      exact .expand hleaf (hchildren.trans (.cons hcombine .refl))

/-! ## Every moment of a run -/

/-- Doing the jobs on the results at hand gives `r`, where entering a known term gives its value
and a node is left when the values of its children are on top. -/
inductive Consistent (f : Term → R) (r : R) : Walk R → Prop where
  | finished : Consistent f r (finished r)
  | enter {t : Term} {jobs : List Job} {done : List R} :
      t.Known → Consistent f r ⟨jobs, f t :: done⟩ → Consistent f r ⟨.enter t :: jobs, done⟩
  | leave {layer : Layer Term} {span : Span} {jobs : List Job} {done : List R} :
      Consistent f r ⟨jobs, f (.node layer span) :: done⟩ →
      Consistent f r ⟨.leave layer span :: jobs, (layer.children.map f).reverse ++ done⟩

theorem Consistent.enterAll {r : R} {ts : List Term} {jobs : List Job}
    (hts : ∀ t ∈ ts, t.Known) {done : List R}
    (h : Consistent f r ⟨jobs, (ts.map f).reverse ++ done⟩) :
    Consistent f r ⟨ts.map .enter ++ jobs, done⟩ := by
  induction ts generalizing done with
  | nil => exact h
  | cons t ts ih =>
    refine .enter (hts t List.mem_cons_self) ?_
    exact ih (fun u hu => hts u (List.mem_cons_of_mem t hu)) (by simpa using h)

/-- A node that is due has the values of its children on top, and without them the walk would be
where it is afterwards. -/
theorem Consistent.due {r : R} {layer : Layer Term} {span : Span} {expanded : Bool}
    {jobs : List Job} {done : List R}
    (h : Consistent f r ⟨⟨.node layer span, expanded⟩ :: jobs, done⟩)
    (hdue : expanded = true ∨ layer.children = []) :
    ∃ rest, done = (layer.children.map f).reverse ++ rest ∧
      Consistent f r ⟨jobs, f (.node layer span) :: rest⟩ := by
  cases h with
  | leave h => exact ⟨_, rfl, h⟩
  | enter _ h =>
    refine ⟨done, ?_, h⟩
    rw [hdue.resolve_left Bool.false_ne_true]
    rfl

theorem Goes.consistent (hf : Term.Paramorphism alg f) {r : R} {w w' : Walk R}
    {calls : List (Call R)} (h : Goes alg w calls w') (hw : Consistent f r w) :
    Consistent f r w' := by
  cases h with
  | expand _ =>
    cases hw with
    | enter ht hw => exact .enterAll (Term.known_node.mp ht) (.leave hw)
  | @combine layer span expanded jobs done filled hdue hfilled =>
    obtain ⟨rest, rfl, hnext⟩ := hw.due hdue
    obtain ⟨_, hw'⟩ := Goes.unique (.combine hdue hfilled) (goes_combine hf hdue span jobs rest)
    rw [hw']
    exact hnext

theorem Runs.consistent (hf : Term.Paramorphism alg f) {r : R} {w w' : Walk R}
    {calls : List (Call R)} (h : Runs alg w calls w') (hw : Consistent f r w) :
    Consistent f r w' := by
  induction h with
  | refl => exact hw
  | cons hgo _ ih => exact ih (hgo.consistent hf hw)

/-- If a node is to be combined next, the results that it takes are the values of its children, as
many as there are and in their order. -/
def Ready (f : Term → R) (w : Walk R) : Prop :=
  ∀ layer span expanded jobs, w.jobs = ⟨.node layer span, expanded⟩ :: jobs →
    expanded = true ∨ layer.children = [] →
    (w.done.take layer.children.length).reverse = layer.children.map f

theorem Consistent.ready {r : R} {w : Walk R} (h : Consistent f r w) : w.Ready f := by
  intro layer span expanded jobs hjobs hdue
  obtain ⟨_, done⟩ := w
  cases hjobs
  obtain ⟨rest, rfl, _⟩ := h.due hdue
  rw [List.take_left' (by simp), List.reverse_reverse]

end Walk

open Walk in
/-- The walk is structural recursion. On a known term, `para` and `fold` give the values of the
recursive functions that their algebras define; an algebra that does not look at the child terms
does the same under both. The algebra is called once for each node, in post-order, so that whatever
is done at its calls, be it to fail or to change a state, is done in this order and to the same
result. At every moment of the loop the calls so far are the first of these, a node that is combined
takes just the values of its children, and the loop goes on to its end with one result. -/
theorem walk_is_recursion {R : Type u} {alg : Layer (Child R) → Span → R} {f : Term → R}
    (hf : Term.Paramorphism alg f) {t : Term} (ht : t.Known) {m : Type u → Type v} [Monad m]
    [LawfulMonad m] [MonadExceptOf Fault m] :
    (t.para fun layer span => pure (alg layer span) : m R) = pure (f t) ∧
    (∀ (alg' : Layer R → Span → R) (f' : Term → R), Term.Catamorphism alg' f' →
      (t.fold fun layer span => pure (alg' layer span) : m R) = pure (f' t)) ∧
    (∀ (act : Layer (Child R) → Span → m R) (act' : Layer R → Span → m R),
      (∀ layer span, act layer span = act' (layer.map Child.out) span) →
      t.para act = t.fold act') ∧
    (t.calls f).length = t.size ∧
    ∀ effect : Layer (Child R) → Span → m PUnit,
      t.para (Term.doing effect alg) =
        forM (t.calls f) (fun c => effect c.1 c.2) >>= (fun _ => pure (f t)) ∧
      ∀ calls w, Runs alg (.start t) calls w →
        t.para (Term.doing effect alg) =
          forM calls (fun c => effect c.1 c.2) >>= (fun _ =>
            walkJobs (applyPara (Term.doing effect alg)) w.jobs w.done) ∧
        w.Ready f ∧
        ∃ rest, t.calls f = calls ++ rest ∧ Runs alg w rest (.finished (f t)) := by
  refine ⟨Term.para_pure hf ht, fun alg' f' hf' => Term.fold_pure hf' ht,
    fun act act' h => Term.para_ignoring h ht, Term.length_calls f ht, fun effect =>
    ⟨Term.para_doing hf ht effect, ?_⟩⟩
  intro calls w hw
  have hstart : Consistent f (f t) (.start t) := .enter ht .finished
  exact ⟨hw.walkJobs_eq effect, (hw.consistent hf hstart).ready, hw.rest (runs_enter hf ht [] [])⟩

/-- Counting the nodes of `f(1, true ? 2 : x)` by a walk that keeps a list of the counts. -/
theorem walk_counts_call :
    let leaf (layer : Layer Term) : Term := .node layer .unknown
    let cond := leaf (.ite (leaf (.bool true)) (leaf (.number 2)) (leaf (.var "x")))
    let t := leaf (.call (leaf (.var "f")) [leaf (.number 1), cond])
    let count (layer : Layer (Child Nat)) (_ : Span) : Nat :=
      layer.children.foldr (fun c n => c.out + n) 0 + 1
    let keep (layer : Layer (Child Nat)) (span : Span) :
        StateT (List Nat) (Except Fault) PUnit :=
      modify (count layer span :: ·)
    Term.Paramorphism count Term.size ∧ t.Known ∧
      (t.para (Term.doing keep count)).run [] = .ok (7, [7, 4, 1, 1, 1, 1, 1]) ∧
      ∀ calls w, Walk.Runs count (.start t) calls w → w.Ready Term.size := by
  intro leaf cond t count keep
  have hcount : Term.Paramorphism count Term.size := by
    intro layer span
    simp only [count, Layer.children_map, List.foldr_map]
    exact Term.size_node layer span
  have ht : t.Known := by simp [t, cond, leaf, Layer.children]
  obtain ⟨_, _, _, _, heffects⟩ :=
    walk_is_recursion (m := StateT (List Nat) (Except Fault)) hcount ht
  obtain ⟨hpara, hruns⟩ := heffects keep
  refine ⟨hcount, ht, ?_, ?_⟩
  · rw [hpara]
    rfl
  · intro calls w hw
    exact (hruns calls w hw).2.1

end ArrowLang
