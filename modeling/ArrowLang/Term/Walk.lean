import ArrowLang.Fault
import ArrowLang.Term

/-!
# ArrowLang.Term.Walk

Structural recursion over terms of any depth. A walk visits a term bottom-up and from left to right;
it keeps the jobs still to do and the results of finished subterms on lists of its own.

* `Term.walk`: combines each node with the results for its children. What is done in combining,
  such as to fail or to change a state, is done in the order in which the nodes are combined.
* `Term.fold`: a walk with an algebra that is handed the children's results.
* `Term.para`: a walk with an algebra that is handed each child's result with the child itself.

A walk that comes to a node of unknown variant is a fault, wherever that node stands.
-/

namespace ArrowLang

universe u v

/-- The result for a child, with the child it belongs to. -/
structure Child (R : Type u) where
  out : R
  node : Term

def Child.span {R : Type u} (c : Child R) : Span := c.node.span

namespace Term

/-- A term that a walk has still to do. The children of an `expanded` one are done before it. -/
structure Job where
  term : Term
  expanded : Bool

namespace Job

/-- A term that has not been looked at. -/
def enter (t : Term) : Job := ⟨t, false⟩

/-- A node whose children are to be done first. -/
def leave (layer : Layer Term) (span : Span) : Job := ⟨.node layer span, true⟩

/-- An upper bound for the jobs that come of one. -/
def weight (job : Job) : Nat := if job.expanded then 1 else 2 * job.term.size

/-- The weights of a list of jobs, added up. -/
def totalWeight (jobs : List Job) : Nat := jobs.foldr (fun job n => job.weight + n) 0

theorem totalWeight_cons (job : Job) (jobs : List Job) :
    totalWeight (job :: jobs) = job.weight + totalWeight jobs := rfl

theorem totalWeight_enter (ts : List Term) (jobs : List Job) :
    totalWeight (ts.map enter ++ jobs) = 2 * totalSize ts + totalWeight jobs := by
  induction ts with
  | nil => simp
  | cons t ts ih => simp [totalWeight_cons, weight, enter, ih]; omega

theorem weight_pos (job : Job) : 0 < job.weight := by
  have := job.term.size_pos
  rw [weight]
  split <;> omega

end Job

variable {R S : Type u} {m : Type u → Type v} [Monad m] [MonadExceptOf Fault m]

/-- Does all the jobs. `done` holds the results of finished subterms, the newest first. A node is
combined once its children are done, and at once if it has none. -/
@[specialize] def walkJobs (combine : Layer Term → Span → List R → m R) (jobs : List Job)
    (done : List R) : m R :=
  match jobs with
  | [] =>
    match done with
    | [result] => pure result
    | _ => throw (Fault.unbalancedWalk done.length)
  | ⟨.unknown variant _, _⟩ :: _ => throw (Fault.unknownTerm variant)
  | ⟨.node layer span, expanded⟩ :: jobs =>
    if expanded || layer.children.isEmpty then do
      let outs := (done.take layer.children.length).reverse
      let result ← combine layer span outs
      walkJobs combine jobs (result :: done.drop layer.children.length)
    else
      walkJobs combine (layer.children.map Job.enter ++ Job.leave layer span :: jobs) done
termination_by Job.totalWeight jobs
decreasing_by
  · exact Nat.lt_add_of_pos_left (Job.weight_pos _)
  · rename_i h
    rw [Bool.or_eq_true, not_or] at h
    simp [Job.totalWeight_enter, Job.totalWeight_cons, Job.weight, Job.leave, size_node, h.1]
    omega

/-- Combines the nodes of `t` from the leaves up. -/
@[inline] def walk (combine : Layer Term → Span → List R → m R) (t : Term) : m R :=
  walkJobs combine [.enter t] []

/-- What `alg` makes of a node with `kids` in the place of its children. -/
@[inline] def apply (alg : Layer S → Span → m R) (layer : Layer Term) (span : Span)
    (kids : List S) : m R :=
  match layer.refill kids with
  | some filled => alg filled span
  | none => throw (Fault.unbalancedWalk kids.length)

/-- What `alg` makes of a node with `outs` in the place of its children, each with its child. -/
@[inline] def applyPara (alg : Layer (Child R) → Span → m R) (layer : Layer Term) (span : Span)
    (outs : List R) : m R :=
  apply alg layer span (outs.zipWith Child.mk layer.children)

/-- Structural recursion on the results for the children. -/
@[inline] def fold (alg : Layer R → Span → m R) (t : Term) : m R := t.walk (apply alg)

/-- Structural recursion that hands each child's result over together with the child. -/
@[inline] def para (alg : Layer (Child R) → Span → m R) (t : Term) : m R := t.walk (applyPara alg)

end Term

end ArrowLang
