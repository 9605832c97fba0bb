import ArrowLang.Comp

/-!
# ArrowLang.Proofs.Evaluation

The meaning of compound computations, told by what their parts end with.

* `Comp.eval_bind_ok`, `Comp.eval_bind_error`: how a `bind` comes by its value or its failure.
* `Comp.evalAll`: the values of a list of computations, or the first failure among them.
* `Comp.eval_sequence`: `sequence` ends with just that.
* `Comp.eval_bind_congr`, `Comp.eval_sequence_congr`: what a whole ends with depends on its parts
  through what these end with.
-/

namespace ArrowLang
namespace Comp

variable {E α β : Type}

theorem eval_bind_ok {c : Comp E α} {next : α → Comp E β} {env : E} {b : β} :
    (bind c next).eval env = .ok b ↔ ∃ a, c.eval env = .ok a ∧ (next a).eval env = .ok b := by
  rw [eval]
  cases c.eval env with
  | ok a => simp
  | error h => simp

theorem eval_bind_error {c : Comp E α} {next : α → Comp E β} {env : E} {h : Halt} :
    (bind c next).eval env = .error h ↔
      c.eval env = .error h ∨ ∃ a, c.eval env = .ok a ∧ (next a).eval env = .error h := by
  rw [eval]
  cases c.eval env with
  | ok a => simp
  | error h => simp

/-- Parts that end alike make for wholes that end alike. -/
theorem eval_bind_congr {e e' : E} {c c' : Comp E α} {k k' : α → Comp E β}
    (hc : c.eval e = c'.eval e')
    (hk : ∀ a, (k a).eval e = (k' a).eval e') : (bind c k).eval e = (bind c' k').eval e' := by
  rw [eval, eval, hc]
  cases c'.eval e' with
  | ok a => exact hk a
  | error h => rfl

@[simp] theorem eval_pure (a : α) (env : E) : (pure a).eval env = .ok a := rfl

@[simp] theorem eval_fail (d : Diagnostic) (env : E) :
    (fail d : Comp E α).eval env = .error (.rejected d) := rfl

@[simp] theorem eval_within (modify : E → E) (c : Comp E α) (env : E) :
    (within modify c).eval env = c.eval (modify env) := rfl

@[simp] theorem eval_suspend (c : Comp E α) (env : E) : (suspend c).eval env = c.eval env := rfl

@[simp] theorem eval_asks (f : E → α) (env : E) : (asks f).eval env = .ok (f env) := rfl

/-- The values of computations that are run one after the other in the same environment. -/
def evalAll (env : E) : List (Comp E α) → Except Halt (List α)
  | [] => .ok []
  | c :: cs =>
    match c.eval env with
    | .ok a => (evalAll env cs).map (a :: ·)
    | .error h => .error h

theorem eval_collectOnto (finish : List α → β) (cs : List (Comp E α)) (env : E) :
    ∀ seen, (collectOnto finish seen cs).eval env =
      (evalAll env cs).map fun as => finish (seen.reverse ++ as) := by
  induction cs with
  | nil => intro seen; simp [collectOnto, evalAll, Except.map]
  | cons c cs ih =>
    intro seen
    rw [collectOnto, eval, evalAll]
    cases c.eval env with
    | error h => rfl
    | ok a =>
      simp only [ih]
      cases evalAll env cs <;> simp [Except.map]

theorem eval_sequence (cs : List (Comp E α)) (env : E) :
    (sequence cs).eval env = evalAll env cs := by
  rw [sequence, collect, eval_collectOnto]
  cases evalAll env cs <;> rfl

theorem eval_sequence_congr {e e' : E} {cs cs' : List (Comp E α)}
    (h : cs.map (fun c => c.eval e) = cs'.map fun c => c.eval e') :
    (sequence cs).eval e = (sequence cs').eval e' := by
  rw [eval_sequence, eval_sequence]
  induction cs generalizing cs' with
  | nil =>
    cases cs' with
    | nil => rfl
    | cons c' cs' => cases h
  | cons c cs ih =>
    cases cs' with
    | nil => cases h
    | cons c' cs' =>
      rw [List.map_cons, List.map_cons, List.cons.injEq] at h
      rw [evalAll, evalAll, h.1, ih h.2]

/-- All computations end with a value, and these are the values. -/
theorem evalAll_ok {env : E} {cs : List (Comp E α)} {as : List α} :
    evalAll env cs = .ok as ↔
      cs.length = as.length ∧ ∀ x ∈ cs.zip as, x.1.eval env = .ok x.2 := by
  induction cs generalizing as with
  | nil => cases as <;> simp [evalAll]
  | cons c cs ih =>
    rw [evalAll]
    cases hc : c.eval env with
    | error h =>
      cases as with
      | nil => simp
      | cons a as => simp [hc]
    | ok b =>
      cases as with
      | nil => cases evalAll env cs <;> simp [Except.map]
      | cons a as =>
        have hcons : (evalAll env cs).map (b :: ·) = .ok (a :: as) ↔
            b = a ∧ evalAll env cs = .ok as := by
          cases evalAll env cs <;> simp [Except.map]
        rw [hcons, ih]
        simp only [List.length_cons, Nat.add_right_cancel_iff, List.zip_cons_cons,
          List.forall_mem_cons, hc, Except.ok.injEq]
        exact and_left_comm

/-- The failure is that of some computation, and all in front of it end with a value. -/
theorem evalAll_error {env : E} {cs : List (Comp E α)} {h : Halt} (he : evalAll env cs = .error h) :
    ∃ (i : Nat) (c : Comp E α), cs[i]? = some c ∧
      (∀ (j : Nat) (b : Comp E α), j < i → cs[j]? = some b → ∃ a, b.eval env = .ok a) ∧
      c.eval env = .error h := by
  induction cs with
  | nil => cases he
  | cons c cs ih =>
    rw [evalAll] at he
    cases hc : c.eval env with
    | error h' =>
      rw [hc] at he
      cases he
      exact ⟨0, c, rfl, fun j b hj _ => absurd hj (Nat.not_lt_zero j), hc⟩
    | ok a =>
      rw [hc] at he
      cases hcs : evalAll env cs with
      | ok as => rw [hcs] at he; cases he
      | error h' =>
        rw [hcs] at he
        cases he
        obtain ⟨i, c', hi, hb, hc'⟩ := ih hcs
        refine ⟨i + 1, c', hi, ?_, hc'⟩
        intro j b hj hjb
        cases j with
        | zero => cases hjb; exact ⟨a, hc⟩
        | succ j => exact hb j b (by omega) hjb

end Comp
end ArrowLang
