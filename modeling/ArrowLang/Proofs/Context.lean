import ArrowLang.Env

/-!
# ArrowLang.Proofs.Context

Contexts: what the names in scope stand for, without regard to how that is stored.

* `Context.bind`, `Context.bindAll`, `Context.bindParams`: contexts with further bindings, each of
  which hides the earlier ones of its name.

`Env.lookup_extend` says that environments of both strategies are contexts, as far as looking up and
extending go.
-/

namespace ArrowLang

/-- The types of the names in scope. -/
abbrev Context := String → Option Ty

namespace Context

/-- The context in which `name` has the type `τ`, whatever it had before. -/
def bind (Γ : Context) (name : String) (τ : Ty) : Context :=
  fun x => if x = name then some τ else Γ x

/-- The bindings are made in turn. -/
def bindAll (Γ : Context) : Bindings → Context
  | [] => Γ
  | b :: bs => bindAll (Γ.bind b.1 b.2) bs

/-- The parameters are bound in turn. -/
def bindParams (Γ : Context) : List (Param Ty) → Context
  | [] => Γ
  | p :: ps => bindParams (Γ.bind p.name p.type) ps

theorem bindParams_eq (Γ : Context) (params : List (Param Ty)) :
    Γ.bindParams params = Γ.bindAll (params.map fun p => (p.name, p.type)) := by
  induction params generalizing Γ with
  | nil => rfl
  | cons p params ih => exact ih _

/-- Bindings can be made on their own first and laid over a context afterwards. -/
theorem bindAll_or (Γ Δ : Context) (bindings : Bindings) :
    bindAll (fun x => (Δ x).or (Γ x)) bindings = fun x => (bindAll Δ bindings x).or (Γ x) := by
  induction bindings generalizing Δ with
  | nil => rfl
  | cons b bindings ih =>
    have hb : (bind (fun x => (Δ x).or (Γ x)) b.1 b.2) =
        fun x => (bind Δ b.1 b.2 x).or (Γ x) := by
      funext x
      simp only [bind]
      split <;> rfl
    rw [bindAll, hb, ih]
    rfl

end Context

section Entries

variable {κ α : Type} [BEq κ] [LawfulBEq κ]

/-- Replacing the value of a key changes what is found under that key only. -/
theorem lookup_map_replace (entries : List (κ × α)) (key : κ) (value : α) (x : κ) :
    (entries.map fun e => if e.1 == key then (e.1, value) else e).lookup x =
      if x == key then (entries.lookup x).map fun _ => value else entries.lookup x := by
  induction entries with
  | nil => simp
  | cons e entries ih =>
    obtain ⟨k, v⟩ := e
    by_cases hx : x = k
    · subst hx
      by_cases hk : x = key <;> simp [hk]
    · have hne : (x == k) = false := beq_eq_false_iff_ne.mpr hx
      by_cases hk : k = key
      · subst hk
        simp [List.lookup_cons, hne, ih]
      · simp [hk, List.lookup_cons, hne, ih]

/-- What is entered is found, and nothing else has changed. -/
theorem lookup_putEntry (entries : List (κ × α)) (key : κ) (value : α) (x : κ) :
    (putEntry entries key value).lookup x =
      if x == key then some value else entries.lookup x := by
  have hany : (entries.any fun e => e.1 == key) = (entries.lookup key).isSome := by
    rw [Bool.eq_iff_iff, List.lookup_isSome_iff, List.any_eq_true]
    simp only [BEq.comm]
  rw [putEntry, hany]
  cases hl : entries.lookup key with
  | none =>
    simp only [Option.isSome_none, Bool.false_eq_true, if_false, List.lookup_append]
    by_cases hx : x = key
    · subst hx
      simp [hl]
    · simp [List.lookup_cons, beq_eq_false_iff_ne.mpr hx]
  | some v =>
    simp only [Option.isSome_some, if_true, lookup_map_replace]
    by_cases hx : x = key
    · subst hx
      simp [hl]
    · simp [hx]

end Entries

namespace Scope

theorem get?_bind (s : Scope) (name : String) (τ : Ty) :
    (s.bind name τ).get? = Context.bind s.get? name τ := by
  funext x
  simp only [get?, bind, Context.bind, lookup_putEntry, beq_iff_eq]

theorem get?_bindAll (s : Scope) (bindings : Bindings) :
    (s.bindAll bindings).get? = Context.bindAll s.get? bindings := by
  induction bindings generalizing s with
  | nil => rfl
  | cons b bindings ih =>
    rw [Context.bindAll, ← get?_bind]
    exact ih (s.bind b.1 b.2)

end Scope

namespace Env

theorem lookup_copy (scope : Scope) : (copy scope).lookup = scope.get? := rfl

theorem lookup_chain (innermost : Scope) (outer : List Scope) :
    (chain innermost outer).lookup =
      fun x => (innermost.get? x).or (outer.findSome? (·.get? x)) := by
  funext x
  rw [lookup, List.findSome?_cons]
  cases innermost.get? x <;> rfl

/-- Both strategies extend an environment to the same effect: its bindings are made in turn. -/
theorem lookup_extend (env : Env) (bindings : Bindings) :
    (env.extend bindings).lookup = Context.bindAll env.lookup bindings := by
  cases env with
  | copy scope => rw [extend, lookup_copy, lookup_copy, Scope.get?_bindAll]
  | chain innermost outer =>
    cases bindings with
    | nil => rfl
    | cons b bindings =>
      have hempty : Scope.empty.get? = fun _ => none := rfl
      rw [extend, List.isEmpty_cons, if_neg Bool.false_ne_true, lookup_chain, Scope.ofBindings,
        Scope.get?_bindAll, hempty]
      exact (Context.bindAll_or (chain innermost outer).lookup (fun _ => none) (b :: bindings)).symm

end Env

end ArrowLang
