import ArrowLang.Proofs.TypeEquality
import Mathlib.Tactic.Common
import Mathlib.Tactic.TFAE

/-!
# ArrowLang.Proofs.Shapes

A shape determines its type up to parameter names.

* `Ty.sign`, `Ty.parts`: the sign that a type is written with, and the types written after it.
* `Ty.shapeOnto_cons`: a shape is written one type at a time, with what is below it put in front of
  the rest.
* `Ty.shapeOnto_inj`: as many types with the same shape are the same without names, one by one.

A shape alone does not say where the shape of one type ends and that of the next begins. The number
of types still to be read does: a sign takes one of them away and adds its arity. So the induction
is over two lists of one length and asks nothing of what follows them.
-/

namespace ArrowLang
namespace Ty

def sign : Ty → Sign
  | .boolean => .boolean
  | .number => .number
  | .func params _ => .func params.length

def parts : Ty → List Ty
  | .boolean | .number => []
  | .func params ret => params.map Param.type ++ [ret]

theorem length_parts {σ τ : Ty} (h : σ.sign = τ.sign) : σ.parts.length = τ.parts.length := by
  cases σ <;> cases τ <;> simp_all [sign, parts]

theorem totalSize_parts (τ : Ty) : totalSize τ.parts < τ.size := by
  cases τ with
  | boolean => simp [parts, size]
  | number => simp [parts, size]
  | func params ret => simp [parts, size_func]

theorem eraseNames_eq_iff {σ τ : Ty} :
    σ.eraseNames = τ.eraseNames ↔
      σ.sign = τ.sign ∧ σ.parts.map eraseNames = τ.parts.map eraseNames := by
  cases σ with
  | boolean => cases τ <;> simp [sign, parts, eraseNames]
  | number => cases τ <;> simp [sign, parts, eraseNames]
  | func params ret =>
    cases τ with
    | boolean => simp [sign, eraseNames]
    | number => simp [sign, eraseNames]
    | func params' ret' =>
      rw [eraseNames_func, eraseNames_func, func.injEq, sign, sign, Sign.func.injEq, parts, parts,
        map_eraseNames_eq_iff, List.map_append, List.map_append]
      constructor
      · rintro ⟨hparams, hret⟩
        have hlength := congrArg List.length hparams
        simp only [List.length_map] at hlength
        exact ⟨hlength, by rw [hparams, List.map_singleton, hret]; rfl⟩
      · rintro ⟨hlength, h⟩
        obtain ⟨hparams, hret⟩ := List.append_inj h (by simpa using hlength)
        exact ⟨hparams, List.head_eq_of_cons_eq hret⟩

/-! ## Writing shapes -/

theorem shapeOnto_append (written first : List Sign) (pending : List Ty) :
    shapeOnto (written ++ first) pending = first.reverse ++ shapeOnto written pending := by
  fun_induction shapeOnto written pending with
  | case1 written => rw [shapeOnto, List.reverse_append]
  | case2 written rest ih => rw [shapeOnto]; exact ih
  | case3 written rest ih => rw [shapeOnto]; exact ih
  | case4 written params ret rest ih =>
    simp only [List.map_subtype, List.unattach_attach] at ih ⊢
    rw [shapeOnto]
    exact ih

theorem shapeOnto_cons (τ : Ty) (rest : List Ty) :
    shapeOnto [] (τ :: rest) = τ.sign :: shapeOnto [] (τ.parts ++ rest) := by
  cases τ with
  | boolean => rw [shapeOnto]; exact shapeOnto_append [] [.boolean] rest
  | number => rw [shapeOnto]; exact shapeOnto_append [] [.number] rest
  | func params ret =>
    rw [shapeOnto, parts, List.append_assoc]
    exact shapeOnto_append [] [.func params.length] _

theorem shapeOnto_inj (σs τs : List Ty) (hl : σs.length = τs.length) :
    shapeOnto [] σs = shapeOnto [] τs ↔ σs.map eraseNames = τs.map eraseNames := by
  induction hn : totalSize σs using Nat.strongRecOn generalizing σs τs with
  | ind n ih =>
    cases σs with
    | nil =>
      cases List.length_eq_zero_iff.mp hl.symm
      exact iff_of_true rfl rfl
    | cons σ σs =>
      obtain ⟨τ, τs, rfl⟩ := List.exists_cons_of_length_eq_add_one hl.symm
      rw [shapeOnto_cons, shapeOnto_cons, List.cons.injEq, List.map_cons, List.map_cons,
        List.cons.injEq, eraseNames_eq_iff, and_assoc]
      refine and_congr_right fun hsign => ?_
      -- the same sign asks for as many parts, so the lists still to be written keep one length
      have hparts := length_parts hsign
      have hlength : (σ.parts ++ σs).length = (τ.parts ++ τs).length := by
        simp only [List.length_cons, List.length_append] at hl ⊢
        omega
      have hless : totalSize (σ.parts ++ σs) < n := by
        have := σ.totalSize_parts
        rw [totalSize_cons] at hn
        rw [totalSize_append]
        omega
      rw [ih _ hless _ _ hlength rfl, List.map_append, List.map_append]
      constructor
      · intro h
        exact List.append_inj h (by simpa using hparts)
      · rintro ⟨hσ, hσs⟩
        rw [hσ, hσs]

theorem shape_eq_iff {σ τ : Ty} : σ.shape = τ.shape ↔ σ.eraseNames = τ.eraseNames := by
  rw [shape, shape, shapeOnto_inj [σ] [τ] rfl, List.map_singleton, List.map_singleton,
    List.singleton_inj]

/-! ## Equality and hashing -/

theorem equal_equivalence : Equivalence fun σ τ : Ty => σ.equal τ = true where
  refl _ := equal_iff.mpr rfl
  symm h := equal_iff.mpr (equal_iff.mp h).symm
  trans h h' := equal_iff.mpr ((equal_iff.mp h).trans (equal_iff.mp h'))

/-- Going by the kind of type first gives the same answer as comparing pair by pair. -/
theorem beq_eq_equal (σ τ : Ty) : (σ == τ) = σ.equal τ := by
  change sameType σ τ = σ.equal τ
  cases σ <;> cases τ <;> simp [sameType, equal, equalPairs]

theorem beq_iff {σ τ : Ty} : (σ == τ) = true ↔ σ.equal τ = true := by
  rw [beq_eq_equal]

instance : EquivBEq Ty where
  rfl := beq_iff.mpr (equal_equivalence.refl _)
  symm h := beq_iff.mpr (equal_equivalence.symm (beq_iff.mp h))
  trans h h' := beq_iff.mpr (equal_equivalence.trans (beq_iff.mp h) (beq_iff.mp h'))

/-- Equal types are of one kind, and equal function types have one shape. -/
theorem hashCode_congr {σ τ : Ty} (h : σ.equal τ = true) : σ.hashCode = τ.hashCode := by
  have hshape : σ.shape = τ.shape := shape_eq_iff.mpr (equal_iff.mp h)
  rcases kinds_of_eraseNames (equal_iff.mp h) with
    ⟨rfl, rfl⟩ | ⟨rfl, rfl⟩ | ⟨params, ret, params', ret', rfl, rfl, -, -⟩
  · rfl
  · rfl
  · exact congrArg (hash (α := List Sign)) hshape

instance : LawfulHashable Ty where
  hash_eq _ _ h := hashCode_congr (beq_iff.mp h)

end Ty

/-- There is one equality of types, whichever way it is asked for. It is an equivalence, and a set
of types keeps one of those that are equal. -/
theorem ty_equalities_tfae :
    (∀ (σ τ : Ty) (p q : String),
      [σ.equal τ = true, (σ == τ) = true, ((⟨p, σ⟩ : Param Ty) == ⟨q, τ⟩) = true,
        σ.shape = τ.shape, σ.eraseNames = τ.eraseNames].TFAE) ∧
    Equivalence (fun σ τ : Ty => σ.equal τ = true) ∧
    (∀ σ τ : Ty, σ.equal τ = true → hash σ = hash τ) ∧
    ∀ (types : Std.HashSet Ty) (σ τ : Ty),
      (types.insert σ).contains τ = (σ.equal τ || types.contains τ) ∧
      ((types.insert σ).insert τ).size =
        if σ.equal τ || types.contains τ then (types.insert σ).size
        else (types.insert σ).size + 1 := by
  refine ⟨?_, Ty.equal_equivalence, fun σ τ h => Ty.hashCode_congr h, ?_⟩
  · intro σ τ p q
    tfae_have 1 ↔ 2 := Ty.beq_iff.symm
    tfae_have 2 ↔ 3 := Iff.rfl
    tfae_have 1 ↔ 5 := Ty.equal_iff
    tfae_have 4 ↔ 5 := Ty.shape_eq_iff
    tfae_finish
  · intro types σ τ
    have hmem : (types.insert σ).contains τ = (σ.equal τ || types.contains τ) := by
      rw [Std.HashSet.contains_insert, Ty.beq_eq_equal]
    refine ⟨hmem, ?_⟩
    rw [Std.HashSet.size_insert, ← hmem]
    rfl

end ArrowLang
