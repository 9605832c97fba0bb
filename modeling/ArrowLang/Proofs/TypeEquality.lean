import ArrowLang.Ty.Equality

/-!
# ArrowLang.Proofs.TypeEquality

Equality of types is equality of what is left of them without parameter names.

* `Ty.eraseNames`: the type with an empty name for each parameter, at every depth.
* `Ty.equal_iff`: types are equal if and only if they are the same without names.

So comparing types is the same as comparing them without names, and only a function type equals a
function type.
-/

namespace ArrowLang

/-- Lists of one length agree under `f` if their members do pair by pair. -/
theorem map_eq_map_iff_zip {α β : Type} (f : α → β) {as bs : List α}
    (hl : as.length = bs.length) :
    as.map f = bs.map f ↔ ∀ x ∈ as.zip bs, f x.1 = f x.2 := by
  induction as generalizing bs with
  | nil =>
    cases bs with
    | nil => simp
    | cons b bs => simp at hl
  | cons a as ih =>
    cases bs with
    | nil => simp at hl
    | cons b bs =>
      simp only [List.length_cons, Nat.add_right_cancel_iff] at hl
      simp only [List.map_cons, List.cons.injEq, List.zip_cons_cons, List.forall_mem_cons, ih hl]

namespace Ty

def eraseNames : Ty → Ty
  | .boolean => .boolean
  | .number => .number
  | .func params ret => .func (eraseParams params) ret.eraseNames
where
  eraseParams : List (Param Ty) → List (Param Ty)
    | [] => []
    | ⟨_, τ⟩ :: params => ⟨"", τ.eraseNames⟩ :: eraseParams params

end Ty

/-- The parameter without its name and without those in its type. -/
def Param.eraseNames (p : Param Ty) : Param Ty := ⟨"", p.type.eraseNames⟩

namespace Ty

theorem eraseParams_eq (params : List (Param Ty)) :
    eraseNames.eraseParams params = params.map Param.eraseNames := by
  induction params with
  | nil => rfl
  | cons p params ih => rw [eraseNames.eraseParams, ih]; rfl

theorem eraseNames_func (params : List (Param Ty)) (ret : Ty) :
    (func params ret).eraseNames = .func (params.map Param.eraseNames) ret.eraseNames := by
  rw [eraseNames, eraseParams_eq]

/-- Types that are the same without names are both basic, or both function types whose parts are the
same without names. -/
theorem kinds_of_eraseNames {σ τ : Ty} (h : σ.eraseNames = τ.eraseNames) :
    (σ = .boolean ∧ τ = .boolean) ∨ (σ = .number ∧ τ = .number) ∨
      ∃ params ret params' ret', σ = .func params ret ∧ τ = .func params' ret' ∧
        params.map Param.eraseNames = params'.map Param.eraseNames ∧
        ret.eraseNames = ret'.eraseNames := by
  cases σ with
  | boolean =>
    cases τ with
    | boolean => exact .inl ⟨rfl, rfl⟩
    | _ => cases h
  | number =>
    cases τ with
    | number => exact .inr (.inl ⟨rfl, rfl⟩)
    | _ => cases h
  | func params ret =>
    cases τ with
    | func params' ret' =>
      rw [eraseNames_func, eraseNames_func, func.injEq] at h
      exact .inr (.inr ⟨params, ret, params', ret', rfl, rfl, h⟩)
    | _ => cases h

theorem eraseNames_eraseNames : (τ : Ty) → τ.eraseNames.eraseNames = τ.eraseNames
  | .boolean => rfl
  | .number => rfl
  | .func params ret => by
    rw [eraseNames, eraseNames, eraseParams_eraseParams params, eraseNames_eraseNames ret]
where
  eraseParams_eraseParams : (params : List (Param Ty)) →
      eraseNames.eraseParams (eraseNames.eraseParams params) = eraseNames.eraseParams params
    | [] => rfl
    | ⟨_, τ⟩ :: params => by
      rw [eraseNames.eraseParams, eraseNames.eraseParams, eraseNames_eraseNames τ,
        eraseParams_eraseParams params]

/-- Parameters agree without names if their types do. -/
theorem map_eraseNames_eq_iff {params params' : List (Param Ty)} :
    params.map Param.eraseNames = params'.map Param.eraseNames ↔
      (params.map Param.type).map eraseNames = (params'.map Param.type).map eraseNames := by
  have h (ps : List (Param Ty)) :
      ps.map Param.eraseNames = ((ps.map Param.type).map eraseNames).map (Param.mk "") := by
    rw [List.map_map, List.map_map]
    rfl
  rw [h, h, List.map_inj_right fun σ τ heq => (Param.mk.inj heq).2]

theorem map_eraseNames_iff {params params' : List (Param Ty)}
    (hl : params.length = params'.length) :
    params.map Param.eraseNames = params'.map Param.eraseNames ↔
      ∀ x ∈ (params.map Param.type).zip (params'.map Param.type),
        x.1.eraseNames = x.2.eraseNames := by
  have hl' : (params.map Param.type).length = (params'.map Param.type).length := by simpa using hl
  rw [map_eraseNames_eq_iff, map_eq_map_iff_zip eraseNames hl']

theorem equalPairs_iff (pending : List (Ty × Ty)) :
    equalPairs pending = true ↔ ∀ x ∈ pending, x.1.eraseNames = x.2.eraseNames := by
  fun_induction equalPairs pending with
  | case1 => simp
  | case2 rest ih => simp [ih]
  | case3 rest ih => simp [ih]
  | case4 params ret params' ret' rest hl ih =>
    simp only [List.map_subtype, List.unattach_attach] at ih
    rw [ih, List.forall_mem_append, List.forall_mem_cons, List.forall_mem_cons, eraseNames_func,
      eraseNames_func, func.injEq, map_eraseNames_iff hl, and_assoc]
  | case5 params ret params' ret' rest hl =>
    refine iff_of_false Bool.false_ne_true fun h => hl ?_
    have hfunc := h _ List.mem_cons_self
    rw [eraseNames_func, eraseNames_func, func.injEq] at hfunc
    simpa using congrArg List.length hfunc.1
  | case6 x rest hbool hnum hfunc =>
    -- the two types are of different kinds, and erasing names keeps the kind
    refine iff_of_false Bool.false_ne_true fun h => ?_
    have hx := h x List.mem_cons_self
    obtain ⟨σ, τ⟩ := x
    cases σ with
    | boolean =>
      cases τ with
      | boolean => exact hbool rfl
      | _ => cases hx
    | number =>
      cases τ with
      | number => exact hnum rfl
      | _ => cases hx
    | func params ret =>
      cases τ with
      | func params' ret' => exact hfunc params ret params' ret' rfl
      | _ => cases hx

theorem equal_iff {σ τ : Ty} : σ.equal τ = true ↔ σ.eraseNames = τ.eraseNames := by
  simp [equal, equalPairs_iff]

/-- Types can be compared without their names. -/
theorem equal_eraseNames (σ τ : Ty) : σ.eraseNames.equal τ.eraseNames = σ.equal τ := by
  rw [Bool.eq_iff_iff, equal_iff, equal_iff, eraseNames_eraseNames, eraseNames_eraseNames]

theorem equal_congr {σ σ' τ τ' : Ty} (hσ : σ.eraseNames = σ'.eraseNames)
    (hτ : τ.eraseNames = τ'.eraseNames) : σ.equal τ = σ'.equal τ' := by
  rw [← equal_eraseNames σ, ← equal_eraseNames σ', hσ, hτ]

end Ty
end ArrowLang
