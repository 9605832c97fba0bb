/-!
# ArrowLang.Ty

The types of the language: booleans, numbers, and functions from annotated parameters to a result.
Parameter names are part of a type's text only; `ArrowLang.Ty.Equality` compares types without them.
-/

namespace ArrowLang

/-- A parameter with its annotation. -/
structure Param (τ : Type) where
  name : String
  type : τ

inductive Ty where
  | boolean
  | number
  | func (params : List (Param Ty)) (ret : Ty)

namespace Ty

/-- The number of types that occur in a type, itself included. -/
def size : Ty → Nat
  | .boolean => 1
  | .number => 1
  | .func params ret => paramsSize params + ret.size + 1
where
  paramsSize : List (Param Ty) → Nat
    | [] => 0
    | ⟨_, τ⟩ :: params => τ.size + paramsSize params

/-- The sizes of a list of types, added up. -/
def totalSize (τs : List Ty) : Nat := τs.foldr (fun τ n => τ.size + n) 0

theorem paramsSize_eq (params : List (Param Ty)) :
    size.paramsSize params = totalSize (params.map Param.type) := by
  induction params with
  | nil => rfl
  | cons p params ih => simp [size.paramsSize, ih, totalSize]

theorem size_func (params : List (Param Ty)) (ret : Ty) :
    (func params ret).size = totalSize (params.map Param.type) + ret.size + 1 := by
  rw [size, paramsSize_eq]

theorem size_pos (τ : Ty) : 0 < τ.size := by
  cases τ <;> simp [size]

@[simp] theorem totalSize_nil : totalSize [] = 0 := rfl

@[simp] theorem totalSize_cons (τ : Ty) (τs : List Ty) :
    totalSize (τ :: τs) = τ.size + totalSize τs := rfl

@[simp] theorem totalSize_append (τs υs : List Ty) :
    totalSize (τs ++ υs) = totalSize τs + totalSize υs := by
  induction τs with
  | nil => simp
  | cons τ τs ih => simp [ih, Nat.add_assoc]

/-- The name of a type's variant. -/
def variantName : Ty → String
  | .boolean => "BooleanType"
  | .number => "NumberType"
  | .func .. => "FunctionType"

end Ty

end ArrowLang
