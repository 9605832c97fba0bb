import ArrowLang.Ty

/-!
# ArrowLang.Ty.Equality

Equality of types up to parameter names.

* `Ty.equal`: compares two types pair by pair, with the pairs still to compare on a list.
* `Ty.shape`: the type written out in pre-order, a function by its number of parameters. Equal types
  have equal shapes, so the shape serves as the key under which function types are hashed.

`==` and `hash` go by the kind of type. A basic type equals its own kind and hashes as a value
without parts; function types are left to `Ty.equal` and `Ty.shape`. Parameters are equal if their
types are.
-/

namespace ArrowLang
namespace Ty

/-- All pairs are equal up to parameter names. -/
def equalPairs (pending : List (Ty × Ty)) : Bool :=
  match pending with
  | [] => true
  | (.boolean, .boolean) :: rest => equalPairs rest
  | (.number, .number) :: rest => equalPairs rest
  | (.func params ret, .func params' ret') :: rest =>
    if params.length = params'.length then
      equalPairs ((params.map Param.type).zip (params'.map Param.type) ++ (ret, ret') :: rest)
    else false
  | _ :: _ => false
termination_by totalSize (pending.map Prod.fst)
decreasing_by
  · simp [size]
  · simp [size]
  · rename_i h
    have hz : ((params.map Param.type).zip (params'.map Param.type)).map Prod.fst =
        params.map Param.type := List.map_fst_zip (by simp [h])
    simp [size_func, hz]; omega

/-- Equality up to parameter names. -/
def equal (σ τ : Ty) : Bool := equalPairs [(σ, τ)]

/-- One sign of a shape. -/
inductive Sign where
  | boolean
  | number
  | func (arity : Nat)
  deriving DecidableEq, Hashable

/-- Writes the shapes of the pending types, in order, after the signs in `written`, of which the
newest comes first. -/
def shapeOnto (written : List Sign) (pending : List Ty) : List Sign :=
  match pending with
  | [] => written.reverse
  | .boolean :: rest => shapeOnto (.boolean :: written) rest
  | .number :: rest => shapeOnto (.number :: written) rest
  | .func params ret :: rest =>
    shapeOnto (.func params.length :: written) (params.map Param.type ++ ret :: rest)
termination_by totalSize pending
decreasing_by
  · simp [size]
  · simp [size]
  · simp [size_func]; omega

/-- The type in pre-order, without parameter names. -/
def shape (τ : Ty) : List Sign := shapeOnto [] [τ]

/-- A type of another kind is never equal, whichever of the two is asked. -/
def sameType : Ty → Ty → Bool
  | .boolean, .boolean => true
  | .number, .number => true
  | .func params ret, .func params' ret' => equal (.func params ret) (.func params' ret')
  | _, _ => false

def hashCode : Ty → UInt64
  | .boolean | .number => hash ()
  | .func params ret => hash (shape (.func params ret))

instance : BEq Ty := ⟨sameType⟩

instance : Hashable Ty := ⟨hashCode⟩

end Ty

instance : BEq (Param Ty) := ⟨fun p q => p.type == q.type⟩

end ArrowLang
