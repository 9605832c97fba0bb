import ArrowLang.Ty

/-!
# ArrowLang.Ty.Render

Types as text, in the form in which annotations are written. Types nest to any depth, so the writer
keeps the types still to come on a list of its own, each with the text that follows it.
-/

namespace ArrowLang
namespace Ty

/-- The text between the opening parenthesis of a function type and its first annotation. -/
def lead : List (Param Ty) → String
  | [] => ") => "
  | p :: _ => p.name ++ ": "

/-- The annotations of a function type, each with the text up to the next one or to the result. -/
def slots (params : List (Param Ty)) : List (Ty × String) :=
  params.zipWith (fun p follow => (p.type, follow))
    ((params.drop 1).map (fun q => ", " ++ q.name ++ ": ") ++ [") => "])

theorem slots_fst (params : List (Param Ty)) :
    (slots params).map Prod.fst = params.map Param.type := by
  have h (as : List (Param Ty)) (bs : List String) (hl : as.length = bs.length) :
      (as.zipWith (fun p follow => (p.type, follow)) bs).map Prod.fst = as.map Param.type := by
    induction as generalizing bs with
    | nil => rfl
    | cons a as ih =>
      cases bs with
      | nil => simp at hl
      | cons b bs => simp [ih bs (by simpa using hl)]
  cases params with
  | nil => rfl
  | cons p params => exact h _ _ (by simp)

/-- Writes the pending types, each followed by its text, after `written`. -/
def renderOnto (written : String) (pending : List (Ty × String)) : String :=
  match pending with
  | [] => written
  | (.boolean, follow) :: rest => renderOnto (written ++ "boolean" ++ follow) rest
  | (.number, follow) :: rest => renderOnto (written ++ "number" ++ follow) rest
  | (.func params ret, follow) :: rest =>
    renderOnto (written ++ "(" ++ lead params) (slots params ++ (ret, follow) :: rest)
termination_by totalSize (pending.map Prod.fst)
decreasing_by
  · simp [size]
  · simp [size]
  · simp [size_func, slots_fst]; omega

/-- A type as it is written in an annotation. -/
def render (τ : Ty) : String := renderOnto "" [(τ, "")]

end Ty

/-- A parameter as it is written in a parameter list. -/
def Param.render (p : Param Ty) : String := p.name ++ ": " ++ p.type.render

end ArrowLang
