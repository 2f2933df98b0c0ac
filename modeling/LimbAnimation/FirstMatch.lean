/-!
# Changing the first match

A list in which one element, the first of a kind, is replaced.
-/

namespace LimbAnimation

/-- The list with its first element that satisfies `chosen` changed. -/
def modifyFirst {α : Type} (chosen : α → Bool) (change : α → α) : List α → List α
  | [] => []
  | head :: rest =>
    if chosen head then change head :: rest else head :: modifyFirst chosen change rest

end LimbAnimation
