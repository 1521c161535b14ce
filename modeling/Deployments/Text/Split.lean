/-!
Texts cut at a separator.
-/

namespace Deployments.Text

/-- The parts of a text in front of, between and behind the separators. -/
def split {α : Type} [DecidableEq α] (separator : α) : List α → List (List α)
  | [] => [[]]
  | c :: cs =>
    if c = separator then [] :: split separator cs
    else match split separator cs with
      | [] => [[c]]
      | part :: rest => (c :: part) :: rest

example : split ':' "a::b".toList = [['a'], [], ['b']] := by decide

end Deployments.Text
