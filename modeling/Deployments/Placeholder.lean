import Deployments.Text.Word
import Deployments.Value

/-!
Placeholders for variables of the environment. `${NAME}` in a text stands for the value of the
variable `NAME`, or for nothing if it is not set. All placeholders of a text are replaced at once:
the values put in are not looked at again.
-/

namespace Deployments

open Text

/-- The variables that are set, with their values. -/
abbrev Environment := String → Option Text

namespace Placeholder

/-- The name of the placeholder at the beginning of a text, and the rest behind it. -/
def leading? : List Point → Option (List Char × List Point)
  | .char '$' :: .char '\x7b' :: ps =>
    match ps.takeWhile (Point.is isWordChar), ps.dropWhile (Point.is isWordChar) with
    | p :: name, .char '\x7d' :: rest => some ((p :: name).map Point.shown, rest)
    | _, _ => none
  | _ => none

theorem length_of_leading? {ps rest : List Point} {name : List Char}
    (h : leading? ps = some (name, rest)) : rest.length < ps.length := by
  unfold leading? at h
  split at h
  · rename_i inner
    have parts := List.takeWhile_append_dropWhile (p := Point.is isWordChar) (l := inner)
    split at h
    · rename_i first tail hTake hDrop
      simp only [Option.some.injEq, Prod.mk.injEq] at h
      rw [hTake, hDrop] at parts
      rw [← parts]
      simp [h.2]
      omega
    · simp at h
  · simp at h

def expandPoints (env : Environment) (ps : List Point) : List Point :=
  match found : leading? ps with
  | some (name, rest) =>
    have := length_of_leading? found
    ((env (String.ofList name)).getD "").toList ++ expandPoints env rest
  | none =>
    match ps with
    | [] => []
    | p :: tail => p :: expandPoints env tail
termination_by ps.length

def expand (env : Environment) (s : Text) : Text := ofList (expandPoints env s.toList)

mutual

/-- The value with placeholders replaced in every text reached through lists and the values of
mappings; keys and everything else are kept. -/
def substitute (env : Environment) : Value → Value
  | .text s => .text (expand env s)
  | .list items => .list (substituteItems env items)
  | .dict entries => .dict (substituteEntries env entries)
  | v => v
termination_by structural x => x

def substituteItems (env : Environment) : List Value → List Value
  | [] => []
  | v :: vs => substitute env v :: substituteItems env vs
termination_by structural x => x

def substituteEntries (env : Environment) : List (Value × Value) → List (Value × Value)
  | [] => []
  | (k, v) :: es => (k, substitute env v) :: substituteEntries env es
termination_by structural x => x

end

def namesOfPoints (ps : List Point) : List String :=
  match found : leading? ps with
  | some (name, rest) =>
    have := length_of_leading? found
    String.ofList name :: namesOfPoints rest
  | none =>
    match ps with
    | [] => []
    | _ :: tail => namesOfPoints tail
termination_by ps.length

mutual

def names : Value → List String
  | .text s => namesOfPoints s.toList
  | .list items => namesOfItems items
  | .dict entries => namesOfEntries entries
  | _ => []
termination_by structural x => x

def namesOfItems : List Value → List String
  | [] => []
  | v :: vs => names v ++ namesOfItems vs
termination_by structural x => x

def namesOfEntries : List (Value × Value) → List String
  | [] => []
  | (_, v) :: es => names v ++ namesOfEntries es
termination_by structural x => x

end

theorem substituteEntries_eq_map (env : Environment) (entries : List (Value × Value)) :
    substituteEntries env entries = entries.map fun e => (e.1, substitute env e.2) := by
  induction entries with
  | nil => simp [substituteEntries]
  | cons e es ih => obtain ⟨k, v⟩ := e; simp [substituteEntries, ih]

end Placeholder

end Deployments
