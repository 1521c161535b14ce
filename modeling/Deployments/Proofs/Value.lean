import Deployments.Value

/-!
Equality of values, part by part, is decided.
-/

namespace Deployments.Value

mutual

def same : Value → Value → Bool
  | null, null => true
  | bool b, bool c => b == c
  | int m, int n => m == n
  | float x, float y => decide (x = y)
  | text s, text t => s == t
  | bytes bs, bytes cs => bs == cs
  | date d, date e => decide (d = e)
  | moment m, moment n => decide (m = n)
  | list items, list others => sameItems items others
  | tuple items, tuple others => sameItems items others
  | set items, set others => sameItems items others
  | dict entries, dict others => sameEntries entries others
  | again isList, again other => isList == other
  | _, _ => false
termination_by structural v => v

def sameItems : List Value → List Value → Bool
  | [], [] => true
  | v :: vs, w :: ws => same v w && sameItems vs ws
  | _, _ => false
termination_by structural items => items

def sameEntries : Entries → Entries → Bool
  | [], [] => true
  | (key, v) :: vs, (other, w) :: ws => same key other && same v w && sameEntries vs ws
  | _, _ => false
termination_by structural entries => entries

end

mutual

theorem eq_of_same {v w : Value} (equal : same v w = true) : v = w := by
  unfold same at equal
  split at equal
  case h_1 => rfl
  case h_9 | h_10 | h_11 => rw [eq_of_sameItems equal]
  case h_12 => rw [eq_of_sameEntries equal]
  case h_14 => cases equal
  all_goals simpa using equal

theorem eq_of_sameItems {items others : List Value} (equal : sameItems items others = true) :
    items = others := by
  unfold sameItems at equal
  split at equal
  next => rfl
  next =>
    obtain ⟨first, rest⟩ := Bool.and_eq_true_iff.mp equal
    rw [eq_of_same first, eq_of_sameItems rest]
  next => cases equal

theorem eq_of_sameEntries {entries others : Entries} (equal : sameEntries entries others = true) :
    entries = others := by
  unfold sameEntries at equal
  split at equal
  next => rfl
  next =>
    obtain ⟨first, rest⟩ := Bool.and_eq_true_iff.mp equal
    obtain ⟨key, value⟩ := Bool.and_eq_true_iff.mp first
    rw [eq_of_same key, eq_of_same value, eq_of_sameEntries rest]
  next => cases equal

end

mutual

theorem same_self (v : Value) : same v v = true := by
  cases v with
  | list items | tuple items | set items => exact sameItems_self items
  | dict entries => exact sameEntries_self entries
  | _ => simp [same]

theorem sameItems_self (items : List Value) : sameItems items items = true := by
  match items with
  | [] => rfl
  | v :: vs => simp [sameItems, same_self v, sameItems_self vs]

theorem sameEntries_self (entries : Entries) : sameEntries entries entries = true := by
  match entries with
  | [] => rfl
  | (key, v) :: vs => simp [sameEntries, same_self key, same_self v, sameEntries_self vs]

end

instance : DecidableEq Value := fun v w =>
  decidable_of_iff (same v w = true) ⟨eq_of_same, fun equal => equal ▸ same_self v⟩

end Deployments.Value
