import Mathlib.Algebra.Order.Ring.Nat
import Mathlib.Data.List.Induction
import Deployments.Proofs.Inventory
import Deployments.Proofs.Snapshot

/-!
The integers of an inventory. If no integer of a document has too many digits, then none that is
read from it has: texts with too many digits are refused, and numbers that are integers are words.
-/

namespace Deployments

open Decimal Reading

namespace Value

mutual

/-- The integers in a value, at any depth. -/
def integers : Value → List Int
  | int n => [n]
  | list items | tuple items | set items => itemIntegers items
  | dict entries => entryIntegers entries
  | _ => []
termination_by structural x => x

def itemIntegers : List Value → List Int
  | [] => []
  | v :: vs => v.integers ++ itemIntegers vs
termination_by structural x => x

def entryIntegers : List (Value × Value) → List Int
  | [] => []
  | (k, v) :: rest => k.integers ++ (v.integers ++ entryIntegers rest)
termination_by structural x => x

end

theorem mem_itemIntegers {n : Int} {items : List Value} {v : Value} (member : v ∈ items)
    (inside : n ∈ v.integers) : n ∈ itemIntegers items := by
  induction member with
  | head => exact List.mem_append_left _ inside
  | tail _ _ ih => exact List.mem_append_right _ ih

theorem mem_entryIntegers {n : Int} {entries : Entries} {entry : Value × Value}
    (member : entry ∈ entries) (inside : n ∈ entry.1.integers ∨ n ∈ entry.2.integers) :
    n ∈ entryIntegers entries := by
  induction member with
  | head => exact List.mem_append.mpr (inside.imp_right (List.mem_append_left _))
  | tail _ _ ih => exact List.mem_append_right _ (List.mem_append_right _ ih)

theorem mem_integers_of_part {n : Int} {v : Value} (part : (int n).Part v) : n ∈ v.integers := by
  induction part with
  | self => exact List.mem_singleton_self n
  | list member _ ih | tuple member _ ih | set member _ ih => exact mem_itemIntegers member ih
  | key member _ ih => exact mem_entryIntegers member (.inl ih)
  | value member _ ih => exact mem_entryIntegers member (.inr ih)

end Value

/-- An integer among the values has no more digits than can be converted to text. -/
def Value.Writable : Value → Prop
  | .int n => Decimal.Writable n
  | _ => True

namespace Decimal

theorem ofDigits_lt {base : Nat} {ds : List Nat} (small : ∀ d ∈ ds, d < base) :
    ofDigits base ds < base ^ ds.length := by
  induction ds using List.reverseRecOn with
  | nil => simp [ofDigits]
  | append_singleton ds d ih =>
    have first := ih fun d member => small d (List.mem_append_left _ member)
    have last : d < base := small d (by simp)
    calc ofDigits base (ds ++ [d])
        = base * ofDigits base ds + d := ofDigits_append base ds d
      _ < base * ofDigits base ds + base := Nat.add_lt_add_left last _
      _ = base * (ofDigits base ds + 1) := by rw [Nat.mul_add, Nat.mul_one]
      _ ≤ base * base ^ ds.length := Nat.mul_le_mul_left base first
      _ = base ^ (ds ++ [d]).length := by simp [Nat.pow_succ, Nat.mul_comm]

theorem digitsValue_lt {cs : List Char} (digits : cs.all Char.isDigit = true) :
    digitsValue cs < 10 ^ cs.length := by
  have small : ∀ d ∈ cs.map fun c => c.toNat - 48, d < 10 := by
    intro d member
    obtain ⟨c, inside, rfl⟩ := List.mem_map.mp member
    have digit := List.all_eq_true.mp digits c inside
    simp only [Char.isDigit, Bool.and_eq_true, decide_eq_true_eq, UInt32.le_iff_toNat_le] at digit
    have upper : c.toNat ≤ 57 := digit.2
    omega
  have bound := ofDigits_lt small
  rwa [List.length_map] at bound

theorem writable_neg {n : Int} : Writable (-n) ↔ Writable n := by
  rw [Writable, Int.natAbs_neg, Writable]

theorem writable_of_isWord {n : Int} (word : isWord n = true) : Writable n := by
  have bounds : -wordBound < n ∧ n < wordBound := by simpa [isWord] using word
  have small : n.natAbs < 10 ^ 19 := by
    have bound : wordBound = 9223372036854775808 := rfl
    omega
  rw [writable_iff]
  exact Nat.lt_of_lt_of_le small (Nat.pow_le_pow_right (by decide) (by decide))

end Decimal

namespace Reading

theorem writable_integerOfNumber {x : Binary64} {n : Int} (done : integerOfNumber x = .ok n) :
    Writable n := by
  unfold integerOfNumber at done
  split at done
  next => cases done
  next =>
    split at done
    next => cases done
    next =>
      split at done
      next word =>
        cases done
        exact writable_of_isWord word
      next => cases done

theorem all_isDigit_of_integerDigits? {cs digits : List Char} {negative : Bool}
    (found : integerDigits? cs = some (negative, digits)) : digits.all Char.isDigit = true := by
  simp only [integerDigits?] at found
  split at found
  next whole _ =>
    rw [Option.ite_none_right_eq_some] at found
    obtain ⟨plain, same⟩ := found
    cases same
    simp only [Bool.and_eq_true] at plain
    refine List.all_eq_true.mpr fun c member => List.all_eq_true.mp plain.2 c ?_
    exact (List.dropWhile_suffix _).subset member
  next => cases found

theorem writable_integerText {s : String} {n : Int} (done : integerText s = .ok n) :
    Writable n := by
  unfold integerText at done
  split at done
  next negative digits found =>
    split at done
    next => cases done
    next short =>
      cases done
      have bound := digitsValue_lt (all_isDigit_of_integerDigits? found)
      have writable : Writable (digitsValue digits) := by
        rw [writable_iff, Int.natAbs_natCast]
        exact Nat.lt_of_lt_of_le bound (Nat.pow_le_pow_right (by decide) (Nat.not_lt.mp short))
      cases negative with
      | false => exact writable
      | true => exact writable_neg.mpr writable
  next => cases done

theorem keeps_integer : Keeps Value.Writable integer Writable := by
  intro v n all done
  cases v with
  | int m =>
    cases done
    exact all.self
  | bool b =>
    cases done
    cases b <;> decide
  | float x => exact writable_integerOfNumber done
  | text s =>
    obtain ⟨_, _, read⟩ := ofCharacters_eq_ok_iff.mp done
    exact writable_integerText read
  | bytes bs =>
    unfold integer at done
    dsimp only at done
    split at done
    next => exact writable_integerText done
    next => cases done
  | null | date | moment | list | tuple | set | dict | again => cases done

theorem admits_writable : Admits Value.Writable Writable fun _ => True where
  character _ := trivial
  byte n small := by
    refine (writable_iff n).mpr (Nat.lt_of_lt_of_le small ?_)
    calc 256 ≤ 10 ^ 3 := by decide
      _ ≤ 10 ^ maxDigits := Nat.pow_le_pow_right (by decide) (by decide)
  emptyList := trivial
  emptyDict := trivial
  integer := keeps_integer
  number _ _ _ _ := trivial

end Reading

/-- If no integer in the document of an inventory has too many digits, then all integers of the
selected entries have a text. -/
theorem Inventory.writable_of_ofValue {document : Value} {inventory : Inventory}
    (short : ∀ n ∈ document.integers, Writable n) (accepted : ofValue document = .ok inventory)
    {names : List Text} {entries : List Entry}
    (selected : inventory.selected? names = some entries) :
    ∀ entry ∈ entries, ∀ n ∈ entry.integers, Writable n := by
  have all : document.All Value.Writable := by
    intro w part
    cases w with
    | int n => exact short n (Value.mem_integers_of_part part)
    | _ => trivial
  intro entry member n integer
  have machines := good_of_ofValue admits_writable all accepted entry
    (mem_of_selected? selected member)
  rcases List.mem_append.mp integer with index | measure
  · obtain ⟨r, machine, index⟩ := List.mem_flatMap.mp index
    exact (machines r (List.mem_filter.mp machine).1).index n (Option.mem_toList.mp index)
  · obtain ⟨r, machine, measure⟩ := List.mem_flatMap.mp measure
    exact (machines r (List.mem_filter.mp machine).1).measures n measure

theorem Inventory.writable_of_load {files : Files} {order : SetOrder} {path : Text}
    {document : Value} {inventory : Inventory}
    (read : Source.read files order "Inventory" path = .ok document)
    (short : ∀ n ∈ document.integers, Writable n)
    (loaded : load files order path = .ok inventory) {names : List Text} {entries : List Entry}
    (selected : inventory.selected? names = some entries) :
    ∀ entry ∈ entries, ∀ n ∈ entry.integers, Writable n := by
  rw [load, read] at loaded
  exact writable_of_ofValue short loaded selected

end Deployments
