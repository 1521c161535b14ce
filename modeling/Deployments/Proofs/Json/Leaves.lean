import Mathlib.Data.Nat.Digits.Defs
import Deployments.Json

/-!
The leaves of a document, and which documents have a text: those in which no integer has too many
digits.
-/

namespace Deployments

open Decimal

/-- The integer has no more digits than can be converted to text. -/
def Decimal.Writable (n : Int) : Prop := (natural n.natAbs).length ≤ maxDigits

instance Decimal.decidableWritable (n : Int) : Decidable (Writable n) :=
  inferInstanceAs (Decidable (_ ≤ _))

theorem Decimal.writable_iff (n : Int) : Writable n ↔ n.natAbs < 10 ^ maxDigits :=
  Nat.length_toDigits_le_iff (by decide) (by decide)

theorem Decimal.integer?_of_writable {n : Int} (writable : Writable n) :
    integer? n = some (String.ofList (integer n)) :=
  if_pos writable

theorem Decimal.integer?_of_not_writable {n : Int} (long : ¬ Writable n) : integer? n = none :=
  if_neg long

namespace Json

mutual

/-- The parts of a document that have no parts themselves, in their order. -/
def leaves : Json → List Json
  | list items => itemLeaves items
  | object members => memberLeaves members
  | x => [x]
termination_by structural x => x

def itemLeaves : List Json → List Json
  | [] => []
  | x :: xs => x.leaves ++ itemLeaves xs
termination_by structural x => x

def memberLeaves : List (Text × Json) → List Json
  | [] => []
  | (_, x) :: rest => x.leaves ++ memberLeaves rest
termination_by structural x => x

end

@[simp] theorem leaves_list (items : List Json) : (list items).leaves = items.flatMap leaves := by
  rw [leaves]
  induction items with
  | nil => rfl
  | cons x xs ih => rw [itemLeaves, ih, List.flatMap_cons]

@[simp] theorem leaves_object (members : List (Text × Json)) :
    (object members).leaves = members.flatMap fun member => member.2.leaves := by
  rw [leaves]
  induction members with
  | nil => rfl
  | cons member rest ih => rw [memberLeaves, ih, List.flatMap_cons]

@[simp] theorem leaves_null : null.leaves = [null] := rfl
@[simp] theorem leaves_bool (b : Bool) : (bool b).leaves = [bool b] := rfl
@[simp] theorem leaves_int (n : Int) : (int n).leaves = [int n] := rfl
@[simp] theorem leaves_float (x : Binary64) : (float x).leaves = [float x] := rfl
@[simp] theorem leaves_text (s : Text) : (text s).leaves = [text s] := rfl

/-- No integer in the document has too many digits. -/
def IsWritable (x : Json) : Prop := ∀ n, int n ∈ x.leaves → Writable n

theorem isWritable_list (items : List Json) :
    (list items).IsWritable ↔ ∀ x ∈ items, x.IsWritable := by
  simp only [IsWritable, leaves_list, List.mem_flatMap]
  exact ⟨fun all x member n leaf => all n ⟨x, member, leaf⟩,
    fun all n ⟨x, member, leaf⟩ => all x member n leaf⟩

theorem isWritable_object (members : List (Text × Json)) :
    (object members).IsWritable ↔ ∀ member ∈ members, member.2.IsWritable := by
  simp only [IsWritable, leaves_object, List.mem_flatMap]
  exact ⟨fun all member place n leaf => all n ⟨member, place, leaf⟩,
    fun all n ⟨member, place, leaf⟩ => all member place n leaf⟩

theorem exists_map_eq_ok {ε α β : Type} {x : Except ε α} {f : α → β} :
    (∃ b, x.map f = .ok b) ↔ ∃ a, x = .ok a := by
  cases x <;> simp [Except.map]

mutual

/-- A document has a text exactly if its integers have one. -/
theorem exists_write_iff (depth : Nat) :
    (x : Json) → ((∃ text, x.write depth = .ok text) ↔ x.IsWritable)
  | null => by simp [write, IsWritable]
  | bool b => by simp [write, IsWritable]
  | int n => by
    by_cases writable : Writable n
    · simp [write, IsWritable, integer?_of_writable writable, writable]
    · simp [write, IsWritable, integer?_of_not_writable writable, writable]
  | float x => by simp [write, IsWritable]
  | text s => by simp [write, IsWritable]
  | list items => by
    rw [write, exists_map_eq_ok, exists_writeItems_iff, isWritable_list]
  | object members => by
    rw [write, exists_map_eq_ok, exists_writeMembers_iff, isWritable_object]

theorem exists_writeItems_iff (depth : Nat) :
    (items : List Json) →
      ((∃ texts, writeItems depth items = .ok texts) ↔ ∀ x ∈ items, x.IsWritable)
  | [] => by simp [writeItems]
  | x :: xs => by
    have head := exists_write_iff depth x
    have tail := exists_writeItems_iff depth xs
    rw [List.forall_mem_cons, ← head, ← tail, writeItems]
    cases x.write depth <;> cases writeItems depth xs <;> simp [bind, Except.bind]

theorem exists_writeMembers_iff (depth : Nat) :
    (members : List (Text × Json)) →
      ((∃ texts, writeMembers depth members = .ok texts) ↔
        ∀ member ∈ members, member.2.IsWritable)
  | [] => by simp [writeMembers]
  | (key, x) :: rest => by
    have head := exists_write_iff depth x
    have tail := exists_writeMembers_iff depth rest
    rw [List.forall_mem_cons, ← head, ← tail, writeMembers]
    cases x.write depth <;> cases writeMembers depth rest <;> simp [bind, Except.bind]

end

theorem exists_render_iff (x : Json) : (∃ text, x.render = .ok text) ↔ x.IsWritable := by
  rw [render, exists_map_eq_ok, exists_write_iff]

end Json

end Deployments
