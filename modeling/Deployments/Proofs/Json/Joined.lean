import Mathlib.Data.List.Basic
import Deployments.Json

/-!
Texts as JSON carries them. A character outside the first plane is escaped as two surrogates, so a
text that has the same two side by side is escaped as if it had the character.
-/

namespace Deployments

namespace Point

/-- The character that a first and a second half make up. -/
def pair? : Point → Point → Option Char
  | surrogate first, surrogate second =>
    if first.val < 0x400 ∧ 0x400 ≤ second.val then
      some (Char.ofNat (0x10000 + first * 0x400 + (second - 0x400)))
    else none
  | _, _ => none

/-- Two halves that stand side by side are put together, from the front on. -/
def joined : List Point → List Point
  | [] => []
  | [p] => [p]
  | p :: q :: rest =>
    match p.pair? q with
    | some c => char c :: joined rest
    | none => p :: joined (q :: rest)

theorem joined_cons {p : Point} {rest : List Point}
    (alone : ∀ q ∈ rest.head?, p.pair? q = none) : joined (p :: rest) = p :: joined rest := by
  cases rest with
  | nil => rfl
  | cons q rest => rw [joined, alone q rfl]

theorem joined_char (c : Char) (rest : List Point) :
    joined (char c :: rest) = char c :: joined rest :=
  joined_cons fun _ _ => rfl

theorem joined_map_char (cs : List Char) : joined (cs.map char) = cs.map char := by
  induction cs with
  | nil => rfl
  | cons c cs ih => rw [List.map_cons, joined_char, ih]

/-- The number of a character is that of a unit, but for those of halves, or takes two units. -/
theorem toNat_range (c : Char) :
    c.toNat < 0xd800 ∨ 0xe000 ≤ c.toNat ∧ c.toNat < 0x110000 := c.valid

/-- A text is kept if none of its halves stand side by side. -/
theorem joined_eq_self_iff {ps : List Point} :
    joined ps = ps ↔ ps.IsChain fun p q => p.pair? q = none := by
  fun_induction joined ps with
  | case1 | case2 => simp
  | case3 p q rest c pair ih =>
    refine iff_of_false (fun same => ?_) (by simp [pair])
    obtain rfl := (List.cons.inj same).1
    cases pair
  | case4 p q rest pair ih => simp [pair, ih]

theorem toNat_ofNat {n : Nat} (valid : n.isValidChar) : (Char.ofNat n).toNat = n := by
  rw [Char.ofNat, dif_pos valid]
  rfl

theorem units_surrogate (n : Fin 0x800) : Json.units (surrogate n) = [0xd800 + n.val] := by
  have small : (surrogate n).code < 0x10000 := by
    simp only [code]
    omega
  exact if_pos small

theorem units_of_le {c : Char} (high : 0x10000 ≤ c.toNat) :
    Json.units (char c) =
      [0xd800 + (c.toNat - 0x10000) / 0x400, 0xdc00 + (c.toNat - 0x10000) % 0x400] :=
  if_neg (show ¬ (char c).code < 0x10000 from Nat.not_lt.mpr high)

theorem lt_of_mem_units {p : Point} {unit : Nat} (member : unit ∈ Json.units p) :
    unit < 0x10000 := by
  have range : p.code < 0x110000 := by
    cases p with
    | char c =>
      have range := toNat_range c
      rw [code_char]
      omega
    | surrogate n =>
      simp only [code]
      omega
  unfold Json.units at member
  dsimp only at member
  split at member
  next low => rwa [List.mem_singleton.mp member]
  next =>
    simp only [List.mem_cons, List.not_mem_nil, or_false] at member
    omega

/-- The points of units: of one that stands alone, or of both halves. -/
theorem units_cases (p : Point) :
    (Json.units p).map ofCode = [p] ∨
    ∃ (c : Char) (first second : Fin 0x800), p = char c ∧
      (Json.units p).map ofCode = [surrogate first, surrogate second] ∧
      first.val < 0x400 ∧ (surrogate first).pair? (surrogate second) = some c := by
  unfold Json.units
  dsimp only
  split
  next low => exact .inl (congrArg (fun q => [q]) (ofCode_code p))
  next high =>
    refine .inr ?_
    cases p with
    | surrogate n => exact absurd (show 0xd800 + n.val < 0x10000 by omega) high
    | char c =>
      have range := toNat_range c
      rw [code_char] at high ⊢
      refine ⟨c, ⟨(c.toNat - 0x10000) / 0x400, by omega⟩,
        ⟨0x400 + (c.toNat - 0x10000) % 0x400, by omega⟩, rfl, ?_, ?_, ?_⟩
      · have first : 0xd800 ≤ 0xd800 + (c.toNat - 0x10000) / 0x400 ∧
            0xd800 + (c.toNat - 0x10000) / 0x400 < 0xe000 := by omega
        have second : 0xd800 ≤ 0xdc00 + (c.toNat - 0x10000) % 0x400 ∧
            0xdc00 + (c.toNat - 0x10000) % 0x400 < 0xe000 := by omega
        have later : 0xdc00 + (c.toNat - 0x10000) % 0x400 - 0xd800 =
            0x400 + (c.toNat - 0x10000) % 0x400 := by omega
        simp only [List.map_cons, List.map_nil, ofCode, dif_pos first, dif_pos second, later,
          Nat.add_sub_cancel_left]
      · dsimp only
        omega
      · have halves : (c.toNat - 0x10000) / 0x400 < 0x400 ∧
            0x400 ≤ 0x400 + (c.toNat - 0x10000) % 0x400 := by omega
        have whole : 0x10000 + (c.toNat - 0x10000) / 0x400 * 0x400 +
            (0x400 + (c.toNat - 0x10000) % 0x400 - 0x400) = c.toNat := by omega
        rw [pair?, if_pos halves, whole, Char.ofNat_toNat]

/-- No half goes together with what a text after it begins with, if that is the first half of a
character. -/
theorem pair?_eq_none {p : Point} {first : Fin 0x800} (half : first.val < 0x400) :
    p.pair? (surrogate first) = none := by
  cases p with
  | char c => rfl
  | surrogate n => exact if_neg fun both => absurd both.2 (by omega)

theorem joined_units (ps : List Point) :
    joined ((ps.flatMap Json.units).map ofCode) = joined ps := by
  fun_induction joined ps with
  | case1 => rfl
  | case2 p =>
    rw [List.flatMap_singleton]
    obtain same | ⟨c, first, second, rfl, same, _, pair⟩ := units_cases p
    · rw [same]
      rfl
    · rw [same, joined, pair]
      rfl
  | case3 p q rest c pair ih =>
    -- only surrogates make up a character, and each of them has a unit of its own
    have both : (Json.units p).map ofCode = [p] ∧ (Json.units q).map ofCode = [q] := by
      cases p with
      | char d => cases pair
      | surrogate n =>
        cases q with
        | char d => cases pair
        | surrogate m =>
          obtain same | ⟨d, _, _, other, _⟩ := units_cases (surrogate n)
          · obtain same' | ⟨d, _, _, other, _⟩ := units_cases (surrogate m)
            · exact ⟨same, same'⟩
            · cases other
          · cases other
    rw [List.flatMap_cons, List.flatMap_cons, List.map_append, List.map_append, both.1, both.2,
      List.singleton_append, List.singleton_append, joined, pair]
    exact congrArg _ ih
  | case4 p q rest pair ih =>
    rw [List.flatMap_cons, List.map_append]
    obtain same | ⟨c, first, second, rfl, same, _, pair'⟩ := units_cases p
    · rw [same, List.singleton_append, ← ih]
      refine joined_cons fun next head => ?_
      rw [List.flatMap_cons, List.map_append] at head
      obtain same' | ⟨d, first, second, rfl, same', half, _⟩ := units_cases q
      · rw [same'] at head
        cases head
        exact pair
      · rw [same'] at head
        cases head
        exact pair?_eq_none half
    · rw [same, List.cons_append, List.singleton_append, joined, pair']
      exact congrArg _ ih

/-- The units of a character that two halves make up are the halves. -/
theorem units_of_pair {p q : Point} {c : Char} (pair : p.pair? q = some c) :
    Json.units (char c) = Json.units p ++ Json.units q ∧ 0x10000 ≤ c.toNat := by
  cases p with
  | char d => cases pair
  | surrogate first =>
    cases q with
    | char d => cases pair
    | surrogate second =>
      rw [pair?] at pair
      split at pair
      next halves =>
        obtain rfl := Option.some.inj pair
        have number := toNat_ofNat (n := 0x10000 + first * 0x400 + (second - 0x400))
          (.inr ⟨by omega, by omega⟩)
        have high : 0x10000 ≤ 0x10000 + first.val * 0x400 + (second.val - 0x400) := by omega
        rw [← number] at high
        refine ⟨?_, high⟩
        rw [units_surrogate, units_surrogate, units_of_le high, number]
        refine congr_arg₂ (fun a b => [a, b]) ?_ ?_ <;> omega
      next => cases pair

end Point

namespace Text

/-- The text as it is decoded from its text in JSON. -/
def joined (s : Text) : Text := ofList (Point.joined s.toList)

@[simp] theorem joined_ofString (s : String) : (ofString s).joined = s :=
  ext (Point.joined_map_char s.toList)

end Text

namespace Json

open Decimal

mutual

/-- The document as it is decoded from its text. -/
def joined : Json → Json
  | null => null
  | bool b => bool b
  | int n => int n
  | float x => float x
  | text s => text s.joined
  | list items => list (itemsJoined items)
  | object members => object (membersJoined members)
termination_by structural x => x

def itemsJoined : List Json → List Json
  | [] => []
  | x :: xs => x.joined :: itemsJoined xs
termination_by structural x => x

def membersJoined : List (Text × Json) → List (Text × Json)
  | [] => []
  | (key, x) :: rest => (key.joined, x.joined) :: membersJoined rest
termination_by structural x => x

end

@[simp] theorem joined_int (n : Int) : (int n).joined = int n := rfl

@[simp] theorem joined_float (x : Binary64) : (float x).joined = float x := rfl

@[simp] theorem joined_bool (b : Bool) : (bool b).joined = bool b := rfl

@[simp] theorem joined_text (s : Text) : (text s).joined = text s.joined := rfl

@[simp] theorem joined_list (items : List Json) :
    (list items).joined = list (items.map joined) := by
  have all : itemsJoined items = items.map joined := by
    induction items with
    | nil => rfl
    | cons x xs ih => rw [itemsJoined, ih, List.map_cons]
  rw [joined, all]

@[simp] theorem joined_object (members : List (Text × Json)) :
    (object members).joined =
      object (members.map fun member => (member.1.joined, member.2.joined)) := by
  have all : membersJoined members =
      members.map fun member => (member.1.joined, member.2.joined) := by
    induction members with
    | nil => rfl
    | cons member rest ih => rw [membersJoined, ih, List.map_cons]
  rw [joined, all]

end Json

end Deployments
