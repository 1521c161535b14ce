/-!
Texts: rows of code points. Nearly all code points are characters. The others are the surrogates,
which make up characters in another encoding, two by two; in a text each of them stands alone.
-/

namespace Deployments

/-- A code point. The surrogates have the numbers from 0xd800 on. -/
inductive Point where
  | char (c : Char)
  | surrogate (n : Fin 0x800)
  deriving DecidableEq, Repr, Inhabited

namespace Point

def code : Point → Nat
  | char c => c.toNat
  | surrogate n => 0xd800 + n

/-- The code point of a number. -/
def ofCode (n : Nat) : Point :=
  if bounds : 0xd800 ≤ n ∧ n < 0xe000 then surrogate ⟨n - 0xd800, by omega⟩
  else char (Char.ofNat n)

/-- The code point is a character of a class. -/
def is (p : Char → Bool) : Point → Bool
  | char c => p c
  | surrogate _ => false

/-- The character, if the code point is one. -/
def char? : Point → Option Char
  | char c => some c
  | surrogate _ => none

/-- The character, or the one that stands where a character is missing. -/
def shown (p : Point) : Char := p.char?.getD '\ufffd'

@[simp] theorem code_char (c : Char) : (char c).code = c.toNat := rfl

@[simp] theorem is_char (p : Char → Bool) (c : Char) : (char c).is p = p c := rfl

@[simp] theorem char?_char (c : Char) : (char c).char? = some c := rfl

@[simp] theorem shown_char (c : Char) : (char c).shown = c := rfl

theorem code_injective : Function.Injective code := by
  intro p q same
  have range (c : Char) : c.toNat < 0xd800 ∨ 0xe000 ≤ c.toNat ∧ c.toNat < 0x110000 := c.valid
  cases p with
  | char c =>
    cases q with
    | char d => exact congrArg char (Char.toNat_inj.mp same)
    | surrogate n =>
      have c_range := range c
      simp only [code] at same
      omega
  | surrogate n =>
    cases q with
    | char d =>
      have d_range := range d
      simp only [code] at same
      omega
    | surrogate m =>
      refine congrArg surrogate (Fin.ext ?_)
      simp only [code] at same
      omega

theorem ofCode_code (p : Point) : ofCode p.code = p := by
  cases p with
  | char c =>
    have range : c.toNat < 0xd800 ∨ 0xe000 ≤ c.toNat ∧ c.toNat < 0x110000 := c.valid
    rw [ofCode, dif_neg (by rw [code_char]; omega), code_char, Char.ofNat_toNat]
  | surrogate n =>
    have bounds : 0xd800 ≤ (surrogate n).code ∧ (surrogate n).code < 0xe000 := by
      simp only [code]
      omega
    rw [ofCode, dif_pos bounds]
    refine congrArg surrogate (Fin.ext ?_)
    simp only [code]
    omega

end Point

structure Text where
  ofList ::
  toList : List Point
  deriving DecidableEq, Repr, Inhabited

namespace Text

@[coe] def ofString (s : String) : Text := ofList (s.toList.map .char)

instance : Coe String Text := ⟨ofString⟩

instance : Append Text := ⟨fun s t => ofList (s.toList ++ t.toList)⟩

def isEmpty (t : Text) : Bool := t.toList.isEmpty

def startsWith (t front : Text) : Bool := front.toList.isPrefixOf t.toList

/-- The parts with a separator between them. -/
def intercalate (separator : Text) (parts : List Text) : Text :=
  ofList (separator.toList.intercalate (parts.map toList))

/-- The numbers of the code points. -/
def codes (t : Text) : List Nat := t.toList.map Point.code

/-- The second text does not come in front of the first one in the order of code points. -/
def inOrder (s t : Text) : Bool := !t.codes.lex s.codes

/-- The characters, with another one in place of each surrogate. -/
def chars (t : Text) : List Char := t.toList.map Point.shown

/-- The text as a string of characters, if it is one. -/
def string? (t : Text) : Option String :=
  if t.toList.all (Point.is fun _ => true) then some (String.ofList t.chars) else none

@[simp] theorem toList_ofList (ps : List Point) : (ofList ps).toList = ps := rfl

@[simp] theorem toList_ofString (s : String) : (ofString s).toList = s.toList.map .char := rfl

@[simp] theorem toList_append (s t : Text) : (s ++ t).toList = s.toList ++ t.toList := rfl

theorem append_assoc (s t u : Text) : s ++ t ++ u = s ++ (t ++ u) :=
  congrArg ofList (List.append_assoc ..)

@[simp] theorem ofList_inj {ps qs : List Point} : ofList ps = ofList qs ↔ ps = qs :=
  ⟨ofList.inj, congrArg ofList⟩

theorem ext {s t : Text} (same : s.toList = t.toList) : s = t := congrArg ofList same

theorem ofString_injective : Function.Injective ofString := fun _ _ same =>
  String.toList_inj.mp ((List.map_inj_right fun _ _ => Point.char.inj).mp (ofList.inj same))

@[simp] theorem ofString_inj {s t : String} : ofString s = ofString t ↔ s = t :=
  ofString_injective.eq_iff

@[simp] theorem ofString_append (s t : String) : ofString (s ++ t) = ofString s ++ ofString t := by
  refine ext ?_
  simp

@[simp] theorem isEmpty_iff {t : Text} : t.isEmpty = true ↔ t = "" := by
  constructor
  · exact fun empty => ext (List.isEmpty_iff.mp empty)
  · rintro rfl
    rfl

theorem startsWith_iff {t front : Text} :
    t.startsWith front = true ↔ front.toList <+: t.toList :=
  List.isPrefixOf_iff_prefix

@[simp] theorem chars_ofString (s : String) : (ofString s).chars = s.toList := by
  simp [chars, Function.comp_def]

@[simp] theorem string?_ofString (s : String) : (ofString s).string? = some s := by
  simp [string?]

theorem string?_eq_some_iff {t : Text} {s : String} : t.string? = some s ↔ t = s := by
  constructor
  · intro found
    unfold string? at found
    split at found
    next all =>
      cases found
      have same : ∀ p ∈ t.toList, Point.char p.shown = p := by
        intro p member
        have character := List.all_eq_true.mp all p member
        cases p with
        | char c => rfl
        | surrogate n => cases character
      refine ext ?_
      rw [toList_ofString, String.toList_ofList, chars, List.map_map]
      exact ((List.map_congr_left same).trans (List.map_id' _)).symm
    next => cases found
  · rintro rfl
    exact string?_ofString s

theorem codes_injective : Function.Injective codes := fun _ _ same =>
  ext ((List.map_inj_right Point.code_injective).mp same)

section Order

variable {s t u : Text}

theorem inOrder_iff : s.inOrder t = true ↔ t.codes.lex s.codes = false := by
  rw [inOrder, Bool.not_eq_true']

theorem inOrder_refl (s : Text) : s.inOrder s = true :=
  inOrder_iff.mpr (List.lex_eq_false_iff_ge.mpr (List.le_refl _))

theorem inOrder_trans (first : s.inOrder t = true) (later : t.inOrder u = true) :
    s.inOrder u = true := by
  rw [inOrder_iff, List.lex_eq_false_iff_ge] at *
  exact List.le_trans first later

theorem inOrder_total (s t : Text) : s.inOrder t = true ∨ t.inOrder s = true := by
  rw [inOrder_iff, inOrder_iff, List.lex_eq_false_iff_ge, List.lex_eq_false_iff_ge]
  exact List.le_total _ _

theorem inOrder_antisymm (first : s.inOrder t = true) (later : t.inOrder s = true) : s = t := by
  rw [inOrder_iff, List.lex_eq_false_iff_ge] at *
  exact codes_injective (List.le_antisymm first later)

end Order

end Text

end Deployments
