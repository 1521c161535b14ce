import Mathlib.Data.List.TakeWhile
import Deployments.Placeholder

/-!
What a value takes from the environment. Two environments put in the same for a placeholder if they
give its variable the same value, where one that is not set counts as empty; and only the
placeholders in texts reached through lists and the values of mappings are looked at.
-/

namespace Deployments

open Text

/-- The variable has the same value in both environments, or counts as empty in both. -/
def Environment.Same (env env' : Environment) (name : String) : Prop :=
  (env name).getD "" = (env' name).getD ""

namespace Placeholder

/-- A name that may stand in a placeholder. -/
def IsName (name : List Char) : Prop := name ≠ [] ∧ ∀ c ∈ name, isWordChar c = true

/-- The placeholder of a name. -/
def written (name : List Char) : List Point :=
  .char '$' :: .char '\x7b' :: (name.map .char ++ [.char '\x7d'])

/-- The placeholder of a name stands somewhere in the text. -/
def Occurs (name : List Char) (ps : List Point) : Prop :=
  IsName name ∧ written name <:+: ps

/-- The placeholder of a name stands in a text that is reached through lists and the values of
mappings. -/
inductive Mentions (name : String) : Value → Prop
  | text {s : Text} (occurs : Occurs name.toList s.toList) : Mentions name (.text s)
  | item {items : List Value} {v : Value} (member : v ∈ items) (inside : Mentions name v) :
      Mentions name (.list items)
  | value {entries : Entries} {key v : Value} (member : (key, v) ∈ entries)
      (inside : Mentions name v) : Mentions name (.dict entries)

theorem exists_map_char {q : Char → Bool} {ps : List Point}
    (all : ∀ p ∈ ps, Point.is q p = true) :
    ∃ cs : List Char, ps = cs.map .char ∧ ∀ c ∈ cs, q c = true := by
  induction ps with
  | nil => exact ⟨[], rfl, List.forall_mem_nil _⟩
  | cons p rest ih =>
    rw [List.forall_mem_cons] at all
    obtain ⟨cs, rfl, others⟩ := ih all.2
    cases p with
    | char c => exact ⟨c :: cs, rfl, List.forall_mem_cons.mpr ⟨all.1, others⟩⟩
    | surrogate n => cases all.1

theorem map_shown_map_char (cs : List Char) : (cs.map Point.char).map Point.shown = cs := by
  rw [List.map_map]
  exact List.map_id' cs

theorem eq_written_of_leading? {ps rest : List Point} {name : List Char}
    (found : leading? ps = some (name, rest)) : IsName name ∧ ps = written name ++ rest := by
  unfold leading? at found
  split at found
  next inner =>
    have parts := List.takeWhile_append_dropWhile (p := Point.is isWordChar) (l := inner)
    split at found
    next letter letters _ front back =>
      have all : ∀ p ∈ letter :: letters, Point.is isWordChar p = true := by
        rw [← front]
        exact fun p member => List.mem_takeWhile_imp member
      obtain ⟨cs, same, word⟩ := exists_map_char all
      rw [front, back] at parts
      rw [same, map_shown_map_char] at found
      cases found
      rw [same] at parts
      refine ⟨⟨?_, word⟩, ?_⟩
      · rintro rfl
        cases same
      · simp [← parts, written]
    next => cases found
  next => cases found

theorem leading?_written {name : List Char} (word : IsName name) (rest : List Point) :
    leading? (written name ++ rest) = some (name, rest) := by
  obtain ⟨some_, word⟩ := word
  obtain ⟨letter, letters, rfl⟩ := List.exists_cons_of_ne_nil some_
  have closes : Point.is isWordChar (.char '\x7d') = false := by decide
  have points : ∀ p ∈ (letter :: letters).map Point.char, Point.is isWordChar p = true :=
    List.forall_mem_map.mpr word
  have front : ((letter :: letters).map Point.char ++ .char '\x7d' :: rest).takeWhile
      (Point.is isWordChar) = (letter :: letters).map .char := by
    rw [List.takeWhile_append_of_pos points, List.takeWhile_cons_of_neg (by simp [closes]),
      List.append_nil]
  have back : ((letter :: letters).map Point.char ++ .char '\x7d' :: rest).dropWhile
      (Point.is isWordChar) = .char '\x7d' :: rest := by
    rw [List.dropWhile_append_of_pos points, List.dropWhile_cons_of_neg (by simp [closes])]
  have inner : written (letter :: letters) ++ rest =
      .char '$' :: .char '\x7b' :: ((letter :: letters).map .char ++ .char '\x7d' :: rest) := by
    simp [written]
  simp only [inner, leading?, front, back]
  exact congrArg (fun name => some (name, rest)) (map_shown_map_char (letter :: letters))

theorem expandPoints_of_some (env : Environment) {ps rest : List Point} {name : List Char}
    (found : leading? ps = some (name, rest)) :
    expandPoints env ps = ((env (String.ofList name)).getD "").toList ++ expandPoints env rest := by
  rw [expandPoints.eq_def]
  split
  next _ _ same =>
    cases found.symm.trans same
    rfl
  next same => cases found.symm.trans same

theorem expandPoints_of_none (env : Environment) {p : Point} {ps : List Point}
    (found : leading? (p :: ps) = none) :
    expandPoints env (p :: ps) = p :: expandPoints env ps := by
  rw [expandPoints.eq_def]
  split
  next same => cases found.symm.trans same
  next => rfl

/-! ### The names in a value -/

/-- Only the first character of a placeholder can begin one. -/
theorem dollar_not_mem_tail {name : List Char} (word : IsName name) :
    Point.char '$' ∉ Point.char '\x7b' :: (name.map .char ++ [.char '\x7d']) := by
  have dollar : isWordChar '$' = false := by decide
  have inner : '$' ∉ name := fun member => by simpa [dollar] using word.2 '$' member
  simp [inner]

/-- A placeholder begins at the front of a text that begins with one, or behind that one. -/
theorem front_of_written_append {first name : List Char} {rest before after : List Point}
    (word : IsName first) (word' : IsName name)
    (split : written first ++ rest = before ++ (written name ++ after)) :
    (before = [] ∧ name = first) ∨
      ∃ more, before = written first ++ more ∧ rest = more ++ (written name ++ after) := by
  cases before with
  | nil =>
    have same := congrArg leading? split
    rw [List.nil_append, leading?_written word', leading?_written word] at same
    exact .inl ⟨rfl, (Prod.mk.inj (Option.some.inj same)).1.symm⟩
  | cons p before =>
    right
    rcases List.append_eq_append_iff.mp split with ⟨more, front, back⟩ | ⟨more, front, back⟩
    · exact ⟨more, front, back⟩
    · -- Such a placeholder would begin inside of the first one.
      obtain ⟨-, tails⟩ := List.cons.inj front
      cases more with
      | nil => exact ⟨[], by rw [List.append_nil, front, List.append_nil], back.symm⟩
      | cons q more =>
        obtain rfl : Point.char '$' = q := (List.cons.inj back).1
        refine (dollar_not_mem_tail word ?_).elim
        rw [tails]
        simp

/-- A placeholder stands at the beginning of a text, or else behind the one that does. -/
theorem occurs_written_append {name first : List Char} {rest : List Point} (word : IsName first)
    (occurs : Occurs name (written first ++ rest)) : name = first ∨ Occurs name rest := by
  obtain ⟨word', before, after, split⟩ := occurs
  rw [List.append_assoc] at split
  rcases front_of_written_append word word' split.symm with ⟨-, same⟩ | ⟨more, -, behind⟩
  · exact .inl same
  · exact .inr ⟨word', more, after, by rw [List.append_assoc, behind]⟩

theorem mem_namesOfPoints_iff {name : String} {ps : List Point} :
    name ∈ namesOfPoints ps ↔ Occurs name.toList ps := by
  fun_induction namesOfPoints ps with
  | case1 ps first rest found _ ih =>
    obtain ⟨word, rfl⟩ := eq_written_of_leading? found
    rw [List.mem_cons, ih]
    constructor
    · rintro (rfl | later)
      · rw [String.toList_ofList]
        exact ⟨word, (List.prefix_append _ _).isInfix⟩
      · exact ⟨later.1, later.2.trans (List.suffix_append _ _).isInfix⟩
    · intro occurs
      exact (occurs_written_append word occurs).imp_left fun same => by simp [← same]
  | case2 => simp [Occurs, written]
  | case3 p tail found ih =>
    rw [ih]
    constructor
    · exact fun later => ⟨later.1, later.2.trans (List.suffix_cons p tail).isInfix⟩
    · rintro ⟨word, before, after, split⟩
      cases before with
      | nil =>
        rw [List.nil_append] at split
        rw [← split, leading?_written word] at found
        cases found
      | cons q before => exact ⟨word, before, after, (List.cons.inj split).2⟩

mutual

/-- The names of a value are those of the placeholders it mentions. -/
theorem mem_names_iff {name : String} {v : Value} : name ∈ names v ↔ Mentions name v := by
  match v with
  | .text s =>
    rw [names, mem_namesOfPoints_iff]
    exact ⟨.text, fun | .text occurs => occurs⟩
  | .list items =>
    rw [names, mem_namesOfItems_iff]
    exact ⟨fun ⟨_, member, inside⟩ => .item member inside,
      fun | .item member inside => ⟨_, member, inside⟩⟩
  | .dict entries =>
    rw [names, mem_namesOfEntries_iff]
    exact ⟨fun ⟨_, member, inside⟩ => .value member inside,
      fun | .value member inside => ⟨_, member, inside⟩⟩
  | .null | .bool _ | .int _ | .float _ | .bytes _ | .date _ | .moment _ | .tuple _ | .set _
  | .again _ =>
    exact ⟨nofun, nofun⟩

theorem mem_namesOfItems_iff {name : String} {items : List Value} :
    name ∈ namesOfItems items ↔ ∃ v ∈ items, Mentions name v := by
  match items with
  | [] => simp [namesOfItems]
  | v :: rest => simp [namesOfItems, mem_names_iff, mem_namesOfItems_iff]

theorem mem_namesOfEntries_iff {name : String} {entries : Entries} :
    name ∈ namesOfEntries entries ↔ ∃ entry ∈ entries, Mentions name entry.2 := by
  match entries with
  | [] => simp [namesOfEntries]
  | (key, v) :: rest => simp [namesOfEntries, mem_names_iff, mem_namesOfEntries_iff]

end

/-! ### Two environments -/

variable {env env' : Environment}

/-- The rest behind a placeholder is a part of the text, so what is put in is not looked at. -/
theorem expandPoints_congr {ps : List Point}
    (same : ∀ name : String, Occurs name.toList ps → env.Same env' name) :
    expandPoints env ps = expandPoints env' ps := by
  fun_induction expandPoints env ps with
  | case1 ps name rest found _ ih =>
    obtain ⟨word, split⟩ := eq_written_of_leading? found
    have value : env.Same env' (String.ofList name) := by
      refine same _ ?_
      rw [String.toList_ofList]
      exact ⟨word, [], rest, by simp [split]⟩
    have later := ih fun name occurs => same name ⟨occurs.1, occurs.2.trans
      (split ▸ (List.suffix_append _ _).isInfix)⟩
    rw [expandPoints_of_some env' found, later, value]
  | case2 =>
    rw [expandPoints.eq_def]
    rfl
  | case3 p tail found ih =>
    have later := ih fun name occurs => same name ⟨occurs.1, occurs.2.trans
      (List.suffix_cons p tail).isInfix⟩
    rw [expandPoints_of_none env' found, later]

mutual

/-- Two environments that agree on what a value mentions make the same of it. -/
theorem substitute_congr {v : Value} (same : ∀ name, Mentions name v → env.Same env' name) :
    substitute env v = substitute env' v := by
  match v with
  | .text s =>
    have chars := expandPoints_congr fun name occurs => same name (.text occurs)
    simp only [substitute, expand, chars]
  | .list items =>
    rw [substitute, substitute, substituteItems_congr fun v member name inside =>
      same name (.item member inside)]
  | .dict entries =>
    rw [substitute, substitute, substituteEntries_congr fun entry member name inside =>
      same name (.value member inside)]
  | .null | .bool _ | .int _ | .float _ | .bytes _ | .date _ | .moment _ | .tuple _ | .set _
  | .again _ => rfl

theorem substituteItems_congr {items : List Value}
    (same : ∀ v ∈ items, ∀ name, Mentions name v → env.Same env' name) :
    substituteItems env items = substituteItems env' items := by
  match items with
  | [] => rfl
  | v :: rest =>
    obtain ⟨first, later⟩ := List.forall_mem_cons.mp same
    rw [substituteItems, substituteItems, substitute_congr first, substituteItems_congr later]

theorem substituteEntries_congr {entries : Entries}
    (same : ∀ entry ∈ entries, ∀ name, Mentions name entry.2 → env.Same env' name) :
    substituteEntries env entries = substituteEntries env' entries := by
  match entries with
  | [] => rfl
  | (key, v) :: rest =>
    obtain ⟨first, later⟩ := List.forall_mem_cons.mp same
    rw [substituteEntries, substituteEntries, substitute_congr first,
      substituteEntries_congr later]

end

end Placeholder

end Deployments
