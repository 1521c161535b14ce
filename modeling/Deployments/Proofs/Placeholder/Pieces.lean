import Mathlib.Data.List.Forall2
import Deployments.Proofs.Placeholder

/-!
What becomes of a value when its placeholders are replaced. A text falls into pieces, which are
single code points and placeholders; every placeholder that stands anywhere in the text is one of
them. The replaced text is the row of what the pieces stand for, and nothing else of a value
changes.
-/

namespace Deployments.Placeholder

/-- A piece of a text: a code point that stands for itself, or the placeholder of a name. -/
inductive Piece where
  | single (p : Point)
  | named (name : List Char)

namespace Piece

def source : Piece → List Point
  | single p => [p]
  | named name => written name

/-- What is put in for the piece. -/
def result (env : Environment) : Piece → List Point
  | single p => [p]
  | named name => ((env (String.ofList name)).getD "").toList

theorem source_ne_nil (piece : Piece) : piece.source ≠ [] := by
  cases piece <;> simp [source, written]

end Piece

/-- The pieces make up the text, and the placeholders that stand in the text are among them, each at
its place. -/
structure Splits (ps : List Point) (pieces : List Piece) : Prop where
  source : pieces.flatMap Piece.source = ps
  isName : ∀ name, .named name ∈ pieces → IsName name
  found : ∀ before name after, IsName name → ps = before ++ (written name ++ after) →
    ∃ front back, pieces = front ++ .named name :: back ∧ front.flatMap Piece.source = before

/-! ### Every text has its pieces -/

def pieces (ps : List Point) : List Piece :=
  match found : leading? ps with
  | some (name, rest) =>
    have := length_of_leading? found
    .named name :: pieces rest
  | none =>
    match ps with
    | [] => []
    | p :: tail => .single p :: pieces tail
termination_by ps.length

theorem splits_pieces (ps : List Point) : Splits ps (pieces ps) := by
  fun_induction pieces ps with
  | case1 ps first rest found _ ih =>
    obtain ⟨word, rfl⟩ := eq_written_of_leading? found
    refine ⟨by rw [List.flatMap_cons, ih.source, Piece.source], fun name member => ?_,
      fun before name after word' split => ?_⟩
    · rcases List.mem_cons.mp member with same | later
      · rw [Piece.named.inj same]
        exact word
      · exact ih.isName name later
    · rcases front_of_written_append word word' split with ⟨rfl, rfl⟩ | ⟨more, rfl, behind⟩
      · exact ⟨[], _, rfl, rfl⟩
      · obtain ⟨front, back, same, source⟩ := ih.found more name after word' behind
        exact ⟨.named first :: front, back, by rw [same, List.cons_append],
          by rw [List.flatMap_cons, source, Piece.source]⟩
  | case2 =>
    refine ⟨rfl, nofun, fun before name after _ split => ?_⟩
    simp [written] at split
  | case3 p tail found ih =>
    refine ⟨by rw [List.flatMap_cons, ih.source, Piece.source, List.singleton_append],
      fun name member => ?_, fun before name after word split => ?_⟩
    · rcases List.mem_cons.mp member with same | later
      · cases same
      · exact ih.isName name later
    · cases before with
      | nil =>
        rw [split, List.nil_append, leading?_written word] at found
        cases found
      | cons q before =>
        obtain ⟨rfl, behind⟩ := List.cons.inj split
        obtain ⟨front, back, same, source⟩ := ih.found before name after word behind
        exact ⟨.single p :: front, back, by rw [same, List.cons_append],
          by rw [List.flatMap_cons, source, Piece.source, List.singleton_append]⟩

theorem expandPoints_eq_flatMap (env : Environment) (ps : List Point) :
    expandPoints env ps = (pieces ps).flatMap (Piece.result env) := by
  fun_induction pieces ps with
  | case1 ps name rest found _ ih =>
    rw [expandPoints_of_some env found, ih, List.flatMap_cons, Piece.result]
  | case2 =>
    rw [expandPoints.eq_def]
    rfl
  | case3 p tail found ih =>
    rw [expandPoints_of_none env found, ih, List.flatMap_cons, Piece.result, List.singleton_append]

/-! ### It has no others -/

theorem eq_nil_of_source {front : List Piece} (none_ : front.flatMap Piece.source = []) :
    front = [] := by
  cases front with
  | nil => rfl
  | cons piece rest =>
    rw [List.flatMap_cons, List.append_eq_nil_iff] at none_
    exact (piece.source_ne_nil none_.1).elim

theorem Splits.tail {ps : List Point} {piece : Piece} {rest : List Piece}
    (splits : Splits ps (piece :: rest)) : Splits (rest.flatMap Piece.source) rest := by
  refine ⟨rfl, fun name member => splits.isName name (List.mem_cons_of_mem _ member),
    fun before name after word split => ?_⟩
  have whole : ps = piece.source ++ before ++ (written name ++ after) := by
    rw [← splits.source, List.flatMap_cons, split, List.append_assoc]
  obtain ⟨front, back, same, source⟩ := splits.found _ name after word whole
  cases front with
  | nil =>
    have empty := (List.append_eq_nil_iff.mp source.symm).1
    exact (piece.source_ne_nil empty).elim
  | cons other front =>
    obtain ⟨rfl, rfl⟩ := List.cons.inj same
    rw [List.flatMap_cons] at source
    exact ⟨front, back, rfl, List.append_cancel_left source⟩

/-- If one row of pieces begins with a placeholder, then so does every other one. -/
theorem Splits.head_named {ps : List Point} {name : List Char} {rest : List Piece} {piece : Piece}
    {others : List Piece} (splits : Splits ps (.named name :: rest))
    (splits' : Splits ps (piece :: others)) : piece = .named name := by
  have begins : ps = [] ++ (written name ++ rest.flatMap Piece.source) := by
    rw [← splits.source]
    rfl
  obtain ⟨front, back, same, source⟩ := splits'.found [] name _
    (splits.isName name List.mem_cons_self) begins
  rw [eq_nil_of_source source] at same
  exact (List.cons.inj same).1

theorem Splits.unique {ps : List Point} {row row' : List Piece} (splits : Splits ps row)
    (splits' : Splits ps row') : row = row' := by
  induction row generalizing ps row' with
  | nil =>
    have empty := splits.source
    rw [← splits'.source] at empty
    exact (eq_nil_of_source empty.symm).symm
  | cons piece rest ih =>
    cases row' with
    | nil =>
      have empty := splits'.source
      rw [← splits.source] at empty
      exact eq_nil_of_source empty.symm
    | cons piece' rest' =>
      have first : piece = piece' := by
        cases piece with
        | named name => exact (splits.head_named splits').symm
        | single p =>
          cases piece' with
          | named name => exact splits'.head_named splits
          | single q =>
            have same := splits.source.trans splits'.source.symm
            rw [List.flatMap_cons, List.flatMap_cons] at same
            exact congrArg Piece.single (List.cons.inj same).1
      subst first
      have same := splits.source.trans splits'.source.symm
      rw [List.flatMap_cons, List.flatMap_cons] at same
      have behind := splits'.tail
      rw [← List.append_cancel_left same] at behind
      rw [ih splits.tail behind]

theorem splits_iff {ps : List Point} {row : List Piece} : Splits ps row ↔ row = pieces ps :=
  ⟨fun splits => splits.unique (splits_pieces ps), fun same => same ▸ splits_pieces ps⟩

/-! ### Places of placeholders -/

/-- Two placeholders at different places of a text do not overlap. -/
theorem written_apart {first name : List Char} {before after before' after' : List Point}
    (word : IsName first) (word' : IsName name)
    (split : before ++ (written first ++ after) = before' ++ (written name ++ after'))
    (earlier : before.length < before'.length) :
    (before ++ written first).length ≤ before'.length := by
  rcases List.append_eq_append_iff.mp split with ⟨more, rfl, back⟩ | ⟨more, rfl, _⟩
  · rcases front_of_written_append word word' back with ⟨rfl, _⟩ | ⟨rest, rfl, _⟩
    · simp at earlier
    · simp
  · rw [List.length_append] at earlier
    omega

/-- A placeholder begins in the first text and ends in the second. -/
def Straddles (ps qs : List Point) : Prop :=
  ∃ before name after, IsName name ∧ ps ++ qs = before ++ (written name ++ after) ∧
    before.length < ps.length ∧ ps.length < (before ++ written name).length

theorem Splits.append {ps qs : List Point} {row row' : List Piece} (splits : Splits ps row)
    (splits' : Splits qs row') (apart : ¬ Straddles ps qs) : Splits (ps ++ qs) (row ++ row') := by
  refine ⟨by rw [List.flatMap_append, splits.source, splits'.source], fun name member => ?_,
    fun before name after word split => ?_⟩
  · rcases List.mem_append.mp member with left | right
    · exact splits.isName name left
    · exact splits'.isName name right
  · rcases List.append_eq_append_iff.mp split with ⟨more, rfl, behind⟩ | ⟨more, rfl, behind⟩
    · obtain ⟨front, back, rfl, source⟩ := splits'.found more name after word behind
      refine ⟨row ++ front, back, (List.append_assoc ..).symm, ?_⟩
      rw [List.flatMap_append, source, splits.source]
    · rcases List.append_eq_append_iff.mp behind with ⟨rest, rfl, _⟩ | ⟨rest, inside, rfl⟩
      · obtain ⟨front, back, rfl, source⟩ := splits.found before name rest word rfl
        exact ⟨front, back ++ row', by simp, source⟩
      · by_cases first : rest = []
        · subst first
          rw [List.append_nil] at inside
          obtain ⟨front, back, rfl, source⟩ := splits.found before name [] word (by simp [inside])
          exact ⟨front, back ++ row', by simp, source⟩
        · by_cases second : more = []
          · subst second
            rw [List.nil_append] at inside
            obtain ⟨front, back, rfl, source⟩ := splits'.found [] name after word (by simp [inside])
            refine ⟨row ++ front, back, (List.append_assoc ..).symm, ?_⟩
            rw [List.flatMap_append, source, splits.source, List.append_nil, List.append_nil]
          · have front := List.length_pos_iff.mpr second
            have back := List.length_pos_iff.mpr first
            refine (apart ⟨before, name, after, word, split, ?_, ?_⟩).elim
            · rw [List.length_append]
              omega
            · rw [inside, List.length_append, List.length_append, List.length_append]
              omega

theorem expand_append (env : Environment) {s t : Text} (apart : ¬ Straddles s.toList t.toList) :
    expand env (s ++ t) = expand env s ++ expand env t := by
  have row := (splits_pieces s.toList).append (splits_pieces t.toList) apart
  have same := splits_iff.mp row
  simp only [expand, Text.toList_append, expandPoints_eq_flatMap, ← same, List.flatMap_append]
  rfl

/-! ### Values -/

/-- The value holds no text that is looked at: it is neither a text nor a list nor a mapping. -/
def isFixed : Value → Bool
  | .text _ | .list _ | .dict _ => false
  | _ => true

/-- One value is the other with all placeholders replaced in the texts that are reached through
lists and the values of mappings, and with nothing else changed. -/
inductive Replaced (env : Environment) : Value → Value → Prop
  | text {s t : Text} {row : List Piece} (splits : Splits s.toList row)
      (result : t.toList = row.flatMap (Piece.result env)) : Replaced env (.text s) (.text t)
  | list {items others : List Value} (all : List.Forall₂ (Replaced env) items others) :
      Replaced env (.list items) (.list others)
  | dict {entries others : Entries} (keys : others.map Prod.fst = entries.map Prod.fst)
      (all : List.Forall₂ (Replaced env) (entries.map Prod.snd) (others.map Prod.snd)) :
      Replaced env (.dict entries) (.dict others)
  | fixed {v : Value} (fixed : isFixed v = true) : Replaced env v v

variable {env : Environment}

theorem toList_expand (s : Text) :
    (expand env s).toList = (pieces s.toList).flatMap (Piece.result env) := by
  rw [expand, Text.toList_ofList, expandPoints_eq_flatMap]

mutual

theorem replaced_substitute (v : Value) : Replaced env v (substitute env v) := by
  match v with
  | .text s => exact .text (splits_pieces s.toList) (toList_expand s)
  | .list items => exact .list (replaced_items items)
  | .dict entries =>
    refine .dict ?_ (replaced_entries entries)
    rw [substituteEntries_eq_map, List.map_map]
    rfl
  | .null | .bool _ | .int _ | .float _ | .bytes _ | .date _ | .moment _ | .tuple _ | .set _
  | .again _ =>
    exact .fixed rfl

theorem replaced_items (items : List Value) :
    List.Forall₂ (Replaced env) items (substituteItems env items) := by
  match items with
  | [] => exact .nil
  | v :: rest => exact .cons (replaced_substitute v) (replaced_items rest)

theorem replaced_entries (entries : Entries) :
    List.Forall₂ (Replaced env) (entries.map Prod.snd)
      ((substituteEntries env entries).map Prod.snd) := by
  match entries with
  | [] => exact .nil
  | (_, v) :: rest => exact .cons (replaced_substitute v) (replaced_entries rest)

end

-- The induction is on the value; the relation allows one case for each form of it.
mutual

theorem Replaced.eq_substitute {v w : Value} (replaced : Replaced env v w) :
    substitute env v = w := by
  match v with
  | .text s =>
    cases replaced with
    | @text _ t row splits result =>
      rw [splits_iff.mp splits, ← toList_expand] at result
      rw [substitute, Text.ext result]
    | fixed fixed => cases fixed
  | .list items =>
    cases replaced with
    | list all => rw [substitute, substituteItems_eq all]
    | fixed fixed => cases fixed
  | .dict entries =>
    cases replaced with
    | dict keys all => rw [substitute, substituteEntries_eq keys all]
    | fixed fixed => cases fixed
  | .null | .bool _ | .int _ | .float _ | .bytes _ | .date _ | .moment _ | .tuple _ | .set _
  | .again _ =>
    cases replaced
    rfl

theorem substituteItems_eq {items others : List Value}
    (all : List.Forall₂ (Replaced env) items others) : substituteItems env items = others := by
  match items, others, all with
  | [], [], .nil => rfl
  | _ :: _, _ :: _, .cons first rest =>
    rw [substituteItems, first.eq_substitute, substituteItems_eq rest]

theorem substituteEntries_eq {entries others : Entries}
    (keys : others.map Prod.fst = entries.map Prod.fst)
    (all : List.Forall₂ (Replaced env) (entries.map Prod.snd) (others.map Prod.snd)) :
    substituteEntries env entries = others := by
  match entries, others with
  | [], [] => rfl
  | (key, v) :: rest, (key', w) :: others =>
    obtain ⟨same, later⟩ := List.cons.inj keys
    obtain ⟨first, behind⟩ := List.forall₂_cons.mp all
    obtain rfl : key' = key := same
    rw [substituteEntries, first.eq_substitute, substituteEntries_eq later behind]
  | [], _ :: _ | _ :: _, [] => cases keys

end

/-- Substitution replaces the placeholders of a value and changes nothing else, it replaces all
placeholders of a text at once, for they do not overlap, and a text may be cut wherever no
placeholder stands across. -/
theorem replaced_iff_and_expand_append :
    (∀ env v w, Replaced env v w ↔ substitute env v = w) ∧
    (∀ (first name : List Char) (before before' after after' : List Point), IsName first →
      IsName name → before ++ (written first ++ after) = before' ++ (written name ++ after') →
      before.length < before'.length → (before ++ written first).length ≤ before'.length) ∧
    ∀ (env : Environment) (s t : Text), ¬ Straddles s.toList t.toList →
      expand env (s ++ t) = expand env s ++ expand env t := by
  refine ⟨fun env v w => ⟨Replaced.eq_substitute, fun same => same ▸ replaced_substitute v⟩, ?_, ?_⟩
  · exact fun _ _ _ _ _ _ word word' split earlier => written_apart word word' split earlier
  · exact fun env _ _ apart => expand_append env apart

/-- The value of one variable looks like a placeholder of the other one. -/
def twoVariables : Environment := fun name =>
  if name = "A" then some "$\x7bB\x7d" else if name = "B" then some "x" else none

/-- The raw value has placeholders in a key, in texts and in a tuple. -/
def nestedTexts (first second : Text) : Value :=
  .dict [(.text "$\x7bA\x7d", .list [.text first, .int 5, .tuple [.text "$\x7bA\x7d"]]),
    (.null, .text second)]

theorem replaced_nestedTexts :
    let raw := nestedTexts "$$\x7bA\x7d$\x7b$\x7bB\x7d\x7d" "$\x7b\x7d$\x7bC\x7d$\x7bB"
    let made := nestedTexts "$$\x7bB\x7d$\x7bx\x7d" "$\x7b\x7d$\x7bB"
    substitute twoVariables raw = made ∧ Replaced twoVariables raw made ∧
      (Text.ofString "$\x7bA\x7d").toList.length ≤ (Text.ofString "$\x7bA\x7d-").toList.length ∧
      expand twoVariables ("a$" ++ "$\x7bA\x7d") =
        expand twoVariables "a$" ++ expand twoVariables "$\x7bA\x7d" := by
  obtain ⟨iff, apart, cut⟩ := replaced_iff_and_expand_append
  have front : expand twoVariables "$$\x7bA\x7d$\x7b$\x7bB\x7d\x7d" =
      "$$\x7bB\x7d$\x7bx\x7d" := by decide +kernel
  have back : expand twoVariables "$\x7b\x7d$\x7bC\x7d$\x7bB" = "$\x7b\x7d$\x7bB" := by
    decide +kernel
  have same : substitute twoVariables
      (nestedTexts "$$\x7bA\x7d$\x7b$\x7bB\x7d\x7d" "$\x7b\x7d$\x7bC\x7d$\x7bB") =
        nestedTexts "$$\x7bB\x7d$\x7bx\x7d" "$\x7b\x7d$\x7bB" := by
    simp only [nestedTexts, substitute, substituteItems, substituteEntries, front, back]
  have letter : IsName ['A'] := ⟨by simp, List.forall_mem_singleton.mpr (by decide)⟩
  refine ⟨same, (iff _ _ _).mpr same, ?_, cut twoVariables "a$" "$\x7bA\x7d" ?_⟩
  · exact apart ['A'] ['A'] [] (Text.ofString "$\x7bA\x7d-").toList
      (Text.ofString "-$\x7bA\x7d").toList [] letter letter
      (by decide) (by decide)
  · rintro ⟨before, name, after, _, split, early, late⟩
    match before with
    | [] => simp [written] at split
    | [_] => simp [written] at split
    | _ :: _ :: _ =>
      have length : (Text.ofString "a$").toList.length = 2 := rfl
      rw [List.length_cons, List.length_cons] at early
      omega

end Deployments.Placeholder
