import Deployments.Fetcher
import Deployments.Proofs.Raised
import Deployments.Proofs.Selection

/-!
Selections from any director: which calls are made of it, and what comes of its answers and errors.
-/

namespace Deployments

namespace Director

variable {ρ : Facet → Type}

def Raises (director : Director ρ) (e : Raised) : Prop :=
  director.list = .error e ∨ ∃ name, director.find name = .error e

end Director

namespace Selection

variable {ρ : Facet → Type} {director : Director ρ}

/-- The error comes out of the call for a name, or for all deployments, with its text behind one
that says so. -/
def Reports (name : Option Text) (e : Raised) (f : Failure) : Prop :=
  Failure.Reports (.listing name) (Failure.listingFront name) e f

/-- The calls that a selection of names should make of a director, and what should come of it. -/
inductive Answers (director : Director ρ) :
    List Value → List DirectorCall → Except Failure (List (Handle ρ)) → Prop
  | listed {handles : List (Handle ρ)} (answered : director.list = .ok handles) :
    Answers director [] [.list] (.ok handles)
  | unlisted {e : Raised} {f : Failure} (raised : director.list = .error e)
      (reports : Reports none e f) :
    Answers director [] [.list] (.error f)
  | found {names : List Text} {handles : List (Handle ρ)} (filled : names ≠ [])
      (found : director.Finds names handles) :
    Answers director (names.map .text) (names.map .find) (.ok handles)
  | missing {before after : List Text} {name : Text} {handles : List (Handle ρ)} {e : Raised}
      {f : Failure} (found : director.Finds before handles) (raised : director.find name = .error e)
      (reports : Reports (some name) e f) :
    Answers director ((before ++ name :: after).map .text) ((before ++ [name]).map .find) (.error f)
  /-- The names cannot be joined if one of them is no text. -/
  | mixed {names : List Text} {v : Value} {after : List Value} (other : ∀ s, v ≠ .text s) :
    Answers director (names.map .text ++ v :: after) []
      (.error (.fault (.itemNotText names.length v.typeName)))

/-! ### Names that are texts -/

theorem texts_mixed {v : Value} (other : ∀ s, v ≠ .text s) (index : Nat) (names : List Text)
    (after : List Value) : texts index (names.map .text ++ v :: after) =
      .error (.itemNotText (index + names.length) v.typeName) := by
  induction names generalizing index with
  | nil =>
    rw [List.map_nil, List.nil_append, texts]
    · rfl
    · exact fun s same => other s same
  | cons name rest ih =>
    rw [List.map_cons, List.cons_append, texts, ih, List.length_cons, Nat.add_right_comm,
      Nat.add_assoc]
    rfl

theorem exists_texts (names : List Value) :
    (∃ texts : List Text, names = texts.map .text) ∨
      ∃ (texts : List Text) (v : Value) (after : List Value),
        names = texts.map .text ++ v :: after ∧ ∀ s, v ≠ .text s := by
  induction names with
  | nil => exact .inl ⟨[], rfl⟩
  | cons v rest ih =>
    by_cases text : ∃ s, v = .text s
    · obtain ⟨s, rfl⟩ := text
      rcases ih with ⟨texts, rfl⟩ | ⟨texts, other, after, rfl, none⟩
      · exact .inl ⟨s :: texts, rfl⟩
      · exact .inr ⟨s :: texts, other, after, rfl, none⟩
    · exact .inr ⟨[], v, rest, rfl, fun s same => text ⟨s, same⟩⟩

/-! ### Selections -/

theorem select_mixed (parent : Text) {v : Value} (other : ∀ s, v ≠ .text s)
    (names : List Text) (after : List Value) :
    select parent (names.map .text ++ v :: after) director =
      ⟨[], [], .error (.fault (.itemNotText names.length v.typeName))⟩ := by
  rw [select, if_neg (by simp), texts_mixed other, Nat.zero_add]

theorem reports_failureOf_iff (name : Option Text) (e : Raised) :
    Reports name e (failureOf name e) ↔ (e.isOrdinary = true → e.HasText) := by
  apply Failure.reports_ofRaised_iff
  intro text given
  exact Failure.message_listing name given

theorem answers_select (spoken : ∀ e, director.Raises e → e.isOrdinary = true → e.HasText)
    (parent : Text) (names : List Value) :
    Answers director names (select parent names director).calls
      (select parent names director).outcome := by
  rcases exists_texts names with ⟨names, rfl⟩ | ⟨names, v, after, rfl, other⟩
  · by_cases empty : names = []
    · subst empty
      rw [List.map_nil, (select_nil director parent).1, (select_nil director parent).2]
      cases answer : director.list with
      | ok handles => exact .listed answer
      | error e =>
        have reports := (reports_failureOf_iff none e).mpr (spoken e (.inl answer))
        exact .unlisted answer reports
    · rw [(select_texts director parent empty).1, (select_texts director parent empty).2]
      rcases exists_finds director names with
        ⟨handles, found⟩ | ⟨before, name, after, handles, e, rfl, found, raised⟩
      · rw [findAll_of_finds found]
        exact .found empty found
      · rw [findAll_of_raised found raised]
        have reports := (reports_failureOf_iff (some name) e).mpr
          (spoken e (.inr ⟨name, raised⟩))
        exact .missing found raised reports
  · rw [select_mixed parent other]
    exact .mixed other

namespace Answers

variable {calls : List DirectorCall} {outcome : Except Failure (List (Handle ρ))} {e : Raised}

theorem reports_of_list (answers : Answers director [] calls outcome)
    (raised : director.list = .error e) : ∃ f, outcome = .error f ∧ Reports none e f := by
  generalize empty : ([] : List Value) = names at answers
  cases answers with
  | listed answered => cases raised.symm.trans answered
  | unlisted again reports =>
    cases raised.symm.trans again
    exact ⟨_, rfl, reports⟩
  | found filled _ => exact (filled (List.map_eq_nil_iff.mp empty.symm)).elim
  | missing => simp at empty
  | mixed => simp at empty

theorem reports_of_find {name : Text} (answers : Answers director [.text name] calls outcome)
    (raised : director.find name = .error e) :
    ∃ f, outcome = .error f ∧ Reports (some name) e f := by
  generalize single : [Value.text name] = names at answers
  cases answers with
  | listed | unlisted => cases single
  | @found names handles _ found =>
    rcases names with _ | ⟨first, _ | _⟩ <;> cases single
    cases found with
    | cons head _ => cases raised.symm.trans head
  | @missing before after _ _ _ _ _ again reports =>
    rcases before with _ | ⟨first, others⟩
    · obtain ⟨same, _⟩ := List.cons.inj single
      cases same
      cases raised.symm.trans again
      exact ⟨_, rfl, reports⟩
    · simpa using congrArg List.length single
  | @mixed names v after other =>
    rcases names with _ | ⟨first, _ | _⟩ <;> cases single
    exact (other name rfl).elim

end Answers

theorem ofValue_of_isIterable {filters : Value}
    (iterable : filters.isTruthy = false ∨ ∃ items, filters.items? = some items) :
    ∃ names, ofValue filters = .ok names ∧
      if filters.isTruthy then filters.items? = some names else names = [] := by
  unfold ofValue
  cases truthy : filters.isTruthy with
  | false => exact ⟨[], rfl, rfl⟩
  | true =>
    rcases iterable with falsy | ⟨items, given⟩
    · cases falsy.symm.trans truthy
    · rw [given]
      exact ⟨items, rfl, rfl⟩

/-- A fetch fails with the failure of its selection. No collection begins, and no facet is announced
or called for. -/
def EndsFetch (director : Director ρ) (parent : Text) (names : List Value) (f : Failure) : Prop :=
  ∀ (η : Facet → Type) (map : Mapping ρ η) (gates : List (Handle ρ) → Gates),
    let selected := select parent names director
    Fetcher.plan parent map gates names director = .error f ∧
      Fetcher.fetch parent map gates names director =
        ⟨some (.error f), [], selected.calls, [], selected.lines, []⟩

theorem endsFetch_of_error {parent : Text} {names : List Value} {f : Failure}
    (failed : (select parent names director).outcome = .error f) :
    EndsFetch director parent names f := by
  intro η map gates
  rw [Fetcher.plan, Fetcher.fetch, failed]
  exact ⟨rfl, rfl⟩

def failingWith (v : Value) : Director ρ := ⟨.error (.ofValue v), fun _ => .error (.ofValue v)⟩

end Selection

end Deployments
