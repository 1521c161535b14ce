import Deployments.Failure
import Deployments.Proofs.Json.Leaves

/-!
What becomes of an error that a call raises. Callers wrap an error that they handle, with its text
behind a text of theirs, and pass on the others. An error that carries a value which
is too deep, or an integer with too many digits, has no text, so it cannot be wrapped.
-/

namespace Deployments

def Raised.HasText (e : Raised) : Prop := ∃ text, e.text = .ok text

namespace Failure

variable {wrap : Raised → Failure} {front : Text} {e : Raised}

/-- The failure that an error should come to: the error in its wrapping, or as it is if callers do
not handle it. -/
def Reports (wrap : Raised → Failure) (front : Text) (e : Raised) (f : Failure) : Prop :=
  (e.isOrdinary = true ∧ f = wrap e ∧ ∃ text, e.text = .ok text ∧ f.message = front ++ text) ∨
    (e.isOrdinary = false ∧ f = raised e)

theorem ofRaised_of_text (ordinary : e.isOrdinary = true) (given : e.HasText) :
    ofRaised wrap e = wrap e := by
  obtain ⟨text, given⟩ := given
  rw [ofRaised, if_pos ordinary, given]

theorem ofRaised_of_not_isOrdinary (passed : e.isOrdinary = false) :
    ofRaised wrap e = raised e := by
  rw [ofRaised, if_neg (by simp [passed])]

theorem reports_ofRaised_iff
    (message : ∀ text, e.text = .ok text → (wrap e).message = front ++ text) :
    Reports wrap front e (ofRaised wrap e) ↔ (e.isOrdinary = true → e.HasText) := by
  cases handled : e.isOrdinary with
  | false =>
    rw [ofRaised_of_not_isOrdinary handled]
    refine iff_of_true (.inr ⟨handled, rfl⟩) ?_
    intro ordinary
    cases ordinary
  | true =>
    constructor
    · rintro (⟨_, _, text, given, _⟩ | ⟨passed, _⟩) _
      · exact ⟨text, given⟩
      · cases handled.symm.trans passed
    · intro given
      obtain ⟨text, given⟩ := given rfl
      rw [ofRaised_of_text handled ⟨text, given⟩]
      exact .inl ⟨handled, rfl, text, given, message text given⟩

def facetFront (deployment : Text) (read : Facet) : Text :=
  "Error while reading " ++ read.label ++ " for deployment " ++ marked deployment ++ ": "

def listingFront : Option Text → Text
  | none => "Error reading deployments: "
  | some name => "Error reading deployment " ++ marked name ++ ": "

theorem message_of_text {text : Text} (given : e.text = .ok text) : e.message = text := by
  rw [Raised.message, given]
  rfl

theorem message_facet (deployment : Text) (read : Facet) {text : Text}
    (given : e.text = .ok text) :
    (facet deployment read e).message = facetFront deployment read ++ text := by
  show facetFront deployment read ++ e.message = _
  rw [message_of_text given]

theorem message_listing (name : Option Text) {text : Text} (given : e.text = .ok text) :
    (listing name e).message = listingFront name ++ text := by
  rw [← message_of_text given]
  cases name <;> rfl

end Failure

namespace Value

/-- Lists in one another. -/
def nested : Nat → Value
  | 0 => .text ""
  | n + 1 => .list [nested n]

theorem depth_nested (n : Nat) : (nested n).depth = n := by
  induction n with
  | zero => rfl
  | succ n ih => simp [nested, depth, depthOfItems, ih]

end Value

namespace Raised

/-- The error that a wrong value raises. -/
def ofValue (v : Value) : Raised := ⟨"ValueError", [v]⟩

theorem isOrdinary_ofValue (v : Value) : (ofValue v).isOrdinary = true := rfl

theorem text_of_deep {e : Raised} (deep : depthLimit < Value.depthOfItems e.args) :
    e.text = .error .tooDeep := if_pos deep

theorem text_ofValue_of_deep {v : Value} (deep : depthLimit < v.depth) :
    (ofValue v).text = .error .tooDeep := by
  refine text_of_deep ?_
  simpa [ofValue, Value.depthOfItems] using deep

theorem not_hasText_of_deep {v : Value} (deep : depthLimit < v.depth) :
    ¬ (ofValue v).HasText := by
  rintro ⟨text, given⟩
  cases (text_ofValue_of_deep deep).symm.trans given

/-- Lists in one another that are far too deep. -/
def tooDeep : Value := .nested 10000

theorem lt_depth_tooDeep : depthLimit < tooDeep.depth := by
  rw [tooDeep, Value.depth_nested]
  decide

end Raised

theorem Failure.ofRaised_of_deep (wrap : Raised → Failure) {v : Value}
    (deep : Raised.depthLimit < v.depth) : ofRaised wrap (.ofValue v) = fault .tooDeep := by
  rw [ofRaised, if_pos (Raised.isOrdinary_ofValue v), Raised.text_ofValue_of_deep deep]

end Deployments
