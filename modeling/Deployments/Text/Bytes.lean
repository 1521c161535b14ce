import Deployments.Text

/-!
Bytes and the texts they encode.
-/

namespace Deployments.Text

/-- The text that bytes encode in UTF-8, if they are well formed. -/
def decode? (bytes : List UInt8) : Option String :=
  String.fromUTF8? ⟨bytes.toArray⟩

def encode (s : String) : List UInt8 :=
  s.toUTF8.data.toList

/-- The text with three signs in place of each surrogate: one for each byte that it would have. -/
def replaced (t : Text) : String :=
  String.ofList (t.toList.flatMap fun
    | .char c => [c]
    | .surrogate _ => List.replicate 3 '\ufffd')

theorem decode?_encode (s : String) : decode? (encode s) = some s := by
  have valid : s.toByteArray.IsValidUTF8 := s.isValidUTF8
  simp [decode?, encode, String.fromUTF8?, valid, String.fromUTF8]

theorem decode?_eq_some_iff {bytes : List UInt8} {s : String} :
    decode? bytes = some s ↔ encode s = bytes := by
  constructor
  · intro read
    unfold decode? String.fromUTF8? at read
    split at read
    next =>
      cases read
      rfl
    next => cases read
  · rintro rfl
    exact decode?_encode s

theorem encode_eq_nil_iff {s : String} : encode s = [] ↔ s = "" := by
  have empty : decode? [] = some "" := decode?_encode ""
  rw [← decode?_eq_some_iff, empty, Option.some.injEq, eq_comm]

end Deployments.Text
