import Deployments.Yaml.Cursor

/-!
The tokens of a document. Indentation is told by tokens for the beginning and the end of block
collections, and a key in front of a colon by a token of its own.
-/

namespace Deployments.Yaml

inductive Token where
  | version (major : Nat)
  /-- The directive that gives a tag handle its meaning. -/
  | handle (name uri : String)
  | remark
  | documentStart
  | documentEnd
  | blockSequence
  | blockMapping
  | blockEnd
  | flowSequence
  | flowSequenceEnd
  | flowMapping
  | flowMappingEnd
  | blockEntry
  | flowEntry
  | key
  | value
  | alias (name : String)
  | anchor (name : String)
  | tag (handle : Option String) (suffix : String)
  | scalar (text : Text) (plain : Bool)
  | broken (fault : Fault)
  deriving DecidableEq, Repr, Inhabited

end Deployments.Yaml
