import Deployments.Yaml.Tag
import Deployments.Yaml.Token.Stream

/-!
The nodes of a document: scalars, sequences and mappings with their types. An alias is the node
of its anchor; inside the node of its anchor it stays an alias. A text holds one document at most.
-/

namespace Deployments.Yaml

/-- A collection has a number of its own in the document. -/
inductive Node where
  | scalar (tag : Tag) (text : Text)
  | sequence (number : Nat) (tag : Tag) (items : List Node)
  | mapping (number : Nat) (tag : Tag) (entries : List (Node × Node))
  /-- The node of an anchor, inside itself. -/
  | reference (anchor : String)
  /-- A collection inside itself that is not unfolded any more. -/
  | again (isList : Bool)
  deriving Repr, Inhabited

namespace Node

def tag : Node → Tag
  | scalar tag _ => tag
  | sequence _ tag _ => tag
  | mapping _ tag _ => tag
  | reference _ | again _ => .map

/-- The text that a node gives as a scalar: its own, or that of the entry of a mapping which
stands for the whole. -/
def scalarText? : Node → Option Text
  | scalar _ text => some text
  | sequence .. | reference _ | again _ => none
  | mapping _ _ entries => standIn? entries
where
  /-- The text of the first entry marked to stand for the whole. -/
  standIn? : List (Node × Node) → Option Text
    | [] => none
    | (key, value) :: rest => if key.tag == .value then scalarText? value else standIn? rest

/-- The node where nothing is written. -/
def empty : Node := scalar .null ""

/-- The anchors of a document; one whose node is not complete has no node yet. -/
abbrev Anchors := List (String × Option Node)

/-- The node of an anchor. -/
def Anchors.node? (anchors : Anchors) (name : String) : Option Node := (anchors.lookup name).join

/-- What is read, with the tokens behind it and the anchors. -/
abbrev Left (α : Type) := α × List Token × Anchors

/-- The tokens do not go on as they should. -/
def unexpected {α : Type} : List Token → Except Fault α
  | .broken fault :: _ => .error fault
  | _ => .error .malformed

abbrev Handles := List (String × String)

/-- The handles that need no directive. -/
def commonHandles : Handles := [("!", "!"), ("!!", Tag.commonUri)]

structure Marks where
  anchor : Option String
  /-- The address of the type, if one is given. -/
  uri : Option String

namespace Marks

def isOpen (m : Marks) : Bool := m.uri.isNone || m.uri == some "!"

/-- The type of a scalar; only a plain one without a mark is recognised by its text. -/
def scalarTag (m : Marks) (text : Text) (plain : Bool) : Tag :=
  match m.uri with
  | none => if plain then .ofPlain text else .str
  | some uri => if uri == "!" then .ofPlain text else .ofUri uri

/-- The type of a collection, if it has no mark. -/
def collectionTag (m : Marks) (usual : Tag) : Tag :=
  match m.uri with
  | none => usual
  | some uri => if uri == "!" then usual else .ofUri uri

def address? (handles : Handles) : Option String → String → Option String
  | none, suffix => some suffix
  | some handle, suffix => (handles.lookup handle).map (· ++ suffix)

/-- The marks at the beginning of tokens: an anchor and a tag in either order, or one of them. -/
def read (handles : Handles) (tokens : List Token) : Except Fault (Marks × List Token) :=
  let given (anchor : Option String) (handle : Option String) (suffix : String)
      (rest : List Token) : Except Fault (Marks × List Token) :=
    match address? handles handle suffix with
    | some uri => .ok (⟨anchor, some uri⟩, rest)
    | none => .error .malformed
  match tokens with
  | .anchor name :: .tag handle suffix :: rest => given (some name) handle suffix rest
  | .tag handle suffix :: .anchor name :: rest => given (some name) handle suffix rest
  | .anchor name :: rest => .ok (⟨some name, none⟩, rest)
  | .tag handle suffix :: rest => given none handle suffix rest
  | rest => .ok (⟨none, none⟩, rest)

/-- The anchors when the node of these marks begins; an anchor is given once. -/
def begin (m : Marks) (anchors : Anchors) : Except Fault Anchors :=
  match m.anchor with
  | none => .ok anchors
  | some name =>
    if anchors.any fun a => a.1 == name then .error .malformed
    else .ok ((name, none) :: anchors)

def complete (m : Marks) (node : Node) (anchors : Anchors) : Anchors :=
  match m.anchor with
  | none => anchors
  | some name => anchors.map fun a => if a.1 == name then (name, some node) else a

end Marks

/-- No node begins with the token after a sign in a block. -/
def isBlockSign : Token → Bool
  | .key | .value | .blockEnd => true
  | _ => false

/-- No node begins with the token after a sign in a flow sequence. -/
def isSequenceSign : Token → Bool
  | .flowEntry | .flowSequenceEnd => true
  | _ => false

/-- No node begins with the token after a sign in a flow mapping. -/
def isMappingSign : Token → Bool
  | .flowEntry | .flowMappingEnd => true
  | _ => false

/-- A marked node without content is an empty scalar; an unmarked one is none. -/
def bare (marks : Marks) (tokens : List Token) (anchors : Anchors) : Except Fault (Left Node) :=
  if marks.anchor.isSome || marks.uri.isSome then
    let tag : Tag := if marks.isOpen then .ofPlain "" else marks.scalarTag "" false
    .ok (scalar tag "", tokens, anchors)
  else unexpected tokens

/-- The empty node if a token follows with which none begins, else what is read. -/
def orEmpty (isEnd : Token → Bool) (tokens : List Token) (anchors : Anchors)
    (readNode : Unit → Except Fault (Left Node)) : Except Fault (Left Node) :=
  match tokens with
  | t :: _ => if isEnd t then .ok (empty, tokens, anchors) else readNode ()
  | [] => readNode ()

/-- The tokens behind the comma in front of an item, which the first item and the end have not. -/
def separated (isEnd : Token → Bool) (first : Bool) (tokens : List Token) :
    Except Fault (List Token) :=
  match tokens with
  | [] => unexpected []
  | t :: rest =>
    if isEnd t || first then .ok tokens
    else if t == .flowEntry then .ok rest
    else unexpected tokens

mutual

/-- The node at the beginning of tokens. Block collections begin only where `block` holds, and a
sequence without a beginning of its own only where `loose` does. -/
def read (handles : Handles) :
    Nat → Bool → Bool → List Token → Anchors → Except Fault (Left Node)
  | 0, _, _, tokens, _ => unexpected tokens
  | fuel + 1, block, loose, tokens, anchors =>
    match tokens with
    | .alias name :: rest =>
      match anchors.lookup name with
      | some (some node) => .ok (node, rest, anchors)
      | some none => .ok (reference name, rest, anchors)
      | none => .error .malformed
    | _ => do
      let (marks, rest) ← Marks.read handles tokens
      let anchors ← marks.begin anchors
      let (node, rest, anchors) ← show Except Fault (Left Node) from
        match rest with
        | .scalar text plain :: rest =>
          .ok (scalar (marks.scalarTag text plain) text, rest, anchors)
        | .flowSequence :: rest => do
          let (items, rest, anchors) ← flowItems handles fuel true rest anchors
          .ok (sequence tokens.length (marks.collectionTag .seq) items, rest, anchors)
        | .flowMapping :: rest => do
          let (entries, rest, anchors) ← flowEntries handles fuel true rest anchors
          .ok (mapping tokens.length (marks.collectionTag .map) entries, rest, anchors)
        | .blockSequence :: rest =>
          if block then do
            let (items, rest, anchors) ← blockItems handles fuel rest anchors
            .ok (sequence tokens.length (marks.collectionTag .seq) items, rest, anchors)
          else bare marks (.blockSequence :: rest) anchors
        | .blockMapping :: rest =>
          if block then do
            let (entries, rest, anchors) ← blockEntries handles fuel rest anchors
            .ok (mapping tokens.length (marks.collectionTag .map) entries, rest, anchors)
          else bare marks (.blockMapping :: rest) anchors
        | .blockEntry :: rest =>
          if loose then do
            let (items, rest, anchors) ← looseItems handles fuel (.blockEntry :: rest) anchors
            .ok (sequence tokens.length (marks.collectionTag .seq) items, rest, anchors)
          else bare marks (.blockEntry :: rest) anchors
        | rest => bare marks rest anchors
      .ok (node, rest, marks.complete node anchors)
termination_by structural fuel => fuel

def blockItems (handles : Handles) :
    Nat → List Token → Anchors → Except Fault (Left (List Node))
  | 0, tokens, _ => unexpected tokens
  | fuel + 1, tokens, anchors =>
    match tokens with
    | .blockEntry :: rest => do
      let (item, rest, anchors) ←
        orEmpty (fun t => t == .blockEntry || t == .blockEnd) rest anchors fun _ =>
          read handles fuel true false rest anchors
      let (items, rest, anchors) ← blockItems handles fuel rest anchors
      .ok (item :: items, rest, anchors)
    | .blockEnd :: rest => .ok ([], rest, anchors)
    | rest => unexpected rest
termination_by structural fuel => fuel

/-- The items of a block sequence that is not indented further than its mapping. -/
def looseItems (handles : Handles) :
    Nat → List Token → Anchors → Except Fault (Left (List Node))
  | 0, tokens, _ => unexpected tokens
  | fuel + 1, tokens, anchors =>
    match tokens with
    | .blockEntry :: rest => do
      let (item, rest, anchors) ←
        orEmpty (fun t => t == .blockEntry || isBlockSign t) rest anchors fun _ =>
          read handles fuel true false rest anchors
      let (items, rest, anchors) ← looseItems handles fuel rest anchors
      .ok (item :: items, rest, anchors)
    | rest => .ok ([], rest, anchors)
termination_by structural fuel => fuel

def blockEntries (handles : Handles) : Nat → List Token → Anchors →
    Except Fault (Left (List (Node × Node)))
  | 0, tokens, _ => unexpected tokens
  | fuel + 1, tokens, anchors =>
    match tokens with
    | .key :: rest => do
      let (key, rest, anchors) ← orEmpty isBlockSign rest anchors fun _ =>
        read handles fuel true true rest anchors
      let (value, rest, anchors) ← show Except Fault (Left Node) from
        match rest with
        | .value :: rest => orEmpty isBlockSign rest anchors fun _ =>
            read handles fuel true true rest anchors
        | rest => .ok (empty, rest, anchors)
      let (entries, rest, anchors) ← blockEntries handles fuel rest anchors
      .ok ((key, value) :: entries, rest, anchors)
    | .blockEnd :: rest => .ok ([], rest, anchors)
    | rest => unexpected rest
termination_by structural fuel => fuel

/-- The items of a flow sequence up to its end; an entry of a mapping may stand for a mapping. -/
def flowItems (handles : Handles) : Nat → Bool → List Token → Anchors →
    Except Fault (Left (List Node))
  | 0, _, tokens, _ => unexpected tokens
  | fuel + 1, first, tokens, anchors =>
    match separated (· == .flowSequenceEnd) first tokens with
    | .error fault => .error fault
    | .ok (.flowSequenceEnd :: rest) => .ok ([], rest, anchors)
    | .ok (.key :: rest) => do
      let number := rest.length + 1
      let (key, rest, anchors) ←
        orEmpty (fun t => t == .value || isSequenceSign t) rest anchors fun _ =>
          read handles fuel false false rest anchors
      let (value, rest, anchors) ← show Except Fault (Left Node) from
        match rest with
        | .value :: rest => orEmpty isSequenceSign rest anchors fun _ =>
            read handles fuel false false rest anchors
        | rest => .ok (empty, rest, anchors)
      let (items, rest, anchors) ← flowItems handles fuel false rest anchors
      .ok (mapping number .map [(key, value)] :: items, rest, anchors)
    | .ok rest => do
      let (item, rest, anchors) ← read handles fuel false false rest anchors
      let (items, rest, anchors) ← flowItems handles fuel false rest anchors
      .ok (item :: items, rest, anchors)
termination_by structural fuel => fuel

/-- The entries of a flow mapping up to its end; a node without a value is a key too. -/
def flowEntries (handles : Handles) : Nat → Bool → List Token → Anchors →
    Except Fault (Left (List (Node × Node)))
  | 0, _, tokens, _ => unexpected tokens
  | fuel + 1, first, tokens, anchors =>
    match separated (· == .flowMappingEnd) first tokens with
    | .error fault => .error fault
    | .ok (.flowMappingEnd :: rest) => .ok ([], rest, anchors)
    | .ok (.key :: rest) => do
      let (key, rest, anchors) ←
        orEmpty (fun t => t == .value || isMappingSign t) rest anchors fun _ =>
          read handles fuel false false rest anchors
      let (value, rest, anchors) ← show Except Fault (Left Node) from
        match rest with
        | .value :: rest => orEmpty isMappingSign rest anchors fun _ =>
            read handles fuel false false rest anchors
        | rest => .ok (empty, rest, anchors)
      let (entries, rest, anchors) ← flowEntries handles fuel false rest anchors
      .ok ((key, value) :: entries, rest, anchors)
    | .ok rest => do
      let (key, rest, anchors) ← read handles fuel false false rest anchors
      let (entries, rest, anchors) ← flowEntries handles fuel false rest anchors
      .ok ((key, empty) :: entries, rest, anchors)
termination_by structural fuel => fuel

end

/-- The meaning of the tag handles that directives give, and the tokens behind the directives. -/
def directives (versionSeen : Bool) (handles : Handles) :
    List Token → Except Fault (Handles × List Token)
  | .version major :: rest =>
    if versionSeen || major != 1 then .error .malformed else directives true handles rest
  | .handle name uri :: rest =>
    if (handles.lookup name).isSome then .error .malformed
    else directives versionSeen ((name, uri) :: handles) rest
  | .remark :: rest => directives versionSeen handles rest
  | rest => .ok (handles ++ commonHandles, rest)

/-- Nothing follows but marks that end the document. -/
def ended : List Token → Except Fault Unit
  | [] => .ok ()
  | .documentEnd :: rest => ended rest
  | rest => unexpected rest

/-- The node at the beginning of tokens, behind which the document ends, with the anchors. -/
def whole (handles : Handles) (tokens : List Token) : Except Fault (Node × Anchors) := do
  let (node, rest, anchors) ← read handles (4 * tokens.length + 4) true false tokens []
  ended rest
  return (node, anchors)

/-- The token stands between documents or in front of one. -/
def isOutside : Token → Bool
  | .version _ | .handle .. | .remark | .documentStart => true
  | _ => false

/-- The node of a document, if there is one, with the anchors. -/
def ofTokens? (tokens : List Token) : Except Fault (Option (Node × Anchors)) :=
  match tokens with
  | [] => .ok none
  | first :: _ =>
    if isOutside first then do
      match ← directives false [] tokens with
      | (handles, .documentStart :: rest) =>
        let isBare : Bool := match rest with
          | [] => true
          | t :: _ => isOutside t || t == .documentEnd
        if isBare then do
          ended rest
          return some (empty, [])
        else some <$> whole handles rest
      | (_, rest) => unexpected rest
    else some <$> whole commonHandles tokens

end Node

end Deployments.Yaml
