import Deployments.Yaml.Node

/-!
Nodes without references. A collection inside itself has no end: it is unfolded as far as anything
looks into it. A version is shown as a whole, and its text stops at a collection that is inside
itself.
-/

namespace Deployments.Yaml.Node

/-- No more collections than this stand in one another where a record is read. -/
def depthRead : Nat := 8

/-- How a node is reached. -/
structure Reach where
  /-- So many collections around a node are looked into. -/
  depth : Nat
  /-- The numbers of the collections around the node. -/
  around : List Nat

namespace Reach

def root : Reach := ⟨depthRead, []⟩

/-- The value of a version. -/
def version : Reach := ⟨0, []⟩

/-- The collection of the number is inside itself and not looked into any more. -/
def isSpent (r : Reach) (number : Nat) : Bool :=
  r.around.contains number && decide (r.depth ≤ r.around.length)

def into (r : Reach) (number : Nat) : Reach := { r with around := number :: r.around }

/-- The value under a key. What stands in a version is part of its text. -/
def under (r : Reach) (key : Node) : Reach :=
  if r.depth != 0 && key.tag == .str && key.scalarText? == some "version" then version else r

end Reach

/-- What a node is read for. -/
inductive Use where
  /-- A value of its own. -/
  | value
  /-- A pair, the one entry of a mapping. -/
  | pair
  /-- Entries for a mapping that takes them over, through mappings that do so with the numbers. -/
  | taken (through : List Nat)

section Unfolding

variable (follow : Reach → Use → String → Node)

mutual

/-- The node with what `follow` gives in place of its references. -/
def unfoldWith (reach : Reach) (use : Use) : Node → Node
  | sequence number tag items =>
    match use with
    | .value =>
      if reach.isSpent number then again true
      else
        let use : Use := if tag == .omap || tag == .pairs then .pair else .value
        sequence number tag (unfoldAll (reach.into number) use items)
    | use => sequence number tag (unfoldAll reach use items)
  | mapping number tag entries =>
    match use with
    | .value =>
      if reach.isSpent number then again false
      else mapping number tag (unfoldEntries (reach.into number) (some [number]) entries)
    | .pair => mapping number tag (unfoldEntries reach none entries)
    | .taken through =>
      -- A mapping that is taken over by itself gives what is its own.
      let through := if through.contains number then none else some (number :: through)
      mapping number tag (unfoldEntries reach through entries)
  | reference anchor => follow reach use anchor
  | node => node
termination_by structural node => node

def unfoldAll (reach : Reach) (use : Use) : List Node → List Node
  | [] => []
  | node :: nodes => unfoldWith reach use node :: unfoldAll reach use nodes
termination_by structural nodes => nodes

/-- The entries of a mapping, which takes none over if there is no way through it. -/
def unfoldEntries (reach : Reach) (through : Option (List Nat)) :
    List (Node × Node) → List (Node × Node)
  | [] => []
  | (key, value) :: rest =>
    let value :=
      if key.tag == .merge then
        match through with
        | some through => unfoldWith reach (.taken through) value
        | none => again false
      else unfoldWith (reach.under key) .value value
    (unfoldWith reach .value key, value) :: unfoldEntries reach through rest
termination_by structural entries => entries

end

end Unfolding

/-- The node without references, as far as a number of them that follow one another leads. -/
def unfold (anchors : Anchors) : Nat → Reach → Use → Node → Node
  | 0, _, _, node => node
  | references + 1, reach, use, node =>
    unfoldWith (fun reach use anchor =>
      unfold anchors references reach use ((anchors.node? anchor).getD empty)) reach use node

/-- The node of a document without references. No more of them follow one another than the
collections around a node allow, each with the mappings that its entries are taken from. -/
def unfolded? (tokens : List Token) : Except Fault (Option Node) :=
  let size := tokens.length + 1
  (ofTokens? tokens).map fun read => read.map fun (node, anchors) =>
    unfold anchors (16 * size * size) .root .value node

end Deployments.Yaml.Node
