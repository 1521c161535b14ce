import Deployments.Yaml.Scalar
import Deployments.Yaml.Unfolded

/-!
The value of a document. Collections are filled one generation after another, so that of several
faults the one nearest to the root counts, and the first of these in the text.
-/

namespace Deployments.Yaml

/-- What a node gives, or the generation and the kind of its fault. -/
abbrev Built (α : Type) := Except (Nat × Fault) α

namespace Built

/-- Two results in the order of the text: of two faults the one of the earlier generation counts,
of one generation the first. -/
def both {α β γ : Type} (f : α → β → γ) (x : Built α) (y : Built β) : Built γ :=
  match x, y with
  | .ok a, .ok b => .ok (f a b)
  | .ok _, .error e => .error e
  | .error e, .ok _ => .error e
  | .error (d, e), .error (d', e') => .error (if d' < d then (d', e') else (d, e))

def all {α : Type} : List (Built α) → Built (List α)
  | [] => .ok []
  | x :: xs => both List.cons x (all xs)

def fault {α : Type} (generation : Nat) (e : Fault) : Built α := .error (generation, e)

end Built

namespace Node

/-- The entries taken over from other mappings, and a mapping's own. -/
abbrev Split := List (Built (Value × Value)) × List (Built (Value × Value))

mutual

/-- The value of a node in a generation, with sets in an order. -/
def build (order : SetOrder) (generation : Nat) : Node → Built Value
  | scalar tag text =>
    if tag.isCollection then .fault (generation + 1) .malformed
    else (Scalar.value tag text).mapError fun e => (generation, e)
  | sequence _ tag items =>
    match tag with
    | .seq => (Built.all (buildAll order (generation + 1) items)).map .list
    | .omap | .pairs => (Built.all (buildPairs order (generation + 1) items)).map .list
    | .map | .set => .fault (generation + 1) .malformed
    | _ => .fault generation .malformed
  | mapping number tag entries =>
    let own := (buildEntries order (generation + 1) entries).bind fun (taken, own) =>
      Built.all (taken ++ own)
    match tag with
    | .map => own.map fun es => .dict (Entries.ofList es)
    | .set => own.map fun es => Value.setOf order (es.map Prod.fst)
    | .seq | .omap | .pairs => .fault (generation + 1) .malformed
    | _ =>
      match scalarText? (mapping number tag entries) with
      | some text => (Scalar.value tag text).mapError fun e => (generation, e)
      | none => .fault generation .malformed
  | again isList => .ok (.again isList)
  | reference _ => .ok .null
termination_by structural node => node

def buildAll (order : SetOrder) (generation : Nat) : List Node → List (Built Value)
  | [] => []
  | node :: nodes => build order generation node :: buildAll order generation nodes
termination_by structural nodes => nodes

def buildPairs (order : SetOrder) (generation : Nat) : List Node → List (Built Value)
  | [] => []
  | node :: nodes =>
    (match node with
      | mapping _ _ [(key, value)] =>
        Built.both (fun k v => .tuple [k, v]) (build order generation key)
          (build order generation value)
      | _ => .fault generation .malformed) :: buildPairs order generation nodes
termination_by structural nodes => nodes

/-- The entries of a mapping, filled in a generation. A key is no collection. -/
def buildEntries (order : SetOrder) (generation : Nat) : List (Node × Node) → Built Split
  | [] => .ok ([], [])
  | (key, value) :: rest =>
    if key.tag == .merge then
      let taken : Built (List (Built (Value × Value))) :=
        match value with
        | mapping _ _ inner =>
          (buildEntries order generation inner).map fun (taken, own) => taken ++ own
        | sequence _ _ nodes =>
          (takeAll order generation nodes).map fun lists => lists.reverse.flatten
        | again _ => .ok []
        | scalar .. | reference _ => .fault generation .malformed
      taken.bind fun taken =>
        (buildEntries order generation rest).map fun (more, own) => (taken ++ more, own)
    else
      let builtKey :=
        if key.tag == .value then
          match scalarText? key with
          | some text => .ok (.text text)
          | none => .fault generation .malformed
        else if key.tag.isCollection then .fault generation .malformed
        else build order generation key
      let entry := Built.both Prod.mk builtKey (build order generation value)
      (buildEntries order generation rest).map fun (taken, own) => (taken, entry :: own)
termination_by structural entries => entries

def takeAll (order : SetOrder) (generation : Nat) :
    List Node → Built (List (List (Built (Value × Value))))
  | [] => .ok []
  | node :: nodes =>
    match node with
    | mapping _ _ inner =>
      (buildEntries order generation inner).bind fun (taken, own) =>
        (takeAll order generation nodes).map ((taken ++ own) :: ·)
    | again _ => takeAll order generation nodes
    | _ => .fault generation .malformed
termination_by structural nodes => nodes

end

def toValue (order : SetOrder) (node : Node) : Except Fault Value :=
  (node.build order 0).mapError Prod.snd

end Node

/-- A character may stand in a document. -/
def isAllowed (c : Char) : Bool :=
  let n := c.toNat
  n == 0x9 || n == 0xa || n == 0xd || decide (0x20 ≤ n) && decide (n ≤ 0x7e) || n == 0x85 ||
    decide (0xa0 ≤ n) && decide (n ≤ 0xd7ff) || decide (0xe000 ≤ n) && decide (n ≤ 0xfffd) ||
    decide (0x10000 ≤ n)

/-- The value of the document that a text holds; an empty text gives null. -/
def load (order : SetOrder) (cs : List Char) : Except Fault Value :=
  if cs.all isAllowed then do
    match ← Node.unfolded? (Token.ofChars cs) with
    | none => return .null
    | some node => node.toValue order
  else .error .malformed

end Deployments.Yaml
