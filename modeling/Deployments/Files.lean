import Deployments.Text.Bytes
import Deployments.Text.Split

/-!
Files under paths. Empty parts of a path and parts that stand for the directory itself do not
count, a part of two dots leads to the directory above, and a directory is there when a file lies
in it. Names of files are bytes; those that encode no character stand in a path as surrogates.
-/

namespace Deployments

inductive Found where
  | file (bytes : List UInt8)
  | directory
  | nothing
  /-- The path, or a name in it, is longer than it can be. -/
  | tooLong
  deriving DecidableEq, Repr, Inhabited

/-- The files there are, by the bytes of their paths. -/
abbrev Files := List (List UInt8 × List UInt8)

namespace Files

/-- The parts of a path that count, with the signs that stand between parts and for a directory
itself. -/
def partsBetween {α : Type} [DecidableEq α] (slash dot : α) (path : List α) : List (List α) :=
  (Text.split slash path).filter fun part => part != [] && part != [dot]

/-- The path with only the parts that count. -/
def normal (path : Text) : Text :=
  let slash : Point := .char '/'
  let joined := Text.ofList ([slash].intercalate (partsBetween slash (.char '.') path.toList))
  if path.toList.head? == some slash then "/" ++ joined
  else if joined == "" then "." else joined

/-- The bytes of a code point in the name of a file. Those that encode no character have surrogates
of their own; other surrogates and the character zero have no bytes. -/
def pointBytes? : Point → Option (List UInt8)
  | .char c => if c = '\x00' then none else some (String.utf8EncodeChar c)
  | .surrogate n => if 0x480 ≤ n.val ∧ n.val < 0x500 then some [UInt8.ofNat (n - 0x400)] else none

def bytes? (path : Text) : Option (List UInt8) := (path.toList.mapM pointBytes?).map List.flatten

def slashByte : UInt8 := 47

def dotByte : UInt8 := 46

def parts (path : List UInt8) : List (List UInt8) := partsBetween slashByte dotByte path

def isAbsolute (path : List UInt8) : Bool := path.head? == some slashByte

def nameLimit : Nat := 255

def pathLimit : Nat := 4095

def aboveName : List UInt8 := [dotByte, dotByte]

/-- What stands at a place, which is given by the names on the way to it. -/
def standsAt (files : Files) (absolute : Bool) (place : List (List UInt8)) : Found :=
  match files.find? fun file => isAbsolute file.1 == absolute && parts file.1 == place with
  | some file => .file file.2
  | none =>
    let isIn (path : List UInt8) : Bool :=
      isAbsolute path == absolute && place.isPrefixOf (parts path)
    if place.all (· == aboveName) || files.any fun file => isIn file.1 then .directory else .nothing

/-- The place of the directory above; there is none above the root. -/
def above (absolute : Bool) (place : List (List UInt8)) : List (List UInt8) :=
  if place.all (· == aboveName) then (if absolute then [] else aboveName :: place)
  else place.dropLast

/-- What is found from a place on, a directory at each step but the last. -/
def walk (files : Files) (absolute : Bool) (place : List (List UInt8)) : List (List UInt8) → Found
  | [] => standsAt files absolute place
  | part :: rest =>
    match standsAt files absolute place with
    | .directory =>
      if part == aboveName then walk files absolute (above absolute place) rest
      else if nameLimit < part.length then .tooLong
      else walk files absolute (place ++ [part]) rest
    | _ => .nothing

/-- What stands under a path. A file is also found by the very path it is given under; nothing is
found under a path without bytes. -/
def find (files : Files) (path : Text) : Found :=
  match bytes? (normal path) with
  | none => .nothing
  | some bytes =>
    if pathLimit < bytes.length then .tooLong
    else
      match standsAt files (isAbsolute bytes) (parts bytes) with
      | .nothing => walk files (isAbsolute bytes) [] (parts bytes)
      | found => found

/-- A file of a name and a text. -/
def named (name text : String) : List UInt8 × List UInt8 := (Text.encode name, Text.encode text)

example : find [named "a/c.yaml" "", named "d.yaml" "d"] "./a//../d.yaml" = .file [100] := by
  decide +kernel
example : find [named "a/c.yaml" ""] "b/../a" = .nothing := by decide +kernel
example : find [named "a/c.yaml" ""] "a/." = .directory := by decide +kernel
example : find [([0xff], [])] (.ofList [.surrogate 0x4ff]) = .file [] := by decide +kernel

end Files

end Deployments
