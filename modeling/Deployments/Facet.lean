/-!
The facets of a deployment, in the order in which they are read.
-/

namespace Deployments

inductive Facet where
  | errands
  | instances
  | releases
  | stemcells
  deriving DecidableEq, Repr, Inhabited

namespace Facet

def all : List Facet := [errands, instances, releases, stemcells]

def label : Facet → String
  | errands => "Errands"
  | instances => "Instances"
  | releases => "Releases"
  | stemcells => "Stemcells"

def key : Facet → String
  | errands => "errands"
  | instances => "instances"
  | releases => "releases"
  | stemcells => "stemcells"

def call : Facet → String
  | instances => "instance_infos"
  | facet => facet.key

def ofKey? (name : String) : Option Facet := all.find? fun facet => facet.key == name

def ofCall? (name : String) : Option Facet := all.find? fun facet => facet.call == name

theorem mem_all (facet : Facet) : facet ∈ all := by cases facet <;> simp [all]

end Facet

end Deployments
