import Deployments.Reading.FieldReader

/-!
Records of what a deployment declares or refers to: errands, releases and stemcells.
-/

namespace Deployments.Record

open Reading

structure Errand where
  name : Text
  deriving DecidableEq, Repr, Inhabited

structure Release where
  name : Text
  version : Text
  deriving DecidableEq, Repr, Inhabited

structure Stemcell where
  name : Text
  version : Text
  osName : Text
  deriving DecidableEq, Repr, Inhabited

namespace Errand

def title : String := "ErrandRecord"

def read : Value → Checked Errand :=
  record title fun es => mk <$> (FieldReader.required "name" text).get es

def toValue (r : Errand) : Value := .record [("name", .text r.name)]

end Errand

namespace Release

def title : String := "ReleaseRecord"

def read : Value → Checked Release :=
  record title fun es =>
    mk <$> (FieldReader.required "name" text).get es
      <*> (FieldReader.required "version" versionText).get es

def toValue (r : Release) : Value :=
  .record [("name", .text r.name), ("version", .text r.version)]

end Release

namespace Stemcell

def title : String := "StemcellRecord"

def osField : FieldReader Text :=
  (FieldReader.optional "operating_system" ("" : Text) text).orUnder "os_name"

def read : Value → Checked Stemcell :=
  record title fun es =>
    mk <$> (FieldReader.required "name" text).get es
      <*> (FieldReader.required "version" versionText).get es
      <*> osField.get es

def toValue (r : Stemcell) : Value :=
  .record [("name", .text r.name), ("version", .text r.version), ("os_name", .text r.osName)]

end Stemcell

end Deployments.Record
