import Orchestration.Run.Record

namespace Orchestration

structure Submission where
  workflow : Reference
  budget : Option Cents
  tags : List String
  input : Json
  /-- Without one, the settings decide. -/
  policy : Option FailurePolicy

namespace Submission

def ofReference (r : Reference) : Submission := ⟨r, none, [], .null, none⟩

end Submission

/-- Selects runs; what is not set selects all. -/
structure RunFilter where
  status : Option RunStatus
  name : Option String
  tag : Option String
deriving DecidableEq, Inhabited

namespace RunFilter

def selects (f : RunFilter) (r : RunRecord) : Bool :=
  f.status.all (· = r.status) && f.name.all (· = r.workflow.name) && f.tag.all (r.tags.contains ·)

end RunFilter

end Orchestration
