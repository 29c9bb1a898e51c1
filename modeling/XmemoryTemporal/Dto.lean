import XmemoryTemporal.Python.Value

/-! # Activity inputs and outputs, and the projections of the client's results

The dataclasses that cross the activity boundary, and the functions that flatten a client result into
one. A client result is read attribute by attribute with a default, so every attribute of the result
types is an `Attr`: it may be missing, `None` or a value. An annotation such as `write_id: str` is not
checked by the dataclass: a `None` the client answers goes through, so these fields are `Option`s. -/

namespace XmemoryTemporal.Dto

open XmemoryTemporal.Python.Value

/-! ### Inputs -/

/-- One record a scoped read may touch, addressed by its primary key. -/
structure ScopeObject where
  type : String
  key : List (String × PyVal) := []

/-- Restrict a read to specific records. -/
structure ReadScope where
  objects : List ScopeObject := []
  relationsScope : String := "no_relations"

structure ReadInput where
  query : String
  readMode : Option String := none
  scope : Option ReadScope := none
  readId : Option String := none

/-- Either free `text` for the extractor, or explicit `structuredMutations`. -/
structure WriteInput where
  text : String := ""
  extractionLogic : Option String := none
  diffEngine : Option Bool := none
  structuredMutations : Option (List PyVal) := none

structure WriteStatusInput where
  writeId : Option String

/-! ### Outputs -/

/-- One decomposed sub-query and its own answer. -/
structure SubAnswer where
  subQuery : Option String
  readerResult : PyVal := .none
  error : Option String := none

structure ReadOutput where
  readerResult : PyVal := .none
  subAnswers : List SubAnswer := []
  traceId : Option String := none

structure WriteOutput where
  writeId : Option String
  traceId : Option String := none
  changes : PyVal := .none

structure WriteStartOutput where
  writeId : Option String

structure WriteStatusOutput where
  writeId : Option String
  writeStatus : String
  errorDetail : Option String := none
  completedAt : Option String := none
  changes : PyVal := .none

/-! ### The client's results -/

structure SubResult where
  subQuery : Attr String
  readerResult : Attr PyVal
  error : Attr String

structure ReadResult where
  readerResult : Attr PyVal
  readerResults : Attr (List SubResult)
  traceId : Attr String

structure WriteResult where
  writeId : Attr String
  traceId : Attr String
  changes : Attr PyVal

structure WriteStartResult where
  writeId : Attr String

/-- A write status as the client reports it: a plain text, or a member of its `str` enumeration. -/
inductive StatusValue where
  | text (s : String)
  | member (value : String)
  deriving DecidableEq

/-- `getattr(status, "value", status)`. -/
def StatusValue.value : StatusValue → String
  | text s => s
  | member v => v

/-- `completedAt` is a `datetime`, known by its `isoformat()`. -/
structure WriteStatusResult where
  writeId : Attr String
  writeStatus : Attr StatusValue
  errorDetail : Attr String
  completedAt : Attr String
  changes : Attr PyVal
  result : Attr PyVal

/-! ### Projections -/

/-- `getattr(obj, name, None)` where any value may be present. -/
def anyAttr (a : Attr PyVal) : PyVal := (a.getattr none).getD .none

def projectRead (result : ReadResult) : ReadOutput :=
  let rawSub := (result.readerResults.getattr none).getD []
  { readerResult := anyAttr result.readerResult
    subAnswers := rawSub.map fun item =>
      { subQuery := item.subQuery.getattr (some "")
        readerResult := anyAttr item.readerResult
        error := item.error.getattr none }
    traceId := result.traceId.getattr none }

def projectWrite (result : WriteResult) : WriteOutput :=
  { writeId := result.writeId.getattr (some "")
    traceId := result.traceId.getattr none
    changes := anyAttr result.changes }

def projectWriteStart (result : WriteStartResult) : WriteStartOutput :=
  { writeId := result.writeId.getattr (some "") }

def projectWriteStatus (result : WriteStatusResult) : WriteStatusOutput :=
  let status := result.writeStatus.getattr none
  { writeId := result.writeId.getattr (some "")
    writeStatus := (status.map StatusValue.value).getD ""
    errorDetail := result.errorDetail.getattr none
    completedAt := result.completedAt.getattr none
    changes :=
      let changes := anyAttr result.changes
      if changes.truthy then changes else anyAttr result.result }

theorem projectWriteStatus_value (result : WriteStatusResult) {status : StatusValue}
    (h : result.writeStatus = .value status) :
    (projectWriteStatus result).writeStatus = status.value := by
  simp [projectWriteStatus, h, Attr.getattr]

end XmemoryTemporal.Dto
