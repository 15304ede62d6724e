import IdentityLint.Report
import IdentityLint.Value

/-!
Reports as structured values.

`toValue` writes a report, `ofValue?` reads one.  A violation without an identifier of its
message has no field for it, one without advice has a null.  Fields that are not known are
skipped over in reading.
-/

namespace IdentityLint

open Value

/-- In reports, a list stands for a record only if it has an item for every field. -/
def reportLists : ListForm := ⟨false⟩

/-- The severity with the name that a value holds. -/
def Severity.ofValue? (v : Value) : Option Severity :=
  match v with
  | .text s => ofName? s
  | .record [(s, .null)] => ofName? s
  | _ => none

namespace Location

/-- A place as a value. -/
def toValue (l : Location) : Value :=
  .record
    [("file", .text l.file.text), ("line", .integer l.line), ("column", .integer l.column),
      ("offset", .integer l.offset), ("length", .integer l.length)]

/-- The place that a value describes. -/
def ofValue? (v : Value) : Option Location := do
  match ← v.fieldsOf? reportLists ["file", "line", "column", "offset", "length"] with
  | (_, [some file, some line, some column, some offset, some length]) =>
    return ⟨⟨← file.text?⟩, ← line.natural?, ← column.natural?, ← offset.natural?,
      ← length.natural?⟩
  | _ => none

end Location

/-- Advice as a value. -/
def suggestionToValue : Option String → Value
  | some s => .record [("message", .text s)]
  | none => .null

/-- The advice that a value holds. -/
def suggestionOfValue? (v : Value) : Option String := do
  match ← v.fieldsOf? reportLists ["message"] with
  | (_, [some message]) => message.text?
  | _ => none

namespace Violation

/-- A violation as a value. -/
def toValue (v : Violation) : Value :=
  .record <|
    [("code", .text v.code), ("rule", .text v.rule)] ++
      (match v.messageId with
        | some i => [("message_id", .text i)]
        | none => []) ++
      [("severity", .text v.severity.name), ("location", v.location.toValue),
        ("message", .text v.message), ("suggestion", suggestionToValue v.suggestion)]

/-- The violation that a value describes.  The identifier of the message and the advice may be
missing from a record. -/
def ofValue? (v : Value) : Option Violation := do
  let names := ["code", "rule", "message_id", "severity", "location", "message", "suggestion"]
  match ← v.fieldsOf? reportLists names with
  | (isList, [some code, some rule, messageId, some severity, some location, some message,
      suggestion]) =>
    if isList && suggestion.isNone then none
    else
      return {
        code := ← code.text?
        rule := ← rule.text?
        messageId := ← orDefault none (optional? text?) messageId
        severity := ← Severity.ofValue? severity
        location := ← Location.ofValue? location
        message := ← message.text?
        suggestion := ← orDefault none (optional? suggestionOfValue?) suggestion }
  | _ => none

end Violation

namespace Report

/-- The fields of a report. -/
def fields (r : Report) : List (String × Value) :=
  [("violations", .list (r.violations.map Violation.toValue)),
    ("files_checked", .integer r.filesChecked)]

/-- A report as a value. -/
def toValue (r : Report) : Value := .record r.fields

/-- A report as a value, together with the number of violations of each severity. -/
def toValueWithCounts (r : Report) : Value :=
  .record <| r.fields ++
    [("errors", .integer (r.count .error)), ("warnings", .integer (r.count .warning)),
      ("infos", .integer (r.count .info))]

/-- The report that a value describes. -/
def ofValue? (v : Value) : Option Report := do
  match ← v.fieldsOf? reportLists ["violations", "files_checked"] with
  | (_, [some violations, some filesChecked]) =>
    return ⟨← listOf? Violation.ofValue? violations, ← filesChecked.natural?⟩
  | _ => none

end Report

end IdentityLint
