/-! # Labelled text

The diagnostic text of a value: a name, and between brackets the texts of its parts.

* `record` — a name with named parts, `Name { first: a, second: b }`.
* `openRecord` — a record that leaves parts out, shown by two dots at its end.
* `wrapper` — a name around one part, `Name(a)`.
* `sequence` — parts without names, `[a, b]`.
* `optional` — a part that may be missing, `Some(a)` or `None`.
-/

namespace MergedSpans.Text

/-- The parts of a record, each behind its name, separated by commas. -/
def labelledParts (parts : List (String × String)) : String :=
  ", ".intercalate (parts.map fun (name, text) => name ++ ": " ++ text)

/-- The text of a record; one without parts is its bare name. -/
def record (name : String) (parts : List (String × String)) : String :=
  if parts.isEmpty then name else name ++ " \x7b " ++ labelledParts parts ++ " \x7d"

/-- The text of a record that also has parts it does not show. -/
def openRecord (name : String) (parts : List (String × String)) : String :=
  name ++ " \x7b " ++ labelledParts parts ++ ", .. \x7d"

/-- The text of a name around a single part. -/
def wrapper (name text : String) : String := name ++ "(" ++ text ++ ")"

/-- The text of a list of parts. -/
def sequence (texts : List String) : String := "[" ++ ", ".intercalate texts ++ "]"

/-- The text of a part that may be missing. -/
def optional : Option String → String
  | none => "None"
  | some text => wrapper "Some" text

end MergedSpans.Text
