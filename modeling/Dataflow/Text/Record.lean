/-! Descriptions of records, on one line and over several lines. Both forms are built together
from the forms of the fields, so a record may stand as a field of another.
-/

namespace Dataflow.Text

/-- A value as it is shown inline, and as the lines of its spread-out form. -/
structure Shown where
  inline : String
  lines : List String
deriving DecidableEq, Repr

namespace Shown

/-- A value whose two forms are the same text. -/
def atom (text : String) : Shown :=
  { inline := text, lines := [text] }

/-- Put text before the first and after the last of a list of lines. -/
def enclose (before after : String) : List String → List String
  | [] => [before ++ after]
  | [line] => [before ++ line ++ after]
  | line :: rest => (before ++ line) :: rest.dropLast ++ [rest.getLastD "" ++ after]

/-- The lines of one field, indented by four spaces and closed by a comma. -/
def fieldLines (field : String × Shown) : List String :=
  (enclose (field.1 ++ ": ") "," field.2.lines).map ("    " ++ ·)

/-- A record with its fields in order. An elided record shows by `..` that it holds more. -/
def record (name : String) (fields : List (String × Shown)) (elided : Bool) : Shown :=
  let entries := fields.map (fun field => field.1 ++ ": " ++ field.2.inline)
    ++ (if elided then [".."] else [])
  {
    inline := name ++ " \x7b " ++ ", ".intercalate entries ++ " \x7d",
    lines := (name ++ " \x7b") :: fields.flatMap fieldLines
      ++ (if elided then ["    .."] else []) ++ ["\x7d"]
  }

/-- The spread-out form as one text. -/
def spread (shown : Shown) : String :=
  "\n".intercalate shown.lines

end Shown

end Dataflow.Text
