namespace MachineTuning

/-!
# Unit files — the text of a service definition

A unit file is written from a list of directives, each a key and a value in a section.
`UnitFile.grouped` brings the directives of one section together, sections in the order in which
they first occur and directives in the order given; `UnitFile.text` writes the groups, one blank
line between two of them.  `UnitFile.fragments` is the same text in the pieces in which it goes
to a stream.
-/

/-- One `key=value` line of a unit file and the section it belongs to. -/
structure Directive where
  sectionName : String
  key : String
  value : String
  deriving DecidableEq

namespace UnitFile

/-- A directive put behind the others of its section; a new section comes last. -/
def addToGroup (d : Directive) :
    List (String × List Directive) → List (String × List Directive)
  | [] => [(d.sectionName, [d])]
  | group :: groups =>
    if group.1 = d.sectionName then (group.1, group.2 ++ [d]) :: groups
    else group :: addToGroup d groups

/-- The directives by section. -/
def grouped (ds : List Directive) : List (String × List Directive) :=
  ds.foldl (fun groups d => addToGroup d groups) []

/-- A directive as a line, in pieces. -/
def lineFragments (d : Directive) : List String :=
  [d.key, "=", d.value, "\n"]

/-- A section with its header, in pieces. -/
def groupFragments (group : String × List Directive) : List String :=
  ["[", group.1, "]\n"] ++ group.2.flatMap lineFragments

/-- Sections with a blank line between two of them, in pieces. -/
def separated : List (String × List Directive) → List String
  | [] => []
  | [group] => groupFragments group
  | group :: groups => groupFragments group ++ "\n" :: separated groups

/-- The text of a unit file in the pieces in which it is written. -/
def fragments (ds : List Directive) : List String :=
  separated (grouped ds)

/-- The text of a unit file. -/
def text (ds : List Directive) : String :=
  String.join (fragments ds)

end UnitFile

end MachineTuning
