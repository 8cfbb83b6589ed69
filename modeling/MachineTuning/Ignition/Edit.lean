import MachineTuning.Ignition
import MachineTuning.Schema.OfJson

namespace MachineTuning.Ignition

/-!
# Edits of ignition documents

A document grows by files and services, and may be replaced by one that a JSON value spells.
`Document.edit?` makes one edit; `Document.edited` makes several, where a replacement that does
not fit leaves the document as it is.
-/

/-- A step that changes a document. -/
inductive Edit where
  /-- The document that a JSON value spells takes the place of this one. -/
  | replace (value : Json)
  /-- A file with some content is added. -/
  | addFile (filesystem path : String) (content : List UInt8) (mode : Option UInt32)
  /-- A service is added. -/
  | addService (service : Service)

namespace Document

/-- The document after one edit, or why it cannot be made. -/
def edit? (d : Document) : Edit → Except Mismatch Document
  | .replace value => schema.ofJson value
  | .addFile filesystem path content mode =>
    .ok (d.addFile ⟨filesystem, path, DataUri.encode content, mode⟩)
  | .addService service => .ok (d.addService service)

/-- The document after one edit, as it was if the edit cannot be made. -/
def edit (d : Document) (e : Edit) : Document :=
  match d.edit? e with
  | .ok d => d
  | .error _ => d

/-- The document after several edits. -/
def edited (d : Document) (edits : List Edit) : Document :=
  edits.foldl edit d

end Document

/-- The content of a file, if its source is one that this library writes. -/
def File.content (f : File) : Except DataUri.Fault (List UInt8) :=
  DataUri.decode f.source

end MachineTuning.Ignition
