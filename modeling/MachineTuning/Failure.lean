import MachineTuning.DataUri
import MachineTuning.Files.SystemError
import MachineTuning.Schema.OfJson
import MachineTuning.UnitFile.Sink

namespace MachineTuning

/-!
# Failures — why no configuration comes out

A `Failure` says at which step the way from a profile to a configuration ended.  `Failure.message`
is what a user reads; `Failure.report` adds what was being done and the cause behind it.  What is
wrong with a text that is no document is for the reader of documents to say: its complaint is given
to both.
-/

/-- Where the way ended. -/
inductive Failure where
  /-- A script of this name could not be read at a path. -/
  | asset (name path : String) (cause : SystemError)
  /-- A document could not be written or read. -/
  | serialization (text : String)
  /-- A profile does not spell what a profile should. -/
  | profile (text : String)
  /-- The text of a profile at a path is not a document at all. -/
  | malformedProfile (path : String)
  /-- A file or a stream failed. -/
  | io (cause : SystemError)
  deriving DecidableEq

namespace Failure

/-- A JSON value does not fit its schema. -/
def ofMismatch (mismatch : Mismatch) : Failure :=
  .serialization (mismatch.message Json.wording)

/-- The source of a file is not the URI of any content. -/
def ofSource (fault : DataUri.Fault) : Failure :=
  .serialization fault.message

/-- A unit file could not be rendered. -/
def ofFault : UnitFile.Fault → Failure
  | .refused cause => .serialization ("Failed to render unit: " ++ cause.text)
  | .notUtf8 bytes => .serialization ("Unit is not valid UTF-8: " ++ Text.utf8Complaint bytes)

/-- A failure in words, where `complaint` is said of a text that is no document. -/
def message (complaint : String) : Failure → String
  | .asset name path cause => "script asset " ++ name ++ " at " ++ path ++ ": " ++ cause.text
  | .serialization text => "serialization: " ++ text
  | .profile text => "profile: " ++ text
  | .malformedProfile path => "profile: " ++ path ++ ": " ++ complaint
  | .io cause => "io: " ++ cause.text

/-- The failure of the operating system behind a failure, if there is one. -/
def cause? : Failure → Option SystemError
  | .asset _ _ cause => some cause
  | .io cause => some cause
  | _ => none

/-- A failure with what caused it, from the outside in, as a command reports it. -/
def report (complaint : String) (context : Option String) (failure : Failure) : String :=
  ": ".intercalate
    (context.toList ++ [failure.message complaint] ++ failure.cause?.toList.map SystemError.text)

end Failure

end MachineTuning
