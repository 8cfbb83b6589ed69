import MachineTuning.Base64
import MachineTuning.Text.Utf8

namespace MachineTuning.DataUri

/-!
# Data URIs — file content inside a document

The content of an installed file travels as a data URI: a fixed media type, a comma and the
bytes in base64.  `encode` writes one, `decode` reads back what `encode` writes.
-/

/-- The media type and encoding of embedded content. -/
def contentSource : String := "data:text/plain;charset=utf-8;base64"

/-- The URI of some content. -/
def encode (content : List UInt8) : String :=
  contentSource ++ "," ++ String.ofList (Base64.encode content)

/-- Why a source is not the URI of any content. -/
inductive Fault where
  | unsupportedSource (source : String)
  | invalidPayload (fault : Base64.Fault)
  deriving DecidableEq

/-- A fault in words. -/
def Fault.message : Fault → String
  | .unsupportedSource source => "Unsupported content source: " ++ source
  | .invalidPayload fault => "Invalid base64 payload: " ++ fault.message

/-- The content of a URI. -/
def decode (source : String) : Except Fault (List UInt8) :=
  match (contentSource ++ ",").toList.isPrefixOf? source.toList with
  | none => .error (.unsupportedSource source)
  | some payload => (Base64.decode (Text.utf8 (String.ofList payload))).mapError .invalidPayload

end MachineTuning.DataUri
