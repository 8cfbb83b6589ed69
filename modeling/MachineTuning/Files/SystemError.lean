namespace MachineTuning

/-!
# System errors — why a file or a stream failed

A `SystemError` is a kind, for programs, and a text, for people.  The errors that reading a file
can give are named here with the texts of the operating system.
-/

/-- The kinds of failure. -/
inductive SystemErrorKind where
  | notFound
  | permissionDenied
  | connectionRefused
  | connectionReset
  | connectionAborted
  | hostUnreachable
  | networkUnreachable
  | networkDown
  | notConnected
  | addrInUse
  | addrNotAvailable
  | brokenPipe
  | alreadyExists
  | wouldBlock
  | notADirectory
  | isADirectory
  | directoryNotEmpty
  | readOnlyFilesystem
  | staleNetworkFileHandle
  | invalidInput
  | invalidData
  | invalidFilename
  | timedOut
  | writeZero
  | storageFull
  | notSeekable
  | quotaExceeded
  | fileTooLarge
  | resourceBusy
  | executableFileBusy
  | deadlock
  | crossesDevices
  | tooManyLinks
  | argumentListTooLong
  | interrupted
  | unsupported
  | unexpectedEof
  | outOfMemory
  | other
  deriving DecidableEq

/-- A failure of the operating system. -/
structure SystemError where
  kind : SystemErrorKind
  text : String
  deriving DecidableEq

namespace SystemError

/-- No file stands at the path. -/
def notFound : SystemError := ⟨.notFound, "No such file or directory (os error 2)"⟩

/-- The path leads through a file. -/
def notADirectory : SystemError := ⟨.notADirectory, "Not a directory (os error 20)"⟩

/-- The path leads to a directory. -/
def isADirectory : SystemError := ⟨.isADirectory, "Is a directory (os error 21)"⟩

/-- Something else stands where a directory is to be made. -/
def fileExists : SystemError := ⟨.alreadyExists, "File exists (os error 17)"⟩

/-- A component of the path, or all of it, is too long. -/
def nameTooLong : SystemError := ⟨.invalidFilename, "File name too long (os error 36)"⟩

/-- The path holds a character that ends a path. -/
def nulInName : SystemError :=
  ⟨.invalidInput, "file name contained an unexpected NUL byte"⟩

/-- The content is not text. -/
def notUtf8 : SystemError := ⟨.invalidData, "stream did not contain valid UTF-8"⟩

/-- The reader of the stream is gone. -/
def closedPipe : SystemError := ⟨.brokenPipe, "closed"⟩

/-- The stream takes no more bytes. -/
def noProgress : SystemError := ⟨.writeZero, "failed to write whole buffer"⟩

end SystemError

end MachineTuning
