import DeviceModel.Entries
import DeviceModel.Path

namespace DeviceModel

inductive SystemError where
  | notFound
  | alreadyExists
  | notADirectory
  | isADirectory
  | nameTooLong
  | nulInName
  | notText
  deriving DecidableEq, Repr

namespace SystemError

def message : SystemError → String
  | .notFound => "No such file or directory (os error 2)"
  | .alreadyExists => "File exists (os error 17)"
  | .notADirectory => "Not a directory (os error 20)"
  | .isADirectory => "Is a directory (os error 21)"
  | .nameTooLong => "File name too long (os error 36)"
  | .nulInName => "file name contained an unexpected NUL byte"
  | .notText => "stream did not contain valid UTF-8"

end SystemError

inductive SourceError where
  | noDocument (path : Path)
  | system (e : SystemError)
  deriving DecidableEq, Repr

namespace SourceError

def message : SourceError → String
  | .noDocument p => "no such document: " ++ p.text
  | .system e => e.message

end SourceError

/-- Where documents come from. Each has one identity, however its path is spelled, and what can be
read is among finitely many. -/
structure Source where
  read : Path → Except SourceError String
  contains : Path → Bool
  identify : Path → Except SourceError Path
  identities : List Path
  identify_mem : ∀ p i text, identify p = .ok i → read p = .ok text → i ∈ identities

end DeviceModel
