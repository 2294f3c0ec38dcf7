/-!
Why a file operation fails, with the texts the operating system has for it.
-/

namespace PermissionAudit

inductive FileFault where
  | notFound
  | exists
  | notDirectory
  | isDirectory
  | nameTooLong
  | permissionDenied
  /-- There is no room left. -/
  | noSpace
  | readOnly
  /-- A path holds a zero character. -/
  | zeroInPath
  /-- The contents are not text. -/
  | invalidText
deriving DecidableEq

def FileFault.message : FileFault → String
  | .notFound => "No such file or directory (os error 2)"
  | .exists => "File exists (os error 17)"
  | .notDirectory => "Not a directory (os error 20)"
  | .isDirectory => "Is a directory (os error 21)"
  | .nameTooLong => "File name too long (os error 36)"
  | .permissionDenied => "Permission denied (os error 13)"
  | .noSpace => "No space left on device (os error 28)"
  | .readOnly => "Read-only file system (os error 30)"
  | .zeroInPath => "file name contained an unexpected NUL byte"
  | .invalidText => "stream did not contain valid UTF-8"

end PermissionAudit
