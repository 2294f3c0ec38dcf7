import PermissionAudit.Archive.Zip
import PermissionAudit.Pattern.Parse
import PermissionAudit.Program.Error

/-!
What makes a scan fail.
-/

namespace PermissionAudit

/-- The files that a scan is given. -/
inductive InputKind where
  | binary
  | permissionTable
deriving DecidableEq

def InputKind.text : InputKind → String
  | binary => "Binary"
  | permissionTable => "Permission table"

inductive ScanError where
  | notAFile (kind : InputKind) (path : String)
  | filter (fault : Pattern.Fault)
  | analysis (cause : AnalysisError)
  | file (fault : FileFault)
  | dexFile (fault : FileFault)
  | dex (cause : Dex.Error)
  | archive (fault : Zip.Fault)
  | archiveFile (fault : FileFault)
  | contents (fault : Zip.ContentFault)
  | noDex (path : String)
deriving DecidableEq

def ScanError.message : ScanError → String
  | notAFile kind path => kind.text ++ " file does not exist or is not a file: " ++ path
  | filter _ => "invalid pattern"
  | analysis cause => cause.message
  | file fault | archiveFile fault => fault.message
  | dexFile fault => "IO error: " ++ fault.message
  | dex cause => cause.message
  | archive fault => fault.message
  | contents fault => fault.message
  | noDex path => "no dex file found in " ++ path

end PermissionAudit
