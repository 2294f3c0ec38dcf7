import PermissionAudit.Dex.Descriptor
import PermissionAudit.Dex.Error
import PermissionAudit.FileSystem.Fault

/-!
What can go wrong while a program is analysed.
-/

namespace PermissionAudit

/-- Why the target of a call is not known. -/
inductive UnresolvedCall where
  /-- The target is computed when the program runs. -/
  | callSite (index : Nat) (addr : Address)
  /-- The method is said to belong to a type without methods. -/
  | primitiveDefiner (index : Nat) (type : Descriptor)
  | other (reason : String)
deriving DecidableEq

def UnresolvedCall.message : UnresolvedCall → String
  | .callSite index addr => "dynamic call site " ++ toString index ++ " at " ++ addr.text
  | .primitiveDefiner index type =>
    "method " ++ toString index ++ " defined by primitive type " ++ type.text
  | .other reason => reason

/-- Why instructions and successor lists are not a body. -/
inductive BodyFault where
  | lengthMismatch (instrs successors : Nat)
  | successorOutOfBounds (index : Nat)
deriving DecidableEq

def BodyFault.message : BodyFault → String
  | .lengthMismatch instrs successors =>
    toString instrs ++ " instructions but " ++ toString successors ++ " successor lists"
  | .successorOutOfBounds index => "successor index " ++ toString index ++ " out of bounds"

inductive AnalysisError where
  | file (fault : FileFault)
  | write (path : String) (fault : FileFault)
  | internal (reason : String)
  | dex (cause : Dex.Error)
  /-- Abstract and native methods, and those without code. -/
  | noCode
  | methodNotFound (uid : Nat)
  | unresolvable (call : UnresolvedCall)
  | malformedBody (fault : BodyFault)
deriving DecidableEq

/-- How a method is named by its number. -/
def methodUidText (uid : Nat) : String := "m" ++ toString uid

def AnalysisError.message : AnalysisError → String
  | .file fault => "IO error: " ++ fault.message
  | .write path fault => "cannot write " ++ path ++ ": " ++ fault.message
  | .internal reason => "internal error: " ++ reason
  | .dex cause => "dex error: " ++ cause.message
  | .noCode => "the method has no implementation"
  | .methodNotFound uid => "unknown method uid: " ++ methodUidText uid
  | .unresolvable call => "cannot resolve call target: " ++ call.message
  | .malformedBody fault => "malformed method body: " ++ fault.message

end PermissionAudit
