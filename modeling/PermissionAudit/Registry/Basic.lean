import PermissionAudit.Dex.Lookup
import PermissionAudit.Program.Basic

/-!
The classes of an application, registered from its dex files in order of files
and definitions. A class name is registered once; classes and methods that
cannot be resolved are left out.
-/

namespace PermissionAudit

/-- Prefixes of the class names of the platform. -/
def platformPackages : List String :=
  ["java.", "javax.", "sun.", "android.", "androidx.", "org.apache.", "org.json.", "org.xml.",
    "org.w3c."]

/-- Whether a class name starts with one of the prefixes. -/
def isExcluded (exclusions : List String) (name : String) : Bool :=
  exclusions.any fun e => e.toList.isPrefixOf name.toList

/-- A method with the file that declares it. -/
structure MethodEntry where
  dex : Dex
  encoded : Dex.EncodedMethod

structure Registry where
  classes : List ClassInfo
  /-- The entry of a method is at the position of its number. -/
  entries : List MethodEntry
  /-- How many classes were registered. -/
  classCount : Nat
  /-- How many method numbers were given out; the next method gets this one. -/
  methodCount : Nat

namespace Registry

def empty : Registry := ⟨[], [], 0, 0⟩

/-- Bodies with this many instructions are no stubs. -/
def stubLimit : Nat := 10

/-- The string that stub bodies throw. -/
def stubText : String := "Stub!"

/-- Whether code is the stub of a platform library: short, and with the text of a stub among
its strings. All strings of short code have to be readable. -/
def isStub (dex : Dex) (code : Code) : Except Dex.Error Bool := do
  if code.instrs.length < stubLimit then
    let strings ← (code.instrs.filterMap (·.instr.stringIndex?)).mapM dex.string
    return strings.contains stubText
  else
    return false

/-- A method with a name, and whether it is a stub if it has code. -/
structure Member where
  name : String
  encoded : Dex.EncodedMethod
  stub : Option Bool

/-- The name of a method. -/
def memberName (dex : Dex) (encoded : Dex.EncodedMethod) : Except Dex.Error String := do
  let id ← Dex.entry .method dex.methods encoded.index
  dex.string id.name

/-- Whether the code of a method is a stub; code that cannot be read is none. -/
def checkStub (className name : String) (dex : Dex) (encoded : Dex.EncodedMethod) :
    Logged Bool := do
  match dex.code encoded with
  | .error e =>
    Logged.trace ("undecodable code in '" ++ className ++ "': " ++ e.message)
    return false
  | .ok none => return false
  | .ok (some code) =>
    match isStub dex code with
    | .ok stub => return stub
    | .error e =>
      Logged.warn ("cannot check " ++ qualifiedName className name ++ " for stub code: " ++
        (AnalysisError.dex e).message)
      return false

/-- A method of a class, unless its name cannot be resolved. -/
def inspect (className : String) (dex : Dex) (encoded : Dex.EncodedMethod) :
    Logged (Option Member) := do
  match memberName dex encoded with
  | .error e =>
    Logged.warn ("skipping unresolvable method in '" ++ className ++ "': " ++ e.message)
    return none
  | .ok name =>
    if encoded.hasCode then
      return some ⟨name, encoded, some (← checkStub className name dex encoded)⟩
    else
      return some ⟨name, encoded, none⟩

/-- A class is phantom if it has code and all its code is stubs. -/
def isPhantom (members : List Member) : Bool :=
  let verdicts := members.filterMap (·.stub)
  !verdicts.isEmpty && verdicts.all id

/-- Superclass and interfaces of a class. -/
def parents (dex : Dex) (c : Dex.ClassDef) :
    Except Dex.Error (Option Descriptor × List Descriptor) := do
  let superclass ← c.superclass.mapM dex.type
  let interfaces ← c.interfaces.mapM dex.type
  return (superclass, interfaces)

/-- Methods numbered from `first` on. -/
def methodInfos (className : String) (first : Nat) (members : List Member) : List MethodInfo :=
  (members.zipIdx first).map fun m => ⟨m.2, className, m.1.name, m.1.encoded.hasCode⟩

/-- Adds a class with its members; their numbers follow those that are taken. -/
def add (r : Registry) (dex : Dex) (name : String) (superclass : Option Descriptor)
    (interfaces : List Descriptor) (members : List Member) : Registry :=
  { classes := r.classes ++ [
      { name
        superclass := superclass.map (·.sourceName)
        interfaces := interfaces.map (·.sourceName)
        phantom := isPhantom members
        methods := methodInfos name r.methodCount members }]
    entries := r.entries ++ members.map fun m => ⟨dex, m.encoded⟩
    classCount := r.classCount + 1
    methodCount := r.methodCount + members.length }

/-- Whether a class of that name is registered. -/
def contains (r : Registry) (name : String) : Bool := r.classes.any (·.name = name)

/-- Registers a class definition. -/
def register (exclusions : List String) (r : Registry) (definition : Dex × Dex.ClassDef) :
    Logged Registry := do
  let (dex, c) := definition
  match dex.type c.type with
  | .error e =>
    Logged.warn ("skipping class with unresolvable type: " ++ e.message)
    return r
  | .ok type =>
    let name := type.sourceName
    if isExcluded exclusions name then
      Logged.trace ("excluding '" ++ name ++ "'")
      return r
    match parents dex c with
    | .error e =>
      Logged.warn ("skipping class '" ++ name ++ "' with unresolvable hierarchy: " ++ e.message)
      return r
    | .ok (superclass, interfaces) =>
      if r.contains name then
        Logged.warn ("class '" ++ name ++ "' has already been registered")
        return r
      Logged.trace ("registering '" ++ name ++ "'")
      let members ← c.methods.mapM (inspect name dex)
      return r.add dex name superclass interfaces (members.filterMap id)

/-- Class definitions of all files, in order. -/
def definitions (dexs : List Dex) : List (Dex × Dex.ClassDef) :=
  dexs.flatMap fun dex => dex.classes.map fun c => (dex, c)

/-- Registers all classes whose names start with none of the exclusions. -/
def ofDexs (dexs : List Dex) (exclusions : List String) : Logged Registry :=
  (definitions dexs).foldlM (register exclusions) empty

end Registry

end PermissionAudit
