/-
Where a program file is, and a directory of files held in memory.

A location is the working directory with a path below it, or a path from the root.
Empty steps and steps to the same directory are dropped; steps to the parent are kept.
-/
import Eel.Text.Pieces

namespace Eel

/-- The place of a file. -/
structure Location where
  /-- What stands in front of the steps: the root, or the working directory. -/
  base : String
  /-- Whether the base is the working directory. -/
  isRelative : Bool
  steps : List String

namespace Location

/-- The steps of a path that lead somewhere. -/
def stepsOf (path : String) : List String :=
  (Text.split '/' path).filter fun s => !(s == "" || s == ".")

/-- The root that an absolute path starts from: two slashes, but not more, are kept. -/
def rootOf : List Char → Option String
  | '/' :: '/' :: '/' :: _ => some "/"
  | '/' :: '/' :: _ => some "//"
  | '/' :: _ => some "/"
  | _ => none

/-- The location of a path, as seen from a working directory. -/
def ofPath (workingDirectory path : String) : Location :=
  match rootOf path.toList with
  | some root => ⟨root, false, stepsOf path⟩
  | none => ⟨workingDirectory, true, stepsOf path⟩

/-- The location as text. -/
def text (l : Location) : String :=
  if l.isRelative && l.base != "/" then Text.joinWith "/" (l.base :: l.steps)
  else l.base ++ Text.joinWith "/" l.steps

end Location

/-- Why a file cannot be read. -/
inductive ReadError where
  | noSuchFile
  | isDirectory
  | notDirectory
  | other (reason : String)
deriving DecidableEq, Repr

/-- The wording of the reason. -/
def ReadError.message : ReadError → String
  | noSuchFile => "No such file or directory"
  | isDirectory => "Is a directory"
  | notDirectory => "Not a directory"
  | other reason => reason

/-- Files held in memory, each with the steps that lead to it from the working directory. -/
structure Volume where
  files : List (List String × List UInt8)

namespace Volume

/-- The bytes of the file that some steps lead to. -/
def file? (v : Volume) (steps : List String) : Option (List UInt8) := v.files.lookup steps

/-- Whether some steps lead to a directory. -/
def isDirectory (v : Volume) (steps : List String) : Bool :=
  steps.isEmpty || v.files.any fun f => steps.isPrefixOf f.1 && steps != f.1

/-- Outside the working directory nothing is known but that parents are directories. -/
def readOutside (steps : List String) : Except ReadError (List UInt8) :=
  if steps.all (· == "..") then .error .isDirectory else .error .noSuchFile

/-- Follows steps from the place that `here` leads to. -/
def follow (v : Volume) (here : List String) : List String → Except ReadError (List UInt8)
  | [] =>
    match v.file? here with
    | some bytes => .ok bytes
    | none => if v.isDirectory here then .error .isDirectory else .error .noSuchFile
  | step :: steps =>
    if (v.file? here).isSome then .error .notDirectory
    else if !v.isDirectory here then .error .noSuchFile
    else if step = ".." then
      if here.isEmpty then readOutside steps else v.follow here.dropLast steps
    else v.follow (here ++ [step]) steps

/-- The bytes at a location. -/
def read (v : Volume) (l : Location) : Except ReadError (List UInt8) :=
  if l.isRelative then v.follow [] l.steps else readOutside l.steps

end Volume

end Eel
