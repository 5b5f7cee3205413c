import ModalEdit.Text.Basic

/-! Files, as far as the program uses them, and a directory held in memory that can stand for
those of the machine. -/
namespace ModalEdit

inductive DiskFault where
  | missing
  /-- A part of the path is a file. -/
  | notDirectory
  /-- The path leads to a directory. -/
  | isDirectory
  /-- The path, or a name in it, is longer than names can be. -/
  | nameTooLong
  /-- The file holds no text in UTF-8. -/
  | notText
  | other (reason : String)
deriving DecidableEq, Repr

namespace DiskFault

def message : DiskFault → String
  | missing => "No such file or directory (os error 2)"
  | notDirectory => "Not a directory (os error 20)"
  | isDirectory => "Is a directory (os error 21)"
  | nameTooLong => "File name too long (os error 36)"
  | notText => "stream did not contain valid UTF-8"
  | other reason => reason

def isAbsence : DiskFault → Bool
  | missing | notDirectory | nameTooLong => true
  | _ => false

end DiskFault

structure Disk (m : Type → Type) where
  read : (path : Text) → m (Except DiskFault Text)
  write : (path : Text) → Text → m (Except DiskFault Unit)

inductive Contents where
  | text (t : Text)
  | bytes
deriving DecidableEq, Repr

/-- Files by path. A directory exists where the path of a file leads through it. -/
abbrev Directory := List (List Text × Contents)

namespace Directory

/-- The parts of a path, between its slashes. An absolute path begins with an empty part. -/
def parts : Text → List Text
  | [] => [[]]
  | c :: rest => if c = '/' then [] :: parts rest else (parts rest).modifyHead (c :: ·)

/-- The directory above. The root lies above itself, and above the directory that paths start
from there are more of them. -/
def above (here : List Text) : List Text :=
  match here.getLast? with
  | none | some ['.', '.'] => here ++ [['.', '.']]
  | some [] => here
  | some _ => here.dropLast

def byteCount (t : Text) : Nat := t.foldl (fun n c => n + c.utf8Size) 0

/-- Follows the parts of a path from a directory to a file. Of the directories above the first one
no files are known. -/
def follow (d : Directory) (here : List Text) : List Text → Except DiskFault (List Text)
  | [] => .error .isDirectory
  | part :: rest =>
    if part = [] ∨ part = ['.'] then follow d here rest
    else if part = ['.', '.'] then follow d (above here) rest
    else if byteCount part > 255 then .error .nameTooLong
    else
      let next := here ++ [part]
      if (d.lookup next).isSome then if rest = [] then .ok next else .error .notDirectory
      else if d.any fun file => next.isPrefixOf file.1 then follow d next rest
      else .error .missing

def find (d : Directory) (path : Text) : Except DiskFault (List Text) :=
  if byteCount path > 4095 then .error .nameTooLong
  else
    match path with
    | [] => .error .missing
    | '/' :: rest => follow d [[]] (parts rest)
    | path => follow d [] (parts path)

def read (d : Directory) (path : Text) : Except DiskFault Text := do
  match d.lookup (← d.find path) with
  | some (.text t) => .ok t
  | some .bytes => .error .notText
  | none => .error .missing

def put (d : Directory) (file : List Text) (t : Text) : Directory :=
  if (d.lookup file).isSome then
    d.map fun entry => if entry.1 = file then (file, .text t) else entry
  else d ++ [(file, .text t)]

/-- Writes a file, which is made if it is missing from the directory itself. -/
def write (d : Directory) (path : Text) (t : Text) : Except DiskFault Directory :=
  match d.find path with
  | .ok file => .ok (d.put file t)
  | .error .missing => if path.contains '/' then .error .missing else .ok (d.put [path] t)
  | .error fault => .error fault

def disk : Disk (StateM Directory) where
  read path := return (← get).read path
  write path t := do
    match (← get).write path t with
    | .ok d => set d; return .ok ()
    | .error fault => return .error fault

end Directory

end ModalEdit
