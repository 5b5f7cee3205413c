import ModalEdit.CommandLine.Run

/-! The program on the files of the machine. -/
open ModalEdit

namespace ModalEdit.Main

def faultOf : IO.Error → DiskFault
  | .noFileOrDirectory .. => .missing
  | e@(.inappropriateType _ code _) =>
    if code = 20 then .notDirectory else if code = 21 then .isDirectory else .other (toString e)
  | e@(.invalidArgument _ code _) => if code = 36 then .nameTooLong else .other (toString e)
  | e => .other (toString e)

def attempt (act : IO α) : IO (Except DiskFault α) := do
  try return .ok (← act) catch e => return .error (faultOf e)

def disk : Disk IO where
  read path := do
    match ← attempt (IO.FS.readBinFile (String.ofList path)) with
    | .error fault => return .error fault
    | .ok bytes =>
      match String.fromUTF8? bytes with
      | some s => return .ok s.toList
      | none => return .error .notText
  write path t := attempt (IO.FS.writeFile (String.ofList path) (String.ofList t))

def userDirectory? : IO (Option Text) := do
  match ← IO.getEnv "XDG_CONFIG_HOME", ← IO.getEnv "HOME" with
  | some own, home? =>
    if own.startsWith "/" then return some own.toList
    else return home?.map fun home => (home ++ "/.config").toList
  | none, home? => return home?.map fun home => (home ++ "/.config").toList

def usage : String :=
  "usage: [PATH | --text TEXT] [-k KEYS]... [--cursor N] [--mode MODE] " ++
    "[--config PATH] [--json] [--write]\n"

end ModalEdit.Main

def main (args : List String) : IO UInt32 := do
  let ending ← CommandLine.run Main.disk (← Main.userDirectory?) (args.map String.toList)
  IO.print (String.ofList ending.output)
  IO.eprint (String.ofList ending.report)
  if ending = .misused then IO.eprint Main.usage
  return ending.code.toUInt32
