import ModalEdit.CommandLine.Arguments
import ModalEdit.Config
import ModalEdit.Disk
import ModalEdit.Key.Script
import ModalEdit.Session
import ModalEdit.Text.Quoted

/-! The program: it plays key scripts on a text and prints or writes what has become of it. -/
namespace ModalEdit

/-- The configuration from the given file, or else from one of the usual places: `modal.toml` in
the working directory, or the one in the user's own directory. Without a file the settings are the
default ones. -/
def Config.load [Monad m] (disk : Disk m) (userDirectory? explicit? : Option Text) :
    m (Except (Text × DiskFault) Config) := do
  let read (path : Text) : m (Option (Except (Text × DiskFault) Config)) := do
    match ← disk.read path with
    | .ok source => return some (.ok (Config.ofSource source))
    | .error fault => return if fault.isAbsence then none else some (.error (path, fault))
  match explicit? with
  | some path => return (← read path).getD (.ok {})
  | none =>
    let name := "modal.toml".toList
    match ← read name with
    | some loaded => return loaded
    | none =>
      match userDirectory? with
      | some directory =>
        return (← read (directory ++ "/keymode/".toList ++ name)).getD (.ok {})
      | none => return .ok {}

def Config.faultHeadline (path : Text) : Text := "reading config file ".toList ++ path

namespace CommandLine

inductive Ending where
  | printed (output : Text)
  | written
  | failed (headline cause : Text)
  /-- The arguments make no sense. -/
  | misused
  /-- The log cannot be begun. -/
  | aborted
deriving DecidableEq, Repr

namespace Ending

def code : Ending → Nat
  | printed _ | written => 0
  | failed _ _ => 1
  | misused => 2
  | aborted => 101

def indented (t : Text) : Text :=
  List.intercalate ['\n'] (t.lines.map (List.replicate 4 ' ' ++ ·))

def output : Ending → Text
  | printed t => t ++ ['\n']
  | _ => []

def report : Ending → Text
  | failed headline cause =>
    "Error: ".toList ++ headline ++ "\n\nCaused by:\n".toList ++ indented cause ++ ['\n']
  | aborted => "the log cannot be begun\n".toList
  | _ => []

end Ending

structure Replay where
  snapshot : Snapshot
  keys : Nat
  unhandled : Nat
deriving DecidableEq, Repr

/-- Plays scripts on a session, each one from where the one before it has led. A script is read as
a whole before any of its keys is pressed, and the first one that cannot be read ends the replay. -/
def playScripts (s : Session) (b : RegisterBank) :
    List Text → Except (Text × ScriptError) ((Session × RegisterBank) × List Response)
  | [] => .ok ((s, b), [])
  | script :: rest =>
    match KeyPress.readScript script with
    | .error fault => .error (script, fault)
    | .ok keys =>
      let ((s, b), responses) := s.pressAll b keys
      (playScripts s b rest).map fun (after, others) => (after, responses ++ others)

/-- Plays scripts on a session that is opened over the given registers. -/
def replay (registers : RegisterBank) (undoLevels : Nat) (t : Text) (m : Mode) (cursor : Nat)
    (scripts : List Text) : Except (Text × ScriptError) Replay :=
  (playScripts (.ofText t m cursor undoLevels) registers scripts).map fun ((s, _), responses) =>
    { snapshot := s.editor.snapshot
      keys := responses.length
      unhandled := responses.countP (!·.isHandled) }

/-- The registers that the program begins with. There is no clipboard for it to reach. -/
def startRegisters (c : Config) : RegisterBank where
  bridge? := if c.clipboard then some { available := false } else none
  clipboardByDefault := c.clipboard && c.clipboardByDefault

/-- The text with every carriage return before a line break left out. -/
def foldBreaks : Text → Text
  | '\r' :: '\n' :: rest => '\n' :: foldBreaks rest
  | c :: rest => c :: foldBreaks rest
  | [] => []

def startText [Monad m] (disk : Disk m) (a : Arguments) : m (Except (Text × DiskFault) Text) := do
  match a.text?, a.path? with
  | some t, _ => return .ok t
  | none, none => return .ok []
  | none, some path =>
    match ← disk.read path with
    | .ok t => return .ok (foldBreaks t)
    | .error fault => return .error (path, fault)

def finish [Monad m] (disk : Disk m) (a : Arguments) (r : Replay) : m Ending := do
  match a.write, a.path? with
  | true, some path =>
    match ← disk.write path r.snapshot.text with
    | .ok _ => return .written
    | .error fault => return .failed ("writing ".toList ++ path) fault.message.toList
  | _, _ => return .printed (if a.json then r.snapshot.json.toList else r.snapshot.text)

/-- The file that begins anew with every run. -/
def logName : Text := "keymode.log".toList

/-- Plays the scripts that the arguments ask for. The configuration is read first, then the text,
then the scripts. -/
def perform [Monad m] (disk : Disk m) (userDirectory? : Option Text) (a : Arguments) :
    m Ending := do
  match ← Config.load disk userDirectory? a.config? with
  | .error (path, fault) => return .failed (Config.faultHeadline path) fault.message.toList
  | .ok config =>
    match ← startText disk a with
    | .error (path, fault) =>
      return .failed ("reading ".toList ++ path) fault.message.toList
    | .ok t =>
      match replay (startRegisters config) config.undoLevels t (a.mode?.getD .normal)
        (a.cursor?.getD 0) a.scripts with
      | .error (script, fault) =>
        return .failed ("parsing key script ".toList ++ script.quoted) fault.message.toList
      | .ok r => finish disk a r

/-- Runs the program, which begins its log before it looks at the arguments. -/
def run [Monad m] (disk : Disk m) (userDirectory? : Option Text) (args : List Text) :
    m Ending := do
  match ← disk.write logName [], Arguments.read? args with
  | .error _, _ => return .aborted
  | .ok _, none => return .misused
  | .ok _, some a => perform disk userDirectory? a

end CommandLine

end ModalEdit
