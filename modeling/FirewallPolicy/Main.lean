import FirewallPolicy.Command
import FirewallPolicy.Text.Split

/-!
## The program

The command line of the compiler, on the real file system.
-/

namespace FirewallPolicy

/-- The number of a system error, which some operations report with the opposite sign. -/
def errorNumber (code : UInt32) : Nat :=
  if code < 0x80000000 then code.toNat else (0 - code).toNat

/-- The obstacle that an error of the system reports. -/
def obstacleOf : IO.Error → Obstacle
  | .noFileOrDirectory _ code reason => .ofCode (errorNumber code) reason
  | .alreadyExists _ code reason => .ofCode (errorNumber code) reason
  | .inappropriateType _ code reason => .ofCode (errorNumber code) reason
  | .permissionDenied _ code reason => .ofCode (errorNumber code) reason
  | .invalidArgument _ code reason => .ofCode (errorNumber code) reason
  | .resourceExhausted _ code reason => .ofCode (errorNumber code) reason
  | .resourceBusy code reason => .ofCode (errorNumber code) reason
  | .otherError code reason => .ofCode (errorNumber code) reason
  | error => .ofCode 5 (toString error)

/-- The outcome of an action on files. -/
def attempt {α : Type} (action : IO α) : IO (Except Obstacle α) := do
  try
    return .ok (← action)
  catch error =>
    return .error (obstacleOf error)

/-- A text from outside. -/
def received (s : String) : String := Text.ofChars s.toList

/-- A text for the outside, where halves of characters are shown as the mark of unknown ones. -/
def shown (s : String) : String :=
  String.ofList ((Text.codes s).map fun code =>
    if Text.isHalfCode code then Char.ofNat 0xfffd else Char.ofNat code)

/-- The place of a path in the file system. -/
def placeOf (path : Path) : IO.FS.DirEntry := { root := shown path.text, fileName := "" }

/-- The file system of the computer. -/
def realStorage : Storage IO where
  kindOf path := attempt do
    return if (← (placeOf path).root.metadata).type == .dir then .folder else .file
  namesIn path := attempt do
    return (← (placeOf path).root.readDir).toList.map fun entry => received entry.fileName
  read path := attempt do return Text.withNewlines (received (← IO.FS.readFile (shown path.text)))
  write path text := attempt (IO.FS.writeFile (shown path.text) (shown text))
  makeFolder path := attempt (IO.FS.createDir (shown path.text))

/-- A time in milliseconds as a number of seconds with three places. -/
def secondsText (milliseconds : Nat) : String :=
  let places := toString (milliseconds % 1000)
  toString (milliseconds / 1000) ++ "." ++ String.ofList (List.replicate (3 - places.length) '0') ++
    places

/-- How the program is called. -/
def usage : String := "usage: -i PATH [-i PATH ...] [-o FOLDER]"

/-- Run the command that the arguments ask for. -/
def runArguments (arguments : List String) : IO UInt32 := do
  match Command.ofArguments { inputs := [] } (arguments.map received) with
  | none =>
    IO.eprintln usage
    return 2
  | some command =>
    if command.inputs.isEmpty then
      IO.eprintln usage
      return 2
    let start ← IO.monoMsNow
    match ← Command.run realStorage .none command with
    | none =>
      IO.eprintln "Error: the policy holds a value that cannot be used"
      return 1
    | some answer =>
      IO.print (shown answer.printed)
      let elapsed := secondsText ((← IO.monoMsNow) - start)
      for line in answer.log elapsed do
        IO.eprintln (shown line)
      return answer.code

end FirewallPolicy

/-- Compile the policy in the given files. -/
def main (arguments : List String) : IO UInt32 :=
  FirewallPolicy.runArguments arguments
