import FirewallPolicy.Compile.Compilation
import FirewallPolicy.Output.Restore
import FirewallPolicy.Policy.Reading

/-!
## The compiler as a command

A policy is loaded, compiled, and either printed or written to the files of a folder.
-/

namespace FirewallPolicy

/-- What is asked of the compiler: what to read, and the folder to write to, if there is one. -/
structure Command where
  inputs : List String
  output : Option String := none
deriving DecidableEq, Repr

/-- What the compiler answers: what it prints, the lines that tell what it did, and the number
of rules if it succeeded. -/
structure Answer where
  printed : String := ""
  notes : List String := []
  rules : Option Nat := none
deriving Repr

namespace Answer

/-- The exit code of the command. -/
def code (answer : Answer) : UInt32 := if answer.rules.isSome then 0 else 1

/-- The lines that tell what was done, in a time that is given as a text. -/
def log (answer : Answer) (elapsed : String) : List String :=
  answer.notes ++
    (answer.rules.map fun n => "Compiled " ++ toString n ++ " rules in " ++ elapsed ++ "s").toList

end Answer

namespace Command

/-- The command that arguments ask for, if they are well formed. -/
def ofArguments (command : Command) : List String → Option Command
  | [] => some command
  | "-i" :: path :: rest => ofArguments { command with inputs := command.inputs ++ [path] } rest
  | "--input" :: path :: rest =>
    ofArguments { command with inputs := command.inputs ++ [path] } rest
  | "-o" :: path :: rest => ofArguments { command with output := some path } rest
  | "--output-dir" :: path :: rest => ofArguments { command with output := some path } rest
  | _ => none

variable {m : Type → Type} [Monad m]

/-! ### Writing -/

/-- Write a text to a file; the answer is its path. -/
def writeFile (storage : Storage m) (path : Path) (text : String) : FileWork m Path := do
  Storage.demand path (storage.write path text)
  if !Text.isStorable text then throw (.work .unusable)
  return path

/-- Write the files of the enabled families. -/
def writeRules (storage : Storage m) (folder : Path) (compilation : Compilation) :
    FileWork m (List Path) :=
  let settings := compilation.build.context.settings
  settings.families.mapM fun family =>
    writeFile storage (folder.child (Restore.fileName family))
      (Restore.render settings compilation.tree family)

/-- Write a file for each address set; a slash in the name of a set leads to a folder. -/
def writeSets (storage : Storage m) (folder : Path) (sets : List AddressSet) :
    FileWork m (List Path) :=
  sets.mapM fun set => do
    let command ← Storage.work set.createCommand
    let path := Path.ofText ((folder.child "ipset-").text ++ set.name.written)
    writeFile storage path (command ++ "\n")

/-- Write all files to a folder, which is made if it is missing. -/
def writeAll (storage : Storage m) (folder : Path) (compilation : Compilation) :
    FileWork m (List Path) := do
  storage.ensureFolders folder
  let rules ← writeRules storage folder compilation
  let sets ← writeSets storage folder compilation.sets
  return rules ++ sets

/-! ### Running -/

/-- What is printed of a compilation: the address sets, if there are any, and the rules. -/
def printout (compilation : Compilation) : Except Failure String := do
  let rules := Restore.print compilation.build.context.settings compilation.tree
  if compilation.sets.isEmpty then return rules
  else return (← AddressSet.print compilation.sets) ++ "\n" ++ rules

/-- Load and compile a policy, and print or write what it gives. -/
def work (storage : Storage m) (hosts : HostBook) (command : Command) : FileWork m Answer := do
  let policy ← Policy.load storage (command.inputs.map Path.ofText)
  let compilation ← Storage.work (Compilation.ofPolicy policy Builtin.modules hosts none)
  let context := compilation.build.context
  let warnings := context.warnings.map fun fault => "Warning: " ++ fault.text
  let rules := some compilation.tree.size
  match command.output with
  | none => return { printed := ← Storage.work (printout compilation), notes := warnings, rules }
  | some folder =>
    let paths ← writeAll storage (Path.ofText folder) compilation
    return { notes := paths.map (fun path => "Wrote " ++ path.text) ++ warnings, rules }

/-- The answer to a command; there is none if the policy holds a value of an unusable kind, or one
that cannot be written. -/
def run (storage : Storage m) (hosts : HostBook) (command : Command) : m (Option Answer) := do
  let start := "Loading policy from " ++ ", ".intercalate command.inputs ++ " ..."
  match ← (work storage hosts command).run with
  | .ok answer =>
    return if (answer.printed :: answer.notes).all Text.isWhole then
      some { answer with notes := start :: answer.notes }
    else none
  | .error failure =>
    return failure.text?.map fun text => { notes := [start, "Error: " ++ text] }

end Command

end FirewallPolicy
