import SlotTree.Fault.Report
import SlotTree.Reading.Script
import SlotTree.Source.Render
import SlotTree.Tree.Dump

/-!
# The command line

    tokens FILE                          lists the tokens of a script
    parse FILE [--pretty]                prints its tree as JSON
    unparse FILE [--format] [--indent N] prints it as source again

What a command line means and what a command answers are functions; only reading the
arguments and the file and printing the answer is left to the program around them.

An answer is a text for the standard output and an exit code: 0 for success, 1 for a
script with a fault, whose report is printed, or a file that cannot be read as text, 2
for a command line that means nothing, and 101 for a report that cannot be printed.
-/

namespace SlotTree

/-- What is to be done with a script. -/
inductive Command where
  | tokens
  | parse (pretty : Bool)
  | unparse (layout : Bool) (level : Nat)
  deriving DecidableEq, Repr

/-- A command and the path of the script that it is for. -/
structure Invocation where
  command : Command
  path : String
  deriving DecidableEq, Repr

/-- What the program prints, and its exit code. -/
structure Answer where
  output : String
  code : Nat
  deriving DecidableEq, Repr

namespace Invocation

/-- An option of a command: a flag, or one with a value. -/
inductive Setting where
  | flag (name : String)
  | value (name text : String)
  deriving DecidableEq, Repr

/-- The name of an option. -/
def Setting.name : Setting → String
  | .flag name | .value name _ => name

/-- The arguments after the command, sorted into operands and options. -/
structure Sorted where
  operands : List String
  settings : List Setting

/-- The flags of a command. -/
def flagsOf (command : String) : List String :=
  if command == "parse" then ["--pretty"]
  else if command == "unparse" then ["--format"]
  else []

/-- The options of a command that take a value. -/
def valuedOf (command : String) : List String :=
  if command == "unparse" then ["--indent"] else []

/-- Whether an argument looks like an option: it starts with a dash and is more than
that. -/
def looksLikeOption (text : String) : Bool :=
  match text.toList with
  | '-' :: _ :: _ => true
  | _ => false

/-- Splits `--name=value` at the equals sign. -/
def splitValue? (text : String) : Option (String × String) :=
  let name := text.toList.takeWhile fun c => c != '='
  match text.toList.drop name.length with
  | _ :: value => some (String.ofList name, String.ofList value)
  | [] => none

/-- Sorts the arguments of a command. After `--` every argument is an operand. -/
def sort? (command : String) : List String → Option Sorted
  | [] => some ⟨[], []⟩
  | "--" :: rest => some ⟨rest, []⟩
  | arg :: rest =>
    if !looksLikeOption arg then
      (sort? command rest).map fun s => { s with operands := arg :: s.operands }
    else if (flagsOf command).contains arg then
      (sort? command rest).map fun s => { s with settings := .flag arg :: s.settings }
    else if (valuedOf command).contains arg then
      match rest with
      | text :: rest =>
        if looksLikeOption text then none
        else (sort? command rest).map fun s => { s with settings := .value arg text :: s.settings }
      | [] => none
    else
      match splitValue? arg with
      | some (name, text) =>
        if (valuedOf command).contains name then
          (sort? command rest).map fun s => { s with settings := .value name text :: s.settings }
        else none
      | none => none

/-- A count of at most 64 bits, with an optional plus sign. -/
def count? (text : String) : Option Nat :=
  match text.toList with
  | '-' :: _ => none
  | cs =>
    (Decimal.readInt? 10 cs).bind fun n =>
      if n ≤ 18446744073709551615 then some n.toNat else none

/-- Whether no option is given twice. -/
def distinct : List Setting → Bool
  | [] => true
  | s :: rest => !(rest.any fun t => t.name == s.name) && distinct rest

/-- The command with the given options. -/
def command? (name : String) (settings : List Setting) : Option Command :=
  if !distinct settings then none
  else if name == "tokens" then some .tokens
  else if name == "parse" then some (.parse (settings.contains (.flag "--pretty")))
  else if name == "unparse" then
    let level :=
      match settings.find? fun s => s.name == "--indent" with
      | some (.value _ text) => count? text
      | _ => some 0
    level.map (.unparse (settings.contains (.flag "--format")))
  else none

/-- The path among the operands: there is exactly one operand, and it is not empty. -/
def path? : List String → Option String
  | [path] => if path.isEmpty then none else some path
  | _ => none

/-- What a command line means, if it means anything. -/
def ofArgs? : List String → Option Invocation
  | [] => none
  | name :: args =>
    (sort? name args).bind fun sorted =>
      (path? sorted.operands).bind fun path =>
        (command? name sorted.settings).map fun command => ⟨command, path⟩

/-- The parts of a path between slashes. -/
def pathParts : List Char → List (List Char)
  | [] => [[]]
  | c :: cs =>
    if c == '/' then [] :: pathParts cs
    else
      match pathParts cs with
      | [] => [[c]]
      | part :: parts => (c :: part) :: parts

/-- The last part of a path, by which a script is named in reports. -/
def fileName (path : String) : String :=
  let parts := (pathParts path.toList).filter fun part => !part.isEmpty && part != ['.']
  match parts.getLast? with
  | some part => if part == ['.', '.'] then Reading.shellName else String.ofList part
  | none => Reading.shellName

end Invocation

namespace Command

/-- What a command answers for a script. Source text is answered without the line feeds at
its end. -/
def run (command : Command) (source file : String) : Except Fault String := do
  let tokens ← tokenize source file
  match command with
  | .tokens => .ok ("\n".intercalate (tokens.map Token.listing))
  | .parse pretty => do
    let block ← Reading.readTokens .default tokens file
    .ok (if pretty then block.dump.pretty else block.dump.compact)
  | .unparse layout level => do
    let block ← Reading.readTokens .default tokens file
    let text ← block.render level layout
    .ok (String.ofList (Text.dropEndWhile (· == '\n') text.toList))

end Command

namespace Answer

/-- The answer to a command line that means nothing. -/
def usage : Answer := ⟨"", 2⟩

/-- The answer where the file cannot be read as text. -/
def unreadable : Answer := ⟨"", 1⟩

/-- The answer where a report cannot be printed. -/
def unprintable : Answer := ⟨"", 101⟩

end Answer

/-- What the program answers to a command, given the bytes of the file if it could be
read. -/
def Invocation.answer (i : Invocation) (contents : Option ByteArray) : Answer :=
  match contents.bind String.fromUTF8? with
  | none => .unreadable
  | some source =>
    match i.command.run source (Invocation.fileName i.path) with
    | .ok text => ⟨text ++ "\n", 0⟩
    | .error fault =>
      match fault.report? source with
      | some report => ⟨report, 1⟩
      | none => .unprintable

end SlotTree
