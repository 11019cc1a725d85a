import Stanza.Error.Load
import Stanza.Text.Blank
import Stanza.Value.Settings

/-!
# INI files

A file consists of sections `[name]` with options `key = value` or `key: value`. A line that is indented more
than the line of an option continues its value. Lines that start with `#` or `;` are comments. Sections and
options are named once. The options of the section named by the null character go into every section.
-/

namespace Stanza.Ini

abbrev Options := List (String × List String)

structure Block where
  heading : String
  options : Options := []

/-- What has been read: the finished sections, latest first, and the open one with its last option. -/
structure Reader where
  done : List Block := []
  defaults : Options := []
  current : Option Block := none
  option : String := ""
  indent : Nat := 0
  /-- The lines that are neither headers nor options, latest first. -/
  bad : List SourceLine := []

/-- The name of the section whose options go into all others. -/
def sharedHeading : String := "\x00"

def isComment (line : List Char) : Bool :=
  match line.dropWhile Text.isBlank with
  | '#' :: _ | ';' :: _ => true
  | _ => false

/-- The heading of a line: everything between its first character and its last closing bracket. -/
def heading? : List Char → Option (List Char)
  | '[' :: rest =>
    match rest.reverse.dropWhile (· != ']') with
    | [] => none
    | _ :: name => if name.isEmpty then none else some name.reverse
  | _ => none

def isDelimiter (c : Char) : Bool := c == '=' || c == ':'

def option? (line : List Char) : Option (List Char × List Char) :=
  match line.dropWhile (!isDelimiter ·) with
  | [] => none
  | _ :: value => some (Text.trimEnd (line.takeWhile (!isDelimiter ·)), Text.trim value)

def appendLine (options : Options) (name line : String) : Options :=
  options.map fun (n, lines) => if n == name then (n, line :: lines) else (n, lines)

namespace Reader

def extendValue (r : Reader) (line : String) : Reader :=
  { r with current := r.current.map fun b => { b with options := appendLine b.options r.option line } }

def isOpen (r : Reader) : Bool := r.current.isSome && !r.option.isEmpty

def finish (r : Reader) : Reader :=
  match r.current with
  | none => r
  | some b =>
    if b.heading == sharedHeading then { r with defaults := b.options, current := none }
    else { r with done := b :: r.done, current := none }

def openSection (r : Reader) (number : Nat) (name : String) : Except Error Reader :=
  let r := r.finish
  if name == sharedHeading then
    .ok { r with current := some { heading := name, options := r.defaults }, option := "" }
  else if r.done.any (·.heading == name) then .error (.duplicateSection number name)
  else .ok { r with current := some { heading := name }, option := "" }

def addOption (r : Reader) (b : Block) (number : Nat) (name value : String) : Except Error Reader :=
  if b.options.any (·.1 == name) then .error (.duplicateOption number b.heading name)
  else .ok { r with current := some { b with options := b.options ++ [(name, [value])] }, option := name }

def start (r : Reader) (source : SourceLine) (line : List Char) : Except Error Reader :=
  match heading? line, r.current with
  | some name, _ => r.openSection source.number (String.ofList name)
  | none, none => .error (.missingHeader source)
  | none, some b =>
    match option? line with
    | none => .ok { r with bad := source :: r.bad }
    | some (name, value) =>
      let r := if name.isEmpty then { r with bad := source :: r.bad } else r
      r.addOption b source.number (String.ofList name) (String.ofList value)

def step (r : Reader) (source : SourceLine) : Except Error Reader :=
  let line := source.text.toList
  if isComment line then .ok r
  else
    match Text.trim line with
    | [] => .ok (if r.isOpen then r.extendValue "" else r)
    | trimmed =>
      let indent := (line.takeWhile Text.isBlank).length
      if r.isOpen && indent > r.indent then .ok (r.extendValue (String.ofList trimmed))
      else { r with indent }.start source trimmed

end Reader

def valueOf (lines : List String) : Value :=
  .text (String.ofList (Text.trimEnd (("\n".intercalate lines.reverse).toList)))

def settingsOf (options : Options) : Settings := options.map fun (name, lines) => (.text name, valueOf lines)

def numbered (lines : List (List Char)) : List SourceLine :=
  lines.zipIdx.map fun (line, i) => { number := i + 1, text := String.ofList line }

/-- Goes through the lines; those that cannot be read are reported only by `finish`. -/
def scan (lines : List SourceLine) : Except Error Reader := lines.foldlM Reader.step {}

def finish (r : Reader) : Except Error (List (String × Settings)) :=
  if r.bad.isEmpty then
    let r := r.finish
    .ok (r.done.reverse.map fun b =>
      (b.heading, Settings.overlay (settingsOf r.defaults) (settingsOf b.options)))
  else .error (.unparsable r.bad.reverse)

def allLines (text : List Char) : List (List Char) :=
  let (lines, last) := Text.splitLines text
  if last.isEmpty then lines else lines ++ [last]

def read (text : List Char) : Except Error (List (String × Settings)) := do
  finish (← scan (numbered (allLines text)))

end Stanza.Ini
