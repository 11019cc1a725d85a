import Stanza.Text.Word
import Stanza.Text.Literal

/-!
# Command line arguments

The words of a command line are options, plain words, or the separator `--`, after which there are only
plain words. A long option may be shortened as long as it is clear which one is meant. Plain words go to
the operand of the command in one group; what fits nowhere is left over.
-/

namespace Stanza.Command

inductive Flag where
  | help
  | logLevel
  | logFormat
  | checkVardir
  | json
  deriving DecidableEq

def Flag.takesValue : Flag → Bool
  | .logLevel | .logFormat => true
  | _ => false

def Flag.choices : Flag → List String
  | .logFormat => ["text", "json"]
  | _ => []

structure Grammar where
  program : String
  /-- The options by their spellings. -/
  options : List (String × Flag)
  operand : String
  /-- The values that the first word of the operand can have, if not all. -/
  choices : List String := []
  /-- Whether the operand takes everything that follows it, options too. -/
  takesRest : Bool := false

inductive Stop where
  | help (program : String)
  | usage (program message : String)
  deriving DecidableEq

namespace Grammar

def refuse (g : Grammar) (flag : Flag) (message : String) : Stop :=
  let names := (g.options.filter (·.2 == flag)).map (·.1)
  .usage g.program ("argument " ++ "/".intercalate names ++ ": " ++ message)

def ignored (g : Grammar) (flag : Flag) (value : List Char) : Stop :=
  g.refuse flag ("ignored explicit argument " ++ Text.literal (String.ofList value))

def invalidChoice (value : String) (choices : List String) : String :=
  "invalid choice: " ++ Text.literal value ++ " (choose from "
    ++ ", ".intercalate (choices.map Text.literal) ++ ")"

end Grammar

structure Written where
  flag : Flag
  spelling : String
  /-- Whether an equals sign stands before the value. -/
  assigned : Bool := false
  value : Option (List Char) := none

inductive Word where
  | option (written : Written)
  | unknownOption
  | plain
  | separator

def Word.isOption : Word → Bool
  | .option _ | .unknownOption => true
  | _ => false

def Word.isPlain : Word → Bool
  | .plain => true
  | _ => false

/-- Whether a word is a negative number, with an optional line end after it. -/
def isNegativeNumber (cs : List Char) : Bool :=
  let isDigit (c : Char) : Bool := (Text.digitValue? c).isSome
  let body := if cs.getLast? = some '\n' then cs.dropLast else cs
  match body with
  | '-' :: digits =>
    let whole := digits.takeWhile isDigit
    match digits.dropWhile isDigit with
    | [] => !whole.isEmpty
    | '.' :: fraction => !fraction.isEmpty && fraction.all isDigit
    | _ => false
  | _ => false

def splitAssignment (cs : List Char) : List Char × Option (List Char) :=
  match cs.dropWhile (· != '=') with
  | [] => (cs, none)
  | _ :: value => (cs.takeWhile (· != '='), some value)

/-- The options that a word could be short for. A single dash and a letter may have a value right after
them. -/
def candidates (g : Grammar) (cs : List Char) : List Written :=
  match cs with
  | '-' :: '-' :: _ =>
    let (start, value) := splitAssignment cs
    (g.options.filter fun o => start.isPrefixOf o.1.toList).map fun (spelling, flag) =>
      { flag, spelling, assigned := value.isSome, value }
  | _ =>
    g.options.filterMap fun (spelling, flag) =>
      if spelling.toList == cs.take 2 then some { flag, spelling, value := some (cs.drop 2) }
      else if cs.isPrefixOf spelling.toList then some { flag, spelling }
      else none

def classify (g : Grammar) (word : String) : Except Stop Word :=
  match word.toList with
  | '-' :: rest =>
    match g.options.lookup word with
    | some flag => .ok (.option { flag, spelling := word })
    | none =>
      if rest.isEmpty then .ok .plain
      else
        let (start, value) := splitAssignment ('-' :: rest)
        match value.bind fun _ => g.options.lookup (String.ofList start) with
        | some flag => .ok (.option { flag, spelling := String.ofList start, assigned := true, value })
        | none =>
          match candidates g ('-' :: rest) with
          | [written] => .ok (.option written)
          | [] => .ok (if isNegativeNumber ('-' :: rest) || rest.contains ' ' then .plain else .unknownOption)
          | several =>
            .error (.usage g.program ("ambiguous option: " ++ word ++ " could match "
              ++ ", ".intercalate (several.map (·.spelling))))
  | _ => .ok .plain

def classifyAll (g : Grammar) : List String → Except Stop (List (Word × String))
  | [] => .ok []
  | word :: rest =>
    if word == "--" then .ok ((.separator, word) :: rest.map fun w => (.plain, w))
    else do
      let first ← classify g word
      return (first, word) :: (← classifyAll g rest)

structure Parsed where
  flags : List (Flag × String) := []
  operand : Option (List String) := none
  leftOver : List String := []

def Parsed.value? (p : Parsed) (flag : Flag) : Option String := p.flags.reverse.lookup flag

def Parsed.has (p : Parsed) (flag : Flag) : Bool := (p.value? flag).isSome

/-- What to do about letters right after the short option for help: more such options are fine, and help
is given even if the others are unknown. -/
def shortHelp (g : Grammar) (assigned : Bool) : List Char → Stop
  | [] => g.ignored .help []
  | c :: rest =>
    if assigned || c == '-' then g.ignored .help (c :: rest)
    else if c == 'h' then
      match rest with
      | [] => .help g.program
      | '=' :: value => shortHelp g true value
      | c :: value => shortHelp g false (c :: value)
    else .help g.program

def takeSwitch (g : Grammar) (w : Written) : Except Stop Unit :=
  match w.value with
  | some value =>
    if w.spelling.toList.take 2 == ['-', '-'] then .error (g.ignored w.flag value)
    else .error (shortHelp g w.assigned value)
  | none => if w.flag = .help then .error (.help g.program) else .ok ()

def checkValue (g : Grammar) (flag : Flag) (value : String) : Except Stop Unit :=
  if flag.choices.isEmpty || flag.choices.contains value then .ok ()
  else .error (g.refuse flag (Grammar.invalidChoice value flag.choices))

/-- The words of the operand; the first separator among them is left out if it is a list of its own. -/
def takeOperand (g : Grammar) (words : List String) : Except Stop (List String) :=
  let words := if g.takesRest then words else words.erase "--"
  match words with
  | [] => .ok []
  | first :: _ =>
    if g.choices.isEmpty || g.choices.contains first then .ok words
    else .error (.usage g.program ("argument " ++ g.operand ++ ": " ++ Grammar.invalidChoice first g.choices))

def Grammar.read (g : Grammar) (p : Parsed) (words : List (Word × String)) : Except Stop Parsed :=
  match words with
  | [] => .ok p
  | (.unknownOption, word) :: rest => g.read { p with leftOver := p.leftOver ++ [word] } rest
  | (.option w, _) :: rest =>
    if w.flag.takesValue then do
      match w.value with
      | some value =>
        checkValue g w.flag (String.ofList value)
        g.read { p with flags := p.flags ++ [(w.flag, String.ofList value)] } rest
      | none =>
        match rest with
        | (.plain, value) :: later =>
          checkValue g w.flag value
          g.read { p with flags := p.flags ++ [(w.flag, value)] } later
        | _ => throw (g.refuse w.flag "expected one argument")
    else do
      takeSwitch g w
      g.read { p with flags := p.flags ++ [(w.flag, "")] } rest
  | first :: rest =>
    let group := first :: rest.takeWhile (!·.1.isOption)
    let later := rest.dropWhile (!·.1.isOption)
    have _shorter : (rest.dropWhile (!·.1.isOption)).length ≤ rest.length :=
      (List.dropWhile_suffix _).length_le
    if p.operand.isNone && group.any (·.1.isPlain) then
      if g.takesRest then do
        return { p with operand := some (← takeOperand g ((first :: rest).map (·.2))) }
      else do
        g.read { p with operand := some (← takeOperand g (group.map (·.2))) } later
    else g.read { p with leftOver := p.leftOver ++ group.map (·.2) } later
termination_by words.length

def Grammar.parse (g : Grammar) (words : List String) : Except Stop Parsed := do
  let p ← g.read {} (← classifyAll g words)
  if p.operand.isNone then
    throw (.usage g.program ("the following arguments are required: " ++ g.operand))
  return p

end Stanza.Command
