import Stanza.File.Path
import Stanza.Text.Utf8

/-!
# Errors of reading files

Why a configuration file, a set of files or the working directory of the service is not usable.
-/

namespace Stanza

structure SourceLine where
  number : Nat
  text : String
  deriving DecidableEq

namespace Ini

inductive Error where
  | missingHeader (line : SourceLine)
  | duplicateSection (line : Nat) (heading : String)
  | duplicateOption (line : Nat) (heading option : String)
  | unparsable (lines : List SourceLine)
  deriving DecidableEq

def lineLabel (n : Nat) : String := if n < 10 then " " ++ toString n else toString n

def Error.message (source : String) : Error → String
  | .missingHeader line =>
    "File contains no section headers.\nfile: " ++ Text.literal source ++ ", line: " ++ toString line.number
      ++ "\n" ++ Text.literal line.text
  | .duplicateSection line heading =>
    "While reading from " ++ Text.literal source ++ " [line " ++ lineLabel line ++ "]: section "
      ++ Text.literal heading ++ " already exists"
  | .duplicateOption line heading option =>
    "While reading from " ++ Text.literal source ++ " [line " ++ lineLabel line ++ "]: option "
      ++ Text.literal option ++ " in section " ++ Text.literal heading ++ " already exists"
  | .unparsable lines =>
    "Source contains parsing errors: " ++ Text.literal source
      ++ String.join (lines.map fun l => "\n\t[line " ++ lineLabel l.number ++ "]: " ++ Text.literal l.text)

end Ini

inductive LoadError where
  | notFound (path : Path)
  | unsupported (path : Path)
  | noFiles (candidates : List String)
  | definedTwice (identifier : String) (first second : Path)
  | invalidIni (path : Path) (e : Ini.Error)
  | invalidToml (path : Path)
  | invalidYaml (path : Path)
  | unreadable (path : Path) (e : Text.Utf8Error)
  | unopened (path : Path) (e : SystemError)
  | rootNotMapping (path : Path)
  | sectionNotText (path : Path) (shown : String)
  | vardirUnset
  | vardirRelative (path : Path)
  | vardirAbsent (path : Path)
  | vardirNoDirectory (path : Path)
  | vardirReadOnly (path : Path)

def LoadError.message : LoadError → String
  | .notFound path => "config file not found: " ++ path.text
  | .unsupported path =>
    "unsupported config file type " ++ Text.literal (String.ofList path.suffix) ++ ": " ++ path.text
      ++ " (expected one of: " ++ ", ".intercalate (FileFormat.suffixes.map (·.1)) ++ ")"
  | .noFiles candidates => "no config files found in: " ++ ", ".intercalate candidates
  | .definedTwice identifier first second =>
    "section [" ++ identifier ++ "] is defined in both " ++ first.text ++ " and " ++ second.text
  | .invalidIni path e => "invalid INI in " ++ path.text ++ ": " ++ e.message path.text
  | .invalidToml path => "invalid TOML in " ++ path.text
  | .invalidYaml path => "invalid YAML in " ++ path.text
  | .unreadable path e => "unable to read config file " ++ path.text ++ ": " ++ e.message
  | .unopened path e => "unable to read config file " ++ path.text ++ ": " ++ e.message
  | .rootNotMapping path => "config root must be a mapping: " ++ path.text
  | .sectionNotText path shown => "section names must be strings in " ++ path.text ++ ": " ++ shown
  | .vardirUnset =>
    "Required setting 'vardir' is not specified. Please set it to a writable directory."
  | .vardirRelative path => "vardir " ++ Text.literal path.text ++ " must be an absolute path."
  | .vardirAbsent path =>
    "vardir " ++ Text.literal path.text ++ " does not exist. Please create it and ensure it is writable."
  | .vardirNoDirectory path => "vardir " ++ Text.literal path.text ++ " is not a directory."
  | .vardirReadOnly path => "vardir " ++ Text.literal path.text ++ " is not writable."

end Stanza
