import Stanza.Text.Integer
import Stanza.Time.Calendar

/-!
# Types of YAML scalars

The types that tags name, and the type of a plain text without a tag, which its form decides.
-/

namespace Stanza.Yaml

inductive Tag where
  | null
  | bool
  | int
  | float
  | moment
  | text
  | binary
  | sequence
  | mapping
  | set
  /-- A sequence of mappings with one entry each, in order or not. -/
  | pairs
  /-- The key `<<`, which lays mappings under its own. -/
  | merge
  /-- The key `=`. -/
  | equals
  | other
  deriving DecidableEq

def standardTag : String := "tag:yaml.org,2002:"

def Tag.names : List (String × Tag) :=
  [("null", .null), ("bool", .bool), ("int", .int), ("float", .float), ("timestamp", .moment), ("str", .text),
    ("binary", .binary), ("seq", .sequence), ("map", .mapping), ("set", .set), ("omap", .pairs), ("pairs", .pairs),
    ("merge", .merge), ("value", .equals)]

def Tag.ofName (name : String) : Tag :=
  ((names.find? fun n => standardTag ++ n.1 == name).map (·.2)).getD .other

def truthValues : List (String × Bool) :=
  [("yes", true), ("no", false), ("true", true), ("false", false), ("on", true), ("off", false)]

def spellings (word : String) : List String :=
  match word.toList with
  | [] => [""]
  | c :: rest => [word, String.ofList (c.toUpper :: rest), String.ofList ((c :: rest).map Char.toUpper)]

def isTruthText (s : String) : Bool := truthValues.any fun t => (spellings t.1).contains s

def isNullText (s : String) : Bool := s == "" || s == "~" || (spellings "null").contains s

def isLooseDigit (c : Char) : Bool := c.isDigit || c == '_'

def isRun (first more : Char → Bool) : List Char → Bool
  | c :: rest => first c && rest.all more
  | [] => false

def unsigned : List Char → List Char
  | '+' :: rest | '-' :: rest => rest
  | cs => cs

def isSixtieth : List Char → Bool
  | [d] => d.isDigit
  | [t, d] => '0' ≤ t && t ≤ '5' && d.isDigit
  | _ => false

/-- Numbers below sixty after colons, and a first number that is `leading`. -/
def isSexagesimal (leading : List Char → Bool) (cs : List Char) : Bool :=
  match cs.splitOn ':' with
  | first :: part :: parts => leading first && isSixtieth part && parts.all isSixtieth
  | _ => false

def isDecimal (cs : List Char) : Bool := isRun (fun c => '1' ≤ c && c ≤ '9') isLooseDigit cs

def isIntegerText (cs : List Char) : Bool :=
  match unsigned cs with
  | ['0'] => true
  | '0' :: 'b' :: rest => !rest.isEmpty && rest.all fun c => c == '0' || c == '1' || c == '_'
  | '0' :: 'x' :: rest =>
    !rest.isEmpty && rest.all fun c => isLooseDigit c || ('a' ≤ c && c ≤ 'f') || ('A' ≤ c && c ≤ 'F')
  | '0' :: rest => rest.all fun c => ('0' ≤ c && c ≤ '7') || c == '_'
  | body => isDecimal body || isSexagesimal isDecimal body

def isExponent : List Char → Bool
  | [] => true
  | e :: sign :: digits =>
    (e == 'e' || e == 'E') && (sign == '+' || sign == '-') && !digits.isEmpty && digits.all Char.isDigit
  | _ => false

def isFloatText (cs : List Char) : Bool :=
  let body := unsigned cs
  let whole := body.takeWhile (· != '.')
  match body.dropWhile (· != '.') with
  | [] => false
  | _ :: rest =>
    let word := String.ofList rest
    if whole.isEmpty then
      (spellings "inf").contains word
        || (body.length = cs.length && (["nan", "NaN", "NAN"].contains word
          || (startsWithDigit rest && isExponent (rest.dropWhile isLooseDigit))))
    else
      let isLeading := isRun Char.isDigit isLooseDigit
      (isLeading whole && isExponent (rest.dropWhile isLooseDigit))
        || (isSexagesimal isLeading whole && rest.all isLooseDigit)
where
  startsWithDigit : List Char → Bool
    | c :: _ => c.isDigit
    | [] => false

/-- The fields of a date or a time stamp: they need not be in range. -/
structure MomentFields where
  date : Date
  clock : Option (Clock × Option Int) := none

def natOf (digits : List Char) : Nat := Text.natOfDigits 10 (digits.map fun c => c.toNat - '0'.toNat)

def someDigits? (least most : Nat) (cs : List Char) : Option (Nat × List Char) :=
  let digits := (cs.take most).takeWhile Char.isDigit
  if digits.length < least then none else some (natOf digits, cs.drop digits.length)

def afterMark? (mark : Char) : List Char → Option (List Char)
  | c :: rest => if c = mark then some rest else none
  | [] => none

def zone? : List Char → Option (Option Int)
  | [] => some none
  | cs =>
    match cs.dropWhile fun c => c == ' ' || c == '\t' with
    | ['Z'] => some (some 0)
    | sign :: rest =>
      if sign == '+' || sign == '-' then do
        let (hours, rest) ← someDigits? 1 2 rest
        let (minutes, rest) ← if rest.isEmpty then some (0, []) else someDigits? 2 2 (← afterMark? ':' rest)
        if rest.isEmpty then
          return some (Text.signed (sign == '-') ((hours * 60 + minutes) * 60))
        else none
      else none
    | [] => none

def clock? (cs : List Char) : Option (Clock × Option Int) := do
  let (hour, cs) ← someDigits? 1 2 cs
  let (minute, cs) ← someDigits? 2 2 (← afterMark? ':' cs)
  let (second, cs) ← someDigits? 2 2 (← afterMark? ':' cs)
  let (fraction, cs) :=
    match cs with
    | '.' :: rest => (rest.takeWhile Char.isDigit, rest.dropWhile Char.isDigit)
    | cs => ([], cs)
  let zone ← zone? cs
  return (⟨hour, minute, second, natOf ((fraction ++ List.replicate 6 '0').take 6)⟩, zone)

def momentFields? (cs : List Char) : Option MomentFields := do
  let (year, cs) ← someDigits? 4 4 cs
  let (month, cs) ← someDigits? 1 2 (← afterMark? '-' cs)
  let (day, cs) ← someDigits? 1 2 (← afterMark? '-' cs)
  match cs with
  | [] => return ⟨⟨year, month, day⟩, none⟩
  | c :: rest =>
    if c == 'T' || c == 't' then return ⟨⟨year, month, day⟩, some (← clock? rest)⟩
    else if c == ' ' || c == '\t' then
      return ⟨⟨year, month, day⟩, some (← clock? (rest.dropWhile fun c => c == ' ' || c == '\t'))⟩
    else none

/-- Without a time, the month and the day have two digits. -/
def isMomentText (cs : List Char) : Bool :=
  match momentFields? cs with
  | some fields => fields.clock.isSome || cs.length == 10
  | none => false

def Tag.ofPlain (s : String) : Tag :=
  let cs := s.toList
  if isTruthText s then .bool
  else if isNullText s then .null
  else if s == "<<" then .merge
  else if s == "=" then .equals
  else if isIntegerText cs then .int
  else if isFloatText cs then .float
  else if isMomentText cs then .moment
  else .text

end Stanza.Yaml
