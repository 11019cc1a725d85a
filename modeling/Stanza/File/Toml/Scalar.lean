import Stanza.Decimal.Reading
import Stanza.Value.Settings

/-!
# TOML scalars

Texts, numbers, dates and times as they are written in TOML. Each reader takes a prefix of the text and
gives back the rest.
-/

namespace Stanza.Toml

inductive Error where
  | invalid
  /-- A number with too many digits to be read. -/
  | digitLimit (e : Text.DigitLimitError)

def isGap (c : Char) : Bool := c == ' ' || c == '\t'

def isGapOrLineEnd (c : Char) : Bool := isGap c || c == '\n'

def isControl (c : Char) : Bool := (c.toNat < 0x20 && c != '\t') || c.toNat == 0x7f

def isHexDigit (c : Char) : Bool := c.isDigit || ('a' ≤ c && c ≤ 'f') || ('A' ≤ c && c ≤ 'F')

def hexDigitValue (c : Char) : Nat :=
  if c.isDigit then c.toNat - '0'.toNat else c.toLower.toNat - 'a'.toNat + 10

def isScalarValue (n : Nat) : Bool := n ≤ 0xd7ff || (0xe000 ≤ n && n ≤ 0x10ffff)

def hexEscape (count : Nat) (cs : List Char) : Except Error (List Char × List Char) :=
  let digits := cs.take count
  let n := Text.natOfDigits 16 (digits.map hexDigitValue)
  if digits.length = count && digits.all isHexDigit && isScalarValue n then
    .ok ([Char.ofNat n], cs.drop count)
  else .error .invalid

/-- What stands after a backslash at the end of a line: blanks and line ends, which are left out. -/
def joinLines (cs : List Char) : Except Error (List Char × List Char) :=
  match cs.dropWhile isGap with
  | [] => .ok ([], [])
  | '\n' :: rest => .ok ([], rest.dropWhile isGapOrLineEnd)
  | _ => .error .invalid

def escape (multiline : Bool) : List Char → Except Error (List Char × List Char)
  | 'b' :: rest => .ok (['\x08'], rest)
  | 't' :: rest => .ok (['\t'], rest)
  | 'n' :: rest => .ok (['\n'], rest)
  | 'f' :: rest => .ok (['\x0c'], rest)
  | 'r' :: rest => .ok (['\r'], rest)
  | '"' :: rest => .ok (['"'], rest)
  | '\\' :: rest => .ok (['\\'], rest)
  | 'u' :: rest => hexEscape 4 rest
  | 'U' :: rest => hexEscape 8 rest
  | c :: rest => if multiline && isGapOrLineEnd c then joinLines (c :: rest) else .error .invalid
  | [] => .error .invalid

def basicText (multiline : Bool) (found : List Char) (cs : List Char) : Except Error (List Char × List Char) :=
  match cs with
  | [] => .error .invalid
  | '"' :: rest =>
    if !multiline then .ok (found, rest)
    else if ['"', '"'].isPrefixOf rest then .ok (found, rest.drop 2)
    else basicText multiline (found ++ ['"']) rest
  | '\\' :: rest =>
    match escape multiline rest with
    | .error e => .error e
    | .ok (cs, after) =>
      if after.length ≤ rest.length then basicText multiline (found ++ cs) after else .error .invalid
  | c :: rest =>
    if isControl c && !(multiline && c == '\n') then .error .invalid
    else basicText multiline (found ++ [c]) rest
termination_by cs.length

def literalText (cs : List Char) : Except Error (List Char × List Char) :=
  let body := cs.takeWhile (· != '\'')
  match cs.dropWhile (· != '\'') with
  | _ :: rest => if body.any isControl then .error .invalid else .ok (body, rest)
  | [] => .error .invalid

def literalLines : List Char → Except Error (List Char × List Char)
  | '\'' :: '\'' :: '\'' :: rest => .ok ([], rest)
  | c :: rest =>
    if isControl c && c != '\n' then .error .invalid
    else do
      let (body, after) ← literalLines rest
      return (c :: body, after)
  | [] => .error .invalid

/-- Up to two more quotes after the three that end a text belong to it. -/
def lastQuotes (quote : Char) (body : List Char) (cs : List Char) : List Char × List Char :=
  let more := (cs.take 2).takeWhile (· == quote)
  (body ++ more, cs.drop more.length)

def dropFirstLineEnd : List Char → List Char
  | '\n' :: rest => rest
  | cs => cs

def quotedText (cs : List Char) : Except Error (List Char × List Char) :=
  match cs with
  | '"' :: '"' :: '"' :: rest => do
    let (body, after) ← basicText true [] (dropFirstLineEnd rest)
    return lastQuotes '"' body after
  | '"' :: rest => basicText false [] rest
  | '\'' :: '\'' :: '\'' :: rest => do
    let (body, after) ← literalLines (dropFirstLineEnd rest)
    return lastQuotes '\'' body after
  | '\'' :: rest => literalText rest
  | _ => .error .invalid

def twoDigits? (least bound : Nat) : List Char → Option (Nat × List Char)
  | a :: b :: rest =>
    let n := hexDigitValue a * 10 + hexDigitValue b
    if a.isDigit && b.isDigit && least ≤ n && n < bound then some (n, rest) else none
  | _ => none

def char? (c : Char) : List Char → Option (List Char)
  | d :: rest => if c = d then some rest else none
  | [] => none

/-- Such as `07:32:00.5`; digits after the sixth of the fraction are dropped. -/
def clock? (cs : List Char) : Option (Clock × List Char) := do
  let (hour, cs) ← twoDigits? 0 24 cs
  let (minute, cs) ← twoDigits? 0 60 (← char? ':' cs)
  let (second, cs) ← twoDigits? 0 60 (← char? ':' cs)
  match cs with
  | '.' :: rest =>
    match rest.takeWhile Char.isDigit with
    | [] => return (⟨hour, minute, second, 0⟩, cs)
    | ds =>
      let six := (ds ++ List.replicate 6 '0').take 6
      return (⟨hour, minute, second, Text.natOfDigits 10 (six.map hexDigitValue)⟩, rest.dropWhile Char.isDigit)
  | cs => return (⟨hour, minute, second, 0⟩, cs)

def offset? : List Char → Option (Int × List Char)
  | c :: rest =>
    if c == 'Z' || c == 'z' then some (0, rest)
    else if c == '+' || c == '-' then do
      let (hours, rest) ← twoDigits? 0 24 rest
      let (minutes, rest) ← twoDigits? 0 60 (← char? ':' rest)
      let seconds : Int := (hours * 60 + minutes) * 60
      return (if c == '-' then -seconds else seconds, rest)
    else none
  | [] => none

def date? (cs : List Char) : Option (Date × List Char) := do
  let year := cs.take 4
  if year.length < 4 || !year.all Char.isDigit then none
  let (month, cs) ← twoDigits? 1 13 (← char? '-' (cs.drop 4))
  let (day, cs) ← twoDigits? 1 32 (← char? '-' cs)
  return (⟨Text.natOfDigits 10 (year.map hexDigitValue), month, day⟩, cs)

def dateTime? (cs : List Char) : Option (Moment × List Char) := do
  let (d, cs) ← date? cs
  let timed : Option (Clock × List Char) :=
    match cs with
    | c :: rest => if c == 'T' || c == 't' || c == ' ' then clock? rest else none
    | [] => none
  match timed with
  | none => return (.date d, cs)
  | some (t, cs) =>
    match offset? cs with
    | some (o, cs) => return (.stamp d t (some o), cs)
    | none => return (.stamp d t none, cs)

def dayOf : Moment → Option Date
  | .date d | .stamp d _ _ => some d
  | .clock _ => none

def digitRun (ok : Char → Bool) : List Char → List Char × List Char
  | '_' :: c :: rest =>
    if ok c then
      let (more, after) := digitRun ok rest
      (c :: more, after)
    else ([], '_' :: c :: rest)
  | c :: rest =>
    if ok c then
      let (more, after) := digitRun ok rest
      (c :: more, after)
    else ([], c :: rest)
  | [] => ([], [])

def firstDigits (ok : Char → Bool) : List Char → Option (List Char × List Char)
  | c :: rest => if ok c then some (digitRun ok (c :: rest)) else none
  | [] => none

def based? : List Char → Option (Nat × List Char)
  | 'x' :: rest => (firstDigits isHexDigit rest).map fun (ds, r) => (Text.natOfDigits 16 (ds.map hexDigitValue), r)
  | 'o' :: rest =>
    (firstDigits (fun c => '0' ≤ c && c ≤ '7') rest).map fun (ds, r) =>
      (Text.natOfDigits 8 (ds.map hexDigitValue), r)
  | 'b' :: rest =>
    (firstDigits (fun c => c == '0' || c == '1') rest).map fun (ds, r) =>
      (Text.natOfDigits 2 (ds.map hexDigitValue), r)
  | _ => none

def whole? : List Char → Option (List Char × List Char)
  | '0' :: rest => some (['0'], rest)
  | cs => firstDigits Char.isDigit cs

def fraction (cs : List Char) : List Char × List Char :=
  match cs with
  | '.' :: rest =>
    match firstDigits Char.isDigit rest with
    | some (ds, after) => ('.' :: ds, after)
    | none => ([], cs)
  | _ => ([], cs)

def exponent (cs : List Char) : List Char × List Char :=
  match cs with
  | c :: rest =>
    if c == 'e' || c == 'E' then
      let sign := (rest.take 1).filter fun s => s == '+' || s == '-'
      match firstDigits Char.isDigit (rest.drop sign.length) with
      | some (ds, after) => ('e' :: sign ++ ds, after)
      | none => ([], cs)
    else ([], cs)
  | [] => ([], cs)

def number? (cs : List Char) : Option (Except Error (Value × List Char)) :=
  let based :=
    match cs with
    | '0' :: rest => based? rest
    | _ => none
  match based with
  | some (n, rest) => some (.ok (.int n, rest))
  | none =>
    let sign := (cs.take 1).filter fun s => s == '+' || s == '-'
    (whole? (cs.drop sign.length)).map fun (digits, rest) =>
      let (f, rest) := fraction rest
      let (e, rest) := exponent rest
      if f.isEmpty && e.isEmpty then
        match Text.readDigits (digits.map hexDigitValue) with
        | .ok n => .ok (.int (Text.signed (sign == ['-']) n), rest)
        | .error e => .error (.digitLimit e)
      else
        match Decimal.readDouble? (sign ++ digits ++ f ++ e) with
        | some x => .ok (.float x, rest)
        | none => .error .invalid

def special? (cs : List Char) : Option (Value × List Char) :=
  let sign := (cs.take 1).filter fun s => s == '+' || s == '-'
  let word := (cs.drop sign.length).take 3
  if word == ['i', 'n', 'f'] || word == ['n', 'a', 'n'] then
    (Decimal.readDouble? (sign ++ word)).map fun x => (.float x, cs.drop (sign.length + 3))
  else none

def scalar (cs : List Char) : Except Error (Value × List Char) :=
  if "true".toList.isPrefixOf cs then .ok (.bool true, cs.drop 4)
  else if "false".toList.isPrefixOf cs then .ok (.bool false, cs.drop 5)
  else
    match dateTime? cs with
    | some (m, rest) => if (dayOf m).all Date.isValid then .ok (.moment m, rest) else .error .invalid
    | none =>
      match clock? cs with
      | some (t, rest) => .ok (.moment (.clock t), rest)
      | none =>
        match number? cs with
        | some read => read
        | none =>
          match special? cs with
          | some found => .ok found
          | none => .error .invalid

end Stanza.Toml
