import Stanza.Error.Fault
import Stanza.Text.Integer

/-!
# Values as JSON

Keys are texts and are written in the order of their characters. Characters outside ASCII are written as
they are. Periods, spans, paths, dates, times and values of other types have no JSON form.
-/

namespace Stanza.Json

def escapeChar (c : Char) : List Char :=
  if c == '"' then ['\\', '"']
  else if c == '\\' then ['\\', '\\']
  else if c == '\n' then ['\\', 'n']
  else if c == '\r' then ['\\', 'r']
  else if c == '\t' then ['\\', 't']
  else if c == '\x08' then ['\\', 'b']
  else if c == '\x0c' then ['\\', 'f']
  else if c.toNat < 0x20 then '\\' :: 'u' :: Text.hexDigits 4 c.toNat
  else [c]

def text (s : String) : String := String.ofList ('"' :: s.toList.flatMap escapeChar ++ ['"'])

def float (x : Float) : String :=
  match Decimal.Parts.ofFloat x with
  | .notANumber => "NaN"
  | .infinite negative => if negative then "-Infinity" else "Infinity"
  | _ => Value.floatLayout.text x

/-- How the parts of lists and mappings are set: all on one line, or each on a line of its own. -/
inductive Style where
  | compact
  | indented (width : Nat)

def Style.colon : Style → String
  | .compact => ":"
  | .indented _ => ": "

def Style.enclose (style : Style) (depth : Nat) (opening closing : String) (parts : List String) : String :=
  match style, parts with
  | _, [] => opening ++ closing
  | .compact, parts => opening ++ ",".intercalate parts ++ closing
  | .indented width, parts =>
    let line (n : Nat) : String := "\n" ++ String.ofList (List.replicate (width * n) ' ')
    opening ++ line (depth + 1) ++ ("," ++ line (depth + 1)).intercalate parts ++ line depth ++ closing

def sortEntries (entries : List (String × α)) : List (String × α) :=
  entries.mergeSort fun a b => a.1 ≤ b.1

def allParts (parts : List (Except Fault String)) : Except Fault (List String) := parts.mapM id

def keyText : Value → Except Fault String
  | .text s => .ok s
  | _ => .error .wrongType

mutual

def write (style : Style) (depth : Nat) : Value → Except Fault String
  | .null => .ok "null"
  | .bool b => .ok (if b then "true" else "false")
  | .int n => digits (Text.writeInteger n)
  | .float x => .ok (float x)
  | .text s => .ok (text s)
  | .list items | .tuple items => do
    return style.enclose depth "[" "]" (← allParts (writeItems style (depth + 1) items))
  | .map entries => do
    let keyed ← writeEntries style (depth + 1) entries
    return style.enclose depth "\x7b" "\x7d" (← allParts ((sortEntries keyed).map (·.2)))
  | .period _ | .span _ | .path _ | .moment _ | .foreign _ => .error .wrongType
termination_by structural value => value

def writeItems (style : Style) (depth : Nat) : List Value → List (Except Fault String)
  | [] => []
  | item :: rest => write style depth item :: writeItems style depth rest
termination_by structural items => items

def writeEntries (style : Style) (depth : Nat) :
    List (Value × Value) → Except Fault (List (String × Except Fault String))
  | [] => .ok []
  | (key, value) :: rest => do
    let name ← keyText key
    let written := (fun shown => text name ++ style.colon ++ shown) <$> write style depth value
    return (name, written) :: (← writeEntries style depth rest)
termination_by structural entries => entries

end

def compact (value : Value) : Except Fault String := write .compact 0 value

end Stanza.Json
