import Stanza.File.Yaml.Binary
import Stanza.File.Yaml.Node
import Stanza.Text.Case
import Stanza.Value.Settings

/-!
# YAML documents

A text holds at most one document. Scalars are read by their types; numbers may hold underscores and may be
written in base two, eight, sixteen or sixty. Which library loads the files of a configuration is left open; the reader
here is the one that is run.
-/

namespace Stanza.Yaml

def rejected (e : Rejection) : Error := .fault (.rejected e)

mutual

/-- The text of a scalar. A mapping with the key `=` stands for the text of that value. -/
def Node.text? : Node → Option String
  | .scalar _ text => some text
  | .sequence .. => none
  | .mapping _ entries => defaultText? entries
termination_by structural node => node

def defaultText? : List (Node × Node) → Option String
  | [] => none
  | (.scalar .equals _, value) :: _ => value.text?
  | (_, _) :: rest => defaultText? rest
termination_by structural entries => entries

end

def entriesOf : Node → Except Error (List (Node × Node))
  | .mapping _ entries => .ok entries
  | _ => .error .invalid

/-- The entries that the value of `<<` lays under those of its mapping: a mapping, or a list of which the
earlier mappings go over the later ones. -/
def mergedEntries : Node → Except Error (List (Node × Node))
  | .sequence _ items => do return (← items.mapM entriesOf).reverse.flatten
  | node => entriesOf node

mutual

def Node.expand : Node → Except Error Node
  | .scalar tag text => .ok (.scalar tag text)
  | .sequence .pairs items => do return .sequence .pairs (← expandPairs items)
  | .sequence tag items => do return .sequence tag (← expandItems items)
  | .mapping .mapping entries => do
    let (under, own) ← expandEntries entries
    return .mapping .mapping (under ++ own)
  | .mapping .set entries => do
    let (under, own) ← expandEntries entries
    return .mapping .set (under ++ own)
  | .mapping tag entries => .ok (.mapping tag entries)
termination_by structural node => node

def expandItems : List Node → Except Error (List Node)
  | [] => .ok []
  | item :: rest => do
    let item ← item.expand
    return item :: (← expandItems rest)
termination_by structural items => items

def expandPairs : List Node → Except Error (List Node)
  | [] => .ok []
  | .mapping tag [(key, value)] :: rest => do
    let key ← key.expand
    let value ← value.expand
    return .mapping tag [(key, value)] :: (← expandPairs rest)
  | _ :: _ => .error .invalid
termination_by structural items => items

def expandEntries : List (Node × Node) → Except Error (List (Node × Node) × List (Node × Node))
  | [] => .ok ([], [])
  | (key, value) :: rest => do
    let key ← key.expand
    let value ← value.expand
    let (under, own) ← expandEntries rest
    match key with
    | .scalar .merge _ => return ((← mergedEntries value) ++ under, own)
    | .scalar .equals text => return (under, (.scalar .text text, value) :: own)
    | key => return (under, (key, value) :: own)
termination_by structural entries => entries

end

def basedNumber (base : Nat) (digits : List Char) : Except Error Nat :=
  if !digits.isEmpty && digits.all fun c => isHexDigit c && digitOf c < base then
    .ok (Text.natOfDigits base (digits.map digitOf))
  else .error (rejected (.integerLiteral base (Text.literal (String.ofList digits))))

def decimalNumber (digits : List Char) : Except Error Int :=
  match Text.readInteger? digits with
  | some (.ok n) => .ok n
  | some (.error e) => .error (rejected (.digitLimit e))
  | none => .error (rejected (.integerLiteral 10 (Text.literal (String.ofList digits))))

def sixties (parts : List Int) : Int := parts.foldl (fun n part => n * 60 + part) 0

def integer (text : String) : Except Error Int := do
  let digits := text.toList.filter (· != '_')
  if digits.isEmpty then throw (.fault .noItem)
  let sign : Int := if startsWith (· == '-') digits then -1 else 1
  match unsigned digits with
  | [] => throw (.fault .noItem)
  | ['0'] => return 0
  | '0' :: 'b' :: rest => return sign * (← basedNumber 2 rest)
  | '0' :: 'x' :: rest => return sign * (← basedNumber 16 rest)
  | '0' :: rest => return sign * (← basedNumber 8 ('0' :: rest))
  | body =>
    if body.contains ':' then return sign * sixties (← (body.splitOn ':').mapM decimalNumber)
    else return sign * (← decimalNumber body)

def floatPart (cs : List Char) : Except Error Float :=
  match Decimal.readDouble? (Text.trim cs) with
  | some x => .ok x
  | none => .error (rejected (.floatLiteral (Text.literal (String.ofList cs))))

/-- The sum is taken from the last part on. -/
def floatSixties (parts : List Float) : Float :=
  (parts.reverse.foldl (fun (x, base) part => (x + part * Float.ofNat base, base * 60)) ((0.0 : Float), 1)).1

def float (text : String) : Except Error Float := do
  let cs := (text.toList.filter (· != '_')).map Char.toLower
  if cs.isEmpty then throw (.fault .noItem)
  let sign : Float := if startsWith (· == '-') cs then -1.0 else 1.0
  let body := unsigned cs
  match String.ofList body with
  | ".inf" => return sign * (1.0 / 0.0)
  | ".nan" => return 0.0 / 0.0
  | _ =>
    if body.contains ':' then return sign * floatSixties (← (body.splitOn ':').mapM floatPart)
    else return sign * (← floatPart body)

def calendar (check : Except CalendarError Unit) : Except Error Unit :=
  check.mapError fun e => rejected (.calendar e)

def moment (text : String) : Except Error Moment :=
  match momentFields? text.toList with
  | none => .error (.fault .noMember)
  | some ⟨date, none⟩ => do
    calendar date.check
    return .date date
  | some ⟨date, some (clock, offset)⟩ => do
    if let some seconds := offset then calendar (checkOffset seconds)
    calendar date.check
    calendar clock.check
    return .stamp date clock offset

def bool (text : String) : Except Error Bool :=
  let word := String.ofList (Text.lower text.toList)
  match truthValues.lookup word with
  | some b => .ok b
  | none => .error (.fault (.missingKey (Text.literal word)))

def scalarValue (tag : Tag) (text : String) : Except Error Value :=
  match tag with
  | .null => .ok .null
  | .bool => .bool <$> bool text
  | .int => .int <$> integer text
  | .float => .float <$> float text
  | .moment => .moment <$> moment text
  | .text => .ok (.text text)
  | .binary =>
    match bytes? text with
    | some bytes => .ok (bytesValue bytes)
    | none => .error .invalid
  | .sequence | .mapping | .set | .pairs | .merge | .equals | .other => .error .invalid

mutual

def Node.value : Node → Except Error Value
  | .scalar tag text => scalarValue tag text
  | .sequence .sequence items => .list <$> itemValues items
  | .sequence .pairs items => .list <$> pairValues items
  | .sequence .. => .error .invalid
  | .mapping .mapping entries => .map <$> entryValues [] entries
  | .mapping .set entries => do return setValue (Settings.keys (← entryValues [] entries))
  | .mapping tag entries =>
    match defaultText? entries with
    | some text => scalarValue tag text
    | none => .error .invalid
termination_by structural node => node

def itemValues : List Node → Except Error (List Value)
  | [] => .ok []
  | item :: rest => do
    let value ← item.value
    return value :: (← itemValues rest)
termination_by structural items => items

def pairValues : List Node → Except Error (List Value)
  | [] => .ok []
  | .mapping _ [(k, v)] :: rest => do
    let key ← k.value
    let value ← v.value
    return .tuple [key, value] :: (← pairValues rest)
  | _ :: _ => .error .invalid
termination_by structural items => items

def entryValues (found : Settings) : List (Node × Node) → Except Error Settings
  | [] => .ok found
  | (k, v) :: rest => do
    let key ← k.value
    if !key.isHashable then throw .invalid
    let value ← v.value
    entryValues (found.insert key value) rest
termination_by structural entries => entries

end

structure Preamble where
  hasVersion : Bool := false
  handles : Node.Handles := []

/-- Of each directive there is one, and the version is 1. -/
def Preamble.add (p : Preamble) : Directive → Except Error Preamble
  | .version major => if p.hasVersion || major != 1 then .error .invalid else .ok { p with hasVersion := true }
  | .handle name value =>
    if (p.handles.lookup name).isSome then .error .invalid
    else .ok { p with handles := (name, value) :: p.handles }
  | .other => .ok p

def preamble (p : Preamble) : List Token → Except Error (Preamble × List Token)
  | .directive d :: rest => do preamble (← p.add d) rest
  | ts => .ok (p, ts)

def finish (tokens : List Token) : Except Error Unit :=
  let after := tokens.dropWhile fun
    | .documentEnd => true
    | _ => false
  match after with
  | [.streamEnd] => .ok ()
  | ts => .error (Node.unexpected ts)

def endsDocument : List Token → Bool
  | .directive _ :: _ | .documentStart :: _ | .documentEnd :: _ | .streamEnd :: _ => true
  | _ => false

def root (tokens : List Token) : Except Error (Option Node) := do
  let content (handles : Node.Handles) (tokens : List Token) : Except Error (Option Node) := do
    let (node, r) ← Node.read handles true false { tokens }
    finish r.tokens
    return some node
  match tokens with
  | .streamEnd :: _ => return none
  | .directive _ :: _ | .documentStart :: _ =>
    let (p, after) ← preamble {} tokens
    match after with
    | .documentStart :: rest =>
      if endsDocument rest then
        finish rest
        return some .empty
      else content (p.handles ++ Node.defaultHandles) rest
    | ts => throw (Node.unexpected ts)
  | _ => content Node.defaultHandles tokens

def blockSize : Nat := 4096

/-- A fault in the blocks before the one with a place that cannot be read. -/
def faultBefore? (text : List Char) (place : Nat) : Option Fault :=
  match root (tokens (text.take (place / blockSize * blockSize))) with
  | .error (.fault f) => some f
  | _ => none

def read (text : List Char) : Except Error Value := do
  let readable := text.takeWhile isPrintable
  if readable.length < text.length then throw ((faultBefore? text readable.length).elim .invalid .fault)
  match ← root (tokens text) with
  | none => return .null
  | some node => (← node.expand).value

def load (bytes : List UInt8) : Except Error Value := do
  let (chars, flaw) := Text.decodeUtf8Stream bytes
  let text := Text.unifyLineEnds chars
  if let some e := flaw then throw (.fault ((faultBefore? text text.length).getD (.undecodable e)))
  read text

class Loader where
  load : List UInt8 → Except Error Value

instance : Loader := ⟨load⟩

end Stanza.Yaml
