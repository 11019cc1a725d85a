import Stanza.File.Yaml.Cursor
import Stanza.Text.Integer
import Stanza.Text.Utf8

/-!
# Anchors, tags and directives

The names that YAML text gives to nodes and types. A tag is written in full, or as a handle and a suffix.
-/

namespace Stanza.Yaml

structure TagName where
  handle : Option String
  suffix : String

inductive Directive where
  | version (major : Nat)
  | handle (name value : String)
  | other

def endsAnchor (cs : List Char) : Bool := atGap cs || startsWith ("?:,]\x7d%@\x60".toList.contains ·) cs

def anchorName (cs : List Char) : Except Error (String × List Char) :=
  let name := cs.takeWhile isNameChar
  let after := cs.dropWhile isNameChar
  if name.isEmpty || !endsAnchor after then .error .invalid else .ok (String.ofList name, after)

def isUriChar (c : Char) : Bool := c.isAlphanum || "-;/?:@&=+$,_.!~*'()[]".toList.contains c

def uriBytes : List Char → Except Error (List UInt8 × List Char)
  | '%' :: a :: b :: rest =>
    if isHexDigit a && isHexDigit b then do
      let (bytes, after) ← uriBytes rest
      return (UInt8.ofNat (digitOf a * 16 + digitOf b) :: bytes, after)
    else .error .invalid
  | '%' :: _ => .error .invalid
  | cs => .ok ([], cs)

def uriChars (cs : List Char) : Except Error (List Char × List Char) := do
  match cs with
  | [] => return ([], [])
  | c :: rest =>
    if c == '%' then
      let (bytes, after) ← uriBytes cs
      match Text.decodeUtf8 bytes with
      | .error _ => throw .invalid
      | .ok text =>
        if after.length ≤ rest.length then
          let (more, after) ← uriChars after
          return (text ++ more, after)
        else throw .invalid
    else if isUriChar c then
      let (more, after) ← uriChars rest
      return (c :: more, after)
    else return ([], cs)
termination_by cs.length

def uri (cs : List Char) : Except Error (String × List Char) := do
  let (text, after) ← uriChars cs
  if after.length = cs.length then throw .invalid
  return (String.ofList text, after)

def handle : List Char → Except Error (String × List Char)
  | '!' :: rest =>
    if startsWith (· == ' ') rest then .ok ("!", rest)
    else
      match rest.dropWhile isNameChar with
      | '!' :: after => .ok ("!" ++ String.ofList (rest.takeWhile isNameChar) ++ "!", after)
      | _ => .error .invalid
  | _ => .error .invalid

def tagName (cs : List Char) : Except Error (TagName × List Char) := do
  let (name, after) ←
    match cs with
    | '<' :: rest =>
      let (suffix, after) ← uri rest
      match after with
      | '>' :: after => pure (⟨none, suffix⟩, after)
      | _ => throw .invalid
    | _ =>
      if atGap cs then pure (⟨none, "!"⟩, cs)
      else
        let isHandled := (cs.takeWhile fun c => c != ' ' && !isLineEnd c).contains '!'
        let (h, after) ← if isHandled then handle ('!' :: cs) else pure ("!", cs)
        let (suffix, after) ← uri after
        pure ((⟨some h, suffix⟩ : TagName), after)
  if atSpace after then return (name, after) else throw .invalid

def directiveNumber (cs : List Char) : Except Error (Nat × List Char) := do
  let digits := cs.takeWhile Char.isDigit
  if digits.isEmpty then throw .invalid
  let n ← (Text.readDigits (digits.map digitOf)).mapError fun e => Error.fault (.rejected (.digitLimit e))
  return (n, cs.dropWhile Char.isDigit)

def versionNumber (cs : List Char) : Except Error (Directive × List Char) := do
  let (major, after) ← directiveNumber cs
  match after with
  | '.' :: rest =>
    let (_, after) ← directiveNumber rest
    if atSpace after then return (.version major, after) else throw .invalid
  | _ => throw .invalid

def handleMeaning (cs : List Char) : Except Error (Directive × List Char) := do
  let (name, after) ← handle cs
  if !startsWith (· == ' ') after then throw .invalid
  let (value, after) ← uri (after.dropWhile (· == ' '))
  if atSpace after then return (.handle name value, after) else throw .invalid

def directive (cs : List Char) : Except Error (Directive × List Char) := do
  let name := cs.takeWhile isNameChar
  let after := cs.dropWhile isNameChar
  if name.isEmpty || !atSpace after then throw .invalid
  let value := after.dropWhile (· == ' ')
  let (d, after) ←
    match String.ofList name with
    | "YAML" => versionNumber value
    | "TAG" => handleMeaning value
    | _ => pure (.other, after.dropWhile (!isLineEnd ·))
  return (d, ← restOfLine after)

end Stanza.Yaml
