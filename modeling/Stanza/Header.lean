import Stanza.Error.Config
import Stanza.Text.Quoted

/-!
# Section headers

A header is `[section]` or `[section "subsection"]`. Section names are ASCII letters, digits and hyphens;
inside the quotes a backslash stands before a quote or a backslash that is meant literally.
-/

namespace Stanza

structure Header where
  name : String
  subsection : Option String := none
  deriving DecidableEq

inductive HeaderFlaw where
  | name
  | openingQuote
  | closingQuote
  deriving DecidableEq

namespace Header

def isNameChar (c : Char) : Bool := c.isAlphanum || c == '-'

def isGap (c : Char) : Bool := c == ' ' || c == '\t'

/-- Control characters other than tab to carriage return are not allowed in a subsection. -/
def isForbidden (c : Char) : Bool :=
  c.toNat ≤ 0x8 || (0xe ≤ c.toNat && c.toNat ≤ 0x1f) || c.toNat == 0x7f

/-- What follows the gap after the section name; a gap of at least two with nothing after it yields its
last blank. -/
def afterGap (cs : List Char) : Option (List Char) :=
  match cs.dropWhile isGap with
  | [] => if cs.length ≤ 1 then none else some (cs.drop (cs.length - 1))
  | rest => if (cs.takeWhile isGap).isEmpty then none else some rest

def splitName (cs : List Char) : Option (List Char × Option (List Char)) :=
  match cs.takeWhile isNameChar, cs.dropWhile isNameChar with
  | [], _ => none
  | name, [] => some (name, none)
  | name, rest =>
    match afterGap rest with
    | some sub => if sub.any isForbidden then none else some (name, some sub)
    | none => none

/-- Whether the last character is a quote after an even number of backslashes. -/
def endsInQuote (cs : List Char) : Bool :=
  match cs.reverse with
  | '"' :: before => (before.takeWhile (· == '\\')).length % 2 == 0
  | _ => false

def unquote : List Char → Except HeaderFlaw (List Char)
  | '"' :: rest => if endsInQuote rest then .ok (Text.unescape rest.dropLast) else .error .closingQuote
  | _ => .error .openingQuote

def unbracket? : List Char → Option (List Char)
  | '[' :: rest => if rest.getLast? = some ']' then some rest.dropLast else none
  | _ => none

def read (cs : List Char) : Except HeaderFlaw Header :=
  match (unbracket? cs).bind splitName with
  | none => .error .name
  | some (name, none) => .ok { name := String.ofList name }
  | some (name, some sub) => do
    let subsection ← unquote sub
    return { name := String.ofList name, subsection := some (String.ofList subsection) }

end Header

def HeaderFlaw.message (header : String) : HeaderFlaw → String
  | .name => "error: invalid section name " ++ Text.quoted header
  | .openingQuote => "error: config subsection " ++ Text.quoted header ++ " must start with a double-quote"
  | .closingQuote =>
    "error: config subsection " ++ Text.quoted header ++ " must end with an unescaped double-quote"

namespace Header

def parse (header : String) : Except ConfigError Header :=
  (read header.toList).mapError fun flaw => { kind := .grammar, message := flaw.message header }

def label (h : Header) : String :=
  match h.subsection with
  | none => h.name
  | some sub => h.name ++ " " ++ Text.quoted sub

def format (h : Header) : String := "[" ++ h.label ++ "]"

end Header

end Stanza
