import Stanza.Text.Blank
import Stanza.Text.Case
import Stanza.Value.Basic

/-!
# Redaction of settings

A setting whose key names a secret is hidden where a configuration is shown. A mapping under such a key is
not hidden itself; its settings are looked at one by one.
-/

namespace Stanza.Redaction

def mark : String := "<redacted>"

def sensitiveWords : List String :=
  ["secret", "token", "password", "passwd", "credential", "credentials"]

def isSmall (c : Char) : Bool := c.isLower || c.isDigit

/-- Puts an underscore between a small letter or digit and a capital. -/
def splitCapitals : List Char → List Char
  | a :: b :: rest =>
    if isSmall a && b.isUpper then a :: '_' :: splitCapitals (b :: rest) else a :: splitCapitals (b :: rest)
  | cs => cs

/-- The words of a key: runs of ASCII letters and digits, a capital after a small letter starting a new one. -/
def words (key : List Char) : List (List Char) :=
  ((Text.lower (splitCapitals (Text.trim key))).splitOnP (!isSmall ·)).filter (!·.isEmpty)

def isSensitive (key : String) : Bool :=
  (words key.toList).any fun w => sensitiveWords.contains (String.ofList w)

def isSensitiveKey : Value → Bool
  | .text key => isSensitive key
  | _ => false

mutual

def redactValue : Value → Value
  | .map entries => .map (redactEntries entries)
  | .list items | .tuple items => .list (redactItems items)
  | value => value
termination_by structural x => x

def redactItems : List Value → List Value
  | [] => []
  | x :: xs => redactValue x :: redactItems xs
termination_by structural xs => xs

def redactEntries : List (Value × Value) → List (Value × Value)
  | [] => []
  | (key, value) :: rest =>
    (key, if isSensitiveKey key && !value.isMap then .text mark else redactValue value) :: redactEntries rest
termination_by structural es => es

end

/-- A mapping without its secrets; nothing is left of any other value. -/
def redact : Value → Value
  | .map entries => .map (redactEntries entries)
  | _ => .map []

end Stanza.Redaction
