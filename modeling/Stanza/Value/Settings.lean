import Stanza.Value.Same

/-!
# Settings

Look-up and change of mappings. A key written twice keeps its place and takes the later value.
-/

namespace Stanza.Settings

def hasName (name : String) : Value × Value → Bool
  | (.text s, _) => s == name
  | _ => false

def get? (es : Settings) (name : String) : Option Value := (es.find? (hasName name)).map (·.2)

def has (es : Settings) (name : String) : Bool := es.any (hasName name)

def get (es : Settings) (name : String) : Value := (es.get? name).getD .null

def find? (es : Settings) (key : Value) : Option Value :=
  (List.find? (fun e => e.1.same key) es).map (·.2)

def insert (es : Settings) (key value : Value) : Settings :=
  match es with
  | [] => [(key, value)]
  | e :: rest => if e.1.same key then (e.1, value) :: rest else e :: insert rest key value

def set (es : Settings) (name : String) (value : Value) : Settings := es.insert (.text name) value

def setDefault (es : Settings) (name : String) (value : Value) : Settings :=
  if es.has name then es else es.set name value

def erase (es : Settings) (name : String) : Settings := es.filter fun e => !hasName name e

def ofPairs (pairs : List (Value × Value)) : Settings := pairs.foldl (fun es (k, v) => insert es k v) []

/-- Later settings laid over earlier ones. -/
def overlay (under above : Settings) : Settings := above.foldl (fun es (k, v) => insert es k v) under

def keys (es : Settings) : List Value := es.map (·.1)

end Stanza.Settings
