import Stanza.Error.Fault
import Stanza.Value.Basic

/-!
# Computations with warnings

A computation gives warnings, in order, and then a result or a fault. The warnings before a fault are kept.
-/

namespace Stanza

inductive Source where
  | schema
  | database
  | retirements
  deriving DecidableEq

def Source.logger : Source → String
  | .schema => "pdbconf.config.schema"
  | .database => "pdbconf.config.database"
  | .retirements => "pdbconf.config.retirements"

structure Warning where
  source : Source
  message : String
  /-- The section at fault, if the warning names one. -/
  heading? : Option String := none
  /-- The key at fault, if the warning names one. -/
  key? : Option Value := none

structure Logged (α : Type) where
  warnings : List Warning
  result : Except Fault α

namespace Logged

def bind (x : Logged α) (f : α → Logged β) : Logged β :=
  match x.result with
  | .ok a => let y := f a; ⟨x.warnings ++ y.warnings, y.result⟩
  | .error e => ⟨x.warnings, .error e⟩

instance : Monad Logged where
  pure a := ⟨[], .ok a⟩
  bind := bind

instance : MonadLift (Except Fault) Logged where
  monadLift r := ⟨[], r⟩

def warn (ws : List Warning) : Logged Unit := ⟨ws, .ok ()⟩

def fail (e : Fault) : Logged α := ⟨[], .error e⟩

end Logged

end Stanza
