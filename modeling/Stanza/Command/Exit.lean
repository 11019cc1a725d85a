import Stanza.Error.Fault

/-!
# Exit codes

What the exit code of the program says, and which one a failure has: a failure of the configuration or of its files, or
one that stems from such a failure, is told apart from the others.
-/

namespace Stanza

namespace Command

inductive ExitCode where
  | success
  | retired
  | misconfigured
  | internal
  deriving DecidableEq

namespace ExitCode

def number : ExitCode → Nat
  | .success => 0
  | .retired => 1
  | .misconfigured => 2
  | .internal => 4

def all : List ExitCode := [.success, .retired, .misconfigured, .internal]

end ExitCode

inductive FailureKind where
  | config
  | load
  | fileNotFound
  | notDirectory
  | notPermitted
  | other
  deriving DecidableEq

def FailureKind.isConfiguration : FailureKind → Bool
  | .other => false
  | _ => true

inductive Link where
  /-- The next one is its cause. -/
  | cause
  /-- It came up while the next one was dealt with. -/
  | context
  /-- The same, but the next one is not to be shown. -/
  | suppressed
  | none
  deriving DecidableEq

def Link.isFollowed : Link → Bool
  | .cause | .context => true
  | .suppressed | .none => false

/-- The exit code of a failure, the first of a chain in which each is tied to the next and the last to the
first. -/
def ExitCode.ofChain : List (FailureKind × Link) → ExitCode
  | [] => .internal
  | (kind, link) :: rest =>
    if kind.isConfiguration then .misconfigured
    else if link.isFollowed then ofChain rest
    else .internal

/-- The end of a run that gave a value for its exit code: that value if it is an exit code already, or
success for none. A text is an error message. -/
def settle : Value → Value × String
  | .bool b => (.bool b, "")
  | .int n =>
    if ExitCode.all.any fun code => (code.number : Int) == n then (.int n, "")
    else (.int ExitCode.internal.number, "")
  | .null => (.int ExitCode.success.number, "")
  | .text s =>
    match Text.trim s.toList with
    | [] => (.int ExitCode.internal.number, "")
    | message => (.int ExitCode.internal.number, String.ofList message ++ "\n")
  | _ => (.int ExitCode.internal.number, "")

end Command

open Command

def SystemError.kind (e : SystemError) : FailureKind :=
  match e.number with
  | 2 => .fileNotFound
  | 20 => .notDirectory
  | 1 | 13 => .notPermitted
  | _ => .other

def LoadError.cause? : LoadError → Option FailureKind
  | .invalidIni .. | .invalidToml _ | .invalidYaml _ | .unreadable .. => some .other
  | .unopened _ e => some e.kind
  | _ => none

def Fault.chain : Fault → List (FailureKind × Link)
  | .config _ => [(.config, .none)]
  | .load e =>
    match e.cause? with
    | some cause => [(.load, .cause), (cause, .none)]
    | none => [(.load, .none)]
  | .system e => [(e.kind, .none)]
  | _ => [(.other, .none)]

end Stanza
