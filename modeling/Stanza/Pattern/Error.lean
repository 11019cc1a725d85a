import Stanza.Text.Integer
import Stanza.Text.Literal

/-!
# Errors in patterns

What is wrong with a pattern and where. Lines and columns are given only for a pattern of several lines.
-/

namespace Stanza.Pattern

inductive Flaw where
  | danglingBackslash
  | missing (what : String)
  | unterminatedName (closing : Char)
  | badEscape (escape : String)
  | incompleteEscape (escape : String)
  | octalTooLarge (escape : String)
  | unknownCharacter (shown : String)
  | openGroup
  | groupOfSameLook
  | noGroup (number : Nat)
  | unterminatedSet
  | badRange (first last : String)
  | reversedRepeat
  | nothingToRepeat
  | multipleRepeat
  | unexpectedEnd
  | groupName (shown : String)
  | unknownName (shown : String)
  | redefinedName (shown : String) (number old : Nat)
  | groupNumber
  | unknownExtension (extension : String)
  | unterminatedComment
  | unterminatedGroup
  | threeBranches
  | unbalanced
  | lateFlags
  | unknownFlag
  | localeFlag
  | charsetFlags
  | charsetFlagOff
  | wholeFlagOn
  | wholeFlagOff
  | contradictoryFlag
  | unboundedLookBehind
  | distantLookBehind
  | templateRepeat (operator : String)

def Flaw.message : Flaw → String
  | .danglingBackslash => "bad escape (end of pattern)"
  | .missing what => "missing " ++ what
  | .unterminatedName closing => "missing " ++ String.ofList [closing] ++ ", unterminated name"
  | .badEscape escape => "bad escape " ++ escape
  | .incompleteEscape escape => "incomplete escape " ++ escape
  | .octalTooLarge escape => "octal escape value " ++ escape ++ " outside of range 0-0o377"
  | .unknownCharacter shown => "undefined character name " ++ shown
  | .openGroup => "cannot refer to an open group"
  | .groupOfSameLook => "cannot refer to group defined in the same lookbehind subpattern"
  | .noGroup number => "invalid group reference " ++ toString number
  | .unterminatedSet => "unterminated character set"
  | .badRange first last => "bad character range " ++ first ++ "-" ++ last
  | .reversedRepeat => "min repeat greater than max repeat"
  | .nothingToRepeat => "nothing to repeat"
  | .multipleRepeat => "multiple repeat"
  | .unexpectedEnd => "unexpected end of pattern"
  | .groupName shown => "bad character in group name " ++ shown
  | .unknownName shown => "unknown group name " ++ shown
  | .redefinedName shown number old =>
    "redefinition of group name " ++ shown ++ " as group " ++ toString number ++ "; was group " ++ toString old
  | .groupNumber => "bad group number"
  | .unknownExtension extension => "unknown extension " ++ extension
  | .unterminatedComment => "missing ), unterminated comment"
  | .unterminatedGroup => "missing ), unterminated subpattern"
  | .threeBranches => "conditional backref with more than two branches"
  | .unbalanced => "unbalanced parenthesis"
  | .lateFlags => "global flags not at the start of the expression"
  | .unknownFlag => "unknown flag"
  | .localeFlag => "bad inline flags: cannot use 'L' flag with a str pattern"
  | .charsetFlags => "bad inline flags: flags 'a', 'u' and 'L' are incompatible"
  | .charsetFlagOff => "bad inline flags: cannot turn off flags 'a', 'u' and 'L'"
  | .wholeFlagOn => "bad inline flags: cannot turn on global flag"
  | .wholeFlagOff => "bad inline flags: cannot turn off global flag"
  | .contradictoryFlag => "bad inline flags: flag turned on and off"
  | .unboundedLookBehind => "look-behind requires fixed-width pattern"
  | .distantLookBehind => "looks too much behind"
  | .templateRepeat operator => "internal: unsupported template operator " ++ operator

inductive Error where
  | malformed (flaw : Flaw) (position : Option Nat)
  /-- A number of repetitions that cannot be counted. -/
  | repetition
  /-- A number of repetitions that cannot be read. -/
  | digitLimit (e : Text.DigitLimitError)
  /-- The whole pattern is to be both ASCII and Unicode. -/
  | charset

def Flaw.describe (source : String) (flaw : Flaw) (position : Option Nat) : String :=
  match position with
  | none => flaw.message
  | some p =>
    let before := source.toList.take p
    let at_ := flaw.message ++ " at position " ++ toString p
    if source.toList.contains '\n' then
      let line := before.count '\n' + 1
      let column := (before.reverse.takeWhile (· != '\n')).length + 1
      at_ ++ " (line " ++ toString line ++ ", column " ++ toString column ++ ")"
    else at_

end Stanza.Pattern
