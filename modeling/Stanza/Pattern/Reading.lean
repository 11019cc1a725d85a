import Stanza.Pattern.Escape
import Stanza.Text.Blank
import Stanza.Text.Word

/-!
# Reading patterns

A reader stands before a token with the groups that are still open on a stack. Each step takes at least one
token, opens a group, closes one or adds to the innermost.
-/

namespace Stanza.Pattern

inductive Opening where
  | whole
  | group (number : Option Nat) (on off : Flags)
  | atomic
  /-- Whether it looks behind and is negated, and the limit on references outside of it. -/
  | look (behind negated : Bool) (outer : Option Nat)
  | condition (group : Nat)

/-- An open group: where it starts, and its finished alternatives and last nodes, latest first. -/
structure Frame where
  opening : Opening
  start : Nat
  verbose : Bool
  done : List (List Node) := []
  items : List Node := []

structure Reader where
  source : Source
  frame : Frame
  outer : List Frame := []
  flags : Flags := []
  names : List (String × Nat) := []
  /-- The widths of the groups from the first on, where they are closed. -/
  widths : List (Option Width) := []
  /-- Inside a look-behind, the first group that it cannot refer to. -/
  behindLimit : Option Nat := none
  /-- The numbers of groups in conditions, with their positions. -/
  conditions : List (Nat × Nat) := []

namespace Reader

def groups (r : Reader) : Nat := r.widths.length + 1

def width? (r : Reader) (group : Nat) : Option Width := (r.widths[group - 1]?).join

def widthOf (r : Reader) (group : Nat) : Width := (r.width? group).getD ⟨0, 0⟩

def isClosed (r : Reader) (group : Nat) : Bool := group == 0 || (r.width? group).isSome

def push (r : Reader) (n : Node) : Reader :=
  { r with frame := { r.frame with items := n :: r.frame.items } }

def fail (r : Reader) (flaw : Flaw) (back : Nat) : Except Error α := r.source.fail flaw back

def failAt (_r : Reader) (flaw : Flaw) (position : Nat) : Except Error α :=
  .error (.malformed flaw (some position))

def enter (r : Reader) (opening : Opening) (start : Nat) (verbose : Bool) : Reader :=
  { r with frame := { opening, start, verbose }, outer := r.frame :: r.outer }

/-- Refuses a reference from a look-behind to a group that is open or inside of it. -/
def checkBehind (r : Reader) (group : Nat) : Except Error Unit :=
  match r.behindLimit with
  | none => .ok ()
  | some limit =>
    if !r.isClosed group then r.fail .openGroup 0
    else if limit ≤ group then r.fail .groupOfSameLook 0
    else .ok ()

def escape (r : Reader) (c : Char) : Except Error Reader := do
  if let some a := anchor? c then return r.push (.anchor a)
  else if let some m := category? c then return r.push (.set false [m])
  else if let some n := namedEscape? c then return r.push (.char n)
  else if c == '0' then
    let (more, source) ← r.source.takeWhile 2 isOctalDigit
    return { r with source }.push (.char (readOctal (c :: more)))
  else if c.isDigit then
    let (what, source) ← r.source.numberEscape c
    let r := { r with source }
    match what with
    | .inl n => return r.push (.char n)
    | .inr digits =>
      let group := Text.natOfDigits 10 (digits.map hexDigitValue)
      if r.groups ≤ group then r.fail (.noGroup group) digits.length
      else if !r.isClosed group then r.fail .openGroup (digits.length + 1)
      else
        r.checkBehind group
        return r.push (.reference group)
  else
    let (n, source) ← r.source.charEscape c
    return { r with source }.push (.char n)

def member (source : Source) (token : Token) : Except Error (Member × Source) :=
  match token with
  | '\\' :: c :: _ => source.setEscape c
  | c :: _ => .ok (.char c.toNat, source)
  | [] => .ok (.char 0, source)

/-- Members of a set up to its closing bracket. A bracket that comes first is a member. -/
def members (start : Nat) (source : Source) (found : List Member) : Except Error (List Member × Source) := do
  let unterminated : Except Error (List Member × Source) :=
    .error (.malformed .unterminatedSet (some start))
  match source.rest with
  | [] => unterminated
  | token :: _ =>
    let after ← source.drop 1
    if token == [']'] && !found.isEmpty then return (found.reverse, after)
    else
      let (low, after) ← member after token
      let (dashed, after) ← after.accept '-'
      if !dashed then
        if after.rest.length < source.rest.length then members start after (low :: found) else unterminated
      else
        match after.rest with
        | [] => unterminated
        | [']'] :: _ => return ((.char '-'.toNat :: low :: found).reverse, ← after.drop 1)
        | last :: _ =>
          let (high, after) ← member (← after.drop 1) last
          let bad : Except Error (List Member × Source) :=
            after.fail (.badRange (String.ofList token) (String.ofList last)) (token.length + 1 + last.length)
          match low, high with
          | .char a, .char b =>
            if b < a then bad
            else if after.rest.length < source.rest.length then members start after (.range a b :: found)
            else unterminated
          | _, _ => bad
termination_by source.rest.length

def set (r : Reader) : Except Error Reader := do
  let start := r.source.position - 1
  let (negated, source) ← r.source.accept '^'
  let (found, source) ← members start source []
  return { r with source }.push (.set negated found)

def repeatCount (digits : List Char) : Except Error (Option Nat) := do
  if digits.isEmpty then return none
  let n ← (Text.readDigits (digits.map hexDigitValue)).mapError .digitLimit
  if n ≥ 4294967295 then throw .repetition
  return some n

/-- The numbers in braces and the source after them; `none` if the brace stands for itself. -/
def bounds? (source : Source) : Except Error (Option ((Nat × Option Nat) × Source)) := do
  if source.next? = some ['}'] then return none
  let start := source.position
  let (low, source) ← source.takeWhile source.rest.length isAsciiDigit
  let (comma, source) ← source.accept ','
  let (high, source) ← if comma then source.takeWhile source.rest.length isAsciiDigit else pure (low, source)
  let (closed, source) ← source.accept '}'
  if !closed then return none
  let min ← repeatCount low
  let max ← repeatCount high
  if max.any (· < min.getD 0) then throw (.malformed .reversedRepeat (some start))
  return some ((min.getD 0, max), source)

def repeatLast (r : Reader) (position : Nat) (min : Nat) (max : Option Nat) : Except Error Reader := do
  match r.frame.items with
  | [] | .anchor _ :: _ => r.failAt .nothingToRepeat position
  | .repeat .. :: _ => r.failAt .multipleRepeat position
  | item :: items =>
    let (lazy, source) ← r.source.accept '?'
    let (possessive, source) ← if lazy then pure (false, source) else source.accept '+'
    let greed : Greed := if lazy then .lazy else if possessive then .possessive else .greedy
    let frame := { r.frame with items := .repeat greed min max [item] :: items }
    return { r with source, frame }

def repetition (r : Reader) (c : Char) : Except Error Reader := do
  let position := r.source.position - 1
  match c with
  | '?' => r.repeatLast position 0 (some 1)
  | '*' => r.repeatLast position 0 none
  | '+' => r.repeatLast position 1 none
  | _ =>
    match ← bounds? r.source with
    | none => return r.push (.char c.toNat)
    | some ((min, max), source) =>
      let r := { r with source }
      r.repeatLast position min max

def flagsOn (source : Source) (on : Flags) (c : Char) : Except Error (Flags × Char × Source) := do
  match Flag.ofChar? c with
  | none => return (on, c, source)
  | some flag =>
    if flag == .locale then source.fail .localeFlag 0
    else
      let on := if on.contains flag then on else on ++ [flag]
      if flag.isCharset && on.any (fun f => f.isCharset && f != flag) then source.fail .charsetFlags 0
      else
        match source.rest with
        | [] => source.fail (.missing "-, : or )") 0
        | token :: _ =>
          let after ← source.drop 1
          match token with
          | [d] =>
            if d == ')' || d == '-' || d == ':' then return (on, d, after)
            else if (Flag.ofChar? d).isSome then
              if after.rest.length < source.rest.length then flagsOn after on d
              else after.fail .unknownFlag 1
            else if Text.isLetter d then after.fail .unknownFlag 1
            else after.fail (.missing "-, : or )") 1
          | _ => after.fail (.missing "-, : or )") token.length
termination_by source.rest.length

def flagsOff (source : Source) (off : Flags) (what : String) : Except Error (Flags × Source) := do
  match source.rest with
  | [] => source.fail (.missing what) 0
  | token :: _ =>
    let after ← source.drop 1
    if token == [':'] && !off.isEmpty then return (off, after)
    else
      match token with
      | [c] =>
        match Flag.ofChar? c with
        | some flag =>
          if flag.isCharset then after.fail .charsetFlagOff 0
          else if after.rest.length < source.rest.length then
            flagsOff after (if off.contains flag then off else off ++ [flag]) ":"
          else after.fail .unknownFlag 1
        | none => if Text.isLetter c then after.fail .unknownFlag 1 else after.fail (.missing what) 1
      | _ => after.fail (.missing what) token.length
termination_by source.rest.length

def flagGroup (r : Reader) (start : Nat) (c : Char) : Except Error Reader := do
  let (on, c, source) ← if c == '-' then pure ([], c, r.source) else flagsOn r.source [] c
  if c == ')' then
    let first := r.outer.isEmpty && r.frame.done.isEmpty && r.frame.items.isEmpty
    let flags := r.flags ++ on
    if !first then r.failAt .lateFlags start
    else return { r with source, flags, frame := { r.frame with verbose := flags.contains .verbose } }
  else if on.contains .template then source.fail .wholeFlagOn 1
  else
    let (off, source) ← if c == '-' then flagsOff source [] "flag" else pure ([], source)
    if off.contains .template then source.fail .wholeFlagOff 1
    else if on.any off.contains then source.fail .contradictoryFlag 1
    else
      let verbose := (r.frame.verbose || on.contains .verbose) && !off.contains .verbose
      return { r with source }.enter (.group none on off) start verbose

def isNameStart (c : Char) : Bool := c == '_' || Text.isLetter c

def isName (name : List Char) : Bool :=
  match name with
  | [] => false
  | c :: rest => isNameStart c && rest.all Text.isWordChar

def checkName (source : Source) (name : List Char) : Except Error Unit :=
  if isName name then .ok ()
  else source.fail (.groupName (Text.literal (String.ofList name))) (name.length + 1)

def capture (r : Reader) (start : Nat) (name : Option (List Char)) : Except Error Reader := do
  let number := r.groups
  let widths := r.widths ++ [none]
  let r := { r with widths }
  let opened := fun r : Reader => r.enter (.group (some number) [] []) start r.frame.verbose
  match name with
  | none => return opened r
  | some name =>
    let text := String.ofList name
    match r.names.lookup text with
    | some old => r.fail (.redefinedName (Text.literal text) number old) (name.length + 1)
    | none => return opened { r with names := r.names ++ [(text, number)] }

def named (r : Reader) (start : Nat) : Except Error Reader := do
  match r.source.rest with
  | [] => r.fail .unexpectedEnd 0
  | ['<'] :: _ =>
    let (name, source) ← (← r.source.drop 1).takeUntil '>' "group name"
    checkName source name
    { r with source }.capture start (some name)
  | ['='] :: _ =>
    let (name, source) ← (← r.source.drop 1).takeUntil ')' "group name"
    checkName source name
    let r := { r with source }
    match r.names.lookup (String.ofList name) with
    | none => r.fail (.unknownName (Text.literal (String.ofList name))) (name.length + 1)
    | some group =>
      if !r.isClosed group then r.fail .openGroup (name.length + 1)
      else
        r.checkBehind group
        return r.push (.reference group)
  | token :: _ =>
    (← r.source.drop 1).fail (.unknownExtension ("?P" ++ String.ofList token)) (token.length + 2)

def comment (r : Reader) (start : Nat) : Except Error Reader := do
  let body := r.source.rest.takeWhile (· != [')'])
  if body.length == r.source.rest.length then
    let _ ← r.source.drop body.length
    r.failAt .unterminatedComment start
  else return { r with source := ← r.source.drop (body.length + 1) }

def groupLimit : Nat := 1073741823

def condition (r : Reader) (start : Nat) : Except Error Reader := do
  let (name, source) ← r.source.takeUntil ')' "group name"
  let r := { r with source }
  let shown := Text.literal (String.ofList name)
  let enter (r : Reader) (group : Nat) : Except Error Reader := do
    r.checkBehind group
    return r.enter (.condition group) start r.frame.verbose
  if isName name then
    match r.names.lookup (String.ofList name) with
    | none => r.fail (.unknownName shown) (name.length + 1)
    | some group => enter r group
  else
    match Text.readLooseInteger? name with
    | some (.ok (.ofNat group)) =>
      if group == 0 then r.fail .groupNumber (name.length + 1)
      else if group ≥ groupLimit then r.fail (.noGroup group) (name.length + 1)
      else
        let position := r.source.position - name.length - 1
        let conditions :=
          if r.conditions.any (·.1 == group) then r.conditions else r.conditions ++ [(group, position)]
        enter { r with conditions } group
    | _ => r.fail (.groupName shown) (name.length + 1)

def look (r : Reader) (start : Nat) (behind negated : Bool) : Reader :=
  let opened := r.enter (.look behind negated r.behindLimit) start r.frame.verbose
  if behind then { opened with behindLimit := some (r.behindLimit.getD r.groups) } else opened

def opening (r : Reader) : Except Error Reader := do
  let start := r.source.position - 1
  let (extended, source) ← r.source.accept '?'
  let r := { r with source }
  if !extended then r.capture start none
  else
    match r.source.rest with
    | [] => r.fail .unexpectedEnd 0
    | token :: _ =>
      let r := { r with source := ← r.source.drop 1 }
      match token with
      | ['P'] => r.named start
      | [':'] => return r.enter (.group none [] []) start r.frame.verbose
      | ['#'] => r.comment start
      | ['='] => return r.look start false false
      | ['!'] => return r.look start false true
      | ['<'] =>
        match r.source.rest with
        | [] => r.fail .unexpectedEnd 0
        | token :: _ =>
          let r := { r with source := ← r.source.drop 1 }
          match token with
          | ['='] => return r.look start true false
          | ['!'] => return r.look start true true
          | _ => r.fail (.unknownExtension ("?<" ++ String.ofList token)) (token.length + 2)
      | ['('] => r.condition start
      | ['>'] => return r.enter .atomic start r.frame.verbose
      | [c] =>
        if (Flag.ofChar? c).isSome || c == '-' then r.flagGroup start c
        else r.fail (.unknownExtension ("?" ++ String.ofList token)) (token.length + 1)
      | _ => r.fail (.unknownExtension ("?" ++ String.ofList token)) (token.length + 1)

def alternative (r : Reader) : Except Error Reader := do
  match r.frame.opening, r.frame.done with
  | .condition _, _ :: _ => r.fail .threeBranches 0
  | _, _ =>
    let source ← r.source.drop 1
    let verbose := if r.outer.isEmpty then r.flags.contains .verbose else r.frame.verbose
    let frame := { r.frame with done := r.frame.items.reverse :: r.frame.done, items := [], verbose }
    return { r with source, frame }

def Frame.body (f : Frame) : List Node :=
  match f.done with
  | [] => f.items.reverse
  | done => [.branch (f.items.reverse :: done).reverse]

def node (f : Frame) : Node :=
  let body := Frame.body f
  match f.opening with
  | .whole => .group none [] [] body
  | .group number on off => .group number on off body
  | .atomic => .atomic body
  | .look behind negated _ => .look behind negated body
  | .condition group =>
    match f.done with
    | yes :: _ => .condition group yes f.items.reverse
    | [] => .condition group f.items.reverse []

def mixesCharsets (r : Reader) : Bool := r.flags.contains .ascii && r.flags.contains .unicode

def close (r : Reader) : Except Error Reader := do
  match r.outer with
  | [] => if r.mixesCharsets then throw .charset else r.fail .unbalanced 0
  | frame :: outer =>
    let source ← r.source.drop 1
    let closed := { r with source, frame, outer }
    let closed :=
      match r.frame.opening with
      | .group (some number) _ _ =>
        { closed with widths := r.widths.set (number - 1) (some (width r.widthOf (Frame.body r.frame))) }
      | .look true _ limit => { closed with behindLimit := limit }
      | _ => closed
    return closed.push (node r.frame)

def isVerboseBlank (c : Char) : Bool := c == ' ' || ('\t' ≤ c && c ≤ '\r')

def step (r : Reader) (token : Token) : Except Error Reader := do
  match token with
  | ['|'] => r.alternative
  | [')'] => r.close
  | '\\' :: c :: _ =>
    let r := { r with source := ← r.source.drop 1 }
    r.escape c
  | c :: _ =>
    let r := { r with source := ← r.source.drop 1 }
    if r.frame.verbose && isVerboseBlank c then return r
    else if r.frame.verbose && c == '#' then
      let skipped := r.source.rest.takeWhile (· != ['\n'])
      return { r with source := ← r.source.drop (skipped.length + 1) }
    else
      match c with
      | '[' => r.set
      | '*' | '+' | '?' | '{' => r.repetition c
      | '.' => return r.push .any
      | '(' => r.opening
      | '^' => return r.push (.anchor .lineStart)
      | '$' => return r.push (.anchor .lineEnd)
      | c => return r.push (.char c.toNat)
  | [] => return r

def run (r : Reader) : Except Error Reader := do
  match r.source.rest with
  | [] => return r
  | token :: _ =>
    let next ← r.step token
    if next.source.rest.length < r.source.rest.length then run next else return next
termination_by r.source.rest.length

end Reader

def read (text : String) : Except Error (Flags × List Node × (Nat → Width)) := do
  let source ← Source.ofText text
  let start : Reader := { source, frame := { opening := .whole, start := 0, verbose := false } }
  let r ← start.run
  if !r.outer.isEmpty then throw (.malformed .unterminatedGroup (some r.frame.start))
  if r.mixesCharsets then throw .charset
  match r.conditions.find? fun c => r.groups ≤ c.1 with
  | some (group, position) => throw (.malformed (.noGroup group) (some position))
  | none => return (r.flags, Reader.Frame.body r.frame, r.widthOf)

end Stanza.Pattern
