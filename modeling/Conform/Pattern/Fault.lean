import Conform.Interruption
import Conform.Text.Position
import Conform.Text.Quoted

/-!
What can be wrong with a regular expression, and how it is told: the cause, where in the
expression, and, in an expression of several lines, on which line and column.
-/

namespace Conform.Pattern

inductive Cause where
  | escapeAtEnd
  | badEscape (text : String)
  | incompleteEscape (text : String)
  | octalTooLarge (text : String)
  | missingBrace
  | missingName (what : String)
  | unterminatedName (terminator : Char)
  | unknownCharacter (name : String)
  | badGroupName (name : String)
  | unknownGroup (name : String)
  | redefinedGroup (name : String) (index earlier : Nat)
  | badGroupNumber
  | invalidReference (index : Nat)
  | openGroup
  | sameLookbehind
  | unterminatedSet
  | badRange (low high : String)
  | nothingToRepeat
  | multipleRepeat
  | boundsReversed
  | unexpectedEnd
  | unknownExtension (text : String)
  | unterminatedComment
  | unterminatedGroup
  | unbalanced
  | tooManyBranches
  | flagsNotFirst
  | localeFlag
  | incompatibleFlags
  | unknownFlag
  | missingFlag
  | missingColon
  | missingFlagEnd
  | globalFlagOn
  | globalFlagOff
  | typeFlagOff
  | flagOnAndOff
  | templateRepeat (operator : String)
  | lookbehindTooFar
  | lookbehindWidth
  deriving DecidableEq, Repr

def Cause.message : Cause → String
  | .escapeAtEnd => "bad escape (end of pattern)"
  | .badEscape t => "bad escape " ++ t
  | .incompleteEscape t => "incomplete escape " ++ t
  | .octalTooLarge t => "octal escape value " ++ t ++ " outside of range 0-0o377"
  | .missingBrace => "missing \x7b"
  | .missingName what => "missing " ++ what
  | .unterminatedName c => "missing " ++ c.toString ++ ", unterminated name"
  | .unknownCharacter n => "undefined character name " ++ Text.quoted n
  | .badGroupName n => "bad character in group name " ++ Text.quoted n
  | .unknownGroup n => "unknown group name " ++ Text.quoted n
  | .redefinedGroup n i j =>
    "redefinition of group name " ++ Text.quoted n ++ " as group " ++ toString i ++
      "; was group " ++ toString j
  | .badGroupNumber => "bad group number"
  | .invalidReference i => "invalid group reference " ++ toString i
  | .openGroup => "cannot refer to an open group"
  | .sameLookbehind => "cannot refer to group defined in the same lookbehind subpattern"
  | .unterminatedSet => "unterminated character set"
  | .badRange a b => "bad character range " ++ a ++ "-" ++ b
  | .nothingToRepeat => "nothing to repeat"
  | .multipleRepeat => "multiple repeat"
  | .boundsReversed => "min repeat greater than max repeat"
  | .unexpectedEnd => "unexpected end of pattern"
  | .unknownExtension t => "unknown extension ?" ++ t
  | .unterminatedComment => "missing ), unterminated comment"
  | .unterminatedGroup => "missing ), unterminated subpattern"
  | .unbalanced => "unbalanced parenthesis"
  | .tooManyBranches => "conditional backref with more than two branches"
  | .flagsNotFirst => "global flags not at the start of the expression"
  | .localeFlag => "bad inline flags: cannot use 'L' flag with a str pattern"
  | .incompatibleFlags => "bad inline flags: flags 'a', 'u' and 'L' are incompatible"
  | .unknownFlag => "unknown flag"
  | .missingFlag => "missing flag"
  | .missingColon => "missing :"
  | .missingFlagEnd => "missing -, : or )"
  | .globalFlagOn => "bad inline flags: cannot turn on global flag"
  | .globalFlagOff => "bad inline flags: cannot turn off global flag"
  | .typeFlagOff => "bad inline flags: cannot turn off flags 'a', 'u' and 'L'"
  | .flagOnAndOff => "bad inline flags: flag turned on and off"
  | .templateRepeat op => "internal: unsupported template operator " ++ op
  | .lookbehindTooFar => "looks too much behind"
  | .lookbehindWidth => "look-behind requires fixed-width pattern"

/-- A cause, and the offset in the expression where it shows. -/
structure Fault where
  cause : Cause
  position : Option Nat := none
  deriving DecidableEq, Repr

def Fault.message (f : Fault) (text : List Char) : String :=
  match f.position with
  | none => f.cause.message
  | some p =>
    let told := f.cause.message ++ " at position " ++ toString p
    if text.contains '\n' then
      let (line, column) := Text.lineColumn text p
      told ++ " (line " ++ toString line ++ ", column " ++ toString column ++ ")"
    else told

/-- Why no expression can be had: a fault of its syntax, or what puts an end to everything. -/
inductive Refusal where
  | fault (f : Fault)
  | interrupted (i : Interruption)
  deriving DecidableEq, Repr

end Conform.Pattern
