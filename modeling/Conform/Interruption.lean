/-!
Interruptions: the inputs on which nothing is answered, because an integer or a count is beyond
what is read or written, because a pattern is nested too deeply or has flags that contradict each
other, or because something else is asked to be an array.
-/

namespace Conform

/-- Why there is no answer. -/
inductive Interruption where
  | tooManyDigits (count : Nat)
  | numberTooLong
  | repetitionTooLarge
  | flagsClash
  | patternTooDeep
  | noArray (held : String)
  deriving DecidableEq, Repr

namespace Interruption

private def digitLimitExceeded : String :=
  "Exceeds the limit (4300 digits) for integer string conversion"

private def digitLimitAdvice : String :=
  "; use sys.set_int_max_str_digits() to increase the limit"

def message : Interruption → String
  | .tooManyDigits n =>
    digitLimitExceeded ++ ": value has " ++ toString n ++ " digits" ++ digitLimitAdvice
  | .numberTooLong => digitLimitExceeded ++ digitLimitAdvice
  | .repetitionTooLarge => "the repetition number is too large"
  | .flagsClash => "ASCII and UNICODE flags are incompatible"
  | .patternTooDeep => "maximum recursion depth exceeded"
  | .noArray held => "'" ++ held ++ "' object has no attribute 'append'"

/-- Whether the input is to blame: a value that is out of range, or two that exclude each other. -/
def isInvalidInput : Interruption → Bool
  | .tooManyDigits _ | .numberTooLong | .flagsClash => true
  | .repetitionTooLarge | .patternTooDeep | .noArray _ => false

end Interruption

end Conform
