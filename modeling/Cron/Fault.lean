import Cron.Field.Name
import Cron.Text.Quoted

/-!
What can go wrong, by cause, and the messages that name each cause.
-/
namespace Cron

inductive NumberRole
  | value
  | step
deriving Repr, DecidableEq

inductive ExpressionError
  | fieldCount (found : Nat)
  | emptyTerm (field : FieldName)
  | doubleStep (field : FieldName) (term : String)
  | badNumber (field : FieldName) (role : NumberRole) (text : String)
  | badRange (field : FieldName) (term : String)
  | outOfRange (field : FieldName) (value : Nat)
  | noValues (field : FieldName) (raw : String)
deriving Repr, DecidableEq

namespace ExpressionError

/-- The field at fault; the number of fields is no field's fault. -/
def field? : ExpressionError → Option FieldName
  | fieldCount _ => none
  | emptyTerm field | doubleStep field _ | badNumber field _ _ | badRange field _
  | outOfRange field _ | noValues field _ => some field

def bounds? : ExpressionError → Option (Nat × Nat)
  | outOfRange field _ | noValues field _ => some (field.low, field.inputHigh)
  | _ => none

def boundsText (field : FieldName) : String :=
  "(" ++ toString field.low ++ "-" ++ toString field.inputHigh ++ ")"

def cited (s : String) : String := "\x22" ++ s ++ "\x22"

def message : ExpressionError → String
  | fieldCount found =>
    "expected 5 fields, got " ++ toString found ++
      ". Format: minute hour day-of-month month day-of-week"
  | emptyTerm field => "Empty value in field " ++ cited field.text
  | doubleStep field term =>
    "Invalid step expression " ++ cited term ++ " in field " ++ cited field.text
  | badNumber field .value text =>
    "Invalid value " ++ cited text ++ " in field " ++ cited field.text
  | badNumber field .step text =>
    "Invalid step value " ++ cited text ++ " in field " ++ cited field.text
  | badRange field term => "Invalid range " ++ cited term ++ " in field " ++ cited field.text
  | outOfRange field value =>
    "Value " ++ toString value ++ " out of range for field " ++ cited field.text ++ " " ++
      boundsText field
  | noValues field raw =>
    "Field " ++ cited field.text ++ " matches no values in range " ++ boundsText field ++ ": " ++
      cited raw

end ExpressionError

inductive InputError
  | tooManyDigits (digits : Nat)
  | noInteger (text : String)
  | unknownZone (label : String)
  | offsetTooLarge (label : String)
  | noDuration (shown : String)
  | yearOutside (year : Nat)
  | noLevel (name : String)
  | nullCharacter
  | equalsSign
deriving Repr, DecidableEq

def InputError.message : InputError → String
  | tooManyDigits digits =>
    "Exceeds the limit (4300 digits) for integer string conversion: value has " ++
      toString digits ++ " digits; use sys.set_int_max_str_digits() to increase the limit"
  | noInteger text =>
    "invalid literal for int() with base 10: " ++
      String.ofList ((Text.quotedChars text.toList).take 200)
  | unknownZone label => "Unknown timezone: " ++ Text.quoted label
  | offsetTooLarge label => "Invalid UTC offset: " ++ Text.quoted label
  | noDuration shown =>
    "Invalid duration: " ++ shown ++ ". Expected '<int><s|m|h|d|w>'."
  | yearOutside year => "year " ++ toString year ++ " is out of range"
  | noLevel name => "Unknown level: " ++ Text.quoted name
  | nullCharacter => "embedded null byte"
  | equalsSign => "illegal environment variable name"

inductive SettingError
  | noText
  | noInteger
  | unreadableInteger
  | fractional
  | notFinite
  | tooLarge
  | noSection
  | tooSmall
  | badValue
  | frozen
deriving Repr, DecidableEq

def SettingError.text : SettingError → String
  | noText => "string_type"
  | noInteger => "int_type"
  | unreadableInteger => "int_parsing"
  | fractional => "int_from_float"
  | notFinite => "finite_number"
  | tooLarge => "int_parsing_size"
  | noSection => "model_type"
  | tooSmall => "greater_than_equal"
  | badValue => "value_error"
  | frozen => "frozen_instance"

/-- A setting that is refused: where it stands, and why. -/
structure SettingFault where
  place : List String
  reason : SettingError
deriving Repr, DecidableEq

inductive DocumentError
  | unprintable
  /-- The mark between two documents within a text. -/
  | boundary
  /-- The name of a member does not stand on one line, or is too long. -/
  | brokenName
deriving Repr, DecidableEq

/-- Why there is no answer. -/
inductive Fault
  | expression (error : ExpressionError)
  | input (error : InputError)
  /-- A name has the form of a known one, but no table holds it. -/
  | unknownName (name : String)
  /-- An instant or a length of time lies beyond what can be written. -/
  | beyondRange
  /-- A time with a zone meets one without. -/
  | mixedClocks
  | noText
  | wrongKind
  | noHome
  | directory
  | longName
  | document (error : DocumentError)
  | tooDeep
  | settings (faults : List SettingFault)
deriving Repr, DecidableEq

/-- What there is, or a fault where there is nothing. -/
def present {α : Type} (fault : Fault) : Option α → Except Fault α
  | some a => .ok a
  | none => .error fault

namespace Fault

/-- The fault of a look-up in a table that holds no entry for a number. -/
def noEntry : Fault := unknownName ""

/-- The message where a text is at fault, of an expression or of another kind. -/
def inputMessage? : Fault → Option String
  | expression error => some error.message
  | input error => some error.message
  | _ => none

end Fault

end Cron
