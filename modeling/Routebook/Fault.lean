/-
  Routebook.Fault

  What can be wrong with given data, as causes under paths.  Faults are
  collected: a decoder reports all it finds, in field order.  The only place
  where a cause gets its words is this module.
-/
import Routebook.Tag.Kind
import Routebook.Text.Literal

namespace Routebook

/-- One step of the way to a faulty place. -/
inductive Step where
  | key (name : String)
  | index (i : Int)
  deriving DecidableEq

/-- Why a well-typed value is refused all the same. -/
inductive Refusal where
  /-- A text outside a closed vocabulary. -/
  | unsupported (what text : String) (allowed : List String)
  /-- A verb list without verbs. -/
  | noVerb
  /-- A rule given as a sequence that is no pair. -/
  | notAPair (position length : Nat)
  /-- An integer too long to be written. -/
  | tooManyDigits

mutual
/-- What is wrong in one place. -/
inductive Cause where
  | missing
  | unexpected
  | notAString
  | undecodableString
  | emptyString
  | unreadableBool
  | notABool
  | unreadableNumber
  | notANumber
  | notPositive
  | notOneOf (expected : List String)
  | notAList
  | notAnObject
  | notAModel (model : String)
  | notTagData
  | unknownKind (given : String)
  | noKind
  | notAPath
  | keyNotAString
  | refused (why : Refusal)
  | invalidTag (kind : Kind) (faults : List Fault)

/-- A cause and where it is. -/
inductive Fault where
  | mk (path : List Step) (cause : Cause)
end

/-- Where a fault is. -/
def Fault.path : Fault → List Step
  | .mk p _ => p

/-- What a fault is. -/
def Fault.cause : Fault → Cause
  | .mk _ c => c

/-- The same fault seen from one step further out. -/
def Fault.under (step : Step) : Fault → Fault
  | .mk path cause => .mk (step :: path) cause

/-- A choice of quoted words. -/
def alternatives : List String → String
  | [] => ""
  | [a] => "'" ++ a ++ "'"
  | [a, b] => "'" ++ a ++ "' or '" ++ b ++ "'"
  | a :: rest => "'" ++ a ++ "', " ++ alternatives rest

/-- The words of an integer that is too long. -/
def tooManyDigitsMessage : String :=
  "Exceeds the limit (4300 digits) for integer string conversion; " ++
    "use sys.set_int_max_str_digits() to increase the limit"

/-- The words of a refusal. -/
def Refusal.message : Refusal → String
  | .unsupported what text allowed =>
    "unsupported " ++ what ++ " '" ++ text ++ "', expected one of " ++ ", ".intercalate allowed
  | .noVerb => "at least one HTTP method is required"
  | .notAPair position length =>
    "dictionary update sequence element #" ++ toString position ++ " has length " ++
      toString length ++ "; 2 is required"
  | .tooManyDigits => tooManyDigitsMessage

/-- The short code of a cause. -/
def Cause.code : Cause → String
  | .missing => "missing"
  | .unexpected => "extra_forbidden"
  | .notAString => "string_type"
  | .undecodableString => "string_unicode"
  | .emptyString => "string_too_short"
  | .unreadableBool => "bool_parsing"
  | .notABool => "bool_type"
  | .unreadableNumber => "float_parsing"
  | .notANumber => "float_type"
  | .notPositive => "greater_than"
  | .notOneOf _ => "literal_error"
  | .notAList => "list_type"
  | .notAnObject => "dict_type"
  | .notAModel _ => "model_type"
  | .notTagData => "model_attributes_type"
  | .unknownKind _ => "union_tag_invalid"
  | .noKind => "union_tag_not_found"
  | .notAPath => "path_type"
  | .keyNotAString => "invalid_key"
  | .refused _ => "value_error"
  | .invalidTag _ _ => "value_error"

/-- The words of a cause. -/
def Cause.message : Cause → String
  | .missing => "Field required"
  | .unexpected => "Extra inputs are not permitted"
  | .notAString => "Input should be a valid string"
  | .undecodableString =>
    "Input should be a valid string, unable to parse raw data as a unicode string"
  | .emptyString => "String should have at least 1 character"
  | .unreadableBool => "Input should be a valid boolean, unable to interpret input"
  | .notABool => "Input should be a valid boolean"
  | .unreadableNumber => "Input should be a valid number, unable to parse string as a number"
  | .notANumber => "Input should be a valid number"
  | .notPositive => "Input should be greater than 0"
  | .notOneOf expected => "Input should be " ++ alternatives expected
  | .notAList => "Input should be a valid list"
  | .notAnObject => "Input should be a valid dictionary"
  | .notAModel model => "Input should be a valid dictionary or instance of " ++ model
  | .notTagData => "Input should be a valid dictionary or object to extract fields from"
  | .unknownKind given =>
    "Input tag '" ++ given ++ "' found using 'kind' does not match any of the expected tags: " ++
      ", ".intercalate (Kind.catalog.map fun k => "'" ++ k.name ++ "'")
  | .noKind => "Unable to extract tag using discriminator 'kind'"
  | .notAPath => "Input is not a valid path for <class 'pathlib.Path'>"
  | .keyNotAString => "Keys should be strings"
  | .refused why => "Value error, " ++ why.message
  | .invalidTag kind _ => "Value error, invalid " ++ kind.name ++ " tag"

/-- The faults inside the tag a cause reports. -/
def Cause.nested : Cause → List Fault
  | .invalidTag _ faults => faults
  | _ => []

end Routebook
