import LogicPuzzle.Diagnostic
import LogicPuzzle.Numeral

/-!
# Faults of a model

Everything that can be wrong with a puzzle beyond its text: types and arrays
that are missing or named twice, and references that name no cell.
-/

namespace LogicPuzzle

inductive ModelFault where
  | emptyDomain (name : String)
  | duplicateType (name : String)
  | duplicateArray (name : String)
  | unknownType (name : String)
  | unknownFieldType (type field schema : String)
  | unknownArray (name : String)
  | missingElement (array : String)
  | badElement (index : Int) (array : String)
  | missingField (array : String)
  | unknownField (field array : String)
  | missingScalarElement (array : String)
  | badScalarElement (index : Int) (array : String)
  deriving DecidableEq, Repr

namespace ModelFault

def message : ModelFault → String
  | .emptyDomain name => "Domain '" ++ name ++ "' has no labels"
  | .duplicateType name => "Duplicate type '" ++ name ++ "'"
  | .duplicateArray name => "Duplicate variable '" ++ name ++ "'"
  | .unknownType name => "Unknown type: " ++ name
  | .unknownFieldType type field schema =>
      "Unknown type '" ++ type ++ "' for field '" ++ field ++ "' of struct '" ++ schema ++ "'"
  | .unknownArray name => "Unknown variable: " ++ name
  | .missingElement array => "Missing index for struct " ++ array
  | .badElement index array => "Bad index " ++ toString index ++ " for struct " ++ array
  | .missingField array => "Missing field for struct " ++ array
  | .unknownField field array => "Unknown field '" ++ field ++ "' for struct " ++ array
  | .missingScalarElement array => "Missing index for simple variable " ++ array
  | .badScalarElement index array =>
      "Bad index " ++ toString index ++ " for variable " ++ array

instance : Wording ModelFault where
  message := message

/-- Whether the words for a fault would quote a number that is too long to be written. -/
def hasLongNumber : ModelFault → Bool
  | .badElement index _ => Numeral.tooLong index
  | .badScalarElement index _ => Numeral.tooLong index
  | _ => false

end ModelFault

end LogicPuzzle
