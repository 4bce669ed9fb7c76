import TreeScript.Files
import TreeScript.Layout

/-!
# What ends an evaluation early

A fatal error has a cause, the node it is about, and the calls that were active. Failures of the
host, of arithmetic and of text conversion are no errors of the language: they have a wording and
nothing else. Last, an evaluation may nest too deeply.
-/

namespace TreeScript

/-- Why a program is in error. -/
inductive Cause where
  | unknownModule (name : String)
  | missingModule (name : String)
  | moduleInProgress
  | unreadableModule (path reason : String)
  | unknownNamespace (path : String)
  | unknownFunction (name : String)
  | notCallable (name : String)
  | expectedLiteral (got : String)
  | literalLimit (limit : Int)
  | expectedMemory (got : String)
  | alreadyDefined (name : String)
  | notDefined (name : String)
  | notBoolean (got : String)
  | nothingToAdd
  | mixedSum (got first : String)
  | unsupportedSum (got : String)
  | subtractedNonNumber
  | multiplierNonNumber
  | unsupportedProduct (got : String)
  | dividedNonNumber
  | noNumber (got : String)
  | numberWithoutInteger (text : String)
  | textWithoutInteger (text : String)
  | expectedBlock (got : String)
  | blockLimit (limit : Int)
  | fromHost (kind : ErrorKind) (message : String)
deriving Repr, DecidableEq

namespace Cause

def kind : Cause → ErrorKind
  | unknownModule _ | missingModule _ | moduleInProgress | unreadableModule .. | unknownNamespace _
  | unknownFunction _ => .reference
  | alreadyDefined _ | notDefined _ => .memory
  | fromHost kind _ => kind
  | _ => .type

def isLimit : Cause → Bool
  | literalLimit _ | blockLimit _ => true
  | _ => false

def message : Cause → String
  | unknownModule name => "Unknown module '" ++ name ++ "'."
  | missingModule name => "Module " ++ name ++ " does not exist."
  | moduleInProgress => "Trying to load from a file that is currently being loaded."
  | unreadableModule path reason => "Error reading file " ++ path ++ ": " ++ reason
  | unknownNamespace path => "Unknown namespace \"" ++ path ++ "\"."
  | unknownFunction name => "Unknown value or function \"" ++ name ++ "\"."
  | notCallable name => "\"" ++ name ++ "\" is not callable."
  | expectedLiteral got => "Expected a literal, instead got " ++ got ++ "."
  | literalLimit limit =>
      "Value did not reduce to a literal within " ++ Numeral.integerText limit ++ " steps."
  | expectedMemory got => "Expected Memory, instead got " ++ got ++ "."
  | alreadyDefined name => "Value <" ++ name ++ "> is already defined."
  | notDefined name => "Value <" ++ name ++ "> is not defined."
  | notBoolean got => got ++ " is not type cast-able to boolean."
  | nothingToAdd => "Nothing to add."
  | mixedSum got first =>
      "Cannot add a " ++ got ++ " to a " ++ first ++ ". Please type cast using str()"
  | unsupportedSum got => "Cannot add values of type " ++ got ++ "."
  | subtractedNonNumber => "To subtract, both objects must be numbers."
  | multiplierNonNumber => "To multiply, the second object must be a number."
  | unsupportedProduct got => "Cannot multiply a " ++ got ++ "."
  | dividedNonNumber => "To divide, both objects must be numbers."
  | noNumber got => got ++ " cannot be converted to a number."
  | numberWithoutInteger text => "Cannot convert " ++ text ++ " to a number."
  | textWithoutInteger text => "Cannot convert '" ++ text ++ "' to a number."
  | expectedBlock got => "Yield to obj must be a block. Instead, I got a " ++ got ++ "."
  | blockLimit limit =>
      "Yield to obj did not reduce to a block within " ++ Numeral.integerText limit ++ " steps."
  | fromHost _ message => message

end Cause

/-- A fatal error of a program. -/
structure Error where
  cause : Cause
  /-- The node that the error is about, absent if none is known. -/
  node : Node
  trace : List String

/-- A failure that is no error of the language. -/
inductive Failure where
  | arithmetic (fault : ArithmeticFault)
  | tooManyDigits (count : Nat)
  | unwritable
  | crash (message : String)
  | noModule (name : String)
  | noScope (name : String) (got : String)
  | file (fault : FileFault)
  /-- A document that cannot be decoded, in a way that does not count as a fault of the document. -/
  | document (message : String)
  /-- A line that cannot be written to the output. -/
  | unencodable (message : String)

def Failure.message : Failure → String
  | arithmetic fault => fault.message
  | tooManyDigits count => Numeral.tooManyDigitsMessage count
  | unwritable => Numeral.unwritableMessage
  | crash message => message
  | noModule name => "Module '" ++ name ++ "' must be a Scope or a factory returning one"
  | noScope name got =>
      "Module factory for '" ++ name ++ "' returned " ++ got ++ ", not a Scope"
  | file fault => fault.message
  | document message => message
  | unencodable message => message

/-- What ends an evaluation early. -/
inductive Interrupt where
  | error (error : Error)
  | failure (failure : Failure)
  | tooDeep

/-- What stands in the way of a text, as what ends an evaluation. -/
def Layout.Obstacle.interrupt : Layout.Obstacle → Interrupt
  | unwritable => .failure .unwritable
  | tooDeep => .tooDeep

end TreeScript
