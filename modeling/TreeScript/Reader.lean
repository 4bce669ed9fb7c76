import TreeScript.Json
import TreeScript.Node.Reading
import TreeScript.Yaml

/-!
# Readers

Texts are decoded into plain data by decoders that come from elsewhere, so little is known of them:
a decoder gives a datum, calls the text malformed, or is stopped by something else. It depends on
where a document is asked for whether the latter counts as a fault of the document. A tree may nest
too deeply to be read, where the machine sets the limit.

`Reader.standard` is the reader that programs are run with. It knows neither explicit YAML tags nor
halves of characters; they stop it. A reader that keeps such halves has characters of its own stand
for them, and a console may refuse these.
-/

namespace TreeScript

/-- The kinds of faults that are told apart where a document is asked for. -/
inductive FaultKind where
  | value
  | type
  | key
  | other
deriving Repr, DecidableEq

/-- Why a decoder gives no datum. -/
inductive Decoder.Fault where
  /-- The text is not of the format. -/
  | malformed (message : String)
  /-- Something else has stopped the decoder. -/
  | raised (kind : FaultKind) (message : String)
  /-- The text nests too deeply for the decoder. -/
  | tooDeep

/-- What turns texts of a format into data. -/
abbrev Decoder := List Char → Except Decoder.Fault Data

/-- What documents are read with. -/
structure Reader where
  json : Decoder
  yaml : Decoder
  /-- The tree that a datum denotes nests too deeply to be read. -/
  overflows : Data → Bool

/-- The tree that a document denotes, unless it nests too deeply. -/
def Reader.program (reader : Reader) (document : Data) : Except Node.Fault Node :=
  if reader.overflows document then .error .endless else Node.readProgram document

/-! ### The reader that programs are run with -/

def Json.Fault.told (text : List Char) (fault : Json.Fault) : Decoder.Fault :=
  match fault with
  | .malformed .. => .malformed (fault.message text)
  | .tooManyDigits _ => .raised .value (fault.message text)
  | .halfCharacter _ => .raised .other (fault.message text)

def Yaml.Fault.told (fault : Yaml.Fault) : Decoder.Fault :=
  match fault with
  | .malformed => .malformed fault.message
  | .tooManyDigits _ | .noDigits _ | .codeOutOfRange => .raised .value fault.message
  | .codeTooLarge | .weightTooLarge | .unsupported => .raised .other fault.message

mutual

/-- How deep the lists and dictionaries of a datum are nested. -/
def Data.nesting : Data → Nat
  | .list items => nestingOfItems items + 1
  | .dict entries => nestingOfEntries entries + 1
  | .loop _ collection => collection.nesting
  | _ => 0

def Data.nestingOfItems : List Data → Nat
  | [] => 0
  | item :: rest => max item.nesting (nestingOfItems rest)

def Data.nestingOfEntries : List (Data × Data) → Nat
  | [] => 0
  | (_, value) :: rest => max value.nesting (nestingOfEntries rest)

end

namespace Reader

/-- How deep documents may nest. -/
def standardNesting : Nat := 900

def standard : Reader where
  json text := (Json.decode text).mapError (·.told text)
  yaml text := (Yaml.decode text).mapError (·.told)
  overflows datum := standardNesting < datum.nesting

end Reader

end TreeScript
