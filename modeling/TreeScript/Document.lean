import TreeScript.Files

/-!
# Documents

A document is a JSON or YAML text. The suffix of its file decides which; without a telling suffix
the text does: it is JSON if its first character that is no blank opens an object or an array.
-/

namespace TreeScript

/-- The formats of documents. -/
inductive Format where
  | json
  | yaml
deriving Repr, DecidableEq

def Format.name : Format → String
  | json => "json"
  | yaml => "yaml"

def Format.title : Format → String
  | json => "JSON"
  | yaml => "YAML"

def Format.ofSuffix? (suffix : String) : Option Format :=
  match String.ofList (suffix.toList.map Char.toLower) with
  | ".json" => some json
  | ".yaml" => some yaml
  | ".yml" => some yaml
  | _ => none

def Format.sniff (text : List Char) : Format :=
  match Text.trimLeft text with
  | '\x7b' :: _ | '[' :: _ => json
  | _ => yaml

/-- The format of a document, from its path first and then from its text. -/
def Format.detect? (path : Option String) (text : Option String) : Option Format :=
  let suffix := (path.map fun path => (Path.ofText path).suffix).getD ""
  (ofSuffix? suffix).or (text.map fun text => sniff text.toList)

/-- Why a document is not decoded. -/
inductive DecodeFault where
  | file (fault : FileFault)
  | encoding (fault : Text.Utf8.Fault)
  | decoder (format : Format) (fault : Decoder.Fault)
  | unsupportedFormat (name : String)

namespace DecodeFault

/-- A number of at most 255 as two hexadecimal digits. -/
def byteText (byte : UInt8) : String := String.ofList (Text.hexDigits 2 byte.toNat)

def encodingMessage (fault : Text.Utf8.Fault) : String :=
  let place :=
    if fault.stop = fault.start + 1 then
      "byte 0x" ++ byteText fault.byte ++ " in position " ++ fault.start.repr
    else "bytes in position " ++ fault.start.repr ++ "-" ++ (fault.stop - 1).repr
  let reason := match fault.reason with
    | .invalidStart => "invalid start byte"
    | .invalidContinuation => "invalid continuation byte"
    | .unexpectedEnd => "unexpected end of data"
  "'utf-8' codec can't decode " ++ place ++ ": " ++ reason

/-- The wording of each fault. The format is named only if the text is not of that format. -/
def message : DecodeFault → String
  | file fault => fault.message
  | encoding fault => encodingMessage fault
  | decoder format (.malformed message) => "Invalid " ++ format.title ++ " document: " ++ message
  | decoder _ (.raised _ message) => message
  | decoder _ .tooDeep => Node.Fault.endless.message
  | unsupportedFormat name => "Unsupported document format: " ++ Data.quotedText name

end DecodeFault

def Reader.decoder (reader : Reader) : Format → Decoder
  | .json => reader.json
  | .yaml => reader.yaml

namespace Document

section

variable (reader : Reader)

def decodeAs (format : Format) (text : List Char) : Except DecodeFault Data :=
  (reader.decoder format text).mapError (.decoder format)

def decode (text : List Char) : Except DecodeFault Data :=
  decodeAs reader (Format.sniff text) text

/-- The datum of a text in the format of a name; an empty name leaves the choice to the text. -/
def decodeNamed (format : String) (text : List Char) : Except DecodeFault Data :=
  match format with
  | "" => decode reader text
  | "json" => decodeAs reader .json text
  | "yaml" => decodeAs reader .yaml text
  | name => .error (.unsupportedFormat name)

/-- The datum of a file's bytes. The suffix of its name tells the format if it can. Line ends are
unified before decoding. -/
def decodeFile (suffix : String) (bytes : List UInt8) : Except DecodeFault Data := do
  let chars ← (Text.Utf8.decode bytes).mapError .encoding
  let text := Text.unifyLineEnds chars
  decodeAs reader ((Format.ofSuffix? suffix).getD (Format.sniff text)) text

end

def atPath (files : Files) (path : Path) : Except DecodeFault Data := do
  decodeFile files.reader path.suffix (← (files.bytes path).mapError .file)

end Document

/-- Why a document gives no program. -/
inductive LoadFault where
  | decode (fault : DecodeFault)
  | tree (fault : Node.Fault)

def LoadFault.message : LoadFault → String
  | decode fault => fault.message
  | tree fault => fault.message

namespace Document

variable (reader : Reader)

/-- The program of a document given as data. A text is decoded first; its own data are taken as
they are. -/
def load (document : Data) : Except LoadFault Node := do
  let datum ← match document with
    | .text s => (decode reader s.toList).mapError .decode
    | datum => .ok datum
  (reader.program datum).mapError .tree

def loadBytes (bytes : List UInt8) : Except LoadFault Node := do
  let datum ← (decode reader (Text.Utf8.decodeLossy bytes)).mapError .decode
  (reader.program datum).mapError .tree

/-- The program of a file's bytes. Its data are taken as they are. -/
def loadFile (suffix : String) (bytes : List UInt8) : Except LoadFault Node := do
  let datum ← (decodeFile reader suffix bytes).mapError .decode
  (reader.program datum).mapError .tree

end Document

end TreeScript
