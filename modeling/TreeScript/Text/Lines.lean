/-!
# Line ends

A text file may end its lines with LF, CR or CR LF. Reading gives every line end as LF.
-/

namespace TreeScript.Text

def unifyLineEnds : List Char → List Char
  | [] => []
  | '\r' :: '\n' :: rest => '\n' :: unifyLineEnds rest
  | '\r' :: rest => '\n' :: unifyLineEnds rest
  | c :: rest => c :: unifyLineEnds rest

end TreeScript.Text
