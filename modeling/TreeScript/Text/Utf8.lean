/-!
# UTF-8

A byte sequence splits into characters and bad parts. A bad part is the longest run of bytes that
begins a well-formed sequence without completing one, or a single byte that begins none. Strict
decoding stops at the first bad part and says where it lies; lenient decoding puts one replacement
character in the place of each.
-/

namespace TreeScript.Text.Utf8

/-- Why a part of a byte sequence encodes no character. -/
inductive Reason where
  | invalidStart
  | invalidContinuation
  | unexpectedEnd
deriving Repr, DecidableEq

/-- A bad part: the bytes from `start` up to but not including `stop`. -/
structure Fault where
  byte : UInt8
  start : Nat
  stop : Nat
  reason : Reason
deriving Repr, DecidableEq

structure Pending where
  lead : UInt8
  read : Nat
  missing : Nat
  bits : Nat
  low : Nat
  high : Nat

/-- A character with its encoded length, or a bad part with its first byte. -/
inductive Item where
  | char (c : Char) (length : Nat)
  | bad (lead : UInt8) (length : Nat) (reason : Reason)

/-- What a byte at the start of a sequence leads to. -/
inductive Opening where
  | whole (c : Char)
  | pending (p : Pending)
  | invalid

/-- What a byte opens. The bounds of the second byte exclude overlong forms, surrogates and code
points past the last. -/
def opening (b : UInt8) : Opening :=
  let n := b.toNat
  if n < 0x80 then .whole (Char.ofNat n)
  else if n < 0xC2 then .invalid
  else if n < 0xE0 then .pending ⟨b, 1, 1, n - 0xC0, 0x80, 0xBF⟩
  else if n < 0xF0 then
    .pending ⟨b, 1, 2, n - 0xE0, if n = 0xE0 then 0xA0 else 0x80, if n = 0xED then 0x9F else 0xBF⟩
  else if n < 0xF5 then
    .pending ⟨b, 1, 3, n - 0xF0, if n = 0xF0 then 0x90 else 0x80, if n = 0xF4 then 0x8F else 0xBF⟩
  else .invalid

/-- A byte that begins a sequence: the items it completes and what is then under way. -/
def begin (b : UInt8) : List Item × Option Pending :=
  match opening b with
  | .whole c => ([.char c 1], none)
  | .pending p => ([], some p)
  | .invalid => ([.bad b 1 .invalidStart], none)

/-- One byte. A byte that cannot continue the sequence under way ends it and begins anew. -/
def step (state : Option Pending) (b : UInt8) : List Item × Option Pending :=
  match state with
  | none => begin b
  | some p =>
      if p.low ≤ b.toNat ∧ b.toNat ≤ p.high then
        let bits := p.bits * 64 + (b.toNat - 0x80)
        if p.missing = 1 then ([.char (Char.ofNat bits) (p.read + 1)], none)
        else ([], some ⟨p.lead, p.read + 1, p.missing - 1, bits, 0x80, 0xBF⟩)
      else
        let (items, state) := begin b
        (.bad p.lead p.read .invalidContinuation :: items, state)

/-- The items of the bytes that follow a sequence under way. -/
def items : Option Pending → List UInt8 → List Item
  | none, [] => []
  | some p, [] => [.bad p.lead p.read .unexpectedEnd]
  | state, b :: rest =>
      let (now, next) := step state b
      now ++ items next rest

/-- The characters of the items, or the first bad part, counted from byte `position`. -/
def collect (position : Nat) : List Item → Except Fault (List Char)
  | [] => .ok []
  | .char c length :: rest => (collect (position + length) rest).map (c :: ·)
  | .bad lead length reason :: _ => .error ⟨lead, position, position + length, reason⟩

def decode (bytes : List UInt8) : Except Fault (List Char) :=
  collect 0 (items none bytes)

/-- Lenient decoding: one U+FFFD for each bad part. -/
def decodeLossy (bytes : List UInt8) : List Char :=
  (items none bytes).map fun
    | .char c _ => c
    | .bad .. => '\uFFFD'

end TreeScript.Text.Utf8
