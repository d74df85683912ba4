/-!
# UTF-8

Octets and text. Decoding never fails: every ill-formed stretch, taken as long as it could still
have become a character, is reported in its place. A strict reader refuses a text with such a
stretch, a tolerant one shows the replacement character for it.
-/
namespace ElementBinding.Text

abbrev Octets := List UInt8

/-- The UTF-8 form of a text. -/
def encode (text : String) : Octets := text.toList.flatMap String.utf8EncodeChar

/-- The number of continuation octets a lead octet asks for, and the range of the first of them. -/
def leadShape (lead : Nat) : Option (Nat × Nat × Nat) :=
  if lead < 0xC2 then none
  else if lead ≤ 0xDF then some (1, 0x80, 0xBF)
  else if lead = 0xE0 then some (2, 0xA0, 0xBF)
  else if lead = 0xED then some (2, 0x80, 0x9F)
  else if lead ≤ 0xEF then some (2, 0x80, 0xBF)
  else if lead = 0xF0 then some (3, 0x90, 0xBF)
  else if lead ≤ 0xF3 then some (3, 0x80, 0xBF)
  else if lead = 0xF4 then some (3, 0x80, 0x8F)
  else none

/-- The payload of a lead octet that is followed by `count` continuation octets. -/
def leadPayload (count lead : Nat) : Nat :=
  lead % (if count = 1 then 32 else if count = 2 then 16 else 8)

/-- Where a decoder stands: between characters, or inside one that still needs `missing` octets,
the next of them from `low` to `high`. -/
inductive DecodeState where
  | between
  | inside (missing low high value : Nat)

/-- Starts a character at an octet: what is known at once, and where the decoder then stands. -/
def startChar (octet : Nat) : List (Option Char) × DecodeState :=
  if octet < 0x80 then ([some (Char.ofNat octet)], .between)
  else match leadShape octet with
    | some (count, low, high) => ([], .inside count low high (leadPayload count octet))
    | none => ([none], .between)

/-- One octet further. An octet that cannot continue the open character ends it as ill-formed and
starts anew. -/
def DecodeState.step (state : DecodeState) (octet : Nat) : List (Option Char) × DecodeState :=
  match state with
  | .between => startChar octet
  | .inside missing low high value =>
    if low ≤ octet && octet ≤ high then
      let value := value * 64 + octet % 64
      if missing ≤ 1 then ([some (Char.ofNat value)], .between)
      else ([], .inside (missing - 1) 0x80 0xBF value)
    else
      let (found, next) := startChar octet
      (none :: found, next)

def decodeFrom : DecodeState → Octets → List (Option Char)
  | .between, [] => []
  | .inside .., [] => [none]
  | state, octet :: rest =>
    let (found, next) := state.step octet.toNat
    found ++ decodeFrom next rest

/-- The characters of some octets; `none` stands for an ill-formed stretch. -/
def decode (octets : Octets) : List (Option Char) := decodeFrom .between octets

/-- The text a tolerant reader sees. -/
def decodeTolerant (octets : Octets) : List Char :=
  (decode octets).map (·.getD (Char.ofNat 0xFFFD))

/-- The text a strict reader sees, if all octets are well-formed. -/
def decodeStrict (octets : Octets) : Option (List Char) := (decode octets).mapM id

end ElementBinding.Text
