import TemplateSync.Utf8
import TemplateSync.IoError

set_option autoImplicit false

namespace TemplateSync.Frame

abbrev Stream := List Bytes

def maxGroups : Nat := 5

def maxLength : Nat := UInt32.size

def lengthGroups : Nat → Nat → Bytes
  | 0, _ => []
  | more + 1, length =>
    if length < 128 then [UInt8.ofNat length]
    else UInt8.ofNat (length % 128 + 128) :: lengthGroups more (length / 128)

def lengthPrefix (length : Nat) : Bytes :=
  lengthGroups maxGroups length

def write (text : String) : Except IoError Bytes :=
  let body := Utf8.encode text
  let length := body.length
  if length < maxLength then .ok (lengthPrefix length ++ body) else .error .frameTooLong

inductive Fault where
  | endOfStream
  | badPrefix
  | overLimit (length limit : Nat)
  deriving DecidableEq

def Fault.message : Fault → String
  | endOfStream => "failed to fill whole buffer"
  | badPrefix => "bad length prefix"
  | overLimit length limit => s!"frame of {length} bytes exceeds limit of {limit} bytes"

def takeOnto : Nat → Bytes → Bytes → Nat × Bytes × Bytes
  | count + 1, byte :: rest, taken => takeOnto count rest (byte :: taken)
  | missing, rest, taken => (missing, rest, taken)

def readOnto : Nat → Stream → Bytes → Option (Bytes × Stream)
  | 0, stream, taken => some (taken.reverse, stream)
  | _ + 1, [], _ => none
  | count + 1, piece :: stream, taken =>
    match takeOnto (count + 1) piece taken with
    | (0, rest, taken) => some (taken.reverse, rest :: stream)
    -- The piece is used up and the next one goes on.
    | (missing + 1, _, taken) => readOnto (missing + 1) stream taken

def readExact (count : Nat) (stream : Stream) : Option (Bytes × Stream) :=
  readOnto count stream []

-- The last group has four bits left, so that a length has 32.
def readLength : Nat → Nat → Nat → Stream → Except Fault Nat × Stream
  | 0, _, _, stream => (.error .badPrefix, stream)
  | more + 1, place, sum, stream =>
    match readExact 1 stream with
    | some ([byte], rest) =>
      -- A group beyond 32 bits, or one that asks for a sixth.
      if more = 0 && 0x0F < byte then (.error .badPrefix, rest)
      else
        let sum := sum + byte.toNat % 128 * place
        if byte < 0x80 then (.ok sum, rest) else readLength more (place * 128) sum rest
    | _ => (.error .endOfStream, [])

-- One text and what follows it. After a fault the rest is what was not consumed.
def read (limit : Nat) (stream : Stream) : Except Fault String × Stream :=
  match readLength maxGroups 1 0 stream with
  | (.error fault, rest) => (.error fault, rest)
  | (.ok length, rest) =>
    if limit < length then (.error (.overLimit length limit), rest)
    else match readExact length rest with
      | some (body, rest) => (.ok (Utf8.decode body), rest)
      | none => (.error .endOfStream, [])

def octets (stream : Stream) : Nat :=
  stream.flatten.length

structure Reading where
  texts : List String
  fault : Fault
  rest : Stream

def readUpTo (limit : Nat) : Nat → Stream → List String → Reading
  | 0, stream, texts => ⟨texts.reverse, .endOfStream, stream⟩
  | fuel + 1, stream, texts =>
    match read limit stream with
    | (.ok text, rest) => readUpTo limit fuel rest (text :: texts)
    | (.error fault, rest) => ⟨texts.reverse, fault, rest⟩

-- All texts up to the first fault. Each takes an octet at least, so the count suffices.
def readAll (limit : Nat) (stream : Stream) : Reading :=
  readUpTo limit (octets stream + 1) stream []

end TemplateSync.Frame
