set_option autoImplicit false

namespace TemplateSync

abbrev Bytes := List UInt8

namespace Utf8

def encode (text : String) : Bytes :=
  text.toUTF8.data.toList

def decode? (bytes : Bytes) : Option String :=
  String.fromUTF8? ⟨bytes.toArray⟩

inductive Phase where
  | boundary
  | inside (missing : Nat) (low high : UInt8) (code : Nat)
  deriving DecidableEq

def Phase.lead (junk : List Char) (byte : UInt8) : List Char × Phase :=
  if byte < 0x80 then ([Char.ofNat byte.toNat], .boundary)
  else if byte < 0xC2 then (junk, .boundary)
  else if byte < 0xE0 then ([], .inside 1 0x80 0xBF (byte.toNat - 0xC0))
  else if byte = 0xE0 then ([], .inside 2 0xA0 0xBF 0)
  else if byte = 0xED then ([], .inside 2 0x80 0x9F 0xD)
  else if byte < 0xF0 then ([], .inside 2 0x80 0xBF (byte.toNat - 0xE0))
  else if byte = 0xF0 then ([], .inside 3 0x90 0xBF 0)
  else if byte < 0xF4 then ([], .inside 3 0x80 0xBF (byte.toNat - 0xF0))
  else if byte = 0xF4 then ([], .inside 3 0x80 0x8F 4)
  else (junk, .boundary)

-- An octet that cannot continue the open sequence ends it and starts anew.
def Phase.feed (junk : List Char) (byte : UInt8) : Phase → List Char × Phase
  | .boundary => lead junk byte
  | .inside missing low high code =>
    if low ≤ byte && byte ≤ high then
      let code := code * 64 + (byte.toNat - 0x80)
      match missing with
      | 0 | 1 => ([Char.ofNat code], .boundary)
      | more + 2 => ([], .inside (more + 1) 0x80 0xBF code)
    else
      let (chars, phase) := lead junk byte
      (junk ++ chars, phase)

def Phase.finish (junk : List Char) : Phase → List Char
  | .boundary => []
  | .inside .. => junk

def scan (junk : List Char) : Phase → Bytes → List Char → List Char
  | phase, [], done => done.reverse ++ phase.finish junk
  | phase, byte :: rest, done =>
    let (chars, phase) := phase.feed junk byte
    scan junk phase rest (chars.reverse ++ done)

-- Each maximal ill-formed subpart is written as `junk`.
def decodeWith (junk : List Char) (bytes : Bytes) : String :=
  String.ofList (scan junk .boundary bytes [])

def replacement : Char := '\uFFFD'

def decode (bytes : Bytes) : String :=
  (decode? bytes).getD (decodeWith [replacement] bytes)

theorem decode?_encode (text : String) : decode? (encode text) = some text := by
  have valid : String.fromUTF8? text.toUTF8 = some text := by
    unfold String.fromUTF8?
    split
    next => rfl
    next invalid => exact absurd text.isValidUTF8 (by simpa using invalid)
  simpa [decode?, encode] using valid

@[simp] theorem decode_encode (text : String) : decode (encode text) = text := by
  simp [decode, decode?_encode]

end Utf8

end TemplateSync
