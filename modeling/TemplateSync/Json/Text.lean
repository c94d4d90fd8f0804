import TemplateSync.Json.Value

set_option autoImplicit false

namespace TemplateSync.Json

def escapeChar (c : Char) : List Char :=
  if c = '"' then ['\\', '"']
  else if c = '\\' then ['\\', '\\']
  else if c = '\x08' then ['\\', 'b']
  else if c = '\x0c' then ['\\', 'f']
  else if c = '\n' then ['\\', 'n']
  else if c = '\r' then ['\\', 'r']
  else if c = '\t' then ['\\', 't']
  else if c.toNat < 0x20 then
    ['\\', 'u', '0', '0', Hex.lower (Hex.digit (c.toNat / 16)), Hex.lower (Hex.digit c.toNat)]
  else [c]

def escape (chars : List Char) : List Char :=
  chars.flatMap escapeChar

def isLead (unit : Nat) : Bool := 0xD800 ≤ unit && unit < 0xDC00

def isTrail (unit : Nat) : Bool := 0xDC00 ≤ unit && unit < 0xE000

def pair (lead trail : Nat) : Char :=
  Char.ofNat (0x10000 + (lead - 0xD800) * 0x400 + (trail - 0xDC00))

def short? (c : Char) : Option Char :=
  match c with
  | '"' => some '"'
  | '\\' => some '\\'
  | '/' => some '/'
  | 'b' => some '\x08'
  | 'f' => some '\x0c'
  | 'n' => some '\n'
  | 'r' => some '\r'
  | 't' => some '\t'
  | _ => none

inductive Unescape where
  | plain
  | slash
  | digits (first : Option Nat) (read : List (Fin 16))
  | half (first : Nat)
  | halfSlash (first : Nat)

def Unescape.complete? (unit : Nat) (done : List Char) : Option Nat → Option (Unescape × List Char)
  | some lead => if isTrail unit then some (plain, pair lead unit :: done) else none
  | none =>
    if isTrail unit then none
    else if isLead unit then some (half unit, done)
    else some (plain, Char.ofNat unit :: done)

def Unescape.feed? (c : Char) (done : List Char) : Unescape → Option (Unescape × List Char)
  | plain => if c = '\\' then some (slash, done) else some (plain, c :: done)
  | slash =>
    if c = 'u' then some (digits none [], done)
    else (short? c).map fun c => (plain, c :: done)
  | digits first [x, y, z] =>
    (Hex.digit? c).bind fun digit => complete? (Hex.value [x, y, z, digit]) done first
  | digits first read => (Hex.digit? c).map fun digit => (digits first (read ++ [digit]), done)
  | half first => if c = '\\' then some (halfSlash first, done) else none
  | halfSlash first => if c = 'u' then some (digits (some first) [], done) else none

def unescapeOnto? : Unescape → List Char → List Char → Option (List Char)
  | .plain, [], done => some done.reverse
  | _, [], _ => none
  | state, c :: rest, done =>
    match state.feed? c done with
    | some (state, done) => unescapeOnto? state rest done
    | none => none

def unescape? (raw : List Char) : Option (List Char) :=
  unescapeOnto? .plain raw []

theorem unescapeOnto?_digits (x y : Fin 16) (rest done : List Char)
    (low : Hex.value [0, 0, x, y] < 0xD800) :
    unescapeOnto? .plain ('\\' :: 'u' :: '0' :: '0' :: Hex.lower x :: Hex.lower y :: rest) done =
      unescapeOnto? .plain rest (Char.ofNat (Hex.value [0, 0, x, y]) :: done) := by
  have zero : Hex.digit? '0' = some 0 := rfl
  have lead : isLead (Hex.value [0, 0, x, y]) = false := by
    simp only [isLead, Bool.and_eq_false_iff, decide_eq_false_iff_not]
    omega
  have trail : isTrail (Hex.value [0, 0, x, y]) = false := by
    simp only [isTrail, Bool.and_eq_false_iff, decide_eq_false_iff_not]
    omega
  simp [unescapeOnto?, Unescape.feed?, Unescape.complete?, zero, lead, trail]

theorem value_low (n : Nat) (low : n < 0x20) :
    Hex.value [0, 0, Hex.digit (n / 16), Hex.digit n] = n := by
  simp only [Hex.value, Hex.digit, List.foldl_cons, List.foldl_nil, Fin.val_ofNat, Fin.val_zero]
  omega

theorem unescapeOnto?_escapeChar (c : Char) (rest done : List Char) :
    unescapeOnto? .plain (escapeChar c ++ rest) done = unescapeOnto? .plain rest (c :: done) := by
  unfold escapeChar
  split
  next h => simp [unescapeOnto?, Unescape.feed?, short?, h]
  split
  next h => simp [unescapeOnto?, Unescape.feed?, short?, h]
  split
  next h => simp [unescapeOnto?, Unescape.feed?, short?, h]
  split
  next h => simp [unescapeOnto?, Unescape.feed?, short?, h]
  split
  next h => simp [unescapeOnto?, Unescape.feed?, short?, h]
  split
  next h => simp [unescapeOnto?, Unescape.feed?, short?, h]
  split
  next h => simp [unescapeOnto?, Unescape.feed?, short?, h]
  split
  next low =>
    have value := value_low c.toNat low
    simp only [List.cons_append, List.nil_append]
    rw [unescapeOnto?_digits _ _ rest done (by omega), value, Char.ofNat_toNat]
  next _ slash _ _ _ _ _ _ => simp [unescapeOnto?, Unescape.feed?, slash]

theorem unescapeOnto?_escape (chars done : List Char) :
    unescapeOnto? .plain (escape chars) done = some (done.reverse ++ chars) := by
  induction chars generalizing done with
  | nil => simp [escape, unescapeOnto?]
  | cons c chars ih =>
    have split : escape (c :: chars) = escapeChar c ++ escape chars := by simp [escape]
    rw [split, unescapeOnto?_escapeChar, ih]
    simp

@[simp] theorem unescape?_escape (chars : List Char) : unescape? (escape chars) = some chars := by
  simp [unescape?, unescapeOnto?_escape]

def ofString (text : String) : Json :=
  .text (escape text.toList)

def string? : Json → Option String
  | .text raw => (unescape? raw).map String.ofList
  | _ => none

@[simp] theorem string?_ofString (text : String) : string? (ofString text) = some text := by
  simp [string?, ofString]

end TemplateSync.Json
