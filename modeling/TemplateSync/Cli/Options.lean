set_option autoImplicit false

namespace TemplateSync.Cli

-- An option that takes a value knows which values it takes.
structure Flag where
  long : String
  letter : Option Char
  accepts : Option (String → Bool)

inductive Refusal where
  | help
  | usage
  deriving DecidableEq

abbrev Given := List (String × String)

def helpFlag : Flag := ⟨"help", some 'h', none⟩

def byLong? (flags : List Flag) (name : String) : Option Flag :=
  (helpFlag :: flags).find? fun flag => flag.long == name

def byLetter? (flags : List Flag) (letter : Char) : Option Flag :=
  (helpFlag :: flags).find? fun flag => flag.letter == some letter

def add (flag : Flag) (value : String) (given : Given) : Except Refusal Given :=
  if flag.long = helpFlag.long then .error .help
  else if (given.lookup flag.long).isSome then .error .usage
  else match flag.accepts with
    | none => .ok (given ++ [(flag.long, "")])
    | some accepts =>
      if accepts value then .ok (given ++ [(flag.long, value)]) else .error .usage

-- A word that starts with a hyphen is no value, except the hyphen alone.
def isValue (word : String) : Bool :=
  match word.toList with
  | '-' :: _ :: _ => false
  | _ => true

def letters (flags : List Flag) : List Char → Given → Except Refusal (Given × Option Flag)
  | [], given => .ok (given, none)
  | letter :: rest, given =>
    match byLetter? flags letter with
    | none => .error .usage
    | some flag =>
      if flag.accepts.isNone then
        match add flag "" given, rest with
        | .error refusal, _ => .error refusal
        | .ok _, '=' :: _ => .error .usage
        | .ok given, rest => letters flags rest given
      else match rest with
        -- The value is what remains of the word, or else the next word.
        | [] => .ok (given, some flag)
        | '=' :: value => (add flag (String.ofList value) given).map fun given => (given, none)
        | value => (add flag (String.ofList value) given).map fun given => (given, none)

def long (flags : List Flag) (word : List Char) (given : Given) :
    Except Refusal (Given × Option Flag) :=
  let name := word.takeWhile (· != '=')
  match byLong? flags (String.ofList name), word.drop name.length with
  | none, _ => .error .usage
  | some flag, [] =>
    if flag.accepts.isNone then (add flag "" given).map fun given => (given, none)
    else .ok (given, some flag)
  | some flag, _ :: value =>
    if flag.accepts.isNone then .error .usage
    else (add flag (String.ofList value) given).map fun given => (given, none)

def readFrom (flags : List Flag) : List String → Option Flag → Given → Except Refusal Given
  | [], none, given => .ok given
  | [], some _, _ => .error .usage
  | word :: words, some flag, given =>
    if isValue word then
      match add flag word given with
      | .ok given => readFrom flags words none given
      | .error refusal => .error refusal
    else .error .usage
  | word :: words, none, given =>
    let read : Except Refusal (Given × Option Flag) := match word.toList with
      -- After two hyphens no word is an option, and no other word is allowed.
      | ['-', '-'] => if words = [] then .ok (given, none) else .error .usage
      | '-' :: '-' :: name => long flags name given
      | '-' :: letter :: more => letters flags (letter :: more) given
      | _ => .error .usage
    match read with
    | .ok (given, waiting) => readFrom flags words waiting given
    | .error refusal => .error refusal

def read (flags : List Flag) (required : List String) (words : List String) :
    Except Refusal Given :=
  match readFrom flags words none [] with
  | .error refusal => .error refusal
  | .ok given =>
    if required.all fun name => (given.lookup name).isSome then .ok given else .error .usage

-- A number may have a plus sign.
def number? (word : String) : Option Nat :=
  let digits := match word.toList with
    | '+' :: rest => rest
    | chars => chars
  if digits ≠ [] && digits.all Char.isDigit then
    some (digits.foldl (fun sum c => sum * 10 + (c.toNat - 48)) 0)
  else none

def isNumberUpTo (limit : Nat) (word : String) : Bool :=
  (number? word).any (· ≤ limit)

def isPath (word : String) : Bool := word ≠ ""

end TemplateSync.Cli
