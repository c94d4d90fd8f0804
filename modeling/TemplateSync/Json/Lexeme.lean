import TemplateSync.Hex

set_option autoImplicit false

namespace TemplateSync.Json

inductive Mark where
  | openBrace
  | closeBrace
  | openBracket
  | closeBracket
  | colon
  | comma
  deriving DecidableEq

inductive Word where
  | null
  | true
  | false
  deriving DecidableEq

inductive Lexeme where
  | mark (mark : Mark)
  | word (word : Word)
  | number (literal : List Char)
  | text (raw : List Char)
  deriving DecidableEq

structure Token where
  blanks : List Char
  lexeme : Lexeme
  deriving DecidableEq

def Mark.char : Mark → Char
  | openBrace => '\x7b'
  | closeBrace => '\x7d'
  | openBracket => '['
  | closeBracket => ']'
  | colon => ':'
  | comma => ','

def Mark.ofChar? (c : Char) : Option Mark :=
  match c with
  | '\x7b' => some openBrace
  | '\x7d' => some closeBrace
  | '[' => some openBracket
  | ']' => some closeBracket
  | ':' => some colon
  | ',' => some comma
  | _ => none

def Word.spelling : Word → List Char
  | null => ['n', 'u', 'l', 'l']
  | true => ['t', 'r', 'u', 'e']
  | false => ['f', 'a', 'l', 's', 'e']

def Word.ofSpelling? (spelling : List Char) : Option Word :=
  [null, true, false].find? fun word => word.spelling == spelling

def Lexeme.spelling : Lexeme → List Char
  | .mark sign => [sign.char]
  | .word known => known.spelling
  | .number literal => literal
  | .text raw => '"' :: raw ++ ['"']

def Token.spelling (token : Token) : List Char :=
  token.blanks ++ token.lexeme.spelling

def isBlank (c : Char) : Bool :=
  c == ' ' || c == '\n' || c == '\t' || c == '\r'

inductive NumberPhase where
  | sign
  | zero
  | whole
  | point
  | fraction
  | exponent
  | exponentSign
  | power
  deriving DecidableEq

def NumberPhase.start? (c : Char) : Option NumberPhase :=
  if c = '-' then some sign else if c = '0' then some zero else if c.isDigit then some whole else none

def NumberPhase.fractionOrExponent? (c : Char) : Option NumberPhase :=
  if c = '.' then some point else if c = 'e' || c = 'E' then some exponent else none

def NumberPhase.next? (phase : NumberPhase) (c : Char) : Option NumberPhase :=
  match phase with
  | sign => if c = '0' then some zero else if c.isDigit then some whole else none
  | zero => fractionOrExponent? c
  | whole => if c.isDigit then some whole else fractionOrExponent? c
  | point => if c.isDigit then some fraction else none
  | fraction =>
    if c.isDigit then some fraction else if c = 'e' || c = 'E' then some exponent else none
  | exponent =>
    if c = '+' || c = '-' then some exponentSign else if c.isDigit then some power else none
  | exponentSign => if c.isDigit then some power else none
  | power => if c.isDigit then some power else none

def NumberPhase.complete : NumberPhase → Bool
  | zero | whole | fraction | power => true
  | sign | point | exponent | exponentSign => false

inductive EscapePhase where
  | plain
  | slash
  | hex (missing : Nat)
  deriving DecidableEq

def isEscapable (c : Char) : Bool :=
  c == '"' || c == '\\' || c == '/' || c == 'b' || c == 'f' || c == 'n' || c == 'r' || c == 't'

-- An escape is well formed; whether its digits name a character is not asked here.
def EscapePhase.next? (phase : EscapePhase) (c : Char) : Option EscapePhase :=
  match phase with
  | plain => if c = '\\' then some slash else if c.toNat < 0x20 then none else some plain
  | slash => if isEscapable c then some plain else if c = 'u' then some (hex 3) else none
  | hex 0 => (Hex.digit? c).map fun _ => plain
  | hex (missing + 1) => (Hex.digit? c).map fun _ => hex missing

/-- The lexeme that is being read, its characters last first. -/
inductive Mode where
  | between
  | word (reversed : List Char)
  | number (phase : NumberPhase) (reversed : List Char)
  | text (phase : EscapePhase) (reversed : List Char)
  deriving DecidableEq

structure Lexer where
  tokens : List Token
  blanks : List Char
  mode : Mode
  deriving DecidableEq

namespace Lexer

def initial : Lexer := ⟨[], [], .between⟩

def emit (lexer : Lexer) (lexeme : Lexeme) : Lexer :=
  ⟨⟨lexer.blanks.reverse, lexeme⟩ :: lexer.tokens, [], .between⟩

def start? (lexer : Lexer) (c : Char) : Option Lexer :=
  if isBlank c then some { lexer with blanks := c :: lexer.blanks }
  else if c = '"' then some { lexer with mode := .text .plain [] }
  else if c.isAlpha then some { lexer with mode := .word [c] }
  else match Mark.ofChar? c, NumberPhase.start? c with
    | some mark, _ => some (lexer.emit (.mark mark))
    | none, some phase => some { lexer with mode := .number phase [c] }
    | none, none => none

-- Closes a word or a number, which no character of its own ends.
def close? (lexer : Lexer) : Option Lexer :=
  match lexer.mode with
  | .between => some lexer
  | .word reversed => (Word.ofSpelling? reversed.reverse).map fun word => lexer.emit (.word word)
  | .number phase reversed =>
    if phase.complete then some (lexer.emit (.number reversed.reverse)) else none
  | .text _ _ => none

def feed? (lexer : Lexer) (c : Char) : Option Lexer :=
  match lexer.mode with
  | .between => lexer.start? c
  | .word reversed =>
    if c.isAlpha then some { lexer with mode := .word (c :: reversed) }
    else lexer.close?.bind fun lexer => lexer.start? c
  | .number phase reversed =>
    match phase.next? c with
    | some phase => some { lexer with mode := .number phase (c :: reversed) }
    | none => lexer.close?.bind fun lexer => lexer.start? c
  | .text phase reversed =>
    -- A quote ends a text unless a backslash stands before it.
    if phase = .plain && c = '"' then some (lexer.emit (.text reversed.reverse))
    else (phase.next? c).map fun phase => { lexer with mode := .text phase (c :: reversed) }

def feedAll? : Lexer → List Char → Option Lexer
  | lexer, [] => some lexer
  | lexer, c :: rest =>
    match lexer.feed? c with
    | some lexer => lexer.feedAll? rest
    | none => none

theorem feedAll_append (lexer : Lexer) (first second : List Char) :
    lexer.feedAll? (first ++ second) =
      (lexer.feedAll? first).bind fun lexer => lexer.feedAll? second := by
  induction first generalizing lexer with
  | nil => rfl
  | cons c first ih =>
    simp only [List.cons_append, feedAll?]
    cases lexer.feed? c with
    | none => rfl
    | some lexer => exact ih lexer

end Lexer

def lex? (chars : List Char) : Option (List Token) :=
  (Lexer.initial.feedAll? chars).bind fun lexer => lexer.close?.map fun lexer => lexer.tokens.reverse

end TemplateSync.Json
