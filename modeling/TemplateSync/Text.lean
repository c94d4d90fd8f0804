set_option autoImplicit false

namespace TemplateSync.Text

-- Unicode's property White_Space.
def isBlank (c : Char) : Bool :=
  let code := c.toNat
  (9 ≤ code && code ≤ 13) || code == 0x20 || code == 0x85 || code == 0xA0 || code == 0x1680 ||
    (0x2000 ≤ code && code ≤ 0x200A) || code == 0x2028 || code == 0x2029 || code == 0x202F ||
    code == 0x205F || code == 0x3000

def trimLeft (chars : List Char) : List Char :=
  chars.dropWhile isBlank

def trim (text : String) : String :=
  String.ofList (trimLeft (trimLeft text.toList).reverse).reverse

-- One carriage return before a line feed belongs to the end of the line.
def lineOf (reversed : List Char) : String :=
  match reversed with
  | '\r' :: rest => String.ofList rest.reverse
  | _ => String.ofList reversed.reverse

def linesFrom : List Char → List Char → List String → List String
  | [], [], done => done.reverse
  | line, [], done => (String.ofList line.reverse :: done).reverse
  | line, c :: rest, done =>
    if c = '\n' then linesFrom [] rest (lineOf line :: done) else linesFrom (c :: line) rest done

def lines (text : String) : List String :=
  linesFrom [] text.toList []

end TemplateSync.Text
