import TemplateSync.FileTree.Basic
import TemplateSync.Shell.Script

set_option autoImplicit false

namespace TemplateSync.Shell

def octetsOf (bytes : Bytes) : Octets :=
  bytes.map fun byte => Char.ofNat byte.toNat

def bytesOf (octets : Octets) : Bytes :=
  octets.map fun c => UInt8.ofNat c.toNat

def octetsOfString (text : String) : Octets :=
  octetsOf (Utf8.encode text)

def pathOf (octets : Octets) : Path :=
  ⟨bytesOf octets⟩

structure Desk where
  arguments : List Octets
  input : Octets
  files : FileTree

structure Effect where
  status : Nat
  output : Octets
  errors : Octets
  input : Octets
  files : FileTree

namespace Desk

def finish (desk : Desk) (status : Nat) (output errors : Octets) : Effect :=
  ⟨status, output, errors, desk.input, desk.files⟩

def succeed (desk : Desk) (output : Octets) : Effect :=
  desk.finish 0 output []

def fail (desk : Desk) (status : Nat) (error : String) : Effect :=
  desk.finish status [] (octetsOfString (error ++ "\n"))

end Desk

def shown (octets : Octets) : String :=
  Utf8.decode (bytesOf octets)

def systemText : IoError → String
  | .os error => error.text
  | error => error.message

def contents (desk : Desk) (tool : String) : List Octets → Effect
  | [] => ⟨0, [], [], desk.input, desk.files⟩
  | name :: names =>
    let rest := contents desk tool names
    if name = ['-'] then { rest with output := desk.input ++ rest.output, input := [] }
    else match desk.files.read (pathOf name) with
      | .ok bytes => { rest with output := octetsOf bytes ++ rest.output }
      | .error error =>
        let report := octetsOfString s!"{tool}: {shown name}: {systemText error}\n"
        { rest with status := 1, errors := report ++ rest.errors }

def isOption (argument : Octets) : Bool :=
  match argument with
  | '-' :: _ :: _ => true
  | _ => false

def inputOr (names : List Octets) : List Octets :=
  if names = [] then [['-']] else names

def cat (desk : Desk) : Effect :=
  contents desk "cat" (inputOr (desk.arguments.filter fun argument => !isOption argument))

def octalValue (digits : Octets) : Nat :=
  digits.foldl (fun sum c => sum * 8 + (c.toNat - 48)) 0

def isOctal (c : Char) : Bool := '0' ≤ c && c ≤ '7'

def octalPrefix (limit : Nat) (octets : Octets) : Octets × Octets :=
  let digits := (octets.take limit).takeWhile isOctal
  (digits, octets.drop digits.length)

def octet (n : Nat) : Char := Char.ofNat (n % 256)

-- An escape after its backslash; `none` ends all output.
def escape? (echoes : Bool) (octets : Octets) : Option (Octets × Octets) :=
  match octets with
  | [] => some (['\\'], [])
  | 'a' :: rest => some (['\x07'], rest)
  | 'b' :: rest => some (['\x08'], rest)
  | 'c' :: rest => if echoes then none else some (['\\', 'c'], rest)
  | 'f' :: rest => some (['\x0c'], rest)
  | 'n' :: rest => some (['\n'], rest)
  | 'r' :: rest => some (['\r'], rest)
  | 't' :: rest => some (['\t'], rest)
  | 'v' :: rest => some (['\x0b'], rest)
  | '\\' :: rest => some (['\\'], rest)
  | c :: rest =>
    if echoes then
      if c = 'e' then some (['\x1b'], rest)
      else if c = '0' then
        let (digits, rest) := octalPrefix 3 rest
        some ([octet (octalValue digits)], rest)
      else if isOctal c then
        let (digits, rest) := octalPrefix 3 (c :: rest)
        some ([octet (octalValue digits)], rest)
      else some (['\\', c], rest)
    else if isOctal c then
      let (digits, rest) := octalPrefix 3 (c :: rest)
      some ([octet (octalValue digits)], rest)
    else if c = '"' then some (['"'], rest)
    else some (['\\', c], rest)

def unescape (echoes : Bool) : Nat → Octets → Octets → Octets × Bool
  | fuel + 1, '\\' :: rest, done =>
    match escape? echoes rest with
    | some (octets, rest) => unescape echoes fuel rest (octets.reverse ++ done)
    | none => (done.reverse, false)
  | fuel + 1, c :: rest, done => unescape echoes fuel rest (c :: done)
  | _, _, done => (done.reverse, true)

def spaced (words : List Octets) : Octets :=
  List.intercalate [' '] words

-- The command language's own `echo` replaces escapes.
def echo (escapes : Bool) (desk : Desk) : Effect :=
  let (silent, words) := match desk.arguments with
    | ['-', 'n'] :: words => (true, words)
    | words => (false, words)
  let text := spaced words
  let (text, goesOn) := if escapes then unescape true text.length text [] else (text, true)
  desk.succeed (text ++ if silent || !goesOn then [] else ['\n'])

def integer? (octets : Octets) : Option Int :=
  (String.ofList octets).toInt?

structure Layout where
  flags : Octets
  width : Nat
  precision : Option Nat

def natural (digits : Octets) : Nat :=
  digits.foldl (fun sum c => sum * 10 + (c.toNat - 48)) 0

def isFlag (c : Char) : Bool := c == '-' || c == '0' || c == '+' || c == ' ' || c == '#'

def layout (octets : Octets) : Layout × Octets :=
  let flags := octets.takeWhile isFlag
  let octets := octets.dropWhile isFlag
  let width := natural (octets.takeWhile Char.isDigit)
  match octets.dropWhile Char.isDigit with
  | '.' :: rest => (⟨flags, width, some (natural (rest.takeWhile Char.isDigit))⟩,
      rest.dropWhile Char.isDigit)
  | rest => (⟨flags, width, none⟩, rest)

def Layout.fill (layout : Layout) (numeric : Bool) (text : Octets) : Octets :=
  let missing := layout.width - text.length
  if layout.flags.contains '-' then text ++ List.replicate missing ' '
  else if numeric && layout.flags.contains '0' then
    match text with
    | '-' :: digits => '-' :: List.replicate missing '0' ++ digits
    | digits => List.replicate missing '0' ++ digits
  else List.replicate missing ' ' ++ text

structure Directed where
  text : Octets
  goesOn : Bool
  fits : Bool

def directive (layout : Layout) (c : Char) (argument : Option Octets) : Directed :=
  let text := argument.getD []
  let number := (integer? text).getD 0
  let isNumber := text = [] || (integer? text).isSome
  let digits (base : Nat) : Directed :=
    ⟨layout.fill true (Nat.toDigits base number.toNat), true, isNumber⟩
  match c with
  | 'd' | 'i' | 'u' => ⟨layout.fill true (toString number).toList, true, isNumber⟩
  | 'o' => digits 8
  | 'x' => digits 16
  | 'X' =>
    let lower := digits 16
    { lower with text := lower.text.map Char.toUpper }
  | 'c' => ⟨layout.fill false (text.take 1), true, true⟩
  | 'b' =>
    let (text, goesOn) := unescape true text.length text []
    ⟨layout.fill false text, goesOn, true⟩
  | _ =>
    let text := match layout.precision with
      | some n => text.take n
      | none => text
    ⟨layout.fill false text, true, true⟩

/-- A format at work: what it has written, the arguments that are left, whether one was taken, whether output
goes on, and the arguments that are no numbers where numbers belong. -/
structure Formatting where
  written : Octets
  arguments : List Octets
  took : Bool
  goesOn : Bool
  misfits : List Octets

def formatOnce : Nat → Octets → Formatting → Formatting
  | fuel + 1, '%' :: '%' :: rest, work =>
    formatOnce fuel rest { work with written := work.written ++ ['%'] }
  | fuel + 1, '%' :: rest, work =>
    match layout rest with
    | (_, []) => work
    | (layout, c :: rest) =>
      let done := directive layout c work.arguments.head?
      let misfit := if done.fits then [] else work.arguments.take 1
      let work := ⟨work.written ++ done.text, work.arguments.tail, true, done.goesOn, work.misfits ++ misfit⟩
      if done.goesOn then formatOnce fuel rest work else work
  | fuel + 1, '\\' :: rest, work =>
    match escape? false rest with
    | some (octets, rest) => formatOnce fuel rest { work with written := work.written ++ octets }
    | none => { work with goesOn := false }
  | fuel + 1, c :: rest, work => formatOnce fuel rest { work with written := work.written ++ [c] }
  | _, _, work => work

-- A format is used again while arguments remain.
def formatAll : Nat → Octets → Formatting → Formatting
  | 0, _, work => work
  | fuel + 1, format, work =>
    let work := formatOnce format.length format { work with took := false }
    if work.goesOn && work.took && work.arguments ≠ [] then formatAll fuel format work else work

def printf (desk : Desk) : Effect :=
  match desk.arguments with
  | ['-', '-'] :: format :: arguments | format :: arguments =>
    let work := formatAll (arguments.length + 1) format ⟨[], arguments, false, true, []⟩
    let complaint := work.misfits.flatMap fun argument =>
      octetsOfString s!"printf: {shown argument}: expected numeric value\n"
    desk.finish (if work.misfits = [] then 0 else 1) work.written complaint
  | [] => desk.fail 2 "printf: usage: printf format [arg ...]"

def compare? (relation : Octets) (a b : Int) : Option Bool :=
  match relation with
  | ['-', 'e', 'q'] => some (a == b)
  | ['-', 'n', 'e'] => some (a != b)
  | ['-', 'l', 't'] => some (a < b)
  | ['-', 'l', 'e'] => some (a ≤ b)
  | ['-', 'g', 't'] => some (b < a)
  | ['-', 'g', 'e'] => some (b ≤ a)
  | _ => none

def fileTest (files : FileTree) (test : Char) (name : Octets) : Bool :=
  match files.find (pathOf name) with
  | .error _ => false
  | .ok (_, node) =>
    match test, node with
    | 'e', _ | 'r', _ | 'w', _ => true
    | 'f', .file _ _ => true
    | 'd', .directory | 'x', .directory => true
    | 's', .file content _ => content ≠ []
    | 's', .directory => true
    | 'x', .file _ executable => executable
    | _, _ => false

def evaluate (files : FileTree) : List Octets → Option Bool
  | [] => some false
  | [word] => some (word ≠ [])
  | ['!'] :: rest => (evaluate files rest).map (!·)
  | [['-', test], word] =>
    if test = 'n' then some (word ≠ [])
    else if test = 'z' then some (word = [])
    else some (fileTest files test word)
  | [a, ['='], b] => some (a = b)
  | [a, ['!', '='], b] => some (a ≠ b)
  | [a, relation, b] =>
    match integer? a, integer? b with
    | some a, some b => compare? relation a b
    | _, _ => none
  | _ => none

def test (arguments : List Octets) (desk : Desk) : Effect :=
  match evaluate desk.files arguments with
  | some true => desk.finish 0 [] []
  | some false => desk.finish 1 [] []
  | none => desk.fail 2 "test: bad expression"

def linesOf (octets : Octets) : List Octets :=
  let pieces := octets.splitOn '\n'
  if pieces.getLast? = some [] then pieces.dropLast else pieces

def isInfix (pattern : Octets) : Octets → Bool
  | [] => pattern = []
  | c :: rest => pattern.isPrefixOf (c :: rest) || isInfix pattern rest

-- Patterns are taken as they are, but for the anchors at their ends.
def hit (pattern line : Octets) : Bool :=
  match pattern with
  | '^' :: rest =>
    if rest.getLast? = some '$' then rest.dropLast = line else rest.isPrefixOf line
  | _ => if pattern.getLast? = some '$' then pattern.dropLast.isSuffixOf line else isInfix pattern line

def grep (desk : Desk) : Effect :=
  let options := (desk.arguments.filter isOption).flatten
  match desk.arguments.filter fun argument => !isOption argument with
  | [] => desk.fail 2 "Usage: grep [OPTION]... PATTERNS [FILE]..."
  | pattern :: names =>
    let read := contents desk "grep" (inputOr names)
    let lines := (linesOf read.output).filter fun line => hit pattern line != options.contains 'v'
    let output :=
      if options.contains 'q' then []
      else if options.contains 'c' then (toString lines.length).toList ++ ['\n']
      else lines.flatMap (· ++ ['\n'])
    let status :=
      if options.contains 'q' && lines ≠ [] then 0
      else if read.status ≠ 0 then 2
      else if lines = [] then 1 else 0
    { read with status := status, output := output }

def countOf (options : Octets) (octets : Octets) : Nat :=
  if options.contains 'l' then octets.count '\n' else octets.length

def wc (desk : Desk) : Effect :=
  let options := (desk.arguments.filter isOption).flatten
  let names := desk.arguments.filter fun argument => !isOption argument
  let read := contents desk "wc" (inputOr names)
  let count := (toString (countOf options read.output)).toList
  { read with output := count ++ (match names with | [name] => ' ' :: name | _ => []) ++ ['\n'] }

def head (desk : Desk) : Effect :=
  let (lines, count, names) := match desk.arguments with
    | ['-', 'c'] :: count :: names => (false, count, names)
    | ['-', 'n'] :: count :: names => (true, count, names)
    | ('-' :: c :: count) :: names =>
      if c.isDigit then (true, c :: count, names) else (c != 'c', count, names)
    | names => (true, ['1', '0'], names)
  let count := ((integer? count).getD 0).toNat
  let read := contents desk "head" (inputOr names)
  if lines then { read with output := ((linesOf read.output).take count).flatMap (· ++ ['\n']) }
  else { read with output := read.output.take count }

def tail (desk : Desk) : Effect :=
  let (lines, count, names) := match desk.arguments with
    | ['-', 'c'] :: count :: names => (false, count, names)
    | ['-', 'n'] :: count :: names => (true, count, names)
    | names => (true, ['1', '0'], names)
  let keep {α : Type} (all : List α) : List α :=
    match count with
    | '+' :: place => all.drop (natural place - 1)
    | count => all.drop (all.length - natural count)
  let read := contents desk "tail" (inputOr names)
  if lines then { read with output := (keep (linesOf read.output)).flatMap (· ++ ['\n']) }
  else { read with output := keep read.output }

def characters : Octets → Octets
  | a :: '-' :: b :: rest =>
    (List.range (b.toNat + 1 - a.toNat)).map (fun i => Char.ofNat (a.toNat + i)) ++ characters rest
  | '\\' :: c :: rest => ((escape? false (c :: rest)).map (·.1)).getD [c] ++ characters rest
  | c :: rest => c :: characters rest
  | [] => []

-- Characters of the first set become those of the second, whose last one stands for the rest.
def exchange (desk : Desk) : Effect :=
  let apply (f : Octets → Octets) : Effect :=
    ⟨0, f desk.input, [], [], desk.files⟩
  match desk.arguments with
  | [['-', 'd'], set] => apply fun input => input.filter fun c => !(characters set).contains c
  | [first, second] =>
    let first := characters first
    let second := characters second
    apply fun input => input.map fun c =>
      match first.idxOf? c with
      | some i => (second[i]?.or second.getLast?).getD c
      | none => c
  | _ => desk.fail 1 "tr: missing operand"

def substitute (pattern replacement : Octets) (everywhere : Bool) : Nat → Octets → Octets
  | 0, line => line
  | _, [] => []
  | fuel + 1, c :: rest =>
    if pattern ≠ [] && pattern.isPrefixOf (c :: rest) then
      let after := (c :: rest).drop pattern.length
      replacement ++ if everywhere then substitute pattern replacement everywhere fuel after else after
    else c :: substitute pattern replacement everywhere fuel rest

def mapLines (f : Octets → Octets) (octets : Octets) : Octets :=
  let pieces := octets.splitOn '\n'
  let last := (pieces.getLast?).getD []
  List.intercalate ['\n'] ((pieces.dropLast.map f) ++ [if last = [] then [] else f last])

def sed (desk : Desk) : Effect :=
  match desk.arguments with
  | ('s' :: mark :: command) :: names =>
    match command.splitOn mark with
    | [pattern, replacement, flags] =>
      let read := contents desk "sed" (inputOr names)
      let edit (line : Octets) : Octets :=
        match pattern with
        | ['^'] => replacement ++ line
        | ['$'] => line ++ replacement
        | _ => substitute pattern replacement (flags.contains 'g') line.length line
      { read with output := mapLines edit read.output }
    | _ => desk.fail 1 "sed: -e expression #1, char 0: unterminated command"
  | _ => desk.fail 1 "sed: no script"

def tee (desk : Desk) : Effect :=
  let files := desk.arguments.foldl (fun files name =>
    match files.write (pathOf name) (bytesOf desk.input) with
    | .ok files => files
    | .error _ => files) desk.files
  ⟨0, desk.input, [], [], files⟩

def sort (desk : Desk) : Effect :=
  let read := contents desk "sort" (inputOr (desk.arguments.filter fun argument => !isOption argument))
  let order (a b : Octets) : Bool := a = b || a < b
  { read with output := ((linesOf read.output).mergeSort order).flatMap (· ++ ['\n']) }

def baseName (octets : Octets) : Octets :=
  ((octets.splitOn '/').getLast?).getD octets

def remove (desk : Desk) : Effect :=
  let names := desk.arguments.filter fun argument => !isOption argument
  let files := names.foldl (fun files name =>
    match files.placeWith false (pathOf name) with
    | .ok (.found location _) => files.prune location
    | _ => files) desk.files
  { desk.succeed [] with files := files }

def touch (desk : Desk) : Effect :=
  let files := desk.arguments.foldl (fun files name =>
    match files.append (pathOf name) [] with
    | .ok files => files
    | .error _ => files) desk.files
  { desk.succeed [] with files := files }

def makeDirectory (desk : Desk) : Effect :=
  let names := desk.arguments.filter fun argument => !isOption argument
  let files := names.foldl (fun files name => files.makeDirectories (files.layout (pathOf name)))
    desk.files
  { desk.succeed [] with files := files }

-- The tools by name; `builtin` tells the command language's own from programs.
def tool? (builtin : Bool) (name : Octets) : Option (Desk → Effect) :=
  match String.ofList name with
  | "cat" => some cat
  | "echo" => some (echo builtin)
  | "printf" => some printf
  | "true" => some fun desk => desk.succeed []
  | "false" => some fun desk => desk.finish 1 [] []
  | "sleep" => some fun desk => desk.succeed []
  | "test" => some fun desk => test desk.arguments desk
  | "[" => some fun desk => test desk.arguments.dropLast desk
  | "grep" => some grep
  | "wc" => some wc
  | "head" => some head
  | "tail" => some tail
  | "tr" => some exchange
  | "sed" => some sed
  | "tee" => some tee
  | "sort" => some sort
  | "basename" => some fun desk => desk.succeed (baseName (desk.arguments.headD []) ++ ['\n'])
  | "rm" => some remove
  | "touch" => some touch
  | "mkdir" => some makeDirectory
  | "pwd" => some fun desk =>
    desk.succeed (octetsOf (FileTree.pathOf desk.files.workingDirectory).bytes ++ ['\n'])
  | _ => none

end TemplateSync.Shell
