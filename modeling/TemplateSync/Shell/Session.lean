import TemplateSync.Shell.Tools

set_option autoImplicit false

namespace TemplateSync.Shell

inductive Sink where
  | output
  | errors
  | file (path : Path)
  deriving DecidableEq

structure Session where
  files : FileTree
  input : Octets
  output : Octets
  errors : Octets
  out : Sink
  err : Sink
  bindings : List (Octets × Octets)
  name : Octets
  arguments : List Octets
  status : Nat
  substituted : Nat
  strict : Bool
  tested : Bool

inductive Flow where
  | next
  | exit
  | killed (signal : Nat)
  deriving DecidableEq

namespace Session

def start (files : FileTree) (input : Octets) (name : Octets) (arguments : List Octets) : Session :=
  { files, input, output := [], errors := [], out := .output, err := .errors, bindings := [],
    name, arguments, status := 0, substituted := 0, strict := false, tested := false }

def put (session : Session) (sink : Sink) (octets : Octets) : Session :=
  match sink with
  | .output => { session with output := session.output ++ octets }
  | .errors => { session with errors := session.errors ++ octets }
  | .file path =>
    match session.files.append path (bytesOf octets) with
    | .ok files => { session with files := files }
    | .error _ => session

def place (session : Session) : Octets :=
  session.name ++ octetsOfString ": 1: "

def report (session : Session) (text : String) : Session :=
  session.put session.err (session.place ++ octetsOfString (text ++ "\n"))

def value (session : Session) (name : Octets) : Option Octets :=
  match name with
  | ['#'] => some (toString session.arguments.length).toList
  | ['?'] => some (toString session.status).toList
  | ['$'] => some ['1', '0', '0']
  | ['0'] => some session.name
  | ['@'] | ['*'] => if session.arguments = [] then none else some (spaced session.arguments)
  | _ =>
    match (String.ofList name).toNat? with
    | some n => session.arguments[n - 1]?
    | none => session.bindings.lookup name

end Session

/-- A piece of an expanded word: an octet, an empty text in quotes, or the gap between two fields. -/
inductive Atom where
  | octet (c : Char) (quoted : Bool)
  | empty
  | gap

def atoms (quoted : Bool) (octets : Octets) : List Atom :=
  (if quoted then [.empty] else []) ++ octets.map (Atom.octet · quoted)

-- Fields end at blanks outside quotes and at gaps.
def fields : List Atom → Option Octets → List Octets → List Octets
  | [], none, done => done.reverse
  | [], some field, done => (field.reverse :: done).reverse
  | .empty :: rest, field, done => fields rest (some (field.getD [])) done
  | .gap :: rest, none, done => fields rest none done
  | .gap :: rest, some field, done => fields rest none (field.reverse :: done)
  | .octet c quoted :: rest, field, done =>
    if !quoted && (isSpace c || c = '\n') then
      match field with
      | none => fields rest none done
      | some field => fields rest none (field.reverse :: done)
    else fields rest (some (c :: field.getD [])) done

def joined (atoms : List Atom) : Octets :=
  atoms.flatMap fun
    | .octet c _ => [c]
    | .empty => []
    | .gap => [' ']

def parameter (session : Session) (name : Octets) (quoted : Bool) : List Atom :=
  if name = ['@'] || (name = ['*'] && !quoted) then
    List.intercalate [.gap] (session.arguments.map (atoms quoted))
  else atoms quoted ((session.value name).getD [])

def assignment? : Word → Octets → Option (Octets × Word)
  | .text [c] false :: rest, name =>
    if c = '=' then if name = [] then none else some (name.reverse, rest)
    else if isName c && !(name = [] && c.isDigit) then assignment? rest (c :: name)
    else none
  | _, _ => none

def leadingAssignments : List Word → List (Octets × Word) × List Word
  | [] => ([], [])
  | word :: words =>
    match assignment? word [] with
    | some found =>
      let (more, rest) := leadingAssignments words
      (found :: more, rest)
    | none => ([], word :: words)

def signal? (name : Octets) : Option Nat :=
  let known := [("HUP", 1), ("INT", 2), ("QUIT", 3), ("ABRT", 6), ("KILL", 9), ("USR1", 10),
    ("SEGV", 11), ("USR2", 12), ("PIPE", 13), ("ALRM", 14), ("TERM", 15)]
  match (String.ofList name).toNat? with
  | some n => some n
  | none => (known.find? fun (text, _) => text.toList = name || ("SIG" ++ text).toList = name).map (·.2)

def sent? : List Octets → Option Nat
  | ['-', 's'] :: name :: _ => signal? name
  | ('-' :: name) :: _ => signal? name
  | _ => some 15

def interpreter? (content : Octets) : Option (List Octets) :=
  match content with
  | '#' :: '!' :: rest =>
    let line := rest.takeWhile (· != '\n')
    some ((line.splitOn ' ').filter (· ≠ []))
  | _ => none

-- What `read` gives to each name: a field, and to the last one all that is left.
def received : List Octets → List Octets → List (Octets × Octets)
  | [], _ => []
  | [name], values => [(name, spaced values)]
  | name :: names, values => (name, values.headD []) :: received names values.tail

def isBuiltin (name : Octets) : Bool :=
  ["echo", "printf", "test", "[", "true", "false", "pwd"].any (·.toList = name)

def openText : IoError → String
  | .os .noEntry => "No such file"
  | error => systemText error

mutual

def expand : Nat → Session → Word → List Atom × Session
  | 0, session, _ => ([], session)
  | _ + 1, session, [] => ([], session)
  | fuel + 1, session, fragment :: word =>
    let (first, session) := match fragment with
      | .text octets quoted => (atoms quoted octets, session)
      | .value name quoted => (parameter session name quoted, session)
      | .choice name choice emptyToo alternative quoted =>
        let found := session.value name
        let isSet := found.isSome && !(emptyToo && found = some [])
        match choice, isSet with
        | .default, true => (parameter session name quoted, session)
        | .replacement, false => (atoms quoted [], session)
        | _, _ => expand fuel session alternative
      | .output source quoted =>
        match Script.parse source with
        | .error _ => ([], session)
        | .ok script =>
          -- The script inside writes to a place of its own; only files and input last.
          let inner := { session with output := [], out := .output }
          let (_, ended) := run fuel script inner
          let text := (ended.output.reverse.dropWhile (· == '\n')).reverse
          (atoms quoted text,
            { session with
              files := ended.files, errors := ended.errors, input := ended.input,
              substituted := ended.status })
    let (rest, session) := expand fuel session word
    (first ++ rest, session)

def expandAll : Nat → Session → List Word → List Octets × Session
  | 0, session, _ => ([], session)
  | _ + 1, session, [] => ([], session)
  | fuel + 1, session, word :: words =>
    let (first, session) := expand fuel session word
    let (rest, session) := expandAll fuel session words
    (fields first none [] ++ rest, session)

def assign : Nat → Session → List (Octets × Word) → Session
  | 0, session, _ => session
  | _ + 1, session, [] => session
  | fuel + 1, session, (name, word) :: rest =>
    let (value, session) := expand fuel session word
    assign fuel { session with bindings := (name, joined value) :: session.bindings } rest

-- Opens the redirections in order; `false` where one fails.
def redirect : Nat → Session → List Redirect → Bool × Session
  | 0, session, _ => (true, session)
  | _ + 1, session, [] => (true, session)
  | fuel + 1, session, redirection :: rest =>
    let (atoms, session) := expand fuel session redirection.word
    let word := joined atoms
    let aim (sink : Sink) : Session :=
      if redirection.descriptor = 2 then { session with err := sink }
      else if redirection.descriptor = 1 then { session with out := sink }
      else session
    let create (files : Except IoError FileTree) : Bool × Session :=
      match files with
      | .ok files => redirect fuel { aim (.file (pathOf word)) with files := files } rest
      | .error (.os .noEntry) =>
        (false, session.report s!"cannot create {shown word}: Directory nonexistent")
      | .error error => (false, session.report s!"cannot create {shown word}: {systemText error}")
    match redirection.target with
    | .same =>
      redirect fuel (aim (if word = ['2'] then session.err else session.out)) rest
    | .write => create (session.files.write (pathOf word) [])
    | .append => create (session.files.append (pathOf word) [])
    | .read =>
      match session.files.read (pathOf word) with
      | .ok bytes => redirect fuel { session with input := octetsOf bytes } rest
      | .error error => (false, session.report s!"cannot open {shown word}: {openText error}")

-- Runs a script as a program of its own: only files, input and output last.
def nest : Nat → Session → Octets → Octets → List Octets → Flow × Session
  | 0, session, _, _, _ => (.next, session)
  | fuel + 1, session, source, name, arguments =>
    let inner := { session with
      name := name, arguments := arguments, bindings := [], status := 0, strict := false,
      tested := false }
    let (flow, ended) := match Script.parse source with
      | .ok script => run fuel script inner
      | .error error => (.next, { inner.report error.text with status := 2 })
    let status := match flow with
      | .killed signal => 128 + signal
      | _ => ended.status
    (.next, { session with
      files := ended.files, input := ended.input, output := ended.output, errors := ended.errors,
      status := status })

def runFile : Nat → Session → Octets → List Octets → Flow × Session
  | 0, session, _, _ => (.next, session)
  | fuel + 1, session, name, arguments =>
    let refuse (status : Nat) (text : String) : Flow × Session :=
      (.next, { session.report s!"{shown name}: {text}" with status := status })
    match session.files.find (pathOf name) with
    | .error (.os .noEntry) => refuse 127 "not found"
    | .error error => refuse 126 (systemText error)
    | .ok (_, .file content true) => nest fuel session (octetsOf content) name arguments
    | .ok _ => refuse 126 "Permission denied"

def special? : Nat → Session → Octets → List Octets → Option (Flow × Session)
  | 0, _, _, _ => none
  | fuel + 1, session, name, arguments =>
    let done (session : Session) : Option (Flow × Session) := some (.next, session)
    match String.ofList name, arguments with
    | ":", _ => done { session with status := 0 }
    | "exit", [] => some (.exit, session)
    | "exit", code :: _ =>
      if code ≠ [] && code.all Char.isDigit then
        some (.exit, { session with status := natural code % 256 })
      else some (.exit, { session.report s!"exit: Illegal number: {shown code}" with status := 2 })
    | "shift", _ => done { session with arguments := session.arguments.tail, status := 0 }
    | "set", ['-', '-'] :: arguments => done { session with arguments := arguments, status := 0 }
    | "set", options =>
      done { session with strict := session.strict || options.contains ['-', 'e'], status := 0 }
    | "read", names =>
      let line := session.input.takeWhile (· != '\n')
      let rest := session.input.dropWhile (· != '\n')
      let values := fields (line.map (Atom.octet · false)) none []
      done { session with
        input := rest.tail, status := if rest = [] then 1 else 0,
        bindings := received (names.filter fun name => !isOption name) values ++ session.bindings }
    | "eval", words =>
      match Script.parse (spaced words) with
      | .ok script => some (run fuel script session)
      | .error error => some (.exit, { session.report error.text with status := 2 })
    | "exec", name :: arguments =>
      match command fuel session name arguments with
      | (.next, session) => some (.exit, session)
      | ended => some ended
    | "exec", [] => done { session with status := 0 }
    | "kill", _ =>
      match sent? arguments with
      | some 0 => done { session with status := 0 }
      | some signal => some (.killed signal, session)
      | none => done { session.report "kill: invalid signal" with status := 2 }
    | "sh", ['-', 'c'] :: source :: name :: arguments => some (nest fuel session source name arguments)
    | "sh", [['-', 'c'], source] => some (nest fuel session source ['s', 'h'] [])
    | "sh", file :: arguments =>
      match session.files.read (pathOf file) with
      | .ok content => some (nest fuel session (octetsOf content) file arguments)
      | .error error =>
        let inner := { session with name := ['s', 'h'] }.report
          s!"cannot open {shown file}: {openText error}"
        done { inner with name := session.name, status := 2 }
    | _, _ => none

def command : Nat → Session → Octets → List Octets → Flow × Session
  | 0, session, _, _ => (.next, session)
  | fuel + 1, session, name, arguments =>
    match special? fuel session name arguments with
    | some done => done
    | none =>
      if name.contains '/' then runFile fuel session name arguments
      else match tool? true name with
        | none => (.next, { session.report s!"{shown name}: not found" with status := 127 })
        | some tool =>
          let effect := tool ⟨arguments, session.input, session.files⟩
          let session := { session with
            files := effect.files, input := effect.input, status := effect.status }
          let errors :=
            if isBuiltin name && effect.errors ≠ [] then session.place ++ effect.errors
            else effect.errors
          (.next, (session.put session.out effect.output).put session.err errors)

-- A command that fails ends a strict script, unless it is a condition.
def run : Nat → Script → Session → Flow × Session
  | 0, _, session => (.next, session)
  | fuel + 1, script, session =>
    let watched (ended : Flow × Session) : Flow × Session :=
      if ended.1 = .next && ended.2.strict && !session.tested && ended.2.status ≠ 0 then
        (.exit, ended.2)
      else ended
    let asCondition (script : Script) : Flow × Session :=
      let (flow, ended) := run fuel script { session with tested := true }
      (flow, { ended with tested := session.tested })
    match script with
    | .skip => (.next, session)
    | .simple words redirects =>
      let (assignments, words) := leadingAssignments words
      let (fields, expanded) := expandAll fuel { session with substituted := 0 } words
      let (opened, inner) := redirect fuel expanded redirects
      let restore (flow : Flow × Session) : Flow × Session :=
        watched (flow.1, { flow.2 with out := session.out, err := session.err })
      if !opened then restore (.next, { inner with status := 2 })
      else match fields with
        | [] =>
          let assigned := assign fuel inner assignments
          restore (.next, { assigned with status := assigned.substituted })
        | name :: arguments => restore (command fuel inner name arguments)
    | .sequence first second =>
      match run fuel first session with
      | (.next, session) => run fuel second session
      | ended => ended
    | .both first second =>
      match asCondition first with
      | (.next, session) => if session.status = 0 then run fuel second session else (.next, session)
      | ended => ended
    | .either first second =>
      match asCondition first with
      | (.next, session) => if session.status = 0 then (.next, session) else run fuel second session
      | ended => ended
    | .opposite script =>
      match asCondition script with
      | (.next, session) =>
        (.next, { session with status := if session.status = 0 then 1 else 0 })
      | ended => ended
    | .pipe first second =>
      let (flow, left) := run fuel first { session with output := [], out := .output }
      let session := { session with files := left.files, errors := left.errors }
      match flow with
      | .killed signal => (.killed signal, session)
      -- Both sides end before anyone looks, so the second may run after the first.
      | _ =>
        let (flow, right) := run fuel second { session with input := left.output }
        let ended := { right with
          input := left.input, bindings := session.bindings, arguments := session.arguments }
        watched (if flow = .exit then .next else flow, ended)
    | .group script redirects =>
      let (opened, inner) := redirect fuel session redirects
      let (flow, ended) := if opened then run fuel script inner else (.next, { inner with status := 2 })
      (flow, { ended with out := session.out, err := session.err })
    | .subshell script redirects =>
      let (opened, inner) := redirect fuel session redirects
      let (flow, ended) := if opened then run fuel script inner else (.next, { inner with status := 2 })
      watched (if flow = .exit then .next else flow,
        { ended with
          out := session.out, err := session.err, bindings := session.bindings,
          arguments := session.arguments })
    | .condition test yes no =>
      match asCondition test with
      | (.next, session) =>
        if session.status = 0 then run fuel yes session
        else run fuel no { session with status := 0 }
      | ended => ended
    | .each name words script =>
      let (values, session) := expandAll fuel session words
      forEach fuel name values script { session with status := 0 }

def forEach : Nat → Octets → List Octets → Script → Session → Flow × Session
  | fuel + 1, name, value :: values, script, session =>
    match run fuel script { session with bindings := (name, value) :: session.bindings } with
    | (.next, session) => forEach fuel name values script session
    | ended => ended
  | _, _, _, _, session => (.next, session)

end

end TemplateSync.Shell
