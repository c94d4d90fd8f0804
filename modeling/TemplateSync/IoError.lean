set_option autoImplicit false

namespace TemplateSync

inductive OsError where
  | noEntry
  | denied
  | notDirectory
  | isDirectory
  | nameTooLong
  | tooManyLinks
  | notExecutable
  | brokenPipe
  | unreachable
  | refused
  deriving DecidableEq

namespace OsError

def number : OsError → Nat
  | noEntry => 2
  | notExecutable => 8
  | denied => 13
  | notDirectory => 20
  | isDirectory => 21
  | brokenPipe => 32
  | nameTooLong => 36
  | tooManyLinks => 40
  | unreachable => 101
  | refused => 111

def text : OsError → String
  | noEntry => "No such file or directory"
  | notExecutable => "Exec format error"
  | brokenPipe => "Broken pipe"
  | denied => "Permission denied"
  | notDirectory => "Not a directory"
  | isDirectory => "Is a directory"
  | nameTooLong => "File name too long"
  | tooManyLinks => "Too many levels of symbolic links"
  | unreachable => "Network is unreachable"
  | refused => "Connection refused"

def message (error : OsError) : String :=
  s!"{error.text} (os error {error.number})"

end OsError

inductive IoError where
  | os (error : OsError)
  | notText
  | nulInPath
  | nulInArgument
  | frameTooLong
  | said (text : String)
  deriving DecidableEq

def IoError.message : IoError → String
  | os error => error.message
  | notText => "stream did not contain valid UTF-8"
  | nulInPath => "file name contained an unexpected NUL byte"
  | nulInArgument => "nul byte found in provided data"
  | frameTooLong => "frame too long"
  | said text => text

end TemplateSync
