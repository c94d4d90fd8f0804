import TemplateSync.IoError

set_option autoImplicit false

namespace TemplateSync

inductive Fault where
  | io (error : IoError)
  | json (detail : String)
  | toml (detail : String)
  | malformedFrame (detail : String)
  | frameTooLarge (length limit : Nat)
  | notSendable (kind : String)
  | queueClosed
  | cancelled
  | compile (project reason : String)
  | reference (path reason : String)
  | config (text : String)
  deriving DecidableEq

def Fault.message : Fault → String
  | io error => "io error: " ++ error.message
  | json detail => "json error: " ++ detail
  | toml detail => "config error: " ++ detail
  | malformedFrame detail => "malformed frame: " ++ detail
  | frameTooLarge length limit => s!"frame of {length} bytes exceeds limit of {limit} bytes"
  | notSendable kind => s!"message kind '{kind}' cannot be sent"
  | queueClosed => "queue closed"
  | cancelled => "cancelled"
  | compile project reason => s!"compile failed for {project}: {reason}"
  | reference path reason => s!"cannot resolve reference {path}: {reason}"
  | config text => text

end TemplateSync
