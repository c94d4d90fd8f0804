import TemplateSync.Message
import TemplateSync.Fault
import TemplateSync.Json.Written

set_option autoImplicit false

namespace TemplateSync

structure Envelope where
  tag : String
  body : Json.Written

/-- What keeps a text from being an envelope, in the order in which it is looked for. -/
inductive EnvelopeFault where
  | notAnObject
  | typeMissing
  | typeNotText
  | typeEmpty
  | bodyMissing
  | bodyNotObject
  deriving DecidableEq

def EnvelopeFault.detail : EnvelopeFault → String
  | notAnObject => "not a json object: no such value"
  | typeMissing => "missing 'type'"
  | typeNotText => "'type' is not a string"
  | typeEmpty => "'type' is empty"
  | bodyMissing => "missing 'body'"
  | bodyNotObject => "'body' is not an object"

def EnvelopeFault.fault (fault : EnvelopeFault) : Fault :=
  .malformedFrame fault.detail

namespace Envelope

-- Of members with one name the last counts.
def read (text : String) : Except EnvelopeFault Envelope :=
  match Json.members? text with
  | none => .error .notAnObject
  | some members =>
    match members.lookup "type" with
    | none => .error .typeMissing
    | some tag =>
      match tag.value.string? with
      | none => .error .typeNotText
      | some tag =>
        if tag = "" then .error .typeEmpty
        else match members.lookup "body" with
          | none => .error .bodyMissing
          | some body => if body.isObject then .ok ⟨tag, body⟩ else .error .bodyNotObject

def message? (envelope : Envelope) : Option Message :=
  match Kind.ofTag? envelope.tag with
  | some kind => Message.ofBody? envelope.body.value kind
  | none => some (.unknown envelope.tag envelope.body.text)

def print (tag : String) (body : List Char) : String :=
  String.ofList (
    "\x7b\"type\":".toList ++ (Json.ofString tag).render ++ ",\"body\":".toList ++ body ++ ['\x7d'])

end Envelope

namespace Message

-- Every text is a message.
def read (text : String) : Message :=
  match Envelope.read text with
  | .error fault => error text (some fault.fault.message)
  | .ok envelope =>
    match envelope.message? with
    | some message => message
    | none => error text (some s!"bad '{envelope.tag}' body: no such shape")

def encode (message : Message) : Except Fault String :=
  match message.body?, message with
  | some (kind, body), _ => .ok (Envelope.print kind.tag body.render)
  | none, unknown tag body =>
    match Json.Written.ofText? body with
    | some written => .ok (Envelope.print tag written.chars)
    | none => .error (.json "not one value")
  | none, message => .error (.notSendable message.kind)

end Message

end TemplateSync
