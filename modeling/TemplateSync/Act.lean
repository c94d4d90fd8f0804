import TemplateSync.Event

set_option autoImplicit false

namespace TemplateSync

structure Outcome (σ α : Type) where
  value : α
  events : List Event
  state : σ

def Act (σ α : Type) : Type :=
  σ → Outcome σ α

namespace Act

variable {σ τ α β : Type}

def pure (value : α) : Act σ α :=
  fun state => ⟨value, [], state⟩

def bind (first : Act σ α) (next : α → Act σ β) : Act σ β :=
  fun state =>
    let one := first state
    let two := next one.value one.state
    ⟨two.value, one.events ++ two.events, two.state⟩

instance : Monad (Act σ) where
  pure := Act.pure
  bind := Act.bind

def say (event : Event) : Act σ Unit :=
  fun state => ⟨(), [event], state⟩

def sayAll (events : List Event) : Act σ Unit :=
  fun state => ⟨(), events, state⟩

def get : Act σ σ :=
  fun state => ⟨state, [], state⟩

def set (state : σ) : Act σ Unit :=
  fun _ => ⟨(), [], state⟩

def modify (change : σ → σ) : Act σ Unit :=
  fun state => ⟨(), [], change state⟩

def zoom (read : τ → σ) (write : σ → τ → τ) (act : Act σ α) : Act τ α :=
  fun state =>
    let done := act (read state)
    ⟨done.value, done.events, write done.state state⟩

@[simp] theorem pure_run (value : α) (state : σ) :
    (Pure.pure value : Act σ α) state = ⟨value, [], state⟩ := rfl

@[simp] theorem bind_run (first : Act σ α) (next : α → Act σ β) (state : σ) :
    (first >>= next) state =
      ⟨(next (first state).value (first state).state).value,
        (first state).events ++ (next (first state).value (first state).state).events,
        (next (first state).value (first state).state).state⟩ := rfl

@[simp] theorem say_run (event : Event) (state : σ) : say event state = ⟨(), [event], state⟩ := rfl

@[simp] theorem sayAll_run (events : List Event) (state : σ) :
    sayAll events state = ⟨(), events, state⟩ := rfl

@[simp] theorem get_run (state : σ) : (get : Act σ σ) state = ⟨state, [], state⟩ := rfl

@[simp] theorem modify_run (change : σ → σ) (state : σ) :
    modify change state = ⟨(), [], change state⟩ := rfl

@[simp] theorem zoom_run (read : τ → σ) (write : σ → τ → τ) (act : Act σ α) (state : τ) :
    zoom read write act state =
      ⟨(act (read state)).value, (act (read state)).events, write (act (read state)).state state⟩ :=
  rfl

end Act

end TemplateSync
