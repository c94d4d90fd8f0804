import TemplateSync.Codegen.Toolchain

set_option autoImplicit false

namespace TemplateSync

structure Handles where
  entries : List (Path × ReferenceHandle)

structure Resolution where
  handles : List ReferenceHandle
  failures : List (Path × Fault)

namespace Handles

variable {σ : Type}

def empty : Handles := ⟨[]⟩

def find? (cache : Handles) (path : Path) : Option ReferenceHandle :=
  (cache.entries.find? fun entry => decide (path.Same entry.1)).map (·.2)

def contains (cache : Handles) (path : Path) : Bool :=
  (cache.find? path).isSome

def size (cache : Handles) : Nat :=
  cache.entries.length

def resolveOne (resolve : Resolver σ) (cache : Handles) (path : Path) :
    Act σ (Except Fault ReferenceHandle × Handles) :=
  match cache.find? path with
  | some handle => pure (.ok handle, cache)
  | none => do
    match ← resolve path with
    | .ok handle => return (.ok handle, ⟨cache.entries ++ [(path, handle)]⟩)
    | .error fault => return (.error fault, cache)

def resolveAll (resolve : Resolver σ) : Handles → List Path → Act σ (Resolution × Handles)
  | cache, [] => pure (⟨[], []⟩, cache)
  | cache, path :: paths => do
    let (answer, cache) ← resolveOne resolve cache path
    let (rest, cache) ← resolveAll resolve cache paths
    match answer with
    | .ok handle => return ({ rest with handles := handle :: rest.handles }, cache)
    | .error fault => return ({ rest with failures := (path, fault) :: rest.failures }, cache)

end Handles

end TemplateSync
