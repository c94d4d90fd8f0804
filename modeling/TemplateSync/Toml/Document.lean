import TemplateSync.Toml.Line

set_option autoImplicit false

namespace TemplateSync.Toml

-- The entries are taken when the section finds its place.
structure Section where
  header : List Key
  array : Bool
  entries : Option Members

def Section.isEmpty (found : Section) : Bool :=
  found.header = [] && found.entries.isNone

def sectionsOnto? : List Line → Section → List Section → Option (List Section)
  | [], current, done => some (if current.isEmpty then done.reverse else (current :: done).reverse)
  | .header keys array :: lines, current, done =>
    sectionsOnto? lines ⟨keys, array, some []⟩ (if current.isEmpty then done else current :: done)
  | .member keys value :: lines, current, done =>
    match addDotted? keys value (current.entries.getD []) with
    | some entries => sectionsOnto? lines { current with entries := some entries } done
    | none => none

def sections? (lines : List Line) : Option (List Section) :=
  sectionsOnto? lines ⟨[], false, none⟩ []

def headerAt (sections : List Section) (place : Nat) : List Key :=
  match sections[place]? with
  | some found => found.header
  | none => []

def takeEntries (sections : List Section) (place : Nat) : Option (Members × List Section) :=
  match sections[place]? with
  | some found =>
    found.entries.map fun entries => (entries, sections.set place { found with entries := none })
  | none => none

-- The next section, from `from` on and before `limit`, whose header begins as the parent's does.
def nextUnder (sections : List Section) (depth parent start limit : Nat) : Option Nat :=
  let above := (headerAt sections parent).take depth
  (List.range limit).find? fun place =>
    start ≤ place && (sections[place]?).any fun found =>
      found.entries.isSome && depth ≤ found.header.length && found.header.take depth = above

def nextElement (sections : List Section) (parent limit : Nat) : Nat :=
  let header := headerAt sections parent
  ((List.range limit).find? fun place =>
    parent < place && (sections[place]?).any fun found =>
      found.array && found.header = header).getD limit

-- A header that repeats its parent's is an error; a shorter one becomes the parent.
def adopt? (sections : List Section) (parent place : Nat) : Option Nat :=
  if parent = place then some parent
  else
    let above := headerAt sections parent
    let header := headerAt sections place
    if above = header then none
    else if header.length < above.length then some place
    else some parent

mutual

def tableAt? : Nat → List Section → Nat → Nat → Nat → Nat → Members →
    Option (Members × List Section)
  | 0, _, _, _, _, _, _ => none
  | fuel + 1, sections, depth, parent, start, limit, done =>
    if parent = limit || start = limit then some (done, sections)
    else match nextUnder sections depth parent start limit with
      | none => some (done, sections)
      | some place =>
        match adopt? sections parent place, sections[place]? with
        | some parent, some found =>
          match found.header[depth]? with
          | some key =>
            let array := found.array && depth + 1 = found.header.length
            -- The sections below this key are taken now, so that each is read once.
            let inner :=
              if array then
                (elementsAt? fuel sections depth place limit []).map fun (items, sections) =>
                  (Value.array items, sections)
              else
                (tableAt? fuel sections (depth + 1) place 0 limit []).map fun (members, sections) =>
                  (Value.table false members, sections)
            match inner with
            | some (value, sections) =>
              tableAt? fuel sections depth parent (place + 1) limit (done ++ [(key, value)])
            | none => none
          | none =>
            -- The header ends here: the section's own entries belong to this table.
            if found.array then none
            else match takeEntries sections place with
              | some (entries, sections) =>
                tableAt? fuel sections depth parent place limit (done ++ entries)
              | none => none
        | _, _ => none

def elementsAt? : Nat → List Section → Nat → Nat → Nat → List Value →
    Option (List Value × List Section)
  | 0, _, _, _, _, _ => none
  | fuel + 1, sections, depth, parent, limit, done =>
    if parent = limit then some (done.reverse, sections)
    else
      let next := nextElement sections parent limit
      match takeEntries sections parent with
      | none => none
      | some (entries, sections) =>
        match tableAt? fuel sections (depth + 1) parent 0 next entries with
        | some (members, sections) =>
          elementsAt? fuel sections depth next limit (.table false members :: done)
        | none => none

end

def deepest (sections : List Section) : Nat :=
  sections.foldl (fun depth found => max depth found.header.length) 0

-- The one table that sections form. A step goes on by a section or down by a key.
def assemble? (sections : List Section) : Option Members :=
  let steps := (sections.length + 2) * (2 * deepest sections + 3)
  (tableAt? steps sections 0 0 0 sections.length []).map (·.1)

def parse? (text : String) : Option Members :=
  (((lex? text).bind lines?).bind sections?).bind assemble?

end TemplateSync.Toml
