import TemplateSync.Proofs.Message.Envelopes

set_option autoImplicit false

namespace TemplateSync

open Json Json.Grammar

section Braces

structure Trimmed (chars : List Char) : Prop where
  first : ∀ c ∈ chars.head?, c ∉ [' ', '\t', '\n', '\r']
  last : ∀ c ∈ chars.getLast?, c ∉ [' ', '\t', '\n', '\r']

theorem padded_refl (chars : List Char) : Padded chars chars :=
  ⟨[], [], .nil, .nil, by simp⟩

theorem Trimmed.eq_core {chars core : List Char} (trimmed : Trimmed chars)
    (padded : Padded core chars) : chars = core := by
  obtain ⟨before, after, open_gap, blank, rfl⟩ := padded
  have noneBefore : before = [] := by
    cases before with
    | nil => rfl
    | cons c before => exact absurd (open_gap c (by simp)) (trimmed.first c (by simp))
  have noneAfter : after = [] := by
    rcases List.eq_nil_or_concat after with none | ⟨others, c, rfl⟩
    next => exact none
    next => exact absurd (blank c (by simp)) (trimmed.last c (by simp [← List.append_assoc]))
  simp [noneBefore, noneAfter]

theorem braced_ends {entries : List Entry} {core : List Char} (braced : Braced entries core) :
    ∃ inside, core = '\x7b' :: (inside ++ ['\x7d']) := by
  cases braced with
  | empty => exact ⟨_, rfl⟩
  | full => exact ⟨_, rfl⟩

theorem object_ends {members : List Member} {core : List Char} (spells : Spells (.object members) core) :
    core.head? = some '\x7b' ∧ Trimmed core := by
  cases spells with
  | object braced =>
    obtain ⟨inside, rfl⟩ := braced_ends braced
    have last : ('\x7b' :: (inside ++ ['\x7d'])).getLast? = some '\x7d' :=
      @List.getLast?_concat _ ('\x7b' :: inside) '\x7d'
    exact ⟨rfl, by simp, by simp [last]⟩

theorem object_of_brace {value : Json} {core : List Char} (spells : Spells value core)
    (brace : core.head? = some '\x7b') : ∃ members, value = .object members := by
  cases spells with
  | object => exact ⟨_, rfl⟩
  | number number =>
    obtain ⟨rest, rfl⟩ := List.head?_eq_some_iff.mp brace
    obtain ⟨phase, run, -⟩ := number_iff.mp number
    simp [NumberPhase.ofLiteral?, NumberPhase.start?] at run
  | null | true | false | text | emptyArray | array => cases brace

end Braces

namespace Envelope

def typeEntry (tag : String) : Entry :=
  ⟨['t', 'y', 'p', 'e'], ofString tag, '"' :: (escape tag.toList ++ ['"'])⟩

def bodyEntry (value : Json) (core : List Char) : Entry :=
  ⟨['b', 'o', 'd', 'y'], value, core⟩

theorem print_isObject (tag : String) {value : Json} {core : List Char} (spells : Spells value core) :
    IsObject (print tag core) [("type", typeEntry tag), ("body", bodyEntry value core)] := by
  have typeName : Means ['t', 'y', 'p', 'e'] "type".toList := means_iff.mpr ⟨text_iff.mpr rfl, rfl⟩
  have bodyName : Means ['b', 'o', 'd', 'y'] "body".toList := means_iff.mpr ⟨text_iff.mpr rfl, rfl⟩
  have named : Named Entry.name [("type", typeEntry tag), ("body", bodyEntry value core)] := by
    simpa [Named] using ⟨typeName, bodyName⟩
  have escaped : Text (escape tag.toList) := text_iff.mpr (escape_readable tag.toList)
  have last : Entries [bodyEntry value core] _ :=
    .last bodyName.text (padded_refl _) spells (padded_refl _)
  have both : Entries [typeEntry tag, bodyEntry value core] _ :=
    .cons typeName.text (padded_refl _) (.text escaped) (padded_refl _) last
  refine ⟨named, _, .full both, [], [], .nil, .nil, ?_⟩
  simp [print_toList, typeEntry, bodyEntry]

theorem print_isEnvelope {tag : String} {members : List Member} {core : List Char} (named : tag ≠ "")
    (spells : Spells (.object members) core) :
    IsEnvelope (print tag core) tag (bodyEntry (.object members) core) := by
  have means : Means (escape tag.toList) tag.toList :=
    means_iff.mpr ⟨text_iff.mpr (escape_readable tag.toList), unescape?_escape tag.toList⟩
  refine ⟨_, print_isObject tag spells, ⟨typeEntry tag, ⟨[], _, rfl, ?_⟩, _, rfl, means⟩, named,
    ⟨[_], [], rfl, by simp⟩, members, rfl⟩
  simp

end Envelope

namespace Message

def knownTags : List String :=
  ["version", "solution", "project", "metadata"]

theorem ofTag?_none {tag : String} : Kind.ofTag? tag = none ↔ tag ∉ knownTags := by
  simp only [Kind.ofTag?, List.find?_eq_none, Kind.tag, beq_iff_eq, knownTags, List.mem_cons, not_or]
  simp [eq_comm]

theorem ofBody?_kind {value : Json} {kind : Kind} {message : Message}
    (read : ofBody? value kind = some message) : ∃ body, message.body? = some (kind, body) := by
  cases kind with
  | version =>
    obtain ⟨slots, -, filled⟩ := Option.bind_eq_some_iff.mp read
    split at filled
    next =>
      obtain ⟨number, -, same⟩ := Option.bind_eq_some_iff.mp filled
      cases same
      exact ⟨_, rfl⟩
    next => cases filled
  | solution =>
    obtain ⟨slots, -, filled⟩ := Option.bind_eq_some_iff.mp read
    split at filled
    next =>
      obtain ⟨projects, -, same⟩ := Option.bind_eq_some_iff.mp filled
      cases same
      exact ⟨_, rfl⟩
    next => cases filled
  | project =>
    obtain ⟨slots, -, filled⟩ := Option.bind_eq_some_iff.mp read
    split at filled
    next =>
      obtain ⟨id, -, filled⟩ := Option.bind_eq_some_iff.mp filled
      obtain ⟨references, -, same⟩ := Option.bind_eq_some_iff.mp filled
      cases same
      exact ⟨_, rfl⟩
    next => cases filled
  | metadata =>
    obtain ⟨content, -, rfl⟩ := Option.map_eq_some_iff.mp read
    exact ⟨_, rfl⟩

theorem read_of_envelope {text tag : String} {entry : Entry}
    (envelope : Envelope.IsEnvelope text tag entry) (other : tag ∉ knownTags) :
    Message.read text = .unknown tag (String.ofList entry.text) := by
  obtain ⟨written, read, content⟩ := envelope.read
  have chars : written.chars = entry.text := congrArg Prod.snd content
  have body : written.text = String.ofList entry.text := by rw [Written.text, chars]
  simp [Message.read, read, Envelope.message?, ofTag?_none.mpr other, body]

theorem read_unknown_iff {text tag body : String} :
    Message.read text = .unknown tag body ↔ ∃ entry, Envelope.IsEnvelope text tag entry ∧
      tag ∉ knownTags ∧ body = String.ofList entry.text := by
  constructor
  next =>
    intro h
    rcases Envelope.refused_or_envelope text with ⟨fault, refused⟩ | ⟨other, entry, envelope⟩
    next => simp [Message.read, refused.read] at h
    by_cases known : other ∈ knownTags
    next =>
      obtain ⟨written, read, -⟩ := envelope.read
      cases tagged : Kind.ofTag? other with
      | none => exact absurd known (ofTag?_none.mp tagged)
      | some kind =>
        simp only [Message.read, read, Envelope.message?, tagged] at h
        split at h
        next message shaped =>
          obtain ⟨value, same⟩ := ofBody?_kind shaped
          rw [h] at same
          cases same
        next => cases h
    next =>
      rw [read_of_envelope envelope known] at h
      cases h
      exact ⟨entry, envelope, known, rfl⟩
  next =>
    rintro ⟨entry, envelope, other, rfl⟩
    exact read_of_envelope envelope other

theorem encode_unknown_iff {tag body out : String} :
    encode (.unknown tag body) = .ok out ↔
      ∃ value core, Spells value core ∧ Padded core body.toList ∧ out = Envelope.print tag core := by
  simp only [encode, body?]
  constructor
  next =>
    intro h
    split at h
    next written read =>
      obtain rfl := Except.ok.inj h
      obtain ⟨spells, padded⟩ := Written.ofText?_iff.mp ⟨written, read, rfl⟩
      exact ⟨_, _, spells, padded, rfl⟩
    next => cases h
  next =>
    rintro ⟨value, core, spells, padded, rfl⟩
    obtain ⟨written, read, content⟩ := Written.ofText?_iff.mpr ⟨spells, padded⟩
    cases content
    simp [read]

def ReadBack (message : Message) : Prop :=
  ∃ out, message.encode = .ok out ∧ Message.read out = message

theorem unknown_readBack {tag : String} {members : List Member} {core : List Char} (named : tag ≠ "")
    (other : tag ∉ knownTags) (spells : Spells (.object members) core) :
    ReadBack (.unknown tag (String.ofList core)) := by
  have encoded : encode (.unknown tag (String.ofList core)) = .ok (Envelope.print tag core) :=
    encode_unknown_iff.mpr ⟨_, core, spells, by simpa using padded_refl core, rfl⟩
  exact ⟨_, encoded, read_of_envelope (Envelope.print_isEnvelope named spells) other⟩

theorem unknown_kinds_survive :
    (∀ text tag entry, Envelope.IsEnvelope text tag entry → tag ∉ knownTags →
      Message.read text = .unknown tag (String.ofList entry.text) ∧
        ReadBack (.unknown tag (String.ofList entry.text))) ∧
    (∀ tag body, (∃ out, encode (.unknown tag body) = .ok out) ↔
      ∃ value core, Spells value core ∧ Padded core body.toList) ∧
    ∀ tag body, ReadBack (.unknown tag body) ↔
      (∃ out, encode (.unknown tag body) = .ok out) ∧ tag ≠ "" ∧ tag ∉ knownTags ∧
        body.toList.head? = some '\x7b' ∧ Trimmed body.toList := by
  refine ⟨fun text tag entry envelope other => ?_, fun tag body => ?_, fun tag body => ?_⟩
  next =>
    refine ⟨read_of_envelope envelope other, ?_⟩
    obtain ⟨named, inner, spells⟩ := envelope.spells
    exact unknown_readBack named other spells
  next =>
    constructor
    next =>
      rintro ⟨out, encoded⟩
      obtain ⟨value, core, spells, padded, -⟩ := encode_unknown_iff.mp encoded
      exact ⟨value, core, spells, padded⟩
    next =>
      rintro ⟨value, core, spells, padded⟩
      exact ⟨_, encode_unknown_iff.mpr ⟨value, core, spells, padded, rfl⟩⟩
  constructor
  next =>
    rintro ⟨out, encoded, read⟩
    obtain ⟨entry, envelope, other, rfl⟩ := read_unknown_iff.mp read
    obtain ⟨named, inner, spells⟩ := envelope.spells
    have ends := object_ends spells
    exact ⟨⟨out, encoded⟩, named, other, by simpa using ends.1, by simpa using ends.2⟩
  next =>
    rintro ⟨⟨out, encoded⟩, named, other, brace, trimmed⟩
    obtain ⟨value, core, spells, padded, -⟩ := encode_unknown_iff.mp encoded
    have same := trimmed.eq_core padded
    rw [same] at brace
    obtain ⟨members, rfl⟩ := object_of_brace spells brace
    have text : body = String.ofList core := by simp [← same]
    rw [text]
    exact unknown_readBack named other spells

def pingBody : String :=
  "\x7b\"type\":\"version\", \"half\":\"\\ud800\"\x7d"

def pingText : String :=
  "\x7b \"type\":\"version\", \"body\":1, \"type\" : \"p\\u0069ng\", \"body\" : " ++ pingBody ++ " \x7d"

theorem ping_survives : ∃ entry, Envelope.IsEnvelope pingText "ping" entry ∧ "ping" ∉ knownTags ∧
    Message.read pingText = .unknown "ping" (String.ofList entry.text) ∧
      ReadBack (.unknown "ping" (String.ofList entry.text)) ∧ String.ofList entry.text = pingBody := by
  have read : (Envelope.read pingText).map (fun envelope => (envelope.tag, envelope.body.chars)) =
      .ok ("ping", pingBody.toList) := by decide +kernel
  obtain ⟨entry, envelope, text⟩ := Envelope.isEnvelope_of_parts read
  have other : "ping" ∉ knownTags := by decide
  obtain ⟨unknown, back⟩ := unknown_kinds_survive.1 pingText "ping" entry envelope other
  exact ⟨entry, envelope, other, unknown, back, by rw [text, String.ofList_toList]⟩

end Message

end TemplateSync
