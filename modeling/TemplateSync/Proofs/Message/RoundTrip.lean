import TemplateSync.Envelope
import TemplateSync.Proofs.Json.Rendering

set_option autoImplicit false

namespace TemplateSync

open Json

namespace Envelope

def value (tag : String) (body : Json) : Json :=
  .object [member "type" (ofString tag), member "body" body]

def tokens (tag : String) (body : List Token) : List Token :=
  ⟨[], .mark .openBrace⟩ :: ⟨[], .text (escape "type".toList)⟩ :: ⟨[], .mark .colon⟩ ::
    ([⟨[], .text (escape tag.toList)⟩] ++ ⟨[], .mark .comma⟩ ::
      ⟨[], .text (escape "body".toList)⟩ :: ⟨[], .mark .colon⟩ ::
        (body ++ [⟨[], .mark .closeBrace⟩]))

theorem tokens_lexeme (tag : String) (body : Written)
    (spelled : body.tokens.map Token.lexeme = body.value.lexemes) :
    (tokens tag body.tokens).map Token.lexeme = (value tag body.value).lexemes := by
  change _ = .mark .openBrace :: .text (escape "type".toList) :: .mark .colon ::
    .text (escape tag.toList) :: .mark .comma :: .text (escape "body".toList) :: .mark .colon ::
      body.value.emit [.mark .closeBrace]
  rw [emit_eq, ← spelled]
  simp [tokens]

theorem print_toList (tag : String) (body : List Char) :
    (print tag body).toList =
      ['\x7b', '"', 't', 'y', 'p', 'e', '"', ':'] ++ ('"' :: escape tag.toList ++ ['"']) ++
        [',', '"', 'b', 'o', 'd', 'y', '"', ':'] ++ body ++ ['\x7d'] := by
  have openings : "\x7b\"type\":".toList = ['\x7b', '"', 't', 'y', 'p', 'e', '"', ':'] := rfl
  have middle : ",\"body\":".toList = [',', '"', 'b', 'o', 'd', 'y', '"', ':'] := rfl
  have quoted : (ofString tag).render = '"' :: (escape tag.toList ++ ['"']) := by
    simp [ofString, render, lexemes, emit, Lexeme.spelling]
  have chars : (print tag body).toList = "\x7b\"type\":".toList ++ (ofString tag).render ++
      ",\"body\":".toList ++ body ++ ['\x7d'] := String.toList_ofList
  rw [chars, openings, middle, quoted]
  rfl

theorem tokens_spelling (tag : String) (body : List Token) :
    (tokens tag body).flatMap Token.spelling = (print tag (body.flatMap Token.spelling)).toList := by
  have typeName : escape ['t', 'y', 'p', 'e'] = ['t', 'y', 'p', 'e'] := by decide
  have bodyName : escape ['b', 'o', 'd', 'y'] = ['b', 'o', 'd', 'y'] := by decide
  rw [print_toList]
  simp [tokens, typeName, bodyName, Token.spelling, Lexeme.spelling, Mark.char]

theorem tokens_readable (tag : String) (body : List Token)
    (readable : ∀ token ∈ body, token.Readable) : ∀ token ∈ tokens tag body, token.Readable := by
  have mark (sign : Mark) : Token.Readable ⟨[], .mark sign⟩ := ⟨by simp, trivial⟩
  have text (chars : List Char) : Token.Readable ⟨[], .text (escape chars)⟩ :=
    ⟨by simp, escape_readable chars⟩
  intro token member
  simp only [tokens, List.mem_cons, List.mem_append, List.not_mem_nil, or_false] at member
  rcases member with rfl | rfl | rfl | rfl | rfl | rfl | rfl | inside | rfl
  all_goals first | exact mark _ | exact text _ | exact readable _ inside

theorem lex?_print (tag : String) (body : Written) (readable : ∀ token ∈ body.tokens, token.Readable)
    (spelled : body.tokens.map Token.lexeme = body.value.lexemes) :
    lex? (print tag (body.tokens.flatMap Token.spelling)).toList = some (tokens tag body.tokens) := by
  have lexed := lex?_lexemes (value tag body.value) (tokens tag body.tokens) []
    (tokens_readable tag body.tokens readable) (tokens_lexeme tag body spelled) (by simp)
  rwa [List.append_nil, tokens_spelling] at lexed

theorem ofText?_print (tag : String) (body : Written)
    (readable : ∀ token ∈ body.tokens, token.Readable)
    (spelled : body.tokens.map Token.lexeme = body.value.lexemes) :
    Json.ofText? (print tag (body.tokens.flatMap Token.spelling)) = some (value tag body.value) := by
  have lexed := lex?_print tag body readable spelled
  have taken := take?_lexemes (value tag body.value) (tokens tag body.tokens) []
    (tokens_lexeme tag body spelled)
  rw [List.append_nil] at taken
  simp [Json.ofText?, Written.ofText?, lexed, Written.ofTokens?, Written.take?, taken]

theorem members?_print (tag : String) (body : Written)
    (readable : ∀ token ∈ body.tokens, token.Readable)
    (spelled : body.tokens.map Token.lexeme = body.value.lexemes) :
    members? (print tag (body.tokens.flatMap Token.spelling)) =
      some [("body", body), ("type", ⟨[⟨[], .text (escape tag.toList)⟩], ofString tag⟩)] := by
  have last : MembersSpelled [("body", body)] _ :=
    .last [] [] [] (unescape?_escape "body".toList) spelled
  have both : MembersSpelled
      [("type", ⟨[⟨[], .text (escape tag.toList)⟩], ofString tag⟩), ("body", body)] _ :=
    .cons [] [] [] (unescape?_escape "type".toList) rfl last
  exact members?_spelled both (lex?_print tag body readable spelled)

theorem read_print (tag : String) (body : Written) (named : tag ≠ "") (object : body.isObject)
    (readable : ∀ token ∈ body.tokens, token.Readable)
    (spelled : body.tokens.map Token.lexeme = body.value.lexemes) :
    read (print tag (body.tokens.flatMap Token.spelling)) = .ok ⟨tag, body⟩ := by
  simp [read, members?_print tag body readable spelled, List.lookup_cons, named, object]

end Envelope

section Fields

theorem list?_map {α : Type} {read? : Json → Option α} {write : α → Json}
    (inverse : ∀ item, read? (write item) = some item) (items : List α) :
    list? read? (.array (items.map write)) = some items := by
  induction items with
  | nil => rfl
  | cons item items ih =>
    simp only [list?, List.map_cons, List.mapM_cons, inverse] at ih ⊢
    simp [ih]

@[simp] theorem stringsOfJson?_strings (texts : List String) :
    stringsOfJson? (strings texts) = some texts :=
  list?_map string?_ofString texts

@[simp] theorem Uuid.ofJson?_toJson (id : Uuid) : Uuid.ofJson? id.toJson = some id := by
  simp [Uuid.ofJson?, Uuid.toJson, Uuid.parse?_print]

@[simp] theorem bytesOfJson?_ofString (bytes : Bytes) :
    bytesOfJson? (ofString (Base64.encode bytes)) = some bytes := by
  simp [bytesOfJson?, Base64.decode?_encode]

end Fields

theorem ProjectDescriptor.ofJson?_toJson (project : ProjectDescriptor) :
    ofJson? project.toJson = some project := by
  have slots : project.toJson.record? fields =
      some [some project.id.toJson, some (ofString project.name), some (ofString project.path),
        some (strings project.references)] := by
    simp [toJson, record?, fields, fill?, place?, member, List.findIdx?_cons]
  have references : nullable? [] stringsOfJson? (some (strings project.references)) =
      some project.references := stringsOfJson?_strings project.references
  simp [ofJson?, slots, optional?, references]

theorem Metadata.ofJson?_toJson (metadata : Metadata) : ofJson? metadata.toJson = some metadata := by
  have bytes : nullable? [] bytesOfJson? (some (ofString (Base64.encode metadata.bytes))) =
      some metadata.bytes := bytesOfJson?_ofString metadata.bytes
  rcases metadata with ⟨id, projectName, assemblyName, content⟩
  have slots : (toJson ⟨id, projectName, assemblyName, content⟩).record? fields =
      some [some id.toJson, some (ofString projectName), assemblyName.map ofString,
        some (ofString (Base64.encode content))] := by
    cases assemblyName <;>
      simp [toJson, record?, fields, fill?, place?, member, List.findIdx?_cons]
  have assembly : nullable? none (fun name => name.string?.map some) (assemblyName.map ofString) =
      some assemblyName := by
    cases assemblyName with
    | none => rfl
    | some name => exact congrArg (Option.map some) (string?_ofString name)
  simp [ofJson?, slots, optional?, assembly, bytes]

namespace Message

theorem int32?_ofInt (number : Int32) : int32? (ofInt number.toInt) = some number := by
  have low := number.le_toInt
  have high := number.toInt_lt
  simp [int32?]
  omega

theorem ofBody?_body? {message : Message} {kind : Kind} {body : Json}
    (h : message.body? = some (kind, body)) : ofBody? body kind = some message := by
  cases message with
  | version number =>
    cases h
    have slots : (Json.object [member "version" (ofInt number.toInt)]).record? [["version"]] =
        some [some (ofInt number.toInt)] := by
      simp [record?, fill?, place?, member, List.findIdx?_cons]
    simp [ofBody?, slots, int32?_ofInt]
  | solution projects =>
    cases h
    have slots : (Json.object [member "projects"
        (.array (projects.map ProjectDescriptor.toJson))]).record? [["projects"]] =
        some [some (.array (projects.map ProjectDescriptor.toJson))] := by
      simp [record?, fill?, place?, member, List.findIdx?_cons]
    have list : nullable? [] (list? ProjectDescriptor.ofJson?)
        (some (.array (projects.map ProjectDescriptor.toJson))) = some projects :=
      list?_map ProjectDescriptor.ofJson?_toJson projects
    simp [ofBody?, slots, list]
  | project id references =>
    cases h
    have slots : (Json.object [member "id" id.toJson,
        member "references" (strings references)]).record? [["id"], ["references"]] =
        some [some id.toJson, some (strings references)] := by
      simp [record?, fill?, place?, member, List.findIdx?_cons]
    have list : nullable? [] stringsOfJson? (some (strings references)) = some references :=
      stringsOfJson?_strings references
    simp [ofBody?, slots, list]
  | metadata content =>
    cases h
    simp [ofBody?, Metadata.ofJson?_toJson]
  | error | unknown => simp [body?] at h

theorem body?_kind {message : Message} {kind : Kind} {body : Json}
    (h : message.body? = some (kind, body)) : message.kind = kind.tag := by
  cases message with
  | version | solution | project | metadata =>
    cases h
    rfl
  | error | unknown => simp [body?] at h

theorem member_readable {name : String} {content : Json} (readable : content.Readable) :
    (Lexeme.text (member name content).1).Readable ∧ (member name content).2.Readable :=
  ⟨escape_readable name.toList, readable⟩

theorem descriptor_readable (project : ProjectDescriptor) : project.toJson.Readable := by
  apply object_readable
  intro part inside
  simp only [List.mem_cons, List.not_mem_nil, or_false] at inside
  rcases inside with rfl | rfl | rfl | rfl
  next => exact member_readable (ofString_readable _)
  next => exact member_readable (ofString_readable _)
  next => exact member_readable (ofString_readable _)
  next => exact member_readable (strings_readable _)

theorem metadata_readable (content : Metadata) : content.toJson.Readable := by
  apply object_readable
  intro part inside
  simp only [List.mem_append, List.mem_cons, List.not_mem_nil, or_false, Option.mem_toList,
    Option.map_eq_some_iff] at inside
  rcases inside with ((rfl | rfl) | ⟨_, _, rfl⟩) | rfl
  all_goals exact member_readable (ofString_readable _)

theorem body?_readable {message : Message} {kind : Kind} {body : Json}
    (h : message.body? = some (kind, body)) :
    body.Readable ∧ ∃ members, body = .object members := by
  cases message with
  | version number =>
    cases h
    exact ⟨object_readable (by simpa using member_readable (number_readable _)), _, rfl⟩
  | solution projects =>
    cases h
    have list : (Json.array (projects.map ProjectDescriptor.toJson)).Readable :=
      array_readable (by simp [descriptor_readable])
    exact ⟨object_readable (by simpa using member_readable list), _, rfl⟩
  | project id references =>
    cases h
    refine ⟨object_readable ?_, _, rfl⟩
    intro part inside
    simp only [List.mem_cons, List.not_mem_nil, or_false] at inside
    rcases inside with rfl | rfl
    next => exact member_readable (ofString_readable _)
    next => exact member_readable (strings_readable _)
  | metadata content =>
    cases h
    exact ⟨metadata_readable content, _, rfl⟩
  | error | unknown => simp [body?] at h

theorem encode_of_body? {message : Message} {kind : Kind} {body : Json}
    (h : message.body? = some (kind, body)) :
    message.encode = .ok (Envelope.print kind.tag body.render) := by
  simp [encode, h]

theorem envelope_of_body? {message : Message} {kind : Kind} {body : Json}
    (h : message.body? = some (kind, body)) :
    Envelope.read (Envelope.print kind.tag body.render) = .ok ⟨kind.tag, ⟨body.tokens, body⟩⟩ := by
  obtain ⟨readable, members, rfl⟩ := body?_readable h
  have named : kind.tag ≠ "" := by cases kind <;> decide
  have read := Envelope.read_print kind.tag ⟨(Json.object members).tokens, .object members⟩ named rfl
    (tokens_readable readable) (Json.tokens_lexeme _)
  rwa [Json.tokens_spelling] at read

theorem kind_ofTag?_tag (kind : Kind) : Kind.ofTag? kind.tag = some kind := by
  cases kind <;> decide

theorem read_of_body? {message : Message} {kind : Kind} {body : Json}
    (h : message.body? = some (kind, body)) :
    Message.read (Envelope.print kind.tag body.render) = message := by
  simp [Message.read, envelope_of_body? h, Envelope.message?, kind_ofTag?_tag, ofBody?_body? h]

theorem value_of_body? {message : Message} {kind : Kind} {body : Json}
    (h : message.body? = some (kind, body)) :
    Json.ofText? (Envelope.print kind.tag body.render) = some (Envelope.value kind.tag body) := by
  have read := Envelope.ofText?_print kind.tag ⟨body.tokens, body⟩
    (tokens_readable (body?_readable h).1) (Json.tokens_lexeme body)
  rwa [Json.tokens_spelling] at read

def Survives (message : Message) : Prop :=
  ∃ text members, message.encode = .ok text ∧
    Json.ofText? text = some (Envelope.value message.kind (.object members)) ∧
    (∃ body, Envelope.read text = .ok ⟨message.kind, body⟩ ∧ body.value = .object members) ∧
    Message.read text = message

theorem survives_of_body? {message : Message} {kind : Kind} {body : Json}
    (h : message.body? = some (kind, body)) : Survives message := by
  obtain ⟨-, members, rfl⟩ := body?_readable h
  rw [Survives, body?_kind h]
  exact ⟨_, members, encode_of_body? h, value_of_body? h, ⟨_, envelope_of_body? h, rfl⟩,
    read_of_body? h⟩

theorem known_kinds_survive :
    (∀ number, Survives (.version number)) ∧ (∀ projects, Survives (.solution projects)) ∧
      (∀ id references, Survives (.project id references)) ∧
      ∀ content, Survives (.metadata content) :=
  ⟨fun _ => survives_of_body? rfl, fun _ => survives_of_body? rfl,
    fun _ _ => survives_of_body? rfl, fun _ => survives_of_body? rfl⟩

end Message

end TemplateSync
