import TemplateSync.Proofs.Message.RoundTrip
import TemplateSync.Proofs.Utf8

set_option autoImplicit false

namespace TemplateSync

theorem Base64.encodeOnto_zeros (count : Nat) (done : List Char) :
    encodeOnto (List.replicate (3 * count) 0) done = List.replicate (4 * count) 'A' ++ done := by
  induction count generalizing done with
  | zero => rfl
  | succ count ih =>
    have letters : (quad 0 0 0).reverse = List.replicate 4 'A' := by decide
    have octets : List.replicate (3 * (count + 1)) (0 : UInt8) =
        0 :: 0 :: 0 :: List.replicate (3 * count) 0 := rfl
    rw [octets, encodeOnto, ih, letters, ← List.append_assoc, List.replicate_append_replicate,
      Nat.mul_succ]

theorem Json.escape_letters (count : Nat) :
    escape (List.replicate count 'A') = List.replicate count 'A' := by
  induction count with
  | zero => rfl
  | succ count ih =>
    rw [escape] at ih ⊢
    rw [List.replicate_succ, List.flatMap_cons, ih]
    rfl

theorem Envelope.print_length (tag : String) (body : List Char) :
    (print tag body).length = (Json.escape tag.toList).length + body.length + 19 := by
  rw [← String.length_toList, print_toList]
  simp only [List.length_append, List.length_cons, List.length_nil]
  omega

open Json in
theorem Metadata.render_length (id : Uuid) (name : String) (bytes : Bytes) :
    (toJson ⟨id, name, none, bytes⟩).render.length =
      (toJson ⟨id, name, none, []⟩).render.length + (escape (Base64.encode bytes).toList).length := by
  have nothing : escape (Base64.encode []).toList = [] := rfl
  simp only [toJson, Option.map_none, Option.toList_none, List.append_nil, List.cons_append,
    List.nil_append, render, lexemes, Json.member, Uuid.toJson, Json.ofString, emit, emitMembers,
    List.flatMap_cons, List.flatMap_nil, Lexeme.spelling, List.length_cons, List.length_append,
    List.length_nil, nothing]
  omega

theorem Message.metadata_of_size (id : Uuid) (name : String) (count : Nat) :
    ∃ text, (Message.metadata ⟨id, name, none, List.replicate (3 * count) 0⟩).encode = .ok text ∧
      4 * count ≤ (Utf8.encode text).length ∧
      (Utf8.encode text).length ≤ 4 * ((Json.escape Kind.metadata.tag.toList).length +
        (Metadata.toJson ⟨id, name, none, []⟩).render.length + 4 * count + 19) := by
  have long := Metadata.render_length id name (List.replicate (3 * count) 0)
  rw [Base64.encode, Base64.encodeOnto_zeros, List.append_nil, List.reverse_replicate,
    String.toList_ofList, Json.escape_letters, List.length_replicate] at long
  generalize List.replicate (3 * count) (0 : UInt8) = bytes at long ⊢
  refine ⟨_, encode_of_body? rfl, ?_⟩
  obtain ⟨low, high⟩ := Utf8.length_encode (Envelope.print Kind.metadata.tag
    (Metadata.toJson ⟨id, name, none, bytes⟩).render)
  rw [Envelope.print_length] at low high
  constructor <;> omega

end TemplateSync
