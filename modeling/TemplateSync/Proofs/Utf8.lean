import Mathlib.Data.List.Basic
import TemplateSync.Utf8

set_option autoImplicit false

namespace TemplateSync.Utf8

theorem decode?_iff {bytes : Bytes} {text : String} : decode? bytes = some text ↔ encode text = bytes := by
  constructor
  next =>
    intro read
    unfold decode? String.fromUTF8? at read
    split at read
    next =>
      cases read
      rfl
    next => cases read
  next =>
    rintro rfl
    exact decode?_encode text

theorem encode_ofList (chars : List Char) :
    encode (String.ofList chars) = chars.flatMap String.utf8EncodeChar := by
  simp [encode, List.utf8Encode]

theorem encode_chars (text : String) : encode text = text.toList.flatMap String.utf8EncodeChar := by
  rw [← encode_ofList, String.ofList_toList]

theorem length_encode (text : String) :
    text.length ≤ (encode text).length ∧ (encode text).length ≤ 4 * text.length := by
  rw [encode_chars, ← String.length_toList]
  induction text.toList with
  | nil => simp
  | cons c chars ih =>
    have some := c.utf8Size_pos
    have four := c.utf8Size_le_four
    simp only [List.flatMap_cons, List.length_append, List.length_cons, String.length_utf8EncodeChar]
    omega

theorem encode_append (front back : String) : encode (front ++ back) = encode front ++ encode back := by
  simp [encode]

def IsText (bytes : Bytes) : Prop :=
  ∃ text, encode text = bytes

theorem encode_decode {bytes : Bytes} (isText : IsText bytes) : encode (decode bytes) = bytes := by
  obtain ⟨text, rfl⟩ := isText
  rw [decode_encode]

theorem encode_decode_all {names : List Bytes} (all : ∀ name ∈ names, IsText name) :
    (names.map decode).map encode = names := by
  have same : ∀ name ∈ names, (encode ∘ decode) name = id name := fun name inside => encode_decode (all name inside)
  rw [List.map_map, List.map_congr_left same, List.map_id]

theorem isText_iff {bytes : Bytes} : IsText bytes ↔ (decode? bytes).isSome := by
  simp [IsText, Option.isSome_iff_exists, decode?_iff]

instance (bytes : Bytes) : Decidable (IsText bytes) :=
  decidable_of_iff _ isText_iff.symm

theorem IsText.append {front back : Bytes} (one : IsText front) (two : IsText back) : IsText (front ++ back) := by
  obtain ⟨first, rfl⟩ := one
  obtain ⟨second, rfl⟩ := two
  exact ⟨first ++ second, by simp [encode]⟩

section Characters

variable {code : Nat}

theorem val_ofNat (valid : code.isValidChar) : (Char.ofNat code).val.toNat = code := by
  rw [Char.ofNat, dif_pos valid]
  rfl

theorem spelled_one (low : code < 0x80) : String.utf8EncodeChar (Char.ofNat code) = [UInt8.ofNat code] := by
  have value : (Char.ofNat code).val.toNat = code := val_ofNat (Or.inl (by omega))
  have one : code ≤ 127 := by omega
  simp [String.utf8EncodeChar, value, one]

theorem spelled_two (low : 0x80 ≤ code) (high : code < 0x800) :
    String.utf8EncodeChar (Char.ofNat code) =
      [UInt8.ofNat (code / 64 + 0xC0), UInt8.ofNat (code % 64 + 0x80)] := by
  have value : (Char.ofNat code).val.toNat = code := val_ofNat (Or.inl (by omega))
  have one : ¬ code ≤ 127 := by omega
  have two : code ≤ 2047 := by omega
  have first : code / 64 % 32 = code / 64 := by omega
  simp [String.utf8EncodeChar, value, one, two, first]

theorem spelled_three (low : 0x800 ≤ code) (high : code < 0x10000)
    (scalar : code < 0xD800 ∨ 0xDFFF < code) :
    String.utf8EncodeChar (Char.ofNat code) =
      [UInt8.ofNat (code / 4096 + 0xE0), UInt8.ofNat (code / 64 % 64 + 0x80),
        UInt8.ofNat (code % 64 + 0x80)] := by
  have valid : code.isValidChar := by
    unfold Nat.isValidChar
    omega
  have value := val_ofNat valid
  have one : ¬ code ≤ 127 := by omega
  have two : ¬ code ≤ 2047 := by omega
  have three : code ≤ 65535 := by omega
  have first : code / 4096 % 16 = code / 4096 := by omega
  simp [String.utf8EncodeChar, value, one, two, three, first]

theorem spelled_four (low : 0x10000 ≤ code) (high : code < 0x110000) :
    String.utf8EncodeChar (Char.ofNat code) =
      [UInt8.ofNat (code / 262144 + 0xF0), UInt8.ofNat (code / 4096 % 64 + 0x80),
        UInt8.ofNat (code / 64 % 64 + 0x80), UInt8.ofNat (code % 64 + 0x80)] := by
  have value : (Char.ofNat code).val.toNat = code := val_ofNat (Or.inr (by omega))
  have one : ¬ code ≤ 127 := by omega
  have two : ¬ code ≤ 2047 := by omega
  have three : ¬ code ≤ 65535 := by omega
  have first : code / 262144 % 8 = code / 262144 := by omega
  simp [String.utf8EncodeChar, value, one, two, three, first]

end Characters

-- Whatever octets an open sequence takes up to its end, with those before them they spell a character.
def Completes : Nat → UInt8 → UInt8 → Nat → Bytes → Prop
  | 0, _, _, _, _ => False
  | 1, low, high, code, held => ∀ byte, low ≤ byte → byte ≤ high →
    String.utf8EncodeChar (Char.ofNat (code * 64 + (byte.toNat - 0x80))) = held ++ [byte]
  | more + 2, low, high, code, held => ∀ byte, low ≤ byte → byte ≤ high →
    Completes (more + 1) 0x80 0xBF (code * 64 + (byte.toNat - 0x80)) (held ++ [byte])

inductive Phase.Holds : Phase → Bytes → Prop where
  | boundary : Holds .boundary []
  | inside {missing : Nat} {low high : UInt8} {code : Nat} {held : Bytes}
      (completes : Completes missing low high code held) : Holds (.inside missing low high code) held

section Leads

variable {lead : UInt8}

theorem byte_eq (byte : UInt8) {value : Nat} (same : byte.toNat = value) : UInt8.ofNat value = byte := by
  rw [← same, UInt8.ofNat_toNat]

theorem completes_two (least : 0xC2 ≤ lead) (most : lead < 0xE0) :
    Completes 1 0x80 0xBF (lead.toNat - 0xC0) [lead] := by
  intro byte low high
  simp only [UInt8.le_iff_toNat_le, UInt8.lt_iff_toNat_lt, UInt8.reduceToNat] at least most low high
  rw [spelled_two (by omega) (by omega), byte_eq lead (by omega), byte_eq byte (by omega)]
  rfl

theorem completes_three {least most : UInt8} (from3 : 0xE0 ≤ lead) (below4 : lead < 0xF0)
    (tail : 0x80 ≤ least) (last : most ≤ 0xBF) (long : lead = 0xE0 → 0xA0 ≤ least)
    (scalar : lead = 0xED → most ≤ 0x9F) : Completes 2 least most (lead.toNat - 0xE0) [lead] := by
  intro second low high third above below
  have shortest : lead.toNat = 0xE0 → 0xA0 ≤ least.toNat := fun same =>
    UInt8.le_iff_toNat_le.mp (long (UInt8.toNat_inj.mp same))
  have surrogates : lead.toNat = 0xED → most.toNat ≤ 0x9F := fun same =>
    UInt8.le_iff_toNat_le.mp (scalar (UInt8.toNat_inj.mp same))
  simp only [UInt8.le_iff_toNat_le, UInt8.lt_iff_toNat_lt, UInt8.reduceToNat] at from3 below4 tail last low high above below
  rw [spelled_three (by omega) (by omega) (by omega), byte_eq lead (by omega),
    byte_eq second (by omega), byte_eq third (by omega)]
  rfl

theorem completes_four {least most : UInt8} (from4 : 0xF0 ≤ lead) (upTo : lead ≤ 0xF4)
    (tail : 0x80 ≤ least) (last : most ≤ 0xBF) (long : lead = 0xF0 → 0x90 ≤ least)
    (scalar : lead = 0xF4 → most ≤ 0x8F) : Completes 3 least most (lead.toNat - 0xF0) [lead] := by
  intro second low high third above below fourth more less
  have shortest : lead.toNat = 0xF0 → 0x90 ≤ least.toNat := fun same =>
    UInt8.le_iff_toNat_le.mp (long (UInt8.toNat_inj.mp same))
  have greatest : lead.toNat = 0xF4 → most.toNat ≤ 0x8F := fun same =>
    UInt8.le_iff_toNat_le.mp (scalar (UInt8.toNat_inj.mp same))
  simp only [UInt8.le_iff_toNat_le, UInt8.reduceToNat] at from4 upTo tail last low high above below more less
  rw [spelled_four (by omega) (by omega), byte_eq lead (by omega),
    byte_eq second (by omega), byte_eq third (by omega),
    byte_eq fourth (by omega)]
  rfl

end Leads

section Scanning

variable {junk : Char} {phase : Phase} {held : Bytes}

theorem opens {missing : Nat} {low high byte : UInt8} {code : Nat}
    (completes : Completes missing low high code [byte]) :
    ∃ later, (Phase.inside missing low high code).Holds later ∧
      ([] : List Char).flatMap String.utf8EncodeChar ++ later = [byte] :=
  ⟨[byte], .inside completes, rfl⟩

theorem lead_holds (byte : UInt8) (clean : junk ∉ (Phase.lead [junk] byte).1) :
    ∃ later, (Phase.lead [junk] byte).2.Holds later ∧
      (Phase.lead [junk] byte).1.flatMap String.utf8EncodeChar ++ later = [byte] := by
  unfold Phase.lead at clean ⊢
  by_cases ascii : byte < 0x80
  next =>
    have low : byte.toNat < 0x80 := UInt8.lt_iff_toNat_lt.mp ascii
    rw [if_pos ascii]
    exact ⟨[], .boundary, by simp [spelled_one low]⟩
  rw [if_neg ascii] at clean ⊢
  by_cases tail : byte < 0xC2
  next => simp [tail] at clean
  rw [if_neg tail] at clean ⊢
  by_cases two : byte < 0xE0
  next =>
    rw [if_pos two]
    exact opens (completes_two (UInt8.not_lt.mp tail) two)
  rw [if_neg two] at clean ⊢
  by_cases shortest : byte = 0xE0
  next =>
    subst shortest
    rw [if_pos rfl]
    exact opens (@completes_three 0xE0 0xA0 0xBF (by decide) (by decide) (by decide) (by decide)
      (by decide) (by decide))
  rw [if_neg shortest] at clean ⊢
  by_cases surrogates : byte = 0xED
  next =>
    subst surrogates
    rw [if_pos rfl]
    exact opens (@completes_three 0xED 0x80 0x9F (by decide) (by decide) (by decide) (by decide)
      (by decide) (by decide))
  rw [if_neg surrogates] at clean ⊢
  by_cases three : byte < 0xF0
  next =>
    rw [if_pos three]
    exact opens (completes_three (UInt8.not_lt.mp two) three (by decide) (by decide)
      (fun same => absurd same shortest) fun same => absurd same surrogates)
  rw [if_neg three] at clean ⊢
  by_cases first : byte = 0xF0
  next =>
    subst first
    rw [if_pos rfl]
    exact opens (@completes_four 0xF0 0x90 0xBF (by decide) (by decide) (by decide) (by decide)
      (by decide) (by decide))
  rw [if_neg first] at clean ⊢
  by_cases four : byte < 0xF4
  next =>
    rw [if_pos four]
    exact opens (completes_four (UInt8.not_lt.mp three) (UInt8.le_of_lt four) (by decide) (by decide)
      (fun same => absurd same first) fun same => absurd four (by simp [same]))
  rw [if_neg four] at clean ⊢
  by_cases greatest : byte = 0xF4
  next =>
    subst greatest
    rw [if_pos rfl]
    exact opens (@completes_four 0xF4 0x80 0x8F (by decide) (by decide) (by decide) (by decide)
      (by decide) (by decide))
  next => simp [greatest] at clean

theorem feed_holds (byte : UInt8) (holds : phase.Holds held)
    (clean : junk ∉ (phase.feed [junk] byte).1) :
    ∃ later, (phase.feed [junk] byte).2.Holds later ∧
      (phase.feed [junk] byte).1.flatMap String.utf8EncodeChar ++ later = held ++ [byte] := by
  cases holds with
  | boundary => exact lead_holds byte clean
  | @inside missing low high code held completes =>
    simp only [Phase.feed] at clean ⊢
    by_cases taken : (decide (low ≤ byte) && decide (byte ≤ high)) = true
    next =>
      rw [if_pos taken]
      simp only [Bool.and_eq_true, decide_eq_true_eq] at taken
      match missing, completes with
      | 1, completes => exact ⟨[], .boundary, by simp [completes byte taken.1 taken.2]⟩
      | more + 2, completes => exact ⟨_, .inside (completes byte taken.1 taken.2), rfl⟩
    next => simp [taken] at clean

theorem scan_done (junk : List Char) (phase : Phase) (bytes : Bytes) (done : List Char) :
    scan junk phase bytes done = done.reverse ++ scan junk phase bytes [] := by
  induction bytes generalizing phase done with
  | nil => simp [scan]
  | cons byte bytes ih =>
    have first := ih (phase.feed junk byte).2 ((phase.feed junk byte).1.reverse ++ done)
    have alone := ih (phase.feed junk byte).2 (phase.feed junk byte).1.reverse
    simp [scan, first, alone]

theorem scan_spells (bytes : Bytes) (holds : phase.Holds held)
    (clean : junk ∉ scan [junk] phase bytes []) :
    (scan [junk] phase bytes []).flatMap String.utf8EncodeChar = held ++ bytes := by
  induction bytes generalizing phase held with
  | nil =>
    cases holds with
    | boundary => rfl
    | inside => simp [scan, Phase.finish] at clean
  | cons byte bytes ih =>
    have split : scan [junk] phase (byte :: bytes) [] =
        (phase.feed [junk] byte).1 ++ scan [junk] (phase.feed [junk] byte).2 bytes [] := by
      have read := scan_done [junk] (phase.feed [junk] byte).2 bytes (phase.feed [junk] byte).1.reverse
      simpa [scan] using read
    rw [split, List.mem_append, not_or] at clean
    obtain ⟨later, goes, spelled⟩ := feed_holds byte holds clean.1
    rw [split, List.flatMap_append, ih goes clean.2, ← List.append_assoc, spelled, List.append_assoc]
    rfl

theorem replacement_mem_decode {bytes : Bytes} (invalid : ∀ text, encode text ≠ bytes) :
    replacement ∈ (decode bytes).toList := by
  have unread : decode? bytes = none := by
    cases read : decode? bytes with
    | none => rfl
    | some text => exact absurd (decode?_iff.mp read) (invalid text)
  by_contra clean
  rw [decode, unread, Option.getD_none, decodeWith, String.toList_ofList] at clean
  have spelled := scan_spells bytes .boundary clean
  rw [← encode_ofList] at spelled
  exact invalid _ spelled

end Scanning

end TemplateSync.Utf8
