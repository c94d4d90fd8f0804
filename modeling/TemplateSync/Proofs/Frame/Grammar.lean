import Mathlib.Data.List.Induction
import TemplateSync.Proofs.Frame.Sequences
import TemplateSync.Proofs.Utf8

set_option autoImplicit false

namespace TemplateSync.Frame

/-- At most so many groups: all but the last have the high bit set, and the last that there can be has four bits. -/
inductive Header (most : Nat) : Bytes → Prop where
  | groups (onward : Bytes) (last : UInt8) (short : onward.length < most)
      (high : ∀ group ∈ onward, 0x80 ≤ group) (low : last < 0x80)
      (room : onward.length + 1 = most → last ≤ 0x0F) : Header most (onward ++ [last])

def value (groups : Bytes) : Nat :=
  (groups.mapIdx fun place group => group.toNat % 128 * 128 ^ place).sum

def gather : UInt32 → Nat → Bytes → UInt32
  | word, _, [] => word
  | word, place, group :: groups =>
    gather (word ||| (group &&& 0x7F).toUInt32 <<< UInt32.ofNat (7 * place)) (place + 1) groups

inductive Parses (limit : Nat) : Bytes → Except Fault String → Bytes → Prop where
  | text (header body rest : Bytes) (spelled : Header maxGroups header)
      (whole : body.length = value header) (within : value header ≤ limit) :
      Parses limit (header ++ body ++ rest) (.ok (Utf8.decode body)) rest
  | exceeds (header rest : Bytes) (spelled : Header maxGroups header) (beyond : limit < value header) :
      Parses limit (header ++ rest) (.error (.overLimit (value header) limit)) rest
  | shapeless (groups rest : Bytes) (five : groups.length = 5)
      (none : ∀ header, Header maxGroups header → ¬ header <+: groups ++ rest) :
      Parses limit (groups ++ rest) (.error .badPrefix) rest
  | cutHeader (bytes : Bytes) (short : bytes.length < 5)
      (none : ∀ header, Header maxGroups header → ¬ header <+: bytes) :
      Parses limit bytes (.error .endOfStream) []
  | cutBody (header body : Bytes) (spelled : Header maxGroups header)
      (short : body.length < value header) (within : value header ≤ limit) :
      Parses limit (header ++ body) (.error .endOfStream) []

section Values

theorem value_snoc (groups : Bytes) (group : UInt8) :
    value (groups ++ [group]) = value groups + 128 ^ groups.length * (group.toNat % 128) := by
  simp [value, List.mapIdx_concat, Nat.mul_comm]

theorem value_cons (group : UInt8) (groups : Bytes) :
    value (group :: groups) = group.toNat % 128 + 128 * value groups := by
  induction groups using List.reverseRecOn with
  | nil => simp [value]
  | append_singleton groups last ih =>
    rw [← List.cons_append, value_snoc, value_snoc, ih, List.length_cons]
    ring

theorem value_lt (groups : Bytes) : value groups < 128 ^ groups.length := by
  induction groups with
  | nil => simp [value]
  | cons group groups ih =>
    rw [value_cons, List.length_cons, Nat.pow_succ]
    omega

theorem header_value {groups : Bytes} (header : Header maxGroups groups) :
    groups.length ≤ 5 ∧ value groups < 2 ^ 32 := by
  cases header with
  | groups onward last short high low room =>
    simp only [maxGroups] at short room
    have lower := value_lt onward
    have small : last.toNat % 128 < 128 := Nat.mod_lt _ (by decide)
    rw [value_snoc, List.length_append, List.length_singleton]
    refine ⟨by omega, ?_⟩
    by_cases full : onward.length = 4
    next =>
      have four : last.toNat ≤ 15 := UInt8.le_iff_toNat_le.mp (room (by omega))
      rw [full] at lower ⊢
      omega
    next =>
      have fewer : 128 ^ onward.length ≤ 128 ^ 3 := Nat.pow_le_pow_right (by decide) (by omega)
      have most : 128 ^ onward.length * (last.toNat % 128) ≤ 128 ^ 3 * 127 :=
        Nat.mul_le_mul fewer (by omega)
      omega

theorem toNat_lay (word : UInt32) (place : Nat) (group : UInt8) (low : word.toNat < 128 ^ place)
    (four : place ≤ 4) (room : group.toNat % 128 * 128 ^ place < 2 ^ 32) :
    (word ||| (group &&& 0x7F).toUInt32 <<< UInt32.ofNat (7 * place)).toNat =
      word.toNat + group.toNat % 128 * 128 ^ place := by
  have bits : (group &&& 0x7F).toNat = group.toNat % 128 := by
    rw [UInt8.toNat_and]
    exact Nat.and_two_pow_sub_one_eq_mod _ 7
  have amount : (UInt32.ofNat (7 * place)).toNat % 32 = 7 * place := by
    rw [UInt32.toNat_ofNat']
    omega
  have power : 128 ^ place = 2 ^ (7 * place) := by
    rw [Nat.pow_mul]
  rw [power] at low room ⊢
  rw [UInt32.toNat_or, UInt32.toNat_shiftLeft, UInt8.toNat_toUInt32, bits, amount, Nat.shiftLeft_eq,
    Nat.mod_eq_of_lt room, Nat.or_comm, Nat.mul_comm, ← Nat.two_pow_add_eq_or_of_lt low, Nat.add_comm]

theorem toNat_gather (groups : Bytes) (word : UInt32) (place : Nat) (low : word.toNat < 128 ^ place)
    (five : place + groups.length ≤ 5) (room : word.toNat + 128 ^ place * value groups < 2 ^ 32) :
    (gather word place groups).toNat = word.toNat + 128 ^ place * value groups := by
  induction groups generalizing word place with
  | nil => simp [gather, value]
  | cons group groups ih =>
    rw [List.length_cons] at five
    have split : word.toNat + 128 ^ place * value (group :: groups) =
        word.toNat + group.toNat % 128 * 128 ^ place + 128 ^ (place + 1) * value groups := by
      rw [value_cons]
      ring
    have small : group.toNat % 128 < 128 := Nat.mod_lt _ (by decide)
    have laid := toNat_lay word place group low (by omega) (by omega)
    have next : word.toNat + group.toNat % 128 * 128 ^ place < 128 ^ (place + 1) := by
      have most : group.toNat % 128 * 128 ^ place ≤ 127 * 128 ^ place :=
        Nat.mul_le_mul_right _ (by omega)
      rw [Nat.pow_succ]
      omega
    rw [split] at room ⊢
    rw [gather, ih _ _ (by rwa [laid]) (by omega) (by rwa [laid]), laid]

-- No bit of the value is lost in a word of 32 bits.
theorem value_eq_toNat_gather {groups : Bytes} (header : Header maxGroups groups) :
    (gather 0 0 groups).toNat = value groups := by
  obtain ⟨five, small⟩ := header_value header
  have gathered := toNat_gather groups 0 0 (by decide) (by omega) (by simpa using small)
  simpa using gathered

end Values

section Headers

theorem lengthFrom_header (onward : Bytes) (last : UInt8) (rest : Bytes) (more place sum : Nat)
    (short : onward.length < more) (high : ∀ group ∈ onward, 0x80 ≤ group) (low : last < 0x80)
    (room : onward.length + 1 = more → last ≤ 0x0F) :
    lengthFrom more place sum (onward ++ last :: rest) =
      (.ok (sum + value (onward ++ [last]) * place), rest) := by
  induction onward generalizing more place sum with
  | nil =>
    obtain ⟨more, rfl⟩ : ∃ less, more = less + 1 := ⟨more - 1, by simp at short; omega⟩
    have fits : ¬ (more = 0 ∧ 0x0F < last) := by
      intro bad
      have most : last ≤ 0x0F := room (by simp [bad.1])
      exact absurd bad.2 (UInt8.not_lt.mpr most)
    simp [lengthFrom, fits, low, value]
  | cons group onward ih =>
    rw [List.length_cons] at short room
    obtain ⟨more, rfl⟩ : ∃ less, more = less + 1 := ⟨more - 1, by omega⟩
    have own : ¬ group < 0x80 := UInt8.not_lt.mpr (high group (by simp))
    have others : ∀ one ∈ onward, 0x80 ≤ one := fun one inside => high one (by simp [inside])
    have later := ih more (place * 128) (sum + group.toNat % 128 * place) (by omega) others
      (by intro full; exact room (by omega))
    have goes : ¬ more = 0 := by omega
    simp only [List.cons_append, lengthFrom, goes, own, decide_false, Bool.false_and, if_false, later,
      Bool.false_eq_true]
    rw [value_cons]
    congr 2
    ring

theorem header_cons {most : Nat} {group : UInt8} {groups : Bytes} (high : 0x80 ≤ group)
    (header : Header most groups) : Header (most + 1) (group :: groups) := by
  cases header with
  | groups onward last short others low room =>
    apply Header.groups (group :: onward) last
    · simpa using short
    · simpa [high] using others
    · exact low
    · simpa using room

theorem lengthFrom_shapeless (more place sum : Nat) (bytes : Bytes)
    (none : ∀ groups, Header more groups → ¬ groups <+: bytes) :
    lengthFrom more place sum bytes =
      if more ≤ bytes.length then (.error .badPrefix, bytes.drop more) else (.error .endOfStream, []) := by
  induction more generalizing place sum bytes with
  | zero => simp [lengthFrom]
  | succ more ih =>
    cases bytes with
    | nil => simp [lengthFrom]
    | cons group rest =>
      have alone (low : group < 0x80) (room : more = 0 → group ≤ 0x0F) : False := by
        apply none [group]
        · exact Header.groups [] group (by simp) (by simp) low (by simpa using room)
        · simp
      rw [lengthFrom]
      by_cases bad : more = 0 ∧ 0x0F < group
      next => simp [bad]
      have fits : ¬ (decide (more = 0) && decide (0x0F < group)) = true := by simpa using bad
      rw [if_neg fits]
      by_cases low : group < 0x80
      next =>
        refine (alone low fun first => ?_).elim
        exact UInt8.not_lt.mp fun big => bad ⟨first, big⟩
      have later : ∀ groups, Header more groups → ¬ groups <+: rest := by
        intro groups header begins
        apply none (group :: groups) (header_cons (UInt8.not_lt.mp low) header)
        exact (List.prefix_cons_inj group).mpr begins
      rw [if_neg low, ih _ _ rest later]
      simp

end Headers

section Parses

variable {limit : Nat} {bytes rest : Bytes} {answer : Except Fault String}

theorem lengthFrom_spelled {header : Bytes} (spelled : Header maxGroups header) (rest : Bytes) :
    lengthFrom maxGroups 1 0 (header ++ rest) = (.ok (value header), rest) := by
  cases spelled with
  | groups onward last short high low room =>
    rw [List.append_assoc, List.singleton_append,
      lengthFrom_header onward last rest maxGroups 1 0 short high low room]
    simp

theorem textFrom_of_parses (parses : Parses limit bytes answer rest) :
    textFrom limit bytes = (answer, rest) := by
  cases parses with
  | text header body rest spelled whole within =>
    have accepted : ¬ limit < value header := by omega
    rw [textFrom, List.append_assoc, lengthFrom_spelled spelled, ← whole]
    rw [← whole] at accepted
    simp [accepted]
  | exceeds header rest spelled beyond =>
    rw [textFrom, lengthFrom_spelled spelled]
    simp [beyond]
  | shapeless groups rest five none =>
    have enough : maxGroups ≤ (groups ++ rest).length := by
      rw [List.length_append, five, maxGroups]
      omega
    have after : (groups ++ rest).drop maxGroups = rest := List.drop_left' five
    rw [textFrom, lengthFrom_shapeless _ _ _ _ none, if_pos enough, after]
  | cutHeader bytes short none =>
    have few : ¬ maxGroups ≤ bytes.length := by
      rw [maxGroups]
      omega
    rw [textFrom, lengthFrom_shapeless _ _ _ _ none, if_neg few]
  | cutBody header body spelled short within =>
    have accepted : ¬ limit < value header := by omega
    rw [textFrom, lengthFrom_spelled spelled]
    simp [accepted, short]

theorem parses_something (limit : Nat) (bytes : Bytes) :
    ∃ answer rest, Parses limit bytes answer rest := by
  by_cases some : ∃ header, Header maxGroups header ∧ header <+: bytes
  next =>
    obtain ⟨header, spelled, rest, rfl⟩ := some
    by_cases beyond : limit < value header
    next => exact ⟨_, _, .exceeds header rest spelled beyond⟩
    by_cases short : rest.length < value header
    next => exact ⟨_, _, .cutBody header rest spelled short (by omega)⟩
    have whole : (rest.take (value header)).length = value header := by
      rw [List.length_take]
      omega
    have parses := Parses.text header (rest.take (value header)) (rest.drop (value header)) spelled whole
      (Nat.le_of_not_lt beyond)
    rw [List.append_assoc, List.take_append_drop] at parses
    exact ⟨_, _, parses⟩
  next =>
    have none : ∀ header, Header maxGroups header → ¬ header <+: bytes :=
      fun header spelled begins => some ⟨header, spelled, begins⟩
    by_cases short : bytes.length < 5
    next => exact ⟨_, _, .cutHeader bytes short none⟩
    have five : (bytes.take 5).length = 5 := by
      rw [List.length_take]
      omega
    have parses := @Parses.shapeless limit (bytes.take 5) (bytes.drop 5) five
      (by rwa [List.take_append_drop])
    rw [List.take_append_drop] at parses
    exact ⟨_, _, parses⟩

theorem parses_iff : textFrom limit bytes = (answer, rest) ↔ Parses limit bytes answer rest := by
  constructor
  next =>
    intro read
    obtain ⟨said, left, parses⟩ := parses_something limit bytes
    have same := textFrom_of_parses parses
    rw [read] at same
    cases same
    exact parses
  next => exact textFrom_of_parses

theorem read_iff (limit : Nat) (stream : Stream) :
    (read limit stream).1 = answer ∧ (read limit stream).2.flatten = rest ↔
      Parses limit stream.flatten answer rest := by
  obtain ⟨same, flat⟩ := read_flat limit stream
  rw [← parses_iff, same, flat, Prod.ext_iff]

theorem read_ok_iff (limit : Nat) (stream : Stream) :
    (∃ text, (read limit stream).1 = .ok text) ↔
      ∃ header body rest, Header maxGroups header ∧ value header ≤ limit ∧ body.length = value header ∧
        stream.flatten = header ++ body ++ rest := by
  constructor
  next =>
    rintro ⟨text, read⟩
    have parses := (read_iff limit stream).mp ⟨read, rfl⟩
    generalize stream.flatten = bytes at parses ⊢
    cases parses with
    | text header body rest spelled whole within => exact ⟨header, body, _, spelled, within, whole, rfl⟩
  next =>
    rintro ⟨header, body, rest, spelled, within, whole, arrives⟩
    have parses := Parses.text header body rest spelled whole within
    rw [← arrives] at parses
    exact ⟨_, ((read_iff limit stream).mpr parses).1⟩

-- A length may be spelled with more groups than it needs.
example : lengthFrom maxGroups 1 0 [0x81, 0x80, 0x00, 0x41] = (.ok 1, [0x41]) := rfl

end Parses

section Runs

theorem texts_append (limit : Nat) (bytes tail : Bytes) :
    texts limit bytes <+: texts limit (bytes ++ tail) := by
  induction size : bytes.length using Nat.strongRecOn generalizing bytes with
  | ind size ih =>
    rcases found : textFrom limit bytes with ⟨answer, rest⟩
    cases answer with
    | error fault =>
      rw [texts_error found]
      exact List.nil_prefix
    | ok text =>
      have less := textFrom_smaller found
      rw [texts_ok found, texts_ok (textFrom_append found tail)]
      exact (List.prefix_cons_inj text).mpr (ih rest.length (by omega) rest rfl)

-- Each text takes an octet at least, so that reading comes to a fault.
theorem readUpTo_ends (limit fuel : Nat) (stream : Stream) (done : List String)
    (enough : octets stream < fuel) :
    ∃ later fault rest, readUpTo limit fuel stream done = ⟨done.reverse ++ later, fault, rest⟩ ∧
      readMany limit (later.length + 1) stream = (later.map .ok ++ [.error fault], rest) ∧
      later.length ≤ octets stream := by
  induction fuel generalizing stream done with
  | zero => omega
  | succ fuel ih =>
    rcases found : read limit stream with ⟨answer, rest⟩
    cases answer with
    | error fault => exact ⟨[], fault, rest, by simp [readUpTo, found], by simp [readMany, found], by simp⟩
    | ok text =>
      have less := read_smaller found
      obtain ⟨later, fault, last, all, many, few⟩ := ih rest (text :: done) (by omega)
      refine ⟨text :: later, fault, last, ?_, ?_, ?_⟩
      · simp [readUpTo, found, all]
      · simp [readMany, found, many]
      · rw [List.length_cons]
        omega

theorem readAll_ends (limit : Nat) (stream : Stream) :
    readMany limit ((readAll limit stream).texts.length + 1) stream =
        ((readAll limit stream).texts.map .ok ++ [.error (readAll limit stream).fault],
          (readAll limit stream).rest) ∧
      (readAll limit stream).texts.length ≤ octets stream := by
  obtain ⟨later, fault, rest, all, many, few⟩ :=
    readUpTo_ends limit (octets stream + 1) stream [] (by omega)
  rw [readAll, all]
  exact ⟨many, few⟩

/-- What more octets follow does not change the texts already read. -/
theorem streams_follow_the_grammar (limit : Nat) (stream : Stream) :
    ((∃ text, (read limit stream).1 = .ok text) ↔
      ∃ header body rest, Header maxGroups header ∧ value header ≤ limit ∧ body.length = value header ∧
        stream.flatten = header ++ body ++ rest) ∧
    (∀ answer rest, (read limit stream).1 = answer ∧ (read limit stream).2.flatten = rest ↔
      Parses limit stream.flatten answer rest) ∧
    (∀ header, Header maxGroups header →
      value header < 2 ^ 32 ∧ (gather 0 0 header).toNat = value header) ∧
    (∀ body, (∀ text, Utf8.encode text = body → Utf8.decode body = text) ∧
      ((∀ text, Utf8.encode text ≠ body) → Utf8.replacement ∈ (Utf8.decode body).toList)) ∧
    (∀ (tail : Bytes) (longer : Stream), longer.flatten = stream.flatten ++ tail →
      (readAll limit stream).texts <+: (readAll limit longer).texts) ∧
    readMany limit ((readAll limit stream).texts.length + 1) stream =
      ((readAll limit stream).texts.map .ok ++ [.error (readAll limit stream).fault],
        (readAll limit stream).rest) ∧
    (readAll limit stream).texts.length ≤ octets stream := by
  obtain ⟨many, few⟩ := readAll_ends limit stream
  refine ⟨read_ok_iff limit stream, fun answer rest => read_iff limit stream, ?_, ?_, ?_, many, few⟩
  next =>
    intro header spelled
    exact ⟨(header_value spelled).2, value_eq_toNat_gather spelled⟩
  next =>
    intro body
    constructor
    · rintro text rfl
      exact Utf8.decode_encode text
    · exact Utf8.replacement_mem_decode
  next =>
    intro tail longer arrives
    rw [readAll_texts, readAll_texts, arrives]
    exact texts_append limit stream.flatten tail

end Runs

end TemplateSync.Frame
