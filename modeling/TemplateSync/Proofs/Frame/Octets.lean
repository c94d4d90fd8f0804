import Mathlib.Tactic.Ring
import TemplateSync.Frame

set_option autoImplicit false

namespace TemplateSync.Frame

def lengthFrom : Nat → Nat → Nat → Bytes → Except Fault Nat × Bytes
  | 0, _, _, bytes => (.error .badPrefix, bytes)
  | _ + 1, _, _, [] => (.error .endOfStream, [])
  | more + 1, place, sum, byte :: rest =>
    if more = 0 && 0x0F < byte then (.error .badPrefix, rest)
    else if byte < 0x80 then (.ok (sum + byte.toNat % 128 * place), rest)
    else lengthFrom more (place * 128) (sum + byte.toNat % 128 * place) rest

def textFrom (limit : Nat) (bytes : Bytes) : Except Fault String × Bytes :=
  match lengthFrom maxGroups 1 0 bytes with
  | (.error fault, rest) => (.error fault, rest)
  | (.ok length, rest) =>
    if limit < length then (.error (.overLimit length limit), rest)
    else if rest.length < length then (.error .endOfStream, [])
    else (.ok (Utf8.decode (rest.take length)), rest.drop length)

theorem takeOnto_eq (count : Nat) (bytes taken : Bytes) :
    takeOnto count bytes taken =
      (count - bytes.length, bytes.drop count, (bytes.take count).reverse ++ taken) := by
  induction bytes generalizing count taken with
  | nil => cases count <;> simp [takeOnto]
  | cons byte bytes ih =>
    cases count with
    | zero => simp [takeOnto]
    | succ count => simp [takeOnto, ih]

theorem readOnto_short (count : Nat) (stream : Stream) (taken : Bytes)
    (short : stream.flatten.length < count) : readOnto count stream taken = none := by
  induction stream generalizing count taken with
  | nil =>
    cases count with
    | zero => simp at short
    | succ count => rfl
  | cons piece stream ih =>
    simp only [List.flatten_cons, List.length_append] at short
    obtain ⟨count, rfl⟩ : ∃ less, count = less + 1 := ⟨count - 1, by omega⟩
    obtain ⟨missing, left⟩ : ∃ missing, count + 1 - piece.length = missing + 1 :=
      ⟨count - piece.length, by omega⟩
    simp only [readOnto, takeOnto_eq, left]
    exact ih (missing + 1) _ (by omega)

theorem readOnto_enough (count : Nat) (stream : Stream) (taken : Bytes)
    (enough : count ≤ stream.flatten.length) :
    ∃ rest, readOnto count stream taken =
        some (taken.reverse ++ stream.flatten.take count, rest) ∧
      rest.flatten = stream.flatten.drop count := by
  induction stream generalizing count taken with
  | nil =>
    have none : count = 0 := by simpa using enough
    subst none
    exact ⟨[], by simp [readOnto], by simp⟩
  | cons piece stream ih =>
    simp only [List.flatten_cons, List.length_append] at enough
    cases count with
    | zero => exact ⟨piece :: stream, by simp [readOnto], by simp⟩
    | succ count =>
      by_cases inside : count + 1 ≤ piece.length
      next =>
        have missing : count + 1 - piece.length = 0 := by omega
        refine ⟨piece.drop (count + 1) :: stream, ?_, ?_⟩
        next =>
          simp [readOnto, takeOnto_eq, missing, List.take_append_of_le_length inside]
        next => simp [List.drop_append_of_le_length inside]
      next =>
        obtain ⟨missing, left⟩ : ∃ missing, count + 1 - piece.length = missing + 1 :=
          ⟨count - piece.length, by omega⟩
        obtain ⟨rest, read, flat⟩ := ih (missing + 1) ((piece.take (count + 1)).reverse ++ taken)
          (by omega)
        have all : piece.take (count + 1) = piece := List.take_of_length_le (by omega)
        refine ⟨rest, ?_, ?_⟩
        next =>
          simp only [readOnto, takeOnto_eq, left, read]
          rw [List.flatten_cons, List.take_append, all, left]
          simp
        next =>
          rw [flat, List.flatten_cons, List.drop_append, left]
          simp [List.drop_of_length_le (Nat.le_of_lt (Nat.lt_of_not_le inside))]

theorem readExact_short {count : Nat} {stream : Stream} (short : stream.flatten.length < count) :
    readExact count stream = none :=
  readOnto_short count stream [] short

theorem readExact_enough {count : Nat} {stream : Stream}
    (enough : count ≤ stream.flatten.length) :
    ∃ rest, readExact count stream = some (stream.flatten.take count, rest) ∧
      rest.flatten = stream.flatten.drop count := by
  simpa [readExact] using readOnto_enough count stream [] enough

theorem readLength_flat (more place sum : Nat) (stream : Stream) :
    (readLength more place sum stream).1 = (lengthFrom more place sum stream.flatten).1 ∧
      (readLength more place sum stream).2.flatten =
        (lengthFrom more place sum stream.flatten).2 := by
  induction more generalizing place sum stream with
  | zero => exact ⟨rfl, rfl⟩
  | succ more ih =>
    cases octets : stream.flatten with
    | nil =>
      have none : readExact 1 stream = none := readExact_short (by simp [octets])
      simp [readLength, none, lengthFrom]
    | cons byte bytes =>
      have one : 1 ≤ stream.flatten.length := by simp [octets]
      obtain ⟨rest, read, flat⟩ := readExact_enough one
      simp only [octets, List.take_succ_cons, List.take_zero, List.drop_succ_cons,
        List.drop_zero] at read flat
      have later := ih (place * 128) (sum + byte.toNat % 128 * place) rest
      simp only [readLength, read, lengthFrom]
      split
      next => exact ⟨rfl, flat⟩
      split
      next => exact ⟨rfl, flat⟩
      next => rwa [flat] at later

theorem read_flat (limit : Nat) (stream : Stream) :
    (read limit stream).1 = (textFrom limit stream.flatten).1 ∧
      (read limit stream).2.flatten = (textFrom limit stream.flatten).2 := by
  obtain ⟨same, flat⟩ := readLength_flat maxGroups 1 0 stream
  rw [read, textFrom]
  generalize readLength maxGroups 1 0 stream = found at same flat ⊢
  generalize lengthFrom maxGroups 1 0 stream.flatten = expected at same flat ⊢
  obtain ⟨answer, rest⟩ := found
  obtain ⟨_, _⟩ := expected
  simp only at same flat
  subst same flat
  cases answer with
  | error fault => exact ⟨rfl, rfl⟩
  | ok length =>
    by_cases beyond : limit < length
    next => simp only [if_pos beyond, and_self]
    by_cases short : rest.flatten.length < length
    next => simp only [if_neg beyond, if_pos short, readExact_short short, List.flatten_nil, and_self]
    obtain ⟨after, got, left⟩ := readExact_enough (Nat.le_of_not_lt short)
    simp only [if_neg beyond, if_neg short, got, left, and_self]

theorem lengthFrom_groups (more place sum length : Nat) (tail : Bytes)
    (bound : length < 16 * 128 ^ more) :
    lengthFrom (more + 1) place sum (lengthGroups (more + 1) length ++ tail) =
      (.ok (sum + length * place), tail) := by
  induction more generalizing place sum length with
  | zero =>
    -- Four bits are left for the last group.
    have small : length < 16 := by simpa using bound
    have byte : (UInt8.ofNat length).toNat = length := by
      simp; omega
    have low : ¬ 0x0F < UInt8.ofNat length := by
      rw [UInt8.lt_iff_toNat_lt, byte]; simp; omega
    have last : UInt8.ofNat length < 0x80 := by
      rw [UInt8.lt_iff_toNat_lt, byte]; simp; omega
    have only : length < 128 := by omega
    simp [lengthGroups, lengthFrom, only, low, last, byte, Nat.mod_eq_of_lt only]
  | succ more ih =>
    rw [lengthGroups]
    by_cases only : length < 128
    next =>
      have byte : (UInt8.ofNat length).toNat = length := by
        simp; omega
      have last : UInt8.ofNat length < 0x80 := by
        rw [UInt8.lt_iff_toNat_lt, byte]; simpa using only
      simp [only, lengthFrom, last, byte, Nat.mod_eq_of_lt only]
    next =>
      have byte : (UInt8.ofNat (length % 128 + 128)).toNat = length % 128 + 128 := by
        simp; omega
      have goes_on : ¬ UInt8.ofNat (length % 128 + 128) < 0x80 := by
        rw [UInt8.lt_iff_toNat_lt, byte]; simp
      have less : length / 128 < 16 * 128 ^ more := by
        rw [Nat.div_lt_iff_lt_mul (by decide)]
        calc length < 16 * 128 ^ (more + 1) := bound
          _ = 16 * 128 ^ more * 128 := by ring
      have split : length = length % 128 + length / 128 * 128 := by omega
      have total : sum + length % 128 * place + length / 128 * (place * 128) =
          sum + length * place := by
        calc _ = sum + (length % 128 + length / 128 * 128) * place := by ring
          _ = _ := by rw [← split]
      simp only [only, if_false, List.cons_append, lengthFrom, goes_on, byte]
      rw [show (length % 128 + 128) % 128 = length % 128 by omega, ih _ _ _ less, total]
      simp

theorem lengthFrom_prefix (length : Nat) (tail : Bytes) (bound : length < maxLength) :
    lengthFrom maxGroups 1 0 (lengthPrefix length ++ tail) = (.ok length, tail) := by
  have read := lengthFrom_groups 4 1 0 length tail (by simpa [maxLength, UInt32.size] using bound)
  simpa [maxGroups, lengthPrefix] using read

theorem write_eq {text : String} {frame : Bytes} (written : write text = .ok frame) :
    (Utf8.encode text).length < maxLength ∧
      frame = lengthPrefix (Utf8.encode text).length ++ Utf8.encode text := by
  simp only [write] at written
  split at written
  next fits => exact ⟨fits, (Except.ok.inj written).symm⟩
  next => cases written

theorem textFrom_write {limit : Nat} {text : String} {frame : Bytes}
    (written : write text = .ok frame) (within : (Utf8.encode text).length ≤ limit)
    (tail : Bytes) : textFrom limit (frame ++ tail) = (.ok text, tail) := by
  obtain ⟨fits, rfl⟩ := write_eq written
  have accepted : ¬ limit < (Utf8.encode text).length := Nat.not_lt.mpr within
  rw [textFrom, List.append_assoc, lengthFrom_prefix _ _ fits]
  simp [accepted]

theorem textFrom_over {limit : Nat} {text : String} {frame : Bytes}
    (written : write text = .ok frame) (beyond : limit < (Utf8.encode text).length)
    (tail : Bytes) :
    textFrom limit (frame ++ tail) =
      (.error (.overLimit (Utf8.encode text).length limit), Utf8.encode text ++ tail) := by
  obtain ⟨fits, rfl⟩ := write_eq written
  rw [textFrom, List.append_assoc, lengthFrom_prefix _ _ fits]
  simp [beyond]

theorem lengthFrom_append {more place sum length : Nat} {bytes rest : Bytes}
    (read : lengthFrom more place sum bytes = (.ok length, rest)) (tail : Bytes) :
    lengthFrom more place sum (bytes ++ tail) = (.ok length, rest ++ tail) := by
  induction more generalizing place sum bytes with
  | zero => cases read
  | succ more ih =>
    cases bytes with
    | nil => cases read
    | cons byte bytes =>
      rw [lengthFrom] at read
      rw [List.cons_append, lengthFrom]
      by_cases bad : (decide (more = 0) && decide (0x0F < byte)) = true
      next => rw [if_pos bad] at read; cases read
      rw [if_neg bad] at read ⊢
      by_cases last : byte < 0x80
      next =>
        rw [if_pos last] at read ⊢
        cases read
        rfl
      next =>
        rw [if_neg last] at read ⊢
        exact ih read

theorem lengthFrom_smaller {more place sum length : Nat} {bytes rest : Bytes}
    (read : lengthFrom more place sum bytes = (.ok length, rest)) : rest.length < bytes.length := by
  induction more generalizing place sum bytes with
  | zero => cases read
  | succ more ih =>
    cases bytes with
    | nil => cases read
    | cons byte bytes =>
      rw [lengthFrom] at read
      split at read
      next => cases read
      split at read
      next => cases read; simp
      next =>
        have less := ih read
        rw [List.length_cons]
        omega

theorem textFrom_ok {limit : Nat} {text : String} {bytes rest : Bytes}
    (read : textFrom limit bytes = (.ok text, rest)) :
    ∃ length body, lengthFrom maxGroups 1 0 bytes = (.ok length, body) ∧ length ≤ limit ∧
      length ≤ body.length ∧ text = Utf8.decode (body.take length) ∧ rest = body.drop length := by
  rw [textFrom] at read
  split at read
  next => cases read
  next length body found =>
    split at read
    next => cases read
    next within =>
      split at read
      next => cases read
      next enough =>
        cases read
        exact ⟨length, body, found, Nat.le_of_not_lt within, Nat.le_of_not_lt enough, rfl, rfl⟩

theorem textFrom_append {limit : Nat} {text : String} {bytes rest : Bytes}
    (read : textFrom limit bytes = (.ok text, rest)) (tail : Bytes) :
    textFrom limit (bytes ++ tail) = (.ok text, rest ++ tail) := by
  obtain ⟨length, body, found, within, enough, rfl, rfl⟩ := textFrom_ok read
  have accepted : ¬ limit < length := Nat.not_lt.mpr within
  have there : ¬ (body ++ tail).length < length := by rw [List.length_append]; omega
  rw [textFrom, lengthFrom_append found]
  simp only [if_neg accepted, if_neg there, List.take_append_of_le_length enough,
    List.drop_append_of_le_length enough]

theorem textFrom_smaller {limit : Nat} {text : String} {bytes rest : Bytes}
    (read : textFrom limit bytes = (.ok text, rest)) : rest.length < bytes.length := by
  obtain ⟨length, body, found, _, _, _, rfl⟩ := textFrom_ok read
  have less := lengthFrom_smaller found
  rw [List.length_drop]
  omega

theorem textFrom_cut {text : String} {frame piece missing : Bytes}
    (written : write text = .ok frame) (cut : piece ++ missing = frame) (short : missing ≠ [])
    (limit : Nat) : ∃ fault rest, textFrom limit piece = (.error fault, rest) := by
  rcases read : textFrom limit piece with ⟨answer, rest⟩
  cases answer with
  | error fault => exact ⟨fault, rest, rfl⟩
  | ok found =>
    have whole := textFrom_append read missing
    rw [cut] at whole
    by_cases within : (Utf8.encode text).length ≤ limit
    next =>
      have sure := textFrom_write written within []
      rw [List.append_nil, whole] at sure
      have none : rest ++ missing = [] := (Prod.mk.inj sure).2
      exact absurd (List.append_eq_nil_iff.mp none).2 short
    next =>
      have refused := textFrom_over written (Nat.lt_of_not_le within) []
      rw [List.append_nil, whole] at refused
      cases refused

theorem textFrom_starved {length : Nat} {rest : Bytes} (bound : length < maxLength)
    (short : rest.length < length) (limit : Nat) :
    ∃ fault after, textFrom limit (lengthPrefix length ++ rest) = (.error fault, after) := by
  simp only [textFrom, lengthFrom_prefix length rest bound, short, if_true]
  split <;> exact ⟨_, _, rfl⟩

theorem read_smaller {limit : Nat} {text : String} {stream rest : Stream}
    (got : read limit stream = (.ok text, rest)) : octets rest < octets stream := by
  obtain ⟨same, flat⟩ := read_flat limit stream
  rw [got] at same flat
  exact textFrom_smaller (Prod.ext same.symm flat.symm)

def textsFrom (limit : Nat) : Nat → Bytes → List String
  | 0, _ => []
  | fuel + 1, bytes =>
    match textFrom limit bytes with
    | (.ok text, rest) => text :: textsFrom limit fuel rest
    | (.error _, _) => []

def texts (limit : Nat) (bytes : Bytes) : List String :=
  textsFrom limit (bytes.length + 1) bytes

theorem readUpTo_texts (limit fuel : Nat) (stream : Stream) (done : List String) :
    (readUpTo limit fuel stream done).texts =
      done.reverse ++ textsFrom limit fuel stream.flatten := by
  induction fuel generalizing stream done with
  | zero => simp [readUpTo, textsFrom]
  | succ fuel ih =>
    obtain ⟨same, flat⟩ := read_flat limit stream
    rw [readUpTo, textsFrom]
    generalize read limit stream = found at same flat ⊢
    generalize textFrom limit stream.flatten = expected at same flat ⊢
    obtain ⟨answer, rest⟩ := found
    obtain ⟨_, _⟩ := expected
    simp only at same flat
    subst same flat
    cases answer with
    | error fault => simp
    | ok text => simp [ih]

@[simp] theorem readAll_texts (limit : Nat) (stream : Stream) :
    (readAll limit stream).texts = texts limit stream.flatten := by
  rw [readAll, readUpTo_texts]
  rfl

theorem textsFrom_enough {limit fuel more : Nat} {bytes : Bytes} (enough : bytes.length < fuel)
    (many : bytes.length < more) : textsFrom limit fuel bytes = textsFrom limit more bytes := by
  induction fuel generalizing more bytes with
  | zero => cases enough
  | succ fuel ih =>
    obtain ⟨more, rfl⟩ : ∃ less, more = less + 1 := ⟨more - 1, by omega⟩
    rw [textsFrom, textsFrom]
    split
    next text rest read =>
      have less := textFrom_smaller read
      have same : textsFrom limit fuel rest = textsFrom limit more rest :=
        ih (by omega) (by omega)
      rw [same]
    next => rfl

theorem texts_ok {limit : Nat} {text : String} {bytes rest : Bytes}
    (read : textFrom limit bytes = (.ok text, rest)) :
    texts limit bytes = text :: texts limit rest := by
  have less := textFrom_smaller read
  rw [texts, textsFrom, read, texts]
  simp only
  rw [textsFrom_enough less (Nat.lt_succ_self _)]

theorem texts_error {limit : Nat} {fault : Fault} {bytes rest : Bytes}
    (read : textFrom limit bytes = (.error fault, rest)) : texts limit bytes = [] := by
  rw [texts, textsFrom, read]

inductive Frames : List String → Bytes → Prop where
  | none : Frames [] []
  | snoc {texts : List String} {bytes : Bytes} (frames : Frames texts bytes) (text : String)
      (frame : Bytes) (written : write text = .ok frame) :
      Frames (texts ++ [text]) (bytes ++ frame)

def Torn (bytes : Bytes) : Prop :=
  ∃ text frame missing, write text = .ok frame ∧ bytes ++ missing = frame ∧ missing ≠ []

theorem torn_nil : Torn [] :=
  ⟨"", lengthPrefix 0, lengthPrefix 0, rfl, rfl, by decide⟩

@[simp] theorem texts_torn (limit : Nat) {bytes : Bytes} (torn : Torn bytes) :
    texts limit bytes = [] := by
  obtain ⟨text, frame, missing, written, cut, short⟩ := torn
  obtain ⟨fault, rest, read⟩ := textFrom_cut written cut short limit
  exact texts_error read

theorem texts_frames {limit : Nat} {spelled : List String} {bytes : Bytes}
    (frames : Frames spelled bytes)
    (within : ∀ text ∈ spelled, (Utf8.encode text).length ≤ limit) (rest : Bytes) :
    texts limit (bytes ++ rest) = spelled ++ texts limit rest := by
  induction frames generalizing rest with
  | none => rfl
  | snoc frames text frame written ih =>
    have last := texts_ok (textFrom_write written (within text (by simp)) rest)
    rw [List.append_assoc, ih (fun one inside => within one (List.mem_append_left _ inside)), last]
    simp

theorem frames_within {spelled : List String} {bytes : Bytes} (frames : Frames spelled bytes) :
    ∀ text ∈ spelled, (Utf8.encode text).length ≤ maxLength := by
  induction frames with
  | none => simp
  | snoc frames text frame written ih =>
    intro one inside
    rcases List.mem_append.mp inside with earlier | last
    next => exact ih one earlier
    next =>
      rw [List.mem_singleton.mp last]
      exact Nat.le_of_lt (write_eq written).1

end TemplateSync.Frame
