import TemplateSync.Proofs.Frame.Octets

set_option autoImplicit false

namespace TemplateSync.Frame

-- A length laid into a buffer from a place on, and the place after it; none where the buffer ends first.
def fill (buffer : Bytes) (place : Nat) (length : UInt32) : Option (Bytes × Nat) :=
  if place < buffer.length then
    if length < 0x80 then some (buffer.set place length.toUInt8, place + 1)
    else fill (buffer.set place (length.toUInt8 ||| 0x80)) (place + 1) (length >>> 7)
  else none
termination_by buffer.length - place
decreasing_by simp only [List.length_set]; omega

def readMany (limit : Nat) : Nat → Stream → List (Except Fault String) × Stream
  | 0, stream => ([], stream)
  | count + 1, stream =>
    let (answer, rest) := read limit stream
    let (answers, rest) := readMany limit count rest
    (answer :: answers, rest)

theorem length_lengthGroups (more length : Nat) :
    1 ≤ (lengthGroups (more + 1) length).length ∧
      (lengthGroups (more + 1) length).length ≤ more + 1 := by
  induction more generalizing length with
  | zero =>
    rw [lengthGroups]
    split <;> simp [lengthGroups]
  | succ more ih =>
    obtain ⟨_, most⟩ := ih (length / 128)
    rw [lengthGroups]
    split
    next => simp
    next =>
      rw [List.length_cons]
      omega

theorem or_high_bit (octet : Fin 256) : octet.val ||| 128 = octet.val % 128 + 128 := by
  decide +kernel +revert

theorem high_group (length : UInt32) :
    length.toUInt8 ||| 0x80 = UInt8.ofNat (length.toNat % 128 + 128) := by
  have octet : length.toNat % 256 ||| 128 = length.toNat % 256 % 128 + 128 :=
    or_high_bit ⟨length.toNat % 256, Nat.mod_lt _ (by decide)⟩
  apply UInt8.toNat_inj.mp
  simp only [UInt8.toNat_or, UInt32.toNat_toUInt8, UInt8.toNat_ofNat', UInt8.reduceToNat]
  rw [octet]
  omega

theorem toNat_shiftRight_group (length : UInt32) :
    (length >>> 7).toNat = length.toNat / 128 := by
  simp [UInt32.toNat_shiftRight, Nat.shiftRight_eq_div_pow]

theorem set_place (done spare : Bytes) (old new : UInt8) :
    (done ++ old :: spare).set done.length new = (done ++ [new]) ++ spare := by
  simp

theorem fill_groups (more : Nat) (done spare : Bytes) (length : UInt32)
    (room : spare.length = more + 1) (bound : length.toNat < 128 ^ (more + 1)) :
    ∃ left, fill (done ++ spare) done.length length =
      some (done ++ lengthGroups (more + 1) length.toNat ++ left,
        (done ++ lengthGroups (more + 1) length.toNat).length) := by
  -- The octets before the place are the groups that have been written.
  induction more generalizing done spare length with
  | zero =>
    obtain ⟨old, spare, rfl⟩ := List.exists_cons_of_length_eq_add_one room
    have last : length < 0x80 := by
      rw [UInt32.lt_iff_toNat_lt]
      simpa using bound
    have only : length.toNat < 128 := by simpa using bound
    refine ⟨spare, ?_⟩
    rw [fill, set_place]
    simp [last, lengthGroups, only]
  | succ more ih =>
    obtain ⟨old, spare, rfl⟩ := List.exists_cons_of_length_eq_add_one room
    have inside : done.length < (done ++ old :: spare).length := by simp
    rw [fill, if_pos inside, lengthGroups]
    by_cases last : length < 0x80
    next =>
      have only : length.toNat < 128 := by simpa [UInt32.lt_iff_toNat_lt] using last
      refine ⟨spare, ?_⟩
      rw [if_pos last, if_pos only, set_place]
      simp
    next =>
      have many : ¬ length.toNat < 128 := by simpa [UInt32.lt_iff_toNat_lt] using last
      have less : (length >>> 7).toNat < 128 ^ (more + 1) := by
        rw [toNat_shiftRight_group, Nat.div_lt_iff_lt_mul (by decide), ← Nat.pow_succ]
        exact bound
      obtain ⟨left, filled⟩ := ih (done ++ [length.toUInt8 ||| 0x80]) spare (length >>> 7)
        (by simpa using room) less
      refine ⟨left, ?_⟩
      rw [if_neg last, if_neg many, set_place, high_group]
      rw [high_group, toNat_shiftRight_group, List.length_append, List.length_singleton] at filled
      rw [filled]
      simp

theorem fill_eq (length : UInt32) :
    ∃ buffer count, fill (List.replicate maxGroups 0) 0 length = some (buffer, count) ∧
      buffer.take count = lengthPrefix length.toNat ∧ 1 ≤ count ∧ count ≤ 5 := by
  have bound : length.toNat < 128 ^ (4 + 1) := by
    have word := length.toNat_lt
    omega
  obtain ⟨left, filled⟩ := fill_groups 4 [] (List.replicate maxGroups 0) length rfl bound
  obtain ⟨some, most⟩ := length_lengthGroups 4 length.toNat
  exact ⟨_, _, filled, List.take_left, some, most⟩

theorem read_write {limit : Nat} {text : String} {frame tail : Bytes} {stream : Stream}
    (written : write text = .ok frame) (within : (Utf8.encode text).length ≤ limit)
    (arrives : stream.flatten = frame ++ tail) :
    ∃ rest, read limit stream = (.ok text, rest) ∧ rest.flatten = tail := by
  obtain ⟨same, left⟩ := read_flat limit stream
  rw [arrives, textFrom_write written within tail] at same left
  exact ⟨_, Prod.ext same rfl, left⟩

theorem readMany_write {limit : Nat} {texts : List String} {frames : List Bytes}
    (written : texts.map write = frames.map .ok)
    (within : ∀ text ∈ texts, (Utf8.encode text).length ≤ limit) {tail : Bytes} {stream : Stream}
    (arrives : stream.flatten = frames.flatten ++ tail) :
    ∃ rest, readMany limit texts.length stream = (texts.map .ok, rest) ∧ rest.flatten = tail := by
  induction texts generalizing frames stream with
  | nil =>
    obtain rfl := List.map_eq_nil_iff.mp written.symm
    exact ⟨stream, rfl, arrives⟩
  | cons text texts ih =>
    obtain ⟨frame, others, rfl, first, later⟩ := List.map_eq_cons_iff.mp written.symm
    rw [List.flatten_cons, List.append_assoc] at arrives
    obtain ⟨rest, read, left⟩ := read_write first.symm (within text (by simp)) arrives
    obtain ⟨after, reads, last⟩ :=
      ih later.symm (fun one inside => within one (List.mem_cons_of_mem _ inside)) left
    refine ⟨after, ?_, last⟩
    rw [List.length_cons, readMany, read]
    simp only [reads, List.map_cons]

theorem write_short {text : String} (short : (Utf8.encode text).length < maxLength) :
    write text = .ok (lengthPrefix (Utf8.encode text).length ++ Utf8.encode text) := by
  simp [write, short]

theorem write_all {texts : List String}
    (short : ∀ text ∈ texts, (Utf8.encode text).length < maxLength) :
    ∃ frames : List Bytes, texts.map write = frames.map .ok := by
  refine ⟨texts.map fun text => lengthPrefix (Utf8.encode text).length ++ Utf8.encode text, ?_⟩
  rw [List.map_map]
  exact List.map_congr_left fun text inside => write_short (short text inside)

theorem read_nothing (limit : Nat) {stream : Stream} (empty : stream.flatten = []) :
    (read limit stream).1 = .error .endOfStream := by
  rw [(read_flat limit stream).1, empty]
  rfl

theorem frames_pass_through {limit : Nat} {texts : List String}
    (short : ∀ text ∈ texts, (Utf8.encode text).length < maxLength)
    (within : ∀ text ∈ texts, (Utf8.encode text).length ≤ limit) :
    (∀ length : UInt32, ∃ buffer count,
      fill (List.replicate maxGroups 0) 0 length = some (buffer, count) ∧
        buffer.take count = lengthPrefix length.toNat ∧ 1 ≤ count ∧ count ≤ 5) ∧
    (∀ text ∈ texts, write text =
      .ok (lengthPrefix (Utf8.encode text).length ++ Utf8.encode text)) ∧
    ∃ frames : List Bytes, texts.map write = frames.map .ok ∧
      ∀ (tail : Bytes) (stream : Stream), stream.flatten = frames.flatten ++ tail →
        ∃ rest, readMany limit texts.length stream = (texts.map .ok, rest) ∧ rest.flatten = tail ∧
          (tail = [] → (read limit rest).1 = .error .endOfStream) := by
  refine ⟨fill_eq, fun text inside => write_short (short text inside), ?_⟩
  obtain ⟨frames, written⟩ := write_all short
  refine ⟨frames, written, ?_⟩
  intro tail stream arrives
  obtain ⟨rest, reads, left⟩ := readMany_write written within arrives
  exact ⟨rest, reads, left, fun none => read_nothing limit (left.trans none)⟩

theorem split_frames_pass_through :
    ∃ frames : List Bytes, ["first", "", "third é"].map write = frames.map .ok ∧
      ∃ rest, readMany 8 3 [frames.flatten.take 3, [], frames.flatten.drop 3 ++ [7]] =
          (["first", "", "third é"].map .ok, rest) ∧ rest.flatten = [7] := by
  obtain ⟨_, _, frames, written, reads⟩ :=
    @frames_pass_through 8 ["first", "", "third é"] (by decide +kernel)
      (by decide +kernel)
  obtain ⟨rest, read, left, _⟩ :=
    reads [7] [frames.flatten.take 3, [], frames.flatten.drop 3 ++ [7]] (by simp [← List.append_assoc])
  exact ⟨frames, written, rest, read, left⟩

end TemplateSync.Frame
