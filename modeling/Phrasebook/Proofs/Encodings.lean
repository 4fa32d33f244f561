import Mathlib.Data.List.Basic
import Phrasebook.Sheet.Basic

namespace Phrasebook

theorem toNat_ofNat_of_lt_256 {n : Nat} (small : n < 256) : (UInt8.ofNat n).toNat = n :=
  UInt8.toNat_ofNat_of_lt' small

namespace Utf8

/-- A byte within the bounds of the next one gives the sequence six more bits. -/
theorem Pending.next_continuation {p : Pending} {k : Nat} (bits : k < 64) (low : p.low ≤ k + 128)
    (high : k + 128 ≤ p.high) :
    p.next (UInt8.ofNat (k + 128)) =
      if p.missing ≤ 1 then .char (Char.ofNat (p.value * 64 + k))
      else .pending ⟨p.missing - 1, 0x80, 0xBF, p.value * 64 + k⟩ := by
  have within : ¬ (decide (k + 128 < p.low) || decide (p.high < k + 128)) = true := by
    simp only [Bool.or_eq_true, decide_eq_true_eq]
    omega
  simp only [Pending.next, toNat_ofNat_of_lt_256 (show k + 128 < 256 by omega)]
  rw [if_neg within, Nat.add_sub_cancel]

theorem readFrom_further {missing low high value k : Nat} (bits : k < 64) (least : low ≤ k + 128)
    (most : k + 128 ≤ high) (rest : Bytes) :
    readFrom (some ⟨missing + 2, low, high, value⟩) (UInt8.ofNat (k + 128) :: rest) =
      readFrom (some ⟨missing + 1, 0x80, 0xBF, value * 64 + k⟩) rest := by
  rw [readFrom, advance, Pending.next_continuation bits least most, if_neg (by simp)]
  rfl

theorem readFrom_last {low high value k : Nat} (bits : k < 64) (least : low ≤ k + 128)
    (most : k + 128 ≤ high) (rest : Bytes) :
    readFrom (some ⟨1, low, high, value⟩) (UInt8.ofNat (k + 128) :: rest) =
      some (Char.ofNat (value * 64 + k)) :: readFrom none rest := by
  rw [readFrom, advance, Pending.next_continuation bits least most, if_pos (Nat.le_refl 1)]
  rfl

theorem readFrom_ascii {n : Nat} (ascii : n < 128) (rest : Bytes) :
    readFrom none (UInt8.ofNat n :: rest) = some (Char.ofNat n) :: readFrom none rest := by
  have one : first (UInt8.ofNat n) = .char (Char.ofNat n) := by
    simp only [first, toNat_ofNat_of_lt_256 (show n < 256 by omega)]
    rw [if_pos ascii]
  rw [readFrom, advance, one]
  rfl

theorem readFrom_two {n : Nat} (low : 2 ≤ n) (high : n < 32) (rest : Bytes) :
    readFrom none (UInt8.ofNat (n + 192) :: rest) = readFrom (some ⟨1, 0x80, 0xBF, n⟩) rest := by
  have two : first (UInt8.ofNat (n + 192)) = .pending ⟨1, 0x80, 0xBF, n⟩ := by
    simp only [first, toNat_ofNat_of_lt_256 (show n + 192 < 256 by omega)]
    rw [if_neg (by omega), if_neg (by omega), if_pos (by omega), Nat.add_sub_cancel]
  rw [readFrom, advance, two]
  rfl

theorem readFrom_three {n : Nat} (high : n < 16) (rest : Bytes) :
    readFrom none (UInt8.ofNat (n + 224) :: rest) =
      readFrom (some ⟨2, if n = 0 then 0xA0 else 0x80, if n = 13 then 0x9F else 0xBF, n⟩) rest := by
  have three : first (UInt8.ofNat (n + 224)) =
      .pending ⟨2, if n = 0 then 0xA0 else 0x80, if n = 13 then 0x9F else 0xBF, n⟩ := by
    simp only [first, toNat_ofNat_of_lt_256 (show n + 224 < 256 by omega)]
    rw [if_neg (by omega), if_neg (by omega), if_neg (by omega), if_pos (by omega),
      Nat.add_sub_cancel]
    simp
  rw [readFrom, advance, three]
  rfl

theorem readFrom_four {n : Nat} (high : n < 5) (rest : Bytes) :
    readFrom none (UInt8.ofNat (n + 240) :: rest) =
      readFrom (some ⟨3, if n = 0 then 0x90 else 0x80, if n = 4 then 0x8F else 0xBF, n⟩) rest := by
  have four : first (UInt8.ofNat (n + 240)) =
      .pending ⟨3, if n = 0 then 0x90 else 0x80, if n = 4 then 0x8F else 0xBF, n⟩ := by
    simp only [first, toNat_ofNat_of_lt_256 (show n + 240 < 256 by omega)]
    rw [if_neg (by omega), if_neg (by omega), if_neg (by omega), if_neg (by omega),
      if_pos (by omega), Nat.add_sub_cancel]
    simp
  rw [readFrom, advance, four]
  rfl

theorem readFrom_char (c : Char) (rest : Bytes) :
    readFrom none (String.utf8EncodeChar c ++ rest) = some c :: readFrom none rest := by
  have valid : c.toNat < 0xD800 ∨ 0xDFFF < c.toNat ∧ c.toNat < 0x110000 := c.valid
  have same : Char.ofNat c.toNat = c := Char.ofNat_toNat c
  rw [String.utf8EncodeChar, show c.val.toNat = c.toNat from rfl]
  generalize c.toNat = v at valid same
  subst same
  split
  · exact readFrom_ascii (by omega) rest
  split
  · have value : v / 64 % 32 * 64 + v % 64 = v := by omega
    simp only [List.cons_append, List.nil_append]
    rw [readFrom_two (by omega) (by omega), readFrom_last (by omega) (by omega) (by omega), value]
  split
  · have value : (v / 4096 % 16 * 64 + v / 64 % 64) * 64 + v % 64 = v := by omega
    simp only [List.cons_append, List.nil_append]
    -- The second byte keeps overlong forms and surrogates out.
    rw [readFrom_three (by omega),
      readFrom_further (by omega) (by split <;> omega) (by split <;> omega),
      readFrom_last (by omega) (by omega) (by omega), value]
  · have value : ((v / 262144 % 8 * 64 + v / 4096 % 64) * 64 + v / 64 % 64) * 64 + v % 64 = v := by
      omega
    simp only [List.cons_append, List.nil_append]
    rw [readFrom_four (by omega),
      readFrom_further (by omega) (by split <;> omega) (by split <;> omega),
      readFrom_further (by omega) (by omega) (by omega),
      readFrom_last (by omega) (by omega) (by omega), value]

theorem read_encode (t : Text) : read (encode t) = t.map some := by
  induction t with
  | nil => rfl
  | cons c t ih =>
    rw [read, encode, List.flatMap_cons, readFrom_char]
    exact congrArg (some c :: ·) ih

theorem decodeLossy_encode (t : Text) : decodeLossy (encode t) = t := by
  rw [decodeLossy, read_encode, List.map_map]
  exact List.map_id t

theorem decode_encode (t : Text) : decode (encode t) = .ok t := by
  have whole : (t.map some).all Option.isSome = true := by simp
  rw [decode, read_encode, if_pos whole, List.filterMap_map]
  exact congrArg Except.ok List.filterMap_some

def byteOf (c : Char) : UInt8 := UInt8.ofNat c.toNat

theorem byteOf_inj {c d : Char} (first : c.toNat < 128) (second : d.toNat < 128) :
    byteOf c = byteOf d ↔ c = d := by
  constructor
  · intro same
    have equal := congrArg UInt8.toNat same
    rw [byteOf, byteOf, toNat_ofNat_of_lt_256 (by omega), toNat_ofNat_of_lt_256 (by omega)] at equal
    exact Char.toNat_inj.1 equal
  · exact congrArg byteOf

theorem encodeChar_of_ascii {c : Char} (ascii : c.toNat < 128) :
    String.utf8EncodeChar c = [byteOf c] :=
  if_pos (Nat.le_of_lt_succ ascii)

/-- Beyond ASCII no byte of a character is that of an ASCII character. -/
theorem le_of_mem_encodeChar {c : Char} (beyond : ¬ c.toNat < 128) {byte : UInt8}
    (mem : byte ∈ String.utf8EncodeChar c) : 128 ≤ byte.toNat := by
  rw [String.utf8EncodeChar, show c.val.toNat = c.toNat from rfl] at mem
  generalize c.toNat = v at beyond mem
  have high {n k : Nat} (small : n + k < 256) (large : 128 ≤ k) :
      128 ≤ (UInt8.ofNat (n + k)).toNat := by
    rw [toNat_ofNat_of_lt_256 small]
    omega
  rw [if_neg (by omega)] at mem
  split at mem
  · simp only [List.mem_cons, List.not_mem_nil, or_false] at mem
    rcases mem with rfl | rfl
    all_goals exact high (by omega) (by omega)
  split at mem
  · simp only [List.mem_cons, List.not_mem_nil, or_false] at mem
    rcases mem with rfl | rfl | rfl
    all_goals exact high (by omega) (by omega)
  · simp only [List.mem_cons, List.not_mem_nil, or_false] at mem
    rcases mem with rfl | rfl | rfl | rfl
    all_goals exact high (by omega) (by omega)

end Utf8

namespace Utf16

theorem exists_unitBytes (order : ByteOrder) {u : Nat} (small : u < 0x10000) :
    ∃ a b, unitBytes order u = [a, b] ∧ unit order a b = u := by
  have low := toNat_ofNat_of_lt_256 (show u % 256 < 256 by omega)
  have high := toNat_ofNat_of_lt_256 (show u / 256 < 256 by omega)
  cases order with
  | littleEndian => exact ⟨_, _, rfl, by rw [unit, low, high]; omega⟩
  | bigEndian => exact ⟨_, _, rfl, by rw [unit, low, high]; omega⟩

theorem decodeLossy_single {order : ByteOrder} {a b : UInt8} {c : Char}
    (valid : c.toNat < 0xD800 ∨ 0xDFFF < c.toNat) (h : unit order a b = c.toNat) (rest : Bytes) :
    decodeLossy order (a :: b :: rest) = c :: decodeLossy order rest := by
  have alone : ¬ isLeading c.toNat = true := by
    simp only [isLeading, Bool.and_eq_true, decide_eq_true_eq]
    omega
  have partnerless : ¬ isTrailing c.toNat = true := by
    simp only [isTrailing, Bool.and_eq_true, decide_eq_true_eq]
    omega
  rw [decodeLossy.eq_def]
  dsimp only
  rw [h, if_neg alone, singleChar, if_neg partnerless, Char.ofNat_toNat]

theorem decodeLossy_pair {order : ByteOrder} {a b c d : UInt8}
    (lead : isLeading (unit order a b) = true) (trail : isTrailing (unit order c d) = true)
    (rest : Bytes) :
    decodeLossy order (a :: b :: c :: d :: rest) =
      pairChar (unit order a b) (unit order c d) :: decodeLossy order rest := by
  rw [decodeLossy.eq_def]
  dsimp only
  rw [if_pos lead, if_pos trail]

theorem decodeLossy_char (order : ByteOrder) (c : Char) (rest : Bytes) :
    decodeLossy order ((charUnits c).flatMap (unitBytes order) ++ rest) =
      c :: decodeLossy order rest := by
  have valid : c.toNat < 0xD800 ∨ 0xDFFF < c.toNat ∧ c.toNat < 0x110000 := c.valid
  unfold charUnits
  split
  · rename_i basic
    obtain ⟨a, b, bytes, unit⟩ := exists_unitBytes order basic
    simp only [List.flatMap_cons, List.flatMap_nil, bytes, List.append_nil, List.cons_append,
      List.nil_append]
    exact decodeLossy_single (valid.imp_right And.left) unit rest
  · rename_i beyond
    obtain ⟨a, b, first, lead⟩ := exists_unitBytes order
      (show 0xD800 + (c.toNat - 0x10000) / 0x400 < 0x10000 by omega)
    obtain ⟨x, y, second, trail⟩ := exists_unitBytes order
      (show 0xDC00 + (c.toNat - 0x10000) % 0x400 < 0x10000 by omega)
    simp only [List.flatMap_cons, List.flatMap_nil, first, second, List.append_nil,
      List.cons_append, List.nil_append]
    have value : 0x10000 + (0xD800 + (c.toNat - 0x10000) / 0x400 - 0xD800) * 0x400
        + (0xDC00 + (c.toNat - 0x10000) % 0x400 - 0xDC00) = c.toNat := by omega
    rw [decodeLossy_pair, lead, trail, pairChar, value, Char.ofNat_toNat]
    · simp only [lead, isLeading, Bool.and_eq_true, decide_eq_true_eq]
      omega
    · simp only [trail, isTrailing, Bool.and_eq_true, decide_eq_true_eq]
      omega

theorem decodeLossy_encode (order : ByteOrder) (t : Text) :
    decodeLossy order (encode order t) = t := by
  induction t with
  | nil => rfl
  | cons c t ih =>
    rw [encode, List.flatMap_cons, decodeLossy_char]
    exact congrArg (c :: ·) ih

end Utf16

namespace Encoding

theorem decodeLossy_encode (e : Encoding) (t : Text) : e.decodeLossy (e.encode t) = t := by
  cases e with
  | utf8 => exact Utf8.decodeLossy_encode t
  | utf16 order => exact Utf16.decodeLossy_encode order t

theorem mark_utf8 : mark .utf8 = [0xEF, 0xBB, 0xBF] := by decide

theorem mark_littleEndian : mark (.utf16 .littleEndian) = [0xFF, 0xFE] := by decide

theorem mark_bigEndian : mark (.utf16 .bigEndian) = [0xFE, 0xFF] := by decide

/-- No mark is the beginning of another one. -/
theorem detect_mark (e : Encoding) (bytes : Bytes) : detect (e.mark ++ bytes) = (e, bytes) := by
  rcases e with _ | _ | _ <;> rfl

/-- The bytes of a text in UTF-8 begin with the mark only if the text does. -/
theorem head?_of_marked {t : Text} (h : mark .utf8 <+: Utf8.encode t) :
    t.head? = some byteOrderMark := by
  obtain ⟨bytes, same⟩ := h
  have read := Utf8.read_encode t
  have marked : Utf8.read (mark .utf8 ++ bytes) =
      some byteOrderMark :: Utf8.readFrom none bytes := Utf8.readFrom_char byteOrderMark bytes
  rw [← same, marked] at read
  cases t with
  | nil => cases read
  | cons c t => exact (List.cons.inj read).1.symm

theorem detect_unmarked {t : Text} (unmarked : t.head? ≠ some byteOrderMark) :
    detect (Utf8.encode t) = (.utf8, Utf8.encode t) := by
  have foreign (byte : UInt8) (never : Utf8.first byte = .illFormed) (bytes : Bytes) :
      byte :: bytes ≠ Utf8.encode t := by
    intro same
    have read := Utf8.read_encode t
    rw [← same, Utf8.read, Utf8.readFrom, Utf8.advance, never] at read
    cases t <;> cases read
  have none : all.find? (·.mark.isPrefixOf (Utf8.encode t)) = none := by
    rw [List.find?_eq_none]
    intro e _ begins
    rw [List.isPrefixOf_iff_prefix] at begins
    rcases e with _ | _ | _
    · exact unmarked (head?_of_marked begins)
    · obtain ⟨bytes, same⟩ := begins
      rw [mark_littleEndian] at same
      exact foreign 0xFF (by decide) _ same
    · obtain ⟨bytes, same⟩ := begins
      rw [mark_bigEndian] at same
      exact foreign 0xFE (by decide) _ same
  rw [detect, none]

end Encoding

theorem textOfBytes_of_detect {bytes : Bytes} {e : Encoding} {t : Text}
    (unmarked : t.head? ≠ some byteOrderMark) (h : Encoding.detect bytes = (e, e.encode t)) :
    textOfBytes bytes = t := by
  have undropped : t.dropMark = t := by
    cases t with
    | nil => rfl
    | cons c t => exact if_neg fun same => unmarked (congrArg some same)
  have ordinary : ¬ (t == [byteOrderMark, '\uFFFD']) = true := by
    intro same
    exact unmarked (by rw [eq_of_beq same]; rfl)
  rw [textOfBytes, h]
  dsimp only
  rw [e.decodeLossy_encode, undropped, if_neg]
  simp [ordinary]

theorem Sheet.read_congr {options : SheetOptions} {bytes other : Bytes}
    (same : textOfBytes bytes = textOfBytes other) : read options bytes = read options other := by
  rw [read, read, same]

/-- **The encoding of a sheet does not matter.** A text that does not begin with a mark is read in
full from its UTF-8 bytes, with or without a mark before them, and from its UTF-16 bytes in either
order after theirs. So the sheet or the problem is the same, and so is each row with what may be
wrong with it. -/
theorem encoding_does_not_matter (t : Text) (unmarked : t.head? ≠ some '\uFEFF')
    (options : SheetOptions) :
    ∀ bytes ∈ [Utf8.encode t, [0xEF, 0xBB, 0xBF] ++ Utf8.encode t,
        [0xFF, 0xFE] ++ Utf16.encode .littleEndian t, [0xFE, 0xFF] ++ Utf16.encode .bigEndian t],
      textOfBytes bytes = t ∧ Sheet.read options bytes = Sheet.read options (Utf8.encode t) := by
  have plain : textOfBytes (Utf8.encode t) = t :=
    textOfBytes_of_detect unmarked (Encoding.detect_unmarked unmarked)
  have marked (e : Encoding) : textOfBytes (e.mark ++ e.encode t) = t :=
    textOfBytes_of_detect unmarked (e.detect_mark _)
  suffices told : ∀ bytes ∈ [Utf8.encode t, [0xEF, 0xBB, 0xBF] ++ Utf8.encode t,
      [0xFF, 0xFE] ++ Utf16.encode .littleEndian t, [0xFE, 0xFF] ++ Utf16.encode .bigEndian t],
      textOfBytes bytes = t from
    fun bytes mem => ⟨told bytes mem, Sheet.read_congr ((told bytes mem).trans plain.symm)⟩
  simp only [List.forall_mem_cons, List.not_mem_nil, false_implies, implies_true, and_true]
  refine ⟨plain, ?_, ?_, ?_⟩
  · rw [← Encoding.mark_utf8]
    exact marked .utf8
  · rw [← Encoding.mark_littleEndian]
    exact marked (.utf16 .littleEndian)
  · rw [← Encoding.mark_bigEndian]
    exact marked (.utf16 .bigEndian)

/-- A text with a character beyond the basic plane, a mark that is not its first character, a null
character and a row with a cell too many. -/
theorem encoding_does_not_matter_of_pairs :
    let t := "key,en\nhi,a\x00😀\uFEFF\nk,é,\n".toList
    t.head? ≠ some '\uFEFF' ∧
    ∀ bytes ∈ [Utf8.encode t, [0xEF, 0xBB, 0xBF] ++ Utf8.encode t,
        [0xFF, 0xFE] ++ Utf16.encode .littleEndian t, [0xFE, 0xFF] ++ Utf16.encode .bigEndian t],
      textOfBytes bytes = t ∧
      (Sheet.read {} bytes).toOption.map (fun sheet => (sheet.header, sheet.rows)) =
        some (["key".toList, "en".toList],
          [.ok ["hi".toList, "a\x00😀\uFEFF".toList],
            .error (.malformedSheet (.cellCount ⟨2, 3, 20⟩ 3 2))]) := by
  intro t
  have unmarked : t.head? ≠ some '\uFEFF' := by decide
  have sheet : (Sheet.read {} (Utf8.encode t)).toOption.map
      (fun sheet => (sheet.header, sheet.rows)) =
      some (["key".toList, "en".toList],
        [.ok ["hi".toList, "a\x00😀\uFEFF".toList],
          .error (.malformedSheet (.cellCount ⟨2, 3, 20⟩ 3 2))]) := by decide +kernel
  refine ⟨unmarked, fun bytes mem => ?_⟩
  obtain ⟨text, same⟩ := encoding_does_not_matter t unmarked {} bytes mem
  exact ⟨text, same ▸ sheet⟩

end Phrasebook
