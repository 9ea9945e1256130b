import Pipework.Text.Utf8
import Mathlib.Data.List.Lex
import Mathlib.Data.String.Basic
import Mathlib.Tactic.SplitIfs

set_option autoImplicit false

/-! # UTF-8 reads back

Bytes are read as a text exactly if they are the encoding of it (`Utf8.decode_eq_ok_iff`), which
they are of some text exactly if they are well formed by the table of byte sequences
(`Utf8.exists_encode_iff`). A scan splits bytes into the encodings of the characters it finds and a
rest, and it finds all the characters that bytes begin with; so what a refusal tells is the length of
the longest well-formed start (`Utf8.exists_longestStart`). Texts are in the order of their bytes
(`Utf8.encode_lt_encode`). -/

namespace Pipework

/-- `start` is the longest start of `bytes` with the property. -/
structure Bytes.LongestStart (P : Bytes → Prop) (bytes start : Bytes) : Prop where
  starts : start <+: bytes
  holds : P start
  longest : ∀ other, other <+: bytes → P other → other.length ≤ start.length

theorem Bytes.LongestStart.length_eq {P : Bytes → Prop} {bytes start other : Bytes}
    (h : LongestStart P bytes start) (hother : LongestStart P bytes other) :
    start.length = other.length :=
  Nat.le_antisymm (hother.longest start h.starts h.holds) (h.longest other hother.starts hother.holds)

namespace Utf8

open String (utf8EncodeChar)

theorem encode_eq_flatMap (text : String) : encode text = text.toList.flatMap utf8EncodeChar := by
  have hbytes : text.toUTF8 = (text.toList.flatMap utf8EncodeChar).toByteArray :=
    String.utf8Encode_toList.symm
  rw [encode, hbytes, List.data_toByteArray]

theorem encode_ofList (chars : List Char) :
    encode (String.ofList chars) = chars.flatMap utf8EncodeChar := by
  rw [encode_eq_flatMap, String.toList_ofList]

theorem byteLength_eq_length_encode (chars : List Char) :
    byteLength chars = (encode (String.ofList chars)).length := by
  have hsum : ∀ (chars : List Char) (n : Nat), chars.foldl (fun n c => n + c.utf8Size) n =
      n + (chars.flatMap utf8EncodeChar).length := by
    intro chars
    induction chars with
    | nil => exact fun _ => rfl
    | cons c rest ih =>
        intro n
        rw [List.foldl_cons, ih, List.flatMap_cons, List.length_append,
          String.length_utf8EncodeChar, Nat.add_assoc]
  rw [byteLength, hsum, Nat.zero_add, encode_ofList]

/-! ## One character -/

theorem exists_encodeChar_eq_cons (c : Char) : ∃ byte more, utf8EncodeChar c = byte :: more := by
  refine List.exists_cons_of_ne_nil (List.ne_nil_of_length_pos ?_)
  rw [String.length_utf8EncodeChar]
  exact c.utf8Size_pos

theorem firstChar?_append (c : Char) (rest : Bytes) :
    firstChar? (utf8EncodeChar c ++ rest) = some c := by
  have hlength : (utf8EncodeChar c).length ≤ 4 := by
    rw [String.length_utf8EncodeChar]
    exact c.utf8Size_le_four
  rw [firstChar?, List.take_append, List.take_of_length_le hlength, List.toByteArray_append]
  exact ByteArray.utf8DecodeChar?_utf8EncodeChar_append

theorem eq_append_of_firstChar? {bytes : Bytes} {c : Char} (h : firstChar? bytes = some c) :
    bytes = utf8EncodeChar c ++ bytes.drop c.utf8Size := by
  obtain ⟨more, hmore⟩ := ByteArray.exists_of_utf8DecodeChar?_eq_some h
  -- only the first four bytes are decoded, so the character is found there
  have hstart : bytes.take 4 = utf8EncodeChar c ++ more.data.toList := by
    have hlist := congrArg (·.data.toList) hmore
    simpa only [List.toList_data_toByteArray, ByteArray.data_append, Array.toList_append] using hlist
  have hprefix : utf8EncodeChar c <+: bytes :=
    List.IsPrefix.trans ⟨_, hstart.symm⟩ (List.take_prefix 4 bytes)
  obtain ⟨rest, rfl⟩ := hprefix
  rw [← String.length_utf8EncodeChar c, List.drop_left]

/-! ## Byte sequences -/

/-- A byte in a range. -/
def Between (least most : Nat) (byte : UInt8) : Prop := least ≤ byte.toNat ∧ byte.toNat ≤ most

/-- A byte that is not the first of a sequence. -/
def IsTail (byte : UInt8) : Prop := Between 0x80 0xBF byte

/-- The byte sequences of characters. The ranges leave out what a shorter sequence stands for, the
    surrogates and what lies beyond the last code point. -/
inductive IsSequence : Bytes → Prop
  | one {a : UInt8} (ha : Between 0x00 0x7F a) : IsSequence [a]
  | two {a b : UInt8} (ha : Between 0xC2 0xDF a) (hb : IsTail b) : IsSequence [a, b]
  | three {a b c : UInt8}
      (hab : Between 0xE0 0xE0 a ∧ Between 0xA0 0xBF b ∨ Between 0xE1 0xEC a ∧ IsTail b ∨
        Between 0xED 0xED a ∧ Between 0x80 0x9F b ∨ Between 0xEE 0xEF a ∧ IsTail b)
      (hc : IsTail c) : IsSequence [a, b, c]
  | four {a b c d : UInt8}
      (hab : Between 0xF0 0xF0 a ∧ Between 0x90 0xBF b ∨ Between 0xF1 0xF3 a ∧ IsTail b ∨
        Between 0xF4 0xF4 a ∧ Between 0x80 0x8F b)
      (hc : IsTail c) (hd : IsTail d) : IsSequence [a, b, c, d]

/-- Bytes that consist of such sequences. -/
inductive WellFormed : Bytes → Prop
  | nil : WellFormed []
  | append {sequence rest : Bytes} (h : IsSequence sequence) (hrest : WellFormed rest) :
      WellFormed (sequence ++ rest)

theorem isSequence_encodeChar (c : Char) : IsSequence (utf8EncodeChar c) := by
  have hvalid : c.val.toNat < 0xD800 ∨ 0xDFFF < c.val.toNat ∧ c.val.toNat < 0x110000 := c.valid
  rw [utf8EncodeChar]
  generalize c.val.toNat = code at hvalid
  split_ifs with hone htwo hthree
  · refine .one ?_
    simp only [Between, UInt8.toNat_ofNat']
    omega
  · refine .two ?_ ?_ <;>
      simp only [IsTail, Between, UInt8.toNat_ofNat'] <;> omega
  · refine .three ?_ ?_ <;>
      simp only [IsTail, Between, UInt8.toNat_ofNat'] <;> omega
  · refine .four ?_ ?_ ?_ <;>
      simp only [IsTail, Between, UInt8.toNat_ofNat'] <;> omega

/-- The encoding of the character with a code point. -/
theorem encodeChar_ofNat {code : Nat} (h : code.isValidChar) :
    utf8EncodeChar (Char.ofNat code) =
      if code ≤ 0x7F then [UInt8.ofNat code]
      else if code ≤ 0x7FF then [UInt8.ofNat (code / 64 % 32 + 0xC0), UInt8.ofNat (code % 64 + 0x80)]
      else if code ≤ 0xFFFF then
        [UInt8.ofNat (code / 4096 % 16 + 0xE0), UInt8.ofNat (code / 64 % 64 + 0x80),
          UInt8.ofNat (code % 64 + 0x80)]
      else
        [UInt8.ofNat (code / 262144 % 8 + 0xF0), UInt8.ofNat (code / 4096 % 64 + 0x80),
          UInt8.ofNat (code / 64 % 64 + 0x80), UInt8.ofNat (code % 64 + 0x80)] := by
  have hcode : (Char.ofNat code).val.toNat = code := by
    rw [Char.ofNat, dif_pos h]
    rfl
  rw [utf8EncodeChar, hcode]

theorem ofNat_eq_of_eq_toNat {n : Nat} (byte : UInt8) (h : n = byte.toNat) :
    UInt8.ofNat n = byte := by
  rw [h, UInt8.ofNat_toNat]

theorem exists_encodeChar_of_isSequence {bytes : Bytes} (h : IsSequence bytes) :
    ∃ c, utf8EncodeChar c = bytes := by
  cases h with
  | @one a ha =>
      simp only [Between] at ha
      have hvalid : a.toNat.isValidChar := Or.inl (by omega)
      refine ⟨Char.ofNat a.toNat, ?_⟩
      rw [encodeChar_ofNat hvalid, if_pos ha.2, UInt8.ofNat_toNat]
  | @two a b ha hb =>
      simp only [IsTail, Between] at ha hb
      obtain ⟨code, hcode⟩ : ∃ code, code = (a.toNat - 0xC0) * 64 + (b.toNat - 0x80) := ⟨_, rfl⟩
      have hvalid : code.isValidChar := Or.inl (by omega)
      refine ⟨Char.ofNat code, ?_⟩
      rw [encodeChar_ofNat hvalid, if_neg (by omega), if_pos (by omega),
        ofNat_eq_of_eq_toNat a (by omega), ofNat_eq_of_eq_toNat b (by omega)]
  | @three a b c hab hc =>
      simp only [IsTail, Between] at hab hc
      obtain ⟨code, hcode⟩ : ∃ code, code =
        ((a.toNat - 0xE0) * 64 + (b.toNat - 0x80)) * 64 + (c.toNat - 0x80) := ⟨_, rfl⟩
      have hvalid : code.isValidChar := by
        simp only [Nat.isValidChar]
        omega
      refine ⟨Char.ofNat code, ?_⟩
      rw [encodeChar_ofNat hvalid, if_neg (by omega), if_neg (by omega), if_pos (by omega),
        ofNat_eq_of_eq_toNat a (by omega), ofNat_eq_of_eq_toNat b (by omega),
        ofNat_eq_of_eq_toNat c (by omega)]
  | @four a b c d hab hc hd =>
      simp only [IsTail, Between] at hab hc hd
      obtain ⟨code, hcode⟩ : ∃ code, code = (((a.toNat - 0xF0) * 64 + (b.toNat - 0x80)) * 64 +
        (c.toNat - 0x80)) * 64 + (d.toNat - 0x80) := ⟨_, rfl⟩
      have hvalid : code.isValidChar := by
        simp only [Nat.isValidChar]
        omega
      refine ⟨Char.ofNat code, ?_⟩
      rw [encodeChar_ofNat hvalid, if_neg (by omega), if_neg (by omega), if_neg (by omega),
        ofNat_eq_of_eq_toNat a (by omega), ofNat_eq_of_eq_toNat b (by omega),
        ofNat_eq_of_eq_toNat c (by omega), ofNat_eq_of_eq_toNat d (by omega)]

theorem wellFormed_flatMap (chars : List Char) : WellFormed (chars.flatMap utf8EncodeChar) := by
  induction chars with
  | nil => exact .nil
  | cons c rest ih => exact .append (isSequence_encodeChar c) ih

/-- **The well-formed bytes are the encodings of texts.** -/
theorem exists_encode_iff {bytes : Bytes} : (∃ text, encode text = bytes) ↔ WellFormed bytes := by
  constructor
  · rintro ⟨text, rfl⟩
    rw [encode_eq_flatMap]
    exact wellFormed_flatMap text.toList
  · intro h
    induction h with
    | nil => exact ⟨"", rfl⟩
    | append hsequence _ ih =>
        obtain ⟨c, rfl⟩ := exists_encodeChar_of_isSequence hsequence
        obtain ⟨text, rfl⟩ := ih
        refine ⟨String.ofList (c :: text.toList), ?_⟩
        rw [encode_eq_flatMap, encode_eq_flatMap, String.toList_ofList, List.flatMap_cons]

/-! ## ASCII -/

theorem toNat_ofNat_byte (byte : UInt8) : (Char.ofNat byte.toNat).toNat = byte.toNat := by
  have hbyte : byte.toNat < 256 := byte.toNat_lt
  have hvalid : byte.toNat.isValidChar := Or.inl (by omega)
  rw [Char.ofNat, dif_pos hvalid]
  rfl

theorem encodeChar_of_lt {c : Char} (h : c.toNat < 128) :
    utf8EncodeChar c = [UInt8.ofNat c.toNat] := by
  have hle : c.val.toNat ≤ 127 := Nat.le_of_lt_succ h
  simp only [utf8EncodeChar, if_pos hle]
  rfl

theorem utf8Size_of_lt {c : Char} (h : c.toNat < 128) : c.utf8Size = 1 := by
  rw [← String.length_utf8EncodeChar, encodeChar_of_lt h, List.length_singleton]

theorem le_of_mem_encodeChar {c : Char} (h : 128 ≤ c.toNat) {byte : UInt8}
    (hbyte : byte ∈ utf8EncodeChar c) : 128 ≤ byte.toNat := by
  have hle : ¬c.val.toNat ≤ 127 := by
    have : c.val.toNat = c.toNat := rfl
    omega
  simp only [utf8EncodeChar, if_neg hle] at hbyte
  split_ifs at hbyte <;>
    simp only [List.mem_cons, List.not_mem_nil, or_false] at hbyte <;>
    rcases hbyte with rfl | rfl | rfl | rfl <;>
    simp only [UInt8.toNat_ofNat'] <;> omega

theorem encode_ofList_of_lt {chars : List Char} (h : ∀ c ∈ chars, c.toNat < 128) :
    encode (String.ofList chars) = chars.map fun c => UInt8.ofNat c.toNat := by
  rw [encode_ofList]
  induction chars with
  | nil => rfl
  | cons c rest ih =>
      rw [List.flatMap_cons, encodeChar_of_lt (h c (List.mem_cons_self ..)),
        ih fun d hd => h d (List.mem_cons_of_mem c hd)]
      rfl

theorem byteLength_of_lt {chars : List Char} (h : ∀ c ∈ chars, c.toNat < 128) :
    byteLength chars = chars.length := by
  rw [byteLength_eq_length_encode, encode_ofList_of_lt h, List.length_map]

/-- An ASCII byte stands for a character of its own wherever it occurs. -/
theorem mem_encode_iff_of_lt {byte : UInt8} (h : byte.toNat < 128) {text : String} :
    byte ∈ encode text ↔ Char.ofNat byte.toNat ∈ text.toList := by
  have hchar := toNat_ofNat_byte byte
  rw [encode_eq_flatMap, List.mem_flatMap]
  constructor
  · rintro ⟨c, hc, hbyte⟩
    by_cases hascii : c.toNat < 128
    · rw [encodeChar_of_lt hascii, List.mem_singleton] at hbyte
      have hvalue : byte.toNat = c.toNat := by
        rw [hbyte, UInt8.toNat_ofNat']
        omega
      rw [hvalue, Char.ofNat_toNat]
      exact hc
    · have := le_of_mem_encodeChar (Nat.not_lt.1 hascii) hbyte
      omega
  · intro hmem
    refine ⟨_, hmem, ?_⟩
    rw [encodeChar_of_lt (by omega), hchar, UInt8.ofNat_toNat]
    exact List.mem_singleton_self byte

/-! ## Scanning -/

theorem scan_of_none {bytes : Bytes} (h : firstChar? bytes = none) : scan bytes = ([], bytes) := by
  rw [scan]
  split
  · rfl
  · next c hc => cases h.symm.trans hc

theorem scan_of_some {bytes : Bytes} {c : Char} (h : firstChar? bytes = some c) :
    scan bytes = (c :: (scan (bytes.drop c.utf8Size)).1, (scan (bytes.drop c.utf8Size)).2) := by
  rw [scan]
  split
  · next hnone => cases h.symm.trans hnone
  · next d hd =>
      obtain rfl := Option.some.inj (h.symm.trans hd)
      rfl

theorem scan_flatMap_append (chars : List Char) (rest : Bytes) :
    scan (chars.flatMap utf8EncodeChar ++ rest) = (chars ++ (scan rest).1, (scan rest).2) := by
  induction chars with
  | nil => rfl
  | cons c chars ih =>
      rw [List.flatMap_cons, List.append_assoc, scan_of_some (firstChar?_append c _),
        ← String.length_utf8EncodeChar c, List.drop_left, ih]
      rfl

theorem eq_flatMap_append_of_scan {bytes : Bytes} {chars : List Char} {rest : Bytes}
    (h : scan bytes = (chars, rest)) : bytes = chars.flatMap utf8EncodeChar ++ rest := by
  induction chars generalizing bytes with
  | nil =>
      cases hfirst : firstChar? bytes with
      | none =>
          rw [scan_of_none hfirst] at h
          exact (Prod.mk.inj h).2
      | some c =>
          rw [scan_of_some hfirst] at h
          cases h
  | cons c chars ih =>
      cases hfirst : firstChar? bytes with
      | none =>
          rw [scan_of_none hfirst] at h
          cases h
      | some d =>
          rw [scan_of_some hfirst] at h
          obtain ⟨hchars, hrest⟩ := Prod.mk.inj h
          obtain ⟨rfl, htail⟩ := List.cons.inj hchars
          rw [eq_append_of_firstChar? hfirst, ih (Prod.ext htail hrest), List.flatMap_cons,
            List.append_assoc]

/-! ## Texts -/

/-- **Bytes spell a text exactly if they are its encoding.** -/
theorem decode_eq_ok_iff {bytes : Bytes} {text : String} :
    decode bytes = .ok text ↔ encode text = bytes := by
  constructor
  · intro h
    rw [decode] at h
    split at h
    · next chars hscan =>
        obtain rfl := Except.ok.inj h
        rw [encode_eq_flatMap, String.toList_ofList, eq_flatMap_append_of_scan hscan,
          List.append_nil]
    · cases h
  · rintro rfl
    have hend : firstChar? [] = none := by decide
    have hscan := scan_flatMap_append text.toList []
    rw [scan_of_none hend, List.append_nil, List.append_nil, ← encode_eq_flatMap] at hscan
    rw [decode, hscan]
    exact congrArg Except.ok String.ofList_toList

/-- A scan finds the characters of every well-formed start. -/
theorem longestStart_scan (bytes : Bytes) :
    Bytes.LongestStart WellFormed bytes ((scan bytes).1.flatMap utf8EncodeChar) where
  starts := ⟨(scan bytes).2, (eq_flatMap_append_of_scan rfl).symm⟩
  holds := wellFormed_flatMap _
  longest := by
    rintro other ⟨rest, rfl⟩ hother
    obtain ⟨text, rfl⟩ := exists_encode_iff.2 hother
    rw [encode_eq_flatMap, scan_flatMap_append, List.flatMap_append, List.length_append]
    exact Nat.le_add_right ..

theorem exists_longestStart {bytes : Bytes} {offset : Nat} (h : decode bytes = .error offset) :
    ∃ start, Bytes.LongestStart WellFormed bytes start ∧ offset = start.length := by
  refine ⟨_, longestStart_scan bytes, ?_⟩
  rw [decode] at h
  split at h
  · cases h
  · next chars rest _ hscan =>
      have hlength := congrArg List.length (eq_flatMap_append_of_scan hscan)
      rw [List.length_append] at hlength
      rw [hscan, ← Except.error.inj h, hlength, Nat.add_sub_cancel]

theorem eq_of_encode_eq {text other : String} (h : encode text = encode other) : text = other := by
  have htext : decode (encode text) = .ok text := decode_eq_ok_iff.2 rfl
  have hother : decode (encode text) = .ok other := decode_eq_ok_iff.2 h.symm
  exact Except.ok.inj (htext.symm.trans hother)

/-! ## Order -/

/-- Of two numbers, the smaller one has the smaller digit where their digits to the base 64 differ
    first. -/
theorem digits_lt_of_lt {m n : Nat} (h : m < n) :
    m / 262144 < n / 262144 ∨ m / 262144 = n / 262144 ∧
      (m / 4096 % 64 < n / 4096 % 64 ∨ m / 4096 % 64 = n / 4096 % 64 ∧
        (m / 64 % 64 < n / 64 % 64 ∨ m / 64 % 64 = n / 64 % 64 ∧ m % 64 < n % 64)) := by
  omega

/-- The encodings of two characters differ before one of them ends. -/
theorem encodeChar_append_lt {c d : Char} (h : c < d) (rest more : Bytes) :
    utf8EncodeChar c ++ rest < utf8EncodeChar d ++ more := by
  have hcode : c.val.toNat < d.val.toNat := h
  have hc : c.val.toNat < 0xD800 ∨ 0xDFFF < c.val.toNat ∧ c.val.toNat < 0x110000 := c.valid
  have hd : d.val.toNat < 0xD800 ∨ 0xDFFF < d.val.toNat ∧ d.val.toNat < 0x110000 := d.valid
  rw [utf8EncodeChar, utf8EncodeChar]
  generalize c.val.toNat = code at *
  generalize d.val.toNat = other at *
  have hdigits := digits_lt_of_lt hcode
  -- a longer encoding has a greater first byte, and one of the same length has the same markers
  split_ifs <;>
    simp (disch := omega) only [List.cons_append, List.nil_append, List.cons_lt_cons_iff,
      UInt8.lt_iff_toNat_lt, ← UInt8.toNat_inj, UInt8.toNat_ofNat', Nat.mod_eq_of_lt,
      Nat.add_lt_add_iff_right, Nat.add_right_cancel_iff] <;>
    omega

/-- **Texts are in the order of their bytes.** -/
theorem encode_lt_encode {text other : String} (h : text < other) : encode text < encode other := by
  have hchars : text.toList < other.toList := String.lt_iff_toList_lt.1 h
  rw [encode_eq_flatMap, encode_eq_flatMap]
  generalize text.toList = chars at hchars
  generalize other.toList = others at hchars
  induction hchars with
  | @nil d rest =>
      obtain ⟨byte, more, hd⟩ := exists_encodeChar_eq_cons d
      rw [List.flatMap_nil, List.flatMap_cons, hd]
      exact List.nil_lt_cons ..
  | rel hlt => exact encodeChar_append_lt hlt _ _
  | cons _ ih => exact List.Lex.append_left _ ih _

end Utf8

end Pipework
