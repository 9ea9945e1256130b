import Pipework.Proofs.Codec.Bounds

set_option autoImplicit false

/-! # What texts in a notation stand for

A text stands for bytes by rules that mention no decoder: hexadecimal text by its digits in pairs
(`Hex.Reads`), percent-encoded text by its escapes and by the characters between them
(`Percent.Reads`). The decoders accept exactly the texts that stand for something
(`Hex.decode_eq_ok_iff_reads`, `Percent.decode_eq_ok_iff_reads`). What they tell about any other
text is the place of the first character that breaks the rules, as a number of bytes in the text as
it was given (`Hex.exists_decode_eq_invalidDigit`, `Percent.decode_of_breaks`); but if a number of
bytes cannot be that of pairs of digits, this is all that is told of a hexadecimal text. -/

namespace Pipework

/-! ## Hexadecimal text -/

namespace Hex

/-- The character is the digit of this value, in either case. -/
def HasValue (c : Char) (value : Nat) : Prop := ∃ upper, (alphabet upper)[value]? = some c

/-- The character is a hexadecimal digit, in either case. -/
def IsDigit (c : Char) : Prop := ∃ value, HasValue c value

/-- `chars` are digits of `bytes`, each in either case: two for each byte, that of the greater part
    first. -/
inductive Reads : List Char → Bytes → Prop
  | nil : Reads [] []
  | cons {high low : Char} {byte : UInt8} {chars : List Char} {bytes : Bytes}
      (hhigh : HasValue high (byte.toNat / 16)) (hlow : HasValue low (byte.toNat % 16))
      (h : Reads chars bytes) : Reads (high :: low :: chars) (byte :: bytes)

/-! ### Digits -/

theorem lt_of_hasValue {c : Char} {value : Nat} (h : HasValue c value) : value < 16 := by
  obtain ⟨upper, hdigit⟩ := h
  have hlength : (alphabet upper).length = 16 := by cases upper <;> decide
  obtain ⟨hlt, -⟩ := List.getElem?_eq_some_iff.1 hdigit
  rwa [hlength] at hlt

theorem digitValue?_eq_some_iff {c : Char} {value : Nat} :
    digitValue? c = some value ↔ HasValue c value := by
  constructor
  · intro h
    -- all digits are in ASCII
    have hall : ∀ code : Fin 128, ∀ found ∈ digitValue? (Char.ofNat code),
        ∃ upper, (alphabet upper)[found]? = some (Char.ofNat code) := by decide +kernel
    have hfound := hall ⟨c.toNat, lt_of_digitValue? h⟩ value
    rw [Char.ofNat_toNat] at hfound
    exact hfound h
  · intro h
    have hlt := lt_of_hasValue h
    obtain ⟨upper, hdigit⟩ := h
    rw [alphabet_getElem? upper hlt] at hdigit
    rw [← Option.some.inj hdigit, digitValue?_digit upper hlt]

theorem isDigit_iff {c : Char} : IsDigit c ↔ (digitValue? c).isSome = true := by
  simp only [Option.isSome_iff_exists, digitValue?_eq_some_iff, IsDigit]

/-! ### Texts that are accepted -/

theorem decodePairs_eq_some_iff {digits : List Char} {bytes : Bytes} :
    decodePairs digits = some bytes ↔ Reads digits bytes := by
  constructor
  · intro h
    fun_induction decodePairs digits generalizing bytes with
    | case1 =>
        obtain rfl := Option.some.inj h
        exact .nil
    | case2 => cases h
    | case3 high low rest ih =>
        simp only [Option.bind_eq_bind, Option.bind_eq_some_iff] at h
        obtain ⟨m, hm, n, hn, bytes', hrest, hbytes⟩ := h
        obtain rfl := Option.some.inj hbytes
        rw [digitValue?_eq_some_iff] at hm hn
        have hmlt := lt_of_hasValue hm
        have hnlt := lt_of_hasValue hn
        have hbyte : (UInt8.ofNat (16 * m + n)).toNat = 16 * m + n := by
          rw [UInt8.toNat_ofNat']
          omega
        have hhigh : (16 * m + n) / 16 = m := by omega
        have hlow : (16 * m + n) % 16 = n := by omega
        refine .cons ?_ ?_ (ih hrest)
        · rwa [hbyte, hhigh]
        · rwa [hbyte, hlow]
  · intro h
    induction h with
    | nil => rfl
    | @cons high low byte chars bytes hhigh hlow _ ih =>
        rw [decodePairs, digitValue?_eq_some_iff.2 hhigh, digitValue?_eq_some_iff.2 hlow, ih]
        show some (UInt8.ofNat (16 * (byte.toNat / 16) + byte.toNat % 16) :: bytes) = _
        rw [Nat.div_add_mod, UInt8.ofNat_toNat]

theorem decodePairs_eq_none_iff {digits : List Char} :
    decodePairs digits = none ↔ ∀ bytes, ¬Reads digits bytes := by
  simp only [Option.eq_none_iff_forall_ne_some, ne_eq, decodePairs_eq_some_iff]

/-- **A text is accepted exactly if it stands for bytes**, blanks in it apart. -/
theorem decode_eq_ok_iff_reads {text : List Char} {bytes : Bytes} :
    decode text = .ok bytes ↔ Reads (dense text) bytes := by
  rw [decode_eq_ok_iff, decodePairs_eq_some_iff]

theorem Reads.isDigit {digits : List Char} {bytes : Bytes} (h : Reads digits bytes) :
    ∀ c ∈ digits, IsDigit c := by
  induction h with
  | nil => exact nofun
  | cons hhigh hlow _ ih =>
      simp only [List.forall_mem_cons]
      exact ⟨⟨_, hhigh⟩, ⟨_, hlow⟩, ih⟩

theorem Reads.isBlank_eq_false {digits : List Char} {bytes : Bytes} (h : Reads digits bytes) :
    ∀ c ∈ digits, Text.isBlank c = false := by
  intro c hc
  obtain ⟨value, hvalue⟩ := h.isDigit c hc
  exact isBlank_of_digitValue? (digitValue?_eq_some_iff.2 hvalue)

theorem Reads.length_eq {digits : List Char} {bytes : Bytes} (h : Reads digits bytes) :
    digits.length = 2 * bytes.length :=
  length_of_decodePairs (decodePairs_eq_some_iff.2 h)

/-- A text stands for bytes if its characters are digits that pair up. -/
theorem exists_reads_iff {digits : List Char} :
    (∃ bytes, Reads digits bytes) ↔ digits.length % 2 = 0 ∧ ∀ c ∈ digits, IsDigit c := by
  constructor
  · rintro ⟨bytes, h⟩
    have hlength := h.length_eq
    exact ⟨by omega, h.isDigit⟩
  · rintro ⟨heven, hdigits⟩
    simp only [isDigit_iff] at hdigits
    obtain ⟨bytes, hbytes⟩ := Option.isSome_iff_exists.1 (decodePairs_isSome hdigits heven)
    exact ⟨bytes, decodePairs_eq_some_iff.1 hbytes⟩

/-! ### Texts that are refused -/

/-- Digits are single bytes, so those that pair up take an even number of bytes. -/
theorem Reads.length_encode {digits : List Char} {bytes : Bytes} (h : Reads digits bytes) :
    (Utf8.encode (String.ofList digits)).length = 2 * bytes.length := by
  have hascii : ∀ c ∈ digits, c.toNat < 128 := by
    intro c hc
    obtain ⟨value, hvalue⟩ := h.isDigit c hc
    exact lt_of_digitValue? (digitValue?_eq_some_iff.2 hvalue)
  rw [Utf8.encode_ofList_of_lt hascii, List.length_map, h.length_eq]

theorem decode_of_not_reads {text : List Char} (h : ∀ bytes, ¬Reads (dense text) bytes) :
    decode text =
      if (Utf8.encode (String.ofList (dense text))).length % 2 = 1 then .error .oddLength
      else .error (.invalidDigit (offsetOf isOffending text)) := by
  have hdense : text.filter (fun c => !Text.isBlank c) = dense text := rfl
  unfold decode
  simp only [hdense, decodePairs_eq_none_iff.2 h, Utf8.byteLength_eq_length_encode]
  rfl

/-- The number of bytes is looked at before the digits are. -/
theorem decode_eq_error_oddLength_iff {text : List Char} :
    decode text = .error .oddLength ↔
      (Utf8.encode (String.ofList (dense text))).length % 2 = 1 := by
  by_cases hreads : ∃ bytes, Reads (dense text) bytes
  · obtain ⟨bytes, hbytes⟩ := hreads
    rw [decode_eq_ok_iff_reads.2 hbytes, hbytes.length_encode]
    simp
  · rw [decode_of_not_reads (not_exists.1 hreads)]
    split_ifs with hodd <;> simp [hodd]

theorem isOffending_eq_true_iff {c : Char} :
    isOffending c = true ↔ Text.isBlank c = false ∧ ¬IsDigit c := by
  rw [isOffending, isDigit_iff]
  simp

theorem isOffending_eq_false_iff {c : Char} :
    isOffending c = false ↔ Text.isBlank c = true ∨ IsDigit c := by
  rw [← Bool.not_eq_true, isOffending_eq_true_iff]
  cases Text.isBlank c <;> simp

theorem exists_append_of_offsetOf {p : Char → Bool} {text : List Char}
    (h : ∃ c ∈ text, p c = true) :
    ∃ before c after, text = before ++ c :: after ∧ (∀ earlier ∈ before, p earlier = false) ∧
      p c = true ∧ offsetOf p text = (Utf8.encode (String.ofList before)).length := by
  induction text with
  | nil =>
      obtain ⟨c, hc, -⟩ := h
      cases hc
  | cons first rest ih =>
      cases hfirst : p first with
      | true =>
          refine ⟨[], first, rest, rfl, nofun, hfirst, ?_⟩
          rw [offsetOf, if_pos hfirst]
          rfl
      | false =>
          have hrest : ∃ c ∈ rest, p c = true := by simpa [hfirst] using h
          obtain ⟨before, c, after, rfl, hbefore, hc, hoffset⟩ := ih hrest
          refine ⟨first :: before, c, after, rfl, List.forall_mem_cons.2 ⟨hfirst, hbefore⟩, hc, ?_⟩
          rw [offsetOf, hfirst, hoffset, Utf8.encode_ofList, Utf8.encode_ofList,
            List.flatMap_cons, List.length_append, String.length_utf8EncodeChar]
          rfl

/-- **The place of the first character that is neither a blank nor a digit** is told of any other
    text with an even number of bytes. -/
theorem exists_decode_eq_invalidDigit {text : List Char}
    (h : ∀ bytes, ¬Reads (dense text) bytes)
    (heven : (Utf8.encode (String.ofList (dense text))).length % 2 ≠ 1) :
    ∃ before c after, text = before ++ c :: after ∧
      (∀ earlier ∈ before, Text.isBlank earlier = true ∨ IsDigit earlier) ∧
      Text.isBlank c = false ∧ ¬IsDigit c ∧
      decode text = .error (.invalidDigit (Utf8.encode (String.ofList before)).length) := by
  have hoffending : ∃ c ∈ text, isOffending c = true := by
    refine exists_isOffending (decodePairs_eq_none_iff.2 h) ?_
    rwa [Utf8.byteLength_eq_length_encode]
  obtain ⟨before, c, after, htext, hbefore, hc, hoffset⟩ := exists_append_of_offsetOf hoffending
  obtain ⟨hblank, hdigit⟩ := isOffending_eq_true_iff.1 hc
  refine ⟨before, c, after, htext, ?_, hblank, hdigit, ?_⟩
  · exact fun earlier hmem => isOffending_eq_false_iff.1 (hbefore earlier hmem)
  · rw [decode_of_not_reads h, if_neg heven, hoffset]

end Hex

/-! ## Percent-encoded text -/

namespace Percent

open String (utf8EncodeChar)

/-- The characters begin with two hexadecimal digits. -/
def StartsWithDigits (chars : List Char) : Prop :=
  ∃ high low rest, chars = high :: low :: rest ∧ Hex.IsDigit high ∧ Hex.IsDigit low

/-- Every percent sign has two hexadecimal digits behind it. -/
def Whole (chars : List Char) : Prop :=
  ∀ before after, chars = before ++ '%' :: after → StartsWithDigits after

/-- The percent sign between `before` and `after` is the first without two digits behind it. -/
structure FirstBroken (chars before after : List Char) : Prop where
  eq_append : chars = before ++ '%' :: after
  broken : ¬StartsWithDigits after
  first : ∀ front back, chars = front ++ '%' :: back → front.length < before.length →
    StartsWithDigits back

/-- `chars` stand for `bytes`: an escape for the byte that its digits spell, and any other character
    for its encoding. -/
inductive Reads : List Char → Bytes → Prop
  | nil : Reads [] []
  | literal {c : Char} {chars : List Char} {bytes : Bytes} (hc : c ≠ '%') (h : Reads chars bytes) :
      Reads (c :: chars) (utf8EncodeChar c ++ bytes)
  | escape {high low : Char} {byte : UInt8} {chars : List Char} {bytes : Bytes}
      (hdigits : Hex.Reads [high, low] [byte]) (h : Reads chars bytes) :
      Reads ('%' :: high :: low :: chars) (byte :: bytes)

/-- `chars` can be read up to a percent sign, behind `before`, that has no two digits behind it. -/
inductive Breaks : List Char → List Char → Prop
  | here {after : List Char} (hafter : ¬StartsWithDigits after) : Breaks ('%' :: after) []
  | literal {c : Char} {chars before : List Char} (hc : c ≠ '%') (h : Breaks chars before) :
      Breaks (c :: chars) (c :: before)
  | escape {high low : Char} {byte : UInt8} {chars before : List Char}
      (hdigits : Hex.Reads [high, low] [byte]) (h : Breaks chars before) :
      Breaks ('%' :: high :: low :: chars) ('%' :: high :: low :: before)

/-! ### Percent signs -/

theorem exists_reads_pair {high low : Char} (hhigh : Hex.IsDigit high) (hlow : Hex.IsDigit low) :
    ∃ byte, Hex.Reads [high, low] [byte] := by
  obtain ⟨bytes, hbytes⟩ := Hex.exists_reads_iff.2
    ⟨by simp, List.forall_mem_cons.2 ⟨hhigh, List.forall_mem_singleton.2 hlow⟩⟩
  cases hbytes with
  | cons hhigh hlow hrest =>
      cases hrest
      exact ⟨_, .cons hhigh hlow .nil⟩

/-- Every text can be read, to its end or up to a percent sign. -/
theorem reads_or_breaks (chars : List Char) :
    (∃ bytes, Reads chars bytes) ∨ ∃ before, Breaks chars before := by
  -- an escape takes three characters at once, so the induction is on the length
  induction hlength : chars.length using Nat.strong_induction_on generalizing chars with
  | _ length ih =>
    subst hlength
    cases chars with
    | nil => exact Or.inl ⟨[], .nil⟩
    | cons c rest =>
        by_cases hc : c = '%'
        · subst hc
          by_cases hafter : StartsWithDigits rest
          · obtain ⟨high, low, more, rfl, hhigh, hlow⟩ := hafter
            obtain ⟨byte, hdigits⟩ := exists_reads_pair hhigh hlow
            rcases ih more.length (by simp only [List.length_cons]; omega) more rfl with
              ⟨bytes, h⟩ | ⟨before, h⟩
            · exact Or.inl ⟨_, .escape hdigits h⟩
            · exact Or.inr ⟨_, .escape hdigits h⟩
          · exact Or.inr ⟨_, .here hafter⟩
        · rcases ih rest.length (by simp only [List.length_cons]; omega) rest rfl with
            ⟨bytes, h⟩ | ⟨before, h⟩
          · exact Or.inl ⟨_, .literal hc h⟩
          · exact Or.inr ⟨_, .literal hc h⟩

theorem ne_percent_of_isDigit {c : Char} (h : Hex.IsDigit c) : c ≠ '%' := by
  rintro rfl
  rw [Hex.isDigit_iff] at h
  exact absurd h (by decide)

/-- Only behind a percent sign are digits needed. -/
theorem Whole.cons {c : Char} {chars : List Char} (h : Whole chars)
    (hc : c = '%' → StartsWithDigits chars) : Whole (c :: chars) := by
  intro before after hchars
  cases before with
  | nil =>
      obtain ⟨rfl, rfl⟩ := List.cons.inj hchars
      exact hc rfl
  | cons first before => exact h before after (List.cons.inj hchars).2

theorem FirstBroken.cons {c : Char} {chars before after : List Char}
    (h : FirstBroken chars before after) (hc : c = '%' → StartsWithDigits chars) :
    FirstBroken (c :: chars) (c :: before) after where
  eq_append := by rw [h.eq_append, List.cons_append]
  broken := h.broken
  first := by
    intro front back hchars hlt
    cases front with
    | nil =>
        obtain ⟨rfl, rfl⟩ := List.cons.inj hchars
        exact hc rfl
    | cons first front =>
        exact h.first front back (List.cons.inj hchars).2 (Nat.lt_of_succ_lt_succ hlt)

theorem Reads.whole {chars : List Char} {bytes : Bytes} (h : Reads chars bytes) : Whole chars := by
  induction h with
  | nil =>
      intro before after hchars
      cases before <;> cases hchars
  | literal hc _ ih => exact ih.cons fun heq => absurd heq hc
  | @escape high low byte chars bytes hdigits _ ih =>
      have hhigh := hdigits.isDigit high (by simp)
      have hlow := hdigits.isDigit low (by simp)
      refine Whole.cons (Whole.cons (ih.cons ?_) ?_) fun _ => ⟨high, low, chars, rfl, hhigh, hlow⟩
      · exact fun heq => absurd heq (ne_percent_of_isDigit hlow)
      · exact fun heq => absurd heq (ne_percent_of_isDigit hhigh)

theorem Breaks.exists_firstBroken {chars before : List Char} (h : Breaks chars before) :
    ∃ after, FirstBroken chars before after := by
  induction h with
  | @here after hafter => exact ⟨after, rfl, hafter, nofun⟩
  | literal hc _ ih =>
      obtain ⟨after, hafter⟩ := ih
      exact ⟨after, hafter.cons fun heq => absurd heq hc⟩
  | @escape high low byte chars before hdigits _ ih =>
      obtain ⟨after, hafter⟩ := ih
      have hhigh := hdigits.isDigit high (by simp)
      have hlow := hdigits.isDigit low (by simp)
      refine ⟨after, ((hafter.cons ?_).cons ?_).cons fun _ => ⟨high, low, chars, rfl, hhigh, hlow⟩⟩
      · exact fun heq => absurd heq (ne_percent_of_isDigit hlow)
      · exact fun heq => absurd heq (ne_percent_of_isDigit hhigh)

/-- A text stands for bytes if its percent signs have what they need. -/
theorem exists_reads_iff_whole {chars : List Char} :
    (∃ bytes, Reads chars bytes) ↔ Whole chars := by
  constructor
  · rintro ⟨bytes, h⟩
    exact h.whole
  · intro h
    refine (reads_or_breaks chars).resolve_right ?_
    rintro ⟨before, hbreaks⟩
    obtain ⟨after, hafter⟩ := hbreaks.exists_firstBroken
    exact hafter.broken (h before after hafter.eq_append)

/-! ### Bytes of characters -/

theorem ne_percent_of_mem_encodeChar {c : Char} (hc : c ≠ '%') :
    ∀ byte ∈ utf8EncodeChar c, byte ≠ 0x25 := by
  rintro byte hbyte rfl
  by_cases hascii : c.toNat < 128
  · rw [Utf8.encodeChar_of_lt hascii, List.mem_singleton] at hbyte
    have hcode := congrArg UInt8.toNat hbyte
    rw [UInt8.toNat_ofNat', Nat.mod_eq_of_lt (by omega)] at hcode
    exact hc (Char.toNat_inj.1 hcode.symm)
  · have hle := Utf8.le_of_mem_encodeChar (Nat.not_lt.1 hascii) hbyte
    exact absurd hle (by decide)

theorem hexValue?_ofNat {c : Char} (h : c.toNat < 128) :
    hexValue? (UInt8.ofNat c.toNat) = Hex.digitValue? c := by
  have hbyte : (UInt8.ofNat c.toNat).toNat = c.toNat := by
    rw [UInt8.toNat_ofNat']
    omega
  rw [hexValue?, hbyte, Char.ofNat_toNat]

theorem exists_encodeChar_of_hasValue {c : Char} {value : Nat} (h : Hex.HasValue c value) :
    ∃ byte, utf8EncodeChar c = [byte] ∧ hexValue? byte = some value := by
  have hvalue := Hex.digitValue?_eq_some_iff.2 h
  have hascii := Hex.lt_of_digitValue? hvalue
  exact ⟨_, Utf8.encodeChar_of_lt hascii, (hexValue?_ofNat hascii).trans hvalue⟩

theorem exists_flatMap_of_escape {high low : Char} {byte : UInt8}
    (h : Hex.Reads [high, low] [byte]) :
    ∃ a b, hexValue? a = some (byte.toNat / 16) ∧ hexValue? b = some (byte.toNat % 16) ∧
      ∀ chars : List Char, ('%' :: high :: low :: chars).flatMap utf8EncodeChar =
        0x25 :: a :: b :: chars.flatMap utf8EncodeChar := by
  cases h with
  | cons hhigh hlow _ =>
      obtain ⟨a, ha, hvalue⟩ := exists_encodeChar_of_hasValue hhigh
      obtain ⟨b, hb, hvalue'⟩ := exists_encodeChar_of_hasValue hlow
      refine ⟨a, b, hvalue, hvalue', fun chars => ?_⟩
      simp only [List.flatMap_cons, ha, hb]
      rfl

/-- A byte that is a digit stands for a character that is one. -/
theorem exists_digit_of_flatMap {chars : List Char} {byte : UInt8} {tail : Bytes}
    (h : chars.flatMap utf8EncodeChar = byte :: tail) (hbyte : (hexValue? byte).isSome = true) :
    ∃ c rest, chars = c :: rest ∧ Hex.IsDigit c ∧ rest.flatMap utf8EncodeChar = tail := by
  cases chars with
  | nil => cases h
  | cons c rest =>
      rw [List.flatMap_cons] at h
      cases hc : Hex.digitValue? c with
      | some value =>
          have hvalue := Hex.digitValue?_eq_some_iff.1 hc
          obtain ⟨single, hsingle, -⟩ := exists_encodeChar_of_hasValue hvalue
          rw [hsingle, List.singleton_append] at h
          exact ⟨c, rest, rfl, ⟨value, hvalue⟩, (List.cons.inj h).2⟩
      | none =>
          -- no byte of any other character is a digit
          obtain ⟨first, more, hbytes⟩ := Utf8.exists_encodeChar_eq_cons c
          rw [hbytes, List.cons_append] at h
          obtain ⟨rfl, -⟩ := List.cons.inj h
          have hforeign := Hex.isForeign_of_mem hc (by rw [hbytes]; exact List.mem_cons_self)
          rw [Hex.isForeign, Option.isNone_iff_eq_none] at hforeign
          rw [hexValue?, hforeign] at hbyte
          cases hbyte

/-! ### One character or escape at a time -/

/-- Bytes that are no percent signs are passed over, and stay as they are. -/
theorem read_run {run : Bytes} (h : ∀ byte ∈ run, byte ≠ 0x25) (offset : Nat) (rest : Bytes) :
    brokenEscape? offset (run ++ rest) = brokenEscape? (offset + run.length) rest ∧
      unescape (run ++ rest) = run ++ unescape rest := by
  induction run generalizing offset with
  | nil => exact ⟨rfl, rfl⟩
  | cons byte run ih =>
      rw [List.forall_mem_cons] at h
      obtain ⟨hbroken, hunescape⟩ := ih h.2 (offset + 1)
      rw [List.cons_append, brokenEscape?_cons h.1, hbroken, unescape_cons h.1, hunescape,
        List.length_cons, Nat.add_assoc, Nat.add_comm 1]
      exact ⟨rfl, rfl⟩

theorem read_escape {high low : Char} {byte : UInt8} (h : Hex.Reads [high, low] [byte])
    (offset : Nat) (chars : List Char) :
    brokenEscape? offset (('%' :: high :: low :: chars).flatMap utf8EncodeChar) =
        brokenEscape? (offset + 3) (chars.flatMap utf8EncodeChar) ∧
      unescape (('%' :: high :: low :: chars).flatMap utf8EncodeChar) =
        byte :: unescape (chars.flatMap utf8EncodeChar) := by
  obtain ⟨a, b, ha, hb, hbytes⟩ := exists_flatMap_of_escape h
  rw [hbytes, brokenEscape?_escape ha hb, unescape_escape ha hb, Nat.div_add_mod,
    UInt8.ofNat_toNat]
  exact ⟨rfl, rfl⟩

theorem brokenEscape?_of_not_startsWithDigits {after : List Char} (h : ¬StartsWithDigits after)
    (offset : Nat) :
    brokenEscape? offset (('%' :: after).flatMap utf8EncodeChar) = some offset := by
  have hbytes : ('%' :: after).flatMap utf8EncodeChar = 0x25 :: after.flatMap utf8EncodeChar := rfl
  rw [hbytes, brokenEscape?.eq_def]
  simp only [if_pos]
  split
  · next high low rest hdigits =>
      refine if_neg fun hvalues => h ?_
      rw [Bool.and_eq_true] at hvalues
      obtain ⟨c, chars, rfl, hc, hchars⟩ := exists_digit_of_flatMap hdigits hvalues.1
      obtain ⟨d, chars, rfl, hd, -⟩ := exists_digit_of_flatMap hchars hvalues.2
      exact ⟨c, d, chars, rfl, hc, hd⟩
  · rfl

theorem Reads.read {chars : List Char} {bytes : Bytes} (h : Reads chars bytes) (offset : Nat) :
    brokenEscape? offset (chars.flatMap utf8EncodeChar) = none ∧
      unescape (chars.flatMap utf8EncodeChar) = bytes := by
  induction h generalizing offset with
  | nil => exact ⟨rfl, rfl⟩
  | literal hc _ ih =>
      obtain ⟨hbroken, hunescape⟩ := read_run (ne_percent_of_mem_encodeChar hc) offset _
      rw [List.flatMap_cons, hbroken, hunescape, (ih 0).2]
      exact ⟨(ih _).1, rfl⟩
  | @escape high low byte chars bytes hdigits _ ih =>
      obtain ⟨hbroken, hunescape⟩ := read_escape hdigits offset chars
      rw [hbroken, hunescape, (ih 0).2]
      exact ⟨(ih _).1, rfl⟩

theorem Breaks.read {chars before : List Char} (h : Breaks chars before) (offset : Nat) :
    brokenEscape? offset (chars.flatMap utf8EncodeChar) =
      some (offset + (before.flatMap utf8EncodeChar).length) := by
  induction h generalizing offset with
  | here hafter => exact brokenEscape?_of_not_startsWithDigits hafter offset
  | literal hc _ ih =>
      obtain ⟨hbroken, -⟩ := read_run (ne_percent_of_mem_encodeChar hc) offset _
      rw [List.flatMap_cons, hbroken, ih, List.flatMap_cons, List.length_append, Nat.add_assoc]
  | @escape high low byte chars before hdigits _ ih =>
      obtain ⟨a, b, -, -, hbytes⟩ := exists_flatMap_of_escape hdigits
      rw [(read_escape hdigits offset chars).1, ih, hbytes, Nat.add_right_comm]
      simp only [List.length_cons, Nat.add_assoc]

/-! ### The text that is read -/

section

variable {text : String}

/-- **The place of the first percent sign without two digits behind it** is told. -/
theorem decode_of_breaks {before : List Char} (h : Breaks text.toList before) :
    decode text = .error (.incompleteEscape (Utf8.encode (String.ofList before)).length) := by
  have hbroken := h.read 0
  rw [← Utf8.encode_eq_flatMap, ← Utf8.encode_ofList, Nat.zero_add] at hbroken
  unfold decode
  simp only [hbroken]

theorem decode_of_reads {bytes : Bytes} (h : Reads text.toList bytes) :
    decode text = (Utf8.decode bytes).mapError .notUtf8 := by
  obtain ⟨hbroken, hunescape⟩ := h.read 0
  rw [← Utf8.encode_eq_flatMap] at hbroken hunescape
  unfold decode
  simp only [hbroken, hunescape]
  cases Utf8.decode bytes <;> rfl

/-- **A text is accepted exactly if it stands for the encoding of another.** -/
theorem decode_eq_ok_iff_reads {decoded : String} :
    decode text = .ok decoded ↔ Reads text.toList (Utf8.encode decoded) := by
  constructor
  · intro h
    rcases reads_or_breaks text.toList with ⟨bytes, hreads⟩ | ⟨before, hbreaks⟩
    · rw [decode_of_reads hreads] at h
      cases hutf8 : Utf8.decode bytes with
      | error count =>
          rw [hutf8] at h
          cases h
      | ok found =>
          rw [hutf8] at h
          obtain rfl := Except.ok.inj h
          rwa [Utf8.decode_eq_ok_iff.1 hutf8]
    · rw [decode_of_breaks hbreaks] at h
      cases h
  · intro h
    rw [decode_of_reads h, Utf8.decode_eq_ok_iff.2 rfl]
    rfl

end

/-! ### The search -/

/-- The search for a percent sign that starts no escape, from `offset` on: how many percent signs it
    looks at, and what it finds. Behind an escape it begins anew. -/
inductive Search (bytes : Bytes) : Nat → Nat → Option Nat → Prop
  | exhausted {offset : Nat} (h : (bytes.drop offset).findIdx? (· == 0x25) = none) :
      Search bytes offset 0 none
  | broken {offset distance : Nat} (h : (bytes.drop offset).findIdx? (· == 0x25) = some distance)
      (hbroken : startsEscape bytes (offset + distance) = false) :
      Search bytes offset 1 (some (offset + distance))
  | onward {offset distance signs : Nat} {found : Option Nat}
      (h : (bytes.drop offset).findIdx? (· == 0x25) = some distance)
      (hescape : startsEscape bytes (offset + distance) = true)
      (hnext : Search bytes (offset + distance + 3) signs found) :
      Search bytes offset (signs + 1) found

theorem le_length_of_startsEscape {bytes : Bytes} {place : Nat}
    (h : startsEscape bytes place = true) : place + 3 ≤ bytes.length := by
  rw [startsEscape] at h
  split at h
  · next high low rest hdrop =>
      have hcount := congrArg List.length hdrop
      simp only [List.length_drop, List.length_cons] at hcount
      omega
  · cases h

/-- Every escape takes up three bytes, so a search comes to an end. -/
theorem exists_search {bytes : Bytes} {offset : Nat} {found : Option Nat}
    (h : searchFrom bytes offset = some found) :
    ∃ signs, Search bytes offset signs found ∧ 3 * signs ≤ bytes.length - offset + 2 := by
  fun_induction searchFrom bytes offset with
  | case1 offset hnone => cases h
  | case2 offset slice hslice hfind =>
      obtain rfl := Option.some.inj h
      rw [behind?] at hslice
      split_ifs at hslice with hle
      obtain rfl := Option.some.inj hslice
      exact ⟨0, .exhausted hfind, Nat.zero_le _⟩
  | case3 offset slice hslice distance hfind hescape ih =>
      obtain ⟨signs, hsearch, hbound⟩ := ih h
      rw [behind?] at hslice
      split_ifs at hslice with hle
      obtain rfl := Option.some.inj hslice
      have hlength := le_length_of_startsEscape hescape
      exact ⟨signs + 1, .onward hfind hescape hsearch, by omega⟩
  | case4 offset slice hslice distance hfind hbroken =>
      obtain rfl := Option.some.inj h
      rw [behind?] at hslice
      split_ifs at hslice with hle
      obtain rfl := Option.some.inj hslice
      have hlt : distance < (bytes.drop offset).length :=
        (List.findIdx?_eq_some_iff_getElem.1 hfind).1
      rw [List.length_drop] at hlt
      exact ⟨1, .broken hfind (Bool.eq_false_iff.2 hbroken), by omega⟩

/-- **The search ends**, and finds what the decoder goes by. -/
theorem exists_search_brokenEscape? (bytes : Bytes) :
    ∃ signs, Search bytes 0 signs (brokenEscape? 0 bytes) ∧ 3 * signs ≤ bytes.length + 2 :=
  exists_search (searchFrom_eq (Nat.zero_le _))

end Percent

end Pipework
