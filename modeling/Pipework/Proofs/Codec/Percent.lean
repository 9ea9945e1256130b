import Pipework.Codec.Percent
import Pipework.Proofs.Codec.Hex
import Pipework.Proofs.Text.Utf8
import Mathlib.Data.List.Forall2
import Mathlib.Data.List.TakeWhile

set_option autoImplicit false

/-! # Percent-encoding reads back

However `Percent.encode` gets there, it writes each byte by itself: as the character it is, or as an
escape (`Percent.encode_eq_flatMap`). Reading undoes that byte by byte, as long as no percent sign
is written as it is (`Percent.unescape_encode`). One that is swallows the two characters behind it,
which must be digits that stand for themselves, so whatever is read is two bytes short for each of
them (`Percent.length_unescape_encode`). -/

namespace Pipework.Percent

/-! ## Byte by byte -/

/-- A byte that is written as it is: a letter, a digit, one of `_ . - ~` or an ASCII character of
    `safe`. -/
def IsLiteral (safe : String) (byte : UInt8) : Prop :=
  ∃ c : Char, c.toNat = byte.toNat ∧ c.toNat < 128 ∧
    (c.isAlphanum = true ∨ c ∈ ['_', '.', '-', '~'] ∨ c ∈ safe.toList)

/-- How a single byte is written. -/
inductive Writes (safe : String) (byte : UInt8) : List Char → Prop
  | literal {c : Char} (hliteral : IsLiteral safe byte) (hc : c.toNat = byte.toNat) :
      Writes safe byte [c]
  | escape {digits : List Char} (hliteral : ¬IsLiteral safe byte)
      (hdigits : Hex.Spells true [byte] digits) : Writes safe byte ('%' :: digits)

/-- The byte is unreserved or an ASCII character of `safe`. -/
def isKept (safe : String) (byte : UInt8) : Bool :=
  isUnreserved byte || (byte.toNat < 128 && safe.toList.contains (Char.ofNat byte.toNat))

/-- What is written for a byte. -/
def written (safe : String) (byte : UInt8) : List Char :=
  if isKept safe byte then [Char.ofNat byte.toNat] else escape byte

theorem lt_of_isUnreserved {byte : UInt8} (h : isUnreserved byte = true) : byte.toNat < 128 := by
  have hall : ∀ n : Fin 256, isUnreserved (UInt8.ofNat n) = true → n.val < 128 := by decide +kernel
  have hbyte : byte.toNat < 256 := byte.toNat_lt
  exact hall ⟨byte.toNat, hbyte⟩ (by rwa [UInt8.ofNat_toNat])

theorem isLiteral_iff {safe : String} {byte : UInt8} :
    IsLiteral safe byte ↔ isKept safe byte = true := by
  have hchar := Utf8.toNat_ofNat_byte byte
  have hunreserved : isUnreserved byte = true ↔ (Char.ofNat byte.toNat).isAlphanum = true ∨
      Char.ofNat byte.toNat ∈ ['_', '.', '-', '~'] := by
    simp [isUnreserved, or_assoc]
  simp only [isKept, Bool.or_eq_true, Bool.and_eq_true, decide_eq_true_eq, List.contains_iff_mem]
  constructor
  · rintro ⟨c, hc, hlt, hkept⟩
    have heq : Char.ofNat byte.toNat = c := by rw [← hc, Char.ofNat_toNat]
    rw [hunreserved, heq]
    rcases hkept with h | h | h
    · exact Or.inl (Or.inl h)
    · exact Or.inl (Or.inr h)
    · exact Or.inr ⟨hc ▸ hlt, h⟩
  · intro h
    refine ⟨Char.ofNat byte.toNat, hchar, ?_, ?_⟩
    · rw [hchar]
      exact h.elim lt_of_isUnreserved (·.1)
    · rcases h with h | h
      · exact (hunreserved.1 h).imp_right Or.inl
      · exact Or.inr (Or.inr h.2)

theorem writes_written (safe : String) (byte : UInt8) : Writes safe byte (written safe byte) := by
  unfold written
  split_ifs with hkept
  · exact .literal (isLiteral_iff.2 hkept) (Utf8.toNat_ofNat_byte byte)
  · exact .escape (mt isLiteral_iff.1 hkept) (Hex.spells_encode true [byte])

/-! ## Chunks -/

theorem escaped?_escape (byte : UInt8) : escaped? (escape byte) = some byte := by
  have hbyte : byte.toNat < 256 := byte.toNat_lt
  have hhigh : byte.toNat / 16 < 16 := by omega
  have hlow : byte.toNat % 16 < 16 := by omega
  simp only [escape, Hex.pair, escaped?, Hex.digitValue?_digit _ hhigh,
    Hex.digitValue?_digit _ hlow]
  show some (UInt8.ofNat (16 * (byte.toNat / 16) + byte.toNat % 16)) = some byte
  rw [Nat.div_add_mod, UInt8.ofNat_toNat]

/-- A run of unreserved bytes does not begin with a percent sign. -/
theorem escaped?_literals {byte : UInt8} (h : isUnreserved byte = true) (rest : Bytes) :
    escaped? (literals (byte :: rest)) = none := by
  have hpercent : Char.ofNat byte.toNat ≠ '%' := by
    intro heq
    unfold isUnreserved at h
    rw [heq] at h
    exact absurd h (by decide)
  unfold escaped?
  split
  · next hcons => exact absurd (List.cons.inj hcons).1 hpercent
  · rfl

/-- Chunks that are changed one by one are bytes that are changed one by one if runs stay as they
    are. -/
theorem flatMap_chunks {f : List Char → List Char}
    (hrun : ∀ byte rest, isUnreserved byte = true → f (literals (byte :: rest)) =
      literals (byte :: rest)) (bytes : Bytes) :
    (chunks bytes).flatMap f = bytes.flatMap fun byte =>
      if isUnreserved byte then [Char.ofNat byte.toNat] else f (escape byte) := by
  have hliterals : ∀ run : Bytes, (∀ byte ∈ run, isUnreserved byte = true) →
      literals run = run.flatMap fun byte =>
        if isUnreserved byte then [Char.ofNat byte.toNat] else f (escape byte) := by
    intro run hunreserved
    unfold literals
    rw [List.map_eq_flatMap]
    exact List.flatMap_congr fun byte hbyte => (if_pos (hunreserved byte hbyte)).symm
  fun_induction chunks bytes with
  | case1 => rfl
  | case2 byte rest hbyte ih =>
      have hall : ∀ b ∈ byte :: rest.takeWhile isUnreserved, isUnreserved b = true := by
        intro b hb
        rcases List.mem_cons.1 hb with rfl | hb
        · exact hbyte
        · exact List.mem_takeWhile_imp hb
      rw [List.flatMap_cons, hrun _ _ hbyte, ih, hliterals _ hall, ← List.flatMap_append,
        List.cons_append, List.takeWhile_append_dropWhile]
  | case3 byte rest hbyte ih =>
      rw [List.flatMap_cons, ih, List.flatMap_cons, if_neg hbyte]

theorem restore_literals (safe : Bytes) {byte : UInt8} (h : isUnreserved byte = true)
    (rest : Bytes) : restore safe (literals (byte :: rest)) = literals (byte :: rest) := by
  rw [restore, escaped?_literals h]

theorem restore_escape (safe : Bytes) (byte : UInt8) :
    restore safe (escape byte) =
      if byte ∈ safe then [Char.ofNat byte.toNat] else escape byte := by
  rw [restore, escaped?_escape]

theorem restore_nil (chunk : List Char) : restore [] chunk = chunk := by
  unfold restore
  split
  · exact if_neg List.not_mem_nil
  · rfl

/-- Whether there is anything to restore makes no difference. -/
theorem encode_eq_flatMap_restore (safe : String) (bytes : Bytes) :
    encode safe bytes =
      (chunks bytes).flatMap (restore ((Utf8.encode safe).filter (· < 128))) := by
  unfold encode
  split
  · next hnone =>
      rw [hnone, funext restore_nil]
      exact List.flatMap_id'.symm
  · rfl

/-- **Every byte is written by itself,** however the text is put together. -/
theorem encode_eq_flatMap (safe : String) (bytes : Bytes) :
    encode safe bytes = bytes.flatMap (written safe) := by
  rw [encode_eq_flatMap_restore, flatMap_chunks fun _ rest h => restore_literals _ h rest]
  refine List.flatMap_congr fun byte _ => ?_
  have hsafe : byte ∈ (Utf8.encode safe).filter (· < 128) ↔
      byte.toNat < 128 ∧ Char.ofNat byte.toNat ∈ safe.toList := by
    have hlt : byte < 128 ↔ byte.toNat < 128 := UInt8.lt_iff_toNat_lt
    rw [List.mem_filter, decide_eq_true_eq, hlt, and_comm]
    exact and_congr_right fun h => Utf8.mem_encode_iff_of_lt h
  rw [restore_escape, written, isKept]
  by_cases hunreserved : isUnreserved byte = true
  · simp [hunreserved]
  · simp [hunreserved, hsafe]

/-! ## The bytes of the text -/

/-- The bytes that are written for a byte. -/
def writtenBytes (safe : String) (byte : UInt8) : Bytes :=
  (written safe byte).map fun c => UInt8.ofNat c.toNat

theorem writtenBytes_of_isKept {safe : String} {byte : UInt8} (h : isKept safe byte = true) :
    writtenBytes safe byte = [byte] := by
  unfold writtenBytes written
  rw [if_pos h, List.map_singleton, Utf8.toNat_ofNat_byte, UInt8.ofNat_toNat]

theorem hexValue?_digit {value : Nat} (h : value < 16) :
    hexValue? (UInt8.ofNat (Hex.digit true value).toNat) = some value := by
  have hall : ∀ value : Fin 16,
      hexValue? (UInt8.ofNat (Hex.digit true value).toNat) = some value.val := by decide
  exact hall ⟨value, h⟩

theorem writtenBytes_of_not_isKept {safe : String} {byte : UInt8} (h : isKept safe byte = false) :
    ∃ high low, writtenBytes safe byte = [0x25, high, low] ∧
      hexValue? high = some (byte.toNat / 16) ∧ hexValue? low = some (byte.toNat % 16) := by
  have hbyte : byte.toNat < 256 := byte.toNat_lt
  refine ⟨_, _, ?_, hexValue?_digit (by omega), hexValue?_digit (by omega)⟩
  unfold writtenBytes written
  rw [h]
  rfl

theorem lt_of_mem_written {safe : String} {byte : UInt8} {c : Char} (h : c ∈ written safe byte) :
    c.toNat < 128 := by
  have hdigit : ∀ value : Fin 16, (Hex.digit true value).toNat < 128 := by decide
  have hbyte : byte.toNat < 256 := byte.toNat_lt
  have hwrites := writes_written safe byte
  unfold written at h
  split_ifs at h with hkept
  · obtain ⟨d, hd, hlt, -⟩ := isLiteral_iff.2 hkept
    rw [List.mem_singleton.1 h, Utf8.toNat_ofNat_byte, ← hd]
    exact hlt
  · simp only [escape, Hex.pair, List.mem_cons, List.not_mem_nil, or_false] at h
    rcases h with rfl | rfl | rfl
    · decide
    · exact hdigit ⟨byte.toNat / 16, by omega⟩
    · exact hdigit ⟨byte.toNat % 16, by omega⟩

theorem encode_encode (safe : String) (bytes : Bytes) :
    Utf8.encode (String.ofList (encode safe bytes)) = bytes.flatMap (writtenBytes safe) := by
  rw [encode_eq_flatMap, Utf8.encode_ofList_of_lt, List.map_flatMap]
  · rfl
  · intro c hc
    obtain ⟨byte, -, hbyte⟩ := List.mem_flatMap.1 hc
    exact lt_of_mem_written hbyte

/-- The percent sign is kept only by request. -/
theorem isKept_percent_iff {safe : String} : isKept safe 0x25 = true ↔ '%' ∈ safe.toList := by
  have hunreserved : isUnreserved 0x25 = false := by decide
  have hchar : Char.ofNat (0x25 : UInt8).toNat = '%' := by decide
  rw [isKept, hunreserved, hchar]
  simp

/-! ## One byte or escape read -/

theorem ne_percent_of_hexValue? {byte : UInt8} {value : Nat} (h : hexValue? byte = some value) :
    byte ≠ 0x25 := by
  rintro rfl
  have hnone : hexValue? 0x25 = none := by decide
  rw [hnone] at h
  cases h

theorem brokenEscape?_cons {byte : UInt8} (h : byte ≠ 0x25) (offset : Nat) (rest : Bytes) :
    brokenEscape? offset (byte :: rest) = brokenEscape? (offset + 1) rest := by
  rw [brokenEscape?.eq_def]
  exact if_neg h

theorem unescape_cons {byte : UInt8} (h : byte ≠ 0x25) (rest : Bytes) :
    unescape (byte :: rest) = byte :: unescape rest := by
  rw [unescape.eq_def]
  exact if_neg h

theorem brokenEscape?_escape {high low : UInt8} {m n : Nat} (hhigh : hexValue? high = some m)
    (hlow : hexValue? low = some n) (offset : Nat) (rest : Bytes) :
    brokenEscape? offset (0x25 :: high :: low :: rest) = brokenEscape? (offset + 3) rest := by
  rw [brokenEscape?, hhigh, hlow]
  rfl

theorem unescape_escape {high low : UInt8} {m n : Nat} (hhigh : hexValue? high = some m)
    (hlow : hexValue? low = some n) (rest : Bytes) :
    unescape (0x25 :: high :: low :: rest) = UInt8.ofNat (16 * m + n) :: unescape rest := by
  rw [unescape]
  simp only [hhigh, hlow, if_pos]

/-- A percent sign that is not refused starts an escape. -/
theorem exists_escape_of_brokenEscape? {offset : Nat} {bytes : Bytes}
    (h : brokenEscape? offset (0x25 :: bytes) = none) :
    ∃ high low rest m n, bytes = high :: low :: rest ∧ hexValue? high = some m ∧
      hexValue? low = some n := by
  rw [brokenEscape?.eq_def] at h
  simp only [if_pos] at h
  split at h
  · next high low rest =>
      split_ifs at h with hdigits
      rw [Bool.and_eq_true, Option.isSome_iff_exists, Option.isSome_iff_exists] at hdigits
      obtain ⟨⟨m, hm⟩, n, hn⟩ := hdigits
      exact ⟨high, low, rest, m, n, rfl, hm, hn⟩
  · cases h

/-! ## Reading what was written -/

/-- A byte is read as itself, be it kept or escaped, unless it is a percent sign that was kept. -/
theorem read_writtenBytes {safe : String} {byte : UInt8}
    (h : isKept safe byte = true → byte ≠ 0x25) (offset : Nat) (rest : Bytes) :
    (∃ next, brokenEscape? offset (writtenBytes safe byte ++ rest) = brokenEscape? next rest) ∧
      unescape (writtenBytes safe byte ++ rest) = byte :: unescape rest := by
  cases hkept : isKept safe byte with
  | true =>
      rw [writtenBytes_of_isKept hkept, List.singleton_append, brokenEscape?_cons (h hkept),
        unescape_cons (h hkept)]
      exact ⟨⟨_, rfl⟩, rfl⟩
  | false =>
      obtain ⟨high, low, hwritten, hhigh, hlow⟩ := writtenBytes_of_not_isKept hkept
      rw [hwritten]
      simp only [List.cons_append, List.nil_append]
      rw [brokenEscape?_escape hhigh hlow, unescape_escape hhigh hlow, Nat.div_add_mod,
        UInt8.ofNat_toNat]
      exact ⟨⟨_, rfl⟩, rfl⟩

/-- Without a percent sign that is kept, every escape is whole and gives its byte. -/
theorem unescape_encode {safe : String} {bytes : Bytes}
    (h : ∀ byte ∈ bytes, isKept safe byte = true → byte ≠ 0x25) (offset : Nat) :
    brokenEscape? offset (bytes.flatMap (writtenBytes safe)) = none ∧
      unescape (bytes.flatMap (writtenBytes safe)) = bytes := by
  induction bytes generalizing offset with
  | nil => exact ⟨rfl, rfl⟩
  | cons byte rest ih =>
      have hrest := ih fun b hb => h b (List.mem_cons_of_mem _ hb)
      obtain ⟨⟨next, hbroken⟩, hunescape⟩ := read_writtenBytes (h byte (List.mem_cons_self ..))
        offset (rest.flatMap (writtenBytes safe))
      rw [List.flatMap_cons, hbroken, hunescape, (hrest next).2]
      exact ⟨(hrest next).1, rfl⟩

/-- What is written begins with something else than a percent sign only if this byte was kept. -/
theorem eq_cons_of_flatMap_writtenBytes {safe : String} {bytes tail : Bytes} {first : UInt8}
    (h : bytes.flatMap (writtenBytes safe) = first :: tail) (hne : first ≠ 0x25) :
    ∃ rest, bytes = first :: rest ∧ rest.flatMap (writtenBytes safe) = tail := by
  cases bytes with
  | nil => cases h
  | cons byte rest =>
      rw [List.flatMap_cons] at h
      cases hkept : isKept safe byte with
      | true =>
          rw [writtenBytes_of_isKept hkept, List.singleton_append] at h
          obtain ⟨rfl, htail⟩ := List.cons.inj h
          exact ⟨rest, rfl, htail⟩
      | false =>
          obtain ⟨high, low, hwritten, -⟩ := writtenBytes_of_not_isKept hkept
          rw [hwritten] at h
          exact absurd (List.cons.inj h).1.symm hne

/-- **Every percent sign that is kept costs two bytes.** If it starts an escape, the two digits
    behind it stand for bytes that were kept too. -/
theorem length_unescape_encode {safe : String} (hpercent : isKept safe 0x25 = true) (bytes : Bytes)
    {offset : Nat} (h : brokenEscape? offset (bytes.flatMap (writtenBytes safe)) = none) :
    (unescape (bytes.flatMap (writtenBytes safe))).length + 2 * bytes.count 0x25 =
      bytes.length := by
  -- an escape may take up three bytes at once, so the induction is on the length
  induction hlength : bytes.length using Nat.strong_induction_on generalizing bytes offset with
  | _ length ih =>
    subst hlength
    cases bytes with
    | nil => rfl
    | cons byte rest =>
        rw [List.flatMap_cons] at h ⊢
        by_cases hbyte : byte = 0x25
        · subst hbyte
          rw [writtenBytes_of_isKept hpercent, List.singleton_append] at h ⊢
          obtain ⟨high, low, tail, m, n, htail, hhigh, hlow⟩ := exists_escape_of_brokenEscape? h
          have hhigh' := ne_percent_of_hexValue? hhigh
          have hlow' := ne_percent_of_hexValue? hlow
          obtain ⟨more, rfl, hmore⟩ := eq_cons_of_flatMap_writtenBytes htail hhigh'
          obtain ⟨last, rfl, hlast⟩ := eq_cons_of_flatMap_writtenBytes hmore hlow'
          rw [htail, brokenEscape?_escape hhigh hlow, ← hlast] at h
          have hshort := ih last.length (by simp only [List.length_cons]; omega) last h rfl
          rw [htail, unescape_escape hhigh hlow, ← hlast, List.count_cons_self,
            List.count_cons_of_ne hhigh', List.count_cons_of_ne hlow']
          simp only [List.length_cons]
          omega
        · obtain ⟨⟨next, hbroken⟩, hunescape⟩ := read_writtenBytes (fun _ => hbyte) offset
            (rest.flatMap (writtenBytes safe))
          rw [hbroken] at h
          have hshort := ih rest.length (by simp only [List.length_cons]; omega) rest h rfl
          rw [hunescape, List.count_cons_of_ne hbyte]
          simp only [List.length_cons]
          omega

/-! ## Texts -/

/-- Percent signs are to be left as they are, and there is one. -/
def Clashes (safe : String) (bytes : Bytes) : Prop := '%' ∈ safe.toList ∧ 0x25 ∈ bytes

theorem decode_encode_of_not_clashes {safe : String} {bytes : Bytes} (h : ¬Clashes safe bytes) :
    decode (String.ofList (encode safe bytes)) = (Utf8.decode bytes).mapError .notUtf8 := by
  have hkept : ∀ byte ∈ bytes, isKept safe byte = true → byte ≠ 0x25 := by
    rintro byte hbyte hkept rfl
    exact h ⟨isKept_percent_iff.1 hkept, hbyte⟩
  obtain ⟨hbroken, hunescape⟩ := unescape_encode hkept 0
  unfold decode
  simp only [encode_encode, hbroken, hunescape]
  cases Utf8.decode bytes <;> rfl

/-- A text whose percent signs were kept does not come back: what is read, if anything, is
    shorter. -/
theorem decode_encode_ne_of_clashes {safe : String} {text : String}
    (h : Clashes safe (Utf8.encode text)) :
    decode (String.ofList (encode safe (Utf8.encode text))) ≠ .ok text := by
  intro hdecode
  unfold decode at hdecode
  simp only [encode_encode] at hdecode
  split at hdecode
  · cases hdecode
  · next hbroken =>
      have hlength := length_unescape_encode (isKept_percent_iff.2 h.1) _ hbroken
      have hcount := List.count_pos_iff.2 h.2
      split at hdecode
      · cases hdecode
      · next decoded hdecoded =>
          obtain rfl := Except.ok.inj hdecode
          rw [← Utf8.decode_eq_ok_iff.1 hdecoded] at hlength
          omega

end Pipework.Percent
