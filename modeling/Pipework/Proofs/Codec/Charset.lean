import Pipework.Codec.Charset
import Pipework.Proofs.Text.Utf8

set_option autoImplicit false

/-! # Character sets read back

In every character set, writing and reading are inverse to each other (`encode_eq_ok_iff_decode`).
What is refused and where is said without either of them: a text is refused at its first character
that the set lacks (`encode_eq_error_iff`), bytes behind their longest start that is well formed in
the set (`decode_eq_error_iff`). UTF-8 is left to its own module; the two narrow sets are treated
alike, with the limit of a set as a parameter. -/

namespace Pipework

/-! ## The first item beyond a limit -/

theorem findIdx?_eq_some_iff_append {α : Type} {p : α → Bool} {items : List α} {index : Nat} :
    items.findIdx? p = some index ↔ ∃ before item after, items = before ++ item :: after ∧
      (∀ earlier ∈ before, p earlier = false) ∧ p item = true ∧ index = before.length := by
  constructor
  · intro h
    obtain ⟨hlt, hitem, hbefore⟩ := List.findIdx?_eq_some_iff_getElem.1 h
    refine ⟨items.take index, items[index], items.drop (index + 1), ?_, ?_, hitem, ?_⟩
    · rw [List.getElem_cons_drop, List.take_append_drop]
    · intro earlier hmem
      obtain ⟨i, hi, rfl⟩ := List.mem_take_iff_getElem.1 hmem
      simpa using hbefore i (by omega)
    · rw [List.length_take_of_le (by omega)]
  · rintro ⟨before, item, after, rfl, hbefore, hitem, rfl⟩
    have hnone : before.findIdx? p = none := List.findIdx?_eq_none_iff.2 hbefore
    simp [List.findIdx?_append, hnone, List.findIdx?_cons, hitem]

section Checked

variable {α β : Type} {code : α → Nat} {limit : Nat} {items : List α} {result other : β}
  {offset : Nat}

theorem checked_eq_ok_iff :
    (match items.findIdx? fun item => limit < code item with
      | some offset => Except.error offset
      | none => .ok result) = .ok other ↔
      (∀ item ∈ items, code item ≤ limit) ∧ result = other := by
  have hnone : items.findIdx? (fun item => limit < code item) = none ↔
      ∀ item ∈ items, code item ≤ limit := by
    simp [List.findIdx?_eq_none_iff]
  rw [← hnone]
  cases items.findIdx? fun item => limit < code item <;> simp

theorem checked_eq_error_iff :
    (match items.findIdx? fun item => limit < code item with
      | some offset => Except.error offset
      | none => .ok result) = .error offset ↔
      ∃ before item after, items = before ++ item :: after ∧
        (∀ earlier ∈ before, code earlier ≤ limit) ∧ limit < code item ∧
        offset = before.length := by
  have hsome : items.findIdx? (fun item => limit < code item) = some offset ↔
      ∃ before item after, items = before ++ item :: after ∧
        (∀ earlier ∈ before, code earlier ≤ limit) ∧ limit < code item ∧
        offset = before.length := by
    simp only [findIdx?_eq_some_iff_append, decide_eq_true_eq, decide_eq_false_iff_not, Nat.not_lt]
  rw [← hsome]
  cases items.findIdx? fun item => limit < code item <;> simp

end Checked

namespace Charset

/-- The character set has no bytes for the character. -/
def Lacks (charset : Charset) (c : Char) : Prop :=
  match charset with
  | .utf8 => False
  | .ascii => 0x7F < c.toNat
  | .latin1 => 0xFF < c.toNat

/-- The bytes are text in the character set. -/
def WellFormed (charset : Charset) (bytes : Bytes) : Prop :=
  match charset with
  | .utf8 => Utf8.WellFormed bytes
  | .ascii => ∀ byte ∈ bytes, byte.toNat ≤ 0x7F
  | .latin1 => True

/-! ## One byte for a character -/

section Narrow

variable {charset : Charset} {limit : Nat}

theorem limit_lt (h : charset.narrowLimit? = some limit) : limit < 256 := by
  cases charset <;> cases h <;> decide

theorem lacks_iff (h : charset.narrowLimit? = some limit) {c : Char} :
    charset.Lacks c ↔ limit < c.toNat := by
  cases charset <;> cases h <;> exact Iff.rfl

theorem wellFormed_iff (h : charset.narrowLimit? = some limit) {bytes : Bytes} :
    charset.WellFormed bytes ↔ ∀ byte ∈ bytes, byte.toNat ≤ limit := by
  cases charset with
  | utf8 => cases h
  | ascii =>
      cases h
      exact Iff.rfl
  | latin1 =>
      cases h
      exact ⟨fun _ byte _ => Nat.le_of_lt_succ byte.toNat_lt, fun _ => trivial⟩

theorem encode_eq_ok_iff_of_narrow (h : charset.narrowLimit? = some limit) {text : String}
    {bytes : Bytes} :
    charset.encode text = .ok bytes ↔ (∀ c ∈ text.toList, c.toNat ≤ limit) ∧
      text.toList.map (fun c => UInt8.ofNat c.toNat) = bytes := by
  rw [encode, h]
  exact checked_eq_ok_iff

theorem decode_eq_ok_iff_of_narrow (h : charset.narrowLimit? = some limit) {text : String}
    {bytes : Bytes} :
    charset.decode bytes = .ok text ↔ (∀ byte ∈ bytes, byte.toNat ≤ limit) ∧
      bytes.map (fun byte => Char.ofNat byte.toNat) = text.toList := by
  have hchars : ∀ chars : List Char, chars = text.toList ↔ String.ofList chars = text := by
    intro chars
    rw [← String.toList_inj, String.toList_ofList]
  rw [decode, h, hchars]
  exact checked_eq_ok_iff

/-- The code points up to the limit are the bytes up to the limit. -/
theorem encode_eq_ok_iff_decode_of_narrow (h : charset.narrowLimit? = some limit) {text : String}
    {bytes : Bytes} : charset.encode text = .ok bytes ↔ charset.decode bytes = .ok text := by
  have hlimit := limit_lt h
  rw [encode_eq_ok_iff_of_narrow h, decode_eq_ok_iff_of_narrow h]
  constructor
  · rintro ⟨hall, rfl⟩
    have hback : ∀ c ∈ text.toList, (UInt8.ofNat c.toNat).toNat = c.toNat := by
      intro c hc
      have hle := hall c hc
      rw [UInt8.toNat_ofNat']
      omega
    constructor
    · simp only [List.forall_mem_map]
      intro c hc
      rw [hback c hc]
      exact hall c hc
    · rw [List.map_map]
      refine (List.map_congr_left fun c hc => ?_).trans (List.map_id _)
      simp only [Function.comp_apply, hback c hc, Char.ofNat_toNat, id_eq]
  · rintro ⟨hall, hchars⟩
    rw [← hchars]
    constructor
    · simp only [List.forall_mem_map]
      intro byte hbyte
      rw [Utf8.toNat_ofNat_byte]
      exact hall byte hbyte
    · rw [List.map_map]
      refine (List.map_congr_left fun byte _ => ?_).trans (List.map_id _)
      simp only [Function.comp_apply, Utf8.toNat_ofNat_byte, UInt8.ofNat_toNat, id_eq]

theorem encode_eq_error_iff_of_narrow (h : charset.narrowLimit? = some limit) {text : String}
    {offset : Nat} :
    charset.encode text = .error offset ↔ ∃ before c after, text.toList = before ++ c :: after ∧
      (∀ earlier ∈ before, earlier.toNat ≤ limit) ∧ limit < c.toNat ∧ offset = before.length := by
  rw [encode, h]
  exact checked_eq_error_iff

theorem decode_eq_error_iff_of_narrow (h : charset.narrowLimit? = some limit) {bytes : Bytes}
    {offset : Nat} :
    charset.decode bytes = .error offset ↔ ∃ before byte after, bytes = before ++ byte :: after ∧
      (∀ earlier ∈ before, earlier.toNat ≤ limit) ∧ limit < byte.toNat ∧
        offset = before.length := by
  rw [decode, h]
  exact checked_eq_error_iff

/-- What comes before the first byte beyond the limit is the longest start without one. -/
theorem longestStart_of_narrow (h : charset.narrowLimit? = some limit) {before after : Bytes}
    {byte : UInt8} (hbefore : ∀ earlier ∈ before, earlier.toNat ≤ limit)
    (hbyte : limit < byte.toNat) :
    Bytes.LongestStart charset.WellFormed (before ++ byte :: after) before where
  starts := List.prefix_append ..
  holds := (wellFormed_iff h).2 hbefore
  longest := by
    intro other hother hwell
    refine Nat.le_of_not_lt fun hlong => ?_
    have hstart : before ++ [byte] <+: before ++ byte :: after := ⟨after, by simp⟩
    have hsub : before ++ [byte] <+: other :=
      List.prefix_of_prefix_length_le hstart hother (by simp; omega)
    have hle := (wellFormed_iff h).1 hwell byte (hsub.subset (by simp))
    omega

end Narrow

/-! ## All character sets -/

variable {charset : Charset} {text : String} {bytes : Bytes} {offset : Nat}

/-- **Writing and reading are inverse to each other.** -/
theorem encode_eq_ok_iff_decode :
    charset.encode text = .ok bytes ↔ charset.decode bytes = .ok text := by
  cases hlimit : charset.narrowLimit? with
  | none =>
      rw [encode, decode, hlimit, Utf8.decode_eq_ok_iff]
      exact ⟨Except.ok.inj, congrArg Except.ok⟩
  | some limit => exact encode_eq_ok_iff_decode_of_narrow hlimit

theorem eq_utf8_of_narrowLimit? (h : charset.narrowLimit? = none) : charset = utf8 := by
  cases charset with
  | utf8 => rfl
  | ascii | latin1 => cases h

/-- **A text is refused at the first character that the set lacks.** -/
theorem encode_eq_error_iff :
    charset.encode text = .error offset ↔
      ∃ before c after, text.toList = before ++ c :: after ∧
        (∀ earlier ∈ before, ¬charset.Lacks earlier) ∧ charset.Lacks c ∧
        offset = before.length := by
  cases hlimit : charset.narrowLimit? with
  | none =>
      obtain rfl := eq_utf8_of_narrowLimit? hlimit
      constructor
      · intro h
        cases h
      · rintro ⟨before, c, after, -, -, hlacks, -⟩
        exact hlacks.elim
  | some limit =>
      simp only [encode_eq_error_iff_of_narrow hlimit, lacks_iff hlimit, Nat.not_lt]

/-- A text can be written if the set lacks none of its characters. -/
theorem exists_encode_iff :
    (∃ bytes, charset.encode text = .ok bytes) ↔ ∀ c ∈ text.toList, ¬charset.Lacks c := by
  cases hlimit : charset.narrowLimit? with
  | none =>
      obtain rfl := eq_utf8_of_narrowLimit? hlimit
      exact ⟨fun _ _ _ hlacks => hlacks.elim, fun _ => ⟨_, rfl⟩⟩
  | some limit =>
      simp only [encode_eq_ok_iff_of_narrow hlimit, lacks_iff hlimit, Nat.not_lt]
      constructor
      · rintro ⟨bytes, hall, -⟩
        exact hall
      · intro hall
        exact ⟨_, hall, rfl⟩

/-- The well-formed bytes are those that can be read. -/
theorem exists_decode_iff : (∃ text, charset.decode bytes = .ok text) ↔ charset.WellFormed bytes := by
  cases hlimit : charset.narrowLimit? with
  | none =>
      obtain rfl := eq_utf8_of_narrowLimit? hlimit
      show (∃ text, Utf8.decode bytes = .ok text) ↔ Utf8.WellFormed bytes
      simp only [Utf8.decode_eq_ok_iff, Utf8.exists_encode_iff]
  | some limit =>
      simp only [decode_eq_ok_iff_of_narrow hlimit, wellFormed_iff hlimit]
      constructor
      · rintro ⟨text, hall, -⟩
        exact hall
      · intro hall
        exact ⟨String.ofList _, hall, String.toList_ofList.symm⟩

theorem exists_longestStart (h : charset.decode bytes = .error offset) :
    ∃ start, Bytes.LongestStart charset.WellFormed bytes start ∧ offset = start.length := by
  cases hlimit : charset.narrowLimit? with
  | none =>
      obtain rfl := eq_utf8_of_narrowLimit? hlimit
      exact Utf8.exists_longestStart h
  | some limit =>
      obtain ⟨before, byte, after, rfl, hbefore, hbyte, rfl⟩ :=
        (decode_eq_error_iff_of_narrow hlimit).1 h
      exact ⟨before, longestStart_of_narrow hlimit hbefore hbyte, rfl⟩

/-- **Bytes are refused behind their longest well-formed start.** -/
theorem decode_eq_error_iff :
    charset.decode bytes = .error offset ↔
      ¬charset.WellFormed bytes ∧
        ∃ start, Bytes.LongestStart charset.WellFormed bytes start ∧ offset = start.length := by
  rw [← exists_decode_iff]
  cases hdecode : charset.decode bytes with
  | ok text => simp
  | error found =>
      obtain ⟨start, hstart, rfl⟩ := exists_longestStart hdecode
      simp only [Except.error.injEq, reduceCtorEq, exists_false, not_false_eq_true, true_and]
      constructor
      · rintro rfl
        exact ⟨start, hstart, rfl⟩
      · rintro ⟨other, hother, rfl⟩
        exact hstart.length_eq hother

end Charset

end Pipework
