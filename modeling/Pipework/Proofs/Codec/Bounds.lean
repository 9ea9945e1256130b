import Pipework.Proofs.Codec.Percent

set_option autoImplicit false

/-! # Places that are in range

A refused hexadecimal text has the place of its fault looked up in a table of offsets, blocks of
bytes are cut by a size that must not be zero, and percent-encoded text is searched for percent
signs in slices that are cut off at an offset. Here these three are written with the lookup, the
cut and the slice as operations that have no result outside of their domain, and each is shown to
have the result of its codec: `Hex.decodeByTable_eq`, `Hex.encodeByChunks_eq` and
`Percent.decodeBySlices_eq`. -/

namespace Pipework

/-! ## The table of offsets -/

namespace Hex

/-- Where the bytes of the characters stand that are no blanks; `offset` bytes come before. -/
def offsets (offset : Nat) : List Char → List Nat
  | [] => []
  | c :: rest =>
    if Text.isBlank c then offsets (offset + c.utf8Size) rest
    else List.range' offset c.utf8Size ++ offsets (offset + c.utf8Size) rest

/-- The byte is no digit. -/
def isForeign (byte : UInt8) : Bool := (digitValue? (Char.ofNat byte.toNat)).isNone

/-- The character is neither a digit nor a blank. -/
def isOffending (c : Char) : Bool := !Text.isBlank c && (digitValue? c).isNone

/-- The bytes that `text` spells. Digits are read without the blanks between them, so the index of
    the first byte that is none is looked up in the table; there is no result if it is not there. -/
def decodeByTable (text : List Char) : Option (Except Error Bytes) :=
  match decodePairs (dense text) with
  | some bytes => some (.ok bytes)
  | none =>
    if Utf8.byteLength (dense text) % 2 = 1 then some (.error .oddLength)
    else
      let index := (Utf8.encode (String.ofList (dense text))).findIdx isForeign
      ((offsets 0 text)[index]?).map fun offset => .error (.invalidDigit offset)

theorem lt_of_digitValue? {c : Char} {value : Nat} (h : digitValue? c = some value) :
    c.toNat < 128 := by
  have hrange := toNat_of_digitValue? h
  omega

theorem isForeign_ofNat {c : Char} (h : c.toNat < 128) :
    isForeign (UInt8.ofNat c.toNat) = (digitValue? c).isNone := by
  have hbyte : (UInt8.ofNat c.toNat).toNat = c.toNat := by
    rw [UInt8.toNat_ofNat']
    omega
  rw [isForeign, hbyte, Char.ofNat_toNat]

/-- A character that is no digit begins with a byte that is none, be it a single byte or not. -/
theorem isForeign_of_mem {c : Char} (h : digitValue? c = none) {byte : UInt8}
    (hbyte : byte ∈ String.utf8EncodeChar c) : isForeign byte = true := by
  by_cases hascii : c.toNat < 128
  · rw [Utf8.encodeChar_of_lt hascii, List.mem_singleton] at hbyte
    rw [hbyte, isForeign_ofNat hascii, h]
    rfl
  · have hle := Utf8.le_of_mem_encodeChar (Nat.not_lt.1 hascii) hbyte
    rw [isForeign, Option.isNone_iff_eq_none]
    cases hvalue : digitValue? (Char.ofNat byte.toNat) with
    | none => rfl
    | some value =>
        have hlt := lt_of_digitValue? hvalue
        rw [Utf8.toNat_ofNat_byte] at hlt
        omega

/-- **The table has an entry for the first byte that is no digit**, and it is the place of the
    first character that is neither a digit nor a blank. -/
theorem offsets_getElem?_findIdx {text : List Char} (h : ∃ c ∈ text, isOffending c = true)
    (offset : Nat) :
    (offsets offset text)[((dense text).flatMap String.utf8EncodeChar).findIdx isForeign]? =
      some (offset + offsetOf isOffending text) := by
  induction text generalizing offset with
  | nil =>
      obtain ⟨c, hc, -⟩ := h
      cases hc
  | cons c rest ih =>
      by_cases hoffending : isOffending c = true
      · -- the table begins with this character, and so do the bytes
        obtain ⟨hblank, hvalue⟩ := Bool.and_eq_true_iff.1 hoffending
        rw [Bool.not_eq_true'] at hblank
        rw [Option.isNone_iff_eq_none] at hvalue
        obtain ⟨size, hsize⟩ := Nat.exists_eq_add_of_lt c.utf8Size_pos
        rw [Nat.zero_add] at hsize
        obtain ⟨byte, more, hbytes⟩ := Utf8.exists_encodeChar_eq_cons c
        have hforeign : isForeign byte = true := isForeign_of_mem hvalue (by simp [hbytes])
        have hdense : dense (c :: rest) = c :: dense rest := by simp [dense, hblank]
        rw [hdense, List.flatMap_cons, hbytes, List.cons_append, List.findIdx_cons, hforeign,
          offsets, hblank, hsize, offsetOf, if_pos hoffending]
        simp [List.range'_succ]
      · have hrest : ∃ c ∈ rest, isOffending c = true := by
          obtain ⟨d, hd, hd'⟩ := h
          rcases List.mem_cons.1 hd with rfl | hd
          · exact absurd hd' hoffending
          · exact ⟨d, hd, hd'⟩
        rw [offsetOf, if_neg hoffending, ← Nat.add_assoc]
        by_cases hblank : Text.isBlank c = true
        · have hdense : dense (c :: rest) = dense rest := by simp [dense, hblank]
          rw [hdense, offsets, if_pos hblank]
          exact ih hrest _
        · -- a digit is a single byte, which takes one place in the table
          obtain ⟨value, hvalue⟩ : ∃ value, digitValue? c = some value := by
            refine Option.ne_none_iff_exists'.1 ?_
            simpa [isOffending, hblank] using hoffending
          have hascii := lt_of_digitValue? hvalue
          have hdense : dense (c :: rest) = c :: dense rest := by simp [dense, hblank]
          have hdigit : isForeign (UInt8.ofNat c.toNat) = false := by
            rw [isForeign_ofNat hascii, hvalue]
            rfl
          rw [hdense, List.flatMap_cons, Utf8.encodeChar_of_lt hascii, List.singleton_append,
            List.findIdx_cons, hdigit, offsets, if_neg hblank, Utf8.utf8Size_of_lt hascii]
          exact ih hrest _

theorem decodePairs_isSome {digits : List Char} (h : ∀ c ∈ digits, (digitValue? c).isSome = true)
    (heven : digits.length % 2 = 0) : (decodePairs digits).isSome = true := by
  fun_induction decodePairs digits with
  | case1 => rfl
  | case2 => cases heven
  | case3 high low rest ih =>
      obtain ⟨m, hm⟩ := Option.isSome_iff_exists.1 (h high (by simp))
      obtain ⟨n, hn⟩ := Option.isSome_iff_exists.1 (h low (by simp))
      obtain ⟨bytes, hbytes⟩ := Option.isSome_iff_exists.1
        (ih (fun c hc => h c (by simp [hc])) (by simp only [List.length_cons] at heven; omega))
      simp [hm, hn, hbytes]

/-- If an even number of bytes spells nothing, some of them are to blame. -/
theorem exists_isOffending {text : List Char} (h : decodePairs (dense text) = none)
    (heven : Utf8.byteLength (dense text) % 2 ≠ 1) : ∃ c ∈ text, isOffending c = true := by
  by_contra hnone
  have hdigits : ∀ c ∈ dense text, (digitValue? c).isSome = true := by
    intro c hc
    obtain ⟨hmem, hblank⟩ := List.mem_filter.1 hc
    rw [← Bool.not_eq_false, Option.isSome_eq_false_iff]
    intro hvalue
    exact hnone ⟨c, hmem, by rw [isOffending, hblank, hvalue]; rfl⟩
  have hlength : Utf8.byteLength (dense text) = (dense text).length := by
    refine Utf8.byteLength_of_lt fun c hc => ?_
    obtain ⟨value, hvalue⟩ := Option.isSome_iff_exists.1 (hdigits c hc)
    exact lt_of_digitValue? hvalue
  have hsome := decodePairs_isSome hdigits (by omega)
  rw [h] at hsome
  cases hsome

/-- The lookup never fails. -/
theorem decodeByTable_eq (text : List Char) : decodeByTable text = some (decode text) := by
  have hdense : text.filter (fun c => !Text.isBlank c) = dense text := rfl
  unfold decodeByTable decode
  simp only [hdense]
  cases hpairs : decodePairs (dense text) with
  | some bytes => rfl
  | none =>
      by_cases hodd : Utf8.byteLength (dense text) % 2 = 1
      · simp only [if_pos hodd]
      · have hlookup := offsets_getElem?_findIdx (exists_isOffending hpairs hodd) 0
        simp only [if_neg hodd]
        rw [Utf8.encode_ofList, hlookup, Nat.zero_add]
        rfl

/-! ## Blocks -/

/-- `items` in chunks of a size that must not be zero. -/
def chunks? {α : Type} (size : Nat) (items : List α) : Option (List (List α)) :=
  match size with
  | 0 => none
  | size + 1 => some (blocks size items)

/-- The digits of `bytes`, in chunks if there is a separator and a size for them. -/
def encodeByChunks (upper : Bool) (separator : List Char) (perBlock : Nat) (bytes : Bytes) :
    Option (List Char) :=
  if separator ≠ [] ∧ 0 < perBlock then
    (chunks? perBlock bytes).map fun pieces => separator.intercalate (pieces.map (encode upper))
  else some (encode upper bytes)

/-- Chunks are cut only by sizes that are not zero. -/
theorem encodeByChunks_eq (upper : Bool) (separator : List Char) (perBlock : Nat) (bytes : Bytes) :
    encodeByChunks upper separator perBlock bytes =
      some (encodeBlocks upper separator perBlock bytes) := by
  cases separator with
  | nil => simp [encodeByChunks, encodeBlocks]
  | cons c rest =>
      cases perBlock with
      | zero => simp [encodeByChunks, encodeBlocks]
      | succ size => simp [encodeByChunks, encodeBlocks, chunks?]

end Hex

/-! ## Slices -/

namespace Percent

/-- What follows the first `offset` bytes, of which there must be as many. -/
def behind? (bytes : Bytes) (offset : Nat) : Option Bytes :=
  if offset ≤ bytes.length then some (bytes.drop offset) else none

/-- The byte at this place is followed by two digits. -/
def startsEscape (bytes : Bytes) (place : Nat) : Bool :=
  match bytes.drop (place + 1) with
  | high :: low :: _ => (hexValue? high).isSome && (hexValue? low).isSome
  | _ => false

/-- The offset of the first percent sign from `offset` on that starts no escape. Every search is
    for the next percent sign in a slice. -/
def searchFrom (bytes : Bytes) (offset : Nat) : Option (Option Nat) :=
  match _ : behind? bytes offset with
  | none => none
  | some slice =>
    match slice.findIdx? (· == 0x25) with
    | none => some none
    | some found =>
      if startsEscape bytes (offset + found) then searchFrom bytes (offset + found + 3)
      else some (some (offset + found))
termination_by bytes.length + 1 - offset
decreasing_by
  have hle : offset ≤ bytes.length := by
    by_contra hlt
    rw [behind?, if_neg hlt] at *
    contradiction
  omega

/-- The text that `text` encodes. -/
def decodeBySlices (text : String) : Option (Except Error String) :=
  let bytes := Utf8.encode text
  (searchFrom bytes 0).map fun broken =>
    match broken with
    | some offset => .error (.incompleteEscape offset)
    | none =>
      match Utf8.decode (unescape bytes) with
      | .error validUpTo => .error (.notUtf8 validUpTo)
      | .ok decoded => .ok decoded

theorem brokenEscape?_of_findIdx?_eq_none {bytes : Bytes}
    (h : bytes.findIdx? (· == 0x25) = none) (offset : Nat) : brokenEscape? offset bytes = none := by
  induction bytes generalizing offset with
  | nil => rfl
  | cons byte rest ih =>
      by_cases hbyte : byte = 0x25
      · simp [List.findIdx?_cons, hbyte] at h
      · rw [brokenEscape?_cons hbyte]
        refine ih ?_ _
        simpa [List.findIdx?_cons, hbyte] using h

/-- Bytes before the first percent sign are passed over. -/
theorem exists_drop_of_findIdx? {bytes : Bytes} {found : Nat}
    (h : bytes.findIdx? (· == 0x25) = some found) (offset : Nat) :
    ∃ tail, bytes.drop found = 0x25 :: tail ∧
      brokenEscape? offset bytes = brokenEscape? (offset + found) (0x25 :: tail) := by
  induction bytes generalizing offset found with
  | nil => cases h
  | cons byte rest ih =>
      by_cases hbyte : byte = 0x25
      · have hzero : found = 0 := by
          simpa [List.findIdx?_cons, hbyte] using h.symm
        subst hzero hbyte
        exact ⟨rest, rfl, rfl⟩
      · obtain ⟨index, hindex, rfl⟩ : ∃ index,
            rest.findIdx? (· == 0x25) = some index ∧ index + 1 = found := by
          simpa [List.findIdx?_cons, hbyte] using h
        obtain ⟨tail, htail, hbroken⟩ := ih hindex (offset + 1)
        refine ⟨tail, htail, ?_⟩
        rw [brokenEscape?_cons hbyte, hbroken, Nat.add_right_comm, Nat.add_assoc]

/-- Either an escape starts at a percent sign, and reading goes on behind it, or reading stops. -/
theorem brokenEscape?_of_drop {bytes tail : Bytes} {place : Nat}
    (h : bytes.drop place = 0x25 :: tail) :
    if startsEscape bytes place then
      place + 3 ≤ bytes.length ∧
        brokenEscape? place (0x25 :: tail) = brokenEscape? (place + 3) (bytes.drop (place + 3))
    else brokenEscape? place (0x25 :: tail) = some place := by
  have htail : bytes.drop (place + 1) = tail := by
    rw [← List.drop_drop, h]
    rfl
  rw [startsEscape, htail]
  match tail with
  | [] => rfl
  | [high] => rfl
  | high :: low :: rest =>
      have hrest : bytes.drop (place + 3) = rest := by
        rw [← List.drop_drop, h]
        rfl
      have hlength : place + 3 ≤ bytes.length := by
        have hcount := congrArg List.length h
        simp only [List.length_drop, List.length_cons] at hcount
        omega
      rw [hrest, brokenEscape?]
      by_cases hdigits : ((hexValue? high).isSome && (hexValue? low).isSome) = true
      · simp only [hdigits, if_true]
        exact ⟨hlength, trivial⟩
      · simp only [hdigits]
        rfl

/-- Every slice begins within the text: the search starts there, and goes on behind two digits. -/
theorem searchFrom_eq {bytes : Bytes} {offset : Nat} (h : offset ≤ bytes.length) :
    searchFrom bytes offset = some (brokenEscape? offset (bytes.drop offset)) := by
  have hslice : behind? bytes offset = some (bytes.drop offset) := if_pos h
  fun_induction searchFrom bytes offset with
  | case1 offset hnone => cases hnone.symm.trans hslice
  | case2 offset slice hsome hfind =>
      obtain rfl := Option.some.inj (hsome.symm.trans hslice)
      rw [brokenEscape?_of_findIdx?_eq_none hfind]
  | case3 offset slice hsome found hfind hescape ih =>
      obtain rfl := Option.some.inj (hsome.symm.trans hslice)
      obtain ⟨tail, htail, hbroken⟩ := exists_drop_of_findIdx? hfind offset
      rw [List.drop_drop] at htail
      have hnext := brokenEscape?_of_drop htail
      rw [if_pos hescape] at hnext
      rw [ih hnext.1 (if_pos hnext.1), hbroken, hnext.2]
  | case4 offset slice hsome found hfind hescape =>
      obtain rfl := Option.some.inj (hsome.symm.trans hslice)
      obtain ⟨tail, htail, hbroken⟩ := exists_drop_of_findIdx? hfind offset
      rw [List.drop_drop] at htail
      have hnext := brokenEscape?_of_drop htail
      rw [if_neg hescape] at hnext
      rw [hbroken, hnext]

/-- No slice is out of range. -/
theorem decodeBySlices_eq (text : String) : decodeBySlices text = some (decode text) := by
  have hsearch : searchFrom (Utf8.encode text) 0 = some (brokenEscape? 0 (Utf8.encode text)) :=
    searchFrom_eq (Nat.zero_le _)
  unfold decodeBySlices decode
  simp only [hsearch]
  cases brokenEscape? 0 (Utf8.encode text) <;> rfl

end Percent

end Pipework
