import Pipework.Codec.Base64
import Pipework.Text.Blank

set_option autoImplicit false

/-! # Base64 reads back

A text is read as some bytes exactly if it is what is written for them (`Base64.decode_eq_ok_iff`).
Reading and writing agree symbol by symbol (`symbolValue?_eq_some_iff`) and then group by group;
a group of one or two bytes leaves spare bits, which writing clears and reading insists on. The
format itself, `Spells`, gives three bytes and four symbols the same number, and there is one text
for every byte string (`spells_iff`). -/

namespace Pipework.Base64

/-! ## Symbols -/

theorem symbolValue?_symbol {value : Nat} (h : value < 64) :
    symbolValue? (symbol value) = some value := by
  decide +revert

theorem symbol_ne_padding {value : Nat} (h : value < 64) : symbol value ≠ '=' := by
  decide +revert

theorem toNat_sub_lt {first last c : Char} {count : Nat} (h : first ≤ c ∧ c ≤ last)
    (hcount : last.toNat - first.toNat < count) : c.toNat - first.toNat < count := by
  have hlast : c.toNat ≤ last.toNat := h.2
  omega

/-- A character of a range, from its distance to the start. -/
theorem ofNat_toNat_add_sub {first c : Char} (h : first ≤ c) :
    Char.ofNat (first.toNat + (c.toNat - first.toNat)) = c := by
  have hle : first.toNat ≤ c.toNat := h
  rw [Nat.add_sub_cancel' hle, Char.ofNat_toNat]

/-- Symbols and the values below 64 are in one-to-one correspondence. -/
theorem symbolValue?_eq_some_iff {c : Char} {value : Nat} :
    symbolValue? c = some value ↔ value < 64 ∧ symbol value = c := by
  constructor
  · intro h
    rw [symbolValue?] at h
    split at h
    · next hrange =>
        obtain rfl := Option.some.inj h
        have hbelow : c.toNat - 'A'.toNat < 26 := toNat_sub_lt hrange (by decide)
        refine ⟨by omega, ?_⟩
        rw [symbol, if_pos hbelow, ofNat_toNat_add_sub hrange.1]
    · split at h
      · next hrange =>
          obtain rfl := Option.some.inj h
          have hbelow : c.toNat - 'a'.toNat < 26 := toNat_sub_lt hrange (by decide)
          refine ⟨by omega, ?_⟩
          rw [symbol, if_neg (by omega), if_pos (by omega), Nat.add_sub_cancel,
            ofNat_toNat_add_sub hrange.1]
      · split at h
        · next hrange =>
            obtain rfl := Option.some.inj h
            have hbelow : c.toNat - '0'.toNat < 10 := toNat_sub_lt hrange (by decide)
            refine ⟨by omega, ?_⟩
            rw [symbol, if_neg (by omega), if_neg (by omega), if_pos (by omega),
              Nat.add_sub_cancel, ofNat_toNat_add_sub hrange.1]
        · split at h
          · next hplus =>
              obtain rfl := Option.some.inj h
              exact ⟨by decide, hplus.symm⟩
          · split at h
            · next hslash =>
                obtain rfl := Option.some.inj h
                exact ⟨by decide, hslash.symm⟩
            · cases h
  · rintro ⟨hlt, rfl⟩
    exact symbolValue?_symbol hlt

/-! ## Groups -/

/-- A group of four symbols stands for three bytes. -/
theorem decodeGroups_symbols {a b c d : Nat} (ha : a < 64) (hb : b < 64) (hc : c < 64)
    (hd : d < 64) (rest : List Char) :
    decodeGroups (symbol a :: symbol b :: symbol c :: symbol d :: rest) =
      (decodeGroups rest).map fun bytes =>
        let n := ((a * 64 + b) * 64 + c) * 64 + d
        UInt8.ofNat (n / 65536) :: UInt8.ofNat (n / 256 % 256) :: UInt8.ofNat (n % 256) ::
          bytes := by
  have hpad := symbol_ne_padding hd
  rw [decodeGroups.eq_4 _ _ _ _ _ (fun _ h => absurd h hpad) (fun h => absurd h hpad)]
  simp only [symbolValue?_symbol ha, symbolValue?_symbol hb, symbolValue?_symbol hc,
    symbolValue?_symbol hd, Option.bind_eq_bind, Option.bind_some]
  cases decodeGroups rest <;> rfl

theorem decodeGroups_encode (bytes : Bytes) : decodeGroups (encode bytes) = some bytes := by
  induction bytes using encode.induct with
  | case1 => rfl
  | case2 a =>
      have ha := a.toNat_lt
      rw [encode, decodeGroups, symbolValue?_symbol (by omega), symbolValue?_symbol (by omega)]
      simp only [Option.bind_eq_bind, Option.bind_some]
      rw [if_pos (by omega)]
      have hbyte : (a.toNat * 16 / 64 * 64 + a.toNat * 16 % 64) / 16 = a.toNat := by omega
      rw [hbyte, UInt8.ofNat_toNat]
      rfl
  | case3 a b =>
      have ha := a.toNat_lt
      have hb := b.toNat_lt
      -- the two bits to spare are zero
      generalize hn : (a.toNat * 256 + b.toNat) * 4 = n
      have hpad : symbol (n % 64) ≠ '=' := symbol_ne_padding (by omega)
      rw [encode, hn, decodeGroups.eq_3 _ _ _ hpad, symbolValue?_symbol (by omega),
        symbolValue?_symbol (by omega), symbolValue?_symbol (by omega)]
      simp only [Option.bind_eq_bind, Option.bind_some]
      rw [if_pos (by omega)]
      have hfirst : ((n / 4096 * 64 + n / 64 % 64) * 64 + n % 64) / 1024 = a.toNat := by omega
      have hsecond : ((n / 4096 * 64 + n / 64 % 64) * 64 + n % 64) / 4 % 256 = b.toNat := by omega
      rw [hfirst, hsecond, UInt8.ofNat_toNat, UInt8.ofNat_toNat]
      rfl
  | case4 a b c rest ih =>
      have ha := a.toNat_lt
      have hb := b.toNat_lt
      have hc := c.toNat_lt
      rw [encode]
      generalize hn : (a.toNat * 256 + b.toNat) * 256 + c.toNat = n
      rw [decodeGroups_symbols (by omega) (by omega) (by omega) (by omega), ih]
      -- four symbols of six bits make three bytes of eight
      have hjoin : ((n / 262144 * 64 + n / 4096 % 64) * 64 + n / 64 % 64) * 64 + n % 64 = n := by
        omega
      have hfirst : n / 65536 = a.toNat := by omega
      have hsecond : n / 256 % 256 = b.toNat := by omega
      have hthird : n % 256 = c.toNat := by omega
      simp only [Option.map_some, hjoin, hfirst, hsecond, hthird, UInt8.ofNat_toNat]

theorem encode_of_decodeGroups {chars : List Char} {bytes : Bytes}
    (h : decodeGroups chars = some bytes) : encode bytes = chars := by
  induction chars using decodeGroups.induct generalizing bytes with
  | case1 =>
      obtain rfl := Option.some.inj h
      rfl
  | case2 a b =>
      simp only [decodeGroups, Option.bind_eq_bind, Option.bind_eq_some_iff] at h
      obtain ⟨x, hx, y, hy, h⟩ := h
      obtain ⟨hxlt, rfl⟩ := symbolValue?_eq_some_iff.1 hx
      obtain ⟨hylt, rfl⟩ := symbolValue?_eq_some_iff.1 hy
      split at h
      · obtain rfl := Option.some.inj h
        have hn : (UInt8.ofNat ((x * 64 + y) / 16)).toNat * 16 = x * 64 + y := by
          simp only [UInt8.toNat_ofNat']
          omega
        have hfirst : (x * 64 + y) / 64 = x := by omega
        have hsecond : (x * 64 + y) % 64 = y := by omega
        simp only [encode, hn, hfirst, hsecond]
      · cases h
  | case3 a b c hc =>
      rw [decodeGroups.eq_3 _ _ _ hc] at h
      simp only [Option.bind_eq_bind, Option.bind_eq_some_iff] at h
      obtain ⟨x, hx, y, hy, z, hz, h⟩ := h
      obtain ⟨hxlt, rfl⟩ := symbolValue?_eq_some_iff.1 hx
      obtain ⟨hylt, rfl⟩ := symbolValue?_eq_some_iff.1 hy
      obtain ⟨hzlt, rfl⟩ := symbolValue?_eq_some_iff.1 hz
      generalize hjoin : (x * 64 + y) * 64 + z = n at h
      split at h
      · obtain rfl := Option.some.inj h
        have hn : ((UInt8.ofNat (n / 1024)).toNat * 256 + (UInt8.ofNat (n / 4 % 256)).toNat) * 4 =
            n := by
          simp only [UInt8.toNat_ofNat']
          omega
        have hfirst : n / 4096 = x := by omega
        have hsecond : n / 64 % 64 = y := by omega
        have hthird : n % 64 = z := by omega
        simp only [encode, hn, hfirst, hsecond, hthird]
      · cases h
  | case4 a b c d rest hc hd ih =>
      rw [decodeGroups.eq_4 _ _ _ _ _ hc hd] at h
      simp only [Option.bind_eq_bind, Option.bind_eq_some_iff] at h
      obtain ⟨x, hx, y, hy, z, hz, w, hw, more, hmore, h⟩ := h
      obtain ⟨hxlt, rfl⟩ := symbolValue?_eq_some_iff.1 hx
      obtain ⟨hylt, rfl⟩ := symbolValue?_eq_some_iff.1 hy
      obtain ⟨hzlt, rfl⟩ := symbolValue?_eq_some_iff.1 hz
      obtain ⟨hwlt, rfl⟩ := symbolValue?_eq_some_iff.1 hw
      generalize hjoin : ((x * 64 + y) * 64 + z) * 64 + w = n at h
      obtain rfl := Option.some.inj h
      have hn : ((UInt8.ofNat (n / 65536)).toNat * 256 + (UInt8.ofNat (n / 256 % 256)).toNat) * 256 +
          (UInt8.ofNat (n % 256)).toNat = n := by
        simp only [UInt8.toNat_ofNat']
        omega
      have hfirst : n / 262144 = x := by omega
      have hsecond : n / 4096 % 64 = y := by omega
      have hthird : n / 64 % 64 = z := by omega
      have hfourth : n % 64 = w := by omega
      simp only [encode, hn, hfirst, hsecond, hthird, hfourth, ih hmore]
  | case5 chars hnil hone htwo hthree =>
      rw [decodeGroups.eq_5 chars hnil hone htwo hthree] at h
      cases h

/-! ## The format -/

/-- The symbols in the order of their values. -/
def alphabet : List Char :=
  "ABCDEFGHIJKLMNOPQRSTUVWXYZabcdefghijklmnopqrstuvwxyz0123456789+/".toList

/-- `chars` are the symbols of `bytes`: a group of bytes, with zeros behind it up to a whole symbol,
    is the same number as its symbols, and padding fills the place of the symbols that a group of
    less than three bytes does not need. -/
inductive Spells : Bytes → List Char → Prop
  | nil : Spells [] []
  | one {a : UInt8} {p q : Nat} {w x : Char} (hw : alphabet[p]? = some w)
      (hx : alphabet[q]? = some x) (h : p * 64 + q = a.toNat * 16) : Spells [a] [w, x, '=', '=']
  | two {a b : UInt8} {p q r : Nat} {w x y : Char} (hw : alphabet[p]? = some w)
      (hx : alphabet[q]? = some x) (hy : alphabet[r]? = some y)
      (h : (p * 64 + q) * 64 + r = (a.toNat * 256 + b.toNat) * 4) : Spells [a, b] [w, x, y, '=']
  | three {a b c : UInt8} {p q r s : Nat} {w x y z : Char} {bytes : Bytes} {chars : List Char}
      (hw : alphabet[p]? = some w) (hx : alphabet[q]? = some x) (hy : alphabet[r]? = some y)
      (hz : alphabet[s]? = some z)
      (h : ((p * 64 + q) * 64 + r) * 64 + s = (a.toNat * 256 + b.toNat) * 256 + c.toNat)
      (hrest : Spells bytes chars) : Spells (a :: b :: c :: bytes) (w :: x :: y :: z :: chars)

theorem alphabet_eq_map_symbol : alphabet = (List.range 64).map symbol := by decide

theorem alphabet_getElem?_eq_some_iff {value : Nat} {c : Char} :
    alphabet[value]? = some c ↔ value < 64 ∧ symbol value = c := by
  rw [alphabet_eq_map_symbol]
  by_cases h : value < 64 <;> simp [h]

theorem spells_encode (bytes : Bytes) : Spells bytes (encode bytes) := by
  have hsymbol {value : Nat} (h : value < 64) : alphabet[value]? = some (symbol value) :=
    alphabet_getElem?_eq_some_iff.2 ⟨h, rfl⟩
  induction bytes using encode.induct with
  | case1 => exact .nil
  | case2 a =>
      have ha := a.toNat_lt
      exact .one (hsymbol (by omega)) (hsymbol (by omega)) (by omega)
  | case3 a b =>
      have ha := a.toNat_lt
      have hb := b.toNat_lt
      exact .two (hsymbol (by omega)) (hsymbol (by omega)) (hsymbol (by omega)) (by omega)
  | case4 a b c rest ih =>
      have ha := a.toNat_lt
      have hb := b.toNat_lt
      have hc := c.toNat_lt
      exact .three (hsymbol (by omega)) (hsymbol (by omega)) (hsymbol (by omega))
        (hsymbol (by omega)) (by omega) ih

/-- **What is written is the one text that spells the bytes.** -/
theorem spells_iff {bytes : Bytes} {chars : List Char} :
    Spells bytes chars ↔ encode bytes = chars := by
  constructor
  · intro h
    induction h with
    | nil => rfl
    | @one a p q w x hw hx h =>
        obtain ⟨hp, rfl⟩ := alphabet_getElem?_eq_some_iff.1 hw
        obtain ⟨hq, rfl⟩ := alphabet_getElem?_eq_some_iff.1 hx
        have hfirst : a.toNat * 16 / 64 = p := by omega
        have hsecond : a.toNat * 16 % 64 = q := by omega
        simp only [encode, hfirst, hsecond]
    | @two a b p q r w x y hw hx hy h =>
        obtain ⟨hp, rfl⟩ := alphabet_getElem?_eq_some_iff.1 hw
        obtain ⟨hq, rfl⟩ := alphabet_getElem?_eq_some_iff.1 hx
        obtain ⟨hr, rfl⟩ := alphabet_getElem?_eq_some_iff.1 hy
        have hfirst : (a.toNat * 256 + b.toNat) * 4 / 4096 = p := by omega
        have hsecond : (a.toNat * 256 + b.toNat) * 4 / 64 % 64 = q := by omega
        have hthird : (a.toNat * 256 + b.toNat) * 4 % 64 = r := by omega
        simp only [encode, hfirst, hsecond, hthird]
    | @three a b c p q r s w x y z bytes chars hw hx hy hz h _ ih =>
        obtain ⟨hp, rfl⟩ := alphabet_getElem?_eq_some_iff.1 hw
        obtain ⟨hq, rfl⟩ := alphabet_getElem?_eq_some_iff.1 hx
        obtain ⟨hr, rfl⟩ := alphabet_getElem?_eq_some_iff.1 hy
        obtain ⟨hs, rfl⟩ := alphabet_getElem?_eq_some_iff.1 hz
        generalize hn : (a.toNat * 256 + b.toNat) * 256 + c.toNat = n at h
        have hfirst : n / 262144 = p := by omega
        have hsecond : n / 4096 % 64 = q := by omega
        have hthird : n / 64 % 64 = r := by omega
        have hfourth : n % 64 = s := by omega
        simp only [encode, hn, hfirst, hsecond, hthird, hfourth, ih]
  · rintro rfl
    exact spells_encode bytes

/-! ## Texts -/

/-- Every three bytes take four symbols, and so do those of an incomplete group. -/
theorem length_encode (bytes : Bytes) : (encode bytes).length = 4 * ((bytes.length + 2) / 3) := by
  induction bytes using encode.induct with
  | case1 => rfl
  | case2 a => simp [encode]
  | case3 a b => simp [encode]
  | case4 a b c rest ih =>
      simp only [encode, List.length_cons, ih]
      omega

/-- What is written holds symbols and padding alone. -/
theorem eq_padding_or_symbol_of_mem_encode {bytes : Bytes} {c : Char} (h : c ∈ encode bytes) :
    c = '=' ∨ ∃ value < 64, symbol value = c := by
  induction bytes using encode.induct with
  | case1 => cases h
  | case2 a =>
      have ha := a.toNat_lt
      simp only [encode, List.mem_cons, List.not_mem_nil, or_false] at h
      rcases h with rfl | rfl | rfl | rfl
      · exact Or.inr ⟨_, by omega, rfl⟩
      · exact Or.inr ⟨_, by omega, rfl⟩
      · exact Or.inl rfl
      · exact Or.inl rfl
  | case3 a b =>
      have ha := a.toNat_lt
      have hb := b.toNat_lt
      simp only [encode, List.mem_cons, List.not_mem_nil, or_false] at h
      rcases h with rfl | rfl | rfl | rfl
      · exact Or.inr ⟨_, by omega, rfl⟩
      · exact Or.inr ⟨_, by omega, rfl⟩
      · exact Or.inr ⟨_, by omega, rfl⟩
      · exact Or.inl rfl
  | case4 a b c rest ih =>
      have ha := a.toNat_lt
      have hb := b.toNat_lt
      have hc := c.toNat_lt
      simp only [encode, List.mem_cons] at h
      rcases h with rfl | rfl | rfl | rfl | h
      · exact Or.inr ⟨_, by omega, rfl⟩
      · exact Or.inr ⟨_, by omega, rfl⟩
      · exact Or.inr ⟨_, by omega, rfl⟩
      · exact Or.inr ⟨_, by omega, rfl⟩
      · exact ih h

theorem isBlank_symbol {value : Nat} (h : value < 64) : Text.isBlank (symbol value) = false := by
  decide +revert

theorem isBlank_of_mem_encode {bytes : Bytes} {c : Char} (h : c ∈ encode bytes) :
    Text.isBlank c = false := by
  rcases eq_padding_or_symbol_of_mem_encode h with rfl | ⟨value, hlt, rfl⟩
  · decide
  · exact isBlank_symbol hlt

/-- **A text spells bytes exactly if it is what is written for them.** -/
theorem decode_eq_ok_iff {text : List Char} {bytes : Bytes} :
    decode text = .ok bytes ↔ encode bytes = text := by
  constructor
  · intro h
    rw [decode] at h
    split at h
    · next hgroups =>
        obtain rfl := Except.ok.inj h
        exact encode_of_decodeGroups hgroups
    · cases h
  · rintro rfl
    rw [decode, decodeGroups_encode]

end Pipework.Base64
