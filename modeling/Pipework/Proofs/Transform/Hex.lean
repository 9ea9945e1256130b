import Pipework.Proofs.Arguments
import Pipework.Proofs.Codec.Reading
import Pipework.Transform.Notation
import Mathlib.Data.List.Forall2

set_option autoImplicit false

/-! # Layouts of hexadecimal text

`bytesToHex` sets a separator between blocks of bytes, and `hexToBytes` ignores blanks. So a layout
reads back if its separator is made of blanks or is never written, and in no other case
(`hexToBytes_bytesToHex_iff`): any other separator is refused or taken for digits. Of all texts,
those are read in which the characters that are no blanks are digits and pair up
(`hexToBytes_reads_digits`). -/

namespace Pipework.Transform

/-! ## Layouts -/

/-- A layout of hexadecimal text; every part of it may be left out. -/
structure HexLayout where
  separator : Option String
  perBlock : Option Int64
  upper : Option Bool
  perBlock_nonneg : ∀ n ∈ perBlock, 0 ≤ n.toInt

namespace HexLayout

/-- The arguments say so; what is left out is not bound or null. -/
structure IsBoundIn (layout : HexLayout) (args : Arguments) : Prop where
  separator : Parameter.separator.bound? args = layout.separator.map .text
  perBlock : Parameter.bytesPerBlock.bound? args = layout.perBlock.map .int
  upper : Parameter.upper.bound? args = layout.upper.map .bool

/-- What stands between blocks. -/
def between (layout : HexLayout) : List Char := (layout.separator.getD "").toList

/-- How many bytes a block has. -/
def size (layout : HexLayout) : Nat := (layout.perBlock.map (·.toInt.toNat)).getD 1

/-- Which digits are written. -/
def isUpper (layout : HexLayout) : Bool := layout.upper.getD false

/-- The blocks of `bytes`: all in one if there is nothing to set between blocks or blocks would be
    empty, and cut from the left otherwise. -/
structure Blocks (layout : HexLayout) (bytes : Bytes) (blocks : List Bytes) : Prop where
  flatten_eq : blocks.flatten = bytes
  eq_singleton : layout.between = [] ∨ layout.size = 0 → blocks = [bytes]
  cutInto : layout.between ≠ [] → layout.size ≠ 0 → Hex.CutInto layout.size bytes blocks

theorem exists_blocks (layout : HexLayout) (bytes : Bytes) :
    ∃ blocks, layout.Blocks bytes blocks ∧
      Hex.encodeBlocks layout.isUpper layout.between layout.size bytes =
        layout.between.intercalate (blocks.map (Hex.encode layout.isUpper)) := by
  by_cases hone : layout.between = [] ∨ layout.size = 0
  · refine ⟨[bytes], ⟨by simp, fun _ => rfl, fun hsep hsize => (hone.elim hsep hsize).elim⟩, ?_⟩
    rw [List.map_singleton, List.intercalate_singleton]
    unfold Hex.encodeBlocks
    split
    · rfl
    · rfl
    · next hsize hsep => exact (hone.elim hsep fun h => nomatch hsize.symm.trans h).elim
  · obtain ⟨hsep, hsize⟩ := not_or.1 hone
    obtain ⟨c, rest, hbetween⟩ := List.exists_cons_of_ne_nil hsep
    obtain ⟨size, hsucc⟩ := Nat.exists_eq_succ_of_ne_zero hsize
    have hcut := Hex.cutInto_blocks size bytes
    rw [← Nat.succ_eq_add_one, ← hsucc] at hcut
    refine ⟨Hex.blocks size bytes, ⟨hcut.flatten_eq, fun h => (hone h).elim, fun _ _ => hcut⟩, ?_⟩
    rw [hbetween, hsucc]
    rfl

/-- Text in one piece holds the digits alone. -/
theorem encodeBlocks_eq_encode (layout : HexLayout) (h : layout.between = [] ∨ layout.size = 0)
    (bytes : Bytes) :
    Hex.encodeBlocks layout.isUpper layout.between layout.size bytes =
      Hex.encode layout.isUpper bytes := by
  obtain ⟨blocks, hblocks, hencode⟩ := layout.exists_blocks bytes
  rw [hencode, hblocks.eq_singleton h, List.map_singleton, List.intercalate_singleton]

end HexLayout

/-! ## Writing and reading -/

theorem bytesToHex_of_isBoundIn {layout : HexLayout} {args : Arguments} (h : layout.IsBoundIn args)
    (bytes : Bytes) :
    bytesToHex (.bytes bytes) args = .ok (.text (String.ofList
      (Hex.encodeBlocks layout.isUpper layout.between layout.size bytes))) := by
  have hseparator := Parameter.text?_of_bound? h.separator
  have hperBlock := Parameter.nat?_of_bound? h.perBlock layout.perBlock_nonneg
  have hupper := Parameter.bool?_of_bound? h.upper
  unfold bytesToHex
  simp only [hseparator, hperBlock, hupper]
  rfl

theorem hexToBytes_text (text : String) :
    hexToBytes (.text text) =
      match Hex.decode text.toList with
      | .ok bytes => .ok (.bytes bytes)
      | .error e => .error (.hex e) := by
  show ((Hex.decode text.toList).mapError Fault.hex >>= fun bytes => pure (Value.bytes bytes)) = _
  cases Hex.decode text.toList <;> rfl

theorem hexToBytes_text_eq_ok_iff {text : String} {bytes : Bytes} :
    hexToBytes (.text text) = .ok (.bytes bytes) ↔ Hex.decode text.toList = .ok bytes := by
  rw [hexToBytes_text]
  cases Hex.decode text.toList <;> simp

/-- **A layout reads back exactly if only blanks separate its blocks.** The text of a byte string is
    that of its blocks, two digits for a byte, with the separator between them. It gives the byte
    string back if the separator holds nothing but blanks or there is no more than one block;
    otherwise it is malformed or gives other bytes. -/
theorem hexToBytes_bytesToHex_iff (layout : HexLayout) (args : Arguments)
    (hargs : layout.IsBoundIn args) (bytes : Bytes) :
    ∃ (text : String) (blocks : List Bytes) (parts : List (List Char)),
      bytesToHex (.bytes bytes) args = .ok (.text text) ∧
      layout.Blocks bytes blocks ∧ List.Forall₂ (Hex.Spells layout.isUpper) blocks parts ∧
      text.toList = layout.between.intercalate parts ∧
      (hexToBytes (.text text) = .ok (.bytes bytes) ↔
        (∀ c ∈ layout.between, Text.isBlank c = true) ∨ blocks.length ≤ 1) ∧
      ((∃ c ∈ layout.between, Text.isBlank c = false) → 2 ≤ blocks.length →
        (∃ reason, (hexToBytes (.text text)).mapError Fault.toError =
          .error (.format "hex" reason)) ∨
        ∃ other, other ≠ bytes ∧ hexToBytes (.text text) = .ok (.bytes other)) := by
  obtain ⟨blocks, hblocks, hencode⟩ := layout.exists_blocks bytes
  let text := String.ofList (Hex.encodeBlocks layout.isUpper layout.between layout.size bytes)
  have htext : text.toList = layout.between.intercalate (blocks.map (Hex.encode layout.isUpper)) :=
    String.toList_ofList.trans hencode
  have hback : hexToBytes (.text text) = .ok (.bytes bytes) ↔
      (∀ c ∈ layout.between, Text.isBlank c = true) ∨ blocks.length ≤ 1 := by
    rw [hexToBytes_text_eq_ok_iff, htext, ← Hex.decode_intercalate_iff layout.isUpper,
      hblocks.flatten_eq]
  refine ⟨text, blocks, _, bytesToHex_of_isBoundIn hargs bytes, hblocks, ?_, htext, hback, ?_⟩
  · rw [List.forall₂_map_right_iff]
    exact List.forall₂_same.2 fun block _ => Hex.spells_encode layout.isUpper block
  · rintro ⟨c, hc, hvisible⟩ hmany
    have hother : hexToBytes (.text text) ≠ .ok (.bytes bytes) := by
      rw [Ne, hback]
      rintro (hblank | hfew)
      · rw [hblank c hc] at hvisible
        cases hvisible
      · omega
    rw [hexToBytes_text] at hother ⊢
    cases hdecode : Hex.decode text.toList with
    | error e => exact Or.inl ⟨e.reason, rfl⟩
    | ok other =>
        rw [hdecode] at hother
        exact Or.inr ⟨other, fun heq => hother (heq ▸ rfl), rfl⟩

/-- Three bytes in upper case, two of them on a line. -/
theorem hexToBytes_bytesToHex_lines :
    bytesToHex (.bytes [0xDE, 0xAD, 0xBE])
      ⟨[.text "\n", .int 2], Dict.ofList [("upper", .bool true)]⟩ = .ok (.text "DEAD\nBE") ∧
    hexToBytes (.text "DEAD\nBE") = .ok (.bytes [0xDE, 0xAD, 0xBE]) := by
  let layout : HexLayout := ⟨some "\n", some 2, some true, by rintro n ⟨⟩; decide⟩
  have hbound : layout.IsBoundIn ⟨[.text "\n", .int 2], Dict.ofList [("upper", .bool true)]⟩ :=
    ⟨rfl, rfl, rfl⟩
  obtain ⟨text, blocks, parts, htext, -, -, -, hback, -⟩ :=
    hexToBytes_bytesToHex_iff layout _ hbound [0xDE, 0xAD, 0xBE]
  have hdigits : String.ofList (Hex.encodeBlocks layout.isUpper layout.between layout.size
      [0xDE, 0xAD, 0xBE]) = "DEAD\nBE" := by decide +kernel
  have hblank : layout.between.all Text.isBlank = true := by decide
  have hwritten := bytesToHex_of_isBoundIn hbound [0xDE, 0xAD, 0xBE]
  rw [hdigits] at hwritten
  obtain rfl : text = "DEAD\nBE" := Value.text.inj (Except.ok.inj (htext.symm.trans hwritten))
  exact ⟨hwritten, hback.2 (Or.inl (List.all_eq_true.1 hblank))⟩

/-! ## Texts of any origin -/

theorem hexToBytes_text_eq_ok_iff_reads {text : String} {value : Value} :
    hexToBytes (.text text) = .ok value ↔
      ∃ bytes, Hex.Reads (Hex.dense text.toList) bytes ∧ value = .bytes bytes := by
  simp only [← Hex.decode_eq_ok_iff_reads]
  rw [hexToBytes_text]
  cases Hex.decode text.toList <;> simp [eq_comm]

theorem reason_eq_odd_iff {error : Hex.Error} :
    error.reason = "odd number of digits" ↔ error = .oddLength := by
  cases error with
  | oddLength => exact ⟨fun _ => rfl, fun _ => rfl⟩
  | invalidDigit offset =>
      have hreason : (Hex.Error.invalidDigit offset).reason =
          "invalid digit at offset " ++ toString offset := rfl
      have hinvalid : "invalid digit at offset ".toList.head? = some 'i' := by decide
      simp only [reduceCtorEq, iff_false]
      intro hodd
      -- the two reasons differ in their first letters
      have hfirst := congrArg (List.head? ∘ String.toList) (hreason.symm.trans hodd)
      rw [Function.comp_apply, String.toList_append, List.head?_append, hinvalid,
        Option.some_or] at hfirst
      exact absurd hfirst (by decide)

theorem hexToBytes_text_eq_odd_iff {text : String} :
    (hexToBytes (.text text)).mapError Fault.toError =
        .error (.format "hex" "odd number of digits") ↔
      (Utf8.encode (String.ofList (Hex.dense text.toList))).length % 2 = 1 := by
  rw [← Hex.decode_eq_error_oddLength_iff, hexToBytes_text]
  cases Hex.decode text.toList with
  | ok bytes => exact ⟨nofun, nofun⟩
  | error error =>
      rw [Except.error.injEq, ← reason_eq_odd_iff]
      constructor
      · intro h
        exact (TransformError.format.inj (Except.error.inj h)).2
      · intro h
        exact congrArg (fun reason => Except.error (TransformError.format "hex" reason)) h

/-- **Hexadecimal text is read by its digits, blanks apart.** A text is read exactly if its
    characters other than blanks are digits of either case, an even number of them, and then as the
    bytes that they spell. Any other text is refused: if those characters take an odd number of
    bytes, this is told, and otherwise the offset in the text, in bytes, of the first one that is no
    digit. -/
theorem hexToBytes_reads_digits (text : String) :
    let digits := text.toList.filter fun c => !Text.isBlank c
    ((∃ value, hexToBytes (.text text) = .ok value) ↔
      digits.length % 2 = 0 ∧ ∀ c ∈ digits, Hex.IsDigit c) ∧
    (∀ value, hexToBytes (.text text) = .ok value ↔
      ∃ bytes, Hex.Reads digits bytes ∧ value = .bytes bytes) ∧
    ((hexToBytes (.text text)).mapError Fault.toError =
        .error (.format "hex" "odd number of digits") ↔
      (Utf8.encode (String.ofList digits)).length % 2 = 1) ∧
    ((∀ value, hexToBytes (.text text) ≠ .ok value) →
      (Utf8.encode (String.ofList digits)).length % 2 = 0 →
      ∃ before c after, text.toList = before ++ c :: after ∧
        (∀ earlier ∈ before, Text.isBlank earlier = true ∨ Hex.IsDigit earlier) ∧
        Text.isBlank c = false ∧ ¬Hex.IsDigit c ∧
        (hexToBytes (.text text)).mapError Fault.toError = .error (.format "hex"
          s!"invalid digit at offset {(Utf8.encode (String.ofList before)).length}")) := by
  intro digits
  refine ⟨?_, fun value => hexToBytes_text_eq_ok_iff_reads, hexToBytes_text_eq_odd_iff, ?_⟩
  · rw [← Hex.exists_reads_iff]
    simp only [hexToBytes_text_eq_ok_iff_reads]
    constructor
    · rintro ⟨_, bytes, hreads, -⟩
      exact ⟨bytes, hreads⟩
    · rintro ⟨bytes, hreads⟩
      exact ⟨_, bytes, hreads, rfl⟩
  · intro hnone heven
    have hreads : ∀ bytes, ¬Hex.Reads digits bytes := fun bytes hreads =>
      hnone _ (hexToBytes_text_eq_ok_iff_reads.2 ⟨bytes, hreads, rfl⟩)
    have hodd : (Utf8.encode (String.ofList digits)).length % 2 ≠ 1 := by omega
    obtain ⟨before, c, after, htext, hbefore, hblank, hdigit, hdecode⟩ :=
      Hex.exists_decode_eq_invalidDigit hreads hodd
    refine ⟨before, c, after, htext, hbefore, hblank, hdigit, ?_⟩
    rw [hexToBytes_text, hdecode]
    rfl

/-- The blank before the letters that are no digits takes three bytes. -/
example : hexToBytes (.text "de\u3000zz") = .error (.hex (.invalidDigit 5)) := rfl

end Pipework.Transform
