import Pipework.Proofs.Arguments
import Pipework.Proofs.Codec.Reading
import Pipework.Transform.Notation

set_option autoImplicit false

/-! # Percent-encoded values

`percentEncode` writes a text or a byte string byte by byte, and `percentDecode` gives the text back
unless percent signs are among the characters that are left as they are and occur in the text
(`percentDecode_percentEncode_iff`). Of all texts, those are read in which every percent sign has
two digits behind it and that stand for the encoding of a text (`percentDecode_reads_escapes`). -/

namespace Pipework.Transform

/-- The bytes of a text or of a byte string. -/
inductive HasBytes : Value → Bytes → Prop
  | text (s : String) : HasBytes (.text s) (Utf8.encode s)
  | bytes (b : Bytes) : HasBytes (.bytes b) b

theorem percentEncode_of_bound? {args : Arguments} {safe : Option String}
    (hargs : Parameter.safe.bound? args = safe.map .text) {value : Value} {bytes : Bytes}
    (hvalue : HasBytes value bytes) :
    percentEncode value args =
      .ok (.text (String.ofList (Percent.encode (safe.getD "/") bytes))) := by
  have hsafe := Parameter.text?_of_bound? hargs
  cases hvalue <;>
    · unfold percentEncode
      simp only [hsafe]
      rfl

theorem percentDecode_text (text : String) :
    percentDecode (.text text) =
      match Percent.decode text with
      | .ok decoded => .ok (.text decoded)
      | .error e => .error (.percent e) := by
  show ((Percent.decode text).mapError Fault.percent >>= fun decoded =>
    pure (Value.text decoded)) = _
  cases Percent.decode text <;> rfl

theorem percentDecode_text_eq_ok_iff {text decoded : String} :
    percentDecode (.text text) = .ok (.text decoded) ↔ Percent.decode text = .ok decoded := by
  rw [percentDecode_text]
  cases Percent.decode text <;> simp

/-- **Percent-encoding reads back unless percent signs are left as they are.** Every byte is written
    by itself. A text comes back exactly if it holds no percent sign or the percent sign is to be
    escaped. A byte string without that clash gives the text that it encodes, and is refused if it
    encodes none. -/
theorem percentDecode_percentEncode_iff (args : Arguments) (safe : Option String)
    (hargs : Parameter.safe.bound? args = safe.map .text) (value : Value) (bytes : Bytes)
    (hvalue : HasBytes value bytes) :
    ∃ (encoded : String) (parts : List (List Char)),
      percentEncode value args = .ok (.text encoded) ∧
      encoded.toList = parts.flatten ∧
      List.Forall₂ (Percent.Writes (safe.getD "/")) bytes parts ∧
      (∀ text, value = .text text → (percentDecode (.text encoded) = .ok (.text text) ↔
        ¬('%' ∈ (safe.getD "/").toList ∧ '%' ∈ text.toList))) ∧
      (¬('%' ∈ (safe.getD "/").toList ∧ 0x25 ∈ bytes) →
        (∀ text, Utf8.encode text = bytes → percentDecode (.text encoded) = .ok (.text text)) ∧
        ((∀ text, Utf8.encode text ≠ bytes) →
          ∃ reason, (percentDecode (.text encoded)).mapError Fault.toError =
            .error (.format "url" reason))) := by
  have hdecode : ∀ text, ¬Percent.Clashes (safe.getD "/") bytes → Utf8.encode text = bytes →
      percentDecode (.text (String.ofList (Percent.encode (safe.getD "/") bytes))) =
        .ok (.text text) := by
    intro text hclash htext
    rw [percentDecode_text_eq_ok_iff, Percent.decode_encode_of_not_clashes hclash,
      Utf8.decode_eq_ok_iff.2 htext]
    rfl
  refine ⟨_, bytes.map (Percent.written (safe.getD "/")), percentEncode_of_bound? hargs hvalue,
    ?_, ?_, ?_, ?_⟩
  · rw [String.toList_ofList, Percent.encode_eq_flatMap, List.flatMap]
  · rw [List.forall₂_map_right_iff]
    exact List.forall₂_same.2 fun byte _ => Percent.writes_written _ byte
  · rintro text rfl
    cases hvalue
    -- the percent sign of a text is the byte of the same number
    have hpercent : (0x25 : UInt8) ∈ Utf8.encode text ↔ '%' ∈ text.toList :=
      Utf8.mem_encode_iff_of_lt (by decide)
    rw [← hpercent]
    constructor
    · intro hback hclash
      exact Percent.decode_encode_ne_of_clashes hclash (percentDecode_text_eq_ok_iff.1 hback)
    · exact fun hclash => hdecode text hclash rfl
  · intro hclash
    refine ⟨fun text htext => hdecode text hclash htext, fun hnone => ?_⟩
    rw [percentDecode_text, Percent.decode_encode_of_not_clashes hclash]
    cases hutf8 : Utf8.decode bytes with
    | ok text => exact absurd (Utf8.decode_eq_ok_iff.1 hutf8) (hnone text)
    | error count => exact ⟨_, rfl⟩

/-- A text with a percent sign and a letter beyond ASCII, nothing being left as it is. -/
theorem percentDecode_percentEncode_sign :
    percentEncode (.text "5% é/") ⟨[.text ""], .empty⟩ = .ok (.text "5%25%20%C3%A9%2F") ∧
    percentDecode (.text "5%25%20%C3%A9%2F") = .ok (.text "5% é/") := by
  have hbound : Parameter.safe.bound? ⟨[.text ""], .empty⟩ = (some "").map .text := rfl
  obtain ⟨encoded, parts, hencoded, -, -, hback, -⟩ := percentDecode_percentEncode_iff
    ⟨[.text ""], .empty⟩ (some "") hbound (.text "5% é/") _ (.text "5% é/")
  have hchars : String.ofList (Percent.encode ((some "").getD "/") (Utf8.encode "5% é/")) =
      "5%25%20%C3%A9%2F" := by decide +kernel
  have hwritten := percentEncode_of_bound? hbound (.text "5% é/")
  rw [hchars] at hwritten
  obtain rfl : encoded = "5%25%20%C3%A9%2F" :=
    Value.text.inj (Except.ok.inj (hencoded.symm.trans hwritten))
  exact ⟨hwritten, (hback _ rfl).2 fun hclash => absurd hclash.1 (by decide)⟩

/-! ## Texts of any origin -/

theorem percentDecode_text_eq_ok_iff_reads {text : String} {value : Value} :
    percentDecode (.text text) = .ok value ↔
      ∃ decoded, Percent.Reads text.toList (Utf8.encode decoded) ∧ value = .text decoded := by
  simp only [← Percent.decode_eq_ok_iff_reads]
  rw [percentDecode_text]
  cases Percent.decode text <;> simp [eq_comm]

/-- **Percent-encoded text is read by its escapes.** The search for a percent sign that starts no
    escape comes to an end. A text is read exactly if every percent sign in it has two digits behind
    it, and the bytes for which the text stands, an escape for its byte and all else for itself, are
    the encoding of a text, which is the result. Otherwise the offset in the text, in bytes, of the
    first percent sign without two digits is told, or if there is none, how many bytes the longest
    well-formed start has of those that the text stands for. -/
theorem percentDecode_reads_escapes (text : String) :
    (∃ signs, Percent.Search (Utf8.encode text) 0 signs
        (Percent.brokenEscape? 0 (Utf8.encode text)) ∧
      3 * signs ≤ (Utf8.encode text).length + 2) ∧
    ((∃ value, percentDecode (.text text) = .ok value) ↔
      Percent.Whole text.toList ∧
        ∃ bytes, Percent.Reads text.toList bytes ∧ Utf8.WellFormed bytes) ∧
    (∀ value, percentDecode (.text text) = .ok value ↔
      ∃ decoded, Percent.Reads text.toList (Utf8.encode decoded) ∧ value = .text decoded) ∧
    (¬Percent.Whole text.toList →
      ∃ before after, Percent.FirstBroken text.toList before after ∧
        (percentDecode (.text text)).mapError Fault.toError = .error (.format "url"
          s!"incomplete escape at offset {(Utf8.encode (String.ofList before)).length}")) ∧
    (Percent.Whole text.toList → ∃ bytes, Percent.Reads text.toList bytes) ∧
    (∀ bytes, Percent.Reads text.toList bytes → ¬Utf8.WellFormed bytes →
      ∃ start, Bytes.LongestStart Utf8.WellFormed bytes start ∧
        (percentDecode (.text text)).mapError Fault.toError = .error (.format "url"
          s!"decoded bytes are not UTF-8 (valid up to byte {start.length})")) := by
  refine ⟨Percent.exists_search_brokenEscape? _, ?_, fun _ => percentDecode_text_eq_ok_iff_reads,
    ?_, Percent.exists_reads_iff_whole.2, ?_⟩
  · simp only [percentDecode_text_eq_ok_iff_reads]
    constructor
    · rintro ⟨_, decoded, hreads, -⟩
      exact ⟨hreads.whole, _, hreads, Utf8.exists_encode_iff.1 ⟨decoded, rfl⟩⟩
    · rintro ⟨-, bytes, hreads, hutf8⟩
      obtain ⟨decoded, rfl⟩ := Utf8.exists_encode_iff.2 hutf8
      exact ⟨_, decoded, hreads, rfl⟩
  · intro hwhole
    rcases Percent.reads_or_breaks text.toList with ⟨bytes, hreads⟩ | ⟨before, hbreaks⟩
    · exact absurd hreads.whole hwhole
    · obtain ⟨after, hfirst⟩ := hbreaks.exists_firstBroken
      refine ⟨before, after, hfirst, ?_⟩
      rw [percentDecode_text, Percent.decode_of_breaks hbreaks]
      rfl
  · intro bytes hreads hutf8
    cases hdecode : Utf8.decode bytes with
    | ok decoded =>
        exact absurd (Utf8.exists_encode_iff.1 ⟨decoded, Utf8.decode_eq_ok_iff.1 hdecode⟩) hutf8
    | error count =>
        obtain ⟨start, hstart, rfl⟩ := Utf8.exists_longestStart hdecode
        refine ⟨start, hstart, ?_⟩
        rw [percentDecode_text, Percent.decode_of_reads hreads, hdecode]
        rfl

/-- The second percent sign has only one digit behind it. -/
example : percentDecode (.text "é%C3%a") = .error (.percent (.incompleteEscape 5)) := rfl

end Pipework.Transform
