import Pipework.Error.Fault

set_option autoImplicit false

/-! # Wordings without numbers

Whatever the cause of a failure holds besides numbers is one of finitely many names. A fault with
its numbers struck out (`Fault.blank`) is one of `Fault.blanks`, and its message differs from that
of the fault in decimal digits alone (`Fault.withoutDigits_message_blank`). So the messages of all
faults, their digits taken out, are among `Fault.wordings`, a list that is written down once and for
all (`Fault.withoutDigits_message_mem`). -/

namespace Pipework

/-! ## Taking digits out -/

/-- A text without its decimal digits. -/
def Text.withoutDigits (s : String) : String := String.ofList (s.toList.filter fun c => !c.isDigit)

theorem Text.withoutDigits_append (s t : String) :
    withoutDigits (s ++ t) = withoutDigits s ++ withoutDigits t := by
  simp only [withoutDigits, String.toList_append, List.filter_append, String.ofList_append]

/-- Nothing is left of a number. -/
theorem Text.withoutDigits_toString (n : Nat) : withoutDigits (toString n) = "" := by
  have hdigits : (toString n).toList = Nat.toDigits 10 n := Nat.toList_repr
  have hnone : (Nat.toDigits 10 n).filter (fun c => !c.isDigit) = [] := by
    rw [List.filter_eq_nil_iff]
    intro c hc
    simp [Nat.isDigit_of_mem_toDigits (by decide) (by decide) hc]
  rw [withoutDigits, hdigits, hnone, String.ofList_nil]

/-! ## Messages -/

namespace TransformError

theorem message_format (codec reason : String) :
    (format codec reason).message = "malformed " ++ codec ++ " input: " ++ reason := by
  rfl

theorem message_invalidArgument (name reason : String) :
    (invalidArgument name reason).message = "invalid argument '" ++ name ++ "': " ++ reason := by
  rfl

theorem message_invalidValue (reason : String) :
    (invalidValue reason).message = "invalid value: " ++ reason := by
  rfl

end TransformError

/-! ## Striking numbers out

Each type of causes has its own numbers. For each, the cause without them is given, then the fact
that no other word of its text is lost, and last the list of all causes without numbers. -/

section

open Text (withoutDigits withoutDigits_append withoutDigits_toString)
open TransformError (message_format message_invalidArgument message_invalidValue)

/-! ### Names -/

/-- The kinds of values. -/
def Kind.all : List Kind := [null, bool, int, float, text, bytes, list, map, sealedBox]

theorem Kind.mem_all (kind : Kind) : kind ∈ all := by cases kind <;> decide

/-- The parameters. -/
def Parameter.all : List Parameter :=
  [encoding, separator, bytesPerBlock, upper, safe, indent, algorithm, length, iterations, salt,
    key, associated, nonce, secret]

theorem Parameter.mem_all (parameter : Parameter) : parameter ∈ all := by
  cases parameter <;> decide

/-- All that transforms accept. -/
def Expected.all : List Expected :=
  [text, bytes, textOrBytes, json, sealedBox, scalar, int, intList, envelope]

theorem Expected.mem_all (expected : Expected) : expected ∈ all := by
  cases expected <;> decide

/-- The fields of a sealed box. -/
def BoxField.all : List BoxField := [nonce, associated, ciphertext, tag]

theorem BoxField.mem_all (field : BoxField) : field ∈ all := by cases field <;> decide

/-- The parts of a secret envelope. -/
def EnvelopePart.all : List EnvelopePart := [parameters, salt, iv, tag, data]

theorem EnvelopePart.mem_all (part : EnvelopePart) : part ∈ all := by cases part <;> decide

/-- The character sets. -/
def Charset.all : List Charset := [utf8, ascii, latin1]

theorem Charset.mem_all (charset : Charset) : charset ∈ all := by cases charset <;> decide

/-! ### Arguments -/

/-- The error with its numbers struck out. -/
def ArgumentError.blank : ArgumentError → ArgumentError
  | badLength _ => badLength 0
  | badKey _ => badKey 0
  | badNonce .. => badNonce 0 0
  | error => error

theorem ArgumentError.withoutDigits_message_blank (name : String) (error : ArgumentError) :
    withoutDigits (error.blank.toError name).message =
      withoutDigits (error.toError name).message := by
  cases error with
  | badLength limit | badKey found | badNonce expected found =>
      simp only [blank, toError, message_invalidArgument, withoutDigits_append,
        withoutDigits_toString]
  | _ => rfl

/-- The errors without numbers. -/
def ArgumentError.blanks : List ArgumentError :=
  [missing, negative, beyond32Bits, unknownCharset, unknownAlgorithm, badLength 0, noIterations,
      badKey 0, badNonce 0 0] ++
    Kind.all.flatMap fun found => [notText found, notBytes found, notInt found, notBool found]

theorem ArgumentError.blank_mem_blanks (error : ArgumentError) : error.blank ∈ blanks := by
  cases error <;> simp [blank, blanks, Kind.mem_all]

/-! ### Codecs -/

/-- The error with its numbers struck out. -/
def Hex.Error.blank : Hex.Error → Hex.Error
  | invalidDigit _ => invalidDigit 0
  | error => error

theorem Hex.Error.withoutDigits_reason_blank (error : Hex.Error) :
    withoutDigits error.blank.reason = withoutDigits error.reason := by
  cases error with
  | invalidDigit offset =>
      unfold blank reason
      simp only [withoutDigits_append, withoutDigits_toString]
  | oddLength => rfl

/-- The errors without numbers. -/
def Hex.Error.blanks : List Hex.Error := [oddLength, invalidDigit 0]

theorem Hex.Error.blank_mem_blanks (error : Hex.Error) : error.blank ∈ blanks := by
  cases error <;> simp [blank, blanks]

/-- The error with its numbers struck out. -/
def Base64.Error.blank : Base64.Error → Base64.Error
  | invalidSymbol _ => invalidSymbol 0
  | invalidTrailing _ => invalidTrailing 0
  | error => error

theorem Base64.Error.withoutDigits_reason_blank (error : Base64.Error) :
    withoutDigits error.blank.reason = withoutDigits error.reason := by
  cases error with
  | invalidSymbol offset | invalidTrailing offset =>
      unfold blank reason
      simp only [withoutDigits_append, withoutDigits_toString]
  | _ => rfl

/-- The errors without numbers. -/
def Base64.Error.blanks : List Base64.Error :=
  [invalidSymbol 0, invalidLength, invalidPadding, invalidTrailing 0]

theorem Base64.Error.blank_mem_blanks (error : Base64.Error) : error.blank ∈ blanks := by
  cases error <;> simp [blank, blanks]

/-- The error with its numbers struck out. -/
def Percent.Error.blank : Percent.Error → Percent.Error
  | incompleteEscape _ => incompleteEscape 0
  | notUtf8 _ => notUtf8 0

theorem Percent.Error.withoutDigits_reason_blank (error : Percent.Error) :
    withoutDigits error.blank.reason = withoutDigits error.reason := by
  cases error with
  | incompleteEscape offset | notUtf8 validUpTo =>
      unfold blank reason
      simp only [withoutDigits_append, withoutDigits_toString]

/-- The errors without numbers. -/
def Percent.Error.blanks : List Percent.Error := [incompleteEscape 0, notUtf8 0]

theorem Percent.Error.blank_mem_blanks (error : Percent.Error) : error.blank ∈ blanks := by
  cases error <;> simp [blank, blanks]

/-- The error with its numbers struck out. -/
def Octet.Error.blank : Octet.Error → Octet.Error
  | wrongLength _ => wrongLength 0
  | nonBinary _ => nonBinary 0

theorem Octet.Error.withoutDigits_reason_blank (error : Octet.Error) :
    withoutDigits error.blank.reason = withoutDigits error.reason := by
  cases error with
  | wrongLength characters | nonBinary offset =>
      unfold blank reason
      simp only [withoutDigits_append, withoutDigits_toString]

/-- The errors without numbers. -/
def Octet.Error.blanks : List Octet.Error := [wrongLength 0, nonBinary 0]

theorem Octet.Error.blank_mem_blanks (error : Octet.Error) : error.blank ∈ blanks := by
  cases error <;> simp [blank, blanks]

/-- The error with its numbers struck out. -/
def Json.ParseError.blank (error : Json.ParseError) : Json.ParseError := ⟨error.isEarly, 0, 0⟩

theorem Json.ParseError.withoutDigits_reason_blank (error : Json.ParseError) :
    withoutDigits error.blank.reason = withoutDigits error.reason := by
  unfold blank reason
  simp only [withoutDigits_append, withoutDigits_toString]

/-- The errors without numbers. -/
def Json.ParseError.blanks : List Json.ParseError := [⟨false, 0, 0⟩, ⟨true, 0, 0⟩]

theorem Json.ParseError.blank_mem_blanks (error : Json.ParseError) : error.blank ∈ blanks := by
  cases h : error.isEarly <;> simp [blank, blanks, h]

/-! ### Boxes and envelopes -/

/-- The error with its numbers struck out. -/
def BoxError.blank : BoxError → BoxError
  | nonceLength .. => nonceLength 0 0
  | tagLength .. => tagLength 0 0
  | error => error

theorem BoxError.withoutDigits_reason_blank (error : BoxError) :
    withoutDigits error.blank.reason = withoutDigits error.reason := by
  cases error with
  | nonceLength expected found | tagLength expected found =>
      unfold blank reason
      simp only [withoutDigits_append, withoutDigits_toString]
  | _ => rfl

/-- The errors without numbers. -/
def BoxError.blanks : List BoxError :=
  [nonceLength 0 0, tagLength 0 0] ++
    BoxField.all.flatMap fun field =>
      missing field :: notBase64 field :: Kind.all.map (wrongKind field)

theorem BoxError.blank_mem_blanks (error : BoxError) : error.blank ∈ blanks := by
  cases error <;> simp [blank, blanks, BoxField.mem_all, Kind.mem_all]

/-- The error with its numbers struck out. -/
def EnvelopeError.blank : EnvelopeError → EnvelopeError
  | parameterCount .. => parameterCount 0 0
  | roundsOutOfRange .. => roundsOutOfRange 0 0
  | wrongLength part _ _ => wrongLength part 0 0
  | error => error

theorem EnvelopeError.withoutDigits_reason_blank (error : EnvelopeError) :
    withoutDigits error.blank.reason = withoutDigits error.reason := by
  cases error with
  | parameterCount expected found | roundsOutOfRange least most | wrongLength part expected found =>
      unfold blank reason
      simp only [withoutDigits_append, withoutDigits_toString]
  | _ => rfl

/-- The errors without numbers. -/
def EnvelopeError.blanks : List EnvelopeError :=
  [parameterCount 0 0, roundsNotNumber, roundsOutOfRange 0 0] ++
    EnvelopePart.all.flatMap fun part => [missingText part, notBase64 part, wrongLength part 0 0]

theorem EnvelopeError.blank_mem_blanks (error : EnvelopeError) : error.blank ∈ blanks := by
  cases error <;> simp [blank, blanks, EnvelopePart.mem_all]

/-! ### Character sets -/

theorem Charset.withoutDigits_reason_eq (charset : Charset) (offset offset' : Nat) :
    withoutDigits (charset.reason offset) = withoutDigits (charset.reason offset') := by
  cases charset <;>
  · unfold reason
    simp only [withoutDigits_append, withoutDigits_toString]

/-! ## Faults -/

/-- The fault with its numbers struck out. -/
def Fault.blank : Fault → Fault
  | argument parameter error => argument parameter error.blank
  | json error => json error.blank
  | hex error => hex error.blank
  | base64 error => base64 error.blank
  | percent error => percent error.blank
  | octet error => octet error.blank
  | undecodable charset _ => undecodable charset 0
  | unencodable charset _ => unencodable charset 0
  | notByteAt _ => notByteAt 0
  | box error => box error.blank
  | envelope error => envelope error.blank
  | fault => fault

/-- The message of a fault holds the same words as that of the fault without its numbers. -/
theorem Fault.withoutDigits_message_blank (fault : Fault) :
    withoutDigits fault.blank.toError.message = withoutDigits fault.toError.message := by
  cases fault with
  | argument parameter error => exact error.withoutDigits_message_blank parameter.name
  | json error | hex error | base64 error | percent error | octet error | box error
  | envelope error =>
      simp only [blank, toError, message_format, withoutDigits_append,
        error.withoutDigits_reason_blank]
  | undecodable charset offset =>
      simp only [blank, toError, message_format, withoutDigits_append,
        charset.withoutDigits_reason_eq 0 offset]
  | unencodable charset offset =>
      simp only [blank, toError, message_invalidValue, withoutDigits_append,
        withoutDigits_toString]
  | notByteAt index =>
      simp only [blank, toError, message_invalidValue, withoutDigits_append,
        withoutDigits_toString]
  | wrongKind | nonFinite | notByte | authentication => rfl

/-- The faults without numbers. -/
def Fault.blanks : List Fault :=
  Expected.all.flatMap (fun expected => Kind.all.map (wrongKind expected)) ++
    Parameter.all.flatMap (fun parameter => ArgumentError.blanks.map (argument parameter)) ++
    [nonFinite, notByte, notByteAt 0, authentication] ++
    Json.ParseError.blanks.map json ++ Hex.Error.blanks.map hex ++
    Base64.Error.blanks.map base64 ++ Percent.Error.blanks.map percent ++
    Octet.Error.blanks.map octet ++
    Charset.all.flatMap (fun charset => [undecodable charset 0, unencodable charset 0]) ++
    BoxError.blanks.map box ++ EnvelopeError.blanks.map envelope

theorem Fault.blank_mem_blanks (fault : Fault) : fault.blank ∈ blanks := by
  cases fault <;>
    simp [blank, blanks, Expected.mem_all, Kind.mem_all, Parameter.mem_all, Charset.mem_all,
      ArgumentError.blank_mem_blanks, Json.ParseError.blank_mem_blanks,
      Hex.Error.blank_mem_blanks, Base64.Error.blank_mem_blanks, Percent.Error.blank_mem_blanks,
      Octet.Error.blank_mem_blanks, BoxError.blank_mem_blanks, EnvelopeError.blank_mem_blanks]

/-- All texts that can be left of the message of a fault. -/
def Fault.wordings : List String :=
  blanks.map fun fault => withoutDigits fault.toError.message

example : Fault.wordings.length = 797 := by decide +kernel

theorem Fault.withoutDigits_message_mem (fault : Fault) :
    withoutDigits fault.toError.message ∈ wordings :=
  List.mem_map.mpr ⟨fault.blank, fault.blank_mem_blanks, fault.withoutDigits_message_blank⟩

end

end Pipework
