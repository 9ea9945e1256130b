import Pipework.Proofs.Cookbook.Apply
import Pipework.Proofs.Text.Split
import Mathlib.Data.List.TakeWhile

set_option autoImplicit false

/-! # Where a specifier is refused

The documents in the definition of a pipeline are read one after the other, and the first that is no
specifier decides the error, whatever is registered. If that document is a value of the wrong shape,
the message begins with its position, which is told by no other message (`ConfigError.Locates`). If
a part of it is no value at all, the message is about that part and the same at every position
(`Cookbook.apply_locates_iff_value`). -/

namespace Pipework

/-! ## Refused documents -/

/-- The document is a value that has the shape of a specifier; names are not looked up. -/
def Document.IsSpecifier (document : Document) : Prop :=
  ∃ value specifier, document.toValue = .ok value ∧ Specifier.ofValue value = .ok specifier

/-- Why a document that stands at `position` is refused. -/
inductive Document.Refused (position : Nat) (document : Document) : ConfigError → Prop
  | part {error : DocumentError} (h : document.toValue = .error error) :
      Refused position document (.value error)
  | shape {value : Value} {error : SpecifierError} (hvalue : document.toValue = .ok value)
      (h : Specifier.ofValue value = .error error) :
      Refused position document (.specifier (some position) error)

theorem Document.exists_refused {document : Document} (h : ¬document.IsSpecifier)
    (position : Nat) : ∃ error, document.Refused position error := by
  cases hvalue : document.toValue with
  | error error => exact ⟨_, .part hvalue⟩
  | ok value =>
      cases hspecifier : Specifier.ofValue value with
      | error error => exact ⟨_, .shape hvalue hspecifier⟩
      | ok specifier => exact absurd ⟨value, specifier, hvalue, hspecifier⟩ h

namespace Cookbook

variable {cookbook : Cookbook}

theorem exists_specifierOf_eq_ok {document : Document} (h : document.IsSpecifier)
    (position : Nat) : ∃ specifier, cookbook.specifierOf position document = .ok specifier := by
  obtain ⟨value, specifier, hvalue, hspecifier⟩ := h
  simp only [specifierOf, bind_eq_ok_iff, mapError_eq_ok_iff]
  exact ⟨_, value, hvalue, specifier, hspecifier, rfl⟩

theorem specifierOf_of_refused {document : Document} {position : Nat} {error : ConfigError}
    (h : document.Refused position error) :
    cookbook.specifierOf position document = .error error := by
  simp only [specifierOf, bind_eq_error_iff, mapError_eq_error_iff, mapError_eq_ok_iff]
  cases h with
  | part h => exact Or.inl ⟨_, h, rfl⟩
  | shape hvalue h => exact Or.inr ⟨_, hvalue, Or.inl ⟨_, h, rfl⟩⟩

/-- The first document that is no specifier decides. -/
theorem specifiersOfDocuments_of_refused {documents : List Document} {index : Nat}
    {document : Document} {position : Nat} {error : ConfigError}
    (hdocument : documents[index]? = some document)
    (hearlier : ∀ earlier ∈ documents.take index, earlier.IsSpecifier)
    (h : document.Refused (position + index) error) :
    cookbook.specifiersOfDocuments position documents = .error error := by
  induction documents generalizing position index with
  | nil => cases hdocument
  | cons first rest ih =>
      rw [specifiersOfDocuments, bind_eq_error_iff]
      cases index with
      | zero =>
          obtain rfl := Option.some.inj hdocument
          exact Or.inl (specifierOf_of_refused h)
      | succ index =>
          rw [List.take_succ_cons, List.forall_mem_cons] at hearlier
          obtain ⟨specifier, hspecifier⟩ := exists_specifierOf_eq_ok hearlier.1 position
          rw [← Nat.add_assoc, Nat.add_right_comm] at h
          refine Or.inr ⟨specifier, hspecifier, bind_eq_error_iff.2 (Or.inl ?_)⟩
          exact ih hdocument hearlier.2 h

theorem define_pipeline_of_refused {definition : PipelineDefinition} {index : Nat}
    {document : Document} {error : ConfigError}
    (hdocument : definition.steps[index]? = some document)
    (hearlier : ∀ earlier ∈ definition.steps.take index, earlier.IsSpecifier)
    (h : document.Refused index error) :
    cookbook.define (.pipeline definition) = .error (.pipeline definition.name error) := by
  have hspecifiers : cookbook.specifiersOfDocuments 0 definition.steps = .error error :=
    specifiersOfDocuments_of_refused hdocument hearlier (by rwa [Nat.zero_add])
  have hpipeline : cookbook.pipelineOf definition = .error error :=
    bind_eq_error_iff.2 (Or.inl hspecifiers)
  exact define_pipeline_of_error hpipeline

theorem result_apply_of_refused {config : Config} {origin : String} {count : Nat}
    {definition : Definition} {error : ConfigError}
    (hbefore : (cookbook.apply (config.take count) origin).result = .ok ())
    (hdefinition : config.definitions[count]? = some definition)
    (h : (cookbook.apply (config.take count) origin).cookbook.define definition = .error error) :
    (cookbook.apply config origin).result = .error error := by
  rw [result_apply, Config.definitions_take] at hbefore
  rw [cookbook_apply_take] at h
  rw [result_apply, Config.definitions_eq_append hdefinition, defineAll_of_refused hbefore h]

end Cookbook

/-! ## Positions in messages -/

namespace ConfigError

/-- The message begins with the place of the specifier at `position`. -/
def Locates (error : ConfigError) (position : Nat) : Prop :=
  ∃ reason, error.message = place (some position) ++ ": " ++ reason

theorem locates_specifier (position : Nat) (error : SpecifierError) :
    (specifier (some position) error).Locates position :=
  ⟨error.reason, rfl⟩

theorem toList_place (position : Nat) :
    (place (some position)).toList = "specifier #".toList ++ Decimal.digitChars position := by
  have hdigits : (toString position).toList = Decimal.digitChars position := String.toList_ofList
  rw [← hdigits, ← String.toList_append]
  rfl

theorem head?_toList_append {s : String} {c : Char} (h : s.toList.head? = some c)
    (more : String) : (s ++ more).toList.head? = some c := by
  rw [String.toList_append, List.head?_append, h]
  rfl

theorem not_locates_value (error : DocumentError) (position : Nat) :
    ¬(value error).Locates position := by
  rintro ⟨reason, h⟩
  have hvalue : (value error).message.toList.head? = some 'i' :=
    head?_toList_append (by decide) error.reason
  have hplace : (place (some position)).toList.head? = some 's' := by
    rw [toList_place, List.head?_append]
    rfl
  rw [h, head?_toList_append (head?_toList_append hplace _)] at hvalue
  exact absurd hvalue (by decide)

/-- A message does not begin with the places of two specifiers. -/
theorem Locates.eq {error : ConfigError} {position other : Nat} (h : error.Locates position)
    (hother : error.Locates other) : other = position := by
  obtain ⟨reason, hreason⟩ := h
  obtain ⟨reason', hreason'⟩ := hother
  have hchars := congrArg String.toList (hreason'.symm.trans hreason)
  simp only [String.toList_append, toList_place, List.append_assoc,
    List.append_cancel_left_eq] at hchars
  -- the digits of a position end where the colon stands
  have hdigits : ∀ n, ∀ c ∈ Decimal.digitChars n, (c != ':') = true := by
    intro n c hc
    have hdigit := Text.isDigit_of_digitsValue? (Decimal.digitsValue?_digitChars n) c hc
    rw [bne_iff_ne]
    rintro rfl
    exact absurd hdigit (by decide)
  have hfront := congrArg (List.takeWhile (· != ':')) hchars
  rw [List.takeWhile_append_of_pos (hdigits other),
    List.takeWhile_append_of_pos (hdigits position)] at hfront
  have hcolon : ∀ rest : List Char, (": ".toList ++ rest).takeWhile (· != ':') = [] :=
    fun _ => rfl
  rw [hcolon, hcolon, List.append_nil, List.append_nil] at hfront
  exact Decimal.digitChars_injective hfront

end ConfigError

theorem Document.Refused.locates_iff {document : Document} {position : Nat} {error : ConfigError}
    (h : document.Refused position error) :
    error.Locates position ↔ ∃ value, document.toValue = .ok value := by
  cases h with
  | part h =>
      refine ⟨fun hlocates => absurd hlocates (ConfigError.not_locates_value _ _), ?_⟩
      rintro ⟨value, hvalue⟩
      cases h.symm.trans hvalue
  | shape hvalue h => exact ⟨fun _ => ⟨_, hvalue⟩, fun _ => ConfigError.locates_specifier _ _⟩

namespace Cookbook

/-- **Which refusals tell a position.** Let the first `count` definitions of a configuration be of
    use, and let the next be that of a pipeline whose document at `index` is the first that is no
    specifier. Then the configuration is refused in the name of that pipeline, and the message for
    the document begins with its position exactly if the document is a value. No message begins
    with any other position; and if the document is no value, it is refused in the same words
    wherever it stands. -/
theorem apply_locates_iff_value {cookbook : Cookbook} {config : Config} {origin : String}
    {count : Nat} {definition : PipelineDefinition} {index : Nat} {document : Document}
    (hbefore : (cookbook.apply (config.take count) origin).result = .ok ())
    (hdefinition : config.definitions[count]? = some (.pipeline definition))
    (hdocument : definition.steps[index]? = some document)
    (hearlier : ∀ earlier ∈ definition.steps.take index, earlier.IsSpecifier)
    (hbad : ¬document.IsSpecifier) :
    ∃ error, (cookbook.apply config origin).result = .error (.pipeline definition.name error) ∧
      document.Refused index error ∧
      (error.Locates index ↔ ∃ value, document.toValue = .ok value) ∧
      (∀ other, error.Locates other → other = index) ∧
      ((∀ value, document.toValue ≠ .ok value) → ∀ other, document.Refused other error) := by
  obtain ⟨error, hrefused⟩ := Document.exists_refused hbad index
  have hdefine : (cookbook.apply (config.take count) origin).cookbook.define
      (.pipeline definition) = .error (.pipeline definition.name error) :=
    define_pipeline_of_refused hdocument hearlier hrefused
  refine ⟨error, result_apply_of_refused hbefore hdefinition hdefine, hrefused,
    hrefused.locates_iff, ?_, ?_⟩
  · intro other hother
    cases hrefused with
    | part h => exact absurd hother (ConfigError.not_locates_value _ _)
    | shape hvalue h => exact (ConfigError.locates_specifier index _).eq hother
  · intro hvalue other
    cases hrefused with
    | part h => exact .part h
    | shape hok h => exact absurd hok (hvalue _)

/-- The third of three stages is a number, in the second of two pipelines. -/
theorem apply_locates_number :
    let config : Config := ⟨[], [⟨"outer", []⟩,
      ⟨"p", [.text "outer", .sequence [.text "missing"], .int 7]⟩]⟩
    ∃ error, (empty.apply config inlineOrigin).result = .error (.pipeline "p" error) ∧
      error.Locates 2 := by
  intro config
  have hbefore : (empty.apply (config.take 1) inlineOrigin).result = .ok () := rfl
  have hearlier : ∀ earlier ∈ [Document.text "outer", .sequence [.text "missing"]],
      earlier.IsSpecifier := by
    intro earlier hmem
    simp only [List.mem_cons, List.not_mem_nil, or_false] at hmem
    rcases hmem with rfl | rfl
    · exact ⟨_, _, rfl, rfl⟩
    · exact ⟨_, _, rfl, rfl⟩
  have hbad : ¬(Document.int 7).IsSpecifier := by
    rintro ⟨value, specifier, hvalue, hspecifier⟩
    obtain rfl := Except.ok.inj hvalue
    cases hspecifier
  obtain ⟨error, hresult, -, hlocates, -⟩ :=
    apply_locates_iff_value hbefore rfl (rfl : _[2]? = some (Document.int 7)) hearlier hbad
  exact ⟨error, hresult, hlocates.2 ⟨_, rfl⟩⟩

/-- The second stage has a key that is not hexadecimal, and the message does not tell which stage
    that is: it is the same behind two stages. -/
theorem apply_leaves_literal_unlocated :
    let good : Document := .text "sha256"
    let bad : Document := .sequence [.text "aead_encrypt", .null,
      .mapping [(.text "key", .tagged "hex" (.text "xyz"))]]
    (withCatalogue.cookbook.apply ⟨[], [⟨"p", [good, bad]⟩]⟩ inlineOrigin).result =
        .error (.pipeline "p" (.value .badHex)) ∧
      ¬(ConfigError.value .badHex).Locates 1 ∧
      (withCatalogue.cookbook.apply ⟨[], [⟨"p", [good, good, bad]⟩]⟩ inlineOrigin).result =
        .error (.pipeline "p" (.value .badHex)) :=
  ⟨rfl, ConfigError.not_locates_value _ _, rfl⟩

end Cookbook

end Pipework
