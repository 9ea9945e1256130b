import Pipework.Document.Value
import Pipework.Proofs.Data.Dict

set_option autoImplicit false

/-! # Values of documents

The kind of a document tells those that its value may have (`Document.kind_mem_of_toValue`). A
mapping whose keys are texts has the value of the dictionary with its entries, in whatever order
they stand (`Document.toValue_mapping_eq_ok_iff`). -/

namespace Pipework

/-! ## Kinds -/

/-- The kinds that the values of such documents have. -/
def DocumentKind.valueKinds : DocumentKind → List Kind
  | null => [.null]
  | bool => [.bool]
  | number => [.int, .float]
  | text => [.text]
  | sequence => [.list]
  | mapping => [.map]
  | tagged => [.bytes]

namespace Document

theorem kind_mem_of_toValue {document : Document} {value : Value}
    (h : document.toValue = .ok value) : value.kind ∈ document.kind.valueKinds := by
  cases document with
  | sequence items =>
      obtain ⟨values, -, h⟩ := bind_eq_ok_iff.1 h
      obtain rfl := pure_eq_ok_iff.1 h
      exact List.mem_singleton_self _
  | mapping entries =>
      obtain ⟨dict, -, h⟩ := bind_eq_ok_iff.1 h
      obtain rfl := pure_eq_ok_iff.1 h
      exact List.mem_singleton_self _
  | tagged tag content =>
      cases content with
      | text s =>
          obtain ⟨bytes, -, h⟩ := bind_eq_ok_iff.1 h
          obtain rfl := pure_eq_ok_iff.1 h
          exact List.mem_singleton_self _
      | _ => cases h
  | int n =>
      obtain rfl := Except.ok.inj h
      unfold intValue
      split
      · exact List.mem_cons_self
      · exact List.mem_cons_of_mem _ (List.mem_singleton_self _)
  | _ =>
      obtain rfl := Except.ok.inj h
      simp only [Value.kind, kind, DocumentKind.valueKinds, List.mem_cons, true_or, or_true]

theorem kind_eq_null_iff_of_toValue {document : Document} {value : Value}
    (h : document.toValue = .ok value) : value.kind = .null ↔ document.kind = .null := by
  have hkinds : ∀ found : DocumentKind, ∀ kind ∈ found.valueKinds,
      kind = .null ↔ found = .null := by
    intro found
    cases found <;> decide
  exact hkinds _ _ (kind_mem_of_toValue h)

theorem kind_eq_map_iff_of_toValue {document : Document} {value : Value}
    (h : document.toValue = .ok value) : value.kind = .map ↔ document.kind = .mapping := by
  have hkinds : ∀ found : DocumentKind, ∀ kind ∈ found.valueKinds,
      kind = .map ↔ found = .mapping := by
    intro found
    cases found <;> decide
  exact hkinds _ _ (kind_mem_of_toValue h)

/-! ## Sequences -/

theorem itemValues_eq_ok_iff {items : List Document} {values : List Value} :
    itemValues items = .ok values ↔
      List.Forall₂ (fun item value => item.toValue = .ok value) items values := by
  induction items generalizing values with
  | nil =>
      rw [itemValues, List.forall₂_nil_left_iff]
      exact ⟨fun h => (Except.ok.inj h).symm, congrArg Except.ok ∘ Eq.symm⟩
  | cons item rest ih =>
      simp only [itemValues, bind_eq_ok_iff, pure_eq_ok_iff, List.forall₂_cons_left_iff, ih]
      constructor
      · rintro ⟨value, hvalue, values, hvalues, rfl⟩
        exact ⟨value, values, hvalue, hvalues, rfl⟩
      · rintro ⟨value, values, hvalue, hvalues, rfl⟩
        exact ⟨value, hvalue, values, hvalues, rfl⟩

theorem toValue_sequence_eq_ok_iff {items : List Document} {value : Value} :
    toValue (.sequence items) = .ok value ↔
      ∃ values, List.Forall₂ (fun item value => item.toValue = .ok value) items values ∧
        value = .list values := by
  simp only [toValue, bind_eq_ok_iff, pure_eq_ok_iff, itemValues_eq_ok_iff, eq_comm (a := value)]

/-! ## Mappings with texts for keys -/

/-- The entries of a mapping whose keys are texts. -/
def textEntries (pairs : List (String × Document)) : List (Document × Document) :=
  pairs.map fun pair => (.text pair.1, pair.2)

theorem entryValues_textEntries_toList {lo : Option String} (entries : Entries Document lo)
    (done : Dict Value) :
    entryValues done (textEntries entries.toList) =
      (entries.mapExcept toValue).map fun images =>
        images.toList.foldl (fun (dict : Dict Value) entry => dict.insert entry.1 entry.2) done := by
  induction entries generalizing done with
  | nil => rfl
  | cons key above content rest ih =>
      rw [Entries.toList, textEntries, List.map_cons, entryValues, Entries.mapExcept]
      cases hvalue : content.toValue with
      | error error => rfl
      | ok value =>
          refine (ih (done.insert key value)).trans ?_
          cases rest.mapExcept toValue <;> rfl

/-- Entries with different keys may stand in any order. -/
theorem entryValues_perm {pairs others : List (String × Document)} (h : pairs.Perm others)
    (hkeys : (pairs.map Prod.fst).Nodup) {done result : Dict Value}
    (hresult : entryValues done (textEntries pairs) = .ok result) :
    entryValues done (textEntries others) = .ok result := by
  induction h generalizing done with
  | nil => exact hresult
  | cons pair _ ih =>
      rw [List.map_cons, List.nodup_cons] at hkeys
      rw [textEntries, List.map_cons, entryValues, bind_eq_ok_iff] at hresult ⊢
      obtain ⟨value, hvalue, hrest⟩ := hresult
      exact ⟨value, hvalue, ih hkeys.2 hrest⟩
  | swap first second rest =>
      have hne : second.1 ≠ first.1 := by
        rw [List.map_cons, List.nodup_cons] at hkeys
        exact fun heq => hkeys.1 (heq ▸ List.mem_cons_self)
      simp only [textEntries, List.map_cons, entryValues, bind_eq_ok_iff] at hresult ⊢
      obtain ⟨value, hvalue, value', hvalue', hrest⟩ := hresult
      rw [Dict.insert_comm done hne] at hrest
      exact ⟨value', hvalue', value, hvalue, hrest⟩
  | trans hfirst _ ih ih' =>
      exact ih' ((hfirst.map Prod.fst).nodup_iff.1 hkeys) (ih hkeys hresult)

theorem toValue_mapping_eq_ok_iff {entries : Dict Document} {pairs : List (String × Document)}
    (h : pairs.Perm entries.toList) {value : Value} :
    toValue (.mapping (textEntries pairs)) = .ok value ↔
      ∃ images, entries.mapExcept toValue = .ok images ∧ value = .map images := by
  have hkeys := entries.nodup_keys
  have hlist (images : Dict Value) : entryValues .empty (textEntries entries.toList) = .ok images ↔
      entries.mapExcept toValue = .ok images := by
    rw [entryValues_textEntries_toList]
    cases entries.mapExcept toValue with
    | error error => exact ⟨nofun, nofun⟩
    | ok images' =>
        have hself : Dict.ofList images'.toList = images' := Dict.ofList_toList images'
        exact Iff.of_eq (congrArg (Except.ok · = _) hself)
  simp only [toValue, bind_eq_ok_iff, pure_eq_ok_iff, eq_comm (a := value), ← hlist]
  constructor
  · rintro ⟨images, himages, rfl⟩
    exact ⟨images, entryValues_perm h ((h.map Prod.fst).nodup_iff.2 hkeys) himages, rfl⟩
  · rintro ⟨images, himages, rfl⟩
    exact ⟨images, entryValues_perm h.symm hkeys himages, rfl⟩

end Document

end Pipework
