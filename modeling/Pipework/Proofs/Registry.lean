import Pipework.Registry
import Mathlib.Data.List.Induction
import Mathlib.Data.List.Infix

set_option autoImplicit false

/-! # Registries and their histories

All that a registry ever shows follows from what was registered in it, in order: the names stand in
the order in which they came up first (`Registry.firstNames`), and under a name is the template that
was registered under it last (`Registry.lastTemplate?`). One registration more keeps this up
(`Registry.Records.insert`), so it holds after any number of them
(`Registry.after_shows_history`). -/

namespace Pipework

theorem Text.occursIn_iff {needle text : List Char} :
    occursIn needle text = true ↔ needle <:+: text := by
  induction text with
  | nil => simp [occursIn]
  | cons c rest ih =>
      rw [occursIn, Bool.or_eq_true, ih, List.isPrefixOf_iff_prefix, List.infix_cons_iff]

namespace Registry

variable {α : Type}

/-! ## Looking up -/

theorem exists_get?_iff {registry : Registry α} {name : String} :
    (∃ template, registry.get? name = some template) ↔ name ∈ registry.names := by
  unfold get? names namesOf
  rw [← Option.isSome_iff_exists, Option.isSome_map, List.find?_isSome, List.mem_map]
  simp only [decide_eq_true_eq]

theorem get?_eq_none_iff {registry : Registry α} {name : String} :
    registry.get? name = none ↔ name ∉ registry.names := by
  rw [← exists_get?_iff, Option.eq_none_iff_forall_ne_some, not_exists]

theorem exists_get_iff [Template α] {registry : Registry α} {name : String} :
    (∃ template, registry.get name = .ok template) ↔ name ∈ registry.names := by
  rw [← exists_get?_iff]
  unfold get
  cases registry.get? name <;> simp

theorem contains_iff {registry : Registry α} {name : String} :
    registry.contains name = true ↔ name ∈ registry.names := by
  rw [← exists_get?_iff, contains, Option.isSome_iff_exists]

theorem get_eq_ok_iff [Template α] {registry : Registry α} {name : String} {template : α} :
    registry.get name = .ok template ↔ registry.get? name = some template := by
  unfold get
  cases registry.get? name <;> simp

theorem eq_of_get_eq_error [Template α] {registry : Registry α} {name : String} {error : NotFound}
    (h : registry.get name = .error error) : error = ⟨Template.kind α, name⟩ := by
  unfold get at h
  split at h
  · cases h
  · exact (Except.error.inj h).symm

theorem find?_put (name : String) (template : α) (entries : List (String × α)) (other : String) :
    (put name template entries).find? (fun entry => entry.1 = other) =
      if name = other then some (name, template) else
        entries.find? fun entry => entry.1 = other := by
  induction entries with
  | nil => by_cases hother : name = other <;> simp [put, hother]
  | cons entry rest ih =>
      by_cases hname : entry.1 = name
      · subst hname
        by_cases hother : entry.1 = other <;> simp [put, hother]
      · by_cases hentry : entry.1 = other
        · subst hentry
          simp [put, hname, Ne.symm hname]
        · simpa [put, hname, hentry] using ih

theorem get?_insert (registry : Registry α) (name : String) (template : α) (other : String) :
    (registry.insert name template).get? other =
      if name = other then some template else registry.get? other := by
  unfold get? insert
  rw [find?_put]
  split <;> rfl

/-- What is registered under a name fulfils `P` with it. -/
def Each (P : String → α → Prop) (registry : Registry α) : Prop :=
  ∀ name template, registry.get? name = some template → P name template

theorem each_empty (P : String → α → Prop) : (empty : Registry α).Each P := by
  intro name template h
  cases h

theorem Each.insert {P : String → α → Prop} {registry : Registry α} (h : registry.Each P)
    {name : String} {template : α} (hname : P name template) :
    (registry.insert name template).Each P := by
  intro other found hfound
  rw [get?_insert] at hfound
  by_cases heq : name = other
  · rw [if_pos heq] at hfound
    obtain rfl := Option.some.inj hfound
    exact heq ▸ hname
  · rw [if_neg heq] at hfound
    exact h other found hfound

/-! ## Names -/

theorem namesOf_put (name : String) (template : α) (entries : List (String × α)) :
    namesOf (put name template entries) =
      if name ∈ namesOf entries then namesOf entries else namesOf entries ++ [name] := by
  unfold namesOf
  induction entries with
  | nil => simp [put]
  | cons entry rest ih =>
      by_cases hfirst : entry.1 = name
      · simp [put, hfirst]
      · simp only [put, hfirst, if_false, List.map_cons, ih, List.mem_cons, Ne.symm hfirst,
          false_or]
        split <;> rfl

theorem names_insert (registry : Registry α) (name : String) (template : α) :
    (registry.insert name template).names =
      if name ∈ registry.names then registry.names else registry.names ++ [name] :=
  namesOf_put name template registry.entries

theorem size_eq_length_names (registry : Registry α) : registry.size = registry.names.length :=
  (List.length_map _).symm

/-! ## Messages -/

/-- What is reported when a template is registered under `name`. -/
def announcement [Template α] (registry : Registry α) (name : String) : Message :=
  if name ∈ registry.names then .templateOverwritten (Template.kind α).name name
  else .templateRegistered (Template.kind α).name name (registry.size + 1)

theorem announcement_ne_loaded [Template α] {registry : Registry α} {name source : String}
    {steps pipelines : Nat} :
    registry.announcement name ≠ .cookbookLoaded source steps pipelines := by
  unfold announcement
  by_cases hname : name ∈ registry.names
  · simp only [if_pos hname, ne_eq, reduceCtorEq, not_false_eq_true]
  · simp only [if_neg hname, ne_eq, reduceCtorEq, not_false_eq_true]

theorem message_register [Template α] (registry : Registry α) (name : String) (template : α) :
    (registry.register name template).message = registry.announcement name := by
  unfold announcement
  by_cases hname : name ∈ registry.names
  · obtain ⟨old, hold⟩ := exists_get?_iff.2 hname
    simp only [register, hold, if_pos hname]
  · have hsize : (registry.insert name template).size = registry.size + 1 := by
      rw [size_eq_length_names, size_eq_length_names, names_insert, if_neg hname,
        List.length_append, List.length_singleton]
    simp only [register, get?_eq_none_iff.2 hname, if_neg hname, hsize]

/-! ## Histories -/

/-- The different names in a history, first registration first. -/
def firstNames (history : List (String × α)) : List String := (history.map Prod.fst).eraseDups

/-- The template that a history has last under `name`. -/
def lastTemplate? (history : List (String × α)) (name : String) : Option α :=
  history.reverse.lookup name

theorem mem_firstNames {history : List (String × α)} {name : String} :
    name ∈ firstNames history ↔ ∃ template, (name, template) ∈ history := by
  unfold firstNames
  simp only [List.mem_eraseDups, List.mem_map, Prod.exists, exists_eq_right, exists_and_right]

theorem firstNames_snoc (history : List (String × α)) (name : String) (template : α) :
    firstNames (history ++ [(name, template)]) =
      if name ∈ firstNames history then firstNames history else firstNames history ++ [name] := by
  unfold firstNames
  rw [List.map_append, List.eraseDups_append]
  by_cases hname : name ∈ history.map Prod.fst
  · simp [List.mem_eraseDups, hname, List.removeAll]
  · have hsingle : [name].eraseDups = [name] := rfl
    simp [List.mem_eraseDups, hname, List.removeAll, hsingle]

theorem lastTemplate?_snoc (history : List (String × α)) (name : String) (template : α)
    (other : String) :
    lastTemplate? (history ++ [(name, template)]) other =
      if name = other then some template else lastTemplate? history other := by
  unfold lastTemplate?
  rw [List.reverse_append, List.reverse_singleton, List.singleton_append, List.lookup_cons]
  by_cases hother : name = other
  · subst hother
    simp
  · simp [hother, beq_false_of_ne (Ne.symm hother)]

/-- The registry holds what is left of a history. -/
structure Records (registry : Registry α) (history : List (String × α)) : Prop where
  names_eq : registry.names = firstNames history
  get?_eq : ∀ name, registry.get? name = lastTemplate? history name

theorem records_empty : (empty : Registry α).Records [] := ⟨rfl, fun _ => rfl⟩

/-- **One registration more.** -/
theorem Records.insert {registry : Registry α} {history : List (String × α)}
    (h : registry.Records history) (name : String) (template : α) :
    (registry.insert name template).Records (history ++ [(name, template)]) where
  names_eq := by rw [names_insert, firstNames_snoc, h.names_eq]
  get?_eq other := by rw [get?_insert, lastTemplate?_snoc, h.get?_eq]

/-- The registry after the registrations of a history, in order. -/
def after [Template α] (history : List (String × α)) : Registry α :=
  history.foldl (fun registry entry => (registry.register entry.1 entry.2).registry) empty

theorem after_snoc [Template α] (history : List (String × α)) (name : String) (template : α) :
    after (history ++ [(name, template)]) = ((after history).register name template).registry :=
  List.foldl_append

theorem after_records [Template α] (history : List (String × α)) :
    (after history).Records history := by
  induction history using List.reverseRecOn with
  | nil => exact records_empty
  | append_singleton history entry ih =>
      obtain ⟨name, template⟩ := entry
      rw [after_snoc]
      exact ih.insert name template

/-! ## What a registry shows -/

/-- Everything that can be read off a registry is told by its history. -/
structure Shows [Template α] (registry : Registry α) (history : List (String × α)) : Prop where
  names_eq : registry.names = firstNames history
  size_eq : registry.size = (firstNames history).length
  search_eq : ∀ needle, registry.search needle =
    (firstNames history).filter fun name => needle.toList <:+: name.toList
  search_empty : registry.search "" = firstNames history
  found : ∀ name template, lastTemplate? history name = some template →
    registry.get? name = some template ∧ registry.get name = .ok template ∧
      registry.contains name = true ∧ ∀ fallback, registry.getD name fallback = template
  missing : ∀ name, lastTemplate? history name = none →
    registry.get? name = none ∧ registry.get name = .error ⟨Template.kind α, name⟩ ∧
      registry.contains name = false ∧ ∀ fallback, registry.getD name fallback = fallback

theorem Records.search_eq {registry : Registry α} {history : List (String × α)}
    (h : registry.Records history) (needle : String) :
    registry.search needle =
      (firstNames history).filter fun name => needle.toList <:+: name.toList := by
  unfold search
  rw [h.names_eq]
  refine List.filter_congr fun name _ => ?_
  rw [Bool.eq_iff_iff, Text.occursIn_iff, decide_eq_true_iff]

theorem Records.shows [Template α] {registry : Registry α} {history : List (String × α)}
    (h : registry.Records history) : registry.Shows history where
  names_eq := h.names_eq
  size_eq := by rw [size_eq_length_names, h.names_eq]
  search_eq := h.search_eq
  search_empty := by
    rw [h.search_eq, List.filter_eq_self]
    intro name _
    exact decide_eq_true (List.nil_infix (l := name.toList))
  found name template hlast := by
    have hget : registry.get? name = some template := (h.get?_eq name).trans hlast
    refine ⟨hget, get_eq_ok_iff.2 hget, ?_, ?_⟩
    · rw [contains, hget, Option.isSome_some]
    · intro fallback
      rw [getD, hget, Option.getD_some]
  missing name hlast := by
    have hget : registry.get? name = none := (h.get?_eq name).trans hlast
    refine ⟨hget, ?_, ?_, ?_⟩
    · rw [get, hget]
    · rw [contains, hget, Option.isSome_none]
    · intro fallback
      rw [getD, hget, Option.getD_none]

/-- What comes of a registration behind a history: it gives back what was there, and tells whether
    something was replaced or how many names there are now. -/
structure Follows [Template α] (registration : Registration α) (history : List (String × α))
    (name : String) (template : α) : Prop where
  registry_eq : registration.registry = after (history ++ [(name, template)])
  replaced_eq : registration.replaced = lastTemplate? history name
  overwritten : ∀ old, registration.replaced = some old →
    registration.message = .templateOverwritten (Template.kind α).name name
  registered : registration.replaced = none →
    registration.message = .templateRegistered (Template.kind α).name name
      (firstNames (history ++ [(name, template)])).length

theorem register_follows [Template α] (history : List (String × α)) (name : String)
    (template : α) : Follows ((after history).register name template) history name template := by
  have hreplaced : ((after history).register name template).replaced = (after history).get? name :=
    rfl
  have hsize : ((after history).insert name template).size =
      (firstNames (history ++ [(name, template)])).length := by
    rw [size_eq_length_names, ((after_records history).insert name template).names_eq]
  refine ⟨(after_snoc history name template).symm, ?_, ?_, ?_⟩
  · rw [hreplaced, (after_records history).get?_eq]
  · intro old hold
    rw [hreplaced] at hold
    simp only [register, hold]
  · intro hnone
    rw [hreplaced] at hnone
    simp only [register, hnone, hsize]

/-- **A registry shows its history.** After any registrations, everything that is read off the
    registry is told by two things: the different names in the order in which they came up first,
    and the last template under each of them. Every one of the registrations gave back the template
    that was the last one under its name until then, reported that it was overwritten if there was
    one, and otherwise reported how many names there were with the new one. -/
theorem after_shows_history [Template α] (history : List (String × α)) :
    (firstNames history).Nodup ∧
    (∀ name, name ∈ firstNames history ↔ ∃ template, (name, template) ∈ history) ∧
    (∀ name, name ∈ firstNames history ↔ ∃ template, lastTemplate? history name = some template) ∧
    (after history).Shows history ∧
    ∀ before name template rest, history = before ++ (name, template) :: rest →
      Follows ((after before).register name template) before name template := by
  have hrecords := after_records history
  refine ⟨?_, fun _ => mem_firstNames, ?_, hrecords.shows, ?_⟩
  · rw [← hrecords.names_eq]
    exact (after history).nodup
  · intro name
    rw [← hrecords.names_eq, ← exists_get?_iff]
    simp only [hrecords.get?_eq]
  · intro before name template _ _
    exact register_follows before name template

end Registry

end Pipework
