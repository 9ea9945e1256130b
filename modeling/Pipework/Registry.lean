import Pipework.Error.Transform
import Pipework.Log.Message
import Pipework.Text.Infix

set_option autoImplicit false

/-! # Registries

A `Registry` stores templates by name. Names stand in the order in which they were first registered
and no name stands twice, which is part of the type; a template that replaces another one keeps its
place. Registering returns everything it has to tell at once (`Registration`): the new registry, the
template that was replaced and the message to report. -/

namespace Pipework

/-! ## Templates -/

/-- What a registry holds. -/
inductive TemplateKind
  | step
  | pipeline
deriving DecidableEq, Repr

/-- The name of a kind of templates in messages. -/
def TemplateKind.name : TemplateKind → String
  | step => "step"
  | pipeline => "pipeline"

/-- Things that can be registered, all of one kind. -/
class Template (α : Type) where
  kind : TemplateKind

/-- A name was looked up that is not registered. -/
structure NotFound where
  kind : TemplateKind
  name : String
deriving DecidableEq, Repr

/-- The refusal in words. -/
def NotFound.message (e : NotFound) : String := s!"{e.kind.name} '{e.name}' is not registered"

/-! ## Named entries -/

namespace Registry

variable {α : Type}

/-- The names of entries, in order. -/
def namesOf (entries : List (String × α)) : List String := entries.map Prod.fst

/-- `entries` with `template` under `name`: in the place that the name has, or else at the end. -/
def put (name : String) (template : α) : List (String × α) → List (String × α)
  | [] => [(name, template)]
  | (key, old) :: rest =>
    if key = name then (key, template) :: rest else (key, old) :: put name template rest

theorem mem_namesOf_put {name key : String} {template : α} {entries : List (String × α)} :
    key ∈ namesOf (put name template entries) ↔ key = name ∨ key ∈ namesOf entries := by
  induction entries with
  | nil => simp [put, namesOf]
  | cons entry rest ih =>
    obtain ⟨first, old⟩ := entry
    by_cases h : first = name
    · simp [put, namesOf, h]
    · simp only [namesOf] at ih
      simp only [put, h, if_false, namesOf, List.map_cons, List.mem_cons, ih]
      exact or_left_comm

theorem nodup_namesOf_put {name : String} {template : α} {entries : List (String × α)}
    (h : (namesOf entries).Nodup) : (namesOf (put name template entries)).Nodup := by
  induction entries with
  | nil => simp [put, namesOf]
  | cons entry rest ih =>
    obtain ⟨first, old⟩ := entry
    have parts : first ∉ namesOf rest ∧ (namesOf rest).Nodup := List.nodup_cons.mp h
    by_cases same : first = name
    · simpa [put, namesOf, same] using h
    · have fresh : first ∉ namesOf (put name template rest) := fun mem =>
        (mem_namesOf_put.mp mem).elim same parts.1
      simpa [put, same, namesOf] using List.nodup_cons.mpr ⟨fresh, ih parts.2⟩

end Registry

/-! ## Registries -/

/-- Templates by name, in the order of first registration. -/
structure Registry (α : Type) where
  entries : List (String × α)
  nodup : (Registry.namesOf entries).Nodup

/-- What came of registering a template. -/
structure Registration (α : Type) where
  registry : Registry α
  /-- The template that stood under the name before. -/
  replaced : Option α
  message : Message

namespace Registry

variable {α : Type}

/-- Nothing is registered. -/
def empty : Registry α := ⟨[], List.nodup_nil⟩

/-- The registered names, first registration first. -/
def names (registry : Registry α) : List String := namesOf registry.entries

/-- How many names are registered. -/
def size (registry : Registry α) : Nat := registry.entries.length

/-- Nothing is registered. -/
def isEmpty (registry : Registry α) : Bool := registry.entries.isEmpty

/-! ## Looking up -/

/-- The template under `name`. -/
def get? (registry : Registry α) (name : String) : Option α :=
  (registry.entries.find? fun entry => entry.1 = name).map Prod.snd

/-- The template under `name`, or a refusal that names it. -/
def get [Template α] (registry : Registry α) (name : String) : Except NotFound α :=
  match registry.get? name with
  | some template => .ok template
  | none => .error ⟨Template.kind α, name⟩

/-- The template under `name`, or `fallback` if there is none. -/
def getD (registry : Registry α) (name : String) (fallback : α) : α :=
  (registry.get? name).getD fallback

/-- The name is registered. -/
def contains (registry : Registry α) (name : String) : Bool := (registry.get? name).isSome

/-- The registered names in which `needle` occurs, in order. -/
def search (registry : Registry α) (needle : String) : List String :=
  registry.names.filter fun name => Text.occursIn needle.toList name.toList

/-! ## Registering -/

/-- The registry with `template` under `name`. -/
def insert (registry : Registry α) (name : String) (template : α) : Registry α :=
  ⟨put name template registry.entries, nodup_namesOf_put registry.nodup⟩

/-- Registers `template` under `name`. -/
def register [Template α] (registry : Registry α) (name : String) (template : α) :
    Registration α :=
  let next := registry.insert name template
  let replaced := registry.get? name
  let kind := (Template.kind α).name
  let message : Message :=
    match replaced with
    | some _ => .templateOverwritten kind name
    | none => .templateRegistered kind name next.size
  { registry := next, replaced, message }

/-! ## Diagnostic form -/

/-- The registry in diagnostic form. -/
def form [Template α] (registry : Registry α) : String :=
  recordForm "Registry"
    [("kind", Text.quoted (Template.kind α).name),
      ("names", Text.bracketed (registry.names.map Text.quoted))]

end Registry

end Pipework
