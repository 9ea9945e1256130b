import Pipework.Proofs.Data.Dict
import Pipework.Proofs.Data.Refusal
import Pipework.Proofs.Text.Utf8
import Pipework.Proofs.Value.Json

set_option autoImplicit false

/-! # Values and documents correspond

A value has a document exactly if none of its leaves is a byte string or a number that is not
finite, and otherwise the first such leaf decides the error (`Value.decided_toJson`). The document
stands for the value with its sealed boxes in their map form. The other way round, the value of a
document has this same document, unless the document holds a whole number that no integer has room
for (`Value.toJson_ofJson_iff`). -/

namespace Pipework

namespace Value

/-! ## Leaves -/

mutual

/-- The parts of a value that hold no other values, as they stand in it: items one after another,
    and entries in the order of their keys. -/
def leaves : Value → List Value
  | list items => leavesOfItems items
  | map entries => leavesOfEntries entries
  | leaf => [leaf]

/-- The leaves of items. -/
def leavesOfItems : List Value → List Value
  | [] => []
  | item :: rest => leaves item ++ leavesOfItems rest

/-- The leaves of entries. -/
def leavesOfEntries : {lo : Option String} → Entries Value lo → List Value
  | _, .nil => []
  | _, .cons _ _ value rest => leaves value ++ leavesOfEntries rest

end

theorem leavesOfItems_eq (items : List Value) : leavesOfItems items = items.flatMap leaves := by
  induction items with
  | nil => rfl
  | cons item rest ih => rw [leavesOfItems, ih, List.flatMap_cons]

theorem leavesOfEntries_eq {lo : Option String} (entries : Entries Value lo) :
    leavesOfEntries entries = entries.toList.flatMap fun entry => entry.2.leaves := by
  induction entries with
  | nil => rfl
  | cons key above value rest ih => rw [leavesOfEntries, ih, Entries.toList, List.flatMap_cons]

/-- What is true of leaves alone is true of a part of a value if it is true of a leaf. -/
theorem hasPart_iff_exists_leaf {p : Value → Prop} (hlist : ∀ items, ¬p (.list items))
    (hmap : ∀ entries, ¬p (.map entries)) {value : Value} :
    value.HasPart p ↔ ∃ leaf ∈ value.leaves, p leaf := by
  induction value using Value.induction with
  | list items ih =>
      simp only [hasPart_list_iff, hlist, false_or, leaves, leavesOfItems_eq, List.mem_flatMap]
      constructor
      · rintro ⟨item, hmem, hpart⟩
        obtain ⟨leaf, hleaf, hp⟩ := (ih item hmem).1 hpart
        exact ⟨leaf, ⟨item, hmem, hleaf⟩, hp⟩
      · rintro ⟨leaf, ⟨item, hmem, hleaf⟩, hp⟩
        exact ⟨item, hmem, (ih item hmem).2 ⟨leaf, hleaf, hp⟩⟩
  | map entries ih =>
      simp only [hasPart_map_iff, hmap, false_or, leaves, leavesOfEntries_eq, List.mem_flatMap]
      constructor
      · rintro ⟨entry, hmem, hpart⟩
        obtain ⟨leaf, hleaf, hp⟩ := (ih entry hmem).1 hpart
        exact ⟨leaf, ⟨entry, hmem, hleaf⟩, hp⟩
      · rintro ⟨leaf, ⟨entry, hmem, hleaf⟩, hp⟩
        exact ⟨entry, hmem, (ih entry hmem).2 ⟨leaf, hleaf, hp⟩⟩
  | _ =>
      simp only [leaves, List.mem_singleton, exists_eq_left]
      exact hasPart_scalar_iff (by simp [kind]) (by simp [kind])

/-! ## Values without a document -/

/-- The leaf has a document. -/
def Documented (leaf : Value) : Prop := ¬leaf.IsBytes ∧ ¬leaf.IsNonFinite

/-- The leaf has no document, and the error says so. -/
inductive Undocumented : Value → TransformError → Prop
  | bytes (b : Bytes) : Undocumented (.bytes b) (.type "JSON-serializable value" "bytes")
  | nonFinite {x : Binary64} (h : x.isFinite = false) :
    Undocumented (.float x) (.format "json" "non-finite floats have no JSON representation")

theorem documented_of_kind_ne {leaf : Value} (hbytes : leaf.kind ≠ .bytes)
    (hfloat : leaf.kind ≠ .float) : leaf.Documented := by
  refine ⟨hbytes, ?_⟩
  rintro ⟨x, rfl, -⟩
  exact hfloat rfl

theorem Undocumented.not_documented {leaf : Value} {error : TransformError}
    (h : leaf.Undocumented error) : ¬leaf.Documented := by
  rintro ⟨hbytes, hfinite⟩
  cases h with
  | bytes b => exact hbytes rfl
  | nonFinite hx => exact hfinite ⟨_, rfl, hx⟩

theorem Undocumented.eq {leaf : Value} {error other : TransformError} (h : leaf.Undocumented error)
    (hother : leaf.Undocumented other) : error = other := by
  cases h <;> cases hother <;> rfl

/-- `result` is decided by the first of `leaves` that has no document. -/
abbrev DecidedByLeaves {α : Type} (leaves : List Value) (result : Except Fault α) : Prop :=
  Decided Documented (fun leaf fault => leaf.Undocumented fault.toError) leaves result

theorem decided_toJsonItems {items : List Value}
    (h : ∀ item ∈ items, DecidedByLeaves item.leaves item.toJson) :
    DecidedByLeaves (leavesOfItems items) (toJsonItems items) := by
  induction items with
  | nil => exact .ok nofun
  | cons item rest ih =>
      obtain ⟨hitem, hrest⟩ := List.forall_mem_cons.1 h
      exact hitem.bind fun json _ => (ih hrest).map (List.cons json)

theorem decided_toJsonMembers {lo : Option String} {entries : Entries Value lo}
    (h : ∀ entry ∈ entries.toList, DecidedByLeaves entry.2.leaves entry.2.toJson) :
    DecidedByLeaves (leavesOfEntries entries) (toJsonMembers entries) := by
  induction entries with
  | nil => exact .ok nofun
  | cons key above value rest ih =>
      obtain ⟨hvalue, hrest⟩ := List.forall_mem_cons.1 h
      exact hvalue.bind fun json _ => (ih hrest).map (Entries.cons key above json)

/-- **The first leaf without a document decides.** -/
theorem decided_toJson (value : Value) : DecidedByLeaves value.leaves value.toJson := by
  induction value using Value.induction with
  | list items ih => exact (decided_toJsonItems ih).map Json.array
  | map entries ih => exact (decided_toJsonMembers ih).map Json.object
  | bytes b => exact .error (.head (.bytes b) [])
  | float x =>
      rw [toJson]
      split
      · next hx =>
          have hbytes : (float x).kind ≠ .bytes := by simp [kind]
          refine .ok (List.forall_mem_singleton.2 ⟨hbytes, ?_⟩)
          rintro ⟨_, heq, hnot⟩
          obtain rfl := Value.float.inj heq
          exact Bool.false_ne_true (hnot.symm.trans hx)
      · next hx =>
          exact .error (.head (.nonFinite (Bool.not_eq_true _ ▸ hx)) [])
  | _ =>
      refine .ok (List.forall_mem_singleton.2 (documented_of_kind_ne ?_ ?_)) <;> simp [kind]

end Value

/-! ## Documents read as values -/

/-- A whole number that does not fit 64 bits with a sign. -/
def Number.IsLarge : Number → Prop
  | .large _ _ => True
  | _ => False

namespace Json

/-- A number in the document, at any depth, is `p`. -/
inductive HasNumber (p : Number → Prop) : Json → Prop
  | here {n : Number} (h : p n) : HasNumber p (.number n)
  | item {items : List Json} {item : Json} (hmem : item ∈ items) (h : HasNumber p item) :
    HasNumber p (.array items)
  | member {members : Dict Json} {member : String × Json} (hmem : member ∈ members.toList)
      (h : HasNumber p member.2) : HasNumber p (.object members)

theorem hasNumber_number_iff {p : Number → Prop} {n : Number} : HasNumber p (.number n) ↔ p n := by
  constructor
  · intro h
    cases h with
    | here h => exact h
  · exact .here

theorem not_hasNumber_array_iff {p : Number → Prop} {items : List Json} :
    ¬HasNumber p (.array items) ↔ ∀ item ∈ items, ¬HasNumber p item := by
  constructor
  · exact fun h item hmem hitem => h (.item hmem hitem)
  · intro h harray
    cases harray with
    | item hmem hitem => exact h _ hmem hitem

theorem not_hasNumber_object_iff {p : Number → Prop} {members : Dict Json} :
    ¬HasNumber p (.object members) ↔ ∀ member ∈ members.toList, ¬HasNumber p member.2 := by
  constructor
  · exact fun h member hmem hmember => h (.member hmem hmember)
  · intro h hobject
    cases hobject with
    | member hmem hmember => exact h _ hmem hmember

/-- Induction over documents, with the items and members of containers. -/
@[elab_as_elim]
theorem induction {motive : Json → Prop} (null : motive .null) (bool : ∀ b, motive (.bool b))
    (number : ∀ n, motive (.number n)) (text : ∀ s, motive (.text s))
    (array : ∀ items, (∀ item ∈ items, motive item) → motive (.array items))
    (object : ∀ members : Dict Json, (∀ member ∈ members.toList, motive member.2) →
      motive (.object members))
    (json : Json) : motive json :=
  -- as for values, "for all items" and "for all members" are the motives of the inner types
  @Json.rec motive (fun items => ∀ item ∈ items, motive item)
    (fun _ members => ∀ member ∈ members.toList, motive member.2) null bool number text array object
    (fun _ h => nomatch h)
    (fun _ _ hitem hrest => List.forall_mem_cons.2 ⟨hitem, hrest⟩)
    (fun _ h => nomatch h)
    (fun _ _ _ _ hmember hrest => List.forall_mem_cons.2 ⟨hmember, hrest⟩)
    json

end Json

namespace Value

theorem toJsonItems_ofJsonItems_iff {items : List Json} :
    toJsonItems (ofJsonItems items) = .ok items ↔
      ∀ item ∈ items, (ofJson item).toJson = .ok item := by
  induction items with
  | nil => exact ⟨fun _ => nofun, fun _ => rfl⟩
  | cons item rest ih =>
      simp only [ofJsonItems, toJsonItems, bind_eq_ok_iff, pure_eq_ok_iff, List.forall_mem_cons,
        ← ih]
      constructor
      · rintro ⟨json, hjson, jsons, hjsons, heq⟩
        obtain ⟨rfl, rfl⟩ := List.cons.inj heq
        exact ⟨hjson, hjsons⟩
      · rintro ⟨hitem, hrest⟩
        exact ⟨item, hitem, rest, hrest, rfl⟩

theorem toJsonMembers_ofJsonMembers_iff {lo : Option String} {members : Entries Json lo} :
    toJsonMembers (ofJsonMembers members) = .ok members ↔
      ∀ member ∈ members.toList, (ofJson member.2).toJson = .ok member.2 := by
  induction members with
  | nil => exact ⟨fun _ => nofun, fun _ => rfl⟩
  | cons key above json rest ih =>
      simp only [ofJsonMembers, toJsonMembers, bind_eq_ok_iff, pure_eq_ok_iff, Entries.toList,
        List.forall_mem_cons, ← ih]
      constructor
      · rintro ⟨json', hjson, rest', hrest, heq⟩
        obtain ⟨-, rfl, rfl⟩ := Entries.cons.inj heq
        exact ⟨hjson, hrest⟩
      · rintro ⟨hjson, hrest⟩
        exact ⟨json, hjson, rest, hrest, rfl⟩

theorem toJson_ofNumber_iff {n : Number} :
    (ofNumber n).toJson = .ok (.number n) ↔ ¬n.IsLarge := by
  cases n with
  | int n => exact ⟨fun _ => id, fun _ => rfl⟩
  | large n hn =>
      refine ⟨fun h => ?_, fun h => absurd trivial h⟩
      rw [ofNumber, toJson] at h
      split at h <;> cases h
  | float x hx =>
      rw [ofNumber, toJson, dif_pos hx]
      exact ⟨fun _ => id, fun _ => rfl⟩

/-- **The value of a document has this document** unless there is a number in it that becomes a
    floating-point number. -/
theorem toJson_ofJson_iff {json : Json} :
    (ofJson json).toJson = .ok json ↔ ¬json.HasNumber Number.IsLarge := by
  induction json using Json.induction with
  | number n => rw [ofJson, toJson_ofNumber_iff, Json.hasNumber_number_iff]
  | array items ih =>
      simp only [ofJson, toJson, bind_eq_ok_iff, pure_eq_ok_iff, Json.array.injEq, exists_eq_right,
        toJsonItems_ofJsonItems_iff, Json.not_hasNumber_array_iff]
      exact forall₂_congr ih
  | object members ih =>
      simp only [ofJson, toJson, bind_eq_ok_iff, pure_eq_ok_iff, Json.object.injEq, exists_eq_right,
        toJsonMembers_ofJsonMembers_iff, Json.not_hasNumber_object_iff]
      exact forall₂_congr ih
  | _ =>
      refine ⟨fun _ h => ?_, fun _ => rfl⟩
      cases h

/-! ## Both directions -/

/-- **Values and documents correspond.** A value has a document exactly if no byte string and no
    number that is not finite is in it at any depth. The document stands for the value with sealed
    boxes in their map form, and all else as it was. Of any other value, the first leaf that has no
    document decides the error, where items come one after another and entries in the order of the
    bytes of their keys. The value of a document has just this document, unless a whole number in it
    does not fit 64 bits with a sign. -/
theorem documents_correspond (value : Value) (json : Json) :
    ((∃ document, value.toJson = .ok document) ↔
      ¬value.HasPart IsBytes ∧ ¬value.HasPart IsNonFinite) ∧
    (∀ document, value.toJson = .ok document → ofJson document = value.unboxed) ∧
    (∀ error, (value.toJson).mapError Fault.toError = .error error ↔
      ∃ before leaf after, value.leaves = before ++ leaf :: after ∧
        (∀ earlier ∈ before, ¬earlier.IsBytes ∧ ¬earlier.IsNonFinite) ∧
        leaf.Undocumented error) ∧
    (∀ items, (list items).leaves = items.flatMap leaves) ∧
    (∀ entries : Dict Value,
      (map entries).leaves = entries.toList.flatMap (fun entry => entry.2.leaves) ∧
      entries.toList.Pairwise fun first second => Utf8.encode first.1 < Utf8.encode second.1) ∧
    ((ofJson json).toJson = .ok json ↔ ¬json.HasNumber Number.IsLarge) := by
  have hdecided := decided_toJson value
  have hexcl : ∀ leaf error, Undocumented leaf error → ¬Documented leaf :=
    fun _ _ h => h.not_documented
  refine ⟨?_, fun document h => (mirrors_of_toJson h).ofJson_eq, fun error => ?_,
    leavesOfItems_eq, fun entries => ⟨leavesOfEntries_eq entries, ?_⟩, toJson_ofJson_iff⟩
  · rw [hdecided.exists_ok_iff fun leaf fault => hexcl leaf fault.toError,
      hasPart_iff_exists_leaf nofun nofun, hasPart_iff_exists_leaf (fun _ => nofun) (fun _ => nofun)]
    simp only [Documented, not_exists, not_and, forall_and]
  · exact (hdecided.mapError fun _ _ h => h).eq_error_iff hexcl fun _ _ _ h hother => h.eq hother
  · exact entries.pairwise_toList.imp Utf8.encode_lt_encode

end Value

end Pipework
