import Pipework.Proofs.Data.Except
import Pipework.Proofs.Json.RoundTrip
import Pipework.Value.Json

set_option autoImplicit false

/-! # Values and their documents

`Value.toJson` succeeds on every value without byte strings and without numbers that are not finite
(`exists_toJson`). The document it gives stands for the value with every sealed box in its map form
(`Value.unboxed`), nests as deep as the value, and holds whole numbers only if the value does
(`mirrors_of_toJson`). -/

namespace Pipework

namespace Value

/-! ## Parts of a value -/

/-- A value or something inside it, at any depth, is `p`. -/
inductive HasPart (p : Value → Prop) : Value → Prop
  | here {value : Value} (h : p value) : HasPart p value
  | item {items : List Value} {item : Value} (hmem : item ∈ items) (h : HasPart p item) :
    HasPart p (.list items)
  | entry {entries : Dict Value} {entry : String × Value} (hmem : entry ∈ entries.toList)
      (h : HasPart p entry.2) : HasPart p (.map entries)

theorem HasPart.mono {p q : Value → Prop} {value : Value} (h : HasPart p value)
    (hpq : ∀ v, p v → q v) : HasPart q value := by
  induction h with
  | here h => exact .here (hpq _ h)
  | item hmem _ ih => exact .item hmem ih
  | entry hmem _ ih => exact .entry hmem ih

theorem hasPart_list_iff {p : Value → Prop} {items : List Value} :
    HasPart p (.list items) ↔ p (.list items) ∨ ∃ item ∈ items, HasPart p item := by
  constructor
  · intro h
    cases h with
    | here h => exact Or.inl h
    | item hmem h => exact Or.inr ⟨_, hmem, h⟩
  · rintro (h | ⟨item, hmem, h⟩)
    · exact .here h
    · exact .item hmem h

theorem hasPart_map_iff {p : Value → Prop} {entries : Dict Value} :
    HasPart p (.map entries) ↔ p (.map entries) ∨ ∃ entry ∈ entries.toList, HasPart p entry.2 := by
  constructor
  · intro h
    cases h with
    | here h => exact Or.inl h
    | entry hmem h => exact Or.inr ⟨_, hmem, h⟩
  · rintro (h | ⟨entry, hmem, h⟩)
    · exact .here h
    · exact .entry hmem h

/-- Nothing is inside a value that is neither a list nor a map. -/
theorem hasPart_scalar_iff {p : Value → Prop} {value : Value} (hlist : value.kind ≠ .list)
    (hmap : value.kind ≠ .map) : HasPart p value ↔ p value := by
  constructor
  · intro h
    cases h with
    | here h => exact h
    | item => exact absurd rfl hlist
    | entry => exact absurd rfl hmap
  · exact .here

/-- A byte string. -/
def IsBytes (value : Value) : Prop := value.kind = .bytes

/-- A floating-point number. -/
def IsFloat (value : Value) : Prop := value.kind = .float

/-- A floating-point number that is infinite or not a number. -/
def IsNonFinite (value : Value) : Prop := ∃ x, value = .float x ∧ x.isFinite = false

/-- Induction over values, with the items and entries of containers. -/
@[elab_as_elim]
theorem induction {motive : Value → Prop} (null : motive .null) (bool : ∀ b, motive (.bool b))
    (int : ∀ n, motive (.int n)) (float : ∀ x, motive (.float x)) (text : ∀ s, motive (.text s))
    (bytes : ∀ b, motive (.bytes b))
    (list : ∀ items, (∀ item ∈ items, motive item) → motive (.list items))
    (map : ∀ entries : Dict Value, (∀ entry ∈ entries.toList, motive entry.2) →
      motive (.map entries))
    (sealedBox : ∀ box, motive (.sealedBox box)) (value : Value) : motive value :=
  -- the recursor of the nested type, with "for all items" and "for all entries" as the other motives
  @Value.rec motive (fun items => ∀ item ∈ items, motive item)
    (fun _ entries => ∀ entry ∈ entries.toList, motive entry.2) null bool int float text bytes list
    map sealedBox
    (fun _ h => nomatch h)
    (fun _ _ hitem hrest _ hmem =>
      (List.mem_cons.1 hmem).elim (fun heq => heq ▸ hitem) (hrest _))
    (fun _ h => nomatch h)
    (fun _ _ _ _ hvalue hrest _ hmem =>
      (List.mem_cons.1 hmem).elim (fun heq => heq ▸ hvalue) (hrest _))
    value

/-! ## Depth and map forms -/

mutual

/-- How deep lists, maps and sealed boxes nest; an empty one counts as well. -/
def depth : Value → Nat
  | list items => depthOfItems items + 1
  | map entries => depthOfEntries entries + 1
  | sealedBox _ => 1
  | _ => 0

/-- The greatest depth of an item. -/
def depthOfItems : List Value → Nat
  | [] => 0
  | item :: rest => max (depth item) (depthOfItems rest)

/-- The greatest depth of a value under a key. -/
def depthOfEntries : {lo : Option String} → Entries Value lo → Nat
  | _, .nil => 0
  | _, .cons _ _ value rest => max (depth value) (depthOfEntries rest)

end

mutual

/-- The value with every sealed box in it replaced by its map form. -/
def unboxed : Value → Value
  | list items => list (unboxedItems items)
  | map entries => map (unboxedEntries entries)
  | sealedBox box => box.toValue
  | other => other

/-- The items with every sealed box in them replaced. -/
def unboxedItems : List Value → List Value
  | [] => []
  | item :: rest => unboxed item :: unboxedItems rest

/-- The entries with every sealed box in them replaced. -/
def unboxedEntries : {lo : Option String} → Entries Value lo → Entries Value lo
  | _, .nil => .nil
  | _, .cons key above value rest => .cons key above (unboxed value) (unboxedEntries rest)

end

/-! ## Values that have a document -/

theorem exists_toJsonItems {items : List Value}
    (h : ∀ item ∈ items, ∃ json, item.toJson = .ok json) :
    ∃ list, toJsonItems items = .ok list := by
  induction items with
  | nil => exact ⟨[], rfl⟩
  | cons item rest ih =>
      obtain ⟨json, hjson⟩ := h item (List.mem_cons_self ..)
      obtain ⟨list, hlist⟩ := ih fun i hi => h i (List.mem_cons_of_mem _ hi)
      exact ⟨json :: list, by rw [toJsonItems, hjson, hlist]; rfl⟩

theorem exists_toJsonMembers {lo : Option String} {entries : Entries Value lo}
    (h : ∀ entry ∈ entries.toList, ∃ json, entry.2.toJson = .ok json) :
    ∃ members, toJsonMembers entries = .ok members := by
  induction entries with
  | nil => exact ⟨.nil, rfl⟩
  | cons key above value rest ih =>
      obtain ⟨json, hjson⟩ := h (key, value) (List.mem_cons_self ..)
      obtain ⟨members, hmembers⟩ := ih fun e he => h e (List.mem_cons_of_mem _ he)
      exact ⟨.cons key above json members, by rw [toJsonMembers, hjson, hmembers]; rfl⟩

/-- Only byte strings and numbers that are not finite have no document. -/
theorem exists_toJson {value : Value} (hbytes : ¬value.HasPart IsBytes)
    (hfinite : ¬value.HasPart IsNonFinite) : ∃ json, value.toJson = .ok json := by
  induction value using Value.induction with
  | null => exact ⟨_, rfl⟩
  | bool b => exact ⟨_, rfl⟩
  | int n => exact ⟨_, rfl⟩
  | float x =>
      have hx : x.isFinite = true :=
        Bool.not_eq_false _ ▸ fun hx => hfinite (.here ⟨x, rfl, hx⟩)
      exact ⟨_, by rw [toJson, dif_pos hx]⟩
  | text s => exact ⟨_, rfl⟩
  | bytes b => exact absurd (.here rfl) hbytes
  | list items ih =>
      obtain ⟨list, hlist⟩ := exists_toJsonItems fun item hmem =>
        ih item hmem (fun h => hbytes (.item hmem h)) (fun h => hfinite (.item hmem h))
      exact ⟨_, by rw [toJson, hlist]; rfl⟩
  | map entries ih =>
      obtain ⟨members, hmembers⟩ := exists_toJsonMembers fun entry hmem =>
        ih entry hmem (fun h => hbytes (.entry hmem h)) (fun h => hfinite (.entry hmem h))
      exact ⟨_, by rw [toJson, hmembers]; rfl⟩
  | sealedBox box => exact ⟨_, rfl⟩

/-! ## Documents of sealed boxes -/

theorem ofJsonMembers_insertAbove (key : String) (json : Json) {lo : Option String}
    (above : Above lo key) (members : Entries Json lo) :
    ofJsonMembers (members.insertAbove key json above) =
      (ofJsonMembers members).insertAbove key (ofJson json) above := by
  induction members with
  | nil => rfl
  | cons key' above' json' rest ih =>
      rw [Entries.insertAbove, ofJsonMembers, Entries.insertAbove]
      split
      · rfl
      · split
        · rfl
        · rw [ofJsonMembers, ih]

theorem ofJsonMembers_ofList (pairs : List (String × Json)) :
    ofJsonMembers (Dict.ofList pairs) =
      Dict.ofList (pairs.map fun (key, json) => (key, ofJson json)) := by
  -- the dictionary that the pairs are put into changes on the way
  have hfold : ∀ (pairs : List (String × Json)) (dict : Dict Json),
      ofJsonMembers (pairs.foldl (fun (dict : Dict Json) (key, json) => dict.insert key json) dict) =
        (pairs.map fun (key, json) => (key, ofJson json)).foldl
          (fun (dict : Dict Value) (key, value) => dict.insert key value) (ofJsonMembers dict) := by
    intro pairs
    induction pairs with
    | nil => exact fun dict => rfl
    | cons pair pairs ih =>
        intro dict
        obtain ⟨key, json⟩ := pair
        have hinsert : ofJsonMembers (dict.insert key json) =
            Dict.insert (ofJsonMembers dict) key (ofJson json) := ofJsonMembers_insertAbove ..
        simp only [List.foldl_cons, List.map_cons, ih, hinsert]
  exact hfold pairs Dict.empty

theorem ofJson_boxToJson (box : SealedBox) : ofJson box.toJson = box.toValue := by
  rw [SealedBox.toJson, ofJson, ofJsonMembers_ofList, List.map_map]
  rfl

/-- The members of a box's document are texts. -/
theorem forall_boxToJson {P : Json → Prop} (box : SealedBox) (h : ∀ s, P (.text s)) :
    ∀ member ∈ (Dict.ofList (box.fields.map fun (key, s) => (key, Json.text s))).toList,
      P member.2 := by
  apply Dict.forall_mem_ofList
  intro pair hpair
  obtain ⟨field, -, rfl⟩ := List.mem_map.1 hpair
  exact h field.2

theorem depth_boxToJson (box : SealedBox) : box.toJson.depth = 1 := by
  have hflat := Json.depthOfMembers_le_iff.2
    (forall_boxToJson (P := fun json => json.depth ≤ 0) box fun _ => Nat.le_refl 0)
  exact congrArg (· + 1) (Nat.le_zero.1 hflat)

theorem onlyInts_boxToJson (box : SealedBox) : box.toJson.OnlyInts :=
  .object _ (forall_boxToJson box .text)

/-! ## What a document keeps of a value -/

/-- What `json` keeps of `value`, whose document it is. -/
structure Mirrors (value : Value) (json : Json) : Prop where
  ofJson_eq : ofJson json = value.unboxed
  depth_eq : json.depth = value.depth
  onlyInts : ¬value.HasPart IsFloat → json.OnlyInts

theorem mirrors_items {items : List Value}
    (h : ∀ item ∈ items, ∀ json, item.toJson = .ok json → Mirrors item json) {list : List Json}
    (hlist : toJsonItems items = .ok list) :
    ofJsonItems list = unboxedItems items ∧ Json.depthOfItems list = depthOfItems items ∧
      ((∀ item ∈ items, ¬item.HasPart IsFloat) → ∀ json ∈ list, json.OnlyInts) := by
  induction items generalizing list with
  | nil =>
      obtain rfl := Except.ok.inj hlist
      exact ⟨rfl, rfl, fun _ _ hmem => nomatch hmem⟩
  | cons item rest ih =>
      simp only [toJsonItems, bind_eq_ok_iff, pure_eq_ok_iff] at hlist
      obtain ⟨json, hjson, more, hmore, rfl⟩ := hlist
      have hitem := h item (List.mem_cons_self ..) json hjson
      obtain ⟨hback, hdepth, hints⟩ := ih (fun i hi => h i (List.mem_cons_of_mem _ hi)) hmore
      refine ⟨?_, ?_, ?_⟩
      · rw [ofJsonItems, unboxedItems, hitem.ofJson_eq, hback]
      · rw [Json.depthOfItems, depthOfItems, hitem.depth_eq, hdepth]
      · intro hfloat json' hmem
        rcases List.mem_cons.1 hmem with rfl | hmem
        · exact hitem.onlyInts (hfloat item (List.mem_cons_self ..))
        · exact hints (fun i hi => hfloat i (List.mem_cons_of_mem _ hi)) json' hmem

theorem mirrors_entries {lo : Option String} {entries : Entries Value lo}
    (h : ∀ entry ∈ entries.toList, ∀ json, entry.2.toJson = .ok json → Mirrors entry.2 json)
    {members : Entries Json lo} (hmembers : toJsonMembers entries = .ok members) :
    ofJsonMembers members = unboxedEntries entries ∧
      Json.depthOfMembers members = depthOfEntries entries ∧
      ((∀ entry ∈ entries.toList, ¬entry.2.HasPart IsFloat) →
        ∀ member ∈ members.toList, member.2.OnlyInts) := by
  induction entries with
  | nil =>
      obtain rfl := Except.ok.inj hmembers
      exact ⟨rfl, rfl, fun _ _ hmem => nomatch hmem⟩
  | cons key above value rest ih =>
      simp only [toJsonMembers, bind_eq_ok_iff, pure_eq_ok_iff] at hmembers
      obtain ⟨json, hjson, more, hmore, rfl⟩ := hmembers
      have hvalue := h (key, value) (List.mem_cons_self ..) json hjson
      obtain ⟨hback, hdepth, hints⟩ := ih (fun e he => h e (List.mem_cons_of_mem _ he)) hmore
      refine ⟨?_, ?_, ?_⟩
      · rw [ofJsonMembers, unboxedEntries, hvalue.ofJson_eq, hback]
      · rw [Json.depthOfMembers, depthOfEntries, hvalue.depth_eq, hdepth]
      · intro hfloat member hmem
        rcases List.mem_cons.1 hmem with rfl | hmem
        · exact hvalue.onlyInts (hfloat (key, value) (List.mem_cons_self ..))
        · exact hints (fun e he => hfloat e (List.mem_cons_of_mem _ he)) member hmem

/-- **A document mirrors its value.** -/
theorem mirrors_of_toJson {value : Value} {json : Json} (h : value.toJson = .ok json) :
    Mirrors value json := by
  induction value using Value.induction generalizing json with
  | null =>
      obtain rfl := Except.ok.inj h
      exact ⟨rfl, rfl, fun _ => .null⟩
  | bool b =>
      obtain rfl := Except.ok.inj h
      exact ⟨rfl, rfl, fun _ => .bool b⟩
  | int n =>
      obtain rfl := Except.ok.inj h
      exact ⟨rfl, rfl, fun _ => .int n⟩
  | float x =>
      rw [toJson] at h
      split at h
      · obtain rfl := Except.ok.inj h
        exact ⟨rfl, rfl, fun hfloat => absurd (.here rfl) hfloat⟩
      · cases h
  | text s =>
      obtain rfl := Except.ok.inj h
      exact ⟨rfl, rfl, fun _ => .text s⟩
  | bytes b => cases h
  | list items ih =>
      simp only [toJson, bind_eq_ok_iff, pure_eq_ok_iff] at h
      obtain ⟨list, hlist, rfl⟩ := h
      obtain ⟨hback, hdepth, hints⟩ := mirrors_items (fun i hi _ => ih i hi) hlist
      refine ⟨congrArg Value.list hback, congrArg (· + 1) hdepth, fun hfloat => ?_⟩
      exact .array list (hints fun i hi hpart => hfloat (.item hi hpart))
  | map entries ih =>
      simp only [toJson, bind_eq_ok_iff, pure_eq_ok_iff] at h
      obtain ⟨members, hmembers, rfl⟩ := h
      obtain ⟨hback, hdepth, hints⟩ := mirrors_entries (fun e he _ => ih e he) hmembers
      refine ⟨congrArg Value.map hback, congrArg (· + 1) hdepth, fun hfloat => ?_⟩
      exact .object members (hints fun e he hpart => hfloat (.entry he hpart))
  | sealedBox box =>
      obtain rfl := Except.ok.inj h
      exact ⟨ofJson_boxToJson box, depth_boxToJson box, fun _ => onlyInts_boxToJson box⟩

end Value

end Pipework
