import Pipework.Data.Dict
import Pipework.Proofs.Data.Except
import Mathlib.Data.String.Basic

set_option autoImplicit false

/-! # Laws of dictionaries

What insertion does to a lookup (`Entries.get?_insertAbove`), that a dictionary is rebuilt from the
list of its entries (`Dict.ofList_toList`), since inserting keys in increasing order puts each of
them at the end, and that it is determined by its lookups (`Entries.eq_of_get?_eq`), so it does not
matter which of two different keys is inserted first (`Dict.insert_comm`). -/

namespace Pipework

variable {α : Type}

/-! ## Lookups -/

namespace Entries

theorem get?_insertAbove (key : String) (value : α) {lo : Option String} (above : Above lo key)
    (entries : Entries α lo) (other : String) :
    (entries.insertAbove key value above).get? other =
      if key = other then some value else entries.get? other := by
  induction entries with
  | nil => simp only [insertAbove, get?]
  | cons key' above' value' rest ih =>
      rw [insertAbove]
      split
      · simp only [get?]
      · split
        · next hlt heq =>
            subst heq
            simp only [get?]
            split <;> rfl
        · next hlt hne =>
            simp only [get?, ih]
            by_cases hother : key = other
            · rw [if_pos hother, if_neg (hother ▸ hne), if_pos hother]
            · rw [if_neg hother, if_neg hother]

end Entries

@[simp] theorem Dict.get?_insert (dict : Dict α) (key : String) (value : α) (other : String) :
    (dict.insert key value).get? other = if key = other then some value else dict.get? other :=
  Entries.get?_insertAbove ..

/-! ## Images that may fail -/

theorem Entries.exists_mapExcept_eq_ok_iff {ε β : Type} {f : α → Except ε β} {lo : Option String}
    {entries : Entries α lo} :
    (∃ images, entries.mapExcept f = .ok images) ↔
      ∀ entry ∈ entries.toList, ∃ b, f entry.2 = .ok b := by
  induction entries with
  | nil => exact ⟨fun _ => nofun, fun _ => ⟨nil, rfl⟩⟩
  | cons key above value rest ih =>
      rw [mapExcept, exists_bind_eq_ok_iff, toList, List.forall_mem_cons, ← ih]
      simp only [exists_bind_eq_ok_iff]
      constructor
      · rintro ⟨b, hb, images, himages, -⟩
        exact ⟨⟨b, hb⟩, images, himages⟩
      · rintro ⟨⟨b, hb⟩, images, himages⟩
        exact ⟨b, hb, images, himages, cons key above b images, rfl⟩

/-! ## Order of the entries -/

namespace Entries

theorem lt_of_mem_toList {lo : String} {entries : Entries α (some lo)} {entry : String × α}
    (h : entry ∈ entries.toList) : lo < entry.1 := by
  generalize hbound : some lo = bound at entries
  induction entries generalizing lo with
  | nil => cases h
  | cons key above value rest ih =>
      have hkey : lo < key := above lo hbound.symm
      rcases List.mem_cons.1 h with rfl | hrest
      · exact hkey
      · exact lt_trans hkey (ih rfl hrest)

/-- A key above all others goes to the end. -/
theorem toList_insertAbove_of_forall_lt (key : String) (value : α) {lo : Option String}
    (above : Above lo key) (entries : Entries α lo) (h : ∀ entry ∈ entries.toList, entry.1 < key) :
    (entries.insertAbove key value above).toList = entries.toList ++ [(key, value)] := by
  induction entries with
  | nil => rfl
  | cons key' above' value' rest ih =>
      have hlt : key' < key := h (key', value') (List.mem_cons_self ..)
      rw [insertAbove, dif_neg (lt_asymm hlt), dif_neg (ne_of_lt hlt), toList,
        ih _ fun entry hentry => h entry (List.mem_cons_of_mem _ hentry)]
      rfl

theorem toList_foldl_insert (entries : Dict α) {lo : Option String} (more : Entries α lo)
    (h : ∀ entry ∈ entries.toList, ∀ other ∈ more.toList, entry.1 < other.1) :
    (more.toList.foldl (fun (dict : Dict α) (key, value) => dict.insert key value)
      entries).toList = entries.toList ++ more.toList := by
  induction more generalizing entries with
  | nil => exact (List.append_nil _).symm
  | cons key above value rest ih =>
      -- the keys that follow are above those there and above this one
      have hend : (entries.insert key value).toList = entries.toList ++ [(key, value)] :=
        toList_insertAbove_of_forall_lt key value _ entries fun entry hentry =>
          h entry hentry (key, value) (List.mem_cons_self ..)
      rw [toList, List.foldl_cons, ih, hend, List.append_assoc, List.singleton_append]
      intro entry hentry other hother
      rw [hend, List.mem_append, List.mem_singleton] at hentry
      rcases hentry with hentry | rfl
      · exact h entry hentry other (List.mem_cons_of_mem _ hother)
      · exact lt_of_mem_toList hother

theorem mem_toList_insertAbove {key : String} {value : α} {lo : Option String}
    {above : Above lo key} {entries : Entries α lo} {entry : String × α}
    (h : entry ∈ (entries.insertAbove key value above).toList) :
    entry = (key, value) ∨ entry ∈ entries.toList := by
  induction entries with
  | nil => exact Or.inl (List.mem_singleton.1 h)
  | cons key' above' value' rest ih =>
      rw [insertAbove] at h
      split at h
      · exact List.mem_cons.1 h
      · split at h
        · next heq =>
            rw [toList, List.mem_cons] at h
            exact h.imp (heq ▸ ·) (List.mem_cons_of_mem _)
        · rw [toList, List.mem_cons] at h
          rcases h with rfl | h
          · exact Or.inr (List.mem_cons_self ..)
          · exact (ih h).imp id (List.mem_cons_of_mem _)

end Entries

/-- What is true of all pairs is true of all entries of their dictionary. -/
theorem Dict.forall_mem_ofList {P : String × α → Prop} {pairs : List (String × α)}
    (h : ∀ pair ∈ pairs, P pair) : ∀ entry ∈ (Dict.ofList pairs).toList, P entry := by
  have hfold : ∀ (pairs : List (String × α)) (dict : Dict α), (∀ pair ∈ pairs, P pair) →
      (∀ entry ∈ dict.toList, P entry) →
      ∀ entry ∈ (pairs.foldl (fun dict (key, value) => dict.insert key value) dict).toList,
        P entry := by
    intro pairs
    induction pairs with
    | nil => exact fun dict _ hdict => hdict
    | cons pair pairs ih =>
        intro dict hpairs hdict
        refine ih _ (fun p hp => hpairs p (List.mem_cons_of_mem _ hp)) ?_
        intro entry hentry
        rcases Entries.mem_toList_insertAbove hentry with rfl | hold
        · exact hpairs pair (List.mem_cons_self ..)
        · exact hdict entry hold
  exact hfold pairs Dict.empty h fun entry hentry => nomatch hentry

theorem Dict.ofList_toList (dict : Dict α) : Dict.ofList dict.toList = dict := by
  apply Entries.eq_of_toList_eq
  exact Entries.toList_foldl_insert Dict.empty dict fun entry hentry => nomatch hentry

/-! ## Equality by lookups -/

namespace Entries

theorem mem_toList_of_get? {lo : Option String} {entries : Entries α lo} {key : String} {value : α}
    (h : entries.get? key = some value) : (key, value) ∈ entries.toList := by
  induction entries with
  | nil => cases h
  | cons key' above value' rest ih =>
      rw [get?] at h
      split at h
      · next heq =>
          subst heq
          obtain rfl := Option.some.inj h
          exact List.mem_cons_self ..
      · exact List.mem_cons_of_mem _ (ih h)

/-- Entries above a key do not hold it, nor any smaller one. -/
theorem get?_eq_none_of_le {lo key : String} (entries : Entries α (some lo)) (h : key ≤ lo) :
    entries.get? key = none := by
  cases hget : entries.get? key with
  | none => rfl
  | some value => exact absurd (lt_of_mem_toList (mem_toList_of_get? hget)) (not_lt_of_ge h)

theorem pairwise_toList {lo : Option String} (entries : Entries α lo) :
    entries.toList.Pairwise fun first second => first.1 < second.1 := by
  induction entries with
  | nil => exact .nil
  | cons key above value rest ih => exact .cons (fun _ hmem => lt_of_mem_toList hmem) ih

theorem nodup_keys {lo : Option String} (entries : Entries α lo) :
    (entries.toList.map Prod.fst).Nodup :=
  List.pairwise_map.2 (entries.pairwise_toList.imp ne_of_lt)

/-- What holds a key at its beginning and what holds none below another key agree at most if the
    first key is not the smaller one. -/
theorem not_lt_of_get?_eq {lo lo' : Option String} {key key' : String} {above : Above lo key}
    {above' : Above lo' key'} {value value' : α} {rest : Entries α (some key)}
    {rest' : Entries α (some key')}
    (h : (cons key above value rest).get? key = (cons key' above' value' rest').get? key) :
    ¬key < key' := by
  intro hlt
  rw [get?, get?, if_pos rfl, if_neg (ne_of_gt hlt), get?_eq_none_of_le rest' (le_of_lt hlt)] at h
  cases h

theorem eq_of_get?_eq {lo : Option String} {a b : Entries α lo}
    (h : ∀ key, a.get? key = b.get? key) : a = b := by
  induction a with
  | nil =>
      cases b with
      | nil => rfl
      | cons key above value rest =>
          have hkey := h key
          rw [get?, get?, if_pos rfl] at hkey
          cases hkey
  | cons key above value rest ih =>
      cases b with
      | nil =>
          have hkey := h key
          rw [get?, get?, if_pos rfl] at hkey
          cases hkey
      | cons key' above' value' rest' =>
          obtain rfl : key = key' := le_antisymm (not_lt.1 (not_lt_of_get?_eq (h key').symm))
            (not_lt.1 (not_lt_of_get?_eq (h key)))
          have hvalue := h key
          rw [get?, get?, if_pos rfl, if_pos rfl] at hvalue
          obtain rfl := Option.some.inj hvalue
          rw [ih fun other => ?_]
          by_cases hother : key = other
          · subst hother
            rw [get?_eq_none_of_le rest (le_refl _), get?_eq_none_of_le rest' (le_refl _)]
          · have hrest := h other
            rwa [get?, get?, if_neg hother, if_neg hother] at hrest

theorem get?_foldl_insert {lo : Option String} (more : Entries α lo) (dict : Dict α)
    (key : String) :
    (more.toList.foldl (fun (dict : Dict α) (key, value) => dict.insert key value) dict).get? key =
      (more.get? key).or (dict.get? key) := by
  induction more generalizing dict with
  | nil => rfl
  | cons key' above value rest ih =>
      rw [toList, List.foldl_cons, ih, Dict.get?_insert, get?]
      by_cases hkey : key' = key
      · subst hkey
        rw [if_pos rfl, if_pos rfl, get?_eq_none_of_le rest (le_refl _), Option.none_or,
          Option.some_or]
      · rw [if_neg hkey, if_neg hkey]

end Entries

namespace Dict

@[simp] theorem get?_override (first second : Dict α) (key : String) :
    (first.override second).get? key = (second.get? key).or (first.get? key) :=
  Entries.get?_foldl_insert second first key

theorem override_assoc (first second third : Dict α) :
    (first.override second).override third = first.override (second.override third) := by
  apply Entries.eq_of_get?_eq
  intro key
  simp only [get?_override, Option.or_assoc]

@[simp] theorem override_self (dict : Dict α) : dict.override dict = dict := by
  apply Entries.eq_of_get?_eq
  intro key
  rw [get?_override, Option.or_self]

theorem insert_comm (dict : Dict α) {key key' : String} (h : key ≠ key') (value value' : α) :
    (dict.insert key value).insert key' value' = (dict.insert key' value').insert key value := by
  apply Entries.eq_of_get?_eq
  intro other
  simp only [get?_insert]
  by_cases hother : key = other
  · subst hother
    rw [if_neg h.symm, if_pos rfl, if_pos rfl]
  · rw [if_neg hother, if_neg hother]

end Dict

end Pipework
