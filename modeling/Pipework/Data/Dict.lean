set_option autoImplicit false

/-! # Dictionaries

A `Dict α` is a finite map from text to `α`, kept as a chain of entries whose keys strictly
increase. The order is part of the type: `Entries α lo` holds entries whose keys all lie above `lo`,
so no operation can put a key twice or out of place, and two dictionaries are equal as soon as they
list the same entries (`Entries.eq_of_toList_eq`).

Keys are compared code point by code point, which is also the order of their UTF-8 bytes. -/

namespace Pipework

/-! ## Ordered entries -/

/-- `key` may follow the bound `lo`; every key may follow no bound. -/
def Above (lo : Option String) (key : String) : Prop := ∀ k, lo = some k → k < key

theorem above_none (key : String) : Above none key := fun _ h => nomatch h

theorem above_some {lo key : String} (h : lo < key) : Above (some lo) key :=
  fun _ e => Option.some.inj e ▸ h

instance (lo : Option String) (key : String) : Decidable (Above lo key) :=
  match lo with
  | none => isTrue (above_none key)
  | some lo =>
    if h : lo < key then isTrue (above_some h) else isFalse fun above => h (above lo rfl)

/-- A chain of entries in strictly increasing order of their keys, which all lie above the index. -/
inductive Entries (α : Type) : Option String → Type
  | nil {lo : Option String} : Entries α lo
  | cons {lo : Option String} (key : String) (above : Above lo key) (value : α)
      (rest : Entries α (some key)) : Entries α lo

/-- A finite map from text to `α`. -/
abbrev Dict (α : Type) := Entries α none

namespace Entries

variable {α β : Type} {lo : Option String}

/-- The entries as pairs, in key order. -/
def toList : {lo : Option String} → Entries α lo → List (String × α)
  | _, nil => []
  | _, cons key _ value rest => (key, value) :: rest.toList

theorem eq_of_toList_eq {lo : Option String} {a b : Entries α lo} (h : a.toList = b.toList) :
    a = b := by
  induction a with
  | nil =>
    cases b with
    | nil => rfl
    | cons => simp [toList] at h
  | cons key above value rest ih =>
    cases b with
    | nil => simp [toList] at h
    | cons key' above' value' rest' =>
      simp only [toList, List.cons.injEq, Prod.mk.injEq] at h
      obtain ⟨⟨rfl, rfl⟩, tails⟩ := h
      rw [ih tails]

/-! ## Reading -/

/-- The keys, in order. -/
def keys (entries : Entries α lo) : List String := entries.toList.map Prod.fst

/-- The values, in the order of their keys. -/
def values (entries : Entries α lo) : List α := entries.toList.map Prod.snd

/-- How many entries there are. -/
def size (entries : Entries α lo) : Nat := entries.toList.length

/-- There is no entry. -/
def isEmpty (entries : Entries α lo) : Bool := entries.toList.isEmpty

/-- The value under `key`. -/
def get? : {lo : Option String} → Entries α lo → String → Option α
  | _, nil, _ => none
  | _, cons key' _ value rest, key => if key' = key then some value else rest.get? key

/-- Every value replaced by its image, under the same key. -/
def map (f : α → β) : {lo : Option String} → Entries α lo → Entries β lo
  | _, nil => nil
  | _, cons key above value rest => cons key above (f value) (rest.map f)

/-- Every value replaced by its image, under the same key; the first failure in key order decides.
    -/
def mapExcept {ε : Type} (f : α → Except ε β) :
    {lo : Option String} → Entries α lo → Except ε (Entries β lo)
  | _, nil => .ok nil
  | _, cons key above value rest => do
    let image ← f value
    let images ← rest.mapExcept f
    return cons key above image images

/-! ## Writing -/

theorem lt_of_not_lt {a b : String} (h : ¬a < b) (ne : b ≠ a) : b < a :=
  Std.lt_of_le_of_ne (Std.not_lt.mp h) ne

/-- The entries with `value` under `key`, in place of what was there. -/
def insertAbove (key : String) (value : α) :
    {lo : Option String} → Above lo key → Entries α lo → Entries α lo
  | _, above, nil => cons key above value nil
  | _, above, cons key' above' value' rest =>
    if lt : key < key' then cons key above value (cons key' (above_some lt) value' rest)
    else if eq : key' = key then cons key' above' value rest
    else cons key' above' value' (insertAbove key value (above_some (lt_of_not_lt lt eq)) rest)

end Entries

namespace Dict

variable {α : Type}

/-- No entry. -/
def empty : Dict α := .nil

/-- The dictionary with `value` under `key`, in place of what was there. -/
def insert (dict : Dict α) (key : String) (value : α) : Dict α :=
  dict.insertAbove key value (above_none key)

/-- The dictionary of `pairs`; of two values for one key the later stays. -/
def ofList (pairs : List (String × α)) : Dict α :=
  pairs.foldl (fun dict (key, value) => dict.insert key value) empty

/-- The entries of `first`, overridden key by key by those of `second`. -/
def override (first second : Dict α) : Dict α :=
  second.toList.foldl (fun dict (key, value) => dict.insert key value) first

end Dict

end Pipework
