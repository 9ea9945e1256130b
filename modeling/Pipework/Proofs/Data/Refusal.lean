import Pipework.Proofs.Data.Except

set_option autoImplicit false

/-! # The first refusal

Some functions succeed if there is nothing to say against any part of their input, and fail because
of the first part against which there is. `Decided` says so of a result and of the list of parts in
the order in which they are looked at. Of functions in a chain, the lists are joined
(`Decided.bind`); and a result that is decided by its list is known as soon as the list is
(`Decided.exists_ok_iff`, `Decided.eq_error_iff`). -/

namespace Pipework

variable {α β γ ε : Type}

/-- `error` is that of the first of `items` that is not fine. -/
def FirstRefused (Fine : α → Prop) (Refused : α → ε → Prop) (items : List α) (error : ε) : Prop :=
  ∃ before item after, items = before ++ item :: after ∧ (∀ earlier ∈ before, Fine earlier) ∧
    Refused item error

/-- The result is a success if all items are fine, and otherwise the error of the first that is
    not. -/
inductive Decided (Fine : α → Prop) (Refused : α → ε → Prop) (items : List α) : Except ε β → Prop
  | ok {b : β} (h : ∀ item ∈ items, Fine item) : Decided Fine Refused items (.ok b)
  | error {error : ε} (h : FirstRefused Fine Refused items error) :
    Decided Fine Refused items (.error error)

variable {Fine : α → Prop} {Refused : α → ε → Prop} {items more : List α}

/-! ## Lists in a row -/

theorem FirstRefused.head {item : α} {error : ε} (h : Refused item error) (rest : List α) :
    FirstRefused Fine Refused (item :: rest) error :=
  ⟨[], item, rest, rfl, nofun, h⟩

theorem FirstRefused.append {error : ε} (h : FirstRefused Fine Refused items error)
    (more : List α) : FirstRefused Fine Refused (items ++ more) error := by
  obtain ⟨before, item, after, rfl, hbefore, hitem⟩ := h
  exact ⟨before, item, after ++ more, by rw [List.append_assoc, List.cons_append], hbefore, hitem⟩

theorem FirstRefused.append_left {error : ε} (h : FirstRefused Fine Refused more error)
    (hitems : ∀ item ∈ items, Fine item) : FirstRefused Fine Refused (items ++ more) error := by
  obtain ⟨before, item, after, rfl, hbefore, hitem⟩ := h
  refine ⟨items ++ before, item, after, (List.append_assoc ..).symm, ?_, hitem⟩
  exact List.forall_mem_append.2 ⟨hitems, hbefore⟩

theorem Decided.append_left {x : Except ε β} (h : Decided Fine Refused more x)
    (hitems : ∀ item ∈ items, Fine item) : Decided Fine Refused (items ++ more) x := by
  cases h with
  | ok hmore => exact .ok (List.forall_mem_append.2 ⟨hitems, hmore⟩)
  | error hfirst => exact .error (hfirst.append_left hitems)

/-- The second of two steps is looked at if there is nothing to say against the first. -/
theorem Decided.bind {x : Except ε β} {f : β → Except ε γ} (h : Decided Fine Refused items x)
    (hf : ∀ b, x = .ok b → Decided Fine Refused more (f b)) :
    Decided Fine Refused (items ++ more) (x >>= f) := by
  cases h with
  | ok hitems => exact (hf _ rfl).append_left hitems
  | error hfirst => exact .error (hfirst.append more)

theorem Decided.map {x : Except ε β} (h : Decided Fine Refused items x) (f : β → γ) :
    Decided Fine Refused items (x >>= fun b => pure (f b)) := by
  rw [← List.append_nil items]
  exact h.bind fun b _ => .ok nofun

theorem Decided.mapError {δ : Type} {x : Except ε β} {f : ε → δ} {Renamed : α → δ → Prop}
    (h : Decided Fine Refused items x) (hf : ∀ item error, Refused item error →
      Renamed item (f error)) : Decided Fine Renamed items (x.mapError f) := by
  cases h with
  | ok hitems => exact .ok hitems
  | error hfirst =>
      obtain ⟨before, item, after, hitems, hbefore, hitem⟩ := hfirst
      exact .error ⟨before, item, after, hitems, hbefore, hf item _ hitem⟩

/-! ## What is known of a result -/

section

variable (hexcl : ∀ item error, Refused item error → ¬Fine item)
include hexcl

theorem FirstRefused.exists_not_fine {error : ε} (h : FirstRefused Fine Refused items error) :
    ∃ item ∈ items, ¬Fine item := by
  obtain ⟨before, item, after, rfl, -, hitem⟩ := h
  exact ⟨item, by simp, hexcl item error hitem⟩

/-- Only one item is the first that is not fine. -/
theorem FirstRefused.eq (hdet : ∀ item error other, Refused item error → Refused item other →
    error = other) {error other : ε} (h : FirstRefused Fine Refused items error)
    (hother : FirstRefused Fine Refused items other) : error = other := by
  obtain ⟨before, item, after, rfl, hbefore, hitem⟩ := h
  obtain ⟨before', item', after', heq, hbefore', hitem'⟩ := hother
  induction before generalizing before' with
  | nil =>
      cases before' with
      | nil =>
          obtain ⟨rfl, -⟩ := List.cons.inj heq
          exact hdet item error other hitem hitem'
      | cons first _ =>
          obtain ⟨rfl, -⟩ := List.cons.inj heq
          exact absurd (hbefore' item (List.mem_cons_self ..)) (hexcl item error hitem)
  | cons first before ih =>
      cases before' with
      | nil =>
          obtain ⟨rfl, -⟩ := List.cons.inj heq
          exact absurd (hbefore first (List.mem_cons_self ..)) (hexcl first other hitem')
      | cons _ before' =>
          obtain ⟨rfl, htail⟩ := List.cons.inj heq
          exact ih (List.forall_mem_cons.1 hbefore).2 before' htail
            (List.forall_mem_cons.1 hbefore').2

theorem Decided.exists_ok_iff {x : Except ε β} (h : Decided Fine Refused items x) :
    (∃ b, x = .ok b) ↔ ∀ item ∈ items, Fine item := by
  cases h with
  | ok hitems => exact ⟨fun _ => hitems, fun _ => ⟨_, rfl⟩⟩
  | error hfirst =>
      obtain ⟨item, hmem, hitem⟩ := hfirst.exists_not_fine hexcl
      exact ⟨nofun, fun hitems => absurd (hitems item hmem) hitem⟩

theorem Decided.eq_error_iff (hdet : ∀ item error other, Refused item error → Refused item other →
    error = other) {x : Except ε β} (h : Decided Fine Refused items x) {error : ε} :
    x = .error error ↔ FirstRefused Fine Refused items error := by
  cases h with
  | ok hitems =>
      refine ⟨nofun, fun hfirst => ?_⟩
      obtain ⟨item, hmem, hitem⟩ := hfirst.exists_not_fine hexcl
      exact absurd (hitems item hmem) hitem
  | error hfirst =>
      constructor
      · intro h
        exact Except.error.inj h ▸ hfirst
      · intro hother
        exact congrArg _ (hfirst.eq hexcl hdet hother)

end

end Pipework
