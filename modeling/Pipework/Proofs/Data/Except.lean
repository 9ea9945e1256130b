import Mathlib.Data.List.Forall2

set_option autoImplicit false

/-! # Results that chain

When a chain of steps that may fail succeeds, each of its steps has succeeded, and the other way
round; when it fails, one of them has. The same for a step that is taken for each item of a list,
where the first failure decides. -/

namespace Pipework

variable {ε α β : Type}

theorem bind_eq_ok_iff {x : Except ε α} {f : α → Except ε β} {b : β} :
    x >>= f = .ok b ↔ ∃ a, x = .ok a ∧ f a = .ok b := by
  cases x with
  | error e =>
      constructor
      · intro h
        cases h
      · rintro ⟨a, ha, -⟩
        cases ha
  | ok a =>
      constructor
      · exact fun h => ⟨a, rfl, h⟩
      · rintro ⟨a', ha, h⟩
        cases ha
        exact h

theorem pure_eq_ok_iff {a b : α} : (pure a : Except ε α) = .ok b ↔ a = b :=
  ⟨Except.ok.inj, congrArg Except.ok⟩

theorem mapError_eq_ok_iff {δ : Type} {x : Except ε α} {f : ε → δ} {a : α} :
    x.mapError f = .ok a ↔ x = .ok a := by
  cases x with
  | error e => exact ⟨nofun, nofun⟩
  | ok b => exact ⟨fun h => congrArg _ (Except.ok.inj h), fun h => congrArg _ (Except.ok.inj h)⟩

theorem mapError_eq_error_iff {δ : Type} {x : Except ε α} {f : ε → δ} {d : δ} :
    x.mapError f = .error d ↔ ∃ e, x = .error e ∧ f e = d := by
  cases x with
  | ok b => exact ⟨nofun, fun ⟨_, he, _⟩ => nomatch he⟩
  | error e =>
      constructor
      · intro h
        exact ⟨e, rfl, Except.error.inj h⟩
      · rintro ⟨e', he, rfl⟩
        obtain rfl := Except.error.inj he
        rfl

theorem bind_eq_error_iff {x : Except ε α} {f : α → Except ε β} {e : ε} :
    x >>= f = .error e ↔ x = .error e ∨ ∃ a, x = .ok a ∧ f a = .error e := by
  cases x with
  | error e' =>
      constructor
      · intro h
        exact Or.inl (congrArg _ (Except.error.inj h))
      · rintro (h | ⟨a, ha, -⟩)
        · exact congrArg _ (Except.error.inj h)
        · cases ha
  | ok a =>
      constructor
      · exact fun h => Or.inr ⟨a, rfl, h⟩
      · rintro (h | ⟨a', ha, h⟩)
        · cases h
        · cases ha
          exact h

/-- What cannot fail behind a step leaves the failures of the step. -/
theorem bind_pure_eq_error_iff {x : Except ε α} {f : α → β} {e : ε} :
    (x >>= fun a => pure (f a)) = .error e ↔ x = .error e := by
  rw [bind_eq_error_iff]
  simp [pure, Except.pure]

theorem mapM_eq_ok_iff {items : List α} {f : α → Except ε β} {images : List β} :
    items.mapM f = .ok images ↔ List.Forall₂ (fun a b => f a = .ok b) items images := by
  induction items generalizing images with
  | nil =>
      rw [List.forall₂_nil_left_iff]
      exact ⟨fun h => (Except.ok.inj h).symm, congrArg Except.ok ∘ Eq.symm⟩
  | cons first rest ih =>
      simp only [List.mapM_cons, bind_eq_ok_iff, pure_eq_ok_iff, List.forall₂_cons_left_iff, ih]
      constructor
      · rintro ⟨b, hfirst, images, hrest, rfl⟩
        exact ⟨b, images, hfirst, hrest, rfl⟩
      · rintro ⟨b, images, hfirst, hrest, rfl⟩
        exact ⟨b, hfirst, images, hrest, rfl⟩

/-- A step that is taken for each item fails as it does for the first item for which it does. -/
theorem mapM_eq_error_iff {items : List α} {f : α → Except ε β} {e : ε} :
    items.mapM f = .error e ↔ ∃ before item after, items = before ++ item :: after ∧
      (∀ earlier ∈ before, ∃ b, f earlier = .ok b) ∧ f item = .error e := by
  induction items with
  | nil => exact ⟨nofun, fun ⟨before, _, _, h, _⟩ => by cases before <;> cases h⟩
  | cons first rest ih =>
      rw [List.mapM_cons, bind_eq_error_iff]
      constructor
      · rintro (hfirst | ⟨b, hfirst, h⟩)
        · exact ⟨[], first, rest, rfl, nofun, hfirst⟩
        · rcases bind_eq_error_iff.1 h with hrest | ⟨_, _, h⟩
          · obtain ⟨before, item, after, rfl, hbefore, hitem⟩ := ih.1 hrest
            exact ⟨first :: before, item, after, rfl,
              List.forall_mem_cons.2 ⟨⟨b, hfirst⟩, hbefore⟩, hitem⟩
          · cases h
      · rintro ⟨before, item, after, hitems, hbefore, hitem⟩
        cases before with
        | nil =>
            obtain ⟨rfl, rfl⟩ := List.cons.inj hitems
            exact Or.inl hitem
        | cons earlier before =>
            obtain ⟨rfl, rfl⟩ := List.cons.inj hitems
            obtain ⟨⟨b, hfirst⟩, hbefore⟩ := List.forall_mem_cons.1 hbefore
            have hrest := ih.2 ⟨before, item, after, rfl, hbefore, hitem⟩
            exact Or.inr ⟨b, hfirst, bind_eq_error_iff.2 (Or.inl hrest)⟩

/-! ## Success alone -/

theorem exists_bind_eq_ok_iff {x : Except ε α} {f : α → Except ε β} :
    (∃ b, x >>= f = .ok b) ↔ ∃ a, x = .ok a ∧ ∃ b, f a = .ok b := by
  simp only [bind_eq_ok_iff]
  constructor
  · rintro ⟨b, a, ha, hb⟩
    exact ⟨a, ha, b, hb⟩
  · rintro ⟨a, ha, b, hb⟩
    exact ⟨b, a, ha, hb⟩

theorem exists_bind_pure_eq_ok_iff {x : Except ε α} {f : α → β} :
    (∃ b, (x >>= fun a => pure (f a)) = .ok b) ↔ ∃ a, x = .ok a := by
  rw [exists_bind_eq_ok_iff]
  simp only [pure_eq_ok_iff, exists_eq', and_true]

theorem exists_mapM_option_eq_ok_iff {option : Option α} {f : α → Except ε β} :
    (∃ images, option.mapM f = .ok images) ↔ ∀ a ∈ option, ∃ b, f a = .ok b := by
  cases option with
  | none => exact ⟨fun _ => nofun, fun _ => ⟨none, rfl⟩⟩
  | some a =>
      have hmapM : (some a).mapM f = f a >>= fun b => pure (some b) := rfl
      rw [hmapM, exists_bind_eq_ok_iff]
      constructor
      · rintro ⟨b, hb, -⟩ a' ha'
        obtain rfl := Option.some.inj ha'
        exact ⟨b, hb⟩
      · intro h
        obtain ⟨b, hb⟩ := h a rfl
        exact ⟨b, hb, some b, rfl⟩

theorem exists_forall₂_iff {R : α → β → Prop} {items : List α} :
    (∃ images, List.Forall₂ R items images) ↔ ∀ a ∈ items, ∃ b, R a b := by
  induction items with
  | nil => exact ⟨fun _ => nofun, fun _ => ⟨[], .nil⟩⟩
  | cons a rest ih =>
      rw [List.forall_mem_cons, ← ih]
      constructor
      · rintro ⟨_, _ | ⟨hb, himages⟩⟩
        exact ⟨⟨_, hb⟩, _, himages⟩
      · rintro ⟨⟨b, hb⟩, images, himages⟩
        exact ⟨b :: images, .cons hb himages⟩

theorem forall₂_append_cons_left_iff {R : α → β → Prop} {before after : List α} {item : α}
    {images : List β} :
    List.Forall₂ R (before ++ item :: after) images ↔
      ∃ first image last, List.Forall₂ R before first ∧ R item image ∧
        List.Forall₂ R after last ∧ images = first ++ image :: last := by
  induction before generalizing images with
  | nil =>
      simp only [List.nil_append, List.forall₂_cons_left_iff, List.forall₂_nil_left_iff]
      constructor
      · rintro ⟨image, last, himage, hlast, rfl⟩
        exact ⟨[], image, last, rfl, himage, hlast, rfl⟩
      · rintro ⟨_, image, last, rfl, himage, hlast, rfl⟩
        exact ⟨image, last, himage, hlast, rfl⟩
  | cons earlier before ih =>
      simp only [List.cons_append, List.forall₂_cons_left_iff, ih]
      constructor
      · rintro ⟨b, _, hearlier, ⟨first, image, last, hfirst, himage, hlast, rfl⟩, rfl⟩
        exact ⟨_, image, last, ⟨b, first, hearlier, hfirst, rfl⟩, himage, hlast, rfl⟩
      · rintro ⟨_, image, last, ⟨b, first, hearlier, hfirst, rfl⟩, himage, hlast, rfl⟩
        exact ⟨b, _, hearlier, ⟨first, image, last, hfirst, himage, hlast, rfl⟩, rfl⟩

/-! ## One step after another for each item -/

section

variable {γ δ : Type} {g : γ → Except δ α} {f : α → Except ε β} {S : γ → β → Prop}
  {sources : List γ} {items : List α}
  (hitems : List.Forall₂ (fun source item => g source = .ok item) sources items)
  (h : ∀ source item, g source = .ok item → ∀ image, S source image ↔ f item = .ok image)
include hitems h

theorem mapM_eq_ok_iff_of_forall₂ {images : List β} :
    items.mapM f = .ok images ↔ List.Forall₂ S sources images := by
  rw [mapM_eq_ok_iff]
  induction hitems generalizing images with
  | nil => rw [List.forall₂_nil_left_iff, List.forall₂_nil_left_iff]
  | cons hitem _ ih => simp only [List.forall₂_cons_left_iff, ih, h _ _ hitem]

theorem forall_exists_iff_of_forall₂ :
    (∀ item ∈ items, ∃ image, f item = .ok image) ↔
      ∀ source ∈ sources, ∃ image, S source image := by
  simp only [← exists_forall₂_iff, ← mapM_eq_ok_iff, mapM_eq_ok_iff_of_forall₂ hitems h]

/-- The second step fails as it does for the first item for which it does. -/
theorem mapM_eq_error_iff_of_forall₂ {e : ε} :
    items.mapM f = .error e ↔ ∃ before source after item, sources = before ++ source :: after ∧
      (∀ earlier ∈ before, ∃ image, S earlier image) ∧ g source = .ok item ∧
      f item = .error e := by
  rw [mapM_eq_error_iff]
  constructor
  · rintro ⟨first, item, last, rfl, hfirst, hitem⟩
    obtain ⟨before, source, after, hbefore, hsource, -, rfl⟩ :=
      forall₂_append_cons_left_iff.1 hitems.flip
    exact ⟨before, source, after, item, rfl,
      (forall_exists_iff_of_forall₂ hbefore.flip h).1 hfirst, hsource, hitem⟩
  · rintro ⟨before, source, after, item, rfl, hbefore, hsource, hitem⟩
    obtain ⟨first, other, last, hfirst, hother, -, rfl⟩ := forall₂_append_cons_left_iff.1 hitems
    obtain rfl := Except.ok.inj (hsource.symm.trans hother)
    exact ⟨first, item, last, rfl, (forall_exists_iff_of_forall₂ hfirst h).2 hbefore, hitem⟩

end

end Pipework
