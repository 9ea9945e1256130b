import Pipework.Proofs.Data.Dict
import Pipework.Proofs.Json.Number
import Pipework.Proofs.Json.Text

set_option autoImplicit false

/-! # Documents read back

A document whose numbers are all whole (`OnlyInts`) reads back from any layout if it nests at most
`maxDepth` deep, and is refused if it nests deeper (`parse_render`).

Both halves are proved at once: `Yields` says of a reader's result that it is the right one if a
condition holds, and a refusal if not, and is carried through the readers of items and members, one
level of nesting at a time. -/

namespace Pipework.Json

/-! ## Documents -/

mutual

/-- How deep arrays and objects nest; an empty one counts as well. -/
def depth : Json → Nat
  | array items => depthOfItems items + 1
  | object members => depthOfMembers members + 1
  | _ => 0

/-- The greatest depth of an item. -/
def depthOfItems : List Json → Nat
  | [] => 0
  | item :: rest => max (depth item) (depthOfItems rest)

/-- The greatest depth of a member. -/
def depthOfMembers : {lo : Option String} → Entries Json lo → Nat
  | _, .nil => 0
  | _, .cons _ _ value rest => max (depth value) (depthOfMembers rest)

end

theorem depthOfMembers_le_iff {bound : Nat} {lo : Option String} {members : Entries Json lo} :
    depthOfMembers members ≤ bound ↔ ∀ member ∈ members.toList, member.2.depth ≤ bound := by
  induction members with
  | nil => exact ⟨fun _ _ h => (nomatch h), fun _ => Nat.zero_le _⟩
  | cons key above json rest ih =>
      rw [depthOfMembers, max_le_iff, ih, Entries.toList, List.forall_mem_cons]

/-- All numbers of a document are whole numbers of 64 bits with a sign. -/
inductive OnlyInts : Json → Prop
  | null : OnlyInts .null
  | bool (b : Bool) : OnlyInts (.bool b)
  | int (n : Int64) : OnlyInts (.number (.int n))
  | text (s : String) : OnlyInts (.text s)
  | array (items : List Json) (h : ∀ item ∈ items, OnlyInts item) : OnlyInts (.array items)
  | object (members : Entries Json none) (h : ∀ member ∈ members.toList, OnlyInts member.2) :
    OnlyInts (.object members)

/-! ## Results under a condition -/

/-- `result` is `good` if `fits` holds, and a refusal if not. -/
structure Yields {α : Type} (fits : Prop) (result : Except Stop α) (good : α) : Prop where
  ok : fits → result = .ok good
  error : ¬fits → ∃ stop, result = .error stop

namespace Yields

variable {α β : Type} {fits more : Prop} {x : Except Stop α} {a : α}

theorem of_ok (h : x = .ok a) : Yields True x a :=
  ⟨fun _ => h, fun hn => absurd trivial hn⟩

theorem of_error (stop : Stop) (hfits : ¬fits) : Yields fits (.error stop) a :=
  ⟨fun h => absurd h hfits, fun _ => ⟨stop, rfl⟩⟩

theorem of_iff (h : Yields fits x a) (hiff : more ↔ fits) : Yields more x a :=
  ⟨fun hm => h.ok (hiff.1 hm), fun hm => h.error fun hf => hm (hiff.2 hf)⟩

/-- Of two readers in a row, the second has a say only if the first succeeds. -/
theorem bind {f : α → Except Stop β} {b : β} (hx : Yields fits x a) (hf : Yields more (f a) b) :
    Yields (fits ∧ more) (x >>= f) b where
  ok := by
    rintro ⟨hfits, hmore⟩
    rw [hx.ok hfits]
    exact hf.ok hmore
  error := by
    intro hn
    by_cases hfits : fits
    · rw [hx.ok hfits]
      exact hf.error fun hmore => hn ⟨hfits, hmore⟩
    · obtain ⟨stop, hstop⟩ := hx.error hfits
      exact ⟨stop, by rw [hstop]; rfl⟩

theorem bind_of_ok {f : α → Except Stop β} {b : β} (hx : x = .ok a) (hf : Yields more (f a) b) :
    Yields more (x >>= f) b := by
  rw [hx]
  exact hf

theorem map (h : Yields fits x a) (f : α → β) : Yields fits (x >>= fun a => pure (f a)) (f a) :=
  (h.bind (f := fun a => pure (f a)) (of_ok rfl)).of_iff (and_iff_left trivial).symm

end Yields

/-! ## Blanks -/

theorem skipSpace_of_not_isSpace {c : Char} (h : isSpace c = false) (rest : List Char) :
    skipSpace (c :: rest) = c :: rest :=
  List.dropWhile_cons_of_neg (Bool.not_eq_true _ ▸ h)

theorem skipSpace_lineBreak (layout : Layout) (level : Nat) (s : List Char) :
    skipSpace (layout.lineBreak level ++ s) = skipSpace s := by
  cases layout with
  | compact => rfl
  | pretty indent =>
      show skipSpace (List.replicate (indent * level) ' ' ++ s) = skipSpace s
      exact List.dropWhile_append_of_pos fun c hc => by
        rw [List.eq_of_mem_replicate hc]
        rfl

/-- A reader of documents looks behind the blanks. -/
theorem value_congr {s s' : List Char} (h : skipSpace s = skipSpace s') (depth : Nat) :
    value depth s = value depth s' := by
  rw [value, value, h]

/-- Between a key and its value stand a colon and perhaps blanks. -/
theorem exists_colon_append (layout : Layout) (s : List Char) :
    ∃ behind, skipSpace (layout.colon ++ s) = ':' :: behind ∧
      ∀ depth, value depth behind = value depth s := by
  cases layout with
  | compact => exact ⟨s, rfl, fun _ => rfl⟩
  | pretty indent => exact ⟨' ' :: s, rfl, value_congr rfl⟩

/-! ## What documents begin with, and what follows them -/

theorem endsNumber_lineBreak_append (layout : Layout) (level : Nat) {s : List Char}
    (h : EndsNumber s) : EndsNumber (layout.lineBreak level ++ s) := by
  cases layout with
  | compact => exact h
  | pretty indent =>
      intro c hc
      obtain rfl : '\n' = c := Option.some.inj hc
      decide

theorem endsNumber_cons {c : Char} (h : EndsNumber [c]) (rest : List Char) :
    EndsNumber (c :: rest) := h

/-- A document begins neither with a blank nor with what ends or parts items. -/
theorem exists_chars_eq_cons {json : Json} (h : OnlyInts json) (layout : Layout) (level : Nat) :
    ∃ c rest, json.chars layout level = c :: rest ∧ isSpace c = false ∧ c ≠ ']' ∧ c ≠ ',' := by
  cases h with
  | null => exact ⟨_, _, rfl, by decide⟩
  | bool b => cases b <;> exact ⟨_, _, rfl, by decide⟩
  | int n =>
      rw [chars, numberChars, Decimal.intChars]
      split
      · exact ⟨_, _, rfl, by decide⟩
      · obtain ⟨d, rest, hd, hchars, -⟩ := Decimal.exists_digitChars_eq_cons n.toInt.natAbs
        refine ⟨_, _, hchars, ?_⟩
        clear hchars
        decide +revert
  | text s => exact ⟨_, _, rfl, by decide⟩
  | array items _ => cases items <;> exact ⟨_, _, rfl, by decide⟩
  | object members _ => cases members <;> exact ⟨_, _, rfl, by decide⟩

/-- A document is read from behind blanks as it is without them. -/
theorem skipSpace_chars_append {json : Json} (h : OnlyInts json) (layout : Layout) (level : Nat)
    (s : List Char) :
    ∃ c rest, skipSpace (json.chars layout level ++ s) = c :: rest ∧
      c :: rest = json.chars layout level ++ s ∧ c ≠ ']' ∧ c ≠ ',' := by
  obtain ⟨c, rest, hchars, hspace, hclose, hcomma⟩ := exists_chars_eq_cons h layout level
  refine ⟨c, rest ++ s, ?_, ?_, hclose, hcomma⟩
  · rw [hchars, List.cons_append, skipSpace_of_not_isSpace hspace]
  · rw [hchars, List.cons_append]

/-! ## Items -/

/-- One item and those behind it. -/
def itemThen (item : List Char → Except Stop (Json × List Char)) (fuel : Nat) (s : List Char) :
    Except Stop (List Json × List Char) := do
  let (json, s) ← item s
  let (rest, s) ← items item fuel false s
  return (json :: rest, s)

section Items

variable {item : List Char → Except Stop (Json × List Char)} {fuel : Nat} {s rest rest' : List Char}

theorem items_of_close (first : Bool) (h : skipSpace s = ']' :: rest) :
    items item (fuel + 1) first s = .ok ([], rest) := by
  rw [items, h]
  rfl

theorem items_of_first {c : Char} (h : skipSpace s = c :: rest) (hclose : c ≠ ']')
    (hcomma : c ≠ ',') : items item (fuel + 1) true s = itemThen item fuel (c :: rest) := by
  rw [items, h]
  split
  · next hnil => cases hnil
  · next hcons => exact absurd (List.cons.inj hcons).1 hclose
  · next hcons => exact absurd (List.cons.inj hcons).1 hcomma
  · rfl

theorem items_of_comma {c : Char} (h : skipSpace s = ',' :: rest)
    (h' : skipSpace rest = c :: rest') (hclose : c ≠ ']') :
    items item (fuel + 1) false s = itemThen item fuel (c :: rest') := by
  rw [items, h]
  simp only [h', Bool.false_eq_true, if_false]
  split
  · next hnil => cases hnil
  · next hcons => exact absurd (List.cons.inj hcons).1 hclose
  · rfl

end Items

/-- Reading what `json` is written as gives `json` if it nests at most `depth` deep, and a refusal
    if it nests deeper. -/
def Reads (depth : Nat) (json : Json) : Prop :=
  ∀ (layout : Layout) (level : Nat) (rest : List Char), EndsNumber rest →
    Yields (json.depth ≤ depth) (value depth (json.chars layout level ++ rest)) (json, rest)

/-- What stands behind the last item or member. -/
theorem endsNumber_closing (layout : Layout) (level : Nat) {close : Char} (h : EndsNumber [close])
    (rest : List Char) : EndsNumber (layout.lineBreak level ++ close :: rest) :=
  endsNumber_lineBreak_append layout level (endsNumber_cons h rest)

theorem endsNumber_moreItems (layout : Layout) (level : Nat) (list : List Json) {s : List Char}
    (h : EndsNumber s) : EndsNumber (moreItems layout level list ++ s) := by
  cases list with
  | nil => exact h
  | cons item rest => exact endsNumber_cons (by decide) _

theorem length_le_length_moreItems (layout : Layout) (level : Nat) (list : List Json) :
    list.length ≤ (moreItems layout level list).length := by
  induction list with
  | nil => exact Nat.zero_le _
  | cons item rest ih =>
      simp only [moreItems, List.length_cons, List.length_append]
      omega

theorem itemThen_yields {depth level fuel : Nat} {json : Json} {list : List Json} {layout : Layout}
    {s rest : List Char} (hreads : Reads depth json) (hs : EndsNumber s)
    (hmore : Yields (depthOfItems list ≤ depth) (items (value depth) fuel false s) (list, rest)) :
    Yields (depthOfItems (json :: list) ≤ depth)
      (itemThen (value depth) fuel (json.chars layout level ++ s)) (json :: list, rest) := by
  refine Yields.of_iff ((hreads layout level s hs).bind ?_) max_le_iff
  exact hmore.map fun (list, s) => (json :: list, s)

/-- The items behind the first one read back, up to the closing bracket. -/
theorem items_moreItems {depth : Nat} {list : List Json} (hints : ∀ item ∈ list, OnlyInts item)
    (hreads : ∀ item ∈ list, Reads depth item) (layout : Layout) (level outer : Nat)
    (rest : List Char) {fuel : Nat} (hfuel : list.length < fuel) :
    Yields (depthOfItems list ≤ depth)
      (items (value depth) fuel false
        (moreItems layout level list ++ (layout.lineBreak outer ++ ']' :: rest)))
      (list, rest) := by
  have hclosing : EndsNumber (layout.lineBreak outer ++ ']' :: rest) :=
    endsNumber_closing layout outer (by decide) rest
  induction list generalizing fuel with
  | nil =>
      -- the closing bracket is read by a call of its own
      obtain ⟨fuel, rfl⟩ := Nat.exists_eq_add_one_of_ne_zero (Nat.ne_of_gt hfuel)
      have hblank : skipSpace (layout.lineBreak outer ++ ']' :: rest) = ']' :: rest := by
        rw [skipSpace_lineBreak]
        rfl
      exact (Yields.of_ok (items_of_close false hblank)).of_iff (iff_true_intro (Nat.zero_le _))
  | cons json list ih =>
      obtain ⟨fuel, rfl⟩ := Nat.exists_eq_add_one_of_ne_zero (Nat.ne_zero_of_lt hfuel)
      have hmore := ih (fun item h => hints item (List.mem_cons_of_mem _ h))
        (fun item h => hreads item (List.mem_cons_of_mem _ h)) (Nat.lt_of_succ_lt_succ hfuel)
      obtain ⟨c, behind, hskip, hchars, hclose, -⟩ := skipSpace_chars_append
        (hints json (List.mem_cons_self ..)) layout level
        (moreItems layout level list ++ (layout.lineBreak outer ++ ']' :: rest))
      simp only [moreItems, List.cons_append, List.append_assoc]
      rw [items_of_comma rfl ((skipSpace_lineBreak ..).trans hskip) hclose, hchars]
      exact itemThen_yields (hreads json (List.mem_cons_self ..))
        (endsNumber_moreItems layout level list hclosing) hmore

/-! ## Members -/

/-- One member, behind the quote that opens its key, and those behind it. -/
def memberThen (value : List Char → Except Stop (Json × List Char)) (fuel : Nat) (s : List Char) :
    Except Stop (List (String × Json) × List Char) := do
  let (key, s) ← stringBody s
  match skipSpace s with
  | [] => .error .early
  | ':' :: s =>
    let (json, s) ← value s
    let (rest, s) ← members value fuel false s
    return ((String.ofList key, json) :: rest, s)
  | s => .error (.atFirst s)

section Members

variable {read : List Char → Except Stop (Json × List Char)} {fuel : Nat} {s rest rest' : List Char}

theorem members_of_close (first : Bool) (h : skipSpace s = '\x7d' :: rest) :
    members read (fuel + 1) first s = .ok ([], rest) := by
  rw [members, h]
  rfl

theorem members_of_first (h : skipSpace s = '"' :: rest) :
    members read (fuel + 1) true s = memberThen read fuel rest := by
  rw [members, h]
  rfl

theorem members_of_comma (h : skipSpace s = ',' :: rest) (h' : skipSpace rest = '"' :: rest') :
    members read (fuel + 1) false s = memberThen read fuel rest' := by
  rw [members, h]
  simp only [h', Bool.false_eq_true, if_false]
  rfl

end Members

theorem endsNumber_moreMembers (layout : Layout) (level : Nat) {lo : Option String}
    (more : Entries Json lo) {s : List Char} (h : EndsNumber s) :
    EndsNumber (moreMembers layout level more ++ s) := by
  cases more with
  | nil => exact h
  | cons key above json rest => exact endsNumber_cons (by decide) _

theorem length_le_length_moreMembers (layout : Layout) (level : Nat) {lo : Option String}
    (more : Entries Json lo) : more.toList.length ≤ (moreMembers layout level more).length := by
  induction more with
  | nil => exact Nat.zero_le _
  | cons key above json rest ih =>
      simp only [moreMembers, Entries.toList, List.length_cons, List.length_append]
      omega

theorem memberThen_yields {depth level fuel : Nat} {key : String} {json : Json}
    {list : List (String × Json)} {layout : Layout} {s rest body : List Char} {more : Prop}
    (hreads : Reads depth json) (hs : EndsNumber s)
    (hbody : stringBody body = .ok (key.toList, layout.colon ++ (json.chars layout level ++ s)))
    (hmore : Yields more (members (value depth) fuel false s) (list, rest)) :
    Yields (json.depth ≤ depth ∧ more) (memberThen (value depth) fuel body)
      ((key, json) :: list, rest) := by
  obtain ⟨behind, hcolon, hvalue⟩ :=
    exists_colon_append layout (json.chars layout level ++ s)
  refine Yields.bind_of_ok hbody ?_
  simp only [hcolon, hvalue, String.ofList_toList]
  refine (hreads layout level s hs).bind ?_
  exact hmore.map fun (list, s) => ((key, json) :: list, s)

/-- The members behind the first one read back, up to the closing brace. -/
theorem members_moreMembers {depth : Nat} {lo : Option String} {more : Entries Json lo}
    (hreads : ∀ member ∈ more.toList, Reads depth member.2) (layout : Layout) (level outer : Nat)
    (rest : List Char) {fuel : Nat} (hfuel : more.toList.length < fuel) :
    Yields (depthOfMembers more ≤ depth)
      (members (value depth) fuel false
        (moreMembers layout level more ++ (layout.lineBreak outer ++ '\x7d' :: rest)))
      (more.toList, rest) := by
  have hclosing : EndsNumber (layout.lineBreak outer ++ '\x7d' :: rest) :=
    endsNumber_closing layout outer (by decide) rest
  induction more generalizing fuel with
  | nil =>
      obtain ⟨fuel, rfl⟩ := Nat.exists_eq_add_one_of_ne_zero (Nat.ne_zero_of_lt hfuel)
      have hblank : skipSpace (layout.lineBreak outer ++ '\x7d' :: rest) = '\x7d' :: rest := by
        rw [skipSpace_lineBreak]
        rfl
      exact (Yields.of_ok (members_of_close false hblank)).of_iff
        (iff_true_intro (Nat.zero_le _))
  | cons key above json more ih =>
      obtain ⟨fuel, rfl⟩ := Nat.exists_eq_add_one_of_ne_zero (Nat.ne_zero_of_lt hfuel)
      have hmore := ih (fun member h => hreads member (List.mem_cons_of_mem _ h))
        (Nat.lt_of_succ_lt_succ hfuel)
      obtain ⟨body, hquote, hbody⟩ := stringChars_append key (layout.colon ++
        (json.chars layout level ++
          (moreMembers layout level more ++ (layout.lineBreak outer ++ '\x7d' :: rest))))
      have hskip := skipSpace_lineBreak layout level ('"' :: body)
      simp only [moreMembers, List.cons_append, List.append_assoc]
      rw [hquote, members_of_comma rfl hskip]
      exact (memberThen_yields (hreads (key, json) (List.mem_cons_self ..))
        (endsNumber_moreMembers layout level more hclosing) hbody hmore).of_iff max_le_iff

/-! ## Documents -/

/-- An array costs its reader one level of nesting. -/
theorem array_yields {list : List Json} {s rest : List Char}
    (h : ∀ depth, Yields (depthOfItems list ≤ depth) (items (value depth) (s.length + 1) true s)
      (list, rest)) (depth : Nat) :
    Yields ((array list).depth ≤ depth) (value depth ('[' :: s)) (array list, rest) := by
  cases depth with
  | zero =>
      rw [value]
      exact Yields.of_error _ (Nat.not_succ_le_zero _)
  | succ depth =>
      rw [value]
      exact ((h depth).map fun (list, rest) => (array list, rest)).of_iff Nat.succ_le_succ_iff

/-- An object costs its reader one level of nesting. Its members come in the order of their keys,
    so putting them into a dictionary changes nothing. -/
theorem object_yields {entries : Entries Json none} {s rest : List Char}
    (h : ∀ depth, Yields (depthOfMembers entries ≤ depth)
      (members (value depth) (s.length + 1) true s) (entries.toList, rest)) (depth : Nat) :
    Yields ((object entries).depth ≤ depth) (value depth ('\x7b' :: s)) (object entries, rest) := by
  cases depth with
  | zero =>
      rw [value]
      exact Yields.of_error _ (Nat.not_succ_le_zero _)
  | succ depth =>
      rw [value]
      have hmap := (h depth).map fun (list, rest) => (object (Dict.ofList list), rest)
      simp only [Dict.ofList_toList] at hmap
      exact hmap.of_iff Nat.succ_le_succ_iff

theorem scalar_yields {json : Json} {depth : Nat} {s rest : List Char} (hdepth : json.depth = 0)
    (h : value depth s = .ok (json, rest)) :
    Yields (json.depth ≤ depth) (value depth s) (json, rest) :=
  (Yields.of_ok h).of_iff (iff_true_intro (hdepth ▸ Nat.zero_le _))

theorem array_reads {list : List Json} (hints : ∀ item ∈ list, OnlyInts item)
    (hreads : ∀ item ∈ list, ∀ depth, Reads depth item) (depth : Nat) :
    Reads depth (array list) := by
  intro layout level rest _
  cases list with
  | nil =>
      refine array_yields (fun d => ?_) depth
      exact (Yields.of_ok (items_of_close true rfl)).of_iff (iff_true_intro (Nat.zero_le _))
  | cons json list =>
      obtain ⟨c, behind, hskip, hchars, hclose, hcomma⟩ := skipSpace_chars_append
        (hints json (List.mem_cons_self ..)) layout (level + 1)
        (moreItems layout (level + 1) list ++ (layout.lineBreak level ++ ']' :: rest))
      simp only [chars, List.cons_append, List.append_assoc, List.nil_append]
      refine array_yields (fun d => ?_) depth
      rw [items_of_first ((skipSpace_lineBreak ..).trans hskip) hclose hcomma, hchars]
      refine itemThen_yields (hreads json (List.mem_cons_self ..) d)
        (endsNumber_moreItems layout (level + 1) list
          (endsNumber_closing layout level (by decide) rest)) ?_
      refine items_moreItems (fun item h => hints item (List.mem_cons_of_mem _ h))
        (fun item h => hreads item (List.mem_cons_of_mem _ h) d) layout (level + 1) level rest ?_
      -- the fuel is the length of the text, in which every item takes a comma at least
      have := length_le_length_moreItems layout (level + 1) list
      simp only [List.length_append, List.length_cons]
      omega

theorem object_reads {entries : Entries Json none}
    (hreads : ∀ member ∈ entries.toList, ∀ depth, Reads depth member.2) (depth : Nat) :
    Reads depth (object entries) := by
  intro layout level rest _
  cases entries with
  | nil =>
      refine object_yields (fun d => ?_) depth
      exact (Yields.of_ok (members_of_close true rfl)).of_iff (iff_true_intro (Nat.zero_le _))
  | cons key above json more =>
      obtain ⟨body, hquote, hbody⟩ := stringChars_append key (layout.colon ++
        (json.chars layout (level + 1) ++
          (moreMembers layout (level + 1) more ++ (layout.lineBreak level ++ '\x7d' :: rest))))
      have hskip := skipSpace_lineBreak layout (level + 1) ('"' :: body)
      simp only [chars, List.cons_append, List.append_assoc, List.nil_append]
      rw [hquote]
      refine object_yields (fun d => ?_) depth
      rw [members_of_first hskip]
      refine (memberThen_yields (hreads (key, json) (List.mem_cons_self ..) d)
        (endsNumber_moreMembers layout (level + 1) more
          (endsNumber_closing layout level (by decide) rest)) hbody
        (members_moreMembers (fun member h => hreads member (List.mem_cons_of_mem _ h) d) layout
          (level + 1) level rest ?_)).of_iff max_le_iff
      -- the fuel is the length of the text, in which every member takes a comma at least
      have hbehind := congrArg List.length hquote
      have := length_le_length_moreMembers layout (level + 1) more
      simp only [List.length_append, List.length_cons] at hbehind ⊢
      omega

theorem reads_of_onlyInts {json : Json} (h : OnlyInts json) (depth : Nat) : Reads depth json := by
  induction h generalizing depth with
  | null =>
      intro layout level rest _
      refine scalar_yields rfl ?_
      rw [chars, value]
      rfl
  | bool b =>
      intro layout level rest _
      refine scalar_yields rfl ?_
      cases b <;>
      · rw [chars, value]
        rfl
  | int n =>
      -- only a number could go on in what follows
      intro layout level rest hrest
      exact scalar_yields rfl (value_numberChars_int depth n hrest)
  | text s =>
      intro layout level rest _
      obtain ⟨body, hquote, hbody⟩ := stringChars_append s rest
      refine scalar_yields rfl ?_
      rw [chars, hquote, value]
      show (stringBody body >>= fun (cs, rest) => pure (text (String.ofList cs), rest)) = _
      rw [hbody]
      exact congrArg (fun t => Except.ok (text t, rest)) String.ofList_toList
  | array items hints ih => exact array_reads hints ih depth
  | object members hints ih => exact object_reads ih depth

/-- **Documents read back.** -/
theorem parse_render {json : Json} (h : OnlyInts json) (layout : Layout) :
    (json.depth ≤ maxDepth → parse (json.render layout) = .ok json) ∧
    (maxDepth < json.depth → ∃ e, parse (json.render layout) = .error e) := by
  have hread := reads_of_onlyInts h maxDepth layout 0 [] (by decide)
  rw [List.append_nil] at hread
  unfold parse render
  rw [String.toList_ofList]
  constructor
  · intro hdepth
    rw [hread.ok hdepth]
    rfl
  · intro hdepth
    obtain ⟨stop, hstop⟩ := hread.error (Nat.not_le_of_lt hdepth)
    exact ⟨_, by rw [hstop]⟩

end Pipework.Json
