import Pipework.Proofs.Value.Json
import Pipework.Transform.Notation

set_option autoImplicit false

/-! # JSON text and values

A value without byte strings and floating-point numbers can be written as JSON text in any layout,
and the text gives the value back, with sealed boxes in their map form, unless it nests too deep for
the reader; then it is refused (`jsonToValue_valueToJson`). -/

namespace Pipework.Transform

/-! ## Layouts -/

/-- The indentation is left out, null or a number that is not negative. -/
def IndentOk (args : Arguments) : Prop :=
  ∀ value, args.get? Parameter.indent.index Parameter.indent.name = some value →
    ∃ n : Int64, value = .int n ∧ 0 ≤ n.toInt

/-- The indentation decides on a layout for all values alike. -/
theorem exists_layout {args : Arguments} (h : IndentOk args) :
    ∃ layout : Json.Layout, ∀ (value : Value) (json : Json), value.toJson = .ok json →
      valueToJson value args = .ok (.text (json.render layout)) := by
  cases hget : args.get? Parameter.indent.index Parameter.indent.name with
  | none =>
      refine ⟨.compact, fun value json hjson => ?_⟩
      have hindent : Parameter.indent.nat? args = .ok none := by
        rw [Parameter.nat?, Arguments.nat?, hget]
        rfl
      rw [valueToJson, hjson]
      simp only [hindent, bind, Except.bind]
      rfl
  | some bound =>
      obtain ⟨n, rfl, hn⟩ := h bound hget
      refine ⟨.pretty n.toInt.toNat, fun value json hjson => ?_⟩
      have hindent : Parameter.indent.nat? args = .ok (some n.toInt.toNat) := by
        rw [Parameter.nat?, Arguments.nat?, hget]
        simp only [if_neg (Int.not_lt.2 hn)]
        rfl
      rw [valueToJson, hjson]
      simp only [hindent, bind, Except.bind]
      rfl

/-! ## Reading what was written -/

/-- Text is read as JSON, and nothing else can go wrong. -/
theorem jsonToValue_text (text : String) :
    jsonToValue (.text text) =
      match Json.parse text with
      | .ok json => .ok (.ofJson json)
      | .error e => .error (.json e) := by
  show ((Json.parse text).mapError Fault.json >>= fun json => pure (Value.ofJson json)) = _
  cases Json.parse text <;> rfl

/-- **JSON text reads back.** A value without byte strings and floating-point numbers has a JSON
    text for every indentation. Lists, maps and sealed boxes may nest 127 deep in what is read: up
    to there the text gives the value, with boxes in their map form; beyond, it is malformed. -/
theorem jsonToValue_valueToJson (value : Value) (hbytes : ¬value.HasPart Value.IsBytes)
    (hfloat : ¬value.HasPart Value.IsFloat) (args : Arguments) (hindent : IndentOk args) :
    ∃ text, valueToJson value args = .ok (.text text) ∧
      (value.depth ≤ 127 → jsonToValue (.text text) = .ok value.unboxed) ∧
      (127 < value.depth → ∃ reason,
        (jsonToValue (.text text)).mapError Fault.toError = .error (.format "json" reason)) := by
  obtain ⟨json, hjson⟩ := Value.exists_toJson hbytes fun hpart =>
    hfloat (hpart.mono fun v ⟨_, hv, _⟩ => hv ▸ rfl)
  obtain ⟨layout, hlayout⟩ := exists_layout hindent
  have hmirrors := Value.mirrors_of_toJson hjson
  have hread := Json.parse_render (hmirrors.onlyInts hfloat) layout
  rw [hmirrors.depth_eq] at hread
  refine ⟨json.render layout, hlayout value json hjson, ?_, ?_⟩
  · intro hdepth
    rw [jsonToValue_text, hread.1 hdepth, ← hmirrors.ofJson_eq]
  · intro hdepth
    obtain ⟨e, he⟩ := hread.2 hdepth
    exact ⟨e.reason, by rw [jsonToValue_text, he]; rfl⟩

/-- A list of a text that needs escapes, a map and a box, with two spaces a level. -/
theorem jsonToValue_valueToJson_indented :
    ∃ (text : String) (box : SealedBox),
      valueToJson (.list [.text "a\"\\\n", .map (Dict.ofList [("k", .int (-5))]), .sealedBox box])
        ⟨[.int 2], .empty⟩ = .ok (.text text) ∧
      jsonToValue (.text text) =
        .ok (.list [.text "a\"\\\n", .map (Dict.ofList [("k", .int (-5))]), box.toValue]) := by
  let box : SealedBox := ⟨[1], [], [2, 3], [4]⟩
  have hparts : ∀ p : Value → Prop, (∀ v, p v → v.kind = .bytes ∨ v.kind = .float) →
      ¬Value.HasPart p
        (.list [.text "a\"\\\n", .map (Dict.ofList [("k", .int (-5))]), .sealedBox box]) := by
    intro p hp hpart
    rcases Value.hasPart_list_iff.1 hpart with h | ⟨item, hitem, h⟩
    · exact absurd (hp _ h) (by decide)
    · simp only [List.mem_cons, List.not_mem_nil, or_false] at hitem
      rcases hitem with rfl | rfl | rfl
      · rw [Value.hasPart_scalar_iff (by decide) (by decide)] at h
        exact absurd (hp _ h) (by decide)
      · rcases Value.hasPart_map_iff.1 h with h | ⟨entry, hentry, h⟩
        · exact absurd (hp _ h) (by decide)
        · obtain rfl := List.mem_singleton.1 hentry
          rw [Value.hasPart_scalar_iff (by decide) (by decide)] at h
          exact absurd (hp _ h) (by decide)
      · rw [Value.hasPart_scalar_iff (by decide) (by decide)] at h
        exact absurd (hp _ h) (by decide)
  have hindent : IndentOk ⟨[.int 2], .empty⟩ := by
    intro value hvalue
    exact ⟨2, (Option.some.inj hvalue).symm, by decide⟩
  obtain ⟨text, htext, hback, -⟩ := jsonToValue_valueToJson _ (hparts _ fun _ => Or.inl)
    (hparts _ fun _ => Or.inr) ⟨[.int 2], .empty⟩ hindent
  exact ⟨text, box, htext, hback (by decide)⟩

end Pipework.Transform
