import Pipework.Proofs.Codec.Base64
import Pipework.Proofs.Codec.Reading
import Pipework.Proofs.Data.Refusal
import Pipework.Proofs.Document.Value
import Pipework.Proofs.Value.Json

set_option autoImplicit false

/-! # Which documents have a value

Only the keys of mappings and the tags in a document can keep it from having a value: keys have to be
texts, and tags have to stand for the notation of the text under them (`Document.Node.Accepted`). The
first one that does not qualify decides the error (`Document.decided_toValue`). A document that says
the same as one in JSON has the value of that one (`Document.toValue_of_sameData`). -/

namespace Pipework

theorem Binary64.ofInt_natCast (n : Nat) : ofInt n = ofNat n := by
  rw [ofInt, if_neg (by omega), Int.natAbs_natCast]

namespace Document

/-! ## Keys and tags -/

/-- A part of a document that may keep it from having a value. -/
inductive Node
  /-- A key of a mapping. -/
  | key (key : Document)
  /-- A tag with what is under it. -/
  | tag (tag : String) (content : Document)

mutual

/-- The keys and tags of a document as they stand in it: a key before its content, and a tag before
    what is under it. -/
def nodes : Document → List Node
  | sequence items => nodesOfItems items
  | mapping entries => nodesOfEntries entries
  | tagged tag content => .tag tag content :: nodes content
  | _ => []

/-- The keys and tags of items. -/
def nodesOfItems : List Document → List Node
  | [] => []
  | item :: rest => nodes item ++ nodesOfItems rest

/-- The keys and tags of entries. -/
def nodesOfEntries : List (Document × Document) → List Node
  | [] => []
  | (key, content) :: rest => .key key :: nodes key ++ (nodes content ++ nodesOfEntries rest)

end

namespace Node

/-- The key is a text, or the tag is that of a notation and the text under it, blanks around it
    apart, is in this notation. -/
inductive Accepted : Node → Prop
  | key (s : String) : Accepted (.key (.text s))
  | hex {tag s : String} {bytes : Bytes} (htag : tag = "hex")
      (h : Hex.Reads (Text.trim s.toList) bytes) : Accepted (.tag tag (.text s))
  | base64 {tag s : String} {bytes : Bytes} (htag : tag = "base64")
      (h : Base64.Spells bytes (Text.trim s.toList)) : Accepted (.tag tag (.text s))

/-- The key or tag is not accepted, and the error says why. If there is no text under a tag, the tag
    itself does not matter. -/
inductive Refused : Node → DocumentError → Prop
  | keyNotText {key : Document} (h : key.kind ≠ .text) : Refused (.key key) (.keyNotText key.kind)
  | tagNotOnText {tag : String} {content : Document} (h : content.kind ≠ .text) :
    Refused (.tag tag content) (.tagNotOnText tag content.kind)
  | badHex {tag s : String} (htag : tag = "hex")
      (h : ∀ bytes, ¬Hex.Reads (Text.trim s.toList) bytes) : Refused (.tag tag (.text s)) .badHex
  | badBase64 {tag s : String} (htag : tag = "base64")
      (h : ∀ bytes, ¬Base64.Spells bytes (Text.trim s.toList)) :
    Refused (.tag tag (.text s)) .badBase64
  | unsupportedTag {tag s : String} (hhex : tag ≠ "hex") (hbase64 : tag ≠ "base64") :
    Refused (.tag tag (.text s)) (.unsupportedTag tag)

theorem Refused.not_accepted {node : Node} {error : DocumentError} (h : Refused node error) :
    ¬Accepted node := by
  intro haccepted
  cases haccepted with
  | key s =>
      cases h with
      | keyNotText h => exact h rfl
  | hex htag hreads =>
      cases h with
      | tagNotOnText h => exact h rfl
      | badHex _ h => exact h _ hreads
      | badBase64 htag' _ => exact absurd (htag.symm.trans htag') (by decide)
      | unsupportedTag hhex _ => exact hhex htag
  | base64 htag hspells =>
      cases h with
      | tagNotOnText h => exact h rfl
      | badHex htag' _ => exact absurd (htag.symm.trans htag') (by decide)
      | badBase64 _ h => exact h _ hspells
      | unsupportedTag _ hbase64 => exact hbase64 htag

theorem Refused.eq {node : Node} {error other : DocumentError} (h : Refused node error)
    (hother : Refused node other) : error = other := by
  have hne : "hex" ≠ "base64" := by decide
  cases h with
  | keyNotText _ =>
      cases hother
      rfl
  | tagNotOnText h =>
      cases hother with
      | tagNotOnText _ => rfl
      | _ => exact absurd rfl h
  | badHex htag _ =>
      subst htag
      cases hother with
      | tagNotOnText h => exact absurd rfl h
      | badHex _ _ => rfl
      | badBase64 htag' _ => exact absurd htag' hne
      | unsupportedTag hhex _ => exact absurd rfl hhex
  | badBase64 htag _ =>
      subst htag
      cases hother with
      | tagNotOnText h => exact absurd rfl h
      | badHex htag' _ => exact absurd htag'.symm hne
      | badBase64 _ _ => rfl
      | unsupportedTag _ hbase64 => exact absurd rfl hbase64
  | unsupportedTag hhex hbase64 =>
      cases hother with
      | tagNotOnText h => exact absurd rfl h
      | badHex htag' _ => exact absurd htag' hhex
      | badBase64 htag' _ => exact absurd htag' hbase64
      | unsupportedTag _ _ => rfl

end Node

/-! ## The first key or tag that is not accepted -/

/-- Induction over documents, with the items of sequences and the contents of mappings. -/
@[elab_as_elim]
theorem induction {motive : Document → Prop} (null : motive .null) (bool : ∀ b, motive (.bool b))
    (int : ∀ n, motive (.int n)) (float : ∀ x, motive (.float x)) (text : ∀ s, motive (.text s))
    (sequence : ∀ items, (∀ item ∈ items, motive item) → motive (.sequence items))
    (mapping : ∀ entries, (∀ entry ∈ entries, motive entry.2) → motive (.mapping entries))
    (tagged : ∀ tag content, motive content → motive (.tagged tag content))
    (document : Document) : motive document :=
  @Document.rec motive (fun items => ∀ item ∈ items, motive item)
    (fun entries => ∀ entry ∈ entries, motive entry.2) (fun entry => motive entry.2)
    null bool int float text sequence mapping tagged
    (fun _ h => nomatch h)
    (fun _ _ hitem hrest => List.forall_mem_cons.2 ⟨hitem, hrest⟩)
    (fun _ h => nomatch h)
    (fun _ _ hentry hrest => List.forall_mem_cons.2 ⟨hentry, hrest⟩)
    (fun _ _ _ hcontent => hcontent)
    document

/-- `result` is decided by the first of `nodes` that is not accepted. -/
abbrev DecidedByNodes {α : Type} (nodes : List Node) (result : Except DocumentError α) : Prop :=
  Decided Node.Accepted Node.Refused nodes result

theorem decided_literal (tag s : String) :
    DecidedByNodes [.tag tag (.text s)] (literal tag s) := by
  unfold literal
  by_cases hhex : tag = "hex"
  · rw [if_pos hhex]
    cases hpairs : Hex.decodePairs (Text.trim s.toList) with
    | some bytes =>
        have hreads := Hex.decodePairs_eq_some_iff.1 hpairs
        exact .ok (List.forall_mem_singleton.2 (.hex hhex hreads))
    | none =>
        exact .error (.head (.badHex hhex (Hex.decodePairs_eq_none_iff.1 hpairs)) [])
  rw [if_neg hhex]
  by_cases hbase64 : tag = "base64"
  · rw [if_pos hbase64]
    cases hdecode : Base64.decode (Text.trim s.toList) with
    | ok bytes =>
        have hspells := Base64.spells_iff.2 (Base64.decode_eq_ok_iff.1 hdecode)
        exact .ok (List.forall_mem_singleton.2 (.base64 hbase64 hspells))
    | error error =>
        refine .error (.head (.badBase64 hbase64 fun bytes hspells => ?_) [])
        rw [Base64.decode_eq_ok_iff.2 (Base64.spells_iff.1 hspells)] at hdecode
        cases hdecode
  · rw [if_neg hbase64]
    exact .error (.head (.unsupportedTag hhex hbase64) [])

theorem decided_itemValues {items : List Document}
    (h : ∀ item ∈ items, DecidedByNodes item.nodes item.toValue) :
    DecidedByNodes (nodesOfItems items) (itemValues items) := by
  induction items with
  | nil => exact .ok nofun
  | cons item rest ih =>
      obtain ⟨hitem, hrest⟩ := List.forall_mem_cons.1 h
      exact hitem.bind fun value _ => (ih hrest).map (List.cons value)

theorem decided_entryValues {entries : List (Document × Document)}
    (h : ∀ entry ∈ entries, DecidedByNodes entry.2.nodes entry.2.toValue) (done : Dict Value) :
    DecidedByNodes (nodesOfEntries entries) (entryValues done entries) := by
  induction entries generalizing done with
  | nil => exact .ok nofun
  | cons entry rest ih =>
      obtain ⟨key, content⟩ := entry
      obtain ⟨hcontent, hrest⟩ := List.forall_mem_cons.1 h
      cases key with
      | text key =>
          -- nothing is inside a text, so that the content comes right after the key
          have hkey : ∀ node ∈ [Node.key (.text key)], node.Accepted :=
            List.forall_mem_singleton.2 (.key key)
          exact (hcontent.bind fun value _ => ih hrest (done.insert key value)).append_left hkey
      | _ => exact .error (.head (.keyNotText nofun) _)

/-- **The first key or tag that is not accepted decides.** -/
theorem decided_toValue (document : Document) :
    DecidedByNodes document.nodes document.toValue := by
  induction document using Document.induction with
  | sequence items ih => exact (decided_itemValues ih).map Value.list
  | mapping entries ih => exact (decided_entryValues ih .empty).map Value.map
  | tagged tag content =>
      cases content with
      | text s => exact (decided_literal tag s).map Value.bytes
      | _ => exact .error (.head (.tagNotOnText nofun) _)
  | _ => exact .ok nofun

/-! ## Documents in JSON -/

/-- The document says what `json` says. A whole number that 64 bits have no room for is read as the
    nearest floating-point number in JSON. Of two contents for one key, the later counts. -/
inductive SameData : Document → Json → Prop
  | null : SameData .null .null
  | bool (b : Bool) : SameData (.bool b) (.bool b)
  | int (n : Int64) : SameData (.int n.toInt) (.number (.int n))
  | large (n : UInt64) (beyond : 0x8000000000000000 ≤ n.toNat) :
    SameData (.int n.toNat) (.number (.large n beyond))
  | beyond {n : Int} (h : n < -0x8000000000000000 ∨ 0x10000000000000000 ≤ n)
      (finite : (Binary64.ofInt n).isFinite = true) :
    SameData (.int n) (.number (.float (.ofInt n) finite))
  | float (x : Binary64) (finite : x.isFinite = true) :
    SameData (.float x) (.number (.float x finite))
  | text (s : String) : SameData (.text s) (.text s)
  | sequence {pairs : List (Document × Json)} (h : ∀ pair ∈ pairs, SameData pair.1 pair.2) :
    SameData (.sequence (pairs.map Prod.fst)) (.array (pairs.map Prod.snd))
  | mapping {entries : List ((String × Document) × Json)}
      (h : ∀ entry ∈ entries, SameData entry.1.2 entry.2) :
    SameData (.mapping (textEntries (entries.map Prod.fst)))
      (.object (Dict.ofList (entries.map fun entry => (entry.1.1, entry.2))))

/-- There are no tags in the document, its numbers are finite, and the keys of its mappings are
    texts. -/
inductive Plain : Document → Prop
  | null : Plain .null
  | bool (b : Bool) : Plain (.bool b)
  | int {n : Int}
      (h : -0x8000000000000000 ≤ n ∧ n < 0x10000000000000000 ∨ (Binary64.ofInt n).isFinite = true) :
    Plain (.int n)
  | float {x : Binary64} (h : x.isFinite = true) : Plain (.float x)
  | text (s : String) : Plain (.text s)
  | sequence {items : List Document} (h : ∀ item ∈ items, Plain item) : Plain (.sequence items)
  | mapping {pairs : List (String × Document)} (h : ∀ pair ∈ pairs, Plain pair.2) :
    Plain (.mapping (textEntries pairs))

/-! ### Plain documents have a form in JSON -/

theorem exists_sameData_int {n : Int}
    (h : -0x8000000000000000 ≤ n ∧ n < 0x10000000000000000 ∨ (Binary64.ofInt n).isFinite = true) :
    ∃ json, SameData (.int n) json := by
  by_cases hbeyond : n < -0x8000000000000000 ∨ 0x10000000000000000 ≤ n
  · exact ⟨_, .beyond hbeyond (h.resolve_left (by omega))⟩
  by_cases hsigned : n < 0x8000000000000000
  · have hback : (Int64.ofInt n).toInt = n := Int64.toInt_ofInt_of_le (by omega) hsigned
    have hsame := SameData.int (Int64.ofInt n)
    rw [hback] at hsame
    exact ⟨_, hsame⟩
  · obtain ⟨m, rfl⟩ := Int.eq_ofNat_of_zero_le (show 0 ≤ n by omega)
    have hlt : m < 2 ^ 64 := by omega
    have hback : (UInt64.ofNat m).toNat = m := by
      rw [UInt64.toNat_ofNat', Nat.mod_eq_of_lt hlt]
    have hlarge : 0x8000000000000000 ≤ (UInt64.ofNat m).toNat := by omega
    have hsame := SameData.large (UInt64.ofNat m) hlarge
    rw [hback] at hsame
    exact ⟨_, hsame⟩

theorem exists_pairs {α β : Type} {R : α → β → Prop} {items : List α}
    (h : ∀ item ∈ items, ∃ b, R item b) :
    ∃ pairs : List (α × β), pairs.map Prod.fst = items ∧ ∀ pair ∈ pairs, R pair.1 pair.2 := by
  choose partner hpartner using h
  refine ⟨items.attach.map fun item => (item.1, partner item.1 item.2), ?_, ?_⟩
  · rw [List.map_map]
    exact items.attach_map_subtype_val
  · simp only [List.forall_mem_map]
    exact fun item _ => hpartner item.1 item.2

/-- **A plain document has a form in JSON.** -/
theorem Plain.exists_sameData {document : Document} (h : document.Plain) :
    ∃ json, SameData document json := by
  induction h with
  | null => exact ⟨_, .null⟩
  | bool b => exact ⟨_, .bool b⟩
  | int h => exact exists_sameData_int h
  | float h => exact ⟨_, .float _ h⟩
  | text s => exact ⟨_, .text s⟩
  | sequence _ ih =>
      obtain ⟨pairs, rfl, hpairs⟩ := exists_pairs ih
      exact ⟨_, .sequence hpairs⟩
  | mapping _ ih =>
      obtain ⟨entries, rfl, hentries⟩ := exists_pairs ih
      exact ⟨_, .mapping hentries⟩

/-! ### The same value -/

theorem intValue_toInt (n : Int64) : intValue n.toInt = .int n := by
  rw [intValue, if_pos ⟨Int64.le_toInt n, Int64.toInt_lt n⟩, Int64.ofInt_toInt]

theorem intValue_of_beyond {n : Int} (h : n < -0x8000000000000000 ∨ 0x8000000000000000 ≤ n) :
    intValue n = .float (.ofInt n) := by
  rw [intValue, if_neg (by omega)]

theorem itemValues_map_fst {pairs : List (Document × Json)}
    (h : ∀ pair ∈ pairs, pair.1.toValue = .ok (.ofJson pair.2)) :
    itemValues (pairs.map Prod.fst) = .ok (Value.ofJsonItems (pairs.map Prod.snd)) := by
  induction pairs with
  | nil => rfl
  | cons pair rest ih =>
      obtain ⟨hpair, hrest⟩ := List.forall_mem_cons.1 h
      rw [List.map_cons, itemValues, hpair, ih hrest]
      rfl

theorem entryValues_map_fst {entries : List ((String × Document) × Json)}
    (h : ∀ entry ∈ entries, entry.1.2.toValue = .ok (.ofJson entry.2)) (done : Dict Value) :
    entryValues done (textEntries (entries.map Prod.fst)) =
      .ok ((entries.map fun entry => (entry.1.1, Value.ofJson entry.2)).foldl
        (fun (dict : Dict Value) (key, value) => dict.insert key value) done) := by
  induction entries generalizing done with
  | nil => rfl
  | cons entry rest ih =>
      obtain ⟨hentry, hrest⟩ := List.forall_mem_cons.1 h
      rw [List.map_cons, textEntries, List.map_cons, entryValues, hentry]
      exact ih hrest _

/-- **What says the same has the same value.** -/
theorem toValue_of_sameData {document : Document} {json : Json} (h : SameData document json) :
    document.toValue = .ok (.ofJson json) := by
  induction h with
  | int n => exact congrArg Except.ok (intValue_toInt n)
  | large n beyond =>
      rw [toValue, intValue_of_beyond (by omega), Binary64.ofInt_natCast]
      rfl
  | beyond h finite =>
      rw [toValue, intValue_of_beyond (by omega)]
      rfl
  | sequence _ ih =>
      rw [toValue, itemValues_map_fst ih]
      rfl
  | @mapping entries _ ih =>
      have hmembers : Value.ofJsonMembers (Dict.ofList (entries.map fun entry =>
            (entry.1.1, entry.2))) =
          Dict.ofList (entries.map fun entry => (entry.1.1, Value.ofJson entry.2)) := by
        rw [Value.ofJsonMembers_ofList, List.map_map]
        rfl
      rw [toValue, entryValues_map_fst ih, Value.ofJson, hmembers]
      rfl
  | _ => rfl

/-- **Which documents have a value, and which value it is.** A document has a value exactly if all
    keys in it are texts and all tags stand for the notation of the text under them. Otherwise the
    first key or tag of which this is not true decides the error, in the order in which the document
    is written. A document without tags whose keys are texts and whose numbers are finite can be
    written in JSON as well, and it has the value of the JSON document. Integers that 64 bits with a
    sign have no room for are floating-point numbers in both. -/
theorem toValue_corresponds (document : Document) :
    ((∃ value, document.toValue = .ok value) ↔ ∀ node ∈ document.nodes, node.Accepted) ∧
    (∀ error, document.toValue = .error error ↔
      ∃ before node after, document.nodes = before ++ node :: after ∧
        (∀ earlier ∈ before, earlier.Accepted) ∧ node.Refused error) ∧
    (document.Plain → ∃ json, document.SameData json) ∧
    (∀ json, document.SameData json → document.toValue = .ok (.ofJson json)) ∧
    (∀ n : Int, n < -0x8000000000000000 ∨ 0x8000000000000000 ≤ n →
      (int n).toValue = .ok (.float (.ofInt n)) ∧
      ∀ json, (int n).SameData json → Value.ofJson json = .float (.ofInt n)) := by
  have hexcl : ∀ node error, Node.Refused node error → ¬node.Accepted :=
    fun _ _ h => h.not_accepted
  have hdecided := decided_toValue document
  refine ⟨hdecided.exists_ok_iff hexcl, fun error => ?_, Plain.exists_sameData,
    fun _ => toValue_of_sameData, fun n hn => ?_⟩
  · exact hdecided.eq_error_iff hexcl fun _ _ _ h hother => h.eq hother
  · have hint : (int n).toValue = .ok (.float (.ofInt n)) :=
      congrArg Except.ok (intValue_of_beyond hn)
    refine ⟨hint, fun json hjson => ?_⟩
    exact Except.ok.inj ((toValue_of_sameData hjson).symm.trans hint)

/-- Of a tag that is no notation and a key that is no text, the one that stands first decides. -/
example : toValue (.mapping [(.text "a", .tagged "rot13" (.text "b")), (.null, .null)]) =
    .error (.unsupportedTag "rot13") := rfl

end Document

end Pipework
