import Mathlib.Data.List.Basic
import Phrasebook.Accessor.Dump
import Phrasebook.Compile
import Phrasebook.Proofs.Json.Print

/-!
Dumps of accessors. An accessor is read back from its JSON, and the JSON from either of its texts, so a dump
tells the accessor.
-/

namespace Phrasebook

/-! ### Reading back -/

theorem ArgType.ofKeyword?_keyword (type : ArgType) : ofKeyword? type.keyword = some type := by
  cases type <;> rfl

theorem Arg.ofDump?_toJson (arg : Arg) : Arg.ofDump? arg.toJson = some arg := by
  rw [Arg.toJson, Arg.ofDump?, ArgType.ofKeyword?_keyword]
  rfl

theorem Part.ofDump?_toJson (part : Part) : Part.ofDump? part.toJson = some part := by
  cases part with
  | literal text => rfl
  | arg name => rfl

/-- Things that are read back one by one are read back as a list. -/
theorem mapM_map_of_left_inv {α β : Type} {read : β → Option α} {write : α → β}
    (h : ∀ a, read (write a) = some a) (as : List α) : (as.map write).mapM read = some as := by
  induction as with
  | nil => rfl
  | cons a as ih => simp [h, ih]

theorem Form.ofDump?_toJson (form : Form) : Form.ofDump? form.toJson = some form := by
  cases form with
  | literal text => rfl
  | parts pieces =>
      rw [Form.toJson, Form.ofDump?, mapM_map_of_left_inv Part.ofDump?_toJson]
      rfl

theorem Constant.ofDump?_toJson (c : Constant) : Constant.ofDump? c.toJson = some c := by
  cases c with
  | string s => rfl
  | number n => rfl
  | bool b => rfl

namespace Counts

variable {α : Type}

/-- An entry with a greater count than all others is put behind them. -/
theorem place_of_forall_lt {keep : Bool} {count : Nat} {value : α} {entries : List (Nat × α)}
    (h : ∀ entry ∈ entries, entry.1 < count) :
    place keep count value entries = entries ++ [(count, value)] := by
  induction entries with
  | nil => rfl
  | cons head rest ih =>
      obtain ⟨n, old⟩ := head
      have hn : n < count := h (n, old) (List.mem_cons_self ..)
      rw [place, if_neg (by omega), if_neg (by omega), ih fun entry hentry =>
        h entry (List.mem_cons_of_mem _ hentry)]
      rfl

end Counts

/-- The entries that are read go behind those read before them. -/
theorem Counts.foldlM_ofDump? {rest : List (Nat × Form)} {counts : Counts Form}
    (h : (counts.entries ++ rest).Pairwise (·.1 < ·.1)) :
    (rest.map fun (count, form) => (String.ofList (Number.decimalDigits count), form.toJson)).foldlM
      (fun counts (key, form) => do
        return Counts.insert counts (← Number.ofDecimal? key.toList) (← Form.ofDump? form)) counts =
      some ⟨counts.entries ++ rest, h⟩ := by
  induction rest generalizing counts with
  | nil => simp
  | cons head rest ih =>
      obtain ⟨count, form⟩ := head
      have hlt : ∀ entry ∈ counts.entries, entry.1 < count := fun entry hentry =>
        (List.pairwise_append.1 h).2.2 entry hentry (count, form) (List.mem_cons_self ..)
      have hinsert : (counts.insert count form).entries = counts.entries ++ [(count, form)] :=
        Counts.place_of_forall_lt hlt
      have hrest : ((counts.insert count form).entries ++ rest).Pairwise (·.1 < ·.1) := by
        rw [hinsert, List.append_assoc]
        exact h
      have hentries : (counts.insert count form).entries ++ rest = counts.entries ++ (count, form) :: rest := by
        rw [hinsert, List.append_assoc]
        rfl
      rw [List.map_cons, List.foldlM_cons]
      dsimp only
      rw [String.toList_ofList, Number.ofDecimal?_decimalDigits, Form.ofDump?_toJson]
      exact (ih hrest).trans (congrArg some (Counts.ext_entries hentries))

theorem Counts.ofDump?_toJson (counts : Counts Form) :
    Counts.ofDump? (counts.entries.map fun (count, form) =>
      (String.ofList (Number.decimalDigits count), form.toJson)) = some counts :=
  @Counts.foldlM_ofDump? _ .empty counts.ascending

namespace Accessor

mutual

/-- An accessor is read back from its dump. -/
theorem ofDump?_toJson : ∀ a : Accessor, ofDump? a.toJson = some a
  | .constant c => by
      rw [toJson, tagged, ofDump?, Constant.ofDump?_toJson]
      rfl
  | .group entries => by
      rw [toJson, tagged, ofDump?, entriesOfDump?_entriesToJson entries]
      rfl
  | .list items => by
      rw [toJson, tagged, ofDump?, itemsOfDump?_itemsToJson items]
      rfl
  | .phrase args parts => by
      rw [toJson, tagged, withArgs, ofDump?, mapM_map_of_left_inv Arg.ofDump?_toJson,
        mapM_map_of_left_inv Part.ofDump?_toJson]
      rfl
  | .plural args counts nth => by
      rw [toJson, tagged, withArgs, Counts.toJson, ofDump?, mapM_map_of_left_inv Arg.ofDump?_toJson,
        Counts.ofDump?_toJson, Form.ofDump?_toJson]
      rfl
  | .choice args whenTrue whenFalse => by
      rw [toJson, tagged, withArgs, ofDump?, mapM_map_of_left_inv Arg.ofDump?_toJson,
        Form.ofDump?_toJson, Form.ofDump?_toJson]
      rfl

theorem itemsOfDump?_itemsToJson : ∀ items : List Accessor, itemsOfDump? (itemsToJson items) = some items
  | [] => rfl
  | item :: rest => by
      rw [itemsToJson, itemsOfDump?, ofDump?_toJson item, itemsOfDump?_itemsToJson rest]
      rfl

theorem entriesOfDump?_entriesToJson : ∀ entries : List (String × Accessor),
    entriesOfDump? (entriesToJson entries) = some entries
  | [] => rfl
  | (key, entry) :: rest => by
      rw [entriesToJson, entriesOfDump?, ofDump?_toJson entry, entriesOfDump?_entriesToJson rest]
      rfl

end

theorem toJson_inj {a b : Accessor} (h : a.toJson = b.toJson) : a = b := by
  have hread := ofDump?_toJson a
  rw [h, ofDump?_toJson] at hread
  exact (Option.some.inj hread).symm

/-! ### Texts of dumps -/

/-- The JSON text of an accessor tells the accessor, node for node: which kind each node is, its keys in their
order, its numbers, its arguments, parts and forms. So accessors of one dump have one script. -/
theorem dump_text_inj (a b : Accessor) :
    (a.toJson.compact = b.toJson.compact → a = b) ∧
    (a.toJson.pretty ++ "\n" = b.toJson.pretty ++ "\n" →
      a = b ∧ ∀ options, a.render options = b.render options) := by
  constructor
  · intro h
    exact toJson_inj (Json.eq_of_compact_eq h)
  · intro h
    have hdump : a.toJson.pretty = b.toJson.pretty := String.append_left_inj _ |>.1 h
    have hsame : a = b := toJson_inj (Json.eq_of_pretty_eq hdump)
    exact ⟨hsame, fun options => by rw [hsame]⟩

/-- Keys that dumps use themselves, a number with a fraction, and a table that is filled in another order. -/
theorem dump_text_inj_keys :
    let forms (counts : Counts Form) : Accessor := .plural [.count] counts (.parts [.arg "count"])
    let a : Accessor := .group [
      ("kind", .constant (.number (.double ⟨false, 6755399441055744, -52, by decide⟩))),
      ("value", forms ((Counts.empty.insert 0 (.literal "no")).insert 1 (.literal "one")))]
    let b : Accessor := .group [
      ("kind", .constant (.number (.double ⟨false, 6755399441055744, -52, by decide⟩))),
      ("value", forms ((Counts.empty.insert 1 (.literal "one")).insert 0 (.literal "no")))]
    a.toJson.compact = b.toJson.compact ∧ a = b ∧ ∀ options, a.render options = b.render options := by
  intro forms a b
  have htext : a.toJson.compact = b.toJson.compact := rfl
  have hdump : a.toJson.pretty ++ "\n" = b.toJson.pretty ++ "\n" := rfl
  obtain ⟨hcompact, hpretty⟩ := dump_text_inj a b
  exact ⟨htext, hcompact htext, (hpretty hdump).2⟩

end Accessor

end Phrasebook
