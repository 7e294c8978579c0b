import Phrasebook.Accessor.OfJson
import Phrasebook.Compile
import Phrasebook.Proofs.Json.Nodes
import Phrasebook.Proofs.Shape

/-!
The one value without an accessor. A resource that holds a null anywhere has no accessor, and the error
names the first null in the order of the resource. Objects of forms are taken whole, but they hold
texts alone, so no null is passed by in them.
-/

namespace Phrasebook

/-- The path of the error, if there is one. -/
def Unsupported.path? {α : Type} : Except Unsupported α → Option Path
  | .error e => some e.path
  | .ok _ => none

namespace Json

def Value.isNull : Value → Bool
  | .null => true
  | _ => false

/-- The path of the first null among nodes. -/
def firstNull? (nodes : List (Path × Value)) : Option Path :=
  (nodes.find? (·.2.isNull)).map (·.1)

theorem isNull_iff {v : Value} : v.isNull ↔ v = .null := by
  cases v <;> simp [Value.isNull]

theorem firstNull?_append (before after : List (Path × Value)) :
    firstNull? (before ++ after) = (firstNull? before).or (firstNull? after) := by
  rw [firstNull?, List.find?_append, Option.map_or]
  rfl

theorem firstNull?_under (step : Step) (nodes : List (Path × Value)) :
    firstNull? (nodes.map fun (path, v) => (step :: path, v)) =
      (firstNull? nodes).map (step :: ·) := by
  rw [firstNull?, firstNull?, List.find?_map, Option.map_map, Option.map_map]
  rfl

/-- The first null splits the nodes into those before it, none of them null, and those after it. -/
theorem firstNull?_eq_some {nodes : List (Path × Value)} {path : Path}
    (h : firstNull? nodes = some path) :
    ∃ before after, nodes = before ++ (path, .null) :: after ∧ ∀ node ∈ before, node.2 ≠ .null := by
  obtain ⟨⟨found, v⟩, hfind, rfl⟩ := Option.map_eq_some_iff.1 h
  obtain ⟨hnull, before, after, rfl, hbefore⟩ := List.find?_eq_some_iff_append.1 hfind
  have hv : v = .null := isNull_iff.1 hnull
  subst hv
  refine ⟨before, after, rfl, ?_⟩
  intro node hnode hnull'
  have hnot := hbefore node hnode
  rw [isNull_iff.2 hnull'] at hnot
  cases hnot

theorem firstNull?_eq_none {nodes : List (Path × Value)} :
    firstNull? nodes = none ↔ ∀ path, (path, .null) ∉ nodes := by
  rw [firstNull?, Option.map_eq_none_iff, List.find?_eq_none]
  constructor
  · intro h path hmem
    exact h _ hmem rfl
  · rintro h ⟨path, v⟩ hmem hnull
    have hv : v = .null := isNull_iff.1 hnull
    subst hv
    exact h path hmem

/-- No null hides among texts. -/
theorem firstNull?_memberNodes_of_string {members : List (String × Value)}
    (h : ∀ member ∈ members, ∃ text, member.2 = .string text) :
    firstNull? (memberNodes members) = none := by
  rw [firstNull?_eq_none]
  intro path hmem
  obtain ⟨member, hmember, rest, -, hnode⟩ := mem_memberNodes.1 hmem
  obtain ⟨text, htext⟩ := h member hmember
  rw [htext, Value.nodes_string, List.mem_singleton] at hnode
  cases hnode

end Json

namespace Accessor

open Json (Value firstNull? itemNodes memberNodes)
open Unsupported (path?)

/-! ### One value more -/

/-- The error of a list is that of its first item, or else that of the others. -/
theorem path?_ofItems_cons (place : Nat) (item : Value) (rest : List Value) :
    path? (ofItems place (item :: rest)) =
      ((path? (ofJson item)).map (.index place :: ·)).or (path? (ofItems (place + 1) rest)) := by
  rw [ofItems]
  cases ofJson item with
  | error e => rfl
  | ok head =>
      cases ofItems (place + 1) rest with
      | error e => rfl
      | ok tail => rfl

theorem path?_ofEntries_cons (key : String) (value : Value) (rest : List (String × Value)) :
    path? (ofEntries ((key, value) :: rest)) =
      ((path? (ofJson value)).map (.key key :: ·)).or (path? (ofEntries rest)) := by
  rw [ofEntries]
  cases ofJson value with
  | error e => rfl
  | ok head =>
      cases ofEntries rest with
      | error e => rfl
      | ok tail => rfl

theorem path?_map {α β : Type} (f : α → β) (result : Except Unsupported α) :
    path? (result.map f) = path? result := by
  cases result with
  | error e => rfl
  | ok a => rfl

/-! ### Resources -/

theorem path?_ofItems {items : List Value} (h : ∀ item ∈ items, path? (ofJson item) = firstNull? item.nodes)
    (place : Nat) : path? (ofItems place items) = firstNull? (itemNodes place items) := by
  induction items generalizing place with
  | nil => rfl
  | cons item items ih =>
      rw [path?_ofItems_cons, itemNodes, Json.firstNull?_append, Json.firstNull?_under,
        h item (List.mem_cons_self ..), ih fun other hother => h other (List.mem_cons_of_mem _ hother)]

theorem path?_ofEntries {members : List (String × Value)}
    (h : ∀ member ∈ members, path? (ofJson member.2) = firstNull? member.2.nodes) :
    path? (ofEntries members) = firstNull? (memberNodes members) := by
  induction members with
  | nil => rfl
  | cons member members ih =>
      obtain ⟨key, value⟩ := member
      rw [path?_ofEntries_cons, memberNodes, Json.firstNull?_append, Json.firstNull?_under,
        h (key, value) (List.mem_cons_self ..),
        ih fun other hother => h other (List.mem_cons_of_mem _ hother)]

/-- The error of a resource is at its first null, and there is none when there is no null. -/
theorem path?_ofJson (v : Value) : path? (ofJson v) = firstNull? v.nodes := by
  induction v using Value.inductOn with
  | array items ih =>
      rw [ofJson, path?_map, path?_ofItems ih]
      rfl
  | object members ih =>
      have hnodes : firstNull? (Value.object members).nodes = firstNull? (memberNodes members) := rfl
      rw [ofJson, hnodes]
      cases hshape : Shape.ofMembers members with
      | plain =>
          dsimp only
          rw [path?_map, path?_ofEntries ih]
      | plural counts nth =>
          have hne : Shape.ofMembers members ≠ .plain := by simp [hshape]
          rw [Json.firstNull?_memberNodes_of_string (Shape.string_of_ne_plain hne)]
          rfl
      | choice whenTrue whenFalse =>
          have hne : Shape.ofMembers members ≠ .plain := by simp [hshape]
          rw [Json.firstNull?_memberNodes_of_string (Shape.string_of_ne_plain hne)]
          rfl
  | _ => rfl

theorem firstNull?_of_error {v : Value} {e : Unsupported} (h : ofJson v = .error e) :
    firstNull? v.nodes = some e.path := by
  rw [← path?_ofJson, h]
  rfl

theorem firstNull?_of_ok {v : Value} {a : Accessor} (h : ofJson v = .ok a) :
    firstNull? v.nodes = none := by
  rw [← path?_ofJson, h]
  rfl

/-- A resource is refused exactly when a null stands somewhere in it, at whatever depth. The error names
the first null in the order of the resource, and the path that it gives leads there. -/
theorem error_iff_null {v : Value} (hkeys : v.DistinctKeys) :
    ((∃ e, ofJson v = .error e) ↔ ∃ path, (path, .null) ∈ v.nodes) ∧
      ∀ e, ofJson v = .error e →
        (∃ before after, v.nodes = before ++ (e.path, .null) :: after ∧
          ∀ node ∈ before, node.2 ≠ .null) ∧
        v.at? e.path = some .null ∧
        (ResourceError.unsupported e).message =
          "unsupported null value at " ++ String.ofList e.path.text := by
  have hfirst : ∀ e, ofJson v = .error e → ∃ before after,
      v.nodes = before ++ (e.path, .null) :: after ∧ ∀ node ∈ before, node.2 ≠ .null :=
    fun e he => Json.firstNull?_eq_some (firstNull?_of_error he)
  have hmem : ∀ e, ofJson v = .error e → (e.path, .null) ∈ v.nodes := by
    intro e he
    obtain ⟨before, after, hnodes, -⟩ := hfirst e he
    rw [hnodes]
    exact List.mem_append_right _ (List.mem_cons_self ..)
  refine ⟨⟨?_, ?_⟩, fun e he => ⟨hfirst e he, Value.at?_of_mem_nodes hkeys (hmem e he), rfl⟩⟩
  · rintro ⟨e, he⟩
    exact ⟨e.path, hmem e he⟩
  · rintro ⟨path, hnull⟩
    cases hv : ofJson v with
    | error e => exact ⟨e, rfl⟩
    | ok a => exact absurd hnull (Json.firstNull?_eq_none.1 (firstNull?_of_ok hv) path)

/-- A null keeps an object from being one of forms, and the first of two nulls is named. -/
theorem error_iff_null_forms : ∃ e,
    ofJson (.object [("n", .string "x"), ("a b", .object [("false", .string "y"), ("true", .null)]),
      ("c", .null)]) = .error e ∧
    Value.at? (.object [("n", .string "x"),
      ("a b", .object [("false", .string "y"), ("true", .null)]), ("c", .null)]) e.path =
        some .null ∧
    (ResourceError.unsupported e).message = "unsupported null value at $[\"a b\"].true" := by
  have hkeys : Value.DistinctKeys (.object [("n", .string "x"),
      ("a b", .object [("false", .string "y"), ("true", .null)]), ("c", .null)]) := by
    refine .object (by decide) fun member hmember => ?_
    simp only [List.mem_cons, List.not_mem_nil, or_false] at hmember
    rcases hmember with rfl | rfl | rfl
    · exact .string "x"
    · refine .object (by decide) fun form hform => ?_
      rcases List.mem_pair.1 hform with rfl | rfl
      · exact .string "y"
      · exact .null
    · exact .null
  obtain ⟨-, hat, hmessage⟩ := (error_iff_null hkeys).2 ⟨[.key "a b", .key "true"]⟩ rfl
  exact ⟨_, rfl, hat, hmessage⟩

end Accessor

end Phrasebook
