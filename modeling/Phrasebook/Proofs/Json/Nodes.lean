import Phrasebook.Path
import Phrasebook.Proofs.Json.Decode
import Phrasebook.Proofs.Keys

/-!
The values in a value. Every one of them stands at a path, the steps that lead to it from the whole:
`nodes` lists them in the order of the resource, a list or an object before what is in it, and `at?`
follows a path. When no object has two members of one key, a path leads to the value that is listed
with it.
-/

namespace Phrasebook.Json

namespace Value

/-- A property that goes from the items of a list to the list, and from the values of an object to the
object, is one of all values. -/
@[elab_as_elim]
theorem inductOn {P : Value → Prop} (v : Value) (null : P .null) (bool : ∀ b, P (.bool b))
    (number : ∀ n, P (.number n)) (string : ∀ s, P (.string s))
    (array : ∀ items, (∀ item ∈ items, P item) → P (.array items))
    (object : ∀ members, (∀ member ∈ members, P member.2) → P (.object members)) : P v := by
  cases v with
  | null => exact null
  | bool b => exact bool b
  | number n => exact number n
  | string s => exact string s
  | array items =>
      exact array items fun item _ => inductOn item null bool number string array object
  | object members =>
      exact object members fun member _ => inductOn member.2 null bool number string array object
termination_by sizeOf v
decreasing_by
  · rename_i h
    have hsize := List.sizeOf_lt_of_mem h
    simp only [Value.array.sizeOf_spec]
    omega
  · rename_i h
    have hsize := List.sizeOf_lt_of_mem h
    obtain ⟨key, value⟩ := member
    simp only [Prod.mk.sizeOf_spec, Value.object.sizeOf_spec] at hsize ⊢
    omega

end Value

/-! ### Nodes -/

mutual

/-- The value and all values in it, each with its path. -/
def Value.nodes : Value → List (Path × Value)
  | .array items => ([], .array items) :: itemNodes 0 items
  | .object members => ([], .object members) :: memberNodes members
  | v => [([], v)]

/-- The nodes of the items of a list, from the given place on. -/
def itemNodes (place : Nat) : List Value → List (Path × Value)
  | [] => []
  | item :: rest =>
    (item.nodes.map fun (path, v) => (.index place :: path, v)) ++ itemNodes (place + 1) rest

/-- The nodes of the members of an object. -/
def memberNodes : List (String × Value) → List (Path × Value)
  | [] => []
  | (key, value) :: rest =>
    (value.nodes.map fun (path, v) => (.key key :: path, v)) ++ memberNodes rest

end

theorem mem_itemNodes {path : Path} {w : Value} {items : List Value} {place : Nat} :
    (path, w) ∈ itemNodes place items ↔ ∃ i item rest, items[i]? = some item ∧
      path = .index (place + i) :: rest ∧ (rest, w) ∈ item.nodes := by
  induction items generalizing place with
  | nil => simp [itemNodes]
  | cons first items ih =>
      rw [itemNodes, List.mem_append, ih]
      constructor
      · rintro (hfirst | ⟨i, item, rest, hitem, hpath, hmem⟩)
        · obtain ⟨⟨rest, v⟩, hmem, heq⟩ := List.mem_map.1 hfirst
          cases heq
          exact ⟨0, first, rest, rfl, rfl, hmem⟩
        · refine ⟨i + 1, item, rest, hitem, ?_, hmem⟩
          rw [hpath, Nat.add_assoc, Nat.add_comm 1]
      · rintro ⟨i, item, rest, hitem, rfl, hmem⟩
        cases i with
        | zero =>
            cases hitem
            exact Or.inl (List.mem_map_of_mem hmem)
        | succ i =>
            refine Or.inr ⟨i, item, rest, hitem, ?_, hmem⟩
            rw [Nat.add_assoc, Nat.add_comm 1]

theorem mem_memberNodes {path : Path} {w : Value} {members : List (String × Value)} :
    (path, w) ∈ memberNodes members ↔ ∃ member ∈ members, ∃ rest,
      path = .key member.1 :: rest ∧ (rest, w) ∈ member.2.nodes := by
  induction members with
  | nil => simp [memberNodes]
  | cons first members ih =>
      obtain ⟨key, value⟩ := first
      rw [memberNodes, List.mem_append, ih]
      constructor
      · rintro (hfirst | ⟨member, hmember, rest, hpath, hmem⟩)
        · obtain ⟨⟨rest, v⟩, hmem, heq⟩ := List.mem_map.1 hfirst
          cases heq
          exact ⟨(key, value), List.mem_cons_self .., rest, rfl, hmem⟩
        · exact ⟨member, List.mem_cons_of_mem _ hmember, rest, hpath, hmem⟩
      · rintro ⟨member, hmember, rest, rfl, hmem⟩
        rcases List.mem_cons.1 hmember with rfl | hmember
        · exact Or.inl (List.mem_map_of_mem hmem)
        · exact Or.inr ⟨member, hmember, rest, rfl, hmem⟩

namespace Value

theorem mem_nodes_self (v : Value) : ([], v) ∈ v.nodes := by
  cases v with
  | array items => exact List.mem_cons_self ..
  | object members => exact List.mem_cons_self ..
  | _ => exact List.mem_singleton_self _

@[simp]
theorem nodes_string (s : String) : (string s).nodes = [([], string s)] := rfl

theorem mem_nodes_array {items : List Value} {item w : Value} {i : Nat} {path : Path}
    (hitem : items[i]? = some item) (h : (path, w) ∈ item.nodes) :
    (.index i :: path, w) ∈ (array items).nodes := by
  refine List.mem_cons_of_mem _ (mem_itemNodes.2 ⟨i, item, path, hitem, ?_, h⟩)
  rw [Nat.zero_add]

theorem mem_nodes_object {members : List (String × Value)} {member : String × Value} {w : Value}
    {path : Path} (hmember : member ∈ members) (h : (path, w) ∈ member.2.nodes) :
    (.key member.1 :: path, w) ∈ (object members).nodes :=
  List.mem_cons_of_mem _ (mem_memberNodes.2 ⟨member, hmember, path, rfl, h⟩)

/-! ### Paths -/

/-- The value that one step leads to. -/
def step? : Value → Step → Option Value
  | .object members, .key name => lookup members name
  | .array items, .index place => items[place]?
  | _, _ => none

/-- The value that a path leads to. -/
def at? (v : Value) (path : Path) : Option Value := path.foldlM step? v

@[simp]
theorem at?_nil (v : Value) : v.at? [] = some v := rfl

@[simp]
theorem at?_cons (v : Value) (step : Step) (path : Path) :
    v.at? (step :: path) = (v.step? step).bind (·.at? path) := rfl

/-- No step leads further from a text. -/
theorem eq_of_at?_string {s : String} {path : Path} {w : Value} (h : (string s).at? path = some w) :
    w = string s := by
  cases path with
  | nil => exact (Option.some.inj h).symm
  | cons step path => cases h

/-- The path of a node leads to its value. -/
theorem at?_of_mem_nodes {v w : Value} (hkeys : v.DistinctKeys) {path : Path}
    (h : (path, w) ∈ v.nodes) : v.at? path = some w := by
  induction v using inductOn generalizing path with
  | array items ih =>
      cases hkeys with
      | array hitems =>
          rcases List.mem_cons.1 h with heq | h
          · cases heq
            rfl
          · obtain ⟨i, item, rest, hitem, rfl, hmem⟩ := mem_itemNodes.1 h
            have hin := List.mem_of_getElem? hitem
            rw [Nat.zero_add, at?_cons, step?, hitem, Option.bind_some]
            exact ih item hin (hitems item hin) hmem
  | object members ih =>
      cases hkeys with
      | object hnodup hmembers =>
          rcases List.mem_cons.1 h with heq | h
          · cases heq
            rfl
          · obtain ⟨member, hmember, rest, rfl, hmem⟩ := mem_memberNodes.1 h
            rw [at?_cons, step?, lookup_of_mem hnodup hmember, Option.bind_some]
            exact ih member hmember (hmembers member hmember) hmem
  | _ =>
      cases List.mem_singleton.1 h
      rfl

theorem DistinctKeys.of_mem_nodes {v w : Value} (hkeys : v.DistinctKeys) {path : Path}
    (h : (path, w) ∈ v.nodes) : w.DistinctKeys := by
  induction v using inductOn generalizing path with
  | array items ih =>
      rcases List.mem_cons.1 h with heq | h
      · cases heq
        exact hkeys
      · cases hkeys with
        | array hitems =>
            obtain ⟨i, item, rest, hitem, -, hmem⟩ := mem_itemNodes.1 h
            have hin := List.mem_of_getElem? hitem
            exact ih item hin (hitems item hin) hmem
  | object members ih =>
      rcases List.mem_cons.1 h with heq | h
      · cases heq
        exact hkeys
      · cases hkeys with
        | object _ hmembers =>
            obtain ⟨member, hmember, rest, -, hmem⟩ := mem_memberNodes.1 h
            exact ih member hmember (hmembers member hmember) hmem
  | _ =>
      cases List.mem_singleton.1 h
      exact hkeys

end Value

end Phrasebook.Json
