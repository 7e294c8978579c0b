import Phrasebook.Proofs.Accessor.Readable
import Phrasebook.Proofs.Accessor.Selection
import Phrasebook.Proofs.Script.Objects

/-!
What is left of a resource when its script is evaluated. Every plain object of the resource is written as
an object literal, in its place; the object to which the literal evaluates has an own property for each
member, in which stands what was written for the value of the member. Only a member named `__proto__` is
lost, for a definition of this name creates no property.
-/

namespace Phrasebook

open Script (Tree Data)

/-! ### Trees of accessors -/

namespace Accessor

/-- The syntax tree of what is written for an accessor. -/
def tree (a : Accessor) : Tree := a.toScript.tree

theorem tree_list (accessors : List Accessor) :
    (Accessor.list accessors).tree = .array (accessors.map tree) := by
  rw [tree, toScript, Script.Expr.tree, Script.itemTrees_eq, itemsToScript_eq, List.map_map]
  rfl

theorem tree_group (entries : List (String × Accessor)) :
    (Accessor.group entries).tree = .object (entries.map fun entry => (entry.1, entry.2.tree)) := by
  rw [tree, toScript, Script.Expr.tree, Script.memberTrees_eq, entriesToScript_eq, List.map_map]
  rfl

/-! ### Places -/

/-- What a step leads to in a resource is written where the step leads to in the script; only texts may
be forms of what they stand in. -/
theorem step?_tree {v w : Json.Value} {a : Accessor} {step : Step} (h : ofJson v = .ok a)
    (hstep : v.step? step = some w) (hw : ∀ s, w ≠ .string s) :
    ∃ b, ofJson w = .ok b ∧ a.tree.step? step = some b.tree := by
  cases v with
  | array items =>
      cases step with
      | key name => cases hstep
      | index place =>
          obtain ⟨accessors, rfl, hitems⟩ := ofJson_array h
          have hrel := rel_getElem? hitems place
          rw [show items[place]? = some w from hstep] at hrel
          obtain ⟨b, hget, hb⟩ := exists_of_rel_some hrel
          refine ⟨b, hb, ?_⟩
          rw [tree_list, Tree.step?, List.getElem?_map, hget]
          rfl
  | object members =>
      cases step with
      | index place => cases hstep
      | key name =>
          have hplain : Shape.ofMembers members = .plain := by
            by_contra hforms
            obtain ⟨s, hs⟩ := Shape.string_of_ne_plain hforms _ (Json.mem_of_lookup hstep)
            exact hw s hs
          obtain ⟨entries, rfl, hentries⟩ := ofJson_plain hplain h
          have hrel := rel_lookup (R := fun value b => ofJson value = .ok b) hentries name
          rw [show Json.lookup members name = some w from hstep] at hrel
          obtain ⟨b, hlookup, hb⟩ := exists_of_rel_some hrel
          refine ⟨b, hb, ?_⟩
          rw [tree_group, Tree.step?, Json.lookup_map, hlookup]
          rfl
  | _ => cases hstep

theorem at?_tree {v w : Json.Value} {a : Accessor} {path : Path} (h : ofJson v = .ok a)
    (hat : v.at? path = some w) (hw : ∀ s, w ≠ .string s) :
    ∃ b, ofJson w = .ok b ∧ a.tree.at? path = some b.tree := by
  induction path generalizing v a with
  | nil =>
      cases hat
      exact ⟨a, h, rfl⟩
  | cons step path ih =>
      rw [Json.Value.at?_cons] at hat
      obtain ⟨u, hstep, hrest⟩ := Option.bind_eq_some_iff.1 hat
      -- no step leads further from a text, so there is none on the way
      have hu : ∀ s, u ≠ .string s := by
        rintro s rfl
        exact hw s (Json.Value.eq_of_at?_string hrest)
      obtain ⟨b, hb, htree⟩ := step?_tree h hstep hu
      obtain ⟨c, hc, hpath⟩ := ih hb hrest
      refine ⟨c, hc, ?_⟩
      rw [Tree.at?_cons, htree]
      exact hpath

/-! ### Values -/

/-- What was written for a value, evaluated. -/
def data? (v : Json.Value) : Option Data := (ofJson v).toOption.bind (·.tree.data?)

theorem data?_of_ok {v : Json.Value} {a : Accessor} (h : ofJson v = .ok a) : data? v = a.tree.data? := by
  rw [data?, h]
  rfl

/-- A member of a plain object and the definition of a property: the name is the key of the member, and
the value was written for the value of the member. -/
def Defines (member : String × Json.Value) (property : String × Data) : Prop :=
  member.1 = property.1 ∧ data? member.2 = some property.2

theorem keys_eq_of_defines {members : List (String × Json.Value)} {properties : List (String × Data)}
    (h : List.Forall₂ Defines members properties) : members.map (·.1) = properties.map (·.1) := by
  induction h with
  | nil => rfl
  | cons hhead _ ih => rw [List.map_cons, List.map_cons, hhead.1, ih]

/-- The definitions of the literal of a plain object, if the values of its members can be evaluated. -/
theorem exists_properties {members : List (String × Json.Value)} {a : Accessor}
    (hplain : Shape.ofMembers members = .plain) (h : ofJson (.object members) = .ok a)
    (hvalues : ∀ member ∈ members, ∀ b, ofJson member.2 = .ok b → ∃ d, b.tree.data? = some d) :
    ∃ properties, List.Forall₂ Defines members properties ∧
      a.tree.data? = some (.ofMembers properties) := by
  obtain ⟨entries, rfl, hentries⟩ := ofJson_plain hplain h
  have hnext : ∀ member ∈ members, ∀ entry : String × Accessor,
      member.1 = entry.1 ∧ ofJson member.2 = .ok entry.2 →
        ∃ property : String × Data, entry.1 = property.1 ∧ entry.2.tree.data? = some property.2 := by
    rintro member hmember entry ⟨-, hok⟩
    obtain ⟨d, hd⟩ := hvalues member hmember entry.2 hok
    exact ⟨(entry.1, d), rfl, hd⟩
  obtain ⟨properties, hmembers, hproperties⟩ := exists_forall₂ hentries hnext
  refine ⟨properties, hmembers.imp ?_, ?_⟩
  · rintro member property ⟨entry, ⟨hkey, hok⟩, hname, hdata⟩
    exact ⟨hkey.trans hname, (data?_of_ok hok).trans hdata⟩
  · rw [tree_group, Tree.data?, Script.membersData?_of_forall₂]
    · rfl
    · rw [List.forall₂_map_left_iff]
      exact hproperties

/-- Everything that is written for a resource can be evaluated. -/
theorem exists_data? {v : Json.Value} {a : Accessor} (h : ofJson v = .ok a) :
    ∃ d, a.tree.data? = some d := by
  induction h using ofJson_induction with
  | bool b => exact ⟨_, rfl⟩
  | number n => exact ⟨_, rfl⟩
  | string s =>
      by_cases hempty : (Template.parse s.toList).tail.isEmpty
      · rw [ofText, if_pos hempty]
        exact ⟨_, rfl⟩
      · rw [ofText, if_neg hempty]
        exact ⟨_, rfl⟩
  | array items accessors _ hitems ih =>
      obtain ⟨values, -, hvalues⟩ := exists_forall₂ (S := fun b d => b.tree.data? = some d) hitems ih
      refine ⟨.array values, ?_⟩
      rw [tree_list, Tree.data?, Script.itemsData?_of_forall₂]
      · rfl
      · rw [List.forall₂_map_left_iff]
        exact hvalues
  | plural members counts nth =>
      rw [tree, toScript_ofPlural]
      exact ⟨_, rfl⟩
  | choice members whenTrue whenFalse =>
      rw [tree, toScript_ofChoice]
      exact ⟨_, rfl⟩
  | plain members entries h hplain _ ih =>
      obtain ⟨properties, -, hdata⟩ := exists_properties hplain h ih
      exact ⟨_, hdata⟩

/-! ### Own properties -/

/-- Where a plain object stands in a resource, its literal stands in the text that is written. It
evaluates to an object with an own property for each member, in which stands what was written for the
value of the member; a member named `__proto__` has none, and it is the only one that can be lost. -/
theorem own_properties {v : Json.Value} {a : Accessor} (hkeys : v.DistinctKeys) (h : ofJson v = .ok a)
    {path : Path} {members : List (String × Json.Value)} (hnode : (path, .object members) ∈ v.nodes)
    (hplain : Shape.ofMembers members = .plain) : ∃ tree literal prototype own,
      (∀ level, Script.read (a.toScript.text level) = some tree) ∧ tree.at? path = some literal ∧
      literal.data? = some (.object prototype own) ∧
      List.Forall₂ Defines (members.filter fun member => member.1 ≠ Script.prototypeKey) own ∧
      ((∀ key, key ∈ own.map (·.1) ↔ key ∈ members.map (·.1)) ↔
        Script.prototypeKey ∉ members.map (·.1)) := by
  obtain ⟨b, hb, hat⟩ := at?_tree h (Json.Value.at?_of_mem_nodes hkeys hnode) (by simp)
  obtain ⟨properties, hproperties, hdata⟩ := exists_properties hplain hb fun _ _ _ => exists_data?
  have hnames := keys_eq_of_defines hproperties
  have hnodup : (properties.map (·.1)).Nodup := by
    rw [← hnames]
    cases hkeys.of_mem_nodes hnode with
    | object hmembers _ => exact hmembers
  obtain ⟨prototype, hown⟩ := Data.exists_ofMembers_eq hnodup
  have hdefines : List.Forall₂ Defines (members.filter fun member => member.1 ≠ Script.prototypeKey)
      (properties.filter fun property => property.1 ≠ Script.prototypeKey) := by
    refine List.rel_filter (fun {member property} hdefines => ?_) hproperties
    have hkey : member.1 = property.1 := hdefines.1
    simp [hkey]
  refine ⟨a.tree, b.tree, prototype, _, Script.read_text (readable_ofJson v a h), hat,
    hdata.trans (congrArg some hown), hdefines, ?_⟩
  rw [← keys_eq_of_defines hdefines]
  exact Json.forall_mem_keys_filter_iff

/-- The member named `__proto__` of a nested object is lost, and the members around it are not. -/
theorem own_properties_nested : ∃ a tree literal prototype own,
    ofJson (.array [.object [("__proto__", .object []), ("b c", .string "x")]]) = .ok a ∧
    (∀ level, Script.read (a.toScript.text level) = some tree) ∧
    tree.at? [.index 0] = some literal ∧ literal.data? = some (.object prototype own) ∧
    List.Forall₂ Defines [("b c", .string "x")] own := by
  have hkeys : Json.Value.DistinctKeys
      (.array [.object [("__proto__", .object []), ("b c", .string "x")]]) := by
    refine .array fun item hitem => ?_
    rw [List.mem_singleton.1 hitem]
    refine .object (by decide) fun member hmember => ?_
    rcases List.mem_pair.1 hmember with rfl | rfl
    · exact .object List.nodup_nil fun other hother => by cases hother
    · exact .string "x"
  have hnode : ([.index 0], .object [("__proto__", .object []), ("b c", .string "x")]) ∈
      (Json.Value.array [.object [("__proto__", .object []), ("b c", .string "x")]]).nodes :=
    Json.Value.mem_nodes_array rfl (Json.Value.mem_nodes_self _)
  obtain ⟨a, hok⟩ : ∃ a, ofJson (.array [.object [("__proto__", .object []), ("b c", .string "x")]]) =
      .ok a := ⟨_, rfl⟩
  obtain ⟨tree, literal, prototype, own, hread, hat, hdata, hown, -⟩ :=
    own_properties hkeys hok hnode rfl
  exact ⟨a, tree, literal, prototype, own, hok, hread, hat, hdata, hown⟩

/-- The definition of `__proto__` creates no property, though the object is a plain one with this
key. -/
theorem not_mem_own_proto : ∃ a tree own,
    Shape.ofMembers [("__proto__", .string "x")] = .plain ∧
    ofJson (.object [("__proto__", .string "x")]) = .ok a ∧
    (∀ level, Script.read (a.toScript.text level) = some tree) ∧
    tree.data? = some (.object none own) ∧ "__proto__" ∉ own.map (·.1) := by
  have hempty : (Template.parse "x".toList).tail.isEmpty := by decide +kernel
  have htext : ofText "x" = .constant (.string "x") := if_pos hempty
  have hok : ofJson (.object [("__proto__", .string "x")]) =
      .ok (.group [("__proto__", .constant (.string "x"))]) := by
    rw [← htext]
    rfl
  exact ⟨_, tree _, [], rfl, hok, Script.read_text (readable_ofJson _ _ hok), rfl, by simp⟩

end Accessor

end Phrasebook
