import Phrasebook.Path
import Phrasebook.Proofs.Keys
import Phrasebook.Proofs.Script.RoundTrip

/-!
What the object literals of a script evaluate to. The definitions of a literal are taken one after the
other: a definition creates the own property of its name, or overwrites it, except that one named
`__proto__` sets the prototype of the object and creates no property. So a literal whose names are
distinct has an own property for each of them but this one.
-/

namespace Phrasebook.Script

/-- What an expression is when nothing is called: a number stands by its text, and a function by its
code. -/
inductive Data where
  | string (value : String)
  | number (text : List Char)
  | bool (value : Bool)
  | function (code : Tree)
  | array (items : List Data)
  | object (prototype : Option Data) (own : List (String × Data))

/-! ### Object literals -/

/-- The name whose definition sets the prototype. -/
def prototypeKey : String := "__proto__"

namespace Data

/-- Whether a value can be the prototype of an object. -/
def isObject : Data → Bool
  | .function _ | .array _ | .object _ _ => true
  | _ => false

/-- Creates an own property, or overwrites the one of this name. -/
def put (own : List (String × Data)) (key : String) (value : Data) : List (String × Data) :=
  if own.any (·.1 == key) then
    own.map fun property => if property.1 == key then (key, value) else property
  else own ++ [(key, value)]

/-- What one definition makes of the prototype and the own properties. A value that can be no prototype
is ignored. -/
def define : Option Data × List (String × Data) → String × Data → Option Data × List (String × Data)
  | (prototype, own), (key, value) =>
    if key = prototypeKey then (if value.isObject then some value else prototype, own)
    else (prototype, put own key value)

/-- The object of a literal, from the values of its definitions. -/
def ofMembers (members : List (String × Data)) : Data :=
  .object (members.foldl define (none, [])).1 (members.foldl define (none, [])).2

theorem put_of_not_mem {own : List (String × Data)} {key : String} (value : Data)
    (h : key ∉ own.map (·.1)) : put own key value = own ++ [(key, value)] := by
  refine if_neg fun hany => h ?_
  obtain ⟨property, hproperty, hkey⟩ := List.any_eq_true.1 hany
  rw [← eq_of_beq hkey]
  exact List.mem_map_of_mem hproperty

/-- Definitions of names that are new, and no two of them the same, add a property each. -/
theorem own_foldl_define (prototype : Option Data) {members own : List (String × Data)}
    (hkeys : (members.map (·.1)).Nodup)
    (hnew : ∀ key ∈ members.map (·.1), key ∉ own.map (·.1)) :
    (members.foldl define (prototype, own)).2 =
      own ++ members.filter fun member => member.1 ≠ prototypeKey := by
  -- on the definitions that are still to come, whatever was created before
  induction members generalizing prototype own with
  | nil => simp
  | cons member members ih =>
      obtain ⟨key, value⟩ := member
      rw [List.map_cons, List.nodup_cons] at hkeys
      have hrest : ∀ other ∈ members.map (·.1), other ∉ own.map (·.1) :=
        fun other hother => hnew other (List.mem_cons_of_mem _ hother)
      rw [List.foldl_cons, define]
      by_cases hprototype : key = prototypeKey
      · rw [if_pos hprototype, ih _ hkeys.2 hrest, List.filter_cons_of_neg (by simpa using hprototype)]
      · have hput := put_of_not_mem value (hnew key (List.mem_cons_self ..))
        rw [if_neg hprototype, hput, ih _ hkeys.2, List.filter_cons_of_pos (by simpa using hprototype),
          List.append_assoc]
        · rfl
        · intro other hother hmem
          rw [List.map_append, List.mem_append] at hmem
          rcases hmem with hmem | hmem
          · exact hrest other hother hmem
          · rw [List.mem_singleton.1 hmem] at hother
            exact hkeys.1 hother

/-- The own properties of a literal with distinct names are its definitions, but for the one that sets
the prototype. -/
theorem exists_ofMembers_eq {members : List (String × Data)} (hkeys : (members.map (·.1)).Nodup) :
    ∃ prototype, ofMembers members =
      .object prototype (members.filter fun member => member.1 ≠ prototypeKey) := by
  refine ⟨(members.foldl define (none, [])).1, ?_⟩
  rw [ofMembers, own_foldl_define none hkeys (by simp), List.nil_append]

end Data

/-! ### Evaluation -/

mutual

/-- The value of an expression in which no identifier is to be looked up. -/
def Tree.data? : Tree → Option Data
  | .string value => some (.string value)
  | .number text => some (.number text)
  | .bool value => some (.bool value)
  | .lambda params body => some (.function (.lambda params body))
  | .procedure params body => some (.function (.procedure params body))
  | .object members => (membersData? members).map .ofMembers
  | .array items => (itemsData? items).map .array
  | _ => none

def membersData? : List (String × Tree) → Option (List (String × Data))
  | [] => some []
  | (key, value) :: rest => do return (key, ← value.data?) :: (← membersData? rest)

def itemsData? : List Tree → Option (List Data)
  | [] => some []
  | item :: rest => do return (← item.data?) :: (← itemsData? rest)

end

theorem itemsData?_of_forall₂ {items : List Tree} {values : List Data}
    (h : List.Forall₂ (fun item value => item.data? = some value) items values) :
    itemsData? items = some values := by
  induction h with
  | nil => rfl
  | cons hhead _ ih =>
      rw [itemsData?, hhead, ih]
      rfl

theorem membersData?_of_forall₂ {members : List (String × Tree)} {values : List (String × Data)}
    (h : List.Forall₂ (fun member value => member.1 = value.1 ∧ member.2.data? = some value.2)
      members values) : membersData? members = some values := by
  induction h with
  | nil => rfl
  | @cons member value members values hhead _ ih =>
      obtain ⟨key, tree⟩ := member
      obtain ⟨hkey, hvalue⟩ := hhead
      rw [membersData?, hvalue, ih, show key = value.1 from hkey]
      rfl

/-! ### Paths -/

namespace Tree

/-- The expression that one step leads to. -/
def step? : Tree → Step → Option Tree
  | .object members, .key name => Json.lookup members name
  | .array items, .index place => items[place]?
  | _, _ => none

/-- The expression that a path leads to. -/
def at? (tree : Tree) (path : Path) : Option Tree := path.foldlM step? tree

@[simp]
theorem at?_nil (tree : Tree) : tree.at? [] = some tree := rfl

@[simp]
theorem at?_cons (tree : Tree) (step : Step) (path : Path) :
    tree.at? (step :: path) = (tree.step? step).bind (·.at? path) := rfl

end Tree

end Phrasebook.Script
