import Phrasebook.Proofs.Accessor.Entries
import Phrasebook.Proofs.Accessor.Functions
import Phrasebook.Proofs.Json.Nodes

/-!
The scope of the functions that are written for a resource. Each of them comes from one entry, a text or
an object of forms, and refers to nothing but its own parameters; among these there is one for each name
in the texts of the entry, and no other one but the parameter that selects among these texts.
-/

namespace Phrasebook

open Script (Expr)

/-! ### Texts of entries -/

namespace Shape

/-- The texts that an object of forms offers. -/
def texts : Shape → List String
  | .plural counts nth => counts.values ++ [nth]
  | .choice whenTrue whenFalse => [whenTrue, whenFalse]
  | .plain => []

/-- The argument that selects one of these texts. -/
def selector? : Shape → Option Arg
  | .plural .. => some .count
  | .choice .. => some .bool
  | .plain => none

/-- The texts of plural forms are those that some count has. A member that no count has, because
another key of its count goes before it, gives none of them. -/
theorem mem_texts_iff {members : List (String × Json.Value)} {counts : Counts String} {nth : String}
    (hkeys : (members.map (·.1)).Nodup) (h : ofMembers members = .plural counts nth) {s : String} :
    s ∈ (ofMembers members).texts ↔ ∃ c, pluralSource? members c = some (.string s) := by
  have hsource : ∀ c, pluralSource? members c = some (.string s) ↔ (counts.get? c).getD nth = s := by
    intro c
    rw [pluralSource?_of_plural c hkeys h]
    simp
  simp only [hsource, h, texts, List.mem_append, List.mem_singleton]
  constructor
  · rintro (hvalue | rfl)
    · obtain ⟨⟨n, s⟩, hentry, rfl⟩ := List.mem_map.1 hvalue
      exact ⟨n, by rw [Counts.get?_of_mem hentry]; rfl⟩
    · exact ⟨-1, by rw [Counts.get?_neg]; rfl⟩
  · rintro ⟨c, rfl⟩
    cases hget : counts.get? c with
    | none => exact Or.inr rfl
    | some s => exact Or.inl (Counts.mem_values_of_get? hget)

end Shape

namespace Json.Value

/-- The texts of an entry: the entry itself, or those of an object of forms. -/
def texts : Value → List String
  | .string s => [s]
  | .object members => (Shape.ofMembers members).texts
  | _ => []

def selector? : Value → Option Arg
  | .object members => (Shape.ofMembers members).selector?
  | _ => none

theorem selector?_cases {entry : Value} {arg : Arg} (h : arg ∈ entry.selector?) :
    arg = .count ∨ arg = .bool := by
  cases entry with
  | object members =>
      rw [selector?] at h
      cases hshape : Shape.ofMembers members with
      | plural counts nth =>
          rw [hshape] at h
          cases h
          exact Or.inl rfl
      | choice whenTrue whenFalse =>
          rw [hshape] at h
          cases h
          exact Or.inr rfl
      | plain =>
          rw [hshape] at h
          cases h
  | _ => cases h

end Json.Value

/-! ### Functions in scope -/

/-- An arrow function of texts whose placeholders have the given names, one text after the other. It may
have a parameter that selects among the texts; every other parameter stands for a name. -/
structure Scoped (selector : Option Arg) (names : List String) (f : Expr) : Prop where
  distinct : (f.params.map (·.name)).Nodup
  notReserved : ∀ p ∈ f.params, ¬Script.isReserved p.name
  /-- The body refers to parameters alone. -/
  bound : ∀ name ∈ f.idents, name ∈ f.params.map (·.name)
  /-- Each placeholder refers to a parameter, and two of them to the same one exactly when they have one
  name. -/
  refers : ∃ parameter : String → String, f.substitutions = names.map parameter ∧
    (∀ name ∈ names, parameter name ∈ f.params.map (·.name)) ∧
    ∀ name ∈ names, ∀ other ∈ names, parameter name = parameter other ↔ name = other
  /-- No parameter is there for nothing. -/
  used : ∀ p ∈ f.params, (∀ arg ∈ selector, p.name ≠ arg.name) → p.name ∈ f.substitutions

section Functions

variable {selector : Option Arg} {texts : List String} {f : Expr}

theorem mem_names_of_mem_namesOf (selector : Option Arg) {name : String} (h : name ∈ namesOf texts) :
    name ∈ (Arg.ofTexts selector texts).map (·.name) :=
  (mem_names_ofTexts selector texts).2 (Or.inr h)

theorem FunctionOf.names_params (h : FunctionOf selector texts f) : f.params.map (·.name) =
    ((Arg.ofTexts selector texts).map (·.name)).map
      (Identifiers.ofArgs (Arg.ofTexts selector texts)).get := by
  rw [h.params, Identifiers.names_params]

/-- The parameters of a function of texts are the argument that selects, under its own name, and the
identifiers of the names in the texts. -/
theorem FunctionOf.mem_params (h : FunctionOf selector texts f)
    (hselector : ∀ arg ∈ selector, ¬Script.isReserved arg.name) {identifier : String} :
    identifier ∈ f.params.map (·.name) ↔ (∃ arg ∈ selector, identifier = arg.name) ∨
      ∃ name ∈ namesOf texts, (Identifiers.ofArgs (Arg.ofTexts selector texts)).get name = identifier := by
  have hnodup := Arg.nodup_names_ofTexts selector texts
  have hget : ∀ arg ∈ selector,
      (Identifiers.ofArgs (Arg.ofTexts selector texts)).get arg.name = arg.name := by
    intro arg harg
    have hmem := (mem_names_ofTexts selector texts).2 (Or.inl ⟨arg, harg, rfl⟩)
    exact Identifiers.get_of_not_reserved hnodup hmem (hselector arg harg)
  rw [h.names_params, List.mem_map]
  constructor
  · rintro ⟨name, hname, rfl⟩
    rcases (mem_names_ofTexts selector texts).1 hname with ⟨arg, harg, rfl⟩ | hname
    · exact Or.inl ⟨arg, harg, hget arg harg⟩
    · exact Or.inr ⟨name, hname, rfl⟩
  · rintro (⟨arg, harg, rfl⟩ | ⟨name, hname, rfl⟩)
    · exact ⟨arg.name, (mem_names_ofTexts selector texts).2 (Or.inl ⟨arg, harg, rfl⟩), hget arg harg⟩
    · exact ⟨name, (mem_names_ofTexts selector texts).2 (Or.inr hname), rfl⟩

theorem FunctionOf.scoped (h : FunctionOf selector texts f)
    (hselector : ∀ arg ∈ selector, ¬Script.isReserved arg.name) :
    Scoped selector (namesOf texts) f := by
  have hnodup := Arg.nodup_names_ofTexts selector texts
  refine ⟨?distinct, ?notReserved, ?bound, ?refers, ?used⟩
  case distinct =>
    rw [h.params]
    exact Identifiers.nodup_params hnodup
  case notReserved =>
    intro p hp
    rw [h.params] at hp
    obtain ⟨arg, harg, rfl⟩ := List.mem_map.1 hp
    exact Identifiers.not_isReserved_get hnodup (List.mem_map_of_mem harg)
  case bound =>
    intro name hname
    rw [h.mem_params hselector]
    rcases h.idents name hname with hname | hname
    · rw [h.substitutions, List.mem_map] at hname
      exact Or.inr hname
    · exact Or.inl hname
  case refers =>
    refine ⟨_, h.substitutions, fun name hname => ?_, fun name hname other hother => ⟨?_, congrArg _⟩⟩
    · exact (h.mem_params hselector).2 (Or.inr ⟨name, hname, rfl⟩)
    · exact Identifiers.get_inj hnodup (mem_names_of_mem_namesOf selector hname)
        (mem_names_of_mem_namesOf selector hother)
  case used =>
    intro p hp hother
    rcases (h.mem_params hselector).1 (List.mem_map_of_mem hp) with ⟨arg, harg, heq⟩ | hname
    · exact absurd heq (hother arg harg)
    · rw [h.substitutions]
      exact List.mem_map.2 hname

/-! ### Names of parameters -/

theorem FunctionOf.isIdentifier_params (h : FunctionOf selector texts f)
    (hselector : ∀ arg ∈ selector, Text.isName arg.name.toList) :
    ∀ p ∈ f.params, Script.IsIdentifier p.name := by
  rw [h.params]
  exact Identifiers.isIdentifier_params (Arg.wellNamed_ofTexts selector texts hselector)

/-- The parameters of a function can be bound exactly when the names in its texts can. -/
theorem FunctionOf.isBinding_params_iff (h : FunctionOf selector texts f)
    (hselector : ∀ arg ∈ selector, Text.isName arg.name.toList ∧ arg.name ∉ Script.unbindable) :
    (∀ p ∈ f.params, Script.IsBinding p.name) ↔ ∀ name ∈ namesOf texts, name ∉ Script.unbindable := by
  have hargs := Arg.wellNamed_ofTexts selector texts fun arg harg => (hselector arg harg).1
  constructor
  · intro hbinding name hname
    have hmem := mem_names_of_mem_namesOf selector hname
    have hparam := List.mem_map_of_mem (f := (Identifiers.ofArgs (Arg.ofTexts selector texts)).get) hmem
    rw [← h.names_params] at hparam
    obtain ⟨p, hp, heq⟩ := List.mem_map.1 hparam
    rw [← Identifiers.isBinding_get_iff hargs hmem, ← heq]
    exact hbinding p hp
  · intro hbindable p hp
    have hparam := List.mem_map_of_mem (f := (·.name)) hp
    rw [h.names_params] at hparam
    obtain ⟨name, hmem, heq⟩ := List.mem_map.1 hparam
    rw [← heq, Identifiers.isBinding_get_iff hargs hmem]
    rcases (mem_names_ofTexts selector texts).1 hmem with ⟨arg, harg, rfl⟩ | hname
    · exact (hselector arg harg).2
    · exact hbindable name hname

end Functions

namespace Accessor

open Json (Value)

/-! ### Functions of resources -/

theorem exists_functionOf {v : Value} {a : Accessor} (h : ofJson v = .ok a)
    (hfunction : FunctionOf v.selector? v.texts a.toScript) {f : Expr}
    (hf : f ∈ a.toScript.functions) : ∃ path entry b, (path, entry) ∈ v.nodes ∧
      ofJson entry = .ok b ∧ b.toScript = f ∧ FunctionOf entry.selector? entry.texts f := by
  rw [hfunction.functions, List.mem_singleton] at hf
  subst hf
  exact ⟨[], v, a, Value.mem_nodes_self v, h, rfl, hfunction⟩

/-- Every function in the script of a resource is the whole script of one entry, and a function of its
texts. -/
theorem functionOf_of_mem {v : Value} {a : Accessor} (h : ofJson v = .ok a) {f : Expr}
    (hf : f ∈ a.toScript.functions) : ∃ path entry b, (path, entry) ∈ v.nodes ∧
      ofJson entry = .ok b ∧ b.toScript = f ∧ FunctionOf entry.selector? entry.texts f := by
  -- a function in a list or a group is one in an item or a member, and forms hold no function
  induction h using ofJson_induction with
  | bool b => cases hf
  | number n => cases hf
  | string s =>
      by_cases hempty : (Template.parse s.toList).tail.isEmpty
      · rw [ofText, if_pos hempty] at hf
        cases hf
      · have hok : ofJson (.string s) = .ok (ofText s) := rfl
        exact exists_functionOf hok (functionOf_ofText hempty) hf
  | array items accessors _ hitems ih =>
      rw [toScript, itemsToScript_eq, Expr.functions_array, List.flatMap_map] at hf
      obtain ⟨accessor, haccessor, hf⟩ := List.mem_flatMap.1 hf
      obtain ⟨i, item, hitem, hok⟩ := exists_getElem?_of_mem hitems haccessor
      obtain ⟨path, entry, b, hnode, hentry⟩ := ih item (List.mem_of_getElem? hitem) accessor hok hf
      exact ⟨_, entry, b, Value.mem_nodes_array hitem hnode, hentry⟩
  | plural members counts nth h hshape =>
      refine exists_functionOf h ?_ hf
      rw [Value.selector?, Value.texts, hshape]
      exact functionOf_ofPlural counts nth
  | choice members whenTrue whenFalse h hshape =>
      refine exists_functionOf h ?_ hf
      rw [Value.selector?, Value.texts, hshape]
      exact functionOf_ofChoice whenTrue whenFalse
  | plain members entries _ _ hentries ih =>
      rw [toScript, entriesToScript_eq, Expr.functions_object, List.flatMap_map] at hf
      obtain ⟨accessor, haccessor, hf⟩ := List.mem_flatMap.1 hf
      obtain ⟨member, hmember, -, hok⟩ := exists_mem_of_forall₂ hentries haccessor
      obtain ⟨path, entry, b, hnode, hentry⟩ := ih member hmember accessor.2 hok hf
      exact ⟨_, entry, b, Value.mem_nodes_object hmember hnode, hentry⟩

/-- The names of the arguments that select can be bound as they are. -/
theorem names_selector? {entry : Value} : ∀ arg ∈ entry.selector?,
    ¬Script.isReserved arg.name ∧ Text.isName arg.name.toList ∧ arg.name ∉ Script.unbindable := by
  intro arg harg
  rcases Value.selector?_cases harg with rfl | rfl
  · exact ⟨by decide, by decide, by decide⟩
  · exact ⟨by decide, by decide, by decide⟩

/-- Every function in the script of a resource is the script of one entry, with the names of the
placeholders of its texts in scope. -/
theorem scoped_functions {v : Value} {a : Accessor} (h : ofJson v = .ok a) :
    ∀ f ∈ a.toScript.functions, ∃ path entry b, (path, entry) ∈ v.nodes ∧ ofJson entry = .ok b ∧
      b.toScript = f ∧ Scoped entry.selector? (namesOf entry.texts) f := by
  intro f hf
  obtain ⟨path, entry, b, hnode, hok, hscript, hfunction⟩ := functionOf_of_mem h hf
  refine ⟨path, entry, b, hnode, hok, hscript, ?_⟩
  exact hfunction.scoped fun arg harg => (names_selector? arg harg).1

/-- A reserved word may stand next to a name with a low line in front of it, and the text of a count
that has another one gives no parameter. -/
theorem scoped_functions_dropped : ∃ a,
    ofJson (.object [("1", .string "\x7bclass: string\x7d \x7b_class: string\x7d"),
      ("01", .string "\x7bgone: string\x7d"), ("n", .string "\x7bcount: number\x7d")]) = .ok a ∧
    a.toScript ∈ a.toScript.functions ∧ ∃ path entry b,
      (path, entry) ∈ (Value.object [("1", .string "\x7bclass: string\x7d \x7b_class: string\x7d"),
        ("01", .string "\x7bgone: string\x7d"), ("n", .string "\x7bcount: number\x7d")]).nodes ∧
      ofJson entry = .ok b ∧ b.toScript = a.toScript ∧
      Scoped entry.selector? (namesOf entry.texts) a.toScript := by
  obtain ⟨counts, nth, hok⟩ : ∃ counts nth,
      ofJson (.object [("1", .string "\x7bclass: string\x7d \x7b_class: string\x7d"),
        ("01", .string "\x7bgone: string\x7d"), ("n", .string "\x7bcount: number\x7d")]) =
          .ok (ofPlural counts nth) := ⟨_, _, rfl⟩
  have hmem : (ofPlural counts nth).toScript ∈ (ofPlural counts nth).toScript.functions := by
    rw [(functionOf_ofPlural counts nth).functions]
    exact List.mem_singleton_self _
  exact ⟨_, hok, hmem, scoped_functions hok _ hmem⟩

/-- Every parameter in the script of a resource is an identifier. The parameters of a function can be
bound exactly when no placeholder of its entry has one of the names that the code of a module may not
bind. -/
theorem isBinding_params_of_mem {v : Value} {a : Accessor} (h : ofJson v = .ok a) :
    ∀ f ∈ a.toScript.functions, (∀ p ∈ f.params, Script.IsIdentifier p.name) ∧
      ∃ path entry b, (path, entry) ∈ v.nodes ∧ ofJson entry = .ok b ∧ b.toScript = f ∧
        ((∀ p ∈ f.params, Script.IsBinding p.name) ↔
          ∀ name ∈ namesOf entry.texts, name ∉ Script.unbindable) := by
  intro f hf
  obtain ⟨path, entry, b, hnode, hok, hscript, hfunction⟩ := functionOf_of_mem h hf
  refine ⟨?_, path, entry, b, hnode, hok, hscript, ?_⟩
  · exact hfunction.isIdentifier_params fun arg harg => (names_selector? arg harg).2.1
  · exact hfunction.isBinding_params_iff fun arg harg => (names_selector? arg harg).2

/-- One of two forms may name `arguments`. -/
theorem isBinding_params_of_mem_arguments : ∃ a,
    ofJson (.object [("true", .string "\x7barguments: string\x7d"), ("false", .string "no")]) = .ok a ∧
    a.toScript ∈ a.toScript.functions ∧ (∀ p ∈ a.toScript.params, Script.IsIdentifier p.name) ∧
    ∃ path entry b, (path, entry) ∈ (Value.object [("true", .string "\x7barguments: string\x7d"),
        ("false", .string "no")]).nodes ∧ ofJson entry = .ok b ∧ b.toScript = a.toScript ∧
      ((∀ p ∈ a.toScript.params, Script.IsBinding p.name) ↔
        ∀ name ∈ namesOf entry.texts, name ∉ Script.unbindable) := by
  obtain ⟨whenTrue, whenFalse, hok⟩ : ∃ whenTrue whenFalse,
      ofJson (.object [("true", .string "\x7barguments: string\x7d"), ("false", .string "no")]) =
        .ok (ofChoice whenTrue whenFalse) := ⟨_, _, rfl⟩
  have hmem : (ofChoice whenTrue whenFalse).toScript ∈ (ofChoice whenTrue whenFalse).toScript.functions := by
    rw [(functionOf_ofChoice whenTrue whenFalse).functions]
    exact List.mem_singleton_self _
  exact ⟨_, hok, hmem, isBinding_params_of_mem hok _ hmem⟩

/-- A placeholder named `eval` gives a parameter that the code of a module may not bind. -/
theorem not_isBinding_eval : ∃ a, ofJson (.string "\x7beval: string\x7d") = .ok a ∧
    ∃ f ∈ a.toScript.functions, ∃ p ∈ f.params, ¬Script.IsBinding p.name := by
  have hnames : namesOf ["\x7beval: string\x7d"] = ["eval"] := by decide +kernel
  have hempty : (Template.parse "\x7beval: string\x7d".toList).tail.isEmpty = false := by decide +kernel
  have hfunction := functionOf_ofText (Bool.not_eq_true _ ▸ hempty)
  refine ⟨ofText "\x7beval: string\x7d", rfl, (ofText "\x7beval: string\x7d").toScript, ?_, ?_⟩
  · rw [hfunction.functions]
    exact List.mem_singleton_self _
  · by_contra hall
    push Not at hall
    have hbindable := (hfunction.isBinding_params_iff (by simp)).1 hall
    rw [hnames] at hbindable
    exact hbindable "eval" (List.mem_singleton_self _) (by decide)

end Accessor

end Phrasebook
