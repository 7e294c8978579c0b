import Phrasebook.Proofs.Accessor.Scope
import Phrasebook.Proofs.NamedCounts

/-!
The arguments of all functions of a resource. Wherever a function stands in it, its arguments are the one
that selects among its texts and those that the placeholders of the texts declare, in the order of the
texts, each where its name comes first. So the argument that selects is the first one, and the type of an
argument is the one that its first placeholder declares.
-/

namespace Phrasebook

open Json (Value)

/-! ### Declared arguments -/

/-- The type whose keyword a token is. A token that is none stands for strings. -/
def ArgType.named (token : String) : ArgType :=
  ([.string, .number, .object, .boolean].find? (·.keyword == token)).getD .string

theorem ArgType.ofKeyword?_eq_some_iff {token : String} {type : ArgType} :
    ofKeyword? token = some type ↔ type.keyword = token := by
  constructor
  · intro h
    unfold ofKeyword? at h
    split at h
    case h_5 => cases h
    all_goals
      cases h
      rfl
  · rintro rfl
    cases type with
    | _ => rfl

theorem ArgType.ofToken_eq_named (token : String) : ofToken token = named token := by
  have hfind : [ArgType.string, .number, .object, .boolean].find? (·.keyword == token) =
      ofKeyword? token := by
    cases htype : ofKeyword? token with
    | some type =>
        rw [← ofKeyword?_eq_some_iff.1 htype]
        cases type with
        | _ => rfl
    | none =>
        rw [List.find?_eq_none]
        intro type _ hkeyword
        rw [ofKeyword?_eq_some_iff.2 (eq_of_beq hkeyword)] at htype
        cases htype
  rw [ofToken, named, hfind]

/-- The arguments that the placeholders of a text declare, from left to right. -/
def Arg.declared (s : String) : List Arg :=
  (Occurrence.scan s).map fun o => ⟨o.placeholder.name, .named o.placeholder.token⟩

theorem Arg.args_parse (s : String) : (Template.parse s.toList).args = declared s := by
  rw [Template.args, ← Occurrence.placeholders_scan, List.map_map, declared]
  simp only [← ArgType.ofToken_eq_named]
  rfl

theorem Arg.ofTexts_eq_firsts (selector : Option Arg) (texts : List String) :
    ofTexts selector texts = firsts (selector.toList ++ texts.flatMap declared) := by
  rw [ofTexts, distinct_eq_firsts]
  simp only [args_parse]

/-! ### Texts in order -/

/-- What an object of forms gives as the texts of its forms, in their order: the members that stand for the
counts, in ascending order, then the one for all others; or the member for true before that for false. -/
def Shape.sources (members : List (String × Value)) : List (Option Value) :=
  match ofMembers members with
  | .plural .. =>
    (namedCounts members).map (fun n : Nat => countValue? members n) ++ [Json.lookup members nthKey]
  | .choice .. => [Json.lookup members "true", Json.lookup members "false"]
  | .plain => []

theorem Shape.sources_eq {members : List (String × Value)} (hkeys : (members.map (·.1)).Nodup) :
    sources members = (ofMembers members).texts.map fun s => some (.string s) := by
  unfold sources
  cases hshape : ofMembers members with
  | plural counts nth =>
      rw [texts, List.map_append, map_values_eq hkeys hshape]
      exact congrArg (_ ++ [·]) (plural?_of_ofMembers hshape).2
  | choice whenTrue whenFalse =>
      obtain ⟨htrue, hfalse⟩ := choice?_of_ofMembers hshape
      show [Json.lookup members "true", Json.lookup members "false"] = _
      rw [htrue, hfalse]
      rfl
  | plain => rfl

/-- What an entry gives as its texts, in their order. -/
def Json.Value.sources : Value → List (Option Value)
  | .string s => [some (.string s)]
  | .object members => Shape.sources members
  | _ => []

theorem Json.Value.sources_eq {entry : Value} (hkeys : entry.DistinctKeys) :
    entry.sources = entry.texts.map fun s => some (.string s) := by
  cases hkeys with
  | object hnodup _ => exact Shape.sources_eq hnodup
  | _ => rfl

namespace Accessor

/-! ### Functions of a resource -/

mutual

/-- The functions in an accessor, each of them with its arguments and texts. -/
def functions : Accessor → List Accessor
  | .constant _ => []
  | .group entries => entriesFunctions entries
  | .list items => itemsFunctions items
  | .phrase args parts => [.phrase args parts]
  | .plural args counts nth => [.plural args counts nth]
  | .choice args whenTrue whenFalse => [.choice args whenTrue whenFalse]

def itemsFunctions : List Accessor → List Accessor
  | [] => []
  | item :: rest => item.functions ++ itemsFunctions rest

def entriesFunctions : List (String × Accessor) → List Accessor
  | [] => []
  | (_, entry) :: rest => entry.functions ++ entriesFunctions rest

end

theorem functions_list (items : List Accessor) : (list items).functions = items.flatMap functions := by
  rw [functions]
  induction items with
  | nil => rfl
  | cons item rest ih => rw [itemsFunctions, ih, List.flatMap_cons]

theorem functions_group (entries : List (String × Accessor)) :
    (group entries).functions = entries.flatMap (·.2.functions) := by
  rw [functions]
  induction entries with
  | nil => rfl
  | cons entry rest ih => rw [entriesFunctions, ih, List.flatMap_cons]

theorem eq_of_mem_functions_ofText {s : String} {f : Accessor} (hf : f ∈ (ofText s).functions) :
    f = ofText s := by
  rw [ofText] at hf ⊢
  by_cases hempty : (Template.parse s.toList).tail.isEmpty
  · rw [if_pos hempty] at hf
    cases hf
  · rw [if_neg hempty] at hf ⊢
    exact List.mem_singleton.1 hf

/-- Every function in the accessor of a resource is the accessor of one entry. -/
theorem exists_entry_of_mem_functions {v : Value} {a : Accessor} (h : ofJson v = .ok a) :
    ∀ f ∈ a.functions, ∃ path entry, (path, entry) ∈ v.nodes ∧ ofJson entry = .ok f := by
  -- a function in a list or a group is one in an item or a member, any other one is the whole accessor
  induction h using ofJson_induction with
  | bool b => exact fun f hf => nomatch hf
  | number n => exact fun f hf => nomatch hf
  | string s =>
      intro f hf
      rw [eq_of_mem_functions_ofText hf]
      exact ⟨[], .string s, Value.mem_nodes_self _, rfl⟩
  | array items accessors _ hitems ih =>
      intro f hf
      rw [functions_list] at hf
      obtain ⟨accessor, haccessor, hf⟩ := List.mem_flatMap.1 hf
      obtain ⟨i, item, hitem, hok⟩ := exists_getElem?_of_mem hitems haccessor
      obtain ⟨path, entry, hnode, hentry⟩ := ih item (List.mem_of_getElem? hitem) accessor hok f hf
      exact ⟨_, entry, Value.mem_nodes_array hitem hnode, hentry⟩
  | plural members counts nth h hshape =>
      intro f hf
      cases List.mem_singleton.1 hf
      exact ⟨[], .object members, Value.mem_nodes_self _, h⟩
  | choice members whenTrue whenFalse h hshape =>
      intro f hf
      cases List.mem_singleton.1 hf
      exact ⟨[], .object members, Value.mem_nodes_self _, h⟩
  | plain members entries _ _ hentries ih =>
      intro f hf
      rw [functions_group] at hf
      obtain ⟨accessor, haccessor, hf⟩ := List.mem_flatMap.1 hf
      obtain ⟨member, hmember, -, hok⟩ := exists_mem_of_forall₂ hentries haccessor
      obtain ⟨path, entry, hnode, hentry⟩ := ih member hmember accessor.2 hok f hf
      exact ⟨_, entry, Value.mem_nodes_object hmember hnode, hentry⟩

/-! ### Argument lists -/

/-- The accessor of a value takes the arguments of the texts of the value; where there are none, it takes no
arguments. -/
theorem args_ofJson {v : Value} {a : Accessor} (h : ofJson v = .ok a) :
    a.args = Arg.ofTexts v.selector? v.texts := by
  induction h using ofJson_induction with
  | string s => exact args_ofText s
  | plural members counts nth _ hshape =>
      rw [Value.selector?, Value.texts, hshape]
      exact args_ofPlural counts nth
  | choice members whenTrue whenFalse _ hshape =>
      rw [Value.selector?, Value.texts, hshape]
      exact args_ofChoice whenTrue whenFalse
  | plain members entries _ hshape =>
      rw [Value.selector?, Value.texts, hshape]
      rfl
  | _ => rfl

/-- Arguments are the first of each name among the one that selects and those that texts declare. -/
structure ArgumentsOf (selector : Option Arg) (texts : List String) (args : List Arg) : Prop where
  firsts : args = Arg.firsts (selector.toList ++ texts.flatMap Arg.declared)
  distinct : (args.map (·.name)).Nodup
  /-- The argument that selects comes first, with its own type. -/
  selects : ∀ arg ∈ selector, args.head? = some arg
  /-- The first one of a name decides its type. -/
  decides : ∀ arg, arg ∈ args ↔
    (selector.toList ++ texts.flatMap Arg.declared).find? (·.name == arg.name) = some arg

theorem argumentsOf_ofTexts (selector : Option Arg) (texts : List String) :
    ArgumentsOf selector texts (Arg.ofTexts selector texts) := by
  refine ⟨Arg.ofTexts_eq_firsts selector texts, Arg.nodup_names_ofTexts selector texts, ?_, ?_⟩
  · rintro arg harg
    cases harg
    rw [Arg.ofTexts_eq_firsts, Arg.head?_firsts]
    rfl
  · intro arg
    rw [Arg.ofTexts_eq_firsts, Arg.mem_firsts_iff]

/-- The arguments of every function of a resource are those of the texts of its entry, in the order of the
forms. -/
theorem argumentsOf_functions {v : Value} {a : Accessor} (hkeys : v.DistinctKeys) (h : ofJson v = .ok a) :
    ∀ f ∈ a.functions, ∃ path entry texts, (path, entry) ∈ v.nodes ∧ ofJson entry = .ok f ∧
      texts.map (fun s => some (.string s)) = entry.sources ∧
      ArgumentsOf entry.selector? texts f.args := by
  intro f hf
  obtain ⟨path, entry, hnode, hok⟩ := exists_entry_of_mem_functions h f hf
  refine ⟨path, entry, entry.texts, hnode, hok, ?_, ?_⟩
  · exact (Value.sources_eq (hkeys.of_mem_nodes hnode)).symm
  · rw [args_ofJson hok]
    exact argumentsOf_ofTexts entry.selector? entry.texts

/-- The first placeholder of a name is the one in the form for the smallest count, wherever its member stands;
a placeholder with the name of the argument that selects changes nothing, and neither does a member that
stands for no count. -/
theorem argumentsOf_functions_ascending : ∃ a f,
    ofJson (.array [.object [("02", .string "\x7ba: number\x7d \x7bcount: object\x7d"),
      ("n", .string "\x7bc:\x7d"), ("1", .string "\x7bb: flag\x7d\x7ba: boolean\x7d"),
      ("01", .string "\x7bgone: string\x7d")]]) = .ok a ∧ f ∈ a.functions ∧
    f.args = [⟨"count", .number⟩, ⟨"b", .string⟩, ⟨"a", .boolean⟩, ⟨"c", .string⟩] ∧
    ∃ path entry texts, (path, entry) ∈ (Value.array [.object
        [("02", .string "\x7ba: number\x7d \x7bcount: object\x7d"),
          ("n", .string "\x7bc:\x7d"), ("1", .string "\x7bb: flag\x7d\x7ba: boolean\x7d"),
          ("01", .string "\x7bgone: string\x7d")]]).nodes ∧ ofJson entry = .ok f ∧
      texts.map (fun s => some (.string s)) = entry.sources ∧
      ArgumentsOf entry.selector? texts f.args := by
  have hkeys : Value.DistinctKeys (.array [.object
      [("02", .string "\x7ba: number\x7d \x7bcount: object\x7d"),
        ("n", .string "\x7bc:\x7d"), ("1", .string "\x7bb: flag\x7d\x7ba: boolean\x7d"),
        ("01", .string "\x7bgone: string\x7d")]]) := by
    refine .array fun item hitem => ?_
    rw [List.mem_singleton.1 hitem]
    refine .object (by decide) fun member hmember => ?_
    simp only [List.mem_cons, List.not_mem_nil, or_false] at hmember
    rcases hmember with rfl | rfl | rfl | rfl
    all_goals exact .string _
  obtain ⟨counts, nth, hok, htexts⟩ : ∃ counts nth,
      ofJson (.array [.object [("02", .string "\x7ba: number\x7d \x7bcount: object\x7d"),
        ("n", .string "\x7bc:\x7d"), ("1", .string "\x7bb: flag\x7d\x7ba: boolean\x7d"),
        ("01", .string "\x7bgone: string\x7d")]]) = .ok (.list [ofPlural counts nth]) ∧
      counts.values ++ [nth] = ["\x7bb: flag\x7d\x7ba: boolean\x7d",
        "\x7ba: number\x7d \x7bcount: object\x7d", "\x7bc:\x7d"] := ⟨_, _, rfl, rfl⟩
  have hmem : ofPlural counts nth ∈ (list [ofPlural counts nth]).functions := by
    rw [functions_list, List.flatMap_singleton]
    exact List.mem_singleton_self _
  refine ⟨_, _, hok, hmem, ?_, argumentsOf_functions hkeys hok _ hmem⟩
  rw [args_ofPlural, htexts]
  decide +kernel

end Accessor

end Phrasebook
