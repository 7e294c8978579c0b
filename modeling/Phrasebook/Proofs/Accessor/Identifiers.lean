import Phrasebook.Accessor.Params
import Phrasebook.Proofs.Accessor.Arguments
import Phrasebook.Proofs.Keys
import Phrasebook.Proofs.Script.Token

/-!
The identifiers of arguments. Every argument of an accessor gets an identifier that a script may use,
and no two of them the same one, however names and reserved words meet: an argument that keeps its
name takes it from the start, and one that is renamed avoids all that is taken before it.
-/

namespace Phrasebook

/-! ### Low lines in front of an identifier -/

theorem exists_avoid_eq (taken : List String) (identifier : String) : ∃ n,
    (avoid taken identifier).toList = List.replicate n '_' ++ identifier.toList := by
  fun_induction avoid taken identifier with
  | case1 taken identifier h ih =>
      obtain ⟨n, hn⟩ := ih
      refine ⟨n + 1, ?_⟩
      rw [hn, String.toList_append, List.replicate_succ', List.append_assoc]
      rfl
  | case2 taken identifier h => exact ⟨0, rfl⟩

/-- The identifier that avoids those taken is none of them: one that was passed by, and is not
looked for again, is shorter. -/
theorem avoid_not_mem (taken : List String) (identifier : String) :
    avoid taken identifier ∉ taken := by
  fun_induction avoid taken identifier with
  | case1 taken identifier h ih =>
      intro hmem
      have hne : avoid (taken.erase identifier) ("_" ++ identifier) ≠ identifier := by
        intro heq
        obtain ⟨n, hn⟩ := exists_avoid_eq (taken.erase identifier) ("_" ++ identifier)
        have hlength := congrArg List.length hn
        rw [heq, String.toList_append, List.length_append, List.length_append,
          show "_".toList.length = 1 from rfl] at hlength
        omega
      exact ih ((List.mem_erase_of_ne hne).2 hmem)
  | case2 taken identifier h => exact h

namespace Script

theorem isReserved_of_mem_keywords {word : String} (h : word ∈ keywords) : isReserved word := by
  have hall : ∀ word ∈ keywords, isReserved word := by decide
  exact hall word h

theorem not_mem_keywords_of_lowLine {word : String} (h : word.toList.head? = some '_') :
    word ∉ keywords := by
  have hall : ∀ word ∈ keywords, word.toList.head? ≠ some '_' := by decide
  exact fun hmem => hall word hmem h

theorem not_isReserved_of_lowLine {word : String} (h : word.toList.head? = some '_') :
    ¬isReserved word := by
  have hall : ∀ word ∈ reservedWords, word.toList.head? ≠ some '_' := by decide
  intro hreserved
  exact hall word (List.contains_iff_mem.1 hreserved) h

theorem not_isReserved_of_unbindable {word : String} (h : word ∈ unbindable) : ¬isReserved word := by
  have hall : ∀ word ∈ unbindable, ¬isReserved word := by decide
  exact hall word h

theorem not_mem_unbindable_of_lowLine {word : String} (h : word.toList.head? = some '_') :
    word ∉ unbindable := by
  have hall : ∀ word ∈ unbindable, word.toList.head? ≠ some '_' := by decide
  exact fun hmem => hall word hmem h

theorem head?_avoid (taken : List String) (name : String) :
    (avoid taken ("_" ++ name)).toList.head? = some '_' := by
  obtain ⟨n, hn⟩ := exists_avoid_eq taken ("_" ++ name)
  rw [hn, String.toList_append]
  cases n with
  | zero => rfl
  | succ n => rfl

theorem identifierOf_reserved {name : String} (h : isReserved name) : identifierOf name = "_" ++ name :=
  if_pos h

theorem isName_replicate {n : Nat} {name : List Char} (h : Text.isName name) :
    Text.isName (List.replicate n '_' ++ name) := by
  cases n with
  | zero => exact h
  | succ n =>
      rw [List.replicate_succ, List.cons_append, Text.isName, Bool.and_eq_true, List.all_eq_true]
      refine ⟨by decide, fun c hc => ?_⟩
      rcases List.mem_cons.1 hc with rfl | hc
      · decide
      · rcases List.mem_append.1 hc with hc | hc
        · rw [List.eq_of_mem_replicate hc]
          decide
        · exact Text.isNameChar_of_isName h c hc

/-- Low lines in front of a name make an identifier of it, whatever word it is. -/
theorem isIdentifier_avoid (taken : List String) {name : String} (h : Text.isName name.toList) :
    IsIdentifier (avoid taken ("_" ++ name)) := by
  obtain ⟨n, hn⟩ := exists_avoid_eq taken ("_" ++ name)
  have hlow : (avoid taken ("_" ++ name)).toList = List.replicate (n + 1) '_' ++ name.toList := by
    rw [hn, String.toList_append, List.replicate_succ', List.append_assoc]
    rfl
  refine ⟨?_, not_mem_keywords_of_lowLine ?_⟩
  · rw [hlow]
    exact isName_replicate h
  · rw [hlow, List.replicate_succ]
    rfl

end Script

namespace Identifiers

/-! ### The identifiers that are chosen -/

variable {taken : List String} {args : List Arg}

theorem names_choose (taken : List String) (args : List Arg) :
    (choose taken args).map (·.1) = args.map (·.name) := by
  induction args generalizing taken with
  | nil => rfl
  | cons arg args ih =>
      rw [choose]
      by_cases h : Script.isReserved arg.name
      · rw [if_pos h, List.map_cons, List.map_cons, ih]
      · rw [if_neg h, List.map_cons, List.map_cons, ih]

theorem name_mem_of_mem_choose {name identifier : String}
    (h : (name, identifier) ∈ choose taken args) : name ∈ args.map (·.name) := by
  rw [← names_choose taken]
  exact List.mem_map_of_mem h

/-- A name that is not reserved is its own identifier, and the identifier of a reserved one is a new
one with a low line in front. -/
theorem mem_choose {name identifier : String} (h : (name, identifier) ∈ choose taken args) :
    (¬Script.isReserved name ∧ identifier = name) ∨
      (Script.isReserved name ∧ identifier ∉ taken ∧
        ∃ others, identifier = avoid others ("_" ++ name)) := by
  induction args generalizing taken with
  | nil => cases h
  | cons arg args ih =>
      rw [choose] at h
      by_cases hreserved : Script.isReserved arg.name
      · rw [if_pos hreserved] at h
        rcases List.mem_cons.1 h with heq | hmem
        · cases heq
          refine Or.inr ⟨hreserved, avoid_not_mem _ _, taken, ?_⟩
          rw [Script.identifierOf_reserved hreserved]
        · rcases ih hmem with hkept | ⟨hname, hnew, hlow⟩
          · exact Or.inl hkept
          · exact Or.inr ⟨hname, fun hold => hnew (List.mem_cons_of_mem _ hold), hlow⟩
      · rw [if_neg hreserved] at h
        rcases List.mem_cons.1 h with heq | hmem
        · cases heq
          exact Or.inl ⟨hreserved, rfl⟩
        · exact ih hmem

/-- If the names that are not reserved are taken, then no two identifiers are the same. -/
theorem nodup_choose (hnames : (args.map (·.name)).Nodup)
    (htaken : ∀ arg ∈ args, ¬Script.isReserved arg.name → arg.name ∈ taken) :
    ((choose taken args).map (·.2)).Nodup := by
  induction args generalizing taken with
  | nil => exact List.nodup_nil
  | cons arg args ih =>
      rw [List.map_cons, List.nodup_cons] at hnames
      have hrest : ∀ other ∈ args, ¬Script.isReserved other.name → other.name ∈ taken :=
        fun other hother => htaken other (List.mem_cons_of_mem _ hother)
      rw [choose]
      by_cases hreserved : Script.isReserved arg.name
      · rw [if_pos hreserved, List.map_cons, List.nodup_cons]
        refine ⟨fun hmem => ?_, ih hnames.2 fun other hother hname =>
          List.mem_cons_of_mem _ (hrest other hother hname)⟩
        obtain ⟨⟨name, identifier⟩, hchosen, heq⟩ := List.mem_map.1 hmem
        cases heq
        -- a later identifier is a name that is kept, and so was taken before, or avoids this one
        rcases mem_choose hchosen with ⟨hname, hkept⟩ | ⟨-, hnew, -⟩
        · obtain ⟨other, hother, rfl⟩ := List.mem_map.1 (name_mem_of_mem_choose hchosen)
          refine avoid_not_mem taken (Script.identifierOf arg.name) ?_
          rw [hkept]
          exact hrest other hother hname
        · exact hnew (List.mem_cons_self ..)
      · rw [if_neg hreserved, List.map_cons, List.nodup_cons]
        refine ⟨fun hmem => ?_, ih hnames.2 hrest⟩
        obtain ⟨⟨name, identifier⟩, hchosen, heq⟩ := List.mem_map.1 hmem
        cases heq
        rcases mem_choose hchosen with ⟨-, hkept⟩ | ⟨-, hnew, -⟩
        · refine hnames.1 ?_
          rw [show arg.name = name from hkept]
          exact name_mem_of_mem_choose hchosen
        · exact hnew (htaken arg (List.mem_cons_self ..) hreserved)

/-! ### The identifiers of the arguments of an accessor -/

theorem get_eq_of_mem {identifiers : Identifiers} {name identifier : String}
    (hnames : (identifiers.map (·.1)).Nodup) (h : (name, identifier) ∈ identifiers) :
    identifiers.get name = identifier := by
  rw [get, find?_key_reverse_of_mem hnames h]

theorem get_mem_ofArgs {name : String} (hnames : (args.map (·.name)).Nodup)
    (h : name ∈ args.map (·.name)) : (name, (ofArgs args).get name) ∈ ofArgs args := by
  have hchosen : name ∈ (ofArgs args).map (·.1) := by
    rw [ofArgs, names_choose]
    exact h
  obtain ⟨⟨found, identifier⟩, hmem, rfl⟩ := List.mem_map.1 hchosen
  rw [get_eq_of_mem (by rw [ofArgs, names_choose]; exact hnames) hmem]
  exact hmem

/-- Two arguments have two identifiers. -/
theorem get_inj {name other : String} (hnames : (args.map (·.name)).Nodup)
    (hname : name ∈ args.map (·.name)) (hother : other ∈ args.map (·.name))
    (h : (ofArgs args).get name = (ofArgs args).get other) : name = other := by
  have htaken : ∀ arg ∈ args, ¬Script.isReserved arg.name →
      arg.name ∈ (args.map (·.name)).filter (!Script.isReserved ·) := fun arg harg hreserved =>
    List.mem_filter.2 ⟨List.mem_map_of_mem harg, by simpa using hreserved⟩
  have hnodup : ((ofArgs args).map (·.2)).Nodup := nodup_choose hnames htaken
  have heq := List.inj_on_of_nodup_map hnodup (get_mem_ofArgs hnames hname)
    (get_mem_ofArgs hnames hother) h
  exact congrArg Prod.fst heq

/-- The identifier of an argument can name a parameter. -/
theorem isIdentifier_get {name : String} (hargs : Arg.WellNamed args)
    (h : name ∈ args.map (·.name)) : Script.IsIdentifier ((ofArgs args).get name) := by
  have hname := hargs.isName name h
  rcases mem_choose (get_mem_ofArgs hargs.nodup h) with ⟨hreserved, hkept⟩ | ⟨-, -, others, hlow⟩
  · rw [hkept]
    exact ⟨hname, fun hkeyword => hreserved (Script.isReserved_of_mem_keywords hkeyword)⟩
  · rw [hlow]
    exact Script.isIdentifier_avoid others hname

theorem get_of_not_reserved {name : String} (hnames : (args.map (·.name)).Nodup)
    (h : name ∈ args.map (·.name)) (hreserved : ¬Script.isReserved name) :
    (ofArgs args).get name = name := by
  rcases mem_choose (get_mem_ofArgs hnames h) with ⟨-, hkept⟩ | ⟨hname, -⟩
  · exact hkept
  · exact absurd hname hreserved

theorem isIdentifier_params (hargs : Arg.WellNamed args) :
    ∀ p ∈ (ofArgs args).params args, Script.IsIdentifier p.name := by
  intro p hp
  obtain ⟨arg, harg, rfl⟩ := List.mem_map.1 hp
  exact isIdentifier_get hargs (List.mem_map_of_mem harg)

theorem head?_get_of_reserved {name : String} (hnames : (args.map (·.name)).Nodup)
    (h : name ∈ args.map (·.name)) (hreserved : Script.isReserved name) :
    ((ofArgs args).get name).toList.head? = some '_' := by
  rcases mem_choose (get_mem_ofArgs hnames h) with ⟨hname, -⟩ | ⟨-, -, others, hlow⟩
  · exact absurd hreserved hname
  · rw [hlow]
    exact Script.head?_avoid others name

/-- No identifier of an argument is a reserved word. -/
theorem not_isReserved_get {name : String} (hnames : (args.map (·.name)).Nodup)
    (h : name ∈ args.map (·.name)) : ¬Script.isReserved ((ofArgs args).get name) := by
  by_cases hreserved : Script.isReserved name
  · exact Script.not_isReserved_of_lowLine (head?_get_of_reserved hnames h hreserved)
  · rw [get_of_not_reserved hnames h hreserved]
    exact hreserved

/-- The identifier of an argument can be bound, unless the name itself cannot: such a name is no reserved
word and stays as it is. -/
theorem isBinding_get_iff {name : String} (hargs : Arg.WellNamed args) (h : name ∈ args.map (·.name)) :
    Script.IsBinding ((ofArgs args).get name) ↔ name ∉ Script.unbindable := by
  by_cases hreserved : Script.isReserved name
  · have hlow := head?_get_of_reserved hargs.nodup h hreserved
    constructor
    · intro _ hname
      exact Script.not_isReserved_of_unbindable hname hreserved
    · intro _
      exact ⟨isIdentifier_get hargs h, Script.not_mem_unbindable_of_lowLine hlow⟩
  · have hget := get_of_not_reserved hargs.nodup h hreserved
    constructor
    · intro hbinding
      rw [hget] at hbinding
      exact hbinding.2
    · intro hname
      refine ⟨isIdentifier_get hargs h, ?_⟩
      rwa [hget]

theorem names_params (identifiers : Identifiers) (args : List Arg) :
    (identifiers.params args).map (·.name) = (args.map (·.name)).map identifiers.get := by
  rw [params, List.map_map, List.map_map]
  rfl

/-- No two parameters have one name. -/
theorem nodup_params (hnames : (args.map (·.name)).Nodup) :
    (((ofArgs args).params args).map (·.name)).Nodup := by
  rw [names_params]
  exact hnames.map_on fun _ hname _ hother heq => get_inj hnames hname hother heq

end Identifiers

end Phrasebook
