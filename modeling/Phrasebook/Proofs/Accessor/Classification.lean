import Phrasebook.Proofs.Accessor.Entries
import Phrasebook.Proofs.Shape

/-!
What an object stands for, told by its members. `PluralForms` and `BooleanForms` say which members make
plural and boolean forms, whatever their order; no members make both. The tests of the two shapes decide
these conditions, so the shape of an object depends neither on the order of its members nor on which test
comes first, and its accessor is of the kind that the shape tells.
-/

namespace Phrasebook.Shape

/-- Members that make plural forms: one of them is for all other counts, the key of every other one names
a count, and all of them are texts. -/
structure PluralForms (members : List (String × Json.Value)) : Prop where
  nth : "n" ∈ members.map (·.1)
  counts : ∀ member ∈ members, member.1 ≠ "n" → NamesCount member.1
  texts : ∀ member ∈ members, ∃ text, member.2 = .string text

/-- Members that make boolean forms: a text for `true` and one for `false`, in either order, and nothing
else. -/
def BooleanForms (members : List (String × Json.Value)) : Prop :=
  ∃ whenTrue whenFalse, members.Perm [("true", .string whenTrue), ("false", .string whenFalse)]

section Members

variable {members other : List (String × Json.Value)}

/-! ### The two conditions -/

theorem PluralForms.of_perm (h : PluralForms members) (hperm : other.Perm members) :
    PluralForms other where
  nth := (hperm.map (·.1)).mem_iff.2 h.nth
  counts := fun member hmember => h.counts member (hperm.mem_iff.1 hmember)
  texts := fun member hmember => h.texts member (hperm.mem_iff.1 hmember)

theorem pluralForms_iff_of_perm (hperm : other.Perm members) : PluralForms other ↔ PluralForms members :=
  ⟨fun h => h.of_perm hperm.symm, fun h => h.of_perm hperm⟩

theorem booleanForms_iff_of_perm (hperm : other.Perm members) :
    BooleanForms other ↔ BooleanForms members :=
  exists_congr fun _ => exists_congr fun _ => hperm.congr_left _

/-- Boolean forms have no text for all other counts. -/
theorem PluralForms.not_booleanForms (h : PluralForms members) : ¬BooleanForms members := by
  rintro ⟨whenTrue, whenFalse, hperm⟩
  have hnth := (hperm.map (·.1)).mem_iff.1 h.nth
  simp at hnth

/-! ### The tests decide them -/

theorem plural?_isSome_iff : (plural? members).isSome ↔ PluralForms members := by
  constructor
  · intro h
    obtain ⟨shape, hshape⟩ := Option.isSome_iff_exists.1 h
    obtain ⟨counts, nth, -, htable, hnth⟩ := plural?_eq_some hshape
    have hall := of_foldlM_addCount? htable
    exact ⟨List.mem_map_of_mem (Json.mem_of_lookup hnth), fun member hmember => (hall member hmember).2,
      fun member hmember => (hall member hmember).1⟩
  · rintro ⟨hnth, hcounts, htexts⟩
    obtain ⟨counts, htable⟩ := Option.isSome_iff_exists.1 (foldlM_addCount?_isSome_iff (t := .empty).2
      fun member hmember => ⟨htexts member hmember, hcounts member hmember⟩)
    obtain ⟨value, hvalue⟩ := Option.isSome_iff_exists.1 (Json.lookup_isSome_iff.2 hnth)
    obtain ⟨text, rfl⟩ := htexts _ (Json.mem_of_lookup hvalue)
    rw [plural?, nthKey, hvalue, htable]
    rfl

theorem choice?_isSome_iff : (choice? members).isSome ↔ BooleanForms members := by
  constructor
  · intro h
    obtain ⟨shape, hshape⟩ := Option.isSome_iff_exists.1 h
    obtain ⟨whenTrue, whenFalse, -, hperm⟩ := choice?_eq_some hshape
    exact ⟨whenTrue, whenFalse, hperm⟩
  · rintro ⟨whenTrue, whenFalse, hperm⟩
    have hkeys : (members.map (·.1)).Nodup := (hperm.map (·.1)).nodup_iff.2 (by simp)
    have htrue : Json.lookup members "true" = some (.string whenTrue) :=
      Json.lookup_of_mem hkeys (hperm.mem_iff.2 (by simp))
    have hfalse : Json.lookup members "false" = some (.string whenFalse) :=
      Json.lookup_of_mem hkeys (hperm.mem_iff.2 (by simp))
    rw [choice?, hperm.length_eq, htrue, hfalse]
    rfl

instance (members : List (String × Json.Value)) : Decidable (PluralForms members) :=
  decidable_of_iff _ plural?_isSome_iff

instance (members : List (String × Json.Value)) : Decidable (BooleanForms members) :=
  decidable_of_iff _ choice?_isSome_iff

/-- Since no members pass both tests, the order of the tests does not matter. -/
theorem choice?_orElse_plural? (members : List (String × Json.Value)) :
    (choice? members <|> plural? members) = (plural? members <|> choice? members) := by
  cases hplural : plural? members with
  | none => cases choice? members <;> rfl
  | some shape =>
      have hforms := plural?_isSome_iff.1 (Option.isSome_iff_exists.2 ⟨shape, hplural⟩)
      have hnone : choice? members = none := by
        rw [← Option.not_isSome_iff_eq_none, choice?_isSome_iff]
        exact hforms.not_booleanForms
      rw [hnone]
      rfl

theorem PluralForms.ofMembers_eq (h : PluralForms members) :
    ∃ counts nth, ofMembers members = .plural counts nth := by
  obtain ⟨shape, hshape⟩ := Option.isSome_iff_exists.1 (plural?_isSome_iff.2 h)
  obtain ⟨counts, nth, rfl, -⟩ := plural?_eq_some hshape
  refine ⟨counts, nth, ?_⟩
  rw [ofMembers, hshape]
  rfl

theorem BooleanForms.ofMembers_eq (h : BooleanForms members) :
    ∃ whenTrue whenFalse, ofMembers members = .choice whenTrue whenFalse := by
  obtain ⟨shape, hshape⟩ := Option.isSome_iff_exists.1 (choice?_isSome_iff.2 h)
  obtain ⟨whenTrue, whenFalse, rfl, -⟩ := choice?_eq_some hshape
  refine ⟨whenTrue, whenFalse, ?_⟩
  rw [ofMembers, ← choice?_orElse_plural?, hshape]
  rfl

theorem ofMembers_eq_plain (hplural : ¬PluralForms members) (hboolean : ¬BooleanForms members) :
    ofMembers members = .plain := by
  rw [← plural?_isSome_iff, Option.not_isSome_iff_eq_none] at hplural
  rw [← choice?_isSome_iff, Option.not_isSome_iff_eq_none] at hboolean
  rw [ofMembers, hplural, hboolean]
  rfl

/-- The shape that is told for members. -/
theorem label_ofMembers (members : List (String × Json.Value)) : (ofMembers members).label =
    if PluralForms members then "plural" else if BooleanForms members then "boolean" else "plain" := by
  by_cases hplural : PluralForms members
  · obtain ⟨counts, nth, hshape⟩ := hplural.ofMembers_eq
    rw [hshape, if_pos hplural]
    rfl
  · rw [if_neg hplural]
    by_cases hboolean : BooleanForms members
    · obtain ⟨whenTrue, whenFalse, hshape⟩ := hboolean.ofMembers_eq
      rw [hshape, if_pos hboolean]
      rfl
    · rw [ofMembers_eq_plain hplural hboolean, if_neg hboolean]
      rfl

theorem label_eq_of_perm (hperm : other.Perm members) :
    (ofMembers other).label = (ofMembers members).label := by
  rw [label_ofMembers, label_ofMembers]
  exact if_congr (pluralForms_iff_of_perm hperm) rfl (if_congr (booleanForms_iff_of_perm hperm) rfl rfl)

end Members

end Phrasebook.Shape

namespace Phrasebook.Accessor

open Shape (PluralForms BooleanForms)

/-! ### The accessor of an object -/

section Object

variable {members : List (String × Json.Value)}

theorem ofJson_pluralForms (h : PluralForms members) :
    ∃ counts nth, ofJson (.object members) = .ok (ofPlural counts nth) := by
  obtain ⟨counts, nth, hshape⟩ := h.ofMembers_eq
  refine ⟨counts, nth, ?_⟩
  rw [ofJson, hshape]

theorem ofJson_booleanForms (h : BooleanForms members) :
    ∃ whenTrue whenFalse, ofJson (.object members) = .ok (ofChoice whenTrue whenFalse) := by
  obtain ⟨whenTrue, whenFalse, hshape⟩ := h.ofMembers_eq
  refine ⟨whenTrue, whenFalse, ?_⟩
  rw [ofJson, hshape]

/-- The accessor of an object that is neither is a group, if there is one. -/
theorem ofJson_of_not_forms {a : Accessor} (hplural : ¬PluralForms members)
    (hboolean : ¬BooleanForms members) (h : ofJson (.object members) = .ok a) :
    ∃ entries, a = .group entries := by
  obtain ⟨entries, hgroup, -⟩ := ofJson_plain (Shape.ofMembers_eq_plain hplural hboolean) h
  exact ⟨entries, hgroup⟩

theorem pluralForms_of_ofJson {args : List Arg} {counts : Counts Form} {nth : Form}
    (h : ofJson (.object members) = .ok (.plural args counts nth)) : PluralForms members := by
  by_contra hplural
  by_cases hboolean : BooleanForms members
  · obtain ⟨whenTrue, whenFalse, hok⟩ := ofJson_booleanForms hboolean
    cases hok.symm.trans h
  · obtain ⟨entries, hgroup⟩ := ofJson_of_not_forms hplural hboolean h
    cases hgroup

theorem booleanForms_of_ofJson {args : List Arg} {whenTrue whenFalse : Form}
    (h : ofJson (.object members) = .ok (.choice args whenTrue whenFalse)) : BooleanForms members := by
  by_contra hboolean
  by_cases hplural : PluralForms members
  · obtain ⟨counts, nth, hok⟩ := ofJson_pluralForms hplural
    cases hok.symm.trans h
  · obtain ⟨entries, hgroup⟩ := ofJson_of_not_forms hplural hboolean h
    cases hgroup

theorem not_forms_of_ofJson {entries : List (String × Accessor)}
    (h : ofJson (.object members) = .ok (.group entries)) :
    ¬PluralForms members ∧ ¬BooleanForms members := by
  constructor
  · intro hplural
    obtain ⟨counts, nth, hok⟩ := ofJson_pluralForms hplural
    cases hok.symm.trans h
  · intro hboolean
    obtain ⟨whenTrue, whenFalse, hok⟩ := ofJson_booleanForms hboolean
    cases hok.symm.trans h

end Object

/-- An object has plural forms exactly when its members make them, and likewise for boolean forms; all
other objects are plain. No members make both, so it does not matter which of the two tests comes first,
nor in which order the members stand. The accessor of an object is of the same kind. -/
theorem shape_iff_forms (members : List (String × Json.Value)) :
    ((Shape.ofMembers members).label = "plural" ↔ PluralForms members) ∧
    ((Shape.ofMembers members).label = "boolean" ↔ BooleanForms members) ∧
    ((Shape.ofMembers members).label = "plain" ↔ ¬PluralForms members ∧ ¬BooleanForms members) ∧
    ¬(PluralForms members ∧ BooleanForms members) ∧
    (Shape.choice? members <|> Shape.plural? members).getD .plain = Shape.ofMembers members ∧
    (∀ other, other.Perm members →
      (Shape.ofMembers other).label = (Shape.ofMembers members).label) ∧
    ((∃ args counts nth, ofJson (.object members) = .ok (.plural args counts nth)) ↔
      PluralForms members) ∧
    ((∃ args whenTrue whenFalse, ofJson (.object members) = .ok (.choice args whenTrue whenFalse)) ↔
      BooleanForms members) ∧
    ∀ a, ofJson (.object members) = .ok a →
      ((∃ entries, a = .group entries) ↔ ¬PluralForms members ∧ ¬BooleanForms members) := by
  have hboth : ¬(PluralForms members ∧ BooleanForms members) := fun h => h.1.not_booleanForms h.2
  refine ⟨?_, ?_, ?_, hboth, ?_, fun other => Shape.label_eq_of_perm, ⟨?_, ?_⟩, ⟨?_, ?_⟩,
    fun a h => ⟨?_, fun hforms => ofJson_of_not_forms hforms.1 hforms.2 h⟩⟩
  · rw [Shape.label_ofMembers]
    split_ifs <;> simp [*]
  · rw [Shape.label_ofMembers]
    split_ifs with hplural hboolean
    · simpa using hplural.not_booleanForms
    · simpa using hboolean
    · simpa using hboolean
  · rw [Shape.label_ofMembers]
    split_ifs <;> simp [*]
  · rw [Shape.choice?_orElse_plural?]
    rfl
  · rintro ⟨args, counts, nth, h⟩
    exact pluralForms_of_ofJson h
  · intro h
    obtain ⟨counts, nth, hok⟩ := ofJson_pluralForms h
    exact ⟨_, _, _, hok⟩
  · rintro ⟨args, whenTrue, whenFalse, h⟩
    exact booleanForms_of_ofJson h
  · intro h
    obtain ⟨whenTrue, whenFalse, hok⟩ := ofJson_booleanForms h
    exact ⟨_, _, _, hok⟩
  · rintro ⟨entries, rfl⟩
    exact not_forms_of_ofJson h

end Phrasebook.Accessor
