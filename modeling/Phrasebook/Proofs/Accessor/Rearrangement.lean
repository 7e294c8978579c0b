import Phrasebook.Compile
import Phrasebook.Proofs.Accessor.Classification

/-!
The order of the members of an object of forms. The text for a count is that of its canonical key, wherever
this stands, and otherwise that of the first key that denotes the count. So an order in which such first
keys stay first gives the same table, and with it the same accessor.
-/

namespace Phrasebook.Shape

/-- For each count without its canonical key, the members whose keys denote it stand in the same order. -/
def KeepsSpellings (members other : List (String × Json.Value)) : Prop :=
  ∀ n : Nat, canonicalKey n ∉ members.map (·.1) →
    (other.filter fun member => denotes n member.1) = members.filter fun member => denotes n member.1

/-- No key of boolean forms denotes a count. -/
theorem BooleanForms.keepsSpellings {members other : List (String × Json.Value)}
    (h : BooleanForms members) (hperm : other.Perm members) : KeepsSpellings members other := by
  obtain ⟨whenTrue, whenFalse, hforms⟩ := h
  have hnone : ∀ n : Nat, ∀ member ∈ members, ¬denotes n member.1 := by
    intro n member hmember
    rcases List.mem_pair.1 (hforms.mem_iff.1 hmember) with rfl | rfl
    · exact not_denotes (show Number.ofDecimal? "true".toList = none from rfl) n
    · exact not_denotes (show Number.ofDecimal? "false".toList = none from rfl) n
  intro n _
  rw [List.filter_eq_nil_iff.2 (hnone n), List.filter_eq_nil_iff]
  exact fun member hmember => hnone n member (hperm.mem_iff.1 hmember)

section Rearranged

variable {members other : List (String × Json.Value)} (hkeys : (members.map (·.1)).Nodup)
  (hperm : other.Perm members) (horder : KeepsSpellings members other)
include hkeys hperm horder

theorem countValue?_eq_of_perm (n : Nat) : countValue? other n = countValue? members n := by
  rw [countValue?, countValue?, Json.lookup_eq_of_perm hkeys hperm]
  by_cases hcanonical : canonicalKey n ∈ members.map (·.1)
  · obtain ⟨value, hvalue⟩ := Option.isSome_iff_exists.1 (Json.lookup_isSome_iff.2 hcanonical)
    rw [hvalue, Option.some_or, Option.some_or]
  · rw [← List.head?_filter, ← List.head?_filter, horder n hcanonical]

/-- The table of an object does not depend on the order of its members. -/
theorem counts_eq_of_perm {counts rearranged : Counts String}
    (h : members.foldlM addCount? .empty = some counts)
    (hother : other.foldlM addCount? .empty = some rearranged) : rearranged = counts := by
  have hnodup : (other.map (·.1)).Nodup := (hperm.map (·.1)).nodup_iff.2 hkeys
  apply Counts.ext_get?
  intro n
  apply Option.map_injective (f := Json.Value.string) fun _ _ => Json.Value.string.inj
  calc (rearranged.get? n).map Json.Value.string
      = countValue? other n := get?_foldlM_addCount? n hnodup hother
    _ = countValue? members n := countValue?_eq_of_perm hkeys hperm horder n
    _ = (counts.get? n).map Json.Value.string := (get?_foldlM_addCount? n hkeys h).symm

theorem ofMembers_eq_of_perm : ofMembers other = ofMembers members := by
  have hlabel := label_eq_of_perm hperm
  cases hshape : ofMembers members with
  | plural counts nth =>
      cases hother : ofMembers other with
      | plural rearranged last =>
          obtain ⟨htable, hnth⟩ := plural?_of_ofMembers hshape
          obtain ⟨hrearranged, hlast⟩ := plural?_of_ofMembers hother
          rw [Json.lookup_eq_of_perm hkeys hperm, hnth] at hlast
          cases hlast
          rw [counts_eq_of_perm hkeys hperm horder htable hrearranged]
      | choice | plain => simp [hshape, hother, label] at hlabel
  | choice whenTrue whenFalse =>
      cases hother : ofMembers other with
      | choice otherTrue otherFalse =>
          obtain ⟨htrue, hfalse⟩ := choice?_of_ofMembers hshape
          obtain ⟨htrue', hfalse'⟩ := choice?_of_ofMembers hother
          rw [Json.lookup_eq_of_perm hkeys hperm] at htrue' hfalse'
          cases htrue.symm.trans htrue'
          cases hfalse.symm.trans hfalse'
          rfl
      | plural | plain => simp [hshape, hother, label] at hlabel
  | plain =>
      cases hother : ofMembers other with
      | plain => rfl
      | plural | choice => simp [hshape, hother, label] at hlabel

end Rearranged

end Phrasebook.Shape

namespace Phrasebook.Accessor

open Shape (PluralForms BooleanForms KeepsSpellings canonicalKey)

/-- An object of forms has an accessor, and nothing but its shape goes into this. -/
theorem exists_ofJson_of_shape {members : List (String × Json.Value)}
    (hforms : Shape.ofMembers members ≠ .plain) : ∃ a, ∀ other,
      Shape.ofMembers other = Shape.ofMembers members → ofJson (.object other) = .ok a := by
  cases hshape : Shape.ofMembers members with
  | plural counts nth =>
      refine ⟨ofPlural counts nth, fun other hother => ?_⟩
      rw [ofJson, hother]
  | choice whenTrue whenFalse =>
      refine ⟨ofChoice whenTrue whenFalse, fun other hother => ?_⟩
      rw [ofJson, hother]
  | plain => exact absurd hshape hforms

/-- The form for a count is made from the text of its canonical key, wherever this stands. -/
theorem get?_of_canonicalKey {members : List (String × Json.Value)}
    (hkeys : (members.map (·.1)).Nodup) {args : List Arg} {counts : Counts Form} {nth : Form}
    (h : ofJson (.object members) = .ok (.plural args counts nth)) {n : Nat} {text : String}
    (hmember : (canonicalKey n, .string text) ∈ members) :
    counts.get? n = some (Template.parse text.toList).form := by
  rcases Shape.ofMembers_cases members with ⟨table, last, hshape, htable, -⟩ | ⟨_, _, hshape, -⟩ |
    ⟨hshape, -⟩
  · rw [ofJson, hshape] at h
    cases h
    have hvalue := Shape.get?_foldlM_addCount? n hkeys htable
    rw [Shape.countValue?, Json.lookup_of_mem hkeys hmember, Option.some_or] at hvalue
    obtain ⟨found, hfound, heq⟩ := Option.map_eq_some_iff.1 hvalue
    cases heq
    rw [Counts.get?_map, Counts.get?_map, hfound]
    rfl
  · rw [ofJson, hshape] at h
    cases h
  · obtain ⟨entries, hgroup, -⟩ := ofJson_plain hshape h
    cases hgroup

/-- Objects of forms whose members are the same, in any two orders, have the same accessor and with it the
same script and text, as long as the members for a count without its canonical key stay in order. The
canonical key of a count gives its text, wherever the key stands. -/
theorem ofJson_eq_of_perm {members other : List (String × Json.Value)}
    (hkeys : (members.map (·.1)).Nodup) (hperm : other.Perm members)
    (hforms : BooleanForms members ∨ PluralForms members ∧ KeepsSpellings members other) :
    ∃ a, ofJson (.object members) = .ok a ∧ ofJson (.object other) = .ok a ∧
      (∀ options, renderValue (.object other) options = renderValue (.object members) options) ∧
      ∀ args counts nth, a = .plural args counts nth → ∀ (n : Nat) (text : String),
        (canonicalKey n, .string text) ∈ members →
          counts.get? n = some (Template.parse text.toList).form := by
  obtain ⟨horder, hne⟩ : KeepsSpellings members other ∧ Shape.ofMembers members ≠ .plain := by
    rcases hforms with hboolean | ⟨hplural, horder⟩
    · obtain ⟨whenTrue, whenFalse, hshape⟩ := hboolean.ofMembers_eq
      exact ⟨hboolean.keepsSpellings hperm, by simp [hshape]⟩
    · obtain ⟨counts, nth, hshape⟩ := hplural.ofMembers_eq
      exact ⟨horder, by simp [hshape]⟩
  obtain ⟨a, hshape⟩ := exists_ofJson_of_shape hne
  have ha := hshape members rfl
  have hsame := hshape other (Shape.ofMembers_eq_of_perm hkeys hperm horder)
  refine ⟨a, ha, hsame, fun options => ?_, ?_⟩
  · rw [renderValue, renderValue, hsame, ha]
  · rintro args counts nth rfl n text hmember
    exact get?_of_canonicalKey hkeys ha hmember

/-- The canonical key of a count may come before another key for it, or after; two keys for a count without
its canonical one stay in order. -/
theorem ofJson_eq_of_perm_spellings : ∃ a,
    ofJson (.object [("1", .string "a"), ("n", .string "b"), ("01", .string "c"), ("02", .string "d"),
      ("002", .string "e")]) = .ok a ∧
    ofJson (.object [("01", .string "c"), ("02", .string "d"), ("002", .string "e"), ("1", .string "a"),
      ("n", .string "b")]) = .ok a := by
  have hkeeps : KeepsSpellings
      ([("1", .string "a"), ("n", .string "b")] ++
        [("01", .string "c"), ("02", .string "d"), ("002", .string "e")])
      ([("01", .string "c"), ("02", .string "d"), ("002", .string "e")] ++
        [("1", .string "a"), ("n", .string "b")]) := by
    intro n hn
    have hone : ¬Shape.denotes n "1" := by
      rw [Shape.denotes_iff (n := 1) rfl]
      rintro hone
      cases Int.ofNat.inj hone
      exact hn (by decide)
    have hnone : ∀ member ∈ [("1", Json.Value.string "a"), ("n", .string "b")],
        ¬Shape.denotes n member.1 := by
      intro member hmember
      rcases List.mem_pair.1 hmember with rfl | rfl
      · exact hone
      · exact Shape.not_denotes rfl n
    rw [List.filter_append, List.filter_append, List.filter_eq_nil_iff.2 hnone, List.append_nil,
      List.nil_append]
  obtain ⟨a, ha, hother, -⟩ :=
    ofJson_eq_of_perm (by decide) List.perm_append_comm (Or.inr ⟨by decide, hkeeps⟩)
  exact ⟨a, ha, hother⟩

end Phrasebook.Accessor
