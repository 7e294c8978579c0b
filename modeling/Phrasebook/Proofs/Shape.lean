import Mathlib.Data.List.Perm.Subperm
import Phrasebook.Proofs.Counts
import Phrasebook.Proofs.Keys
import Phrasebook.Proofs.Number.Decimal
import Phrasebook.Shape

/-!
Which text of an object with plural forms stands for a count. Several keys can denote one count, with
zeros in front; `pluralSource?` says which of them counts, for any integer, and `get?_of_plural?` that
the table that is built from the object, key after key, holds just these texts.
-/

namespace Phrasebook.Shape

-- Powers are those of core, also where other powers of natural numbers are in scope.
attribute [local instance (high)] instPowNat

/-- The key that spells an integer without needless zeros. -/
def canonicalKey (c : Int) : String := String.ofList (Number.intText c)

/-- Whether a key consists of digits that denote an integer. -/
def denotes (c : Int) (key : String) : Bool :=
  (Number.ofDecimal? key.toList).any fun (n : Nat) => (n : Int) == c

/-- The value for a count among members: that of its canonical key, or else of the first key whose
digits denote the count. -/
def countValue? (members : List (String × Json.Value)) (c : Int) : Option Json.Value :=
  (Json.lookup members (canonicalKey c)).or
    ((members.find? fun member => denotes c member.1).map (·.2))

/-- The value from which plural forms take the text for a count: the one for this count, or else the
one for all counts without a text of their own. -/
def pluralSource? (members : List (String × Json.Value)) (c : Int) : Option Json.Value :=
  (countValue? members c).or (Json.lookup members nthKey)

/-! ### Keys of counts -/

theorem isCanonicalKey_iff (key : String) :
    isCanonicalKey key ↔ Number.IsCanonical key.toList := by
  rw [isCanonicalKey, Bool.or_eq_true, beq_iff_eq, bne_iff_ne, Number.IsCanonical]

theorem toList_canonicalKey (n : Nat) : (canonicalKey n).toList = Number.decimalDigits n := by
  rw [canonicalKey, String.toList_ofList]
  rfl

theorem isCanonicalKey_canonicalKey (n : Nat) : isCanonicalKey (canonicalKey n) := by
  rw [isCanonicalKey_iff, toList_canonicalKey]
  exact Number.isCanonical_decimalDigits n

/-- The canonical key of an integer denotes no other integer. -/
theorem eq_of_ofDecimal?_canonicalKey {c : Int} {n : Nat}
    (h : Number.ofDecimal? (canonicalKey c).toList = some n) : (n : Int) = c := by
  cases c with
  | ofNat m =>
      rw [Int.ofNat_eq_natCast, toList_canonicalKey, Number.ofDecimal?_decimalDigits] at h
      rw [Option.some.inj h]
      rfl
  | negSucc m =>
      obtain ⟨-, hdigits, -⟩ := Number.ofDecimal?_eq_some.1 h
      rw [canonicalKey, String.toList_ofList] at hdigits
      exact absurd (hdigits '-' (List.mem_cons_self ..)) (by decide)

/-- A key that denotes a count is its canonical key unless it has needless zeros. -/
theorem eq_canonicalKey {key : String} {n : Nat} (h : Number.ofDecimal? key.toList = some n)
    (hcanonical : isCanonicalKey key) : key = canonicalKey n := by
  rw [← String.toList_inj, toList_canonicalKey]
  exact Number.eq_decimalDigits h ((isCanonicalKey_iff key).1 hcanonical)

theorem denotes_iff {key : String} {n : Nat} {c : Int} (h : Number.ofDecimal? key.toList = some n) :
    denotes c key ↔ (n : Int) = c := by
  rw [denotes, h, Option.any_some, beq_iff_eq]

theorem not_denotes {key : String} (h : Number.ofDecimal? key.toList = none) (c : Int) :
    ¬denotes c key := by
  rw [denotes, h]
  exact fun hany => nomatch hany

theorem nthKey_ne_canonicalKey (c : Int) : nthKey ≠ canonicalKey c := by
  intro h
  have hchars := congrArg String.toList h
  rw [canonicalKey, String.toList_ofList] at hchars
  cases c with
  | ofNat n =>
      have hdigit := Nat.isDigit_of_mem_toDigits (b := 10) (n := n) (c := 'n') (by decide) (by decide) (by
        show 'n' ∈ Number.intText (.ofNat n)
        rw [← hchars]
        decide)
      exact absurd hdigit (by decide)
  | negSucc n => cases hchars

/-! ### One member more -/

section Members

variable {members : List (String × Json.Value)} {key : String} {value : Json.Value} {c : Int}

theorem lookup_append_of_ne {other : String} (h : key ≠ other) :
    Json.lookup (members ++ [(key, value)]) other = Json.lookup members other := by
  rw [Json.lookup, Json.lookup, List.find?_append, List.find?_singleton, if_neg (by simpa using h),
    Option.or_none]

theorem find?_append_of_not_denotes (h : ¬denotes c key) :
    (members ++ [(key, value)]).find? (fun member => denotes c member.1) =
      members.find? fun member => denotes c member.1 := by
  rw [List.find?_append, List.find?_singleton, if_neg h, Option.or_none]

/-- A member whose key does not denote a count changes nothing for it. -/
theorem countValue?_append_of_ne (hkey : key ≠ canonicalKey c) (h : ¬denotes c key) :
    countValue? (members ++ [(key, value)]) c = countValue? members c := by
  rw [countValue?, countValue?, lookup_append_of_ne hkey, find?_append_of_not_denotes h]

/-- The canonical key of a count decides its value wherever it stands. -/
theorem countValue?_append_canonical (hnew : canonicalKey c ∉ members.map (·.1)) :
    countValue? (members ++ [(canonicalKey c, value)]) c = some value := by
  rw [countValue?, Json.lookup, List.find?_append, find?_key_eq_none hnew, Option.none_or,
    List.find?_singleton, if_pos (beq_self_eq_true _)]
  rfl

/-- Another key of a count gives its value only if there is none yet. -/
theorem countValue?_append_other (hkey : key ≠ canonicalKey c) (h : denotes c key) :
    countValue? (members ++ [(key, value)]) c = (countValue? members c).or (some value) := by
  rw [countValue?, countValue?, lookup_append_of_ne hkey, List.find?_append, List.find?_singleton,
    if_pos h, Option.map_or, Option.or_assoc]
  rfl

end Members

/-! ### The table of an object -/

theorem eq_string_of_string? {value : Json.Value} {text : String} (h : value.string? = some text) :
    value = .string text := by
  cases value with
  | string s => rw [Option.some.inj h]
  | _ => cases h

/-- What a member does to the table of the members before it. -/
theorem addCount?_eq_some {t u : Counts String} {key : String} {value : Json.Value}
    (h : addCount? t (key, value) = some u) : ∃ text, value = .string text ∧
      ((key = nthKey ∧ u = t) ∨ ∃ count, Number.ofDecimal? key.toList = some count ∧
        u = if isCanonicalKey key then t.insert count text else t.insertIfNew count text) := by
  rw [addCount?] at h
  obtain ⟨text, htext, h⟩ := Option.bind_eq_some_iff.1 h
  refine ⟨text, eq_string_of_string? htext, ?_⟩
  by_cases hnth : key = nthKey
  · rw [if_pos hnth] at h
    exact Or.inl ⟨hnth, (Option.some.inj h).symm⟩
  · rw [if_neg hnth] at h
    obtain ⟨count, hcount, h⟩ := Option.bind_eq_some_iff.1 h
    exact Or.inr ⟨count, (Option.filter_eq_some_iff.1 hcount).1, (Option.some.inj h).symm⟩

/-- One more member keeps table and members in step. -/
theorem get?_addCount? {t u : Counts String} {members : List (String × Json.Value)} {key : String}
    {value : Json.Value} {c : Int} (hnew : key ∉ members.map (·.1))
    (ht : (t.get? c).map Json.Value.string = countValue? members c)
    (h : addCount? t (key, value) = some u) :
    (u.get? c).map Json.Value.string = countValue? (members ++ [(key, value)]) c := by
  obtain ⟨text, rfl, ⟨rfl, rfl⟩ | ⟨count, hcount, rfl⟩⟩ := addCount?_eq_some h
  · rw [countValue?_append_of_ne (nthKey_ne_canonicalKey c) (not_denotes rfl c), ht]
  · by_cases hc : (count : Int) = c
    · subst hc
      by_cases hcanonical : isCanonicalKey key
      · rw [if_pos hcanonical, Counts.get?_insert]
        cases eq_canonicalKey hcount hcanonical
        rw [countValue?_append_canonical hnew]
        rfl
      · have hkey : key ≠ canonicalKey count := by
          rintro rfl
          exact hcanonical (isCanonicalKey_canonicalKey count)
        rw [if_neg hcanonical, Counts.get?_insertIfNew,
          countValue?_append_other hkey ((denotes_iff hcount).2 rfl), ← ht]
        cases t.get? count with
        | none => rfl
        | some old => rfl
    · have hkey : key ≠ canonicalKey c := by
        rintro rfl
        exact hc (eq_of_ofDecimal?_canonicalKey hcount)
      rw [countValue?_append_of_ne hkey fun hdenotes => hc ((denotes_iff hcount).1 hdenotes), ← ht]
      by_cases hcanonical : isCanonicalKey key
      · rw [if_pos hcanonical, Counts.get?_insert_of_ne _ _ hc]
      · rw [if_neg hcanonical, Counts.get?_insertIfNew_of_ne _ _ hc]

/-- The table of an object holds, for each integer, the text of the member that stands for it. -/
theorem get?_foldlM_addCount? {members : List (String × Json.Value)} {t : Counts String} (c : Int)
    (hkeys : (members.map (·.1)).Nodup) (h : members.foldlM addCount? .empty = some t) :
    (t.get? c).map Json.Value.string = countValue? members c := by
  -- on the last member, which is added to the table of those before it
  induction members using List.reverseRecOn generalizing t with
  | nil =>
      cases h
      rfl
  | append_singleton members member ih =>
      obtain ⟨key, value⟩ := member
      rw [List.map_append, List.nodup_append] at hkeys
      obtain ⟨hinit, -, hnew⟩ := hkeys
      rw [List.foldlM_append] at h
      obtain ⟨before, hbefore, hlast⟩ := Option.bind_eq_some_iff.1 h
      rw [List.foldlM_cons] at hlast
      obtain ⟨u, hu, hrest⟩ := Option.bind_eq_some_iff.1 hlast
      cases hrest
      refine get?_addCount? (fun hmem => ?_) (ih hinit hbefore) hu
      exact hnew key hmem key (List.mem_singleton_self _) rfl

/-! ### Shapes -/

/-- The two members that are looked up are all that an object of boolean forms has. -/
theorem choice?_eq_some {members : List (String × Json.Value)} {shape : Shape}
    (h : choice? members = some shape) : ∃ whenTrue whenFalse, shape = .choice whenTrue whenFalse ∧
      members.Perm [("true", .string whenTrue), ("false", .string whenFalse)] := by
  rw [choice?] at h
  obtain ⟨_, hlength, h⟩ := Option.bind_eq_some_iff.1 h
  obtain ⟨valueTrue, hlookupTrue, h⟩ := Option.bind_eq_some_iff.1 h
  obtain ⟨whenTrue, htextTrue, h⟩ := Option.bind_eq_some_iff.1 h
  obtain ⟨valueFalse, hlookupFalse, h⟩ := Option.bind_eq_some_iff.1 h
  obtain ⟨whenFalse, htextFalse, h⟩ := Option.bind_eq_some_iff.1 h
  have htrue := Json.mem_of_lookup hlookupTrue
  have hfalse := Json.mem_of_lookup hlookupFalse
  rw [eq_string_of_string? htextTrue] at htrue
  rw [eq_string_of_string? htextFalse] at hfalse
  have htwo : members.length = 2 := by
    by_contra hne
    rw [guard, if_neg hne] at hlength
    cases hlength
  have hsub : [("true", .string whenTrue), ("false", .string whenFalse)] ⊆ members := by
    simp [htrue, hfalse]
  have hperm := (List.subperm_of_subset (by simp) hsub).perm_of_length_le (by simp [htwo])
  exact ⟨whenTrue, whenFalse, (Option.some.inj h).symm, hperm.symm⟩

theorem plural?_eq_some {members : List (String × Json.Value)} {shape : Shape}
    (h : plural? members = some shape) : ∃ counts nth, shape = .plural counts nth ∧
      members.foldlM addCount? .empty = some counts ∧
      Json.lookup members nthKey = some (.string nth) := by
  rw [plural?] at h
  obtain ⟨value, hvalue, h⟩ := Option.bind_eq_some_iff.1 h
  obtain ⟨nth, hnth, h⟩ := Option.bind_eq_some_iff.1 h
  obtain ⟨counts, hcounts, h⟩ := Option.bind_eq_some_iff.1 h
  rw [eq_string_of_string? hnth] at hvalue
  exact ⟨counts, nth, (Option.some.inj h).symm, hcounts, hvalue⟩

/-- An object has the shape of the first test that it passes, and is plain if it passes none. -/
theorem ofMembers_cases (members : List (String × Json.Value)) :
    (∃ counts nth, ofMembers members = .plural counts nth ∧
      members.foldlM addCount? .empty = some counts ∧
      Json.lookup members nthKey = some (.string nth)) ∨
    (∃ whenTrue whenFalse, ofMembers members = .choice whenTrue whenFalse ∧
      members.Perm [("true", .string whenTrue), ("false", .string whenFalse)]) ∨
    ofMembers members = .plain ∧ plural? members = none ∧ choice? members = none := by
  rw [ofMembers]
  cases hplural : plural? members with
  | some shape =>
      obtain ⟨counts, nth, rfl, hmembers⟩ := plural?_eq_some hplural
      exact Or.inl ⟨counts, nth, rfl, hmembers⟩
  | none =>
      cases hchoice : choice? members with
      | some shape =>
          obtain ⟨whenTrue, whenFalse, rfl, hperm⟩ := choice?_eq_some hchoice
          exact Or.inr (Or.inl ⟨whenTrue, whenFalse, rfl, hperm⟩)
      | none => exact Or.inr (Or.inr ⟨rfl, rfl, rfl⟩)

theorem plural?_of_ofMembers {members : List (String × Json.Value)} {counts : Counts String}
    {nth : String} (h : ofMembers members = .plural counts nth) :
    members.foldlM addCount? .empty = some counts ∧
      Json.lookup members nthKey = some (.string nth) := by
  rcases ofMembers_cases members with ⟨_, _, hshape, hmembers⟩ | ⟨_, _, hshape, _⟩ | ⟨hshape, _⟩
  · cases hshape.symm.trans h
    exact hmembers
  · cases hshape.symm.trans h
  · cases hshape.symm.trans h

theorem perm_of_ofMembers {members : List (String × Json.Value)} {whenTrue whenFalse : String}
    (h : ofMembers members = .choice whenTrue whenFalse) :
    members.Perm [("true", .string whenTrue), ("false", .string whenFalse)] := by
  rcases ofMembers_cases members with ⟨_, _, hshape, _⟩ | ⟨_, _, hshape, hperm⟩ | ⟨hshape, _⟩
  · cases hshape.symm.trans h
  · cases hshape.symm.trans h
    exact hperm
  · cases hshape.symm.trans h

theorem choice?_of_ofMembers {members : List (String × Json.Value)} {whenTrue whenFalse : String}
    (h : ofMembers members = .choice whenTrue whenFalse) :
    Json.lookup members "true" = some (.string whenTrue) ∧
      Json.lookup members "false" = some (.string whenFalse) := by
  have hperm := perm_of_ofMembers h
  have hkeys : (members.map (·.1)).Nodup := (hperm.map (·.1)).nodup_iff.2 (by simp)
  exact ⟨Json.lookup_of_mem hkeys (hperm.mem_iff.2 (by simp)),
    Json.lookup_of_mem hkeys (hperm.mem_iff.2 (by simp))⟩

/-- An object of plural forms has a text for every integer: what its table holds, or else the text
for all other counts. -/
theorem pluralSource?_of_plural {members : List (String × Json.Value)} {counts : Counts String}
    {nth : String} (c : Int) (hkeys : (members.map (·.1)).Nodup)
    (h : ofMembers members = .plural counts nth) :
    pluralSource? members c = some (.string ((counts.get? c).getD nth)) := by
  obtain ⟨htable, hnth⟩ := plural?_of_ofMembers h
  rw [pluralSource?, ← get?_foldlM_addCount? c hkeys htable, hnth]
  cases counts.get? c with
  | none => rfl
  | some text => rfl

/-! ### What can be added to a table -/

/-- A key that names a count: decimal digits, zeros in front allowed, of a number below `2 ^ 64`. -/
def NamesCount (key : String) : Prop :=
  key.toList ≠ [] ∧ (∀ c ∈ key.toList, c.isDigit) ∧ Nat.ofDigitChars 10 key.toList 0 < 2 ^ (64 : Nat)

theorem countOfKey?_isSome_iff {key : String} : (countOfKey? key).isSome ↔ NamesCount key := by
  rw [Option.isSome_iff_exists]
  constructor
  · rintro ⟨n, hn⟩
    rw [countOfKey?, Option.filter_eq_some_iff, Number.ofDecimal?_eq_some] at hn
    obtain ⟨⟨hne, hdigits, rfl⟩, hlt⟩ := hn
    exact ⟨hne, hdigits, of_decide_eq_true hlt⟩
  · rintro ⟨hne, hdigits, hlt⟩
    refine ⟨Nat.ofDigitChars 10 key.toList 0, ?_⟩
    rw [countOfKey?, Option.filter_eq_some_iff, Number.ofDecimal?_eq_some]
    exact ⟨⟨hne, hdigits, rfl⟩, decide_eq_true hlt⟩

theorem string?_isSome_iff {value : Json.Value} :
    value.string?.isSome ↔ ∃ text, value = .string text := by
  cases value with
  | string text => exact ⟨fun _ => ⟨text, rfl⟩, fun _ => rfl⟩
  | _ => simp [Json.Value.string?]

/-- Whether a member can be added does not depend on the table. -/
theorem addCount?_isSome_iff {t : Counts String} {key : String} {value : Json.Value} :
    (addCount? t (key, value)).isSome ↔
      (∃ text, value = .string text) ∧ (key ≠ nthKey → NamesCount key) := by
  rw [← string?_isSome_iff, ← countOfKey?_isSome_iff, addCount?]
  cases value.string? with
  | none => simp
  | some text =>
      by_cases hnth : key = nthKey
      · simp [hnth]
      · cases countOfKey? key <;> simp [hnth]

theorem foldlM_addCount?_isSome_iff {members : List (String × Json.Value)} {t : Counts String} :
    (members.foldlM addCount? t).isSome ↔ ∀ member ∈ members,
      (∃ text, member.2 = .string text) ∧ (member.1 ≠ nthKey → NamesCount member.1) := by
  induction members generalizing t with
  | nil => simp
  | cons member members ih =>
      obtain ⟨key, value⟩ := member
      rw [List.foldlM_cons, List.forall_mem_cons, ← addCount?_isSome_iff (t := t)]
      cases addCount? t (key, value) with
      | none => simp
      | some u => simpa using ih

theorem of_foldlM_addCount? {members : List (String × Json.Value)} {t u : Counts String}
    (h : members.foldlM addCount? t = some u) : ∀ member ∈ members,
      (∃ text, member.2 = .string text) ∧ (member.1 ≠ nthKey → NamesCount member.1) :=
  foldlM_addCount?_isSome_iff.1 (Option.isSome_iff_exists.2 ⟨u, h⟩)

/-- An object that is no group of entries holds nothing but texts. -/
theorem string_of_ne_plain {members : List (String × Json.Value)} (h : ofMembers members ≠ .plain) :
    ∀ member ∈ members, ∃ text, member.2 = .string text := by
  rcases ofMembers_cases members with ⟨_, _, _, htable, _⟩ | ⟨whenTrue, whenFalse, _, hperm⟩ | ⟨hplain, _⟩
  · exact fun member hmember => (of_foldlM_addCount? htable member hmember).1
  · intro member hmember
    rcases List.mem_pair.1 (hperm.mem_iff.1 hmember) with rfl | rfl
    · exact ⟨whenTrue, rfl⟩
    · exact ⟨whenFalse, rfl⟩
  · exact absurd hplain h

end Phrasebook.Shape
