import Mathlib.Data.Finset.Sort
import Mathlib.Order.Bounds.Basic
import Phrasebook.Proofs.Shape

/-!
The counts that an object of plural forms names. Several keys may denote one count, and the members may come
in any order; the table of the object has one entry for each count that some key denotes, in ascending order,
and its text is that of the member which stands for the count.
-/

namespace Phrasebook.Shape

-- Powers are those of core, also where other powers of natural numbers are in scope.
attribute [local instance (high)] instPowNat

/-- The counts that keys denote, each of them once, in ascending order. -/
def namedCounts (members : List (String × Json.Value)) : List Nat :=
  (members.filterMap fun member => Number.ofDecimal? member.1.toList).toFinset.sort

theorem mem_namedCounts {members : List (String × Json.Value)} {n : Nat} :
    n ∈ namedCounts members ↔ ∃ member ∈ members, Number.ofDecimal? member.1.toList = some n := by
  rw [namedCounts, Finset.mem_sort, List.mem_toFinset, List.mem_filterMap]

/-- A count has a value exactly when some key denotes it. -/
theorem isSome_countValue?_iff {members : List (String × Json.Value)} {n : Nat} :
    (countValue? members n).isSome ↔ n ∈ namedCounts members := by
  rw [mem_namedCounts, countValue?, Option.isSome_or, Bool.or_eq_true]
  constructor
  · rintro (hcanonical | hother)
    · obtain ⟨value, hvalue⟩ := Option.isSome_iff_exists.1 hcanonical
      refine ⟨_, Json.mem_of_lookup hvalue, ?_⟩
      rw [toList_canonicalKey]
      exact Number.ofDecimal?_decimalDigits n
    · rw [Option.isSome_map, List.find?_isSome] at hother
      obtain ⟨member, hmember, hdenotes⟩ := hother
      rw [denotes, Option.any_eq_true_iff_get] at hdenotes
      obtain ⟨hsome, heq⟩ := hdenotes
      refine ⟨member, hmember, ?_⟩
      rw [← Option.some_get hsome, Int.ofNat.inj (eq_of_beq heq)]
  · rintro ⟨member, hmember, hdenotes⟩
    right
    rw [Option.isSome_map, List.find?_isSome]
    exact ⟨member, hmember, (denotes_iff hdenotes).2 rfl⟩

end Phrasebook.Shape

namespace Phrasebook.Counts

variable {α : Type}

theorem mem_counts_iff {t : Counts α} {n : Nat} :
    n ∈ t.entries.map (·.1) ↔ (t.get? n).isSome := by
  rw [get?, lookup, Option.isSome_map, List.find?_isSome, List.mem_map]
  simp only [decide_eq_true_eq, Int.natCast_inj]

/-- The first entry with a count of some kind is that of the least such count. -/
theorem isLeast_of_find? {t : Counts α} {p : Nat → Bool} {m : Nat} {value : α}
    (h : t.entries.find? (fun entry => p entry.1) = some (m, value)) :
    IsLeast {n | n ∈ t.entries.map (·.1) ∧ p n} m ∧ t.get? m = some value := by
  have hmem := List.mem_of_find?_eq_some h
  obtain ⟨hm, before, after, hentries, hbefore⟩ := List.find?_eq_some_iff_append.1 h
  have hascending := t.ascending
  rw [hentries, List.pairwise_append, List.pairwise_cons] at hascending
  refine ⟨⟨⟨List.mem_map_of_mem hmem, hm⟩, ?_⟩, get?_of_mem hmem⟩
  rintro n ⟨hn, hpass⟩
  obtain ⟨entry, hentry, rfl⟩ := List.mem_map.1 hn
  rw [hentries, List.mem_append, List.mem_cons] at hentry
  rcases hentry with hentry | rfl | hentry
  · exact absurd hpass (by simpa using hbefore entry hentry)
  · exact Nat.le_refl _
  · exact Nat.le_of_lt (hascending.2.1.1 entry hentry)

end Phrasebook.Counts

namespace Phrasebook.Shape

section Plural

variable {members : List (String × Json.Value)} {counts : Counts String} {nth : String}
  (hkeys : (members.map (·.1)).Nodup) (h : ofMembers members = .plural counts nth)
include hkeys h

omit hkeys in
/-- The counts of plural forms are below `2 ^ 64`. -/
theorem lt_of_mem_namedCounts {n : Nat} (hn : n ∈ namedCounts members) : n < 2 ^ (64 : Nat) := by
  obtain ⟨⟨key, value⟩, hmember, hdenotes⟩ := mem_namedCounts.1 hn
  have hkey := (of_foldlM_addCount? (plural?_of_ofMembers h).1 _ hmember).2
  by_cases hnth : key = nthKey
  · have hnone : Number.ofDecimal? nthKey.toList = none := rfl
    rw [hnth, hnone] at hdenotes
    cases hdenotes
  · obtain ⟨-, -, hlt⟩ := hkey hnth
    obtain ⟨-, -, rfl⟩ := Number.ofDecimal?_eq_some.1 hdenotes
    exact hlt

/-- The table holds, for each count, the text of the member that stands for it. -/
theorem countValue?_eq_get? (c : Int) : countValue? members c = (counts.get? c).map .string :=
  (get?_foldlM_addCount? c hkeys (plural?_of_ofMembers h).1).symm

/-- The table has an entry for every count that some key denotes. -/
theorem counts_eq_namedCounts : counts.entries.map (·.1) = namedCounts members := by
  have hmem : ∀ n, n ∈ counts.entries.map (·.1) ↔ n ∈ namedCounts members := by
    intro n
    rw [Counts.mem_counts_iff, ← isSome_countValue?_iff, countValue?_eq_get? hkeys h, Option.isSome_map]
  have hascending : (counts.entries.map (·.1)).Pairwise (· < ·) := List.pairwise_map.2 counts.ascending
  have hsort := (List.toFinset_sort (· ≤ ·) hascending.nodup).2 (hascending.imp Nat.le_of_lt)
  rw [← hsort]
  unfold namedCounts
  congr 1
  ext n
  rw [List.mem_toFinset, hmem, namedCounts, Finset.mem_sort]

/-- The texts of the table in ascending order of the counts. -/
theorem map_values_eq : counts.values.map (fun s => some (.string s)) =
    (namedCounts members).map fun n : Nat => countValue? members n := by
  rw [← counts_eq_namedCounts hkeys h, Counts.values, List.map_map, List.map_map]
  refine List.map_congr_left fun entry hentry => ?_
  obtain ⟨n, s⟩ := entry
  rw [Function.comp, Function.comp, countValue?_eq_get? hkeys h, Counts.get?_of_mem hentry]
  rfl

end Plural

end Phrasebook.Shape
