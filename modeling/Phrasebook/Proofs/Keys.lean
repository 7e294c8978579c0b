import Mathlib.Data.List.Nodup
import Phrasebook.Json.Value

/-!
Lists of pairs that are looked up by their first components. When no key occurs twice, every search
for a key finds the one pair that has it.
-/

namespace Phrasebook

section Keys

variable {α β : Type} [BEq α] [LawfulBEq α] {pairs : List (α × β)} {key : α} {value : β}

/-- A search for a key finds the pair of that key. -/
theorem find?_key_of_mem (hkeys : (pairs.map (·.1)).Nodup) (h : (key, value) ∈ pairs) :
    pairs.find? (·.1 == key) = some (key, value) := by
  cases hfind : pairs.find? (·.1 == key) with
  | none => exact absurd (beq_self_eq_true key) (List.find?_eq_none.1 hfind _ h)
  | some found =>
      have hmem := List.mem_of_find?_eq_some hfind
      have hkey : found.1 = key := by simpa using List.find?_some hfind
      rw [List.inj_on_of_nodup_map hkeys hmem h hkey]

theorem find?_key_reverse_of_mem (hkeys : (pairs.map (·.1)).Nodup) (h : (key, value) ∈ pairs) :
    pairs.reverse.find? (·.1 == key) = some (key, value) := by
  refine find?_key_of_mem ?_ (List.mem_reverse.2 h)
  rw [List.map_reverse]
  exact List.nodup_reverse.2 hkeys

theorem find?_key_eq_none (h : key ∉ pairs.map (·.1)) : pairs.find? (·.1 == key) = none := by
  refine List.find?_eq_none.2 fun pair hpair hkey => h ?_
  rw [← eq_of_beq hkey]
  exact List.mem_map_of_mem hpair

/-- A new value for the pairs of a key changes what a search finds, but not where. -/
theorem find?_key_replace (pairs : List (α × β)) (key other : α) (value : β) :
    (pairs.map fun pair => if pair.1 == key then (key, value) else pair).find? (·.1 == other) =
      (pairs.find? (·.1 == other)).map fun pair => if pair.1 == key then (key, value) else pair := by
  rw [List.find?_map]
  congr 2
  funext pair
  by_cases hkey : pair.1 = key
  · simp [hkey]
  · simp [hkey]

end Keys

namespace Json

section Members

variable {α : Type} {members : List (String × α)} {key : String} {value : α}

theorem lookup_of_mem (hkeys : (members.map (·.1)).Nodup) (h : (key, value) ∈ members) :
    lookup members key = some value := by
  rw [lookup, find?_key_of_mem hkeys h]
  rfl

theorem mem_of_lookup (h : lookup members key = some value) : (key, value) ∈ members := by
  rw [lookup] at h
  obtain ⟨⟨found, other⟩, hfind, rfl⟩ := Option.map_eq_some_iff.1 h
  have hkey : found = key := by simpa using List.find?_some hfind
  rw [← hkey]
  exact List.mem_of_find?_eq_some hfind

theorem lookup_isSome_iff : (lookup members key).isSome ↔ key ∈ members.map (·.1) := by
  rw [lookup, Option.isSome_map, List.find?_isSome, List.mem_map]
  simp only [beq_iff_eq]

/-- When no key occurs twice, the order of the members does not matter to a lookup. -/
theorem lookup_eq_of_perm {other : List (String × α)} (hkeys : (members.map (·.1)).Nodup)
    (hperm : other.Perm members) (key : String) : lookup other key = lookup members key := by
  cases hlookup : lookup members key with
  | some value =>
      refine lookup_of_mem ?_ (hperm.mem_iff.2 (mem_of_lookup hlookup))
      exact (hperm.map (·.1)).nodup_iff.2 hkeys
  | none =>
      rw [← Option.not_isSome_iff_eq_none, lookup_isSome_iff] at hlookup ⊢
      rwa [(hperm.map (·.1)).mem_iff]

theorem lookup_map {β : Type} (f : α → β) (members : List (String × α)) (key : String) :
    lookup (members.map fun member => (member.1, f member.2)) key = (lookup members key).map f := by
  rw [lookup, lookup, List.find?_map, Option.map_map, Option.map_map]
  rfl

/-- A filter by keys keeps all keys exactly when it meets none that it drops. -/
theorem forall_mem_keys_filter_iff {dropped : String} :
    (∀ key, key ∈ (members.filter fun member => member.1 ≠ dropped).map (·.1) ↔
      key ∈ members.map (·.1)) ↔ dropped ∉ members.map (·.1) := by
  have hkeys : (members.filter fun member => member.1 ≠ dropped).map (·.1) =
      (members.map (·.1)).filter (· ≠ dropped) := by
    rw [List.filter_map]
    rfl
  simp only [hkeys, List.mem_filter, decide_eq_true_eq]
  constructor
  · intro hall hdropped
    exact ((hall dropped).2 hdropped).2 rfl
  · intro hdropped key
    rw [and_iff_left_iff_imp]
    rintro hkey rfl
    exact hdropped hkey

end Members

end Json

end Phrasebook
