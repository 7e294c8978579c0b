import Mathlib.Data.List.Basic
import Phrasebook.Counts

/-!
What a table of counts holds. A table is looked up with any integer, as a script compares a count
with any number; putting an entry in its place changes what its own count finds and nothing else.
-/

namespace Phrasebook.Counts

variable {α β : Type}

/-- The value for a count among entries. -/
def lookup (entries : List (Nat × α)) (c : Int) : Option α :=
  (entries.find? fun entry => (entry.1 : Int) = c).map (·.2)

/-- The value that a table holds for a count. -/
def get? (t : Counts α) (c : Int) : Option α := lookup t.entries c

theorem lookup_cons_self (n : Nat) (value : α) (rest : List (Nat × α)) :
    lookup ((n, value) :: rest) n = some value := by
  rw [lookup, List.find?_cons_of_pos (by simp)]
  rfl

theorem lookup_cons_of_ne {n : Nat} {c : Int} (value : α) (rest : List (Nat × α)) (h : (n : Int) ≠ c) :
    lookup ((n, value) :: rest) c = lookup rest c := by
  rw [lookup, List.find?_cons_of_neg (by simpa using h)]
  rfl

theorem lookup_eq_none {entries : List (Nat × α)} {c : Int} (h : ∀ entry ∈ entries, (entry.1 : Int) ≠ c) :
    lookup entries c = none := by
  rw [lookup, List.find?_eq_none.2 fun entry hentry => by simpa using h entry hentry]
  rfl

/-- The value that a count has after an entry is put in its place. -/
theorem lookup_place (keep : Bool) (count : Nat) (value : α) {entries : List (Nat × α)}
    (h : entries.Pairwise (·.1 < ·.1)) :
    lookup (place keep count value entries) count =
      some (if keep then (lookup entries count).getD value else value) := by
  induction entries with
  | nil =>
      rw [place, lookup_cons_self]
      cases keep with
      | true => rfl
      | false => rfl
  | cons head rest ih =>
      obtain ⟨n, old⟩ := head
      obtain ⟨hlt, hrest⟩ := List.pairwise_cons.1 h
      rw [place]
      by_cases hbefore : count < n
      · have hnone : lookup ((n, old) :: rest) count = none := by
          refine lookup_eq_none fun entry hentry => ?_
          rcases List.mem_cons.1 hentry with rfl | hentry
          · have : count < n := hbefore
            simp only
            omega
          · have := hlt entry hentry
            simp only at this
            omega
        rw [if_pos hbefore, lookup_cons_self, hnone]
        cases keep with
        | true => rfl
        | false => rfl
      · rw [if_neg hbefore]
        by_cases heq : count = n
        · subst heq
          rw [if_pos rfl, lookup_cons_self, lookup_cons_self]
          rfl
        · have hne : (n : Int) ≠ count := by omega
          rw [if_neg heq, lookup_cons_of_ne _ _ hne, lookup_cons_of_ne _ _ hne, ih hrest]

theorem lookup_place_of_ne (keep : Bool) {count : Nat} (value : α) {entries : List (Nat × α)} {c : Int}
    (hne : (count : Int) ≠ c) : lookup (place keep count value entries) c = lookup entries c := by
  induction entries with
  | nil => rw [place, lookup_cons_of_ne _ _ hne]
  | cons head rest ih =>
      obtain ⟨n, old⟩ := head
      rw [place]
      by_cases hbefore : count < n
      · rw [if_pos hbefore, lookup_cons_of_ne _ _ hne]
      · rw [if_neg hbefore]
        by_cases heq : count = n
        · subst heq
          rw [if_pos rfl, lookup_cons_of_ne _ _ hne, lookup_cons_of_ne _ _ hne]
        · rw [if_neg heq]
          by_cases hc : (n : Int) = c
          · subst hc
            rw [lookup_cons_self, lookup_cons_self]
          · rw [lookup_cons_of_ne _ _ hc, lookup_cons_of_ne _ _ hc, ih]

theorem get?_insert (t : Counts α) (count : Nat) (value : α) :
    (t.insert count value).get? count = some value :=
  lookup_place false count value t.ascending

theorem get?_insertIfNew (t : Counts α) (count : Nat) (value : α) :
    (t.insertIfNew count value).get? count = some ((t.get? count).getD value) :=
  lookup_place true count value t.ascending

theorem get?_insert_of_ne (t : Counts α) {count : Nat} (value : α) {c : Int} (h : (count : Int) ≠ c) :
    (t.insert count value).get? c = t.get? c :=
  lookup_place_of_ne false value h

theorem get?_insertIfNew_of_ne (t : Counts α) {count : Nat} (value : α) {c : Int}
    (h : (count : Int) ≠ c) : (t.insertIfNew count value).get? c = t.get? c :=
  lookup_place_of_ne true value h

theorem get?_of_mem {t : Counts α} {n : Nat} {value : α} (h : (n, value) ∈ t.entries) :
    t.get? n = some value := by
  have hlookup : ∀ entries : List (Nat × α), entries.Pairwise (·.1 < ·.1) → (n, value) ∈ entries →
      lookup entries n = some value := by
    intro entries hascending hmem
    induction entries with
    | nil => cases hmem
    | cons head rest ih =>
        obtain ⟨m, old⟩ := head
        obtain ⟨hlt, hrest⟩ := List.pairwise_cons.1 hascending
        rcases List.mem_cons.1 hmem with heq | hmem
        · cases heq
          exact lookup_cons_self n value rest
        · have hne : m < n := hlt _ hmem
          rw [lookup_cons_of_ne old rest (by omega), ih hrest hmem]
  exact hlookup t.entries t.ascending h

theorem mem_entries_iff {t : Counts α} {n : Nat} {value : α} :
    (n, value) ∈ t.entries ↔ t.get? n = some value := by
  refine ⟨get?_of_mem, fun h => ?_⟩
  obtain ⟨⟨m, found⟩, hfind, rfl⟩ := Option.map_eq_some_iff.1 h
  have hcount : (m : Int) = n := by simpa using List.find?_some hfind
  cases Int.ofNat.inj hcount
  exact List.mem_of_find?_eq_some hfind

/-- Tables that hold the same values are equal. -/
theorem ext_get? {t u : Counts α} (h : ∀ n : Nat, t.get? n = u.get? n) : t = u := by
  have hnodup : ∀ v : Counts α, v.entries.Nodup := by
    refine fun v => v.ascending.imp ?_
    rintro a _ hlt rfl
    exact Nat.lt_irrefl _ hlt
  have hperm : t.entries.Perm u.entries := by
    rw [List.perm_ext_iff_of_nodup (hnodup t) (hnodup u)]
    rintro ⟨n, value⟩
    rw [mem_entries_iff, mem_entries_iff, h]
  ext1
  exact hperm.eq_of_pairwise (fun _ _ _ _ hlt hgt => absurd hgt (Nat.lt_asymm hlt)) t.ascending u.ascending

theorem mem_values_of_get? {t : Counts α} {c : Int} {value : α} (h : t.get? c = some value) :
    value ∈ t.values := by
  obtain ⟨entry, hfind, rfl⟩ := Option.map_eq_some_iff.1 h
  exact List.mem_map_of_mem (List.mem_of_find?_eq_some hfind)

/-- No count is negative. -/
theorem get?_neg (t : Counts α) : t.get? (-1) = none :=
  lookup_eq_none fun entry _ => by omega

theorem get?_map (f : α → β) (t : Counts α) (c : Int) : (t.map f).get? c = (t.get? c).map f := by
  rw [get?, lookup, map, List.find?_map, Option.map_map, get?, lookup, Option.map_map]
  rfl

theorem values_map (f : α → β) (t : Counts α) : (t.map f).values = t.values.map f := by
  rw [values, values, map, List.map_map, List.map_map]
  rfl

end Phrasebook.Counts
