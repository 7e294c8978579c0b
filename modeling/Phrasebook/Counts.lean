/-!
Tables from counts to values, kept in ascending order of the counts, so that each count has at most
one value and equal tables are written alike.
-/

namespace Phrasebook

/-- Entries in ascending order of their counts. -/
structure Counts (α : Type) where
  entries : List (Nat × α)
  ascending : entries.Pairwise (·.1 < ·.1)

namespace Counts

variable {α β : Type}

@[ext]
theorem ext_entries {t u : Counts α} (h : t.entries = u.entries) : t = u := by
  cases t; cases u; cases h; rfl

def empty : Counts α := ⟨[], .nil⟩

/-- Puts an entry in its place; `keep` tells whether a value that is there already stays. -/
def place (keep : Bool) (count : Nat) (value : α) : List (Nat × α) → List (Nat × α)
  | [] => [(count, value)]
  | (n, old) :: rest =>
    if count < n then (count, value) :: (n, old) :: rest
    else if count = n then (n, if keep then old else value) :: rest
    else (n, old) :: place keep count value rest

theorem mem_place_fst {keep : Bool} {count : Nat} {value : α} {entries : List (Nat × α)}
    {entry : Nat × α} (h : entry ∈ place keep count value entries) :
    entry.1 = count ∨ entry.1 ∈ entries.map (·.1) := by
  induction entries with
  | nil => simp_all [place]
  | cons head rest ih =>
    simp only [place] at h
    split at h
    · simp only [List.mem_cons] at h
      rcases h with rfl | rfl | h
      · exact .inl rfl
      · exact .inr (by simp)
      · exact .inr (List.mem_map.2 ⟨entry, .tail _ h, rfl⟩)
    · split at h
      · simp only [List.mem_cons] at h
        rcases h with rfl | h
        · exact .inr (by simp)
        · exact .inr (List.mem_map.2 ⟨entry, .tail _ h, rfl⟩)
      · simp only [List.mem_cons] at h
        rcases h with rfl | h
        · exact .inr (by simp)
        · rcases ih h with h | h
          · exact .inl h
          · exact .inr (.tail _ h)

theorem ascending_place {keep : Bool} {count : Nat} {value : α} {entries : List (Nat × α)}
    (h : entries.Pairwise (·.1 < ·.1)) :
    (place keep count value entries).Pairwise (·.1 < ·.1) := by
  induction entries with
  | nil => simp [place]
  | cons head rest ih =>
    obtain ⟨hlt, hrest⟩ := List.pairwise_cons.1 h
    simp only [place]
    split
    · rename_i hcount
      refine List.pairwise_cons.2 ⟨fun entry hentry => ?_, h⟩
      rcases List.mem_cons.1 hentry with rfl | hentry
      · exact hcount
      · exact Nat.lt_trans hcount (hlt entry hentry)
    · split
      · exact List.pairwise_cons.2 ⟨fun entry hentry => hlt entry hentry, hrest⟩
      · rename_i hle hne
        refine List.pairwise_cons.2 ⟨fun entry hentry => ?_, ih hrest⟩
        rcases mem_place_fst hentry with heq | hmem
        · simp only [heq]
          omega
        · obtain ⟨other, hother, heq⟩ := List.mem_map.1 hmem
          rw [← heq]
          exact hlt other hother

def insert (t : Counts α) (count : Nat) (value : α) : Counts α :=
  ⟨place false count value t.entries, ascending_place t.ascending⟩

/-- Sets the value of a count that has none yet. -/
def insertIfNew (t : Counts α) (count : Nat) (value : α) : Counts α :=
  ⟨place true count value t.entries, ascending_place t.ascending⟩

def map (f : α → β) (t : Counts α) : Counts β where
  entries := t.entries.map fun (count, value) => (count, f value)
  ascending := List.pairwise_map.2 t.ascending

/-- The values in ascending order of their counts. -/
def values (t : Counts α) : List α := t.entries.map (·.2)

end Counts

end Phrasebook
