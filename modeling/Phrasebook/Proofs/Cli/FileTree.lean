import Mathlib.Data.List.Basic
import Phrasebook.Cli.FileTree
import Phrasebook.Proofs.Keys

/-!
What the operations on a tree of files change. Making directories adds directories where nothing stood, on
the way to the one that is asked for, and changes nothing else; writing a file changes its own place. A
path that leads somewhere leads there still.
-/

namespace Phrasebook.Cli.FileTree

variable {tree earlier later made : FileTree} {place other : Location} {entry : FileEntry}
  {names : List String}

/-! ### Places -/

/-- A place that is not there whatever the tree lists. -/
def IsListed (place : Location) : Prop := ¬(place.all (· == "..") || place == ["/"])

theorem lookup_of_not_isListed (h : ¬IsListed place) (tree : FileTree) :
    tree.lookup place = some .directory := by
  rw [lookup, if_pos (Decidable.not_not.1 h)]

theorem isListed_of_ne (h : tree.lookup place ≠ some .directory) : IsListed place :=
  fun hroot => h (by rw [lookup, if_pos hroot])

theorem lookup_nil (tree : FileTree) : tree.lookup [] = some .directory := rfl

/-- The entry that a listed place has among the entries of a tree. -/
theorem lookup_of_isListed (h : IsListed place) (tree : FileTree) :
    tree.lookup place = (tree.entries.find? (·.1 == place)).map (·.2) := by
  rw [lookup, if_neg h]

theorem lookup_set (h : IsListed place) (tree : FileTree) (entry : FileEntry) :
    (tree.set place entry).lookup place = some entry := by
  rw [lookup_of_isListed h, set]
  dsimp only
  by_cases hany : tree.entries.any (·.1 == place)
  · obtain ⟨old, hold, hplace⟩ := List.any_eq_true.1 hany
    rw [if_pos hany, find?_key_replace]
    cases hfind : tree.entries.find? (·.1 == place) with
    | none => exact absurd hplace (List.find?_eq_none.1 hfind old hold)
    | some found =>
        have hfound : found.1 = place := by simpa using List.find?_some hfind
        rw [Option.map_some, if_pos (beq_iff_eq.2 hfound)]
        rfl
  · have hnone : tree.entries.find? (·.1 == place) = none :=
      List.find?_eq_none.2 fun old hold hplace => hany (List.any_eq_true.2 ⟨old, hold, hplace⟩)
    rw [if_neg hany, List.find?_append, hnone]
    simp

theorem lookup_set_of_ne (h : other ≠ place) (tree : FileTree) (entry : FileEntry) :
    (tree.set place entry).lookup other = tree.lookup other := by
  by_cases hother : IsListed other
  · rw [lookup_of_isListed hother, lookup_of_isListed hother, set]
    dsimp only
    by_cases hany : tree.entries.any (·.1 == place)
    · rw [if_pos hany, find?_key_replace]
      cases hfind : tree.entries.find? (·.1 == other) with
      | none => rfl
      | some found =>
          have hfound : found.1 = other := by simpa using List.find?_some hfind
          have hne : ¬(found.1 == place) := by
            rw [hfound, beq_iff_eq]
            exact h
          rw [Option.map_some, if_neg hne]
    · have hnone : [(place, entry)].find? (·.1 == other) = none := by simp [h.symm]
      rw [if_neg hany, List.find?_append, hnone, Option.or_none]
  · rw [lookup_of_not_isListed hother, lookup_of_not_isListed hother]

/-! ### Ways through a tree -/

/-- Names lead where they led as long as all directories are still there. -/
theorem resolve_of_directories
    (hdirectories : ∀ place, earlier.lookup place = some .directory → later.lookup place = some .directory)
    (h : earlier.resolve names place = .ok other) : later.resolve names place = .ok other := by
  induction names generalizing place with
  | nil => exact h
  | cons name names ih =>
      rw [resolve] at h ⊢
      cases hplace : earlier.lookup place with
      | none =>
          rw [hplace] at h
          cases h
      | some entry =>
          cases entry with
          | file content =>
              rw [hplace] at h
              cases h
          | directory =>
              rw [hplace] at h
              rw [hdirectories place hplace]
              exact ih h

/-- A tree with more directories than an earlier one, which stand where nothing stood and are on the way
that names lead. -/
def Extends (names : List String) (earlier later : FileTree) : Prop :=
  ∀ place, later.lookup place = earlier.lookup place ∨
    earlier.lookup place = none ∧ later.lookup place = some .directory ∧
      ∃ way, way <+: names ∧ later.resolve way [] = .ok place

namespace Extends

theorem refl (names : List String) (tree : FileTree) : Extends names tree tree := fun _ => Or.inl rfl

theorem lookup_eq_some (h : Extends names earlier later) (hplace : earlier.lookup place = some entry) :
    later.lookup place = some entry := by
  rcases h place with hsame | ⟨hnone, -, -⟩
  · rw [hsame, hplace]
  · rw [hnone] at hplace
    cases hplace

theorem resolve (h : Extends names earlier later) {way : List String}
    (hway : earlier.resolve way place = .ok other) : later.resolve way place = .ok other :=
  resolve_of_directories (fun _ => h.lookup_eq_some) hway

/-- The files are the same. -/
theorem lookup_file_iff (h : Extends names earlier later) (content : ByteArray) :
    later.lookup place = some (.file content) ↔ earlier.lookup place = some (.file content) := by
  refine ⟨fun hlater => ?_, h.lookup_eq_some⟩
  rcases h place with hsame | ⟨-, hdirectory, -⟩
  · rw [← hsame, hlater]
  · rw [hlater] at hdirectory
    cases hdirectory

theorem mono (h : Extends names earlier later) {further : List String} (hnames : names <+: further) :
    Extends further earlier later := by
  intro place
  rcases h place with hsame | ⟨hnone, hdirectory, way, hway, hresolve⟩
  · exact Or.inl hsame
  · exact Or.inr ⟨hnone, hdirectory, way, hway.trans hnames, hresolve⟩

theorem trans (h : Extends names earlier made) (hlater : Extends names made later) :
    Extends names earlier later := by
  intro place
  rcases h place with hsame | ⟨hnone, hdirectory, way, hway, hresolve⟩
  · rw [← hsame]
    exact hlater place
  · exact Or.inr ⟨hnone, hlater.lookup_eq_some hdirectory, way, hway, hlater.resolve hresolve⟩

end Extends

/-! ### Making directories -/

theorem makeDirectory_eq_ok {path : List String} (h : tree.makeDirectory path = .ok made) :
    Extends path tree made ∧
      ∃ place, made.resolve path [] = .ok place ∧ made.lookup place = some .directory := by
  rw [makeDirectory] at h
  cases hresolve : tree.resolve path [] with
  | error e =>
      rw [hresolve] at h
      cases h
  | ok place =>
      rw [hresolve] at h
      cases hplace : tree.lookup place with
      | none =>
          simp only [bind, Except.bind, hplace] at h
          cases h
          have hlisted : IsListed place := isListed_of_ne (by rw [hplace]; simp)
          have hset := lookup_set hlisted tree .directory
          have hsame : ∀ other, other ≠ place →
              (tree.set place .directory).lookup other = tree.lookup other :=
            fun other hother => lookup_set_of_ne hother tree .directory
          have hway : (tree.set place .directory).resolve path [] = .ok place := by
            refine resolve_of_directories (fun other hother => ?_) hresolve
            by_cases heq : other = place
            · rw [heq, hset]
            · rw [hsame other heq, hother]
          refine ⟨fun other => ?_, place, hway, hset⟩
          by_cases heq : other = place
          · subst heq
            exact Or.inr ⟨hplace, hset, path, List.prefix_rfl, hway⟩
          · exact Or.inl (hsame other heq)
      | some entry =>
          cases entry with
          | file content =>
              simp only [bind, Except.bind, hplace] at h
              cases h
          | directory =>
              simp only [bind, Except.bind, hplace] at h
              cases h
              exact ⟨.refl _ _, place, hresolve, hplace⟩

/-- An attempt to make a directory, after which it is there unless the attempt failed. -/
theorem attempt_makeDirectory (tree : FileTree) (path : List String) :
    Extends path tree (tree.attempt (tree.makeDirectory path)).1 ∧
      ((tree.attempt (tree.makeDirectory path)).2 = none → ∃ place,
        (tree.attempt (tree.makeDirectory path)).1.resolve path [] = .ok place ∧
        (tree.attempt (tree.makeDirectory path)).1.lookup place = some .directory) := by
  cases hmake : tree.makeDirectory path with
  | error e => exact ⟨.refl _ _, fun h => by cases h⟩
  | ok made =>
      obtain ⟨hextends, hthere⟩ := makeDirectory_eq_ok hmake
      exact ⟨hextends, fun _ => hthere⟩

/-- Making directories adds those that are missing on the way, and unless it fails the way then leads to a
directory. -/
theorem makeDirectories_spec (tree : FileTree) (above : List String) :
    Extends above.reverse tree (tree.makeDirectories above).1 ∧
      ((tree.makeDirectories above).2 = none → ∃ place,
        (tree.makeDirectories above).1.resolve above.reverse [] = .ok place ∧
        (tree.makeDirectories above).1.lookup place = some .directory) := by
  induction above with
  | nil => exact ⟨.refl _ _, fun _ => ⟨[], rfl, lookup_nil tree⟩⟩
  | cons name above ih =>
      have hattempt := attempt_makeDirectory tree (name :: above).reverse
      rw [makeDirectories]
      split
      · -- a directory above is missing as well
        have hprefix : above.reverse <+: (name :: above).reverse := by
          rw [List.reverse_cons]
          exact List.prefix_append _ _
        split
        · rename_i made habove
          rw [habove] at ih
          obtain ⟨hextends, hthere⟩ := attempt_makeDirectory made (name :: above).reverse
          exact ⟨(ih.1.mono hprefix).trans hextends, hthere⟩
        · rename_i hfailed
          refine ⟨ih.1.mono hprefix, fun hnone => ?_⟩
          exact (hfailed _ (Prod.ext rfl hnone)).elim
      · exact hattempt

/-! ### Writing -/

/-- Whether a text can be written does not depend on the text. -/
theorem writeText_eq_error {path text : String} {e : FileError} (h : tree.writeText path text = .error e)
    (other : String) : tree.writeText path other = .error e := by
  rw [writeText] at h ⊢
  cases hresolve : tree.resolve (FilePath.names path) [] with
  | error cause =>
      rw [hresolve] at h
      exact h
  | ok place =>
      rw [hresolve] at h
      change (if FilePath.closesWithSlash path || tree.isDirectory place then _ else _) = _ at h ⊢
      split_ifs at h with hdirectory
      exact (if_pos hdirectory).trans h

theorem fromUTF8?_toUTF8 (text : String) : String.fromUTF8? text.toUTF8 = some text :=
  dif_pos text.isValidUTF8

theorem lookup_ne_of_not_isDirectory (h : ¬tree.isDirectory place) :
    tree.lookup place ≠ some .directory := by
  intro hplace
  rw [isDirectory, hplace] at h
  exact h rfl

/-- A text is written where no directory stands, and is read back from there; all other places stay as they
are. -/
theorem writeText_eq_ok {path text : String} (h : tree.writeText path text = .ok later) :
    later.readText path = .ok text ∧ ∃ place,
      later.resolve (FilePath.names path) [] = .ok place ∧
      tree.lookup place ≠ some .directory ∧ later.lookup place = some (.file text.toUTF8) ∧
      (∀ other, other ≠ place → later.lookup other = tree.lookup other) ∧
      ∀ way other, tree.resolve way [] = .ok other → later.resolve way [] = .ok other := by
  rw [writeText] at h
  cases hresolve : tree.resolve (FilePath.names path) [] with
  | error e =>
      rw [hresolve] at h
      cases h
  | ok place =>
      rw [hresolve] at h
      change (if FilePath.closesWithSlash path || tree.isDirectory place then _ else _) = _ at h
      split_ifs at h with hdirectory
      cases h
      rw [Bool.or_eq_true, not_or] at hdirectory
      obtain ⟨hslash, hplace⟩ := hdirectory
      have hne := lookup_ne_of_not_isDirectory hplace
      have hset := lookup_set (isListed_of_ne hne) tree (.file text.toUTF8)
      have hsame : ∀ other, other ≠ place →
          (tree.set place (.file text.toUTF8)).lookup other = tree.lookup other :=
        fun other hother => lookup_set_of_ne hother tree _
      have hways : ∀ way other, tree.resolve way [] = .ok other →
          (tree.set place (.file text.toUTF8)).resolve way [] = .ok other := by
        intro way other hway
        refine resolve_of_directories (fun directory hdirectory => ?_) hway
        rw [hsame directory, hdirectory]
        rintro rfl
        exact hne hdirectory
      refine ⟨?_, place, hways _ _ hresolve, hne, hset, hsame, hways⟩
      rw [readText, hways _ _ hresolve]
      simp only [bind, Except.bind, hset]
      rw [if_neg hslash, fromUTF8?_toUTF8]

end Phrasebook.Cli.FileTree
