import Mathlib.Data.List.Perm.Subperm
import Mathlib.Data.List.TakeWhile
import Mathlib.Data.Set.Function
import Phrasebook.Proofs.Accessor.Identifiers

/-!
Which identifiers arguments get. The search for one goes on for no longer than there are identifiers
in its way. A reserved name gets as few low lines as make it different from the names of all arguments:
what earlier arguments have got is never in the way, since low lines in front of two reserved words
never make one identifier. So it does not matter in which order the arguments come.
-/

namespace Phrasebook

/-- A name with a number of low lines in front. -/
def lowLines (n : Nat) (name : String) : String := String.ofList (List.replicate n '_') ++ name

theorem toList_lowLines (n : Nat) (name : String) :
    (lowLines n name).toList = List.replicate n '_' ++ name.toList := by
  rw [lowLines, String.toList_append, String.toList_ofList]

theorem lowLines_zero (name : String) : lowLines 0 name = name := by
  apply String.toList_injective
  rw [toList_lowLines]
  rfl

theorem lowLines_lowLine (n : Nat) (name : String) :
    lowLines n ("_" ++ name) = lowLines (n + 1) name := by
  apply String.toList_injective
  rw [toList_lowLines, toList_lowLines, String.toList_append, List.replicate_succ', List.append_assoc]
  rfl

theorem lowLines_injective (name : String) : Function.Injective (lowLines · name) := by
  intro n m h
  have hlength := congrArg (fun s : String => s.toList.length) h
  simpa only [toList_lowLines, List.length_append, List.length_replicate, Nat.add_right_cancel_iff]
    using hlength

theorem head?_lowLines_succ (n : Nat) (name : String) :
    (lowLines (n + 1) name).toList.head? = some '_' := by
  rw [toList_lowLines, List.replicate_succ]
  rfl

theorem dropWhile_lowLines (n : Nat) {name : String} (hreserved : Script.isReserved name) :
    (lowLines n name).toList.dropWhile (· == '_') = name.toList := by
  have hlow : ∀ c ∈ List.replicate n '_', (c == '_') = true := by
    intro c hc
    rw [List.eq_of_mem_replicate hc, beq_self_eq_true]
  rw [toList_lowLines, List.dropWhile_append_of_pos hlow]
  refine List.dropWhile_eq_self_iff.2 fun hlength hhead => ?_
  refine Script.not_isReserved_of_lowLine ?_ hreserved
  rw [List.head?_eq_getElem?, List.getElem?_eq_getElem hlength, eq_of_beq hhead]

/-- A reserved word can be told from what it is with low lines in front: it begins with none. -/
theorem reserved_eq_of_lowLines_eq {name other : String} {n m : Nat} (hname : Script.isReserved name)
    (hother : Script.isReserved other) (h : lowLines n name = lowLines m other) : name = other := by
  apply String.toList_injective
  rw [← dropWhile_lowLines n hname, h, dropWhile_lowLines m hother]

/-! ### The search for an identifier -/

/-- The search ends after at most one round for each identifier that is taken, and every identifier
that it passes by is taken. -/
theorem exists_avoid_eq_lowLines (taken : List String) (identifier : String) :
    ∃ n ≤ taken.length, avoid taken identifier = lowLines n identifier ∧
      ∀ m < n, lowLines m identifier ∈ taken := by
  fun_induction avoid taken identifier with
  | case1 taken identifier h ih =>
      obtain ⟨n, hn, heq, hpassed⟩ := ih
      have hpos := List.length_pos_of_mem h
      rw [List.length_erase_of_mem h] at hn
      refine ⟨n + 1, by omega, by rw [heq, lowLines_lowLine], fun m hm => ?_⟩
      cases m with
      | zero =>
          rw [lowLines_zero]
          exact h
      | succ m =>
          have hmem := hpassed m (by omega)
          rw [lowLines_lowLine] at hmem
          exact List.mem_of_mem_erase hmem
  | case2 taken identifier h =>
      refine ⟨0, Nat.zero_le _, (lowLines_zero identifier).symm, fun m hm => ?_⟩
      exact absurd hm (Nat.not_lt_zero m)

/-- How many low lines make a new name of a name: one at least, and no more than are needed for a name
that is none of those given. -/
structure IsLeastFree (names : List String) (name : String) (n : Nat) : Prop where
  pos : 1 ≤ n
  free : lowLines n name ∉ names
  least : ∀ m < n, 1 ≤ m → lowLines m name ∈ names

namespace IsLeastFree

variable {names : List String} {name : String} {n m : Nat}

theorem le (hn : IsLeastFree names name n) (hm : IsLeastFree names name m) : n ≤ m := by
  by_contra hlt
  exact hm.free (hn.least m (Nat.lt_of_not_le hlt) hm.pos)

theorem unique (hn : IsLeastFree names name n) (hm : IsLeastFree names name m) : n = m :=
  Nat.le_antisymm (hn.le hm) (hm.le hn)

/-- The names in the way are distinct, so with the name itself they are no more than all names. -/
theorem le_length (h : IsLeastFree names name n) (hname : name ∈ names) : n ≤ names.length := by
  have hnodup : ((List.range n).map (lowLines · name)).Nodup :=
    List.nodup_range.map (lowLines_injective name)
  have hsubset : (List.range n).map (lowLines · name) ⊆ names := by
    intro found hfound
    obtain ⟨m, hm, rfl⟩ := List.mem_map.1 hfound
    rcases Nat.eq_zero_or_pos m with rfl | hpos
    · rwa [lowLines_zero]
    · exact h.least m (List.mem_range.1 hm) hpos
  have hlength := (List.subperm_of_subset hnodup hsubset).length_le
  rwa [List.length_map, List.length_range] at hlength

theorem of_perm {others : List String} (h : IsLeastFree names name n) (hperm : others.Perm names) :
    IsLeastFree others name n where
  pos := h.pos
  free hmem := h.free (hperm.mem_iff.1 hmem)
  least m hm hpos := hperm.mem_iff.2 (h.least m hm hpos)

end IsLeastFree

namespace Identifiers

variable {names taken : List String} {args : List Arg} {name identifier : String}

/-- Whether some number of low lines in front of a reserved word make an identifier that is taken, is a
matter of the names of all arguments. -/
def OnlyNamesTaken (names taken : List String) (name : String) : Prop :=
  ∀ n, 1 ≤ n → (lowLines n name ∈ taken ↔ lowLines n name ∈ names)

theorem isLeastFree_avoid (hreserved : Script.isReserved name) (htaken : OnlyNamesTaken names taken name) :
    ∃ n, IsLeastFree names name n ∧ avoid taken (Script.identifierOf name) = lowLines n name := by
  obtain ⟨n, -, heq, hpassed⟩ := exists_avoid_eq_lowLines taken (Script.identifierOf name)
  have hnew := avoid_not_mem taken (Script.identifierOf name)
  rw [heq] at hnew ⊢
  rw [Script.identifierOf_reserved hreserved] at hnew hpassed ⊢
  simp only [lowLines_lowLine] at hnew hpassed ⊢
  refine ⟨n + 1, ⟨Nat.le_add_left 1 n, ?_, fun m hm hpos => ?_⟩, rfl⟩
  · rwa [← htaken (n + 1) (Nat.le_add_left 1 n)]
  · rw [← htaken m hpos, ← Nat.sub_add_cancel hpos]
    exact hpassed (m - 1) (by omega)

/-- An identifier that another reserved word has got is in nobody's way. -/
theorem OnlyNamesTaken.cons {other : String} (hreserved : Script.isReserved name)
    (hother : Script.isReserved other) (hne : name ≠ other) (htaken : OnlyNamesTaken names taken name)
    (n : Nat) : OnlyNamesTaken names (lowLines n other :: taken) name := by
  intro m hm
  rw [List.mem_cons, htaken m hm, or_iff_right]
  exact fun heq => hne (reserved_eq_of_lowLines_eq hreserved hother heq)

/-- Every reserved name gets the least number of low lines, whatever was chosen before it. -/
theorem isLeastFree_of_mem_choose (hnames : (args.map (·.name)).Nodup)
    (htaken : ∀ arg ∈ args, Script.isReserved arg.name → OnlyNamesTaken names taken arg.name)
    (hreserved : Script.isReserved name) (h : (name, identifier) ∈ choose taken args) :
    ∃ n, IsLeastFree names name n ∧ identifier = lowLines n name := by
  induction args generalizing taken with
  | nil => cases h
  | cons arg args ih =>
      rw [List.map_cons, List.nodup_cons] at hnames
      have hrest : ∀ other ∈ args, Script.isReserved other.name → OnlyNamesTaken names taken other.name :=
        fun other hother => htaken other (List.mem_cons_of_mem _ hother)
      rw [choose] at h
      by_cases harg : Script.isReserved arg.name
      · rw [if_pos harg] at h
        obtain ⟨n, hleast, heq⟩ := isLeastFree_avoid harg (htaken arg (List.mem_cons_self ..) harg)
        rcases List.mem_cons.1 h with hhead | hmem
        · cases hhead
          exact ⟨n, hleast, heq⟩
        · rw [heq] at hmem
          refine ih hnames.2 (fun other hother hname => ?_) hmem
          refine (hrest other hother hname).cons hname harg (fun hsame => hnames.1 ?_) n
          rw [← hsame]
          exact List.mem_map_of_mem hother
      · rw [if_neg harg] at h
        rcases List.mem_cons.1 h with hhead | hmem
        · cases hhead
          exact absurd hreserved harg
        · exact ih hnames.2 hrest hmem

/-- With a low line in front no name is a reserved word, so it was taken from the start if it is the name
of an argument. -/
theorem onlyNamesTaken_filter (names : List String) (name : String) :
    OnlyNamesTaken names (names.filter (!Script.isReserved ·)) name := by
  intro n hn
  rw [List.mem_filter, and_iff_left]
  have hhead := head?_lowLines_succ (n - 1) name
  rw [Nat.sub_add_cancel hn] at hhead
  simpa using Script.not_isReserved_of_lowLine hhead

theorem isLeastFree_get (hnames : (args.map (·.name)).Nodup) (h : name ∈ args.map (·.name))
    (hreserved : Script.isReserved name) :
    ∃ n, IsLeastFree (args.map (·.name)) name n ∧ (ofArgs args).get name = lowLines n name :=
  isLeastFree_of_mem_choose hnames (fun arg _ _ => onlyNamesTaken_filter _ arg.name) hreserved
    (get_mem_ofArgs hnames h)

theorem get_of_not_mem (h : name ∉ args.map (·.name)) :
    (ofArgs args).get name = Script.identifierOf name := by
  have hkeys : name ∉ (ofArgs args).reverse.map (·.1) := by
    rwa [List.map_reverse, List.mem_reverse, ofArgs, names_choose]
  rw [get, find?_key_eq_none hkeys]

/-- Neither the order of the arguments nor their types matter to their identifiers. -/
theorem get_of_perm {others : List Arg} (hnames : (args.map (·.name)).Nodup)
    (hperm : (others.map (·.name)).Perm (args.map (·.name))) :
    (ofArgs others).get = (ofArgs args).get := by
  have hothers := hperm.nodup_iff.2 hnames
  funext name
  by_cases h : name ∈ args.map (·.name)
  · have hother := hperm.mem_iff.2 h
    by_cases hreserved : Script.isReserved name
    · obtain ⟨n, hn, hget⟩ := isLeastFree_get hnames h hreserved
      obtain ⟨m, hm, hget'⟩ := isLeastFree_get hothers hother hreserved
      rw [hget, hget', hm.unique (hn.of_perm hperm)]
    · rw [get_of_not_reserved hnames h hreserved, get_of_not_reserved hothers hother hreserved]
  · rw [get_of_not_mem h, get_of_not_mem fun hother => h (hperm.mem_iff.1 hother)]

/-- An argument keeps a name that is not reserved, and the search for the identifier of a reserved name
ends with the least number of low lines that make it different from the names of all arguments. So two
arguments have two identifiers, and these do not depend on the order of the arguments. -/
theorem get_eq_lowLines (hnames : (args.map (·.name)).Nodup) :
    (∀ taken identifier, ∃ n ≤ taken.length, avoid taken identifier = lowLines n identifier ∧
      lowLines n identifier ∉ taken ∧ ∀ m < n, lowLines m identifier ∈ taken) ∧
    (∀ name ∈ args.map (·.name), ¬Script.isReserved name → (ofArgs args).get name = name) ∧
    (∀ name ∈ args.map (·.name), Script.isReserved name → ∃ n ≤ args.length,
      IsLeastFree (args.map (·.name)) name n ∧ (ofArgs args).get name = lowLines n name) ∧
    Set.InjOn (ofArgs args).get {name | name ∈ args.map (·.name)} ∧
    ∀ others : List Arg, (others.map (·.name)).Perm (args.map (·.name)) →
      (ofArgs others).get = (ofArgs args).get := by
  refine ⟨fun taken identifier => ?_, fun name => get_of_not_reserved hnames, fun name h hreserved => ?_,
    fun name hname other hother => get_inj hnames hname hother, fun others => get_of_perm hnames⟩
  · obtain ⟨n, hn, heq, hpassed⟩ := exists_avoid_eq_lowLines taken identifier
    refine ⟨n, hn, heq, ?_, hpassed⟩
    rw [← heq]
    exact avoid_not_mem taken identifier
  · obtain ⟨n, hleast, hget⟩ := isLeastFree_get hnames h hreserved
    have hlength := hleast.le_length h
    rw [List.length_map] at hlength
    exact ⟨n, hlength, hleast, hget⟩

/-- Names in the way of a reserved word push it on, one low line each. -/
theorem get_eq_lowLines_chain :
    ([⟨"new", .string⟩, ⟨"__new", .number⟩, ⟨"_new", .string⟩].map Arg.name).Nodup ∧
      (ofArgs [⟨"new", .string⟩, ⟨"__new", .number⟩, ⟨"_new", .string⟩]).get "new" = "___new" := by
  have hnames : ([⟨"new", .string⟩, ⟨"__new", .number⟩, ⟨"_new", .string⟩].map Arg.name).Nodup := by
    decide
  obtain ⟨n, -, hleast, hget⟩ := (get_eq_lowLines hnames).2.2.1 "new" (by decide) (by decide)
  have hthree : n = 3 := hleast.unique ⟨by decide, by decide, by decide⟩
  refine ⟨hnames, ?_⟩
  rw [hget, hthree]
  rfl

end Identifiers

end Phrasebook
