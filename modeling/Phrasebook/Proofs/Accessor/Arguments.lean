import Phrasebook.Accessor.Basic
import Phrasebook.Proofs.Template

/-!
The arguments of accessors. They are the names that the texts ask for, each where it is first met and
once only, with the argument before them that selects one of several texts.
-/

namespace Phrasebook

/-! ### Distinct arguments -/

namespace Arg

theorem any_name_eq {args : List Arg} {name : String} :
    args.any (·.name == name) = true ↔ name ∈ args.map (·.name) := by
  simp only [List.any_eq_true, beq_iff_eq, List.mem_map]

/-- Of several arguments those that have the name of no earlier one, in order. -/
def firsts (args : List Arg) : List Arg := args.eraseDupsBy fun arg earlier => arg.name == earlier.name

theorem firsts_cons (arg : Arg) (args : List Arg) :
    firsts (arg :: args) = arg :: firsts (args.filter fun other => other.name ≠ arg.name) := by
  rw [firsts, List.eraseDupsBy_cons, firsts]
  congr 3
  funext other
  simp [Bool.beq_eq_decide_eq]

/-- An induction on arguments that leaves out, with the first one, all others of its name. -/
@[elab_as_elim]
theorem firsts_induction {P : List Arg → Prop} (args : List Arg) (nil : P [])
    (cons : ∀ arg args, P (args.filter fun other => other.name ≠ arg.name) → P (arg :: args)) : P args := by
  induction hlength : args.length using Nat.strongRecOn generalizing args with
  | ind length ih =>
      cases args with
      | nil => exact nil
      | cons arg args =>
          have hfilter := List.length_filter_le (fun other : Arg => other.name ≠ arg.name) args
          rw [List.length_cons] at hlength
          exact cons arg args (ih _ (by omega) _ rfl)

theorem names_firsts (args : List Arg) : (firsts args).map (·.name) = (args.map (·.name)).eraseDups := by
  induction args using firsts_induction with
  | nil => rfl
  | cons arg args ih =>
      rw [firsts_cons, List.map_cons, List.map_cons, List.eraseDups_cons, ih, List.filter_map]
      congr 4
      funext other
      simp [Bool.beq_eq_decide_eq]

theorem nodup_firsts (args : List Arg) : ((firsts args).map (·.name)).Nodup := by
  induction args using firsts_induction with
  | nil => exact List.nodup_nil
  | cons arg args ih =>
      rw [firsts_cons, List.map_cons, List.nodup_cons]
      refine ⟨fun hmem => ?_, ih⟩
      rw [names_firsts, List.mem_eraseDups] at hmem
      obtain ⟨other, hother, heq⟩ := List.mem_map.1 hmem
      simpa [heq] using (List.mem_filter.1 hother).2

theorem head?_firsts (args : List Arg) : (firsts args).head? = args.head? := by
  cases args with
  | nil => rfl
  | cons arg args => rw [firsts_cons, List.head?_cons, List.head?_cons]

/-- The first argument of a name is the one that is kept. -/
theorem mem_firsts_iff {args : List Arg} {arg : Arg} :
    arg ∈ firsts args ↔ args.find? (·.name == arg.name) = some arg := by
  induction args using firsts_induction with
  | nil => simp [firsts]
  | cons first args ih =>
      rw [firsts_cons, List.mem_cons, ih, List.find?_filter]
      by_cases hname : first.name = arg.name
      · -- the others of this name are left out
        rw [List.find?_cons_of_pos (by simpa using hname), List.find?_eq_none.2]
        · simp [eq_comm]
        · intro other _
          simp [hname]
      · have hne : arg ≠ first := fun heq => hname (congrArg Arg.name heq.symm)
        have hkept : (fun other : Arg => decide (decide (other.name ≠ first.name) ∧ other.name == arg.name)) =
            fun other => other.name == arg.name := by
          funext other
          by_cases hother : other.name = arg.name
          · simp [hother, Ne.symm hname]
          · simp [hother]
        rw [List.find?_cons_of_neg (by simpa using hname), or_iff_right hne, hkept]

/-- What is added to arguments that are there is what is new among the others, once each. -/
theorem foldl_add_eq (args added : List Arg) : added.foldl add args =
    args ++ firsts (added.filter fun arg => arg.name ∉ args.map (·.name)) := by
  induction added generalizing args with
  | nil =>
      rw [List.foldl_nil, List.filter_nil, firsts, List.eraseDupsBy_nil, List.append_nil]
  | cons arg added ih =>
      rw [List.foldl_cons, ih, add]
      by_cases h : arg.name ∈ args.map (·.name)
      · rw [if_pos (any_name_eq.2 h), List.filter_cons_of_neg (by simpa using h)]
      · rw [if_neg (fun hany => h (any_name_eq.1 hany)), List.filter_cons_of_pos (by simpa using h),
          firsts_cons, List.filter_filter, List.append_assoc, List.singleton_append]
        congr 4
        funext other
        simp [Bool.and_comm]

theorem distinct_eq_firsts (args : List Arg) : distinct args = firsts args := by
  rw [distinct, foldl_add_eq, List.nil_append, List.filter_eq_self.2]
  intro arg _
  simp

/-- The names of distinct arguments are the names of all, each where it is first. -/
theorem names_distinct (args : List Arg) :
    (distinct args).map (·.name) = (args.map (·.name)).eraseDups := by
  rw [distinct_eq_firsts, names_firsts]

/-- What is added to a set of arguments may as well be added to the arguments that the set is added to. -/
theorem foldl_add_add (args set : List Arg) (arg : Arg) :
    (add set arg).foldl add args = add (set.foldl add args) arg := by
  by_cases h : arg.name ∈ set.map (·.name)
  · have hmem : arg.name ∈ (set.foldl add args).map (·.name) := by
      rw [foldl_add_eq, List.map_append, names_firsts, List.mem_append, List.mem_eraseDups]
      by_cases hargs : arg.name ∈ args.map (·.name)
      · exact Or.inl hargs
      · obtain ⟨other, hother, heq⟩ := List.mem_map.1 h
        refine Or.inr (List.mem_map.2 ⟨other, List.mem_filter.2 ⟨hother, ?_⟩, heq⟩)
        simpa [heq] using hargs
    rw [add, add, if_pos (any_name_eq.2 h), if_pos (any_name_eq.2 hmem)]
  · rw [add, if_neg (fun hany => h (any_name_eq.1 hany)), List.foldl_append]
    rfl

/-- Arguments may be made distinct before they are added to others. -/
theorem foldl_add_distinct (args added : List Arg) :
    (distinct added).foldl add args = added.foldl add args := by
  have hset : ∀ set, (added.foldl add set).foldl add args = added.foldl add (set.foldl add args) := by
    intro set
    induction added generalizing set with
    | nil => rfl
    | cons arg added ih => rw [List.foldl_cons, List.foldl_cons, ih, foldl_add_add]
  exact hset []

theorem nodup_distinct (args : List Arg) : ((distinct args).map (·.name)).Nodup := by
  rw [distinct_eq_firsts]
  exact nodup_firsts args

end Arg

/-! ### Arguments of accessors -/

namespace Arg

/-- Arguments of an accessor: no two have one name, and each is named by a name. -/
structure WellNamed (args : List Arg) : Prop where
  nodup : (args.map (·.name)).Nodup
  isName : ∀ name ∈ args.map (·.name), Text.isName name.toList

theorem wellNamed_distinct {args : List Arg} (h : ∀ arg ∈ args, Text.isName arg.name.toList) :
    WellNamed (distinct args) := by
  refine ⟨nodup_distinct args, fun name hname => ?_⟩
  rw [names_distinct, List.mem_eraseDups] at hname
  obtain ⟨arg, harg, rfl⟩ := List.mem_map.1 hname
  exact h arg harg

theorem mem_names_distinct {args : List Arg} {arg : Arg} (h : arg ∈ args) :
    arg.name ∈ (distinct args).map (·.name) := by
  rw [names_distinct, List.mem_eraseDups]
  exact List.mem_map_of_mem h

end Arg

namespace Template

theorem isName_of_mem_args {s : String} {arg : Arg} (h : arg ∈ (parse s.toList).args) :
    Text.isName arg.name.toList := by
  obtain ⟨p, hp, rfl⟩ := List.mem_map.1 h
  exact isName_of_mem_placeholders hp

theorem name_mem_args {t : Template} {name : String} (h : .arg name ∈ t.parts) :
    name ∈ t.args.map (·.name) := by
  have hrun : ∀ run, Part.arg name ∉ Part.ofRun run := by
    intro run hmem
    rw [Part.ofRun] at hmem
    split at hmem
    · cases hmem
    · cases List.mem_singleton.1 hmem
  rw [parts, List.mem_append, List.mem_flatMap] at h
  rcases h with hhead | ⟨⟨p, run⟩, hp, hmem⟩
  · exact absurd hhead (hrun _)
  · rcases List.mem_cons.1 hmem with heq | hmem
    · cases heq
      refine List.mem_map.2 ⟨⟨p.name, p.type⟩, ?_, rfl⟩
      exact List.mem_map_of_mem (List.mem_map.2 ⟨(p, run), hp, rfl⟩)
    · exact absurd hmem (hrun _)

end Template

namespace Arg

/-- The arguments that texts ask for, after the one that selects among the texts, if there are
several. -/
def ofTexts (selector : Option Arg) (texts : List String) : List Arg :=
  distinct (selector.toList ++ texts.flatMap fun s => (Template.parse s.toList).args)

variable (selector : Option Arg) (texts : List String)

theorem nodup_names_ofTexts : ((ofTexts selector texts).map (·.name)).Nodup := nodup_distinct _

theorem wellNamed_ofTexts (hselector : ∀ arg ∈ selector, Text.isName arg.name.toList) :
    WellNamed (ofTexts selector texts) := by
  refine wellNamed_distinct fun arg harg => ?_
  rcases List.mem_append.1 harg with harg | harg
  · exact hselector arg (Option.mem_toList.1 harg)
  · obtain ⟨s, -, hs⟩ := List.mem_flatMap.1 harg
    exact Template.isName_of_mem_args hs

end Arg

namespace Accessor

/-- Collecting the arguments text by text gives those of all texts together. -/
theorem argsOf_eq_distinct (selector : Arg) (texts : List Template) :
    argsOf selector texts = Arg.distinct (selector :: texts.flatMap Template.args) := by
  simp only [argsOf, Arg.foldl_add_distinct]
  rw [Arg.distinct, List.foldl_cons, List.foldl_flatMap]
  rfl

theorem argsOf_eq_ofTexts (selector : Arg) (texts : List String) :
    argsOf selector (texts.map fun s => Template.parse s.toList) = Arg.ofTexts (some selector) texts := by
  rw [argsOf_eq_distinct, Arg.ofTexts, List.flatMap_map]
  rfl

theorem wellNamed_argsOf (selector : Arg) (h : Text.isName selector.name.toList)
    (texts : List String) :
    Arg.WellNamed (argsOf selector (texts.map fun s => Template.parse s.toList)) := by
  rw [argsOf_eq_ofTexts]
  refine Arg.wellNamed_ofTexts _ texts fun arg harg => ?_
  cases harg
  exact h

theorem mem_names_argsOf {selector : Arg} {texts : List Template} {t : Template} (ht : t ∈ texts) :
    ∀ arg ∈ t.args, arg.name ∈ (argsOf selector texts).map (·.name) := by
  intro arg harg
  rw [argsOf_eq_distinct]
  exact Arg.mem_names_distinct (List.mem_cons_of_mem _ (List.mem_flatMap.2 ⟨t, ht, harg⟩))

theorem selector_mem_names_argsOf {selector : Arg} {texts : List Template} :
    selector.name ∈ (argsOf selector texts).map (·.name) := by
  rw [argsOf_eq_distinct]
  exact Arg.mem_names_distinct (List.mem_cons_self ..)

end Accessor

end Phrasebook
