import Phrasebook.Proofs.Accessor.Selection
import Phrasebook.Proofs.Script.Parts

/-!
The functions of texts. A function has a parameter for each name in the texts that it chooses among, and
one before them that chooses. In its body every placeholder of these texts stands once, by the identifier
of its name, and apart from these there is only the identifier that chooses.
-/

namespace Phrasebook

open Script (Expr Stmt Piece identsOf slotsOf)

/-! ### Names in texts -/

def Part.name? : Part → Option String
  | .literal _ => none
  | .arg name => some name

namespace Template

/-- The names of the placeholders, from left to right. -/
def names (t : Template) : List String := t.args.map (·.name)

theorem name?_ofRun (run : List Char) : (Part.ofRun run).filterMap Part.name? = [] := by
  rw [Part.ofRun]
  split
  · rfl
  · rfl

/-- The parts of a text name its placeholders in their order. -/
theorem name?_parts (t : Template) : t.parts.filterMap Part.name? = t.names := by
  have htail : ∀ tail : List (Placeholder × List Char),
      (tail.flatMap fun x => .arg x.1.name :: Part.ofRun x.2).filterMap Part.name? =
        tail.map (·.1.name) := by
    intro tail
    induction tail with
    | nil => rfl
    | cons first tail ih =>
        rw [List.flatMap_cons, List.filterMap_append, ih,
          List.filterMap_cons_some (by rfl : Part.name? (.arg first.1.name) = some first.1.name),
          name?_ofRun]
        rfl
  rw [parts, List.filterMap_append, name?_ofRun, List.nil_append, names, args, placeholders,
    List.map_map, List.map_map]
  exact htail t.tail

theorem names_of_isEmpty {t : Template} (h : t.tail.isEmpty) : t.names = [] := by
  rw [names, args, placeholders, List.isEmpty_iff.1 h]
  rfl

end Template

/-! ### Names in scripts -/

section Scripts

variable (identifiers : Identifiers)

theorem Part.piecesParts_toPiece (parts : List Part) :
    Script.piecesParts (parts.map (Part.toPiece identifiers)) =
      (parts.filterMap Part.name?).map fun name => .ident (identifiers.get name) := by
  induction parts with
  | nil => rfl
  | cons part parts ih =>
      cases part with
      | literal text => exact ih
      | arg name => exact congrArg (Expr.ident (identifiers.get name) :: ·) ih

theorem Part.slot?_toPiece (parts : List Part) :
    (parts.map (Part.toPiece identifiers)).filterMap Piece.slot? =
      (parts.filterMap Part.name?).map identifiers.get := by
  induction parts with
  | nil => rfl
  | cons part parts ih =>
      cases part with
      | literal text => exact ih
      | arg name => exact congrArg (identifiers.get name :: ·) ih

namespace Template

theorem parts_toTemplate (t : Template) : (Part.toTemplate identifiers t.parts).parts =
    Part.toTemplate identifiers t.parts :: t.names.map fun name => .ident (identifiers.get name) := by
  rw [Part.toTemplate, Expr.parts, Part.piecesParts_toPiece, name?_parts]

theorem identsOf_toTemplate (t : Template) :
    identsOf (Part.toTemplate identifiers t.parts).parts = t.names.map identifiers.get := by
  have hidents : ∀ names : List String,
      (names.map fun name => Expr.ident (identifiers.get name)).filterMap Expr.ident? =
        names.map identifiers.get := by
    intro names
    rw [List.filterMap_map, ← List.filterMap_eq_map]
    rfl
  rw [parts_toTemplate, identsOf, List.filterMap_cons_none (by rfl), hidents]

theorem slotsOf_toTemplate (t : Template) :
    slotsOf (Part.toTemplate identifiers t.parts).parts = t.names.map identifiers.get := by
  have hslots : ∀ names : List String,
      (names.map fun name => Expr.ident (identifiers.get name)).flatMap Expr.slots = [] := by
    intro names
    rw [List.flatMap_eq_nil_iff]
    intro part hpart
    obtain ⟨name, -, rfl⟩ := List.mem_map.1 hpart
    rfl
  rw [parts_toTemplate, slotsOf, List.flatMap_cons, hslots, List.append_nil, Part.toTemplate,
    Expr.slots, Part.slot?_toPiece, name?_parts]

theorem not_isFunction_toTemplate (t : Template) :
    ∀ part ∈ (Part.toTemplate identifiers t.parts).parts, ¬part.isFunction := by
  intro part hpart
  rw [parts_toTemplate] at hpart
  rcases List.mem_cons.1 hpart with rfl | hpart
  · simp [Part.toTemplate, Expr.isFunction]
  · obtain ⟨name, -, rfl⟩ := List.mem_map.1 hpart
    simp [Expr.isFunction]

/-- In the script of a form the identifiers are those of its placeholders, all of them in a text. -/
theorem identsOf_form (t : Template) :
    identsOf (t.form.toScript identifiers).parts = t.names.map identifiers.get := by
  rw [form]
  by_cases hempty : t.tail.isEmpty
  · rw [if_pos hempty, names_of_isEmpty hempty]
    rfl
  · rw [if_neg hempty]
    exact identsOf_toTemplate identifiers t

theorem slotsOf_form (t : Template) :
    slotsOf (t.form.toScript identifiers).parts = t.names.map identifiers.get := by
  rw [form]
  by_cases hempty : t.tail.isEmpty
  · rw [if_pos hempty, names_of_isEmpty hempty]
    rfl
  · rw [if_neg hempty]
    exact slotsOf_toTemplate identifiers t

theorem not_isFunction_form (t : Template) :
    ∀ part ∈ (t.form.toScript identifiers).parts, ¬part.isFunction := by
  rw [form]
  by_cases hempty : t.tail.isEmpty
  · rw [if_pos hempty]
    intro part hpart
    rw [List.mem_singleton.1 hpart]
    simp [Expr.isFunction]
  · rw [if_neg hempty]
    exact not_isFunction_toTemplate identifiers t

end Template

end Scripts

/-! ### Functions of texts -/

/-- The names of the placeholders of texts, one text after the other. -/
def namesOf (texts : List String) : List String :=
  texts.flatMap fun s => (Occurrence.scan s).map (·.placeholder.name)

theorem namesOf_eq (texts : List String) :
    namesOf texts = texts.flatMap fun s => (Template.parse s.toList).names := by
  simp only [namesOf, Occurrence.names_scan]
  rfl

section Texts

variable (selector : Option Arg) (texts : List String)

/-- The arguments of a function of texts are the one that selects and those that the texts name. -/
theorem mem_names_ofTexts {name : String} :
    name ∈ (Arg.ofTexts selector texts).map (·.name) ↔
      (∃ arg ∈ selector, name = arg.name) ∨ name ∈ namesOf texts := by
  rw [Arg.ofTexts, Arg.names_distinct, List.mem_eraseDups, List.map_append, List.mem_append,
    List.map_flatMap, namesOf_eq]
  refine or_congr_left ?_
  simp [Option.mem_toList, eq_comm]

/-- An arrow function that has a parameter for each argument of some texts, and in whose body every
placeholder of these texts stands by the identifier of its name. -/
structure FunctionOf (f : Expr) : Prop where
  params : f.params =
    (Identifiers.ofArgs (Arg.ofTexts selector texts)).params (Arg.ofTexts selector texts)
  substitutions :
    f.substitutions = (namesOf texts).map (Identifiers.ofArgs (Arg.ofTexts selector texts)).get
  idents : ∀ name ∈ f.idents, name ∈ f.substitutions ∨ ∃ arg ∈ selector, name = arg.name
  functions : f.functions = [f]

end Texts

/-! ### Arguments of functions -/

namespace Accessor

theorem ofText_of_not_isEmpty {s : String} (h : ¬(Template.parse s.toList).tail.isEmpty) :
    ofText s = .phrase (Arg.ofTexts none [s]) (Template.parse s.toList).parts := by
  have hargs : Arg.ofTexts none [s] = Arg.distinct (Template.parse s.toList).args := by
    simp [Arg.ofTexts]
  rw [hargs, ofText, if_neg h]

theorem args_ofText (s : String) : (ofText s).args = Arg.ofTexts none [s] := by
  by_cases hempty : (Template.parse s.toList).tail.isEmpty
  · have hargs : (Template.parse s.toList).args = [] := by
      rw [Template.args, Template.placeholders, List.isEmpty_iff.1 hempty]
      rfl
    rw [ofText, if_pos hempty, Arg.ofTexts, List.flatMap_singleton, hargs]
    rfl
  · rw [ofText_of_not_isEmpty hempty]
    rfl

theorem args_ofPlural (counts : Counts String) (nth : String) :
    (ofPlural counts nth).args = Arg.ofTexts (some .count) (counts.values ++ [nth]) := by
  rw [← argsOf_eq_ofTexts, List.map_append, ← Counts.values_map]
  rfl

theorem args_ofChoice (whenTrue whenFalse : String) :
    (ofChoice whenTrue whenFalse).args = Arg.ofTexts (some .bool) [whenTrue, whenFalse] := by
  rw [← argsOf_eq_ofTexts]
  rfl

end Accessor

/-! ### Scripts of functions -/

/-- The function of a text with placeholders returns the text as a template literal. -/
theorem toScript_ofText {s : String} (h : ¬(Template.parse s.toList).tail.isEmpty) :
    (Accessor.ofText s).toScript = .lambda
      ((Identifiers.ofArgs (Arg.ofTexts none [s])).params (Arg.ofTexts none [s]))
      (Part.toTemplate (Identifiers.ofArgs (Arg.ofTexts none [s])) (Template.parse s.toList).parts) := by
  rw [Accessor.ofText_of_not_isEmpty h, Accessor.toScript]

theorem functionOf_ofText {s : String} (h : ¬(Template.parse s.toList).tail.isEmpty) :
    FunctionOf none [s] (Accessor.ofText s).toScript := by
  have hnames : namesOf [s] = (Template.parse s.toList).names := by simp [namesOf_eq]
  rw [toScript_ofText h]
  refine ⟨rfl, ?_, fun name hname => Or.inl ?_, ?_⟩
  · rw [hnames]
    exact Template.slotsOf_toTemplate _ _
  · rw [Expr.substitutions, Expr.body, Template.slotsOf_toTemplate]
    rw [Expr.idents, Expr.body, Template.identsOf_toTemplate] at hname
    exact hname
  · exact Expr.functions_of_body rfl (Template.not_isFunction_toTemplate _ _)

/-! ### Functions of plural forms -/

section Counts

variable (identifiers : Identifiers) (count : Nat) (t : Template)

/-- A conditional for a count holds the comparison and the form that it returns. -/
theorem parts_countStmt (form : Form) : (Accessor.countStmt identifiers count form).parts =
    [.strictEqual (.ident Arg.count.name) (.literal (.number (.int count))), .ident Arg.count.name,
      .literal (.number (.int count))] ++ (form.toScript identifiers).parts := by
  rw [Accessor.countStmt, Stmt.parts, Script.stmtsParts, Script.stmtsParts, Form.toReturn, Stmt.parts,
    List.append_nil]
  rfl

theorem identsOf_countStmt : identsOf (Accessor.countStmt identifiers count t.form).parts =
    Arg.count.name :: t.names.map identifiers.get := by
  rw [parts_countStmt, Script.identsOf_append, Template.identsOf_form]
  rfl

theorem slotsOf_countStmt : slotsOf (Accessor.countStmt identifiers count t.form).parts =
    t.names.map identifiers.get := by
  rw [parts_countStmt, Script.slotsOf_append, Template.slotsOf_form]
  rfl

theorem not_isFunction_countStmt :
    ∀ part ∈ (Accessor.countStmt identifiers count t.form).parts, ¬part.isFunction := by
  intro part hpart
  rw [parts_countStmt] at hpart
  rcases List.mem_append.1 hpart with hpart | hpart
  · simp only [List.mem_cons, List.not_mem_nil, or_false] at hpart
    rcases hpart with rfl | rfl | rfl
    all_goals simp [Expr.isFunction]
  · exact Template.not_isFunction_form identifiers t part hpart

end Counts

section Plural

variable (identifiers : Identifiers) (counts : Counts String) (nth : String)

/-- The statements of a function of plural forms. -/
def pluralStmts : List Stmt :=
  counts.entries.map (fun (count, s) =>
    Accessor.countStmt identifiers count (Template.parse s.toList).form) ++
    [(Template.parse nth.toList).form.toReturn identifiers]

theorem parts_pluralStmts : Script.stmtsParts (pluralStmts identifiers counts nth) =
    (counts.entries.flatMap fun (count, s) =>
      (Accessor.countStmt identifiers count (Template.parse s.toList).form).parts) ++
      ((Template.parse nth.toList).form.toScript identifiers).parts := by
  rw [pluralStmts, Script.stmtsParts_eq, List.flatMap_append, List.flatMap_map,
    List.flatMap_singleton, Form.toReturn, Stmt.parts]

theorem slotsOf_pluralStmts : slotsOf (Script.stmtsParts (pluralStmts identifiers counts nth)) =
    (namesOf (counts.values ++ [nth])).map identifiers.get := by
  rw [parts_pluralStmts, Script.slotsOf_append, Script.slotsOf_flatMap, Template.slotsOf_form, namesOf_eq,
    List.flatMap_append, List.flatMap_singleton, List.map_append, List.map_flatMap, Counts.values,
    List.flatMap_map]
  simp only [slotsOf_countStmt]

theorem identsOf_pluralStmts {name : String}
    (h : name ∈ identsOf (Script.stmtsParts (pluralStmts identifiers counts nth))) :
    name ∈ slotsOf (Script.stmtsParts (pluralStmts identifiers counts nth)) ∨
      name = Arg.count.name := by
  rw [parts_pluralStmts, Script.identsOf_append, Script.identsOf_flatMap] at h
  rw [parts_pluralStmts, Script.slotsOf_append, Script.slotsOf_flatMap]
  rcases List.mem_append.1 h with hcounts | hnth
  · obtain ⟨⟨count, s⟩, hentry, hname⟩ := List.mem_flatMap.1 hcounts
    rw [identsOf_countStmt] at hname
    rcases List.mem_cons.1 hname with rfl | hname
    · exact Or.inr rfl
    · refine Or.inl (List.mem_append_left _ (List.mem_flatMap.2 ⟨(count, s), hentry, ?_⟩))
      rwa [slotsOf_countStmt]
  · rw [Template.identsOf_form] at hnth
    refine Or.inl (List.mem_append_right _ ?_)
    rwa [Template.slotsOf_form]

theorem not_isFunction_pluralStmts :
    ∀ part ∈ Script.stmtsParts (pluralStmts identifiers counts nth), ¬part.isFunction := by
  intro part hpart
  rw [parts_pluralStmts] at hpart
  rcases List.mem_append.1 hpart with hpart | hpart
  · obtain ⟨⟨count, s⟩, -, hpart⟩ := List.mem_flatMap.1 hpart
    exact not_isFunction_countStmt identifiers count _ part hpart
  · exact Template.not_isFunction_form identifiers _ part hpart

end Plural

theorem functionOf_ofPlural (counts : Counts String) (nth : String) :
    FunctionOf (some .count) (counts.values ++ [nth]) (Accessor.ofPlural counts nth).toScript := by
  rw [Accessor.toScript_ofPlural, Accessor.args_ofPlural]
  refine ⟨rfl, slotsOf_pluralStmts _ counts nth, fun name hname => ?_, ?_⟩
  · refine (identsOf_pluralStmts _ counts nth hname).imp_right fun heq => ?_
    exact ⟨.count, rfl, heq⟩
  · exact Expr.functions_of_body rfl (not_isFunction_pluralStmts _ counts nth)

/-! ### Functions of boolean forms -/

section Choice

variable (identifiers : Identifiers) (whenTrue whenFalse : String)

/-- The statement of a function of boolean forms. -/
def choiceStmt : Stmt :=
  .ifElse (.strictEqual (.ident Arg.bool.name) (.literal (.bool true)))
    [(Template.parse whenTrue.toList).form.toReturn identifiers]
    [(Template.parse whenFalse.toList).form.toReturn identifiers]

theorem parts_choiceStmt : Script.stmtsParts [choiceStmt identifiers whenTrue whenFalse] =
    [.strictEqual (.ident Arg.bool.name) (.literal (.bool true)), .ident Arg.bool.name,
      .literal (.bool true)] ++ ([whenTrue, whenFalse].flatMap fun s =>
        ((Template.parse s.toList).form.toScript identifiers).parts) := by
  simp [choiceStmt, Script.stmtsParts, Stmt.parts, Form.toReturn, Expr.parts]

theorem slotsOf_choiceStmt :
    slotsOf (Script.stmtsParts [choiceStmt identifiers whenTrue whenFalse]) =
      (namesOf [whenTrue, whenFalse]).map identifiers.get := by
  rw [parts_choiceStmt, Script.slotsOf_append, Script.slotsOf_flatMap, namesOf_eq, List.map_flatMap]
  simp only [Template.slotsOf_form]
  rfl

theorem identsOf_choiceStmt :
    identsOf (Script.stmtsParts [choiceStmt identifiers whenTrue whenFalse]) =
      Arg.bool.name :: (namesOf [whenTrue, whenFalse]).map identifiers.get := by
  rw [parts_choiceStmt, Script.identsOf_append, Script.identsOf_flatMap, namesOf_eq, List.map_flatMap]
  simp only [Template.identsOf_form]
  rfl

theorem not_isFunction_choiceStmt :
    ∀ part ∈ Script.stmtsParts [choiceStmt identifiers whenTrue whenFalse], ¬part.isFunction := by
  intro part hpart
  rw [parts_choiceStmt] at hpart
  rcases List.mem_append.1 hpart with hpart | hpart
  · simp only [List.mem_cons, List.not_mem_nil, or_false] at hpart
    rcases hpart with rfl | rfl | rfl
    all_goals simp [Expr.isFunction]
  · obtain ⟨s, -, hpart⟩ := List.mem_flatMap.1 hpart
    exact Template.not_isFunction_form identifiers _ part hpart

end Choice

theorem functionOf_ofChoice (whenTrue whenFalse : String) :
    FunctionOf (some .bool) [whenTrue, whenFalse] (Accessor.ofChoice whenTrue whenFalse).toScript := by
  have hscript : (Accessor.ofChoice whenTrue whenFalse).toScript = .procedure
      ((Identifiers.ofArgs (Arg.ofTexts (some .bool) [whenTrue, whenFalse])).params
        (Arg.ofTexts (some .bool) [whenTrue, whenFalse]))
      [choiceStmt (Identifiers.ofArgs (Arg.ofTexts (some .bool) [whenTrue, whenFalse]))
        whenTrue whenFalse] := by
    rw [Accessor.toScript_ofChoice, Accessor.args_ofChoice]
    rfl
  rw [hscript]
  refine ⟨rfl, slotsOf_choiceStmt _ whenTrue whenFalse, fun name hname => ?_, ?_⟩
  · rw [Expr.idents, Expr.body, identsOf_choiceStmt] at hname
    rw [Expr.substitutions, Expr.body, slotsOf_choiceStmt]
    rcases List.mem_cons.1 hname with rfl | hname
    · exact Or.inr ⟨.bool, rfl, rfl⟩
    · exact Or.inl hname
  · exact Expr.functions_of_body rfl (not_isFunction_choiceStmt _ whenTrue whenFalse)

end Phrasebook
