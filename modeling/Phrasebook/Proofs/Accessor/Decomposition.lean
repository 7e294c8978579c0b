import Mathlib.Data.List.Chain
import Mathlib.Tactic.SplitIfs
import Phrasebook.Proofs.Accessor.Scope
import Phrasebook.Proofs.Scan

/-!
The parts of texts. Each form of an accessor is the canonical decomposition of its text: a run of
characters between two placeholders is one literal part, or none if it is empty, and holds no placeholder
itself; and the text comes back when the placeholders are put in the places of the arguments.
-/

namespace Phrasebook

/-! ### Runs of a text -/

namespace Template

/-- The runs of characters before, between and after the placeholders. -/
def runs (t : Template) : List (List Char) := t.head :: t.tail.map (·.2)

theorem parse_nil : parse [] = ⟨[], []⟩ := by
  rw [parse]
  rfl

theorem parse_cons {c : Char} {s : List Char} (h : Placeholder.parse? (c :: s) = none) :
    parse (c :: s) = ⟨c :: (parse s).head, (parse s).tail⟩ := by
  rw [parse]
  split
  · rename_i hsome
    rw [h] at hsome
    cases hsome
  · rfl

/-- What begins with no placeholder does not begin with one when it is cut off before a later one. -/
theorem parse?_head_eq_none {c : Char} {s : List Char} (h : Placeholder.parse? (c :: s) = none) :
    Placeholder.parse? (c :: (parse s).head) = none := by
  cases hhead : Placeholder.parse? (c :: (parse s).head) with
  | none => rfl
  | some found =>
      obtain ⟨p, rest⟩ := found
      obtain ⟨more, hmore⟩ : ∃ more, (parse s).head ++ more = s := ⟨_, text_parse s⟩
      have hwhole := Placeholder.parse?_append hhead more
      rw [List.cons_append, hmore, h] at hwhole
      cases hwhole

/-- No run of a text holds a placeholder. -/
theorem tail_parse_of_mem_runs {s run : List Char} (h : run ∈ (parse s).runs) : (parse run).tail = [] := by
  unfold runs at h
  fun_induction parse s generalizing run with
  | case1 s p rest hfirst =>
      rename_i ih
      rcases List.mem_cons.1 h with rfl | h
      · rw [parse_nil]
      · exact ih h
  | case2 =>
      rw [List.mem_singleton.1 h]
      rw [parse_nil]
  | case3 c rest hnone =>
      rename_i ih
      rcases List.mem_cons.1 h with rfl | h
      · rw [parse_cons (parse?_head_eq_none hnone)]
        exact ih (List.mem_cons_self ..)
      · exact ih (List.mem_cons_of_mem _ h)

end Template

/-! ### Parts of a text -/

namespace Part

def isLiteral : Part → Bool
  | .literal _ => true
  | .arg _ => false

/-- The text of parts with placeholders in the places of the arguments, one after the other. There is none
unless the arguments are those of the placeholders. -/
def restore : List Part → List Placeholder → Option (List Char)
  | [], [] => some []
  | .literal text :: parts, placeholders => (restore parts placeholders).map (text.toList ++ ·)
  | .arg name :: parts, p :: placeholders =>
    if name = p.name then (restore parts placeholders).map (p.text ++ ·) else none
  | _, _ => none

/-- Parts are the canonical decomposition of a text. -/
structure Decomposes (s : String) (parts : List Part) : Prop where
  restored : restore parts ((Occurrence.scan s).map (·.placeholder)) = some s.toList
  names : parts.filterMap name? = (Occurrence.scan s).map (·.placeholder.name)
  nonempty : ∀ text, .literal text ∈ parts → text ≠ ""
  /-- No two literal parts meet. -/
  apart : parts.IsChain fun part next => ¬(part.isLiteral ∧ next.isLiteral)
  plain : ∀ text, .literal text ∈ parts → Occurrence.scan text = []

theorem restore_ofRun_append (run : List Char) (parts : List Part) (placeholders : List Placeholder) :
    restore (ofRun run ++ parts) placeholders = (restore parts placeholders).map (run ++ ·) := by
  unfold ofRun
  cases run with
  | nil => simp
  | cons c run => simp [restore]

theorem literal_mem_ofRun {text : String} {run : List Char} (h : .literal text ∈ ofRun run) :
    run ≠ [] ∧ text = String.ofList run := by
  unfold ofRun at h
  cases run with
  | nil => cases h
  | cons c run =>
      cases List.mem_singleton.1 h
      exact ⟨List.cons_ne_nil _ _, rfl⟩

/-- A run may stand before parts that begin with an argument. -/
theorem isChain_ofRun_append {parts : List Part} (run : List Char)
    (h : parts.IsChain fun part next => ¬(part.isLiteral ∧ next.isLiteral))
    (hfirst : ∀ part ∈ parts.head?, ¬part.isLiteral) :
    (ofRun run ++ parts).IsChain fun part next => ¬(part.isLiteral ∧ next.isLiteral) := by
  unfold ofRun
  split_ifs
  · exact h
  · exact List.isChain_cons.2 ⟨fun next hnext hboth => hfirst next hnext hboth.2, h⟩

end Part

namespace Template

/-- What follows the first run of a text, in parts. -/
def tailParts (tail : List (Placeholder × List Char)) : List Part :=
  tail.flatMap fun (p, run) => .arg p.name :: Part.ofRun run

theorem tailParts_cons (p : Placeholder) (run : List Char) (tail : List (Placeholder × List Char)) :
    tailParts ((p, run) :: tail) = .arg p.name :: (Part.ofRun run ++ tailParts tail) :=
  List.flatMap_cons

theorem head?_tailParts (tail : List (Placeholder × List Char)) :
    ∀ part ∈ (tailParts tail).head?, ¬part.isLiteral := by
  cases tail with
  | nil => exact fun part hpart => nomatch hpart
  | cons first tail =>
      rw [tailParts_cons]
      rintro part hpart
      cases hpart
      simp [Part.isLiteral]

theorem restore_tailParts (tail : List (Placeholder × List Char)) :
    Part.restore (tailParts tail) (tail.map (·.1)) = some (tail.flatMap fun (p, run) => p.text ++ run) := by
  induction tail with
  | nil => rfl
  | cons first tail ih =>
      rw [tailParts_cons, List.map_cons, Part.restore, if_pos rfl, Part.restore_ofRun_append, ih]
      simp

theorem isChain_tailParts (tail : List (Placeholder × List Char)) :
    (tailParts tail).IsChain fun part next => ¬(part.isLiteral ∧ next.isLiteral) := by
  induction tail with
  | nil => exact .nil
  | cons first tail ih =>
      rw [tailParts_cons, List.isChain_cons]
      refine ⟨fun next _ hboth => Bool.noConfusion hboth.1, ?_⟩
      exact Part.isChain_ofRun_append _ ih (head?_tailParts tail)

theorem mem_runs_of_literal_mem_parts {t : Template} {text : String} (h : .literal text ∈ t.parts) :
    ∃ run ∈ t.runs, run ≠ [] ∧ text = String.ofList run := by
  rw [parts, List.mem_append, List.mem_flatMap] at h
  rcases h with hhead | ⟨⟨p, run⟩, hmem, htext⟩
  · exact ⟨t.head, List.mem_cons_self .., Part.literal_mem_ofRun hhead⟩
  · rcases List.mem_cons.1 htext with heq | htext
    · cases heq
    · have hrun : run ∈ t.runs := List.mem_cons_of_mem _ (List.mem_map.2 ⟨_, hmem, rfl⟩)
      exact ⟨run, hrun, Part.literal_mem_ofRun htext⟩

end Template

/-- The parts of a text are its canonical decomposition. -/
theorem Part.decomposes_parts (s : String) : Part.Decomposes s (Template.parse s.toList).parts := by
  constructor
  case restored =>
    have htext := Template.text_parse s.toList
    rw [Occurrence.placeholders_scan, Template.parts, Part.restore_ofRun_append]
    exact (congrArg _ (Template.restore_tailParts _)).trans (congrArg some htext)
  case names =>
    rw [Template.name?_parts, Template.names, Occurrence.names_scan]
  case nonempty =>
    intro text htext hempty
    obtain ⟨run, -, hrun, rfl⟩ := Template.mem_runs_of_literal_mem_parts htext
    rw [← String.toList_inj, String.toList_ofList] at hempty
    exact hrun hempty
  case apart =>
    exact Part.isChain_ofRun_append _ (Template.isChain_tailParts _) (Template.head?_tailParts _)
  case plain =>
    intro text htext
    obtain ⟨run, hrun, -, rfl⟩ := Template.mem_runs_of_literal_mem_parts htext
    rw [Occurrence.scan_eq_nil_iff, String.toList_ofList]
    exact Template.tail_parse_of_mem_runs hrun

/-! ### Forms of an accessor -/

/-- A form holds a text that has no placeholder as it is, and any other one in parts. -/
inductive Form.MadeFrom (s : String) : Form → Prop
  | literal (h : Occurrence.scan s = []) : MadeFrom s (.literal s)
  | parts {parts : List Part} (h : Occurrence.scan s ≠ []) (hparts : Part.Decomposes s parts) :
      MadeFrom s (.parts parts)

theorem Form.madeFrom_form (s : String) : Form.MadeFrom s (Template.parse s.toList).form := by
  rw [Template.form, Template.text_parse, String.ofList_toList]
  split_ifs with hempty
  · exact .literal (Occurrence.scan_eq_nil_iff.2 (List.isEmpty_iff.1 hempty))
  · refine .parts (fun hscan => hempty ?_) (Part.decomposes_parts s)
    exact List.isEmpty_iff.2 (Occurrence.scan_eq_nil_iff.1 hscan)

namespace Accessor

/-- The texts of an accessor as it holds them. -/
def forms : Accessor → List Form
  | .constant (.string s) => [.literal s]
  | .phrase _ parts => [.parts parts]
  | .plural _ counts nth => counts.values ++ [nth]
  | .choice _ whenTrue whenFalse => [whenTrue, whenFalse]
  | _ => []

theorem forms_ofText (s : String) : (ofText s).forms = [(Template.parse s.toList).form] := by
  rw [ofText, Template.form, Template.text_parse, String.ofList_toList]
  by_cases hempty : (Template.parse s.toList).tail.isEmpty
  · rw [if_pos hempty, if_pos hempty]
    rfl
  · rw [if_neg hempty, if_neg hempty]
    rfl

theorem forms_ofPlural (counts : Counts String) (nth : String) : (ofPlural counts nth).forms =
    (counts.values ++ [nth]).map fun s => (Template.parse s.toList).form := by
  rw [ofPlural, forms, Counts.values_map, Counts.values_map, List.map_map, List.map_append]
  rfl

/-- The forms of an accessor are those of the texts of its value. -/
theorem forms_ofJson {v : Json.Value} {a : Accessor} (h : ofJson v = .ok a) :
    a.forms = v.texts.map fun s => (Template.parse s.toList).form := by
  induction h using ofJson_induction with
  | string s => exact forms_ofText s
  | plural members counts nth _ hshape =>
      rw [Json.Value.texts, hshape]
      exact forms_ofPlural counts nth
  | choice members whenTrue whenFalse _ hshape =>
      rw [Json.Value.texts, hshape]
      rfl
  | plain members entries _ hshape =>
      rw [Json.Value.texts, hshape]
      rfl
  | _ => rfl

/-- The accessor of a text with placeholders is a phrase, whose parts are the canonical decomposition of the
text. An object of forms has an accessor too, and each form in it is made from its text: it is the text if
this has no placeholders, and otherwise the parts of its canonical decomposition. -/
theorem forms_decompose :
    (∀ s, Occurrence.scan s ≠ [] →
      ∃ args parts, ofJson (.string s) = .ok (.phrase args parts) ∧ Part.Decomposes s parts) ∧
    ∀ members, Shape.ofMembers members ≠ .plain → ∃ a, ofJson (.object members) = .ok a ∧
      List.Forall₂ Form.MadeFrom (Shape.ofMembers members).texts a.forms := by
  refine ⟨fun s hscan => ?_, fun members hforms => ?_⟩
  · have hempty : ¬(Template.parse s.toList).tail.isEmpty := fun hempty =>
      hscan (Occurrence.scan_eq_nil_iff.2 (List.isEmpty_iff.1 hempty))
    exact ⟨_, _, congrArg _ (if_neg hempty), Part.decomposes_parts s⟩
  · obtain ⟨a, ha⟩ : ∃ a, ofJson (.object members) = .ok a := by
      rw [ofJson]
      cases hshape : Shape.ofMembers members with
      | plural counts nth => exact ⟨_, rfl⟩
      | choice whenTrue whenFalse => exact ⟨_, rfl⟩
      | plain => exact absurd hshape hforms
    refine ⟨a, ha, ?_⟩
    rw [forms_ofJson ha, Json.Value.texts, List.forall₂_map_right_iff, List.forall₂_same]
    exact fun s _ => Form.madeFrom_form s

/-- Placeholders may stand side by side and at both ends, and braces that begin none are literal. -/
theorem forms_decompose_braces :
    (∃ args parts,
      ofJson (.string "\x7ba:\x7d\x7bb: number\x7d \x7b\x7ba:\x7d") = .ok (.phrase args parts) ∧
      Part.Decomposes "\x7ba:\x7d\x7bb: number\x7d \x7b\x7ba:\x7d" parts) ∧
    ∃ a, ofJson (.object [("true", .string "\x7bname"), ("false", .string "\x7bname:\x7d")]) = .ok a ∧
      List.Forall₂ Form.MadeFrom (Shape.ofMembers
        [("true", .string "\x7bname"), ("false", .string "\x7bname:\x7d")]).texts a.forms :=
  ⟨forms_decompose.1 _ (by decide +kernel), forms_decompose.2 _ (fun h => nomatch h)⟩

end Accessor

end Phrasebook
