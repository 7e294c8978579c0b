import Phrasebook.Proofs.Accessor.Entries
import Phrasebook.Proofs.Accessor.Identifiers
import Phrasebook.Proofs.Counts
import Phrasebook.Proofs.Json.Nodes
import Phrasebook.Proofs.Script.Templates
import Phrasebook.Proofs.Template

/-!
The scripts of accessors are readable: no run of a template is empty or meets another one, and every
parameter has an identifier. So the text that is written for a resource is read back as the script it
was written for.
-/

namespace Phrasebook

open Script (Expr Stmt Piece Alternating)

/-! ### Parts of a text -/

/-- A run goes well before pieces that do not begin with another one. -/
theorem Part.alternating_ofRun {identifiers : Identifiers} (run : List Char) {pieces : List (Piece Expr)}
    (h : Alternating pieces) (hfirst : ∀ text, pieces.head? ≠ some (.static text)) :
    Alternating ((Part.ofRun run).map (Part.toPiece identifiers) ++ pieces) := by
  rw [Part.ofRun]
  cases run with
  | nil => exact h
  | cons c run =>
      have hne : String.ofList (c :: run) ≠ "" := by
        intro hempty
        have := congrArg String.toList hempty
        rw [String.toList_ofList] at this
        cases this
      cases pieces with
      | nil => exact hne
      | cons piece pieces =>
          cases piece with
          | static text => exact absurd rfl (hfirst text)
          | dynamic value => exact ⟨hne, h⟩

namespace Template

/-- In a template literal runs stand between expressions only. -/
theorem alternating_parts (identifiers : Identifiers) (t : Template) :
    Alternating (t.parts.map (Part.toPiece identifiers)) := by
  have htail : ∀ tail : List (Placeholder × List Char),
      Alternating ((tail.flatMap fun x => .arg x.1.name :: Part.ofRun x.2).map
        (Part.toPiece identifiers)) ∧
      ∀ text, ((tail.flatMap fun x => .arg x.1.name :: Part.ofRun x.2).map
        (Part.toPiece identifiers)).head? ≠ some (.static text) := by
    intro tail
    induction tail with
    | nil => exact ⟨trivial, fun text h => by cases h⟩
    | cons first tail ih =>
        obtain ⟨p, run⟩ := first
        refine ⟨?_, fun text h => by cases h⟩
        rw [List.flatMap_cons, List.cons_append, List.map_cons, List.map_append]
        exact Part.alternating_ofRun run ih.1 ih.2
  rw [parts, List.map_append]
  exact Part.alternating_ofRun t.head (htail t.tail).1 (htail t.tail).2

/-- So no text of a resource opens a substitution where two of its parts meet. -/
theorem seamless_parts (identifiers : Identifiers) (t : Template) :
    Script.Seamless (t.parts.map (Part.toPiece identifiers)) :=
  Script.seamless_of_alternating _ (alternating_parts identifiers t)

end Template

/-! ### Scripts with the arguments of an accessor -/

section Scripts

variable {args : List Arg} (hargs : Arg.WellNamed args)
include hargs

/-- A text is readable as a template literal when all it asks for is among the arguments. -/
theorem Template.readable_parts {t : Template} (h : ∀ arg ∈ t.args, arg.name ∈ args.map (·.name)) :
    (Part.toTemplate (Identifiers.ofArgs args) t.parts).Readable := by
  have hpieces : ∀ parts : List Part, (∀ name, .arg name ∈ parts → name ∈ args.map (·.name)) →
      Script.PiecesReadable (parts.map (Part.toPiece (Identifiers.ofArgs args))) := by
    intro parts hparts
    induction parts with
    | nil => trivial
    | cons part parts ih =>
        have hrest := ih fun name hname => hparts name (List.mem_cons_of_mem _ hname)
        cases part with
        | literal text => exact hrest
        | arg name =>
            have hname := hparts name (List.mem_cons_self ..)
            exact ⟨Identifiers.isIdentifier_get hargs hname, hrest⟩
  refine ⟨Template.alternating_parts _ t, hpieces t.parts fun name hname => ?_⟩
  obtain ⟨arg, harg, rfl⟩ := List.mem_map.1 (Template.name_mem_args hname)
  exact h arg harg

theorem Template.readable_form {t : Template} (h : ∀ arg ∈ t.args, arg.name ∈ args.map (·.name)) :
    (t.form.toScript (Identifiers.ofArgs args)).Readable := by
  rw [Template.form]
  split
  · trivial
  · exact Template.readable_parts hargs h

end Scripts

namespace Accessor

/-! ### The script of each kind of accessor -/

theorem readable_ofText (s : String) : (ofText s).toScript.Readable := by
  rw [ofText]
  by_cases h : (Template.parse s.toList).tail.isEmpty
  · simp only [if_pos h]
    trivial
  · have hargs : Arg.WellNamed (Arg.distinct (Template.parse s.toList).args) :=
      Arg.wellNamed_distinct fun _ => Template.isName_of_mem_args
    simp only [if_neg h]
    refine ⟨Identifiers.isIdentifier_params hargs, fun level hbrace => ?_,
      Template.readable_parts hargs fun _ => Arg.mem_names_distinct⟩
    cases hbrace

theorem readable_ofPlural (counts : Counts String) (nth : String) :
    (ofPlural counts nth).toScript.Readable := by
  have hargs := wellNamed_argsOf .count (by decide) (counts.values ++ [nth])
  rw [List.map_append, List.map_cons, List.map_nil, ← Counts.values_map] at hargs
  have hcount : Script.IsIdentifier Arg.count.name := ⟨by decide, by decide⟩
  refine ⟨Identifiers.isIdentifier_params hargs, Script.stmtsReadable_of_forall fun x hx => ?_⟩
  rcases List.mem_append.1 hx with hx | hx
  · obtain ⟨⟨count, form⟩, hform, rfl⟩ := List.mem_map.1 hx
    obtain ⟨⟨_, t⟩, ht, heq⟩ := List.mem_map.1 hform
    cases heq
    have hvalue : t ∈ (counts.map fun s => Template.parse s.toList).values :=
      List.mem_map.2 ⟨_, ht, rfl⟩
    exact ⟨⟨⟨rfl, hcount⟩, rfl, trivial⟩,
      Template.readable_form hargs (mem_names_argsOf (List.mem_append_left _ hvalue)), trivial⟩
  · rw [List.mem_singleton.1 hx]
    exact Template.readable_form hargs (mem_names_argsOf
      (List.mem_append_right _ (List.mem_singleton_self _)))

theorem readable_ofChoice (whenTrue whenFalse : String) :
    (ofChoice whenTrue whenFalse).toScript.Readable := by
  have hargs := wellNamed_argsOf .bool (by decide) [whenTrue, whenFalse]
  have hbool : Script.IsIdentifier Arg.bool.name := ⟨by decide, by decide⟩
  refine ⟨Identifiers.isIdentifier_params hargs, ⟨⟨⟨rfl, hbool⟩, rfl, trivial⟩, ⟨?_, trivial⟩, ?_, trivial⟩,
    trivial⟩
  · exact Template.readable_form hargs (mem_names_argsOf (List.mem_cons_self ..))
  · exact Template.readable_form hargs (mem_names_argsOf
      (List.mem_cons_of_mem _ (List.mem_cons_self ..)))

/-! ### Resources -/

theorem readable_ofJson (v : Json.Value) : ∀ a, ofJson v = .ok a → a.toScript.Readable := by
  intro a h
  induction h using ofJson_induction with
  | bool b => trivial
  | number n => trivial
  | string s => exact readable_ofText s
  | array items accessors _ hitems ih =>
      rw [toScript, itemsToScript_eq]
      refine Script.itemsReadable_of_forall fun e he => ?_
      obtain ⟨accessor, haccessor, rfl⟩ := List.mem_map.1 he
      obtain ⟨item, hitem, hok⟩ := exists_mem_of_forall₂ hitems haccessor
      exact ih item hitem accessor hok
  | plural members counts nth => exact readable_ofPlural counts nth
  | choice members whenTrue whenFalse => exact readable_ofChoice whenTrue whenFalse
  | plain members entries _ _ hentries ih =>
      rw [toScript, entriesToScript_eq]
      refine Script.membersReadable_of_forall fun m hm => ?_
      obtain ⟨entry, hentry, rfl⟩ := List.mem_map.1 hm
      obtain ⟨member, hmember, -, hok⟩ := exists_mem_of_forall₂ hentries hentry
      exact ih member hmember entry.2 hok

/-- The text that is written for a resource is read back, from its first character to its last, as the
script it was written for. So two resources of one text have one script, but for numbers that are
written alike. -/
theorem read_script_text {v : Json.Value} {a : Accessor} (h : ofJson v = .ok a) :
    (∀ level, Script.read (a.toScript.text level) = some a.toScript.tree) ∧
      ∀ w b, ofJson w = .ok b → b.toScript.text 0 = a.toScript.text 0 →
        b.toScript.tree = a.toScript.tree := by
  have hread := Script.read_text (readable_ofJson v a h)
  refine ⟨hread, fun w b hb htext => ?_⟩
  have hother := Script.read_text (readable_ofJson w b hb) 0
  rw [htext, hread 0] at hother
  exact (Option.some.inj hother).symm

/-- Keys and texts that hold delimiters, placeholders and reserved words stay within their literals. -/
theorem read_script_text_delimiters : ∃ a,
    ofJson (.object [("a\": 1, \x7b",
      .array [.string "\x60 + $\x7bclass: number\x7d\\", .number (.int 5)])]) = .ok a ∧
      Script.read (a.toScript.text 0) = some a.toScript.tree :=
  Exists.imp (fun _ h => ⟨h, (read_script_text h).1 0⟩) ⟨_, rfl⟩

end Accessor

end Phrasebook
