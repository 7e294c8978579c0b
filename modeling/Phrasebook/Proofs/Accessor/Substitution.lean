import Mathlib.Logic.Function.Basic
import Phrasebook.Accessor.OfJson
import Phrasebook.Accessor.ToScript
import Phrasebook.Proofs.Accessor.Identifiers
import Phrasebook.Proofs.Script.Evaluation

/-!
What the function of a text returns. When every parameter is bound to the value of its argument, each
name in the text finds the value of its own argument, whatever identifier stands for it, and so the
function returns the text with the values in place of its placeholders.
-/

namespace Phrasebook

open Script (Expr Stmt Val Env Piece)

/-- The arguments that an accessor takes. -/
def Accessor.args : Accessor → List Arg
  | .phrase args _ => args
  | .plural args _ _ => args
  | .choice args _ _ => args
  | _ => []

/-! ### Bindings -/

def Arg.values (values : String → Val) (args : List Arg) : List Val :=
  args.map fun arg => values arg.name

/-- The bindings of a call with the value of each argument in its place. -/
def Arg.env (values : String → Val) (args : List Arg) : Env :=
  Script.bindParams ((Identifiers.ofArgs args).params args) (Arg.values values args)

section Bindings

variable {args : List Arg} {name : String}

theorem Arg.length_values {values : String → Val} : ((Identifiers.ofArgs args).params args).length =
    (Arg.values values args).length := by
  rw [Identifiers.params, Arg.values, List.length_map, List.length_map]

theorem Arg.env_eq (values : String → Val) (args : List Arg) : Arg.env values args =
    args.map fun arg => ((Identifiers.ofArgs args).get arg.name, values arg.name) := by
  rw [Arg.env, Script.bindParams, Identifiers.params, Arg.values, List.map_map, List.zip_map']
  rfl

/-- The identifier of an argument is bound to the value of that argument and of no other one. -/
theorem Arg.get?_env (values : String → Val) (hargs : Arg.WellNamed args) (h : name ∈ args.map (·.name)) :
    (Arg.env values args).get? ((Identifiers.ofArgs args).get name) = some (values name) := by
  obtain ⟨arg, harg, rfl⟩ := List.mem_map.1 h
  rw [Arg.env_eq]
  refine Env.get?_of_mem ?_ (List.mem_map.2 ⟨arg, harg, rfl⟩)
  rw [List.map_map]
  refine (List.Nodup.of_map _ hargs.nodup).map_on fun x hx y hy heq => ?_
  have hname := Identifiers.get_inj hargs.nodup (List.mem_map_of_mem hx) (List.mem_map_of_mem hy) heq
  exact List.inj_on_of_nodup_map hargs.nodup hx hy hname

end Bindings

/-! ### Templates -/

/-- What a part stands for, given the text of each argument. -/
def Part.chars (value : String → List Char) : Part → List Char
  | .literal text => text.toList
  | .arg name => value name

def Script.Val.chars (v : Val) : List Char := v.render.toList

namespace Template

variable {value : String → List Char}

theorem chars_ofRun (run : List Char) : (Part.ofRun run).flatMap (Part.chars value) = run := by
  rw [Part.ofRun]
  cases run with
  | nil => rfl
  | cons c run =>
      rw [if_neg (by simp), List.flatMap_singleton, Part.chars, String.toList_ofList]

/-- The parts of a text, each for what it stands for, are the text with its placeholders filled. -/
theorem chars_parts (value : String → List Char) (t : Template) :
    t.parts.flatMap (Part.chars value) = t.fill value := by
  rw [parts, fill, List.flatMap_append, chars_ofRun, List.flatMap_assoc]
  congr 2
  funext x
  obtain ⟨p, run⟩ := x
  rw [List.flatMap_cons, chars_ofRun]
  rfl

end Template

section Evaluation

variable {args : List Arg} (values : String → Val) (hargs : Arg.WellNamed args)
include hargs

theorem piecesText_parts {parts : List Part}
    (h : ∀ name, .arg name ∈ parts → name ∈ args.map (·.name)) :
    Script.piecesText (Arg.env values args) (parts.map (Part.toPiece (Identifiers.ofArgs args))) =
      .ok (String.ofList (parts.flatMap (Part.chars fun name => (values name).chars))) := by
  induction parts with
  | nil => rfl
  | cons part parts ih =>
      have hrest := ih fun name hname => h name (List.mem_cons_of_mem _ hname)
      cases part with
      | literal text =>
          rw [List.map_cons, Part.toPiece, Script.piecesText, hrest, List.flatMap_cons,
            String.ofList_append, Part.chars, String.ofList_toList]
          rfl
      | arg name =>
          have hget := Script.Expr.eval_ident (Arg.get?_env values hargs
            (h name (List.mem_cons_self ..)))
          rw [List.map_cons, Part.toPiece, Script.piecesText, hget, hrest, List.flatMap_cons,
            String.ofList_append, Part.chars, Script.Val.chars, String.ofList_toList]
          rfl

/-- A text is evaluated to what fills it, if all that it asks for is among the arguments. -/
theorem Template.eval_parts {t : Template} (h : ∀ arg ∈ t.args, arg.name ∈ args.map (·.name)) :
    (Part.toTemplate (Identifiers.ofArgs args) t.parts).eval (Arg.env values args) =
      .ok (.string (String.ofList (t.fill fun name => (values name).chars))) := by
  rw [Part.toTemplate, Expr.eval, piecesText_parts values hargs, Template.chars_parts]
  · rfl
  · intro name hname
    obtain ⟨arg, harg, rfl⟩ := List.mem_map.1 (Template.name_mem_args hname)
    exact h arg harg

theorem Template.eval_form {t : Template} (h : ∀ arg ∈ t.args, arg.name ∈ args.map (·.name)) :
    (t.form.toScript (Identifiers.ofArgs args)).eval (Arg.env values args) =
      .ok (.string (String.ofList (t.fill fun name => (values name).chars))) := by
  rw [Template.form]
  by_cases hempty : t.tail.isEmpty
  · rw [if_pos hempty, Template.fill_of_isEmpty hempty]
    rfl
  · rw [if_neg hempty]
    exact Template.eval_parts values hargs h

end Evaluation

/-! ### Texts -/

/-- A text with the values of its arguments in place of its placeholders. -/
def filled (values : String → Val) (s : String) : String :=
  String.ofList ((Template.parse s.toList).fill fun name => (values name).chars)

theorem utf8_filled (values : String → Val) (s : String) :
    utf8 (filled values s) = substitute (fun name => (values name).render) s := by
  rw [substitute_eq, utf8_eq_encode, filled, String.toList_ofList]
  rfl

theorem Occurrence.names_scan (s : String) : (scan s).map (·.placeholder.name) =
    (Template.parse s.toList).args.map (·.name) := by
  have hplaceholders := congrArg (List.map (·.name)) (placeholders_scan s)
  rw [List.map_map] at hplaceholders
  rw [Template.args, List.map_map]
  exact hplaceholders

namespace Accessor

/-- A text without placeholders is a literal of its own. Any other text is a function: called with
the values of the names in it, in the order in which they first occur, it returns the bytes of the
text with each placeholder replaced by the value of its name, and all other bytes as they are. -/
theorem script_of_text (s : String) (values : String → Val) : ∃ a, ofJson (.string s) = .ok a ∧
    if Occurrence.scan s = [] then a.toScript = .literal (.string s)
    else (∃ params body, a.toScript = .lambda params body) ∧ ∃ text,
      a.toScript.call (((Occurrence.scan s).map (·.placeholder.name)).eraseDups.map values) = .ok text ∧
      utf8 text = substitute (fun name => (values name).render) s := by
  refine ⟨ofText s, rfl, ?_⟩
  have hscan : Occurrence.scan s = [] ↔ (Template.parse s.toList).tail.isEmpty := by
    rw [List.isEmpty_iff, ← List.map_eq_nil_iff (f := (·.placeholder)), Occurrence.placeholders_scan]
    exact List.map_eq_nil_iff
  rw [ofText]
  by_cases hempty : (Template.parse s.toList).tail.isEmpty
  · rw [if_pos (hscan.2 hempty), if_pos hempty]
    rfl
  · have hargs : Arg.WellNamed (Arg.distinct (Template.parse s.toList).args) :=
      Arg.wellNamed_distinct fun _ => Template.isName_of_mem_args
    have hvalues : ((Occurrence.scan s).map (·.placeholder.name)).eraseDups.map values =
        Arg.values values (Arg.distinct (Template.parse s.toList).args) := by
      rw [Occurrence.names_scan, ← Arg.names_distinct, List.map_map]
      rfl
    have heval := Template.eval_parts values hargs fun _ => Arg.mem_names_distinct
    rw [if_neg fun hnil => hempty (hscan.1 hnil), if_neg hempty, hvalues]
    exact ⟨⟨_, _, rfl⟩, filled values s, Expr.call_lambda Arg.length_values heval,
      utf8_filled values s⟩

end Accessor

end Phrasebook
