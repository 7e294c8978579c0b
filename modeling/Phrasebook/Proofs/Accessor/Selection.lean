import Phrasebook.Proofs.Accessor.Substitution
import Phrasebook.Proofs.Shape

/-!
What the functions of several texts return. Called with a count, the function of plural forms passes
by all the conditionals for other counts and returns the text for this one, or the last text; called
with a flag, the function of boolean forms returns one of its two texts. The text is filled with the
values of the arguments, to which the count or the flag itself belongs.
-/

namespace Phrasebook.Accessor

open Script (Expr Stmt Val Env)

/-- A conditional that returns a text if the count is strictly equal to a numeral. -/
def conditional (identifiers : Identifiers) (numeral : Number) (s : String) : Stmt :=
  .ifThen (.strictEqual (.ident Arg.count.name) (.literal (.number numeral)))
    [(Template.parse s.toList).form.toReturn identifiers]

section Returns

variable {args : List Arg} (values : String → Val) (hargs : Arg.WellNamed args)
include hargs

theorem exec_toReturn {s : String}
    (h : ∀ arg ∈ (Template.parse s.toList).args, arg.name ∈ args.map (·.name)) :
    ((Template.parse s.toList).form.toReturn (Identifiers.ofArgs args)).exec (Arg.env values args) =
      .ok (some (.string (filled values s))) :=
  Stmt.exec_ret (Template.eval_form values hargs h)

theorem get?_env_of_not_reserved {name : String} (h : name ∈ args.map (·.name))
    (hreserved : ¬Script.isReserved name) : (Arg.env values args).get? name = some (values name) := by
  have hget := Arg.get?_env values hargs h
  rw [Identifiers.get_of_not_reserved hargs.nodup h hreserved] at hget
  exact hget

/-! ### Plural forms -/

/-- Of the conditionals for counts, each with a numeral for its own, and the last return, the first that
returns has a numeral that is strictly equal to the count. -/
theorem execBlock_conditionals (numeral : Nat → Number) (hname : Arg.count.name ∈ args.map (·.name))
    {entries : List (Nat × String)} {nth : String}
    (hentries : ∀ entry ∈ entries, ∀ arg ∈ (Template.parse entry.2.toList).args,
      arg.name ∈ args.map (·.name))
    (hnth : ∀ arg ∈ (Template.parse nth.toList).args, arg.name ∈ args.map (·.name)) :
    Script.execBlock (Arg.env values args) (entries.map (fun (count, s) =>
        conditional (Identifiers.ofArgs args) (numeral count) s) ++
      [(Template.parse nth.toList).form.toReturn (Identifiers.ofArgs args)]) =
      .ok (some (.string (filled values (((entries.find? fun entry =>
        (values Arg.count.name).strictEqual (.number (numeral entry.1))).map (·.2)).getD nth)))) := by
  have hident := Script.Expr.eval_ident (get?_env_of_not_reserved values hargs hname (by decide))
  induction entries with
  | nil => exact Script.execBlock_of_returns (exec_toReturn values hargs hnth)
  | cons entry entries ih =>
      obtain ⟨count, s⟩ := entry
      have hcondition := Script.Expr.eval_strictEqual hident
        (show (Expr.literal (.number (numeral count))).eval (Arg.env values args) =
          .ok (.number (numeral count)) from rfl)
      have hexec : (conditional (Identifiers.ofArgs args) (numeral count) s).exec (Arg.env values args) = _ :=
        Stmt.exec_ifThen hcondition
      -- a conditional for another count returns nothing and leaves it to those after it
      by_cases hc : (values Arg.count.name).strictEqual (.number (numeral count))
      · rw [if_pos hc, Script.execBlock_of_returns
          (exec_toReturn values hargs (hentries _ (List.mem_cons_self ..)))] at hexec
        rw [List.find?_cons_of_pos (by exact hc)]
        exact Script.execBlock_of_returns hexec
      · rw [if_neg hc] at hexec
        rw [List.find?_cons_of_neg (by exact hc)]
        refine (Script.execBlock_of_passes hexec).trans ?_
        exact ih fun entry hentry => hentries entry (List.mem_cons_of_mem _ hentry)

end Returns

/-- The function of plural forms: a conditional for each count of the table, then the text for all
others. -/
theorem toScript_ofPlural (counts : Counts String) (nth : String) :
    let args := (ofPlural counts nth).args
    let identifiers := Identifiers.ofArgs args
    (ofPlural counts nth).toScript = .procedure (identifiers.params args)
      (counts.entries.map (fun (count, s) =>
        countStmt identifiers count (Template.parse s.toList).form) ++
          [(Template.parse nth.toList).form.toReturn identifiers]) := by
  intro args identifiers
  rw [ofPlural, toScript, Counts.map, Counts.map, List.map_map, List.map_map]
  rfl

/-- The function of plural forms with a numeral in the place of each count. -/
def pluralScript (numeral : Nat → Number) (counts : Counts String) (nth : String) : Expr :=
  let args := (ofPlural counts nth).args
  let identifiers := Identifiers.ofArgs args
  .procedure (identifiers.params args)
    (counts.entries.map (fun (count, s) => conditional identifiers (numeral count) s) ++
      [(Template.parse nth.toList).form.toReturn identifiers])

/-- The function of plural forms returns the first text whose numeral is strictly equal to the count, or
else the last text, filled. -/
theorem call_pluralScript (numeral : Nat → Number) (counts : Counts String) (nth : String)
    (values : String → Val) :
    (pluralScript numeral counts nth).call (Arg.values values (ofPlural counts nth).args) =
      .ok (filled values (((counts.entries.find? fun entry =>
        (values Arg.count.name).strictEqual (.number (numeral entry.1))).map (·.2)).getD nth)) := by
  have hargs := wellNamed_argsOf .count (by decide) (counts.values ++ [nth])
  rw [List.map_append, List.map_cons, List.map_nil, ← Counts.values_map] at hargs
  have hentries : ∀ entry ∈ counts.entries, ∀ arg ∈ (Template.parse entry.2.toList).args,
      arg.name ∈ (ofPlural counts nth).args.map (·.name) := fun entry hentry =>
    mem_names_argsOf (List.mem_append_left _ (List.mem_map.2
      ⟨_, List.mem_map_of_mem hentry, rfl⟩))
  have hnth : ∀ arg ∈ (Template.parse nth.toList).args,
      arg.name ∈ (ofPlural counts nth).args.map (·.name) :=
    mem_names_argsOf (List.mem_append_right _ (List.mem_singleton_self _))
  have hexec := execBlock_conditionals values hargs numeral selector_mem_names_argsOf hentries hnth
  exact Expr.call_procedure Arg.length_values hexec

/-- The function of plural forms, called with a count among the arguments, returns the text of its
table for that count, filled. -/
theorem call_ofPlural (counts : Counts String) (nth : String) {c : Int} {values : String → Val}
    (hcount : values Arg.count.name = .number (.int c)) :
    (ofPlural counts nth).toScript.call (Arg.values values (ofPlural counts nth).args) =
      .ok (filled values ((counts.get? c).getD nth)) := by
  have hget : (counts.entries.find? fun entry =>
      (values Arg.count.name).strictEqual (.number (.int entry.1))).map (·.2) = counts.get? c := by
    rw [hcount, Counts.get?, Counts.lookup]
    simp only [Val.strictEqual_int, Bool.beq_eq_decide_eq, eq_comm (a := c)]
  rw [toScript_ofPlural, ← hget]
  exact call_pluralScript (fun n => .int n) counts nth values

theorem toScript_ofChoice (whenTrue whenFalse : String) :
    let args := (ofChoice whenTrue whenFalse).args
    let identifiers := Identifiers.ofArgs args
    (ofChoice whenTrue whenFalse).toScript = .procedure (identifiers.params args)
      [.ifElse (.strictEqual (.ident Arg.bool.name) (.literal (.bool true)))
        [(Template.parse whenTrue.toList).form.toReturn identifiers]
        [(Template.parse whenFalse.toList).form.toReturn identifiers]] := by
  intro args identifiers
  rw [ofChoice, toScript]
  rfl

/-- The function of boolean forms, called with a flag among the arguments, returns the text for that
flag, filled. -/
theorem call_ofChoice (whenTrue whenFalse : String) {b : Bool} {values : String → Val}
    (hbool : values Arg.bool.name = .bool b) :
    (ofChoice whenTrue whenFalse).toScript.call
        (Arg.values values (ofChoice whenTrue whenFalse).args) =
      .ok (filled values (if b then whenTrue else whenFalse)) := by
  have hargs := wellNamed_argsOf .bool (by decide) [whenTrue, whenFalse]
  have hident : (Expr.ident Arg.bool.name).eval
      (Arg.env values (ofChoice whenTrue whenFalse).args) = .ok (.bool b) := by
    rw [← hbool]
    exact Script.Expr.eval_ident
      (get?_env_of_not_reserved values hargs selector_mem_names_argsOf (by decide))
  have hcondition := Script.Expr.eval_strictEqual hident
    (show (Expr.literal (.bool true)).eval (Arg.env values (ofChoice whenTrue whenFalse).args) =
      .ok (.bool true) from rfl)
  rw [Val.strictEqual_bool, beq_true] at hcondition
  have hblock : Script.execBlock (Arg.env values (ofChoice whenTrue whenFalse).args)
      (if b then [(Template.parse whenTrue.toList).form.toReturn
          (Identifiers.ofArgs (ofChoice whenTrue whenFalse).args)]
        else [(Template.parse whenFalse.toList).form.toReturn
          (Identifiers.ofArgs (ofChoice whenTrue whenFalse).args)]) =
      .ok (some (.string (filled values (if b then whenTrue else whenFalse)))) := by
    cases b with
    | true =>
        exact Script.execBlock_of_returns
          (exec_toReturn values hargs (mem_names_argsOf (List.mem_cons_self ..)))
    | false =>
        exact Script.execBlock_of_returns
          (exec_toReturn values hargs (mem_names_argsOf
            (List.mem_cons_of_mem _ (List.mem_cons_self ..))))
  rw [toScript_ofChoice]
  exact Expr.call_procedure Arg.length_values
    (Script.execBlock_of_returns ((Stmt.exec_ifElse hcondition).trans hblock))

/-! ### Objects of forms -/

/-- For an object of plural forms there is a function that returns, for every integer as the count
and all values of the other arguments, the text of the member that stands for the integer, with each
placeholder replaced by the value of its name. -/
theorem call_plural {members : List (String × Json.Value)} {counts : Counts String} {nth : String}
    (hkeys : (members.map (·.1)).Nodup) (hshape : Shape.ofMembers members = .plural counts nth)
    {c : Int} {values : String → Val} (hcount : values "count" = .number (.int c)) :
    ∃ a source text, ofJson (.object members) = .ok a ∧
      Shape.pluralSource? members c = some (.string source) ∧
      a.toScript.call (Arg.values values a.args) = .ok text ∧
      utf8 text = substitute (fun name => (values name).render) source := by
  refine ⟨ofPlural counts nth, (counts.get? c).getD nth, _, ?_, ?_, ?_, utf8_filled values _⟩
  · rw [ofJson, hshape]
  · exact Shape.pluralSource?_of_plural c hkeys hshape
  · exact call_ofPlural counts nth hcount

/-- A canonical key may come after another key of its count, and a reserved word may be among the
arguments. -/
theorem call_plural_canonical : ∃ a source text,
    ofJson (.object [("01", .string "uno"), ("1", .string "\x7bclass: string\x7d"),
      ("n", .string "\x7bcount: number\x7d")]) = .ok a ∧
    Shape.pluralSource? [("01", .string "uno"), ("1", .string "\x7bclass: string\x7d"),
      ("n", .string "\x7bcount: number\x7d")] 1 = some (.string source) ∧
    a.toScript.call (Arg.values (fun name => if name = "count" then .number (.int 1) else .nan)
      a.args) = .ok text ∧
    utf8 text = substitute (fun name =>
      (if name = "count" then Val.number (.int 1) else .nan).render) source :=
  call_plural (by decide) rfl (if_pos rfl)

/-- For an object with the keys `true` and `false` there is a function that returns, for each flag and
all values of the other arguments, the text under the key that spells the flag, with each placeholder
replaced by the value of its name. -/
theorem call_choice {members : List (String × Json.Value)} {whenTrue whenFalse : String}
    (hmembers : members = [("true", .string whenTrue), ("false", .string whenFalse)] ∨
      members = [("false", .string whenFalse), ("true", .string whenTrue)])
    {b : Bool} {values : String → Val} (hbool : values "bool" = .bool b) :
    ∃ a text, ofJson (.object members) = .ok a ∧
      a.toScript.call (Arg.values values a.args) = .ok text ∧
      utf8 text = substitute (fun name => (values name).render)
        (if b then whenTrue else whenFalse) := by
  have hshape : Shape.ofMembers members = .choice whenTrue whenFalse := by
    rcases hmembers with rfl | rfl
    · rfl
    · rfl
  refine ⟨ofChoice whenTrue whenFalse, _, ?_, ?_, utf8_filled values _⟩
  · rw [ofJson, hshape]
  · exact call_ofChoice whenTrue whenFalse hbool

/-- The flag itself may stand in a text, whatever type it declares there. -/
theorem call_choice_flag : ∃ a text,
    ofJson (.object [("false", .string "\x7bbool: number\x7d"),
      ("true", .string "\x7bif: string\x7d")]) = .ok a ∧
    a.toScript.call (Arg.values (fun name => if name = "bool" then .bool false else .nan) a.args) =
      .ok text ∧
    utf8 text = substitute (fun name => (if name = "bool" then Val.bool false else .nan).render)
      "\x7bbool: number\x7d" :=
  call_choice (b := false) (Or.inr rfl) (if_pos rfl)

end Phrasebook.Accessor
