import Phrasebook.Proofs.Script.Parts
import Phrasebook.Proofs.Script.RoundTrip
import Phrasebook.Proofs.Script.StringLiterals

/-!
Levels and lines of a script. The text of an expression at some level is its text at level zero with
all lines but the first moved in, and the text of a statement is moved in as a whole. Lines end only
where brackets stand: no string, key, static text or number has a line end in its text, so their
contents do not matter to the number of lines.
-/

namespace Phrasebook.Script

/-! ### Moving lines in -/

/-- A text in which every line but the first begins with the spaces of a level. -/
def shift (level : Nat) (s : List Char) : List Char :=
  s.flatMap fun c => if c = '\n' then '\n' :: indent level else [c]

section Shift

variable {level : Nat} {s t moved lines : List Char}

theorem shift_append : shift level (s ++ t) = shift level s ++ shift level t := List.flatMap_append

theorem shift_cons_of_ne {c : Char} (h : c ≠ '\n') : shift level (c :: s) = c :: shift level s := by
  rw [shift, List.flatMap_cons, if_neg h]
  rfl

theorem shift_lineEnd : shift level ('\n' :: s) = '\n' :: (indent level ++ shift level s) := by
  rw [shift, List.flatMap_cons, if_pos rfl]
  rfl

theorem shift_of_not_mem (h : '\n' ∉ s) : shift level s = s := by
  induction s with
  | nil => rfl
  | cons c s ih =>
      rw [List.mem_cons, not_or] at h
      rw [shift_cons_of_ne (Ne.symm h.1), ih h.2]

theorem shift_indent (base : Nat) : shift level (indent base) = indent base := by
  refine shift_of_not_mem fun h => ?_
  exact absurd (List.eq_of_mem_replicate h) (by decide)

theorem indent_add (base level : Nat) : indent (base + level) = indent level ++ indent base := by
  rw [indent, indent, indent, List.replicate_append_replicate]
  congr 1
  omega

/-- Lines, and the same lines moved in. The spaces after the last line end belong to the line that
comes next. -/
def MovesIn (level : Nat) (moved lines : List Char) : Prop :=
  moved ++ indent level = indent level ++ shift level lines

theorem MovesIn.append {moved' lines' : List Char} (h : MovesIn level moved lines)
    (h' : MovesIn level moved' lines') : MovesIn level (moved ++ moved') (lines ++ lines') := by
  calc
    moved ++ moved' ++ indent level = moved ++ indent level ++ shift level lines' := by
      rw [List.append_assoc, h', List.append_assoc]
    _ = indent level ++ shift level (lines ++ lines') := by
      rw [h, shift_append, List.append_assoc]

/-- One line that holds the rest of a text. -/
theorem movesIn_line (level base : Nat) (s : List Char) :
    MovesIn level (indent (base + level) ++ (shift level s ++ ['\n']))
      (indent base ++ (s ++ ['\n'])) := by
  simp only [MovesIn, shift_append, shift_indent, shift_lineEnd, indent_add, List.append_assoc,
    List.cons_append, List.nil_append]
  simp [shift]

/-- Lines between brackets: what stands before the closing one begins a line of its own. -/
theorem block_eq_shift (h : MovesIn level moved lines) (base : Nat) (close : List Char)
    (hclose : '\n' ∉ close) : '\n' :: (moved ++ (indent (base + level) ++ close)) =
      shift level ('\n' :: (lines ++ (indent base ++ close))) := by
  rw [shift_lineEnd, shift_append, shift_append, shift_indent, shift_of_not_mem hclose, indent_add,
    List.append_assoc, ← List.append_assoc, h, List.append_assoc]

theorem movesIn_linesChars {α : Type} {text text' : α → List Char} {items : List α}
    (h : ∀ x ∈ items, text' x = shift level (text x)) (base : Nat) :
    MovesIn level (linesChars (base + level) text' items) (linesChars base text items) := by
  induction items with
  | nil => simp [MovesIn, linesChars, shift]
  | cons x items ih =>
      have hline := movesIn_line level base (text x ++ [','])
      have hrest := ih fun y hy => h y (List.mem_cons_of_mem _ hy)
      rw [shift_append, shift_of_not_mem (s := [',']) (by decide), List.append_assoc,
        List.append_assoc, ← h x (List.mem_cons_self ..)] at hline
      exact hline.append hrest

end Shift

/-! ### Texts of one line -/

theorem lineEnd_not_mem_of_isVisible {s : List Char} (h : ∀ c ∈ s, isVisible c) : '\n' ∉ s :=
  fun hmem => absurd (h _ hmem) (by decide)

theorem lineEnd_not_mem_numberText (n : Number) : '\n' ∉ n.text := by
  have hdigits : ∀ {digits : List Char}, AllDigits digits → '\n' ∉ digits :=
    fun hdigits hmem => absurd (hdigits _ hmem) (by decide)
  obtain ⟨sign, text, hsign, htext, heq⟩ := numberText_eq n
  obtain ⟨hwhole, -, hfraction, hexponent⟩ := htext
  have hminus : '\n' ∉ sign := by
    rcases hsign with rfl | rfl <;> decide
  rw [heq, List.mem_append, List.mem_append, List.mem_append, not_or, not_or, not_or]
  refine ⟨hminus, ⟨hdigits hwhole, ?_⟩, ?_⟩
  · cases hfraction with
    | absent => exact List.not_mem_nil
    | digits h => simp [hdigits h]
  · cases hexponent with
    | absent => exact List.not_mem_nil
    | power hsign hne h => rcases hsign with rfl | rfl <;> simp [hdigits h]

theorem lineEnd_not_mem_literal (value : Literal) : '\n' ∉ value.chars := by
  cases value with
  | string s => exact lineEnd_not_mem_of_isVisible fun _ => isVisible_of_mem_quoteString
  | number n => exact lineEnd_not_mem_numberText n
  | bool b => cases b <;> decide

theorem lineEnd_not_mem_propertyName (key : List Char) : '\n' ∉ propertyName key :=
  lineEnd_not_mem_of_isVisible fun _ => isVisible_of_mem_propertyName

theorem lineEnd_not_mem_escapeTemplate (s : List Char) : '\n' ∉ escapeTemplate s :=
  lineEnd_not_mem_of_isVisible fun _ => isVisible_of_mem_escapeTemplate

theorem lineEnd_not_mem_inlineText {α : Type} {text : α → List Char} {items : List α}
    (h : ∀ x ∈ items, '\n' ∉ text x) : '\n' ∉ inlineText text items := by
  induction items with
  | nil => exact List.not_mem_nil
  | cons x items ih =>
      have hx := h x (List.mem_cons_self ..)
      have hrest := ih fun y hy => h y (List.mem_cons_of_mem _ hy)
      cases items with
      | nil =>
          rw [inlineText_singleton]
          exact hx
      | cons y items =>
          rw [inlineText_cons_cons]
          simp [hx, hrest]

/-- The items of an array of literals. -/
theorem lineEnd_not_mem_inlineChars {items : List Expr} (h : items.all Expr.isLiteral) :
    '\n' ∉ inlineChars items := by
  rw [inlineChars_eq]
  refine lineEnd_not_mem_inlineText fun item hitem => ?_
  have hliteral := List.all_eq_true.1 h item hitem
  cases item with
  | literal value => exact lineEnd_not_mem_literal value
  | _ => cases hliteral

theorem lineEnd_not_mem_paramsChars {params : List Param} (h : ∀ p ∈ params, '\n' ∉ p.name.toList) :
    '\n' ∉ paramsChars params := by
  have hparams : '\n' ∉ inlineText Param.chars params := by
    refine lineEnd_not_mem_inlineText fun p hp => ?_
    have htype : '\n' ∉ p.type.keyword.toList := by cases p.type <;> decide
    simp [Param.chars, h p hp, htype]
  rw [paramsChars_eq]
  simp [hparams]

/-! ### Lines with fixed marks -/

/-- A text that ends the line it stands on, and no other one. -/
def EndsLine (s : List Char) : Prop := ∃ text, s = text ++ ['\n'] ∧ '\n' ∉ text

theorem movesIn_mark {mark : List Char} (h : EndsLine mark) (base level : Nat) :
    MovesIn level (indent (base + level) ++ mark) (indent base ++ mark) := by
  obtain ⟨text, rfl, htext⟩ := h
  have hline := movesIn_line level base text
  rwa [shift_of_not_mem htext] at hline

theorem EndsLine.append {mark : List Char} (h : EndsLine mark) (s : List Char) :
    ∃ lines, s ++ mark = lines ++ ['\n'] := by
  obtain ⟨text, rfl, -⟩ := h
  exact ⟨s ++ text, (List.append_assoc ..).symm⟩

theorem endsLine_brace : EndsLine "\x7d\n".toList := ⟨['\x7d'], rfl, by decide⟩

/-! ### Expressions and statements at a level -/

/-- The text of an expression at any level is that of a lower one with its lines moved in. -/
def Expr.Shifts (e : Expr) : Prop :=
  ∀ base level, e.chars (base + level) = shift level (e.chars base)

/-- The lines of a statement at any level are those of a lower one moved in. -/
def Stmt.Shifts (stmt : Stmt) : Prop :=
  ∀ base level, MovesIn level (stmt.chars (base + level)) (stmt.chars base)

theorem movesIn_stmtsChars {stmts : List Stmt} (h : ∀ x ∈ stmts, x.Shifts) (base level : Nat) :
    MovesIn level (stmtsChars (base + level) stmts) (stmtsChars base stmts) := by
  induction stmts with
  | nil => simp [MovesIn, stmtsChars, shift]
  | cons x stmts ih =>
      have hrest := ih fun y hy => h y (List.mem_cons_of_mem _ hy)
      exact (h x (List.mem_cons_self ..) base level).append hrest

namespace Expr

theorem shifts_of_not_mem {e : Expr} {s : List Char} (htext : ∀ level, e.chars level = s)
    (h : '\n' ∉ s) : e.Shifts := fun base level => by
  rw [htext, htext, shift_of_not_mem h]

theorem shifts_lambda {params : List Param} {body : Expr} (hparams : ∀ p ∈ params, '\n' ∉ p.name.toList)
    (hbody : body.Shifts) : (Expr.lambda params body).Shifts := fun base level => by
  rw [Expr.chars, Expr.chars, shift_append, shift_of_not_mem (lineEnd_not_mem_paramsChars hparams),
    hbody]

theorem shifts_procedure {params : List Param} {body : List Stmt}
    (hparams : ∀ p ∈ params, '\n' ∉ p.name.toList) (hbody : ∀ x ∈ body, x.Shifts) :
    (Expr.procedure params body).Shifts := by
  have hline := lineEnd_not_mem_paramsChars hparams
  cases body with
  | nil => exact shifts_of_not_mem (fun _ => by rw [Expr.chars]) (by simp [hline])
  | cons x body =>
      intro base level
      have hblock := block_eq_shift (movesIn_stmtsChars hbody (base + 1) level) base ['\x7d'] (by decide)
      rw [chars_procedure_cons, chars_procedure_cons, shift_append, shift_of_not_mem hline,
        shift_cons_of_ne (by decide), ← hblock, Nat.add_right_comm]

theorem shifts_object {members : List (String × Expr)} (h : ∀ m ∈ members, m.2.Shifts) :
    (Expr.object members).Shifts := by
  cases members with
  | nil => exact shifts_of_not_mem (fun _ => by rw [Expr.chars]) (by decide)
  | cons m members =>
      intro base level
      have hmember : ∀ x ∈ m :: members,
          memberChars (base + 1 + level) x = shift level (memberChars (base + 1) x) := by
        intro x hx
        rw [memberChars, memberChars, shift_append,
          shift_of_not_mem (lineEnd_not_mem_propertyName x.1.toList), shift_cons_of_ne (by decide),
          shift_cons_of_ne (by decide), h x hx]
      have hblock := block_eq_shift (movesIn_linesChars hmember (base + 1)) base ['\x7d'] (by decide)
      rw [chars_object_cons, chars_object_cons, shift_cons_of_ne (by decide), ← hblock,
        Nat.add_right_comm]

theorem shifts_array {items : List Expr} (h : ∀ item ∈ items, item.Shifts) :
    (Expr.array items).Shifts := by
  by_cases hliterals : items.all Expr.isLiteral
  · refine shifts_of_not_mem (fun level => chars_array_inline level hliterals) ?_
    rw [← inlineChars_eq]
    simp [lineEnd_not_mem_inlineChars hliterals]
  · intro base level
    have hitems : ∀ item ∈ items, item.chars (base + 1 + level) = shift level (item.chars (base + 1)) :=
      fun item hitem => h item hitem (base + 1) level
    have hblock := block_eq_shift (movesIn_linesChars hitems (base + 1)) base [']'] (by decide)
    rw [chars_array_lines _ hliterals, chars_array_lines _ hliterals, shift_cons_of_ne (by decide),
      ← hblock, Nat.add_right_comm]

theorem shifts_template {pieces : List (Piece Expr)}
    (h : ∀ value, .dynamic value ∈ pieces → value.Shifts) : (Expr.template pieces).Shifts := by
  intro base level
  have hpieces : piecesChars (base + level) pieces = shift level (piecesChars base pieces) := by
    induction pieces with
    | nil => rfl
    | cons piece pieces ih =>
        have hrest := ih fun value hvalue => h value (List.mem_cons_of_mem _ hvalue)
        cases piece with
        | static text =>
            rw [piecesChars, piecesChars, shift_append,
              shift_of_not_mem (lineEnd_not_mem_escapeTemplate text.toList), hrest]
        | dynamic value =>
            have hvalue := h value (List.mem_cons_self ..) base level
            rw [piecesChars, piecesChars, List.cons_append, List.cons_append, List.cons_append,
              List.cons_append, shift_cons_of_ne (by decide), shift_cons_of_ne (by decide),
              shift_append, shift_cons_of_ne (by decide), hvalue, hrest]
  rw [Expr.chars, Expr.chars, List.cons_append, List.cons_append, shift_cons_of_ne (by decide),
    shift_append, shift_of_not_mem (s := ['\x60']) (by decide), hpieces]

theorem shifts_strictEqual {left right : Expr} (hleft : left.Shifts) (hright : right.Shifts) :
    (Expr.strictEqual left right).Shifts := fun base level => by
  have hsign : shift level (' ' :: '=' :: '=' :: '=' :: ' ' :: right.chars base) =
      ' ' :: '=' :: '=' :: '=' :: ' ' :: shift level (right.chars base) := by
    simp [shift]
  rw [chars_strictEqual, chars_strictEqual, shift_append, hsign, hleft, hright]

end Expr

namespace Stmt

/-- A line that holds the text of an expression between others. -/
theorem movesIn_around {value : Expr} (h : value.Shifts) {before after : List Char}
    (hbefore : '\n' ∉ before) (hafter : EndsLine after) (base level : Nat) :
    MovesIn level (indent (base + level) ++ before ++ value.chars (base + level) ++ after)
      (indent base ++ before ++ value.chars base ++ after) := by
  obtain ⟨text, rfl, htext⟩ := hafter
  have hline := movesIn_line level base (before ++ value.chars base ++ text)
  rw [shift_append, shift_append, shift_of_not_mem hbefore, shift_of_not_mem htext, ← h] at hline
  simpa only [List.append_assoc] using hline

/-- The line that opens a conditional. -/
theorem movesIn_condition {condition : Expr} (h : condition.Shifts) (base level : Nat) :
    MovesIn level
      (indent (base + level) ++ "if (".toList ++ condition.chars (base + level) ++ ") \x7b\n".toList)
      (indent base ++ "if (".toList ++ condition.chars base ++ ") \x7b\n".toList) :=
  movesIn_around h (by decide) ⟨") \x7b".toList, rfl, by decide⟩ base level

theorem shifts_ret {value : Expr} (h : value.Shifts) : (Stmt.ret value).Shifts := fun base level => by
  rw [Stmt.chars, Stmt.chars]
  exact movesIn_around h (by decide) ⟨[';'], rfl, by decide⟩ base level

theorem shifts_ifThen {condition : Expr} {body : List Stmt} (hcondition : condition.Shifts)
    (hbody : ∀ x ∈ body, x.Shifts) : (Stmt.ifThen condition body).Shifts := fun base level => by
  have hlines := ((movesIn_condition hcondition base level).append
    (movesIn_stmtsChars hbody (base + 1) level)).append (movesIn_mark endsLine_brace base level)
  rw [Stmt.chars, Stmt.chars, Nat.add_right_comm]
  simpa only [List.append_assoc] using hlines

theorem shifts_ifElse {condition : Expr} {onTrue onFalse : List Stmt} (hcondition : condition.Shifts)
    (htrue : ∀ x ∈ onTrue, x.Shifts) (hfalse : ∀ x ∈ onFalse, x.Shifts) :
    (Stmt.ifElse condition onTrue onFalse).Shifts := fun base level => by
  have hmark : EndsLine "\x7d else \x7b\n".toList := ⟨"\x7d else \x7b".toList, rfl, by decide⟩
  have helse := movesIn_mark hmark base level
  have hlines := ((((movesIn_condition hcondition base level).append
    (movesIn_stmtsChars htrue (base + 1) level)).append helse).append
    (movesIn_stmtsChars hfalse (base + 1) level)).append (movesIn_mark endsLine_brace base level)
  rw [Stmt.chars, Stmt.chars, Nat.add_right_comm]
  simpa only [List.append_assoc] using hlines

end Stmt

/-! ### Names -/

/-- The names that an expression writes itself: that of an identifier, those of parameters. -/
def Expr.ownNames : Expr → List String
  | .ident name => [name]
  | .lambda params _ | .procedure params _ => params.map (·.name)
  | _ => []

/-- No name in the expressions holds a line end. -/
def NamesInLine (parts : List Expr) : Prop := ∀ part ∈ parts, ∀ name ∈ part.ownNames, '\n' ∉ name.toList

theorem namesInLine_append {before after : List Expr} :
    NamesInLine (before ++ after) ↔ NamesInLine before ∧ NamesInLine after :=
  List.forall_mem_append

theorem namesInLine_cons {part : Expr} {parts : List Expr} : NamesInLine (part :: parts) ↔
    (∀ name ∈ part.ownNames, '\n' ∉ name.toList) ∧ NamesInLine parts :=
  List.forall_mem_cons

mutual

theorem Expr.shifts : (e : Expr) → NamesInLine e.parts → e.Shifts
  | .ident name, h =>
      Expr.shifts_of_not_mem (fun _ => by rw [Expr.chars])
        ((namesInLine_cons.1 h).1 name (List.mem_singleton_self name))
  | .literal value, _ =>
      Expr.shifts_of_not_mem (fun _ => by rw [Expr.chars]) (lineEnd_not_mem_literal value)
  | .lambda params body, h => by
      obtain ⟨hparams, hbody⟩ := namesInLine_cons.1 h
      exact Expr.shifts_lambda (fun p hp => hparams p.name (List.mem_map_of_mem hp))
        (Expr.shifts body hbody)
  | .procedure params body, h => by
      obtain ⟨hparams, hbody⟩ := namesInLine_cons.1 h
      exact Expr.shifts_procedure (fun p hp => hparams p.name (List.mem_map_of_mem hp))
        (shifts_of_mem_stmts body hbody)
  | .object members, h => Expr.shifts_object (shifts_of_mem_members members (namesInLine_cons.1 h).2)
  | .array items, h => Expr.shifts_array (shifts_of_mem_items items (namesInLine_cons.1 h).2)
  | .template pieces, h => Expr.shifts_template (shifts_of_mem_pieces pieces (namesInLine_cons.1 h).2)
  | .strictEqual left right, h => by
      obtain ⟨hleft, hright⟩ := namesInLine_append.1 (namesInLine_cons.1 h).2
      exact Expr.shifts_strictEqual (Expr.shifts left hleft) (Expr.shifts right hright)

theorem shifts_of_mem_members : (members : List (String × Expr)) → NamesInLine (membersParts members) →
    ∀ m ∈ members, m.2.Shifts
  | [], _, _, hm => by cases hm
  | (_, value) :: rest, h, m, hm => by
      obtain ⟨hvalue, hrest⟩ := namesInLine_append.1 h
      rcases List.mem_cons.1 hm with heq | hm
      · rw [heq]
        exact Expr.shifts value hvalue
      · exact shifts_of_mem_members rest hrest m hm

theorem shifts_of_mem_items : (items : List Expr) → NamesInLine (itemsParts items) →
    ∀ item ∈ items, item.Shifts
  | [], _, _, hitem => by cases hitem
  | first :: rest, h, item, hitem => by
      obtain ⟨hfirst, hrest⟩ := namesInLine_append.1 h
      rcases List.mem_cons.1 hitem with heq | hitem
      · rw [heq]
        exact Expr.shifts first hfirst
      · exact shifts_of_mem_items rest hrest item hitem

theorem shifts_of_mem_pieces : (pieces : List (Piece Expr)) → NamesInLine (piecesParts pieces) →
    ∀ value, .dynamic value ∈ pieces → value.Shifts
  | [], _, _, hvalue => by cases hvalue
  | .static _ :: rest, h, value, hvalue => by
      rcases List.mem_cons.1 hvalue with heq | hvalue
      · cases heq
      · exact shifts_of_mem_pieces rest h value hvalue
  | .dynamic first :: rest, h, value, hvalue => by
      obtain ⟨hfirst, hrest⟩ := namesInLine_append.1 h
      rcases List.mem_cons.1 hvalue with heq | hvalue
      · cases heq
        exact Expr.shifts first hfirst
      · exact shifts_of_mem_pieces rest hrest value hvalue

theorem Stmt.shifts : (stmt : Stmt) → NamesInLine stmt.parts → stmt.Shifts
  | .ret value, h => Stmt.shifts_ret (Expr.shifts value h)
  | .ifThen condition body, h => by
      obtain ⟨hcondition, hbody⟩ := namesInLine_append.1 h
      exact Stmt.shifts_ifThen (Expr.shifts condition hcondition) (shifts_of_mem_stmts body hbody)
  | .ifElse condition onTrue onFalse, h => by
      obtain ⟨h, hfalse⟩ := namesInLine_append.1 h
      obtain ⟨hcondition, htrue⟩ := namesInLine_append.1 h
      exact Stmt.shifts_ifElse (Expr.shifts condition hcondition) (shifts_of_mem_stmts onTrue htrue)
        (shifts_of_mem_stmts onFalse hfalse)

theorem shifts_of_mem_stmts : (stmts : List Stmt) → NamesInLine (stmtsParts stmts) → ∀ x ∈ stmts, x.Shifts
  | [], _, _, hx => by cases hx
  | first :: rest, h, x, hx => by
      obtain ⟨hfirst, hrest⟩ := namesInLine_append.1 h
      rcases List.mem_cons.1 hx with heq | hx
      · rw [heq]
        exact Stmt.shifts first hfirst
      · exact shifts_of_mem_stmts rest hrest x hx

end

/-! ### The number of lines -/

def Literal.bare : Literal → Literal
  | .string _ => .string ""
  | .number _ => .number (.int 0)
  | .bool b => .bool b

mutual

/-- An expression without what it says: strings, keys and static texts are empty, numbers are zero. -/
def Expr.bare : Expr → Expr
  | .ident name => .ident name
  | .literal value => .literal value.bare
  | .lambda params body => .lambda params body.bare
  | .procedure params body => .procedure params (stmtsBare body)
  | .object members => .object (membersBare members)
  | .array items => .array (itemsBare items)
  | .template pieces => .template (piecesBare pieces)
  | .strictEqual left right => .strictEqual left.bare right.bare

def membersBare : List (String × Expr) → List (String × Expr)
  | [] => []
  | (_, value) :: rest => ("", value.bare) :: membersBare rest

def itemsBare : List Expr → List Expr
  | [] => []
  | item :: rest => item.bare :: itemsBare rest

def piecesBare : List (Piece Expr) → List (Piece Expr)
  | [] => []
  | .static _ :: rest => .static "" :: piecesBare rest
  | .dynamic value :: rest => .dynamic value.bare :: piecesBare rest

def Stmt.bare : Stmt → Stmt
  | .ret value => .ret value.bare
  | .ifThen condition body => .ifThen condition.bare (stmtsBare body)
  | .ifElse condition onTrue onFalse => .ifElse condition.bare (stmtsBare onTrue) (stmtsBare onFalse)

def stmtsBare : List Stmt → List Stmt
  | [] => []
  | stmt :: rest => stmt.bare :: stmtsBare rest

end

/-- The number of line ends in a text. -/
def lineEnds (s : List Char) : Nat := s.count '\n'

theorem lineEnds_of_not_mem {s : List Char} (h : '\n' ∉ s) : lineEnds s = 0 := List.count_eq_zero.2 h

@[simp]
theorem lineEnds_append (s t : List Char) : lineEnds (s ++ t) = lineEnds s + lineEnds t :=
  List.count_append

@[simp]
theorem lineEnds_cons (c : Char) (s : List Char) :
    lineEnds (c :: s) = lineEnds s + if c == '\n' then 1 else 0 :=
  List.count_cons

@[simp]
theorem lineEnds_nil : lineEnds [] = 0 := rfl

@[simp]
theorem lineEnds_indent (level : Nat) : lineEnds (indent level) = 0 :=
  lineEnds_of_not_mem fun h => absurd (List.eq_of_mem_replicate h) (by decide)

@[simp]
theorem lineEnds_propertyName (key : List Char) : lineEnds (propertyName key) = 0 :=
  lineEnds_of_not_mem (lineEnd_not_mem_propertyName key)

@[simp]
theorem lineEnds_escapeTemplate (s : List Char) : lineEnds (escapeTemplate s) = 0 :=
  lineEnds_of_not_mem (lineEnd_not_mem_escapeTemplate s)

@[simp]
theorem lineEnds_literal (value : Literal) : lineEnds value.chars = 0 :=
  lineEnds_of_not_mem (lineEnd_not_mem_literal value)

theorem isLiteral_bare (e : Expr) : e.bare.isLiteral = e.isLiteral := by
  cases e <;> rfl

theorem all_isLiteral_bare (items : List Expr) :
    (itemsBare items).all Expr.isLiteral = items.all Expr.isLiteral := by
  induction items with
  | nil => rfl
  | cons item items ih => rw [itemsBare, List.all_cons, List.all_cons, isLiteral_bare, ih]

mutual

theorem Expr.lineEnds_bare : (e : Expr) → ∀ level level',
    lineEnds (e.chars level) = lineEnds (e.bare.chars level')
  | .ident _, _, _ => rfl
  | .literal value, _, _ => by
      rw [Expr.bare, Expr.chars, Expr.chars, lineEnds_literal, lineEnds_literal]
  | .lambda params body, level, level' => by
      rw [Expr.bare, Expr.chars, Expr.chars, lineEnds_append, lineEnds_append,
        Expr.lineEnds_bare body level level']
  | .procedure params [], _, _ => rfl
  | .procedure params (x :: body), level, level' => by
      have hbody := lineEnds_stmtsBare (x :: body) (level + 1) (level' + 1)
      rw [stmtsBare] at hbody
      rw [Expr.bare, stmtsBare, Expr.chars_procedure_cons, Expr.chars_procedure_cons]
      simp [hbody]
  | .object [], _, _ => rfl
  | .object ((key, value) :: members), level, level' => by
      have hmembers := lineEnds_membersBare ((key, value) :: members) (level + 1) (level' + 1)
      rw [membersBare] at hmembers
      rw [Expr.bare, membersBare, Expr.chars_object_cons, Expr.chars_object_cons,
        ← membersChars_eq, ← membersChars_eq]
      simp [hmembers]
  | .array items, level, level' => by
      rw [Expr.bare, Expr.chars, Expr.chars, all_isLiteral_bare]
      split_ifs with hliterals
      · have hbare : (itemsBare items).all Expr.isLiteral := by rwa [all_isLiteral_bare]
        simp [lineEnds_of_not_mem (lineEnd_not_mem_inlineChars hliterals),
          lineEnds_of_not_mem (lineEnd_not_mem_inlineChars hbare)]
      · simp [lineEnds_itemsBare items (level + 1) (level' + 1)]
  | .template pieces, level, level' => by
      rw [Expr.bare, Expr.chars, Expr.chars]
      simp [lineEnds_piecesBare pieces level level']
  | .strictEqual left right, level, level' => by
      rw [Expr.bare, Expr.chars_strictEqual, Expr.chars_strictEqual]
      simp [Expr.lineEnds_bare left level level', Expr.lineEnds_bare right level level']

theorem lineEnds_membersBare : (members : List (String × Expr)) → ∀ level level',
    lineEnds (membersChars level members) = lineEnds (membersChars level' (membersBare members))
  | [], _, _ => rfl
  | (_, value) :: rest, level, level' => by
      rw [membersBare, membersChars, membersChars]
      simp [Expr.lineEnds_bare value level level', lineEnds_membersBare rest level level']

theorem lineEnds_itemsBare : (items : List Expr) → ∀ level level',
    lineEnds (itemsChars level items) = lineEnds (itemsChars level' (itemsBare items))
  | [], _, _ => rfl
  | item :: rest, level, level' => by
      rw [itemsBare, itemsChars, itemsChars]
      simp [Expr.lineEnds_bare item level level', lineEnds_itemsBare rest level level']

theorem lineEnds_piecesBare : (pieces : List (Piece Expr)) → ∀ level level',
    lineEnds (piecesChars level pieces) = lineEnds (piecesChars level' (piecesBare pieces))
  | [], _, _ => rfl
  | .static _ :: rest, level, level' => by
      rw [piecesBare, piecesChars, piecesChars]
      simp [lineEnds_piecesBare rest level level']
  | .dynamic value :: rest, level, level' => by
      rw [piecesBare, piecesChars, piecesChars]
      simp [Expr.lineEnds_bare value level level', lineEnds_piecesBare rest level level']

theorem Stmt.lineEnds_bare : (stmt : Stmt) → ∀ level level',
    lineEnds (stmt.chars level) = lineEnds (stmt.bare.chars level')
  | .ret value, level, level' => by
      rw [Stmt.bare, Stmt.chars, Stmt.chars]
      simp [Expr.lineEnds_bare value level level']
  | .ifThen condition body, level, level' => by
      rw [Stmt.bare, Stmt.chars, Stmt.chars]
      simp [Expr.lineEnds_bare condition level level', lineEnds_stmtsBare body (level + 1) (level' + 1)]
  | .ifElse condition onTrue onFalse, level, level' => by
      rw [Stmt.bare, Stmt.chars, Stmt.chars]
      simp [Expr.lineEnds_bare condition level level', lineEnds_stmtsBare onTrue (level + 1) (level' + 1),
        lineEnds_stmtsBare onFalse (level + 1) (level' + 1)]

theorem lineEnds_stmtsBare : (stmts : List Stmt) → ∀ level level',
    lineEnds (stmtsChars level stmts) = lineEnds (stmtsChars level' (stmtsBare stmts))
  | [], _, _ => rfl
  | x :: rest, level, level' => by
      rw [stmtsBare, stmtsChars, stmtsChars]
      simp [Stmt.lineEnds_bare x level level', lineEnds_stmtsBare rest level level']

end

/-! ### Texts at a level -/

/-- A statement is written on whole lines. -/
theorem Stmt.exists_lines (stmt : Stmt) (level : Nat) :
    ∃ lines, stmt.chars level = lines ++ ['\n'] := by
  cases stmt with
  | ret value =>
      rw [Stmt.chars]
      exact EndsLine.append ⟨[';'], rfl, by decide⟩ _
  | ifThen condition body =>
      rw [Stmt.chars]
      exact endsLine_brace.append _
  | ifElse condition onTrue onFalse =>
      rw [Stmt.chars]
      exact endsLine_brace.append _

/-- The text of an expression at a level is that at level zero with all lines but the first moved in, and
the lines of a statement are all moved in; names without line ends are all that is needed. The number of
lines depends neither on the level nor on what strings, keys, static texts and numbers are written. -/
theorem text_shift (level : Nat) :
    (∀ e : Expr, NamesInLine e.parts → (e.text level).toList = shift level (e.text 0).toList) ∧
    (∀ stmt : Stmt, NamesInLine stmt.parts → ∃ lines, (stmt.text 0).toList = lines ++ ['\n'] ∧
      (stmt.text level).toList = indent level ++ shift level lines ++ ['\n']) ∧
    (∀ e other : Expr, e.bare = other.bare → ∀ level',
      lineEnds (e.text level).toList = lineEnds (other.text level').toList) ∧
    (∀ stmt other : Stmt, stmt.bare = other.bare → ∀ level',
      lineEnds (stmt.text level).toList = lineEnds (other.text level').toList) := by
  simp only [Expr.text, Stmt.text, String.toList_ofList]
  refine ⟨fun e hnames => ?_, fun stmt hnames => ?_, fun e other h level' => ?_,
    fun stmt other h level' => ?_⟩
  · have hshift := Expr.shifts e hnames 0 level
    rwa [Nat.zero_add] at hshift
  · obtain ⟨lines, hlines⟩ := stmt.exists_lines 0
    refine ⟨lines, hlines, ?_⟩
    have hmoves := Stmt.shifts stmt hnames 0 level
    rw [Nat.zero_add, MovesIn, hlines, shift_append, shift_lineEnd] at hmoves
    refine List.append_cancel_right (?_ : _ ++ indent level = _ ++ indent level)
    rw [hmoves]
    simp [shift]
  · rw [Expr.lineEnds_bare e level level', h, ← Expr.lineEnds_bare other level' level']
  · rw [Stmt.lineEnds_bare stmt level level', h, ← Stmt.lineEnds_bare other level' level']

theorem text_shift_nested :
    let list : Expr := .object [("a\nb", .array [.ident "x", .literal (.string "1\n2")])]
    let other : Expr := .object [("", .array [.ident "x", .literal (.string "\r")])]
    let test : Stmt := .ifThen (.ident "n") [.ret (.template [.static "1\n2"])]
    let otherTest : Stmt := .ifThen (.ident "n") [.ret (.template [.static ""])]
    (NamesInLine list.parts ∧ (list.text 2).toList = shift 2 (list.text 0).toList) ∧
    (NamesInLine test.parts ∧ ∃ lines, (test.text 0).toList = lines ++ ['\n'] ∧
      (test.text 2).toList = indent 2 ++ shift 2 lines ++ ['\n']) ∧
    (list.bare = other.bare ∧ lineEnds (list.text 2).toList = lineEnds (other.text 0).toList) ∧
    (test.bare = otherTest.bare ∧
      lineEnds (test.text 2).toList = lineEnds (otherTest.text 0).toList) := by
  intro list other test otherTest
  have hlist : NamesInLine list.parts := by
    unfold NamesInLine
    decide
  have htest : NamesInLine test.parts := by
    unfold NamesInLine
    decide
  obtain ⟨hexpr, hstmt, hcount, hcounts⟩ := text_shift 2
  exact ⟨⟨hlist, hexpr list hlist⟩, ⟨htest, hstmt test htest⟩, ⟨rfl, hcount list other rfl 0⟩,
    ⟨rfl, hcounts test otherTest rfl 0⟩⟩

end Phrasebook.Script
