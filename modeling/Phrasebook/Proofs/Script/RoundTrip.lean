import Phrasebook.Proofs.Script.ReadsBack

/-!
Reading inverts printing. A script is readable when its names are identifiers, no static piece of a
template is empty or meets another one, only operands are compared, and no concise body begins with
a brace. `Expr.Readable.reads` is proved along the script, one constructor after the other: each
case reads the marks of its constructor and leaves its parts to the cases before. It follows that
`Script.read` gives the tree of a readable script, whatever texts the script holds.
-/

namespace Phrasebook.Script

namespace Expr

variable {e : Expr} {n : Nat}

theorem ReadsBack.takes (h : e.ReadsBack) {marks : List Char} {level : Nat}
    (hmarks : ∀ c ∈ marks, c ∈ endMarks) (hsize : (e.chars level).length ≤ n) :
    (Reader.expr n).Takes marks (e.chars level) e.tree :=
  ⟨h.starts level, fun hmark hs => h.read hs hsize (EndsExpr.cons (hmarks _ hmark))⟩

/-! ### Templates -/

theorem readsAsOperand_template {pieces : List (Piece Expr)} (halt : Alternating pieces)
    (hread : ∀ value, .dynamic value ∈ pieces → value.ReadsBack) :
    (Expr.template pieces).ReadsAsOperand := by
  have hopens : ∀ level, ∃ tail, (Expr.template pieces).chars level = '\x60' :: tail :=
    fun _ => ⟨_, rfl⟩
  refine .of_opens (by decide) hopens fun hs hsize => ?_
  rw [Expr.chars, List.cons_append] at hs hsize
  rw [List.length_cons, List.length_append, List.length_singleton] at hsize
  rw [List.cons_append, List.append_assoc] at hs
  rw [Reader.primary, Reader.bind_peek hs, if_neg (by decide), if_pos rfl]
  refine (Reader.bind_some (Reader.symbol_char (skip_cons (by decide)))).trans ?_
  exact Reader.bind_some (pieces_read pieces halt hread (by omega) (by omega))

end Expr

/-! ### Objects and arrays -/

def memberChars (level : Nat) (m : String × Expr) : List Char :=
  propertyName m.1.toList ++ ':' :: ' ' :: m.2.chars level

theorem membersChars_eq (level : Nat) (members : List (String × Expr)) :
    membersChars level members = linesChars level (memberChars level) members := by
  induction members with
  | nil => rfl
  | cons m members ih =>
      rw [membersChars, linesChars_cons, ih, memberChars]
      simp only [List.append_assoc, List.cons_append]

theorem memberTrees_eq (members : List (String × Expr)) :
    memberTrees members = members.map fun m => (m.1, m.2.tree) := by
  induction members with
  | nil => rfl
  | cons m members ih => rw [memberTrees, List.map_cons, ih]

theorem itemTrees_eq (items : List Expr) : itemTrees items = items.map Expr.tree := by
  induction items with
  | nil => rfl
  | cons item items ih => rw [itemTrees, List.map_cons, ih]

theorem itemsChars_eq (level : Nat) (items : List Expr) :
    itemsChars level items = linesChars level (Expr.chars level) items := by
  induction items with
  | nil => rfl
  | cons item items ih => rw [itemsChars, linesChars_cons, ih, List.append_assoc]

theorem inlineChars_eq (items : List Expr) : inlineChars items = inlineText (Expr.chars 0) items := by
  induction items with
  | nil => rfl
  | cons item items ih =>
      cases items with
      | nil => rw [inlineChars, inlineText_singleton]
      | cons next items =>
          rw [inlineChars, ih, inlineText_cons_cons]
          exact List.cons_ne_nil _ _

theorem Reader.takes_member {m : String × Expr} {n level : Nat} (h : m.2.ReadsBack)
    (hsize : (m.2.chars level).length ≤ n) :
    (Reader.member (Reader.expr n)).Takes [','] (memberChars level m) (m.1, m.2.tree) := by
  refine ⟨(starts_propertyName _).append _, fun {s rest mark} hmark hs => ?_⟩
  rw [memberChars, List.append_assoc, List.cons_append, List.cons_append] at hs
  have hvalue : skip (' ' :: (m.2.chars level ++ mark :: rest)) = m.2.chars level ++ mark :: rest :=
    (skip_space _).trans ((h.starts level).append _).skip
  have htakes : (Reader.expr n).Takes [','] (m.2.chars level) m.2.tree :=
    h.takes (forall_mem_of_all (by decide)) hsize
  rw [Reader.member, Reader.bind_some (Reader.propertyKey_of_skip (endsWord_mark (by decide)) hs),
    Reader.bind_some (Reader.symbol_char (skip_cons (by decide))),
    Reader.bind_some (htakes.read hmark hvalue)]
  rfl

namespace Reader

variable {expr : Reader Tree} {size : Nat} {s t rest : List Char}

theorem primary_object {members : List (String × Tree)} (h : skip s = '\x7b' :: t)
    (hread : commaList ['\x7d'] (member expr) size t = some (members, rest)) :
    primary expr size s = some (.object members, rest) := by
  rw [primary, bind_peek h, if_neg (by decide), if_neg (by decide), if_pos rfl,
    bind_some (symbol_char (skip_cons (by decide))), bind_some hread]
  rfl

theorem primary_array {items : List Tree} (h : skip s = '[' :: t)
    (hread : commaList [']'] expr size t = some (items, rest)) :
    primary expr size s = some (.array items, rest) := by
  rw [primary, bind_peek h, if_neg (by decide), if_neg (by decide), if_neg (by decide), if_pos rfl,
    bind_some (symbol_char (skip_cons (by decide))), bind_some hread]
  rfl

end Reader

namespace Expr

theorem chars_object_cons (level : Nat) (m : String × Expr) (members : List (String × Expr)) :
    (Expr.object (m :: members)).chars level = '\x7b' :: '\n' ::
      (linesChars (level + 1) (memberChars (level + 1)) (m :: members) ++
        (indent level ++ ['\x7d'])) := by
  rw [Expr.chars, membersChars_eq, List.append_assoc]
  · rfl
  · exact fun h => List.cons_ne_nil _ _ h

theorem chars_array_inline {items : List Expr} (level : Nat) (h : items.all Expr.isLiteral) :
    (Expr.array items).chars level = '[' :: (inlineText (Expr.chars 0) items ++ [']']) := by
  rw [Expr.chars, if_pos h, inlineChars_eq, List.cons_append]

theorem chars_array_lines {items : List Expr} (level : Nat) (h : ¬items.all Expr.isLiteral) :
    (Expr.array items).chars level = '[' :: '\n' ::
      (linesChars (level + 1) (Expr.chars (level + 1)) items ++ (indent level ++ [']'])) := by
  rw [Expr.chars, if_neg h, itemsChars_eq, List.append_assoc]
  rfl

/-- The members of an object are read up to the brace that closes it. -/
theorem members_read {members : List (String × Expr)} {n size : Nat} {s t rest : List Char}
    (level : Nat) (h : ∀ m ∈ members, m.2.ReadsBack)
    (hlength : (linesChars level (memberChars level) members).length ≤ n)
    (hsize : members.length < size) (hclose : skip t = '\x7d' :: rest)
    (hs : skip s = skip (linesChars level (memberChars level) members ++ t)) :
    Reader.commaList ['\x7d'] (Reader.member (Reader.expr n)) size s =
      some (memberTrees members, rest) := by
  rw [memberTrees_eq]
  refine Reader.commaList_lines (fun m hm => Reader.takes_member (h m hm) ?_) (by decide) hsize
    hclose hs
  have hline := length_text_le_linesChars level (memberChars level) hm
  rw [memberChars, List.length_append, List.length_cons, List.length_cons] at hline
  omega

theorem readsAsOperand_object {members : List (String × Expr)}
    (h : ∀ m ∈ members, m.2.ReadsBack) : (Expr.object members).ReadsAsOperand := by
  have hopens : ∀ level, ∃ tail, (Expr.object members).chars level = '\x7b' :: tail := by
    intro level
    cases members with
    | nil => exact ⟨_, rfl⟩
    | cons m members => exact ⟨_, chars_object_cons level m members⟩
  refine .of_opens (by decide) hopens fun {level size s rest} hs hsize => ?_
  cases members with
  | nil =>
      rw [Expr.chars] at hs hsize
      exact Reader.primary_object hs (members_read 0 h (Nat.zero_le size)
        (Nat.lt_of_succ_le (Nat.le_of_succ_le_succ hsize)) (skip_cons (by decide)) rfl)
  | cons m members =>
      rw [chars_object_cons] at hs hsize
      have hcount := length_le_linesChars (level + 1) (memberChars (level + 1)) (m :: members)
      simp only [List.cons_append, List.append_assoc] at hs
      simp only [List.length_append, List.length_cons] at hsize hcount
      refine Reader.primary_object hs (members_read (level + 1) h ?_ ?_
        (skip_indent_cons level (by decide)) (skip_newline _))
      · omega
      · rw [List.length_cons]
        omega

/-- The items of an array are read up to its closing bracket, one line or many. -/
theorem readsAsOperand_array {items : List Expr} (h : ∀ item ∈ items, item.ReadsBack) :
    (Expr.array items).ReadsAsOperand := by
  have hopens : ∀ level, ∃ tail, (Expr.array items).chars level = '[' :: tail := by
    intro level
    by_cases hliteral : items.all Expr.isLiteral
    · exact ⟨_, chars_array_inline level hliteral⟩
    · exact ⟨_, chars_array_lines level hliteral⟩
  refine .of_opens (by decide) hopens fun {level size s rest} hs hsize => ?_
  rw [Expr.tree, itemTrees_eq]
  by_cases hliteral : items.all Expr.isLiteral
  · rw [chars_array_inline level hliteral] at hs hsize
    have hcount := length_le_inlineText (Expr.chars 0) fun item hi => (h item hi).starts 0
    simp only [List.length_append, List.length_cons] at hsize
    simp only [List.cons_append, List.append_assoc] at hs
    have htakes : ∀ item ∈ items, (Reader.expr size).Takes [',', ']'] (item.chars 0) item.tree := by
      intro item hi
      have hlength := length_text_le_inlineText (Expr.chars 0) hi
      exact (h item hi).takes (forall_mem_of_all (by decide)) (by omega)
    have hskip : skip (inlineText (Expr.chars 0) items ++ ']' :: rest) =
        inlineText (Expr.chars 0) items ++ ']' :: rest := by
      cases items with
      | nil => exact skip_cons (by decide)
      | cons item items =>
          exact ((starts_inlineText ((h item (List.mem_cons_self ..)).starts 0)).append _).skip
    exact Reader.primary_array hs
      (Reader.commaList_inline htakes (by decide) (by omega) hskip)
  · rw [chars_array_lines level hliteral] at hs hsize
    have hcount := length_le_linesChars (level + 1) (Expr.chars (level + 1)) items
    simp only [List.length_append, List.length_cons] at hsize
    simp only [List.cons_append, List.append_assoc] at hs
    have htakes : ∀ item ∈ items,
        (Reader.expr size).Takes [','] (item.chars (level + 1)) item.tree := by
      intro item hi
      have hlength := length_text_le_linesChars (level + 1) (Expr.chars (level + 1)) hi
      exact (h item hi).takes (forall_mem_of_all (by decide)) (by omega)
    exact Reader.primary_array hs (Reader.commaList_lines htakes (by decide) (by omega)
      (skip_indent_cons level (by decide)) (skip_newline _))

end Expr

/-! ### Blocks -/

namespace Reader

/-- Whether a word is the expected one is told after the whole word. -/
theorem acceptWord_of_skip {expected name : String} {s rest : List Char}
    (hname : Text.isName name.toList) (hrest : EndsWord rest) (h : skip s = name.toList ++ rest) :
    acceptWord expected s = if name = expected then some (true, rest) else some (false, s) := by
  rw [acceptWord, word_of_skip name hname hrest h]

theorem acceptWord_of_mark {expected : String} {mark : Char} {s rest : List Char}
    (hmark : ¬Text.isNameChar mark) (h : skip s = mark :: rest) :
    acceptWord expected s = some (false, s) := by
  have hword : word s = none := by
    rw [word, h, List.takeWhile_cons_of_neg hmark]
    rfl
  rw [acceptWord, hword]

theorem sameLine_space {s : List Char} (h : Starts s) : sameLine (' ' :: s) = some ((), ' ' :: s) := by
  obtain ⟨c, rest, rfl, hc⟩ := h
  rw [sameLine, List.takeWhile_cons_of_pos (by decide),
    List.takeWhile_cons_of_neg (not_isBlank_of_isStart hc)]
  rfl

/-- The statements of a block are read up to the brace that closes it. -/
theorem block_read {stmts : List Stmt} {n size : Nat} {s t rest : List Char} (level : Nat)
    (hstmts : ∀ x ∈ stmts, x.ReadsBack) (hlength : (stmtsChars level stmts).length ≤ n)
    (hsize : stmts.length < size) (hclose : skip t = '\x7d' :: rest)
    (h : skip s = skip (stmtsChars level stmts ++ t)) :
    block (stmt n) size s = some (stmtTrees stmts, rest) := by
  induction stmts generalizing size s with
  | nil =>
      obtain ⟨size, rfl⟩ := Nat.exists_eq_add_one.2 hsize
      rw [block, bind_some (accept_char (h.trans hclose))]
      rfl
  | cons x stmts ih =>
      obtain ⟨size, rfl⟩ := Nat.exists_eq_add_one.2 (Nat.zero_lt_of_lt hsize)
      have hx := hstmts x (List.mem_cons_self ..)
      rw [stmtsChars, List.length_append] at hlength
      rw [stmtsChars, List.append_assoc] at h
      have hopen : accept ['\x7d'] s = some (false, s) := by
        obtain ⟨word, tail, hname, -, -, hfirst⟩ := hx.first level (stmtsChars level stmts ++ t)
        exact accept_of_starts (h.trans hfirst) ((starts_of_isName hname).append _) (by decide)
      -- after a conditional the reader looks for `else`, with which no statement begins
      have helse : acceptWord "else" ('\n' :: (stmtsChars level stmts ++ t)) =
          some (false, '\n' :: (stmtsChars level stmts ++ t)) := by
        cases stmts with
        | nil => exact acceptWord_of_mark (by decide) ((skip_newline _).trans hclose)
        | cons y stmts =>
            have hy := hstmts y (List.mem_cons_of_mem _ (List.mem_cons_self ..))
            rw [stmtsChars, List.append_assoc]
            obtain ⟨word, tail, hname, hne, htail, hfirst⟩ := hy.first level (stmtsChars level stmts ++ t)
            rw [acceptWord_of_skip hname htail ((skip_newline _).trans hfirst), if_neg hne]
      have hrest := ih (fun y hy => hstmts y (List.mem_cons_of_mem _ hy)) (by omega)
        (Nat.lt_of_succ_lt_succ hsize) (skip_newline _)
      rw [block, bind_some hopen, if_neg (by decide), bind_some (hx.read h (by omega) helse),
        bind_some hrest]
      rfl

end Reader

theorem length_le_stmtsChars {stmts : List Stmt} (level : Nat) (hstmts : ∀ x ∈ stmts, x.ReadsBack) :
    stmts.length ≤ (stmtsChars level stmts).length := by
  induction stmts with
  | nil => exact Nat.zero_le _
  | cons x stmts ih =>
      have hrest := ih fun y hy => hstmts y (List.mem_cons_of_mem _ hy)
      obtain ⟨word, tail, hname, -, -, hfirst⟩ := (hstmts x (List.mem_cons_self ..)).first level []
      have hpos : 0 < (x.chars level).length := by
        cases hchars : x.chars level with
        | nil =>
            rw [hchars] at hfirst
            obtain ⟨c, rest, hword, -⟩ := starts_of_isName hname
            rw [hword] at hfirst
            cases hfirst
        | cons c rest => exact Nat.succ_pos _
      rw [stmtsChars, List.length_append, List.length_cons]
      omega

/-- The statements on the lines after an opening brace are read up to the brace that closes it. -/
theorem Reader.block_lines {stmts : List Stmt} {level size : Nat} {t : List Char}
    (hstmts : ∀ x ∈ stmts, x.ReadsBack) (hsize : (stmtsChars (level + 1) stmts).length < size) :
    block (stmt size) size ('\n' :: (stmtsChars (level + 1) stmts ++ (indent level ++ '\x7d' :: t))) =
      some (stmtTrees stmts, t) := by
  have hcount := length_le_stmtsChars (level + 1) hstmts
  exact block_read (level + 1) hstmts (Nat.le_of_lt hsize) (Nat.lt_of_le_of_lt hcount hsize)
    (skip_indent_cons level (by decide)) (skip_newline _)

namespace Stmt

theorem chars_ret (level : Nat) (value : Expr) : (Stmt.ret value).chars level =
    indent level ++ ("return".toList ++ ' ' :: (value.chars level ++ [';', '\n'])) := by
  simp only [Stmt.chars, List.append_assoc]
  rfl

theorem chars_ifThen (level : Nat) (condition : Expr) (body : List Stmt) :
    (Stmt.ifThen condition body).chars level =
      indent level ++ ("if".toList ++ ' ' :: '(' :: (condition.chars level ++ ')' :: ' ' :: '\x7b' ::
        '\n' :: (stmtsChars (level + 1) body ++ (indent level ++ ['\x7d', '\n'])))) := by
  simp only [Stmt.chars, List.append_assoc]
  rfl

theorem chars_ifElse (level : Nat) (condition : Expr) (onTrue onFalse : List Stmt) :
    (Stmt.ifElse condition onTrue onFalse).chars level =
      indent level ++ ("if".toList ++ ' ' :: '(' :: (condition.chars level ++ ')' :: ' ' :: '\x7b' ::
        '\n' :: (stmtsChars (level + 1) onTrue ++ (indent level ++ '\x7d' :: ' ' ::
          ("else".toList ++ ' ' :: '\x7b' :: '\n' :: (stmtsChars (level + 1) onFalse ++
            (indent level ++ ['\x7d', '\n']))))))) := by
  simp only [Stmt.chars, List.append_assoc]
  rfl

theorem endsWord_space {rest : List Char} : EndsWord (' ' :: rest) := by
  intro c hc
  cases hc
  decide

theorem skip_of_word {stmt : Stmt} {level : Nat} {word : String} {tail rest : List Char}
    (hname : Text.isName word.toList)
    (h : stmt.chars level = indent level ++ (word.toList ++ ' ' :: tail)) :
    skip (stmt.chars level ++ rest) = word.toList ++ ' ' :: (tail ++ rest) := by
  rw [h, List.append_assoc, skip_indent, List.append_assoc,
    ((starts_of_isName hname).append _).skip, List.cons_append]

theorem first_of_word {stmt : Stmt} {level : Nat} {word : String} {tail : List Char}
    (rest : List Char) (hname : Text.isName word.toList) (hne : word ≠ "else")
    (h : stmt.chars level = indent level ++ (word.toList ++ ' ' :: tail)) :
    ∃ (word : String) (tail : List Char), Text.isName word.toList ∧ word ≠ "else" ∧ EndsWord tail ∧
      skip (stmt.chars level ++ rest) = word.toList ++ tail :=
  ⟨word, ' ' :: (tail ++ rest), hname, hne, endsWord_space, skip_of_word hname h⟩

theorem readsBack_ret {value : Expr} (h : value.ReadsBack) : (Stmt.ret value).ReadsBack := by
  refine ⟨fun level rest => first_of_word rest (by decide) (by decide) (chars_ret level value),
    fun {level size s rest} hs hsize _ => ?_⟩
  have hstarts := (h.starts level).append (';' :: '\n' :: rest)
  have hskip : skip s = "return".toList ++ ' ' :: (value.chars level ++ ';' :: '\n' :: rest) := by
    rw [hs, skip_of_word (by decide) (chars_ret level value), List.append_assoc]
    rfl
  simp only [chars_ret, List.length_append, List.length_cons] at hsize
  obtain ⟨size, rfl⟩ := Nat.exists_eq_add_one.2 (show 0 < size by omega)
  have hread : Reader.expr size (' ' :: (value.chars level ++ ';' :: '\n' :: rest)) =
      some (value.tree, ';' :: '\n' :: rest) :=
    h.read ((skip_space _).trans hstarts.skip) (by omega) (EndsExpr.cons (by decide))
  rw [Reader.stmt, Reader.statement,
    Reader.bind_some (Reader.word_of_skip _ (by decide) endsWord_space hskip), if_pos rfl,
    Reader.bind_some (Reader.sameLine_space hstarts), Reader.bind_some hread,
    Reader.bind_some (Reader.symbol_char (skip_cons (by decide)))]
  rfl

/-- A conditional is read up to the brace after its first block. -/
theorem statement_if {condition : Expr} {body : List Stmt} {level size : Nat} {s t : List Char}
    (hcondition : condition.ReadsBack) (hbody : ∀ x ∈ body, x.ReadsBack)
    (hsize : (condition.chars level).length + (stmtsChars (level + 1) body).length < size)
    (h : skip s = "if".toList ++ ' ' :: '(' :: (condition.chars level ++ ')' :: ' ' :: '\x7b' ::
      '\n' :: (stmtsChars (level + 1) body ++ (indent level ++ '\x7d' :: t)))) :
    Reader.statement (Reader.expr size) (Reader.stmt size) size s = (do
      if ← Reader.acceptWord "else" then
        Reader.symbol ['\x7b']
        return .ifElse condition.tree (stmtTrees body) (← Reader.block (Reader.stmt size) size)
      else return .ifThen condition.tree (stmtTrees body) : Reader TreeStmt) t := by
  have hread : ∀ rest, Reader.expr size (condition.chars level ++ ')' :: rest) =
      some (condition.tree, ')' :: rest) := fun rest =>
    hcondition.read ((hcondition.starts level).append _).skip (by omega) (EndsExpr.cons (by decide))
  have hblock := Reader.block_lines (t := t) hbody (Nat.lt_of_le_of_lt (Nat.le_add_left ..) hsize)
  rw [Reader.statement,
    Reader.bind_some (Reader.word_of_skip _ (by decide) endsWord_space h), if_neg (by decide),
    if_pos rfl,
    Reader.bind_some (Reader.symbol_char ((skip_space _).trans (skip_cons (by decide)))),
    Reader.bind_some (hread _),
    Reader.bind_some (Reader.symbol_char (skip_cons (by decide))),
    Reader.bind_some (Reader.symbol_char ((skip_space _).trans (skip_cons (by decide)))),
    Reader.bind_some hblock]

theorem readsBack_ifThen {condition : Expr} {body : List Stmt} (hcondition : condition.ReadsBack)
    (hbody : ∀ x ∈ body, x.ReadsBack) : (Stmt.ifThen condition body).ReadsBack := by
  refine ⟨fun level rest => first_of_word rest (by decide) (by decide)
    (chars_ifThen level condition body), fun {level size s rest} hs hsize helse => ?_⟩
  rw [skip_of_word (by decide) (chars_ifThen level condition body)] at hs
  simp only [chars_ifThen, List.length_append, List.length_cons] at hsize
  simp only [List.cons_append, List.append_assoc] at hs
  obtain ⟨size, rfl⟩ := Nat.exists_eq_add_one.2 (show 0 < size by omega)
  rw [Reader.stmt, statement_if hcondition hbody (by omega) hs, List.nil_append,
    Reader.bind_some helse]
  rfl

theorem readsBack_ifElse {condition : Expr} {onTrue onFalse : List Stmt}
    (hcondition : condition.ReadsBack) (htrue : ∀ x ∈ onTrue, x.ReadsBack)
    (hfalse : ∀ x ∈ onFalse, x.ReadsBack) : (Stmt.ifElse condition onTrue onFalse).ReadsBack := by
  refine ⟨fun level rest => first_of_word rest (by decide) (by decide)
    (chars_ifElse level condition onTrue onFalse), fun {level size s rest} hs hsize helse => ?_⟩
  rw [skip_of_word (by decide) (chars_ifElse level condition onTrue onFalse)] at hs
  simp only [chars_ifElse, List.length_append, List.length_cons] at hsize
  simp only [List.cons_append, List.append_assoc] at hs
  obtain ⟨size, rfl⟩ := Nat.exists_eq_add_one.2 (show 0 < size by omega)
  have hfits : (stmtsChars (level + 1) onFalse).length < size := by omega
  have hblock : Reader.block (Reader.stmt size) size ('\n' :: (stmtsChars (level + 1) onFalse ++
      (indent level ++ '\x7d' :: '\n' :: rest))) = some (stmtTrees onFalse, '\n' :: rest) :=
    Reader.block_lines hfalse hfits
  have haccept : ∀ tail, Reader.acceptWord "else" (' ' :: ("else".toList ++ ' ' :: tail)) =
      some (true, ' ' :: tail) := fun tail =>
    (Reader.acceptWord_of_skip (by decide) endsWord_space ((skip_space _).trans rfl)).trans (if_pos rfl)
  rw [Reader.stmt, statement_if hcondition htrue (by omega) hs, Reader.bind_some (haccept _),
    if_pos rfl, Reader.bind_some (Reader.symbol_char ((skip_space _).trans (skip_cons (by decide))))]
  exact Reader.bind_some hblock

end Stmt

/-! ### Arrow functions and comparisons -/

/-- An arrow function is read up to its arrow; a brace after it opens a block. -/
theorem Reader.arrow_of_skip {params : List Param} {size : Nat} {s t : List Char}
    (hparams : ∀ p ∈ params, IsIdentifier p.name) (hsize : params.length < size)
    (h : skip s = paramsChars params ++ t) :
    Reader.expr (size + 1) s = (do
      if ← accept ['\x7b'] then return .procedure params (← block (stmt size) size)
      else return .lambda params (← expr size) : Reader Tree) (' ' :: t) := by
  rw [paramsChars_eq, List.cons_append, List.append_assoc] at h
  have hitems : ∀ p ∈ params, param.Takes [',', ')'] p.chars p := fun p hp =>
    takes_param (hparams p hp)
  have hskip : skip (inlineText Param.chars params ++ ')' :: ' ' :: '=' :: '>' :: ' ' :: t) =
      inlineText Param.chars params ++ ')' :: ' ' :: '=' :: '>' :: ' ' :: t := by
    cases params with
    | nil => exact skip_cons (by decide)
    | cons p params =>
        exact ((starts_inlineText (hitems p (List.mem_cons_self ..)).starts).append _).skip
  have hread := commaList_inline hitems (by decide) hsize hskip
  rw [List.map_id'] at hread
  have hline : sameLine (' ' :: '=' :: '>' :: ' ' :: t) = some ((), ' ' :: '=' :: '>' :: ' ' :: t) :=
    rfl
  have harrow : skip (' ' :: '=' :: '>' :: ' ' :: t) = ['=', '>'] ++ ' ' :: t :=
    (skip_space _).trans (skip_cons (by decide))
  rw [expr, bind_peek h, if_pos rfl, arrow, bind_some (symbol_char (skip_cons (by decide)))]
  refine (bind_some hread).trans ?_
  rw [bind_some hline, bind_some (symbol_of_skip harrow)]

/-- An arrow function with a block is read up to the brace that closes the block. -/
theorem Reader.procedure_of_skip {params : List Param} {size : Nat} {s t rest : List Char}
    {trees : List TreeStmt} (hparams : ∀ p ∈ params, IsIdentifier p.name) (hsize : params.length < size)
    (h : skip s = paramsChars params ++ '\x7b' :: t)
    (hblock : block (stmt size) size t = some (trees, rest)) :
    Reader.expr (size + 1) s = some (.procedure params trees, rest) := by
  have haccept : accept ['\x7b'] (' ' :: '\x7b' :: t) = some (true, t) :=
    accept_char ((skip_space _).trans (skip_cons (by decide)))
  rw [arrow_of_skip hparams hsize h, bind_some haccept, if_pos rfl, bind_some hblock]
  rfl

theorem length_paramsChars {params : List Param} (hparams : ∀ p ∈ params, IsIdentifier p.name) :
    params.length + 6 ≤ (paramsChars params).length := by
  have hcount := length_le_inlineText Param.chars fun p hp =>
    (Reader.takes_param (hparams p hp)).starts
  rw [paramsChars_eq]
  simp only [List.length_cons, List.length_append, List.length_nil]
  omega

theorem starts_paramsChars (params : List Param) (rest : List Char) :
    Starts (paramsChars params ++ rest) :=
  ⟨'(', _, rfl, by decide⟩

namespace Expr

theorem chars_procedure_cons (level : Nat) (params : List Param) (x : Stmt) (body : List Stmt) :
    (Expr.procedure params (x :: body)).chars level = paramsChars params ++ '\x7b' :: '\n' ::
      (stmtsChars (level + 1) (x :: body) ++ (indent level ++ ['\x7d'])) := by
  rw [Expr.chars]
  · simp only [List.append_assoc, List.cons_append]
  · exact fun h => List.cons_ne_nil _ _ h

theorem readsBack_lambda {params : List Param} {body : Expr}
    (hparams : ∀ p ∈ params, IsIdentifier p.name) (hbody : body.ReadsBack)
    (hbrace : ∀ level, (body.chars level).head? ≠ some '\x7b') :
    (Expr.lambda params body).ReadsBack := by
  refine ⟨fun level => starts_paramsChars params _, fun {level size s rest} hs hsize hrest => ?_⟩
  rw [Expr.chars, List.append_assoc] at hs
  rw [Expr.chars, List.length_append] at hsize
  have hcount := length_paramsChars hparams
  obtain ⟨size, rfl⟩ := Nat.exists_eq_add_one.2 (show 0 < size by omega)
  have hskip : skip (' ' :: (body.chars level ++ rest)) = body.chars level ++ rest :=
    (skip_space _).trans ((hbody.starts level).append rest).skip
  -- a brace after the arrow would be read as the opening of a block
  have haccept : Reader.accept ['\x7b'] (' ' :: (body.chars level ++ rest)) =
      some (false, ' ' :: (body.chars level ++ rest)) := by
    obtain ⟨c, tail, hchars, -⟩ := hbody.starts level
    have hne := hbrace level
    rw [hchars] at hskip hne ⊢
    exact Reader.accept_of_head hskip fun h => hne (congrArg some h)
  rw [Reader.arrow_of_skip hparams (by omega) hs, Reader.bind_some haccept, if_neg (by decide),
    Reader.bind_some (hbody.read hskip (by omega) hrest)]
  rfl

theorem readsBack_procedure {params : List Param} {body : List Stmt}
    (hparams : ∀ p ∈ params, IsIdentifier p.name) (hbody : ∀ x ∈ body, x.ReadsBack) :
    (Expr.procedure params body).ReadsBack := by
  have hcount := length_paramsChars hparams
  cases body with
  | nil =>
      refine ⟨fun level => starts_paramsChars params _, fun {level size s rest} hs hsize _ => ?_⟩
      rw [Expr.chars, List.append_assoc] at hs
      rw [Expr.chars, List.length_append] at hsize
      obtain ⟨size, rfl⟩ := Nat.exists_eq_add_one.2 (show 0 < size by omega)
      have hblock : Reader.block (Reader.stmt size) size ('\x7d' :: rest) = some ([], rest) :=
        Reader.block_read 0 hbody (Nat.zero_le size) (Nat.zero_lt_of_lt (by omega : 2 < size))
          (skip_cons (by decide)) rfl
      exact Reader.procedure_of_skip hparams (by omega) hs hblock
  | cons x body =>
      refine ⟨fun level => ?_, fun {level size s rest} hs hsize _ => ?_⟩
      · rw [chars_procedure_cons]
        exact starts_paramsChars params _
      · rw [chars_procedure_cons] at hs hsize
        simp only [List.cons_append, List.append_assoc] at hs
        simp only [List.length_append, List.length_cons] at hsize
        obtain ⟨size, rfl⟩ := Nat.exists_eq_add_one.2 (show 0 < size by omega)
        have hfits : (stmtsChars (level + 1) (x :: body)).length < size := by omega
        exact Reader.procedure_of_skip hparams (by omega) hs (Reader.block_lines hbody hfits)

theorem chars_strictEqual (level : Nat) (left right : Expr) :
    (Expr.strictEqual left right).chars level =
      left.chars level ++ ' ' :: '=' :: '=' :: '=' :: ' ' :: right.chars level := by
  rw [Expr.chars, List.append_assoc]
  rfl

theorem readsBack_strictEqual {left right : Expr} (hleft : left.ReadsAsOperand)
    (hright : right.ReadsAsOperand) : (Expr.strictEqual left right).ReadsBack := by
  refine ⟨fun level => ?_, fun {level size s rest} hs hsize hrest => ?_⟩
  · rw [chars_strictEqual]
    exact (hleft.starts level).append _
  · rw [chars_strictEqual] at hs hsize
    simp only [List.cons_append, List.append_assoc] at hs
    simp only [List.length_append, List.length_cons] at hsize
    obtain ⟨size, rfl⟩ := Nat.exists_eq_add_one.2 (show 0 < size by omega)
    have hstarts := (hleft.starts level).append (' ' :: '=' :: '=' :: '=' :: ' ' ::
      (right.chars level ++ rest))
    have hspace : EndsNumeral (' ' :: '=' :: '=' :: '=' :: ' ' :: (right.chars level ++ rest)) := by
      intro c hc
      cases hc
      decide
    have hsign : skip (' ' :: '=' :: '=' :: '=' :: ' ' :: (right.chars level ++ rest)) =
        ['=', '=', '='] ++ ' ' :: (right.chars level ++ rest) :=
      (skip_space _).trans (skip_cons (by decide))
    have hleftFits : (left.chars level).length ≤ size + 1 := by omega
    have hrightFits : (right.chars level).length ≤ size + 1 := by omega
    have hreadLeft := hleft.read hstarts.skip hleftFits hspace
    have hreadRight := hright.read
      ((skip_space _).trans ((hright.starts level).append rest).skip) hrightFits hrest.endsNumeral
    have hparen := hleft.noParen level
    obtain ⟨c, tail, hchars, -⟩ := hleft.starts level
    rw [hchars] at hs hreadLeft hparen
    rw [Reader.expr, Reader.bind_peek hs, if_neg (show some c ≠ some '(' from hparen)]
    refine (Reader.bind_some hreadLeft).trans ?_
    refine (Reader.bind_some (Reader.accept_of_skip hsign)).trans ?_
    exact Reader.bind_some hreadRight

end Expr

/-! ### Readable scripts -/

/-- Whether an expression can stand beside a comparison. -/
def Expr.isOperand : Expr → Bool
  | .lambda .. | .procedure .. | .strictEqual .. => false
  | _ => true

mutual

/-- An expression whose text is read as its tree. -/
def Expr.Readable : Expr → Prop
  | .ident name => IsIdentifier name
  | .literal _ => True
  | .lambda params body => (∀ p ∈ params, IsIdentifier p.name) ∧
    (∀ level, (body.chars level).head? ≠ some '\x7b') ∧ body.Readable
  | .procedure params body => (∀ p ∈ params, IsIdentifier p.name) ∧ StmtsReadable body
  | .object members => MembersReadable members
  | .array items => ItemsReadable items
  | .template pieces => Alternating pieces ∧ PiecesReadable pieces
  | .strictEqual left right =>
    (left.isOperand ∧ left.Readable) ∧ right.isOperand ∧ right.Readable

def MembersReadable : List (String × Expr) → Prop
  | [] => True
  | (_, value) :: rest => value.Readable ∧ MembersReadable rest

def ItemsReadable : List Expr → Prop
  | [] => True
  | item :: rest => item.Readable ∧ ItemsReadable rest

def PiecesReadable : List (Piece Expr) → Prop
  | [] => True
  | .static _ :: rest => PiecesReadable rest
  | .dynamic value :: rest => value.Readable ∧ PiecesReadable rest

/-- A statement whose text is read as its tree. -/
def Stmt.Readable : Stmt → Prop
  | .ret value => value.Readable
  | .ifThen condition body => condition.Readable ∧ StmtsReadable body
  | .ifElse condition onTrue onFalse =>
    condition.Readable ∧ StmtsReadable onTrue ∧ StmtsReadable onFalse

def StmtsReadable : List Stmt → Prop
  | [] => True
  | stmt :: rest => stmt.Readable ∧ StmtsReadable rest

end

theorem stmtsReadable_of_forall {stmts : List Stmt} (h : ∀ x ∈ stmts, x.Readable) :
    StmtsReadable stmts := by
  induction stmts with
  | nil => trivial
  | cons x stmts ih =>
      exact ⟨h x (List.mem_cons_self ..), ih fun y hy => h y (List.mem_cons_of_mem _ hy)⟩

theorem itemsReadable_of_forall {items : List Expr} (h : ∀ e ∈ items, e.Readable) :
    ItemsReadable items := by
  induction items with
  | nil => trivial
  | cons e items ih =>
      exact ⟨h e (List.mem_cons_self ..), ih fun y hy => h y (List.mem_cons_of_mem _ hy)⟩

theorem membersReadable_of_forall {members : List (String × Expr)} (h : ∀ m ∈ members, m.2.Readable) :
    MembersReadable members := by
  induction members with
  | nil => trivial
  | cons m members ih =>
      exact ⟨h m (List.mem_cons_self ..), ih fun y hy => h y (List.mem_cons_of_mem _ hy)⟩

/-- An operand is read before a comparison, too. -/
def Expr.Reads (e : Expr) : Prop :=
  match e.isOperand with
  | true => e.ReadsAsOperand
  | false => e.ReadsBack

theorem Expr.Reads.readsBack {e : Expr} (h : e.Reads) : e.ReadsBack := by
  unfold Expr.Reads at h
  cases hoperand : e.isOperand with
  | true =>
      rw [hoperand] at h
      exact ReadsAsOperand.readsBack h
  | false =>
      rw [hoperand] at h
      exact h

theorem Expr.Reads.readsAsOperand {e : Expr} (h : e.Reads) (hoperand : e.isOperand) :
    e.ReadsAsOperand := by
  unfold Expr.Reads at h
  rw [hoperand] at h
  exact h

mutual

theorem Expr.Readable.reads : (e : Expr) → e.Readable → e.Reads
  | .ident _, h => Expr.readsAsOperand_ident h
  | .literal (.string text), _ => Expr.readsAsOperand_string text
  | .literal (.number n), _ => Expr.readsAsOperand_number n
  | .literal (.bool b), _ => Expr.readsAsOperand_bool b
  | .lambda _ body, ⟨hparams, hbrace, hbody⟩ =>
      Expr.readsBack_lambda hparams (Expr.Readable.reads body hbody).readsBack hbrace
  | .procedure _ body, ⟨hparams, hbody⟩ =>
      Expr.readsBack_procedure hparams (StmtsReadable.reads body hbody)
  | .object members, h => Expr.readsAsOperand_object (MembersReadable.reads members h)
  | .array items, h => Expr.readsAsOperand_array (ItemsReadable.reads items h)
  | .template pieces, ⟨halt, h⟩ =>
      Expr.readsAsOperand_template halt (PiecesReadable.reads pieces h)
  | .strictEqual left right, ⟨⟨hleft, hl⟩, hright, hr⟩ =>
      Expr.readsBack_strictEqual ((Expr.Readable.reads left hl).readsAsOperand hleft)
        ((Expr.Readable.reads right hr).readsAsOperand hright)

theorem MembersReadable.reads :
    (members : List (String × Expr)) → MembersReadable members → ∀ m ∈ members, m.2.ReadsBack
  | [], _, _, hm => by cases hm
  | (_, value) :: rest, ⟨hvalue, hrest⟩, m, hm => by
      rcases List.mem_cons.1 hm with heq | hm
      · rw [heq]
        exact (Expr.Readable.reads value hvalue).readsBack
      · exact MembersReadable.reads rest hrest m hm

theorem ItemsReadable.reads :
    (items : List Expr) → ItemsReadable items → ∀ item ∈ items, item.ReadsBack
  | [], _, _, hitem => by cases hitem
  | first :: rest, ⟨hfirst, hrest⟩, item, hitem => by
      rcases List.mem_cons.1 hitem with heq | hitem
      · rw [heq]
        exact (Expr.Readable.reads first hfirst).readsBack
      · exact ItemsReadable.reads rest hrest item hitem

theorem PiecesReadable.reads : (pieces : List (Piece Expr)) → PiecesReadable pieces →
    ∀ value, .dynamic value ∈ pieces → value.ReadsBack
  | [], _, _, hvalue => by cases hvalue
  | .static _ :: rest, hrest, value, hvalue => by
      rcases List.mem_cons.1 hvalue with heq | hvalue
      · cases heq
      · exact PiecesReadable.reads rest hrest value hvalue
  | .dynamic first :: rest, ⟨hfirst, hrest⟩, value, hvalue => by
      rcases List.mem_cons.1 hvalue with heq | hvalue
      · cases heq
        exact (Expr.Readable.reads first hfirst).readsBack
      · exact PiecesReadable.reads rest hrest value hvalue

theorem Stmt.Readable.reads : (stmt : Stmt) → stmt.Readable → stmt.ReadsBack
  | .ret value, h => Stmt.readsBack_ret (Expr.Readable.reads value h).readsBack
  | .ifThen condition body, ⟨hcondition, hbody⟩ =>
      Stmt.readsBack_ifThen (Expr.Readable.reads condition hcondition).readsBack
        (StmtsReadable.reads body hbody)
  | .ifElse condition onTrue onFalse, ⟨hcondition, htrue, hfalse⟩ =>
      Stmt.readsBack_ifElse (Expr.Readable.reads condition hcondition).readsBack
        (StmtsReadable.reads onTrue htrue) (StmtsReadable.reads onFalse hfalse)

theorem StmtsReadable.reads :
    (stmts : List Stmt) → StmtsReadable stmts → ∀ x ∈ stmts, x.ReadsBack
  | [], _, _, hx => by cases hx
  | first :: rest, ⟨hfirst, hrest⟩, x, hx => by
      rcases List.mem_cons.1 hx with heq | hx
      · rw [heq]
        exact Stmt.Readable.reads first hfirst
      · exact StmtsReadable.reads rest hrest x hx

end

/-- The whole text of a readable expression is read, and as its tree. -/
theorem read_text {e : Expr} (h : e.Readable) (level : Nat) : read (e.text level) = some e.tree := by
  have hback := (Expr.Readable.reads e h).readsBack
  have hskip : skip (e.chars level) = e.chars level ++ [] := by
    rw [(hback.starts level).skip, List.append_nil]
  have hread := hback.read hskip (Nat.le_refl _) EndsExpr.nil
  rw [read, Expr.text, String.toList_ofList, hread]
  rfl

end Phrasebook.Script
