import Phrasebook.Proofs.Script.Grammar

/-!
Reading inverts printing. `Expr.Readable` tells which scripts have a text of their own: their names
are identifiers, no two static pieces of a template meet, no static piece is empty, and no concise
body begins with a brace. `Expr.Readable.readsBack` says that the text of such an expression is read
as its tree at every level of nesting, whatever mark follows it.
-/

namespace Phrasebook.Script

/-! ### What can follow and what can begin a text -/

theorem forall_mem_of_all {α : Type} {p : α → Prop} [DecidablePred p] {items : List α}
    (h : items.all fun x => decide (p x)) : ∀ x ∈ items, p x := fun x hx =>
  of_decide_eq_true (List.all_eq_true.1 h x hx)

/-- The marks that end an expression. -/
def endMarks : List Char := [',', ';', ')', ']', '\x7d']

/-- A text that is empty or goes on with a mark that ends an expression. -/
def EndsExpr (rest : List Char) : Prop := ∀ c ∈ rest.head?, c ∈ endMarks

theorem EndsExpr.cons {c : Char} {rest : List Char} (h : c ∈ endMarks) :
    EndsExpr (c :: rest) := by
  intro d hd
  cases hd
  exact h

theorem EndsExpr.nil : EndsExpr [] := fun _ h => by cases h

theorem EndsExpr.endsNumeral {rest : List Char} (h : EndsExpr rest) : EndsNumeral rest := by
  intro c hc
  have hall : ∀ c ∈ endMarks, ¬Text.isNameChar c ∧ c ≠ '.' := forall_mem_of_all (by decide)
  exact hall c (h c hc)

theorem EndsNumeral.endsWord {rest : List Char} (h : EndsNumeral rest) : EndsWord rest :=
  fun c hc => (h c hc).1

/-- A character with which an expression, a member, a parameter or a statement can begin. -/
def isStart (c : Char) : Bool := Text.isNameChar c || ['"', '-', '(', '[', '\x7b', '\x60'].contains c

theorem not_isBlank_of_isStart {c : Char} (h : isStart c) : ¬isBlank c := by
  have hall : ∀ n < 128, isStart (Char.ofNat n) → ¬isBlank (Char.ofNat n) := by decide
  have hlt : c.toNat < 128 := by
    rw [isStart, Bool.or_eq_true, List.contains_iff_mem] at h
    rcases h with h | h
    · exact Text.toNat_lt_of_isNameChar h
    · have hmarks : ∀ c ∈ ['"', '-', '(', '[', '\x7b', '\x60'], c.toNat < 128 :=
        forall_mem_of_all (by decide)
      exact hmarks c h
  have := hall c.toNat hlt
  rw [Char.ofNat_toNat] at this
  exact this h

theorem not_isStart_of_endsExpr {c : Char} (h : c ∈ endMarks) : ¬isStart c := by
  have hall : ∀ c ∈ endMarks, ¬isStart c := forall_mem_of_all (by decide)
  exact hall c h

/-- A text that begins with a token of its own. -/
def Starts (s : List Char) : Prop := ∃ c rest, s = c :: rest ∧ isStart c

theorem Starts.append {s : List Char} (h : Starts s) (rest : List Char) : Starts (s ++ rest) := by
  obtain ⟨c, tail, rfl, hc⟩ := h
  exact ⟨c, _, rfl, hc⟩

theorem Starts.skip {s : List Char} (h : Starts s) : skip s = s := by
  obtain ⟨c, tail, rfl, hc⟩ := h
  exact skip_cons (not_isBlank_of_isStart hc)

theorem Starts.length_pos {s : List Char} (h : Starts s) : 0 < s.length := by
  obtain ⟨c, rest, rfl, -⟩ := h
  exact Nat.succ_pos _

theorem starts_of_isName {name : List Char} (h : Text.isName name) : Starts name := by
  cases name with
  | nil => cases h
  | cons c rest =>
      refine ⟨c, rest, rfl, ?_⟩
      rw [isStart, Text.isNameChar_of_isName h c (List.mem_cons_self ..), Bool.true_or]

theorem starts_quoteString (s : List Char) : Starts (quoteString s) := ⟨'"', _, rfl, by decide⟩

theorem starts_propertyName (key : List Char) : Starts (propertyName key) := by
  unfold propertyName
  split_ifs with h
  · exact starts_of_isName h
  · exact starts_quoteString key

theorem starts_numberText (n : Number) : Starts n.text := by
  obtain ⟨sign, text, hsign, htext, heq⟩ := numberText_eq n
  rw [heq]
  rcases hsign with rfl | rfl
  · obtain ⟨c, tail, rfl, hc⟩ := head?_isDigit htext
    refine ⟨c, tail, rfl, ?_⟩
    rw [isStart, Text.isNameChar, Char.isAlphanum, hc]
    simp
  · exact ⟨'-', text, rfl, by decide⟩

namespace Reader

theorem accept_of_starts {c : Char} {mark s rest : List Char} (h : skip s = rest) (hrest : Starts rest)
    (hc : c ∈ endMarks) : accept (c :: mark) s = some (false, s) := by
  obtain ⟨d, tail, rfl, hd⟩ := hrest
  refine accept_of_head h ?_
  rintro rfl
  exact not_isStart_of_endsExpr hc hd

theorem bind_peek {α : Type} {f : Option Char → Reader α} {c : Char} {s rest : List Char}
    (h : skip s = c :: rest) : (peek >>= f) s = f (some c) (c :: rest) := by
  rw [← h]
  exact bind_some (by rw [peek, h]; rfl)

/-! ### Words and texts -/

theorem string_of_skip {text : String} {s rest : List Char}
    (h : skip s = quoteString text.toList ++ rest) : string s = some (text, rest) := by
  have hmark : skip s = '"' :: (escapeString text.toList ++ '"' :: rest) := by
    rw [h, quoteString, List.cons_append, List.cons_append, List.append_assoc]
    rfl
  have hend : Quote.string.end? ('"' :: rest) = some (.close, rest) := rfl
  rw [string, bind_some (symbol_char hmark),
    bind_some (quoted_of_read? (Quote.read?_escapeString text.toList hend))]
  rfl

theorem propertyKey_of_skip {key : String} {s rest : List Char} (hrest : EndsWord rest)
    (h : skip s = propertyName key.toList ++ rest) : propertyKey s = some (key, rest) := by
  have hskip : skip (propertyName key.toList ++ rest) = propertyName key.toList ++ rest :=
    ((starts_propertyName _).append rest).skip
  rw [propertyKey]
  unfold propertyName at h hskip
  split_ifs at h hskip with hname
  · cases hchars : key.toList with
    | nil =>
        rw [hchars] at hname
        cases hname
    | cons c tail =>
        have hchar := Text.isNameChar_of_isName hname c (by rw [hchars]; exact List.mem_cons_self ..)
        have hquote : some c ≠ some '"' := by
          intro heq
          cases heq
          revert hchar
          decide
        have hword := word_of_skip key hname hrest hskip
        rw [hchars] at h hword
        rw [bind_peek h, if_neg hquote]
        exact hword
  · rw [bind_peek h, if_pos rfl]
    exact string_of_skip hskip

end Reader

/-! ### Lists of items -/

/-- A reader takes the text of an item and gives its result, whichever of the given marks follows. -/
structure Reader.Takes {α : Type} (item : Reader α) (marks text : List Char) (result : α) : Prop where
  starts : Starts text
  read : ∀ {s rest : List Char} {mark : Char}, mark ∈ marks → skip s = text ++ mark :: rest →
    item s = some (result, mark :: rest)

/-- Texts on lines of their own, each with a comma after it. -/
def linesChars {α : Type} (level : Nat) (text : α → List Char) (items : List α) : List Char :=
  items.flatMap fun x => indent level ++ (text x ++ [',', '\n'])

/-- Texts on one line, with commas between them. -/
def inlineText {α : Type} (text : α → List Char) (items : List α) : List Char :=
  [',', ' '].intercalate (items.map text)

section Items

variable {α β : Type} {item : Reader β} {text : α → List Char} {result : α → β} {x y : α}
  {items : List α} {marks s t rest : List Char} {mark : Char} {size level : Nat}

theorem linesChars_cons : linesChars level text (x :: items) =
    indent level ++ (text x ++ ',' :: '\n' :: linesChars level text items) := by
  rw [linesChars, List.flatMap_cons, List.append_assoc, List.append_assoc]
  rfl

theorem inlineText_singleton : inlineText text [x] = text x := by
  rw [inlineText, List.map_cons, List.map_nil, List.intercalate_singleton]

theorem inlineText_cons_cons : inlineText text (x :: y :: items) =
    text x ++ ',' :: ' ' :: inlineText text (y :: items) := by
  rw [inlineText, inlineText, List.map_cons, List.map_cons, List.intercalate_cons_cons,
    List.append_assoc]
  rfl

theorem starts_inlineText (hx : Starts (text x)) : Starts (inlineText text (x :: items)) := by
  cases items with
  | nil =>
      rw [inlineText_singleton]
      exact hx
  | cons y items =>
      rw [inlineText_cons_cons]
      exact hx.append _

theorem length_le_linesChars (level : Nat) (text : α → List Char) (items : List α) :
    items.length ≤ (linesChars level text items).length := by
  induction items with
  | nil => exact Nat.zero_le _
  | cons x items ih =>
      simp only [linesChars_cons, List.length_append, List.length_cons]
      omega

theorem length_le_inlineText (text : α → List Char) (hitems : ∀ x ∈ items, Starts (text x)) :
    items.length ≤ (inlineText text items).length := by
  induction items with
  | nil => exact Nat.zero_le _
  | cons x items ih =>
      cases items with
      | nil =>
          rw [inlineText_singleton]
          exact (hitems x (List.mem_cons_self ..)).length_pos
      | cons y items =>
          have := ih fun z hz => hitems z (List.mem_cons_of_mem _ hz)
          simp only [inlineText_cons_cons, List.length_append, List.length_cons] at this ⊢
          omega

theorem length_text_le_linesChars (level : Nat) (text : α → List Char) (hx : x ∈ items) :
    (text x).length ≤ (linesChars level text items).length := by
  induction items with
  | nil => cases hx
  | cons y items ih =>
      simp only [linesChars_cons, List.length_append, List.length_cons]
      rcases List.mem_cons.1 hx with rfl | hx
      · omega
      · have := ih hx
        omega

theorem length_text_le_inlineText (text : α → List Char) (hx : x ∈ items) :
    (text x).length ≤ (inlineText text items).length := by
  induction items with
  | nil => cases hx
  | cons y items ih =>
      cases items with
      | nil =>
          rw [List.mem_singleton.1 hx, inlineText_singleton]
      | cons z items =>
          simp only [inlineText_cons_cons, List.length_append, List.length_cons]
          rcases List.mem_cons.1 hx with rfl | hx
          · omega
          · have := ih hx
            omega

namespace Reader

theorem commaList_close {close : List Char} (h : skip s = close ++ rest) :
    commaList close item (size + 1) s = some ([], rest) := by
  rw [commaList, bind_some (accept_of_skip h)]
  rfl

theorem commaList_more {close u : List Char} {head : β} {tail : List β}
    (hopen : accept close s = some (false, s)) (hitem : item s = some (head, t))
    (hcomma : skip t = ',' :: u) (htail : commaList close item size u = some (tail, rest)) :
    commaList close item (size + 1) s = some (head :: tail, rest) := by
  rw [commaList, bind_some hopen, if_neg (by decide), bind_some hitem,
    bind_some (accept_char hcomma), if_pos rfl, bind_some htail]
  rfl

theorem commaList_last {close : List Char} {head : β}
    (hopen : accept close s = some (false, s)) (hitem : item s = some (head, t))
    (hcomma : accept [','] t = some (false, t)) (hclose : skip t = close ++ rest) :
    commaList close item (size + 1) s = some ([head], rest) := by
  rw [commaList, bind_some hopen, if_neg (by decide), bind_some hitem, bind_some hcomma,
    if_neg (by decide), bind_some (symbol_of_skip hclose)]
  rfl

/-- Items on lines of their own are read up to the mark that closes them. -/
theorem commaList_lines (hitems : ∀ x ∈ items, item.Takes [','] (text x) (result x))
    (hmark : mark ∈ endMarks) (hsize : items.length < size)
    (hclose : skip t = mark :: rest) (h : skip s = skip (linesChars level text items ++ t)) :
    commaList [mark] item size s = some (items.map result, rest) := by
  induction items generalizing size s with
  | nil =>
      obtain ⟨size, rfl⟩ := Nat.exists_eq_add_one.2 hsize
      exact commaList_close (h.trans hclose)
  | cons x items ih =>
      obtain ⟨size, rfl⟩ := Nat.exists_eq_add_one.2 (Nat.zero_lt_of_lt hsize)
      have hx := hitems x (List.mem_cons_self ..)
      rw [linesChars_cons, List.append_assoc, skip_indent, List.append_assoc,
        (hx.starts.append _).skip] at h
      exact commaList_more (accept_of_starts h (hx.starts.append _) hmark)
        (hx.read (List.mem_singleton_self _) h) (skip_cons (by decide))
        (ih (fun y hy => hitems y (List.mem_cons_of_mem _ hy)) (Nat.lt_of_succ_lt_succ hsize)
          (skip_newline _))

theorem commaList_inline (hitems : ∀ x ∈ items, item.Takes [',', mark] (text x) (result x))
    (hmark : mark ∈ [';', ')', ']', '\x7d']) (hsize : items.length < size)
    (h : skip s = inlineText text items ++ mark :: rest) :
    commaList [mark] item size s = some (items.map result, rest) := by
  have hmarks : ∀ c ∈ [';', ')', ']', '\x7d'],
      c ∈ endMarks ∧ ¬isBlank c ∧ c ≠ ',' := forall_mem_of_all (by decide)
  obtain ⟨hcloses, hblank, hcomma⟩ := hmarks mark hmark
  induction items generalizing size s with
  | nil =>
      obtain ⟨size, rfl⟩ := Nat.exists_eq_add_one.2 hsize
      exact commaList_close h
  | cons x items ih =>
      obtain ⟨size, rfl⟩ := Nat.exists_eq_add_one.2 (Nat.zero_lt_of_lt hsize)
      have hx := hitems x (List.mem_cons_self ..)
      have hopen : accept [mark] s = some (false, s) :=
        accept_of_starts h ((starts_inlineText hx.starts).append _) hcloses
      cases items with
      | nil =>
          rw [inlineText_singleton] at h
          exact commaList_last hopen (hx.read (by simp) h) (accept_of_head (skip_cons hblank) hcomma)
            (skip_cons hblank)
      | cons y items =>
          rw [inlineText_cons_cons, List.append_assoc] at h
          have hy := hitems y (List.mem_cons_of_mem _ (List.mem_cons_self ..))
          exact commaList_more hopen (hx.read (by simp) h) (skip_cons (by decide))
            (ih (fun z hz => hitems z (List.mem_cons_of_mem _ hz)) (Nat.lt_of_succ_lt_succ hsize)
              ((skip_space _).trans ((starts_inlineText hy.starts).append _).skip))

end Reader

end Items

/-! ### Parameters -/

theorem paramsChars_eq (params : List Param) : paramsChars params =
    '(' :: (inlineText Param.chars params ++ [')', ' ', '=', '>', ' ']) := rfl

theorem endsWord_mark {c : Char} {rest : List Char} (h : c ∈ [',', ')', ':']) :
    EndsWord (c :: rest) := by
  intro d hd
  cases hd
  have hall : ∀ c ∈ [',', ')', ':'], ¬Text.isNameChar c := forall_mem_of_all (by decide)
  exact hall c h

namespace Reader

/-- A parameter with its type is read up to a comma or the parenthesis. -/
theorem takes_param {p : Param} (hp : IsIdentifier p.name) : param.Takes [',', ')'] p.chars p := by
  refine ⟨(starts_of_isName hp.1).append _, fun {s rest mark} hmark h => ?_⟩
  have hmarks : ∀ c ∈ [',', ')'], c ∈ [',', ')', ':'] := forall_mem_of_all (by decide)
  have hrest : EndsWord (mark :: rest) := endsWord_mark (hmarks mark hmark)
  have hname : skip s = p.name.toList ++ (':' :: ' ' :: (p.type.keyword.toList ++ mark :: rest)) := by
    rw [h, Param.chars, List.append_assoc]
    rfl
  have htype : skip (' ' :: (p.type.keyword.toList ++ mark :: rest)) =
      p.type.keyword.toList ++ mark :: rest := by
    have hstarts : Text.isName p.type.keyword.toList := by cases p.type <;> decide
    exact (skip_space _).trans ((starts_of_isName hstarts).append _).skip
  rw [param, bind_some (identifier_of_skip hp (endsWord_mark (by decide)) hname),
    bind_some (symbol_char (skip_cons (by decide))),
    bind_some (typeName_of_skip hrest htype)]
  rfl

end Reader

/-! ### What it means to be read back -/

/-- The text of an expression is read as its tree, whatever mark follows it. -/
structure Expr.ReadsBack (e : Expr) : Prop where
  starts : ∀ level, Starts (e.chars level)
  read : ∀ {level size : Nat} {s rest : List Char}, skip s = e.chars level ++ rest →
    (e.chars level).length ≤ size → EndsExpr rest → Reader.expr size s = some (e.tree, rest)

/-- The text of an expression is read as its tree before a comparison, too. -/
structure Expr.ReadsAsOperand (e : Expr) : Prop where
  starts : ∀ level, Starts (e.chars level)
  noParen : ∀ level, (e.chars level).head? ≠ some '('
  read : ∀ {level size : Nat} {s rest : List Char}, skip s = e.chars level ++ rest →
    (e.chars level).length ≤ size + 1 → EndsNumeral rest →
    Reader.primary (Reader.expr size) size s = some (e.tree, rest)

/-- The lines of a statement are read as its tree. They begin with a word other than `else`, and the
line end after them stays unread. -/
structure Stmt.ReadsBack (stmt : Stmt) : Prop where
  first : ∀ level rest, ∃ (word : String) (tail : List Char), Text.isName word.toList ∧
    word ≠ "else" ∧ EndsWord tail ∧ skip (stmt.chars level ++ rest) = word.toList ++ tail
  read : ∀ {level size : Nat} {s rest : List Char}, skip s = skip (stmt.chars level ++ rest) →
    (stmt.chars level).length ≤ size → Reader.acceptWord "else" ('\n' :: rest) =
      some (false, '\n' :: rest) → Reader.stmt size s = some (stmt.tree, '\n' :: rest)

namespace Expr

theorem ReadsAsOperand.readsBack {e : Expr} (h : e.ReadsAsOperand) : e.ReadsBack := by
  refine ⟨h.starts, fun {level size s rest} hs hsize hrest => ?_⟩
  obtain ⟨size, rfl⟩ := Nat.exists_eq_add_one.2 (Nat.lt_of_lt_of_le (h.starts level).length_pos hsize)
  have haccept : Reader.accept ['=', '=', '='] rest = some (false, rest) := by
    cases rest with
    | nil => rfl
    | cons c rest =>
        have hall : ∀ c ∈ endMarks, ¬isBlank c ∧ c ≠ '=' := forall_mem_of_all (by decide)
        obtain ⟨hblank, heq⟩ := hall c (hrest c rfl)
        exact Reader.accept_of_head (skip_cons hblank) heq
  have hread := h.read ((h.starts level).append rest).skip hsize hrest.endsNumeral
  have hparen := h.noParen level
  obtain ⟨c, tail, hchars, -⟩ := h.starts level
  rw [hchars] at hs hread hparen
  rw [Reader.expr, Reader.bind_peek hs, if_neg (show some c ≠ some '(' from hparen)]
  exact (Reader.bind_some hread).trans (Reader.bind_some haccept)

/-- An expression that opens with a mark of its own, at whatever level. -/
theorem ReadsAsOperand.of_opens {e : Expr} {mark : Char} (hmark : mark ∈ ['\x60', '[', '\x7b'])
    (hopens : ∀ level, ∃ tail, e.chars level = mark :: tail)
    (hread : ∀ {level size : Nat} {s rest : List Char}, skip s = e.chars level ++ rest →
      (e.chars level).length ≤ size + 1 →
      Reader.primary (Reader.expr size) size s = some (e.tree, rest)) : e.ReadsAsOperand := by
  have hmarks : ∀ c ∈ ['\x60', '[', '\x7b'], isStart c ∧ c ≠ '(' := forall_mem_of_all (by decide)
  obtain ⟨hstart, hne⟩ := hmarks mark hmark
  refine ⟨fun level => ?_, fun level => ?_, fun hs hsize _ => hread hs hsize⟩
  · obtain ⟨tail, htail⟩ := hopens level
    exact ⟨mark, tail, htail, hstart⟩
  · obtain ⟨tail, htail⟩ := hopens level
    rw [htail]
    exact fun h => hne (Option.some.inj h)

/-! ### Words and literals -/

theorem primary_of_isName {expr : Reader Tree} {size : Nat} {s rest name : List Char}
    (hname : Text.isName name) (h : skip s = name ++ rest) :
    Reader.primary expr size s = Reader.wordExpr (name ++ rest) := by
  cases name with
  | nil => cases hname
  | cons c tail =>
      have hchar := Text.isNameChar_of_isName hname c (List.mem_cons_self ..)
      have hmark : ∀ d ∈ ['"', '\x60', '\x7b', '[', '-'], some c ≠ some d := by
        have hall : ∀ d ∈ ['"', '\x60', '\x7b', '[', '-'], ¬Text.isNameChar d :=
          forall_mem_of_all (by decide)
        rintro d hd heq
        cases heq
        exact hall c hd hchar
      have hdigit : ¬(some c).any Char.isDigit := by
        rw [Text.isName, Bool.and_eq_true] at hname
        simpa using hname.1
      rw [Reader.primary, Reader.bind_peek h, if_neg (hmark '"' (by decide)),
        if_neg (hmark '\x60' (by decide)), if_neg (hmark '\x7b' (by decide)),
        if_neg (hmark '[' (by decide)), if_neg (not_or.2 ⟨hmark '-' (by decide), hdigit⟩)]
      rfl

theorem readsAsOperand_ident {name : String} (h : IsIdentifier name) :
    (Expr.ident name).ReadsAsOperand := by
  refine ⟨fun _ => starts_of_isName h.1, fun _ hparen => ?_, fun {_ size s rest} hs _ hrest => ?_⟩
  · have := Text.isNameChar_of_isName h.1 '(' (List.mem_of_head? hparen)
    revert this
    decide
  · have hskip : skip (name.toList ++ rest) = name.toList ++ rest :=
      ((starts_of_isName h.1).append rest).skip
    have htrue : name ≠ "true" := by
      rintro rfl
      exact h.2 (by decide)
    have hfalse : name ≠ "false" := by
      rintro rfl
      exact h.2 (by decide)
    rw [primary_of_isName h.1 hs, Reader.wordExpr,
      Reader.bind_some (Reader.word_of_skip name h.1 hrest.endsWord hskip), if_neg htrue, if_neg hfalse,
      if_neg h.2]
    rfl

theorem readsAsOperand_bool (b : Bool) : (Expr.literal (.bool b)).ReadsAsOperand := by
  have hname : Text.isName (Literal.bool b).chars := by cases b <;> decide
  refine ⟨fun _ => starts_of_isName hname, fun _ => ?_, fun {_ size s rest} hs _ hrest => ?_⟩
  · cases b <;> simp [Expr.chars, Literal.chars]
  · rw [primary_of_isName hname hs, Reader.wordExpr]
    cases b with
    | true =>
        rw [Reader.bind_some (Reader.word_of_skip "true" hname hrest.endsWord
          ((starts_of_isName hname).append rest).skip)]
        rfl
    | false =>
        rw [Reader.bind_some (Reader.word_of_skip "false" hname hrest.endsWord
          ((starts_of_isName hname).append rest).skip)]
        rfl

theorem readsAsOperand_string (text : String) : (Expr.literal (.string text)).ReadsAsOperand := by
  refine ⟨fun _ => starts_quoteString _, fun _ => by simp [Expr.chars, Literal.chars, quoteString],
    fun {_ size s rest} hs _ _ => ?_⟩
  have hskip := ((starts_quoteString text.toList).append rest).skip
  rw [Reader.primary, Reader.bind_peek hs, if_pos rfl]
  exact Reader.bind_some (Reader.string_of_skip hskip)

theorem readsAsOperand_number (n : Number) : (Expr.literal (.number n)).ReadsAsOperand := by
  have hstarts := starts_numberText n
  have hhead : ∃ c tail, n.text = c :: tail ∧ (c = '-' ∨ c.isDigit) := by
    obtain ⟨sign, text, hsign, htext, heq⟩ := numberText_eq n
    rw [heq]
    rcases hsign with rfl | rfl
    · obtain ⟨c, tail, rfl, hc⟩ := head?_isDigit htext
      exact ⟨c, tail, rfl, Or.inr hc⟩
    · exact ⟨'-', text, rfl, Or.inl rfl⟩
  obtain ⟨c, tail, htext, hc⟩ := hhead
  have hmark : ∀ d ∈ ['"', '\x60', '\x7b', '[', '('], c ≠ d := by
    have hall : ∀ d ∈ ['"', '\x60', '\x7b', '[', '('], d ≠ '-' ∧ ¬d.isDigit :=
      forall_mem_of_all (by decide)
    rintro d hd rfl
    exact hc.elim (hall c hd).1 (hall c hd).2
  refine ⟨fun _ => hstarts, fun _ hparen => ?_, fun {_ size s rest} hs _ hrest => ?_⟩
  · rw [Expr.chars, Literal.chars, htext] at hparen
    exact hmark '(' (by decide) (Option.some.inj hparen)
  · have hne : ∀ d ∈ ['"', '\x60', '\x7b', '[', '('], some c ≠ some d := fun d hd heq =>
      hmark d hd (Option.some.inj heq)
    have hnumber : some c = some '-' ∨ (some c).any Char.isDigit := hc.imp (congrArg some) id
    have hread := Reader.number_of_skip hrest ((hstarts.append rest).skip)
    rw [Expr.chars, Literal.chars, htext] at hs
    rw [htext] at hread
    rw [Reader.primary, Reader.bind_peek hs, if_neg (hne '"' (by decide)), if_neg (hne '\x60' (by decide)),
      if_neg (hne '\x7b' (by decide)), if_neg (hne '[' (by decide)),
      if_pos hnumber, Expr.tree, htext]
    exact Reader.bind_some hread

end Expr

/-! ### Templates -/

/-- Pieces in which no static one is empty and no two static ones meet. -/
def Alternating {α : Type} : List (Piece α) → Prop
  | [] => True
  | .dynamic _ :: rest => Alternating rest
  | [.static text] => text ≠ ""
  | .static text :: .dynamic _ :: rest => text ≠ "" ∧ Alternating rest
  | .static _ :: .static _ :: _ => False

section Pieces

variable {size level : Nat} {rest tail : List Char} {value : Expr}

def staticPiece (text : String) : List (Piece Tree) := if text.isEmpty then [] else [.static text]

theorem staticPiece_of_ne {text : String} (h : text ≠ "") : staticPiece text = [.static text] :=
  if_neg fun hempty => h (String.isEmpty_iff.1 hempty)

theorem pieces_close {expr : Reader Tree} (text : String) :
    Reader.pieces expr (size + 1) (escapeTemplate text.toList ++ '\x60' :: rest) =
      some (staticPiece text, rest) := by
  have hend : Quote.template.end? ('\x60' :: rest) = some (.close, rest) := rfl
  have hread := Reader.quoted_of_read? (Quote.read?_escapeTemplate text.toList hend)
  rw [Reader.pieces]
  exact Reader.bind_some hread

/-- Characters and a substitution are read, and then the pieces after them. -/
theorem pieces_substitution (text : String) {n : Nat} (hvalue : value.ReadsBack)
    (hlength : (value.chars level).length ≤ n) :
    Reader.pieces (Reader.expr n) (size + 1) (escapeTemplate text.toList ++
        '$' :: '\x7b' :: (value.chars level ++ '\x7d' :: tail)) =
      (Reader.pieces (Reader.expr n) size tail).map fun (trees, rest) =>
        (staticPiece text ++ .dynamic value.tree :: trees, rest) := by
  have hend : Quote.template.end? ('$' :: '\x7b' :: (value.chars level ++ '\x7d' :: tail)) =
      some (.substitution, value.chars level ++ '\x7d' :: tail) := rfl
  have hread := Reader.quoted_of_read? (Quote.read?_escapeTemplate text.toList hend)
  have hexpr := hvalue.read ((hvalue.starts level).append _).skip hlength
    (show EndsExpr ('\x7d' :: tail) from EndsExpr.cons (by decide))
  rw [Reader.pieces]
  refine (Reader.bind_some hread).trans ?_
  refine (Reader.bind_some hexpr).trans ?_
  refine (Reader.bind_some (Reader.symbol_char (skip_cons (by decide)))).trans ?_
  cases htail : Reader.pieces (Reader.expr n) size tail with
  | none => exact Reader.bind_none htail
  | some result => exact Reader.bind_some htail

/-- The pieces of a template literal are read up to the grave accent that closes it. -/
theorem pieces_read {n : Nat} : (pieces : List (Piece Expr)) → Alternating pieces →
    (∀ value, .dynamic value ∈ pieces → value.ReadsBack) → (piecesChars level pieces).length ≤ n →
    ∀ {m : Nat}, (piecesChars level pieces).length < m →
      Reader.pieces (Reader.expr n) m (piecesChars level pieces ++ '\x60' :: rest) =
        some (pieceTrees pieces, rest)
  | [], _, _, _, m + 1, _ => pieces_close ""
  | .dynamic value :: pieces, halt, hread, hn, m + 1, hm => by
      simp only [piecesChars, List.length_append, List.length_cons] at hn hm
      have htail := pieces_read (n := n) pieces halt
        (fun v hv => hread v (List.mem_cons_of_mem _ hv)) (by omega) (m := m) (by omega)
      have hlength : (value.chars level).length ≤ n := by omega
      simp only [piecesChars, List.cons_append, List.append_assoc]
      refine (pieces_substitution "" (hread value (List.mem_cons_self ..)) hlength).trans ?_
      rw [htail]
      rfl
  | [.static text], halt, _, _, m + 1, _ => by
      rw [piecesChars, piecesChars, List.append_nil, pieces_close, staticPiece_of_ne halt]
      rfl
  -- static text is read in one step with the substitution after it
  | .static text :: .dynamic value :: pieces, halt, hread, hn, m + 1, hm => by
      simp only [piecesChars, List.length_append, List.length_cons] at hn hm
      have htail := pieces_read (n := n) pieces halt.2
        (fun v hv => hread v (by simp [hv])) (by omega) (m := m) (by omega)
      have hlength : (value.chars level).length ≤ n := by omega
      simp only [piecesChars, List.cons_append, List.append_assoc]
      refine (pieces_substitution text (hread value (by simp)) hlength).trans ?_
      rw [htail, staticPiece_of_ne halt.1]
      rfl

end Pieces

end Phrasebook.Script
