import Phrasebook.Proofs.Script.RoundTrip

/-!
Template literals of any pieces. ECMAScript reads the text between two substitutions as one, however many
static pieces it was written for, and each of them is escaped by itself. That is the same except where one
piece ends in a dollar sign and the text after it begins with a brace: no piece holds the two, neither is
escaped, and together they open a substitution. A template whose static pieces do not meet in this way is
read as its texts and its substitutions, and no other template is.
-/

namespace Phrasebook.Script

/-! ### Texts that are escaped by parts -/

/-- Where the two texts meet, a dollar sign stands before a brace. -/
def Opens (s t : List Char) : Prop := s.getLast? = some '$' ∧ t.head? = some '\x7b'

instance (s t : List Char) : Decidable (Opens s t) := inferInstanceAs (Decidable (_ ∧ _))

theorem not_opens_nil (s : List Char) : ¬Opens s [] := fun h => nomatch h.2

theorem opens_append_left {s t u : List Char} (ht : t ≠ []) : Opens (s ++ t) u ↔ Opens t u := by
  rw [Opens, Opens, List.getLast?_append_of_ne_nil s ht]

theorem opens_append_right {s t u : List Char} (ht : t ≠ []) : Opens s (t ++ u) ↔ Opens s t := by
  rw [Opens, Opens, List.head?_append_of_ne_nil t ht]

theorem Opens.append {s t : List Char} (h : Opens s t) (u : List Char) : Opens s (t ++ u) := by
  obtain ⟨hdollar, hbrace⟩ := h
  exact ⟨hdollar, by rw [List.head?_append, hbrace, Option.some_or]⟩

theorem escapeTemplate_append {s t : List Char} (h : ¬Opens s t) :
    escapeTemplate (s ++ t) = escapeTemplate s ++ escapeTemplate t := by
  induction s with
  | nil => rfl
  | cons c s ih =>
      cases s with
      | nil =>
          have hdollar : ¬(c = '$' ∧ t.head? = some '\x7b') := by
            rintro ⟨rfl, hbrace⟩
            exact h ⟨rfl, hbrace⟩
          have halone : ¬(c = '$' ∧ ([] : List Char).head? = some '\x7b') := fun h => nomatch h.2
          simp only [List.cons_append, List.nil_append, escapeTemplate, if_neg hdollar, if_neg halone,
            List.append_nil]
      | cons d s =>
          have hrest : ¬Opens (d :: s) t := fun hopens =>
            h (by rwa [← List.singleton_append, opens_append_left (List.cons_ne_nil d s)])
          rw [List.cons_append, escapeTemplate, ih hrest, ← List.append_assoc]
          rfl

/-- Texts that open a substitution where they meet still do so when each is escaped. -/
theorem escapeTemplate_of_opens {s t : List Char} (h : Opens s t) : ∃ before after,
    s = before ++ ['$'] ∧
      escapeTemplate s ++ escapeTemplate t = escapeTemplate before ++ '$' :: '\x7b' :: after := by
  obtain ⟨hdollar, hbrace⟩ := h
  obtain ⟨before, rfl⟩ := List.getLast?_eq_some_iff.1 hdollar
  obtain ⟨after, rfl⟩ := List.head?_eq_some_iff.1 hbrace
  have hlast : ¬Opens before ['$'] := fun hopens => nomatch hopens.2
  refine ⟨before, escapeTemplate after, rfl, ?_⟩
  rw [escapeTemplate_append hlast, List.append_assoc]
  rfl

/-! ### Texts and substitutions -/

/-- A template as it is evaluated: the text before the first substitution, and each substitution with the
text after it. -/
@[ext]
structure Spans (α : Type) where
  head : String
  tail : List (α × String)
  deriving DecidableEq, Repr

/-- The substitutions of a template and the texts between them. Static pieces that stand side by side are
one text; where there is none, the text is empty. -/
def spans {α : Type} : List (Piece α) → Spans α
  | [] => ⟨"", []⟩
  | .static text :: rest => ⟨text ++ (spans rest).head, (spans rest).tail⟩
  | .dynamic value :: rest => ⟨"", (value, (spans rest).head) :: (spans rest).tail⟩

/-- No static piece opens a substitution together with the text after it. -/
def Seamless {α : Type} : List (Piece α) → Prop
  | [] => True
  | .static text :: rest => ¬Opens text.toList (spans rest).head.toList ∧ Seamless rest
  | .dynamic _ :: rest => Seamless rest

section Spans

variable {α : Type}

theorem spans_empty (pieces : List (Piece α)) : spans (.static "" :: pieces) = spans pieces := by
  rw [spans, String.empty_append]

theorem seamless_empty {pieces : List (Piece α)} :
    Seamless (.static "" :: pieces) ↔ Seamless pieces := by
  rw [Seamless]
  exact and_iff_right fun h => nomatch h.1

/-- Two static pieces side by side are one piece with the text of both. -/
theorem spans_static_static (s t : String) (pieces : List (Piece α)) :
    spans (.static s :: .static t :: pieces) = spans (.static (s ++ t) :: pieces) := by
  rw [spans, spans, spans, String.append_assoc]

theorem seamless_static_static {s t : String} (h : ¬Opens s.toList t.toList)
    {pieces : List (Piece α)} :
    Seamless (.static s :: .static t :: pieces) ↔ Seamless (.static (s ++ t) :: pieces) := by
  simp only [Seamless, spans, String.toList_append]
  cases ht : t.toList with
  | nil =>
      have hempty : ¬Opens [] (spans pieces).head.toList := fun hopens => nomatch hopens.1
      rw [List.nil_append, List.append_nil, and_iff_right hempty]
  | cons c rest =>
      have hne : c :: rest ≠ [] := List.cons_ne_nil c rest
      rw [ht] at h
      rw [opens_append_left hne, opens_append_right hne, and_iff_right h]

/-- No static piece meets another one where pieces alternate. -/
theorem seamless_of_alternating : (pieces : List (Piece α)) → Alternating pieces → Seamless pieces
  | [], _ => trivial
  | .dynamic _ :: rest, h => seamless_of_alternating rest h
  | [.static text], _ => ⟨not_opens_nil text.toList, trivial⟩
  | .static text :: .dynamic _ :: rest, h =>
      ⟨not_opens_nil text.toList, seamless_of_alternating rest h.2⟩

theorem spans_static_dynamic {text : String} {value : α} {pieces others : List (Piece α)} :
    spans (.static text :: .dynamic value :: pieces) = spans (.static text :: .dynamic value :: others) ↔
      spans pieces = spans others := by
  constructor
  · intro h
    simp only [spans, Spans.mk.injEq, List.cons.injEq, Prod.mk.injEq] at h
    obtain ⟨-, ⟨-, hhead⟩, htail⟩ := h
    exact Spans.ext hhead htail
  · intro h
    rw [spans, spans, spans, spans, h]

theorem spans_staticPiece (text : String) (trees : List (Piece Tree)) :
    spans (staticPiece text ++ trees) = spans (.static text :: trees) := by
  by_cases htext : text = ""
  · subst htext
    exact (spans_empty trees).symm
  · rw [staticPiece_of_ne htext, List.singleton_append]

end Spans

/-! ### Reading templates -/

section Reading

variable {n size level : Nat} {s t rest other : List Char} {pieces : List (Piece Expr)}
  {trees : List (Piece Tree)}

theorem piecesChars_empty (level : Nat) (pieces : List (Piece Expr)) :
    piecesChars level (.static "" :: pieces) = piecesChars level pieces := by
  rw [piecesChars]
  rfl

theorem piecesChars_static_static {s t : String} (h : ¬Opens s.toList t.toList) (level : Nat)
    (pieces : List (Piece Expr)) :
    piecesChars level (.static s :: .static t :: pieces) =
      piecesChars level (.static (s ++ t) :: pieces) := by
  rw [piecesChars, piecesChars, piecesChars, String.toList_append, escapeTemplate_append h,
    List.append_assoc]

/-- The text before the first substitution is what is read up to the first end. -/
theorem head_spans_of_pieces {text : List Char} {mark : Mark} {expr : Reader Tree}
    (htext : Quote.template.read? s = some ((text, mark), t))
    (h : Reader.pieces expr (size + 1) s = some (trees, rest)) :
    (spans trees).head = String.ofList text := by
  have hquoted : Reader.quoted .template s = some ((String.ofList text, mark), t) :=
    Reader.quoted_of_read? (by rw [htext, String.toList_ofList])
  rw [Reader.pieces, Reader.bind_some hquoted] at h
  have hstatic : ∀ trees, (spans (staticPiece (String.ofList text) ++ trees)).head =
      String.ofList text ++ (spans trees).head := by
    intro trees
    rw [spans_staticPiece, spans]
  cases mark with
  | close =>
      cases h
      have hhead := hstatic []
      rw [List.append_nil] at hhead
      exact hhead.trans String.append_empty
  | substitution =>
      obtain ⟨value, _, -, h⟩ := Reader.exists_of_bind h
      obtain ⟨_, _, -, h⟩ := Reader.exists_of_bind h
      obtain ⟨more, _, -, h⟩ := Reader.exists_of_bind h
      cases h
      exact (hstatic (.dynamic value :: more)).trans String.append_empty

theorem piecesChars_static_dynamic (level : Nat) (text : String) (value : Expr)
    (pieces : List (Piece Expr)) :
    piecesChars level (.static text :: .dynamic value :: pieces) ++ '\x60' :: rest =
      escapeTemplate text.toList ++ '$' :: '\x7b' ::
        (value.chars level ++ '\x7d' :: (piecesChars level pieces ++ '\x60' :: rest)) := by
  rw [piecesChars, piecesChars]
  simp only [List.append_assoc, List.cons_append]

/-- Pieces that open no substitution where they meet are read as their texts and substitutions, up to the
grave accent that closes the literal. The text before the first substitution grows piece by piece. -/
theorem pieces_of_seamless (hread : ∀ value, .dynamic value ∈ pieces → value.ReadsBack) (text : String)
    (hseamless : Seamless (.static text :: pieces))
    (hn : (piecesChars level (.static text :: pieces)).length ≤ n)
    (hsize : (piecesChars level (.static text :: pieces)).length < size) :
    ∃ trees, Reader.pieces (Reader.expr n) size
        (piecesChars level (.static text :: pieces) ++ '\x60' :: rest) = some (trees, rest) ∧
      spans trees = spans (pieceTrees (.static text :: pieces)) := by
  obtain ⟨size, rfl⟩ := Nat.exists_eq_add_one.2 (Nat.zero_lt_of_lt hsize)
  induction pieces generalizing text size with
  | nil =>
      refine ⟨staticPiece text, ?_, ?_⟩
      · rw [piecesChars, piecesChars, List.append_nil, pieces_close]
      · have hspans := spans_staticPiece text []
        rwa [List.append_nil] at hspans
  | cons piece pieces ih =>
      have hrest : ∀ value, .dynamic value ∈ pieces → value.ReadsBack := fun value hvalue =>
        hread value (List.mem_cons_of_mem _ hvalue)
      cases piece with
      | static next =>
          have hmeet : ¬Opens text.toList next.toList := by
            intro hopens
            rw [Seamless, spans, String.toList_append] at hseamless
            exact hseamless.1 (hopens.append _)
          rw [piecesChars_static_static hmeet] at hn hsize ⊢
          rw [seamless_static_static hmeet] at hseamless
          obtain ⟨trees, htrees, hspans⟩ := ih hrest (text ++ next) hseamless hn size hsize
          exact ⟨trees, htrees, hspans.trans (spans_static_static text next (pieceTrees pieces)).symm⟩
      | dynamic value =>
          rw [piecesChars, piecesChars] at hn hsize
          simp only [List.length_append, List.length_cons] at hn hsize
          obtain ⟨size, rfl⟩ := Nat.exists_eq_add_one.2 (show 0 < size by omega)
          obtain ⟨trees, htrees, hspans⟩ := ih hrest "" (seamless_empty.2 hseamless.2)
            (by rw [piecesChars_empty]; omega) size (by rw [piecesChars_empty]; omega)
          rw [piecesChars_empty] at htrees
          rw [piecesChars_static_dynamic,
            pieces_substitution text (hread value (List.mem_cons_self ..)) (by omega), htrees]
          refine ⟨_, rfl, ?_⟩
          rw [spans_staticPiece]
          exact spans_static_dynamic.2 (hspans.trans (spans_empty (pieceTrees pieces)))

/-- Where pieces open a substitution that none of them holds, the text before it is cut off there. So pieces
that are read as their texts and substitutions open none. -/
theorem seamless_of_pieces (hread : ∀ value, .dynamic value ∈ pieces → value.ReadsBack) (text : String)
    (hn : (piecesChars level (.static text :: pieces)).length ≤ n)
    (htrees : Reader.pieces (Reader.expr n) size
      (piecesChars level (.static text :: pieces) ++ '\x60' :: rest) = some (trees, other))
    (hspans : spans trees = spans (pieceTrees (.static text :: pieces))) :
    Seamless (.static text :: pieces) := by
  obtain ⟨size, rfl⟩ : ∃ k, size = k + 1 := by
    cases size with
    | zero => cases htrees
    | succ size => exact ⟨size, rfl⟩
  induction pieces generalizing text size trees with
  | nil => exact ⟨not_opens_nil text.toList, trivial⟩
  | cons piece pieces ih =>
      have hrest : ∀ value, .dynamic value ∈ pieces → value.ReadsBack := fun value hvalue =>
        hread value (List.mem_cons_of_mem _ hvalue)
      cases piece with
      | static next =>
          by_cases hmeet : Opens text.toList next.toList
          · obtain ⟨before, after, htext, hchars⟩ := escapeTemplate_of_opens hmeet
            rw [piecesChars, piecesChars, ← List.append_assoc, hchars, List.append_assoc,
              List.append_assoc] at htrees
            have hhead := head_spans_of_pieces (Quote.read?_escapeTemplate before rfl) htrees
            rw [hspans] at hhead
            have hlength := congrArg String.length hhead
            simp only [pieceTrees, spans, String.length_append, String.length_ofList] at hlength
            rw [← String.length_toList, htext, List.length_append, List.length_singleton] at hlength
            omega
          · rw [piecesChars_static_static hmeet] at hn htrees
            rw [pieceTrees, pieceTrees, spans_static_static] at hspans
            exact (seamless_static_static hmeet).2 (ih hrest (text ++ next) hn hspans size htrees)
      | dynamic value =>
          rw [piecesChars, piecesChars] at hn
          simp only [List.length_append, List.length_cons] at hn
          rw [piecesChars_static_dynamic,
            pieces_substitution text (hread value (List.mem_cons_self ..)) (by omega)] at htrees
          obtain ⟨⟨more, other⟩, hmore, heq⟩ := Option.map_eq_some_iff.1 htrees
          cases heq
          rw [spans_staticPiece] at hspans
          have htail := spans_static_dynamic.1 hspans
          cases size with
          | zero => cases hmore
          | succ size =>
              rw [← piecesChars_empty] at hmore
              have hseamless := ih hrest "" (by rw [piecesChars_empty]; omega)
                (htail.trans (spans_empty (pieceTrees pieces)).symm) size hmore
              exact ⟨not_opens_nil text.toList, show Seamless pieces from seamless_empty.1 hseamless⟩

/-- A template is read up to its grave accent, and may be compared with what comes then. -/
theorem expr_template (h : skip s = '\x60' :: t) :
    Reader.expr (size + 1) s = (do
      let trees ← Reader.pieces (Reader.expr size) size
      if ← Reader.accept ['=', '=', '='] then
        return .strictEqual (.template trees) (← Reader.primary (Reader.expr size) size)
      else return .template trees : Reader Tree) t := by
  have hsymbol : Reader.symbol ['\x60'] ('\x60' :: t) = some ((), t) :=
    Reader.symbol_char (skip_cons (by decide))
  rw [Reader.expr, Reader.bind_peek h, if_neg (by decide), Reader.primary,
    bind_assoc, Reader.bind_peek (skip_cons (by decide)), if_neg (by decide), if_pos rfl, bind_assoc,
    Reader.bind_some hsymbol, bind_assoc]
  rfl

theorem toList_text_template (pieces : List (Piece Expr)) (level : Nat) :
    ((Expr.template pieces).text level).toList = '\x60' :: (piecesChars level pieces ++ ['\x60']) := by
  rw [Expr.text, String.toList_ofList, Expr.chars, List.cons_append]

theorem length_text_template (pieces : List (Piece Expr)) (level : Nat) :
    ((Expr.template pieces).text level).toList.length = (piecesChars level pieces).length + 1 + 1 := by
  rw [toList_text_template, List.length_cons, List.length_append, List.length_singleton]

theorem read_template_of_pieces
    (h : Reader.pieces (Reader.expr ((piecesChars level pieces).length + 1))
      ((piecesChars level pieces).length + 1) (piecesChars level pieces ++ ['\x60']) = some (trees, [])) :
    read ((Expr.template pieces).text level) = some (.template trees) := by
  have hread : Reader.expr ((piecesChars level pieces).length + 1 + 1)
      ('\x60' :: (piecesChars level pieces ++ ['\x60'])) = some (.template trees, []) := by
    rw [expr_template (skip_cons (by decide)), Reader.bind_some h]
    rfl
  rw [read, length_text_template, toList_text_template, hread]
  rfl

theorem pieces_of_read_template (h : read ((Expr.template pieces).text level) = some (.template trees)) :
    ∃ other, Reader.pieces (Reader.expr ((piecesChars level pieces).length + 1))
      ((piecesChars level pieces).length + 1) (piecesChars level pieces ++ ['\x60']) =
        some (trees, other) := by
  rw [read, length_text_template, toList_text_template] at h
  obtain ⟨⟨tree, rest⟩, hexpr, htree⟩ := Option.bind_eq_some_iff.1 h
  dsimp only at htree
  split_ifs at htree
  · cases htree
    rw [expr_template (skip_cons (by decide))] at hexpr
    obtain ⟨found, other, hpieces, hexpr⟩ := Reader.exists_of_bind hexpr
    obtain ⟨compared, _, -, hexpr⟩ := Reader.exists_of_bind hexpr
    cases compared with
    | true =>
        obtain ⟨_, _, -, hexpr⟩ := Reader.exists_of_bind hexpr
        cases hexpr
    | false =>
        cases hexpr
        exact ⟨other, hpieces⟩

end Reading

/-- A template literal is read as its substitutions, in order, with the static text that stands between
them, exactly if no static piece ends in a dollar sign where the static text after it begins with a brace.
Its expressions may be identifiers, or any others that are read by themselves. -/
theorem read_template_iff {pieces : List (Piece Expr)}
    (hreadable : ∀ value, .dynamic value ∈ pieces → value.Readable) (level : Nat) :
    (∃ trees, read ((Expr.template pieces).text level) = some (.template trees) ∧
        spans trees = spans (pieceTrees pieces)) ↔
      Seamless pieces := by
  have hback : ∀ value, .dynamic value ∈ pieces → value.ReadsBack := fun value hvalue =>
    (Expr.Readable.reads value (hreadable value hvalue)).readsBack
  constructor
  · rintro ⟨trees, hread, hspans⟩
    obtain ⟨other, hpieces⟩ := pieces_of_read_template hread
    rw [← piecesChars_empty] at hpieces
    have hseamless := seamless_of_pieces hback "" (by rw [piecesChars_empty]; omega) hpieces
      (hspans.trans (spans_empty (pieceTrees pieces)).symm)
    exact seamless_empty.1 hseamless
  · intro hseamless
    have hsize : (piecesChars level (.static "" :: pieces)).length <
        (piecesChars level pieces).length + 1 := by
      rw [piecesChars_empty]
      exact Nat.lt_succ_self _
    obtain ⟨trees, hpieces, hspans⟩ :=
      pieces_of_seamless hback "" (seamless_empty.2 hseamless) (Nat.le_of_lt hsize) hsize
    rw [piecesChars_empty] at hpieces
    exact ⟨trees, read_template_of_pieces hpieces, hspans.trans (spans_empty (pieceTrees pieces))⟩

theorem read_template_iff_dollar :
    ∃ trees, read ((Expr.template [.static "a$", .static "", .dynamic (.ident "x"),
        .static "\x7bb\x7d", .static "\x60"]).text 0) = some (.template trees) ∧
      spans trees = ⟨"a$", [(.ident "x", "\x7bb\x7d\x60")]⟩ := by
  refine (read_template_iff ?_ 0).2 ⟨by decide, by decide, by decide, by decide, trivial⟩
  intro value hvalue
  simp only [List.mem_cons, List.not_mem_nil, reduceCtorEq, Piece.dynamic.injEq, false_or,
    or_false] at hvalue
  subst hvalue
  exact ⟨by decide, by decide⟩

/-- A dollar sign and a brace in two static pieces are read as a substitution that no piece holds. -/
theorem read_template_seam :
    read ((Expr.template [.static "$", .static "\x7bx\x7d"]).text 0) =
        some (.template [.dynamic (.ident "x")]) ∧
      ¬∃ trees, read ((Expr.template [.static "$", .static "\x7bx\x7d"]).text 0) =
          some (.template trees) ∧
        spans trees = spans (pieceTrees [.static "$", .static "\x7bx\x7d"]) := by
  have htext : (Expr.template [.static "$", .static "\x7bx\x7d"]).text 0 =
      (Expr.template [.dynamic (.ident "x")]).text 0 := rfl
  have hread : read ((Expr.template [.static "$", .static "\x7bx\x7d"]).text 0) =
      some (.template [.dynamic (.ident "x")]) := by
    have hname : (Expr.ident "x").Readable := ⟨by decide, by decide⟩
    rw [htext, read_text (e := .template [.dynamic (.ident "x")]) ⟨trivial, hname, trivial⟩ 0]
    rfl
  refine ⟨hread, ?_⟩
  rintro ⟨trees, htrees, hspans⟩
  rw [hread] at htrees
  cases htrees
  have hhead := congrArg Spans.head hspans
  revert hhead
  decide

end Phrasebook.Script
