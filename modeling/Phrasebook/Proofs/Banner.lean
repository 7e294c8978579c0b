import Mathlib.Data.List.DropRight
import Phrasebook.Compile
import Phrasebook.Proofs.Accessor.Readable

/-!
The comment at the top of a script. A banner becomes one line of the comment for each line that it has as
the text of a script, and no such line holds a line end of its own. So a reader that passes over the
comment arrives at the same code, whatever the banner says.
-/

namespace Phrasebook

namespace Banner

/-! ### Lines -/

/-- The characters at which ECMAScript ends a line, and with it a comment. -/
def lineEnds : List Char := ['\n', '\r', '\u2028', '\u2029']

theorem isLineEnd_iff {c : Char} : Text.isLineEnd c ↔ c ∈ lineEnds := by
  simp [Text.isLineEnd, lineEnds, or_assoc]

/-- The lines of a text: the characters before each line end, and those after the last one if there are
any. A carriage return with a line feed after it is one line end. -/
def sourceLines : List Char → List (List Char)
  | [] => []
  | c :: rest =>
    if c = '\r' ∧ rest.head? = some '\n' then sourceLines rest
    else if c ∈ lineEnds then [] :: sourceLines rest
    else (c :: (sourceLines rest).headD []) :: (sourceLines rest).tail

theorem joinLineEnds_cons (c : Char) (rest : List Char) : joinLineEnds (c :: rest) =
    if c = '\r' ∧ rest.head? = some '\n' then joinLineEnds rest else c :: joinLineEnds rest := by
  by_cases h : c = '\r' ∧ rest.head? = some '\n'
  · obtain ⟨rfl, hnext⟩ := h
    cases rest with
    | nil => cases hnext
    | cons d rest =>
        cases hnext
        rw [if_pos ⟨rfl, rfl⟩, joinLineEnds, joinLineEnds]
        exact fun _ hcr => absurd hcr (by decide)
  · rw [if_neg h, joinLineEnds]
    rintro rest' rfl rfl
    exact h ⟨rfl, rfl⟩

theorem joinLineEnds_ne_nil {text : List Char} (h : text ≠ []) : joinLineEnds text ≠ [] := by
  induction text with
  | nil => exact absurd rfl h
  | cons c rest ih =>
      rw [joinLineEnds_cons]
      split_ifs with hpair
      · refine ih fun hnil => ?_
        rw [hnil] at hpair
        cases hpair.2
      · exact List.cons_ne_nil _ _

theorem dropLastLineEnd_cons (c : Char) {rest : List Char} (h : rest ≠ []) :
    dropLastLineEnd (c :: rest) = c :: dropLastLineEnd rest := by
  obtain ⟨d, hd⟩ := Option.ne_none_iff_exists'.1 (mt List.getLast?_eq_none_iff.1 h)
  have hcons : (c :: rest).getLast? = some d := by
    rw [List.getLast?_cons, hd]
    rfl
  rw [dropLastLineEnd, dropLastLineEnd, hd, hcons]
  dsimp only
  split_ifs
  · rw [List.dropLast_cons_of_ne_nil h]
  · rfl

/-- The lines of a banner are those of its text. -/
theorem splitOnP_eq_sourceLines {text : List Char} (h : text ≠ []) :
    (dropLastLineEnd (joinLineEnds text)).splitOnP Text.isLineEnd = sourceLines text := by
  induction text with
  | nil => exact absurd rfl h
  | cons c rest ih =>
      rw [joinLineEnds_cons, sourceLines]
      by_cases hpair : c = '\r' ∧ rest.head? = some '\n'
      · rw [if_pos hpair, if_pos hpair]
        refine ih fun hnil => ?_
        rw [hnil] at hpair
        cases hpair.2
      · rw [if_neg hpair, if_neg hpair]
        by_cases hrest : rest = []
        · subst hrest
          by_cases hend : c ∈ lineEnds
          · have hdrop : dropLastLineEnd (c :: joinLineEnds []) = [] := if_pos (isLineEnd_iff.2 hend)
            rw [hdrop, if_pos hend]
            rfl
          · have hdrop : dropLastLineEnd (c :: joinLineEnds []) = [c] := if_neg (mt isLineEnd_iff.1 hend)
            rw [hdrop, if_neg hend, List.splitOnP_cons_eq_if_modifyHead, if_neg (mt isLineEnd_iff.1 hend)]
            rfl
        · rw [dropLastLineEnd_cons c (joinLineEnds_ne_nil hrest), List.splitOnP_cons_eq_if_modifyHead, ih hrest]
          by_cases hend : c ∈ lineEnds
          · rw [if_pos (isLineEnd_iff.2 hend), if_pos hend]
          · rw [if_neg (mt isLineEnd_iff.1 hend), if_neg hend]
            have hne := List.splitOnP_ne_nil Text.isLineEnd (dropLastLineEnd (joinLineEnds rest))
            rw [ih hrest] at hne
            cases hlines : sourceLines rest with
            | nil => exact absurd hlines hne
            | cons line lines => rfl

theorem not_mem_lineEnds_of_mem_sourceLines {text line : List Char} (h : line ∈ sourceLines text) :
    ∀ c ∈ line, c ∉ lineEnds := by
  induction text generalizing line with
  | nil => cases h
  | cons c rest ih =>
      rw [sourceLines] at h
      split_ifs at h with hpair hend
      · exact ih h
      · rcases List.mem_cons.1 h with rfl | h
        · exact fun d hd => by cases hd
        · exact ih h
      · cases hlines : sourceLines rest with
        | nil =>
            rw [hlines] at h
            rw [List.mem_singleton.1 h]
            intro d hd
            rw [List.mem_singleton.1 hd]
            exact hend
        | cons first lines =>
            rw [hlines] at h ih
            rcases List.mem_cons.1 h with rfl | h
            · intro d hd
              rcases List.mem_cons.1 hd with rfl | hd
              · exact hend
              · exact ih (List.mem_cons_self ..) d hd
            · exact ih (List.mem_cons_of_mem _ h)

/-! ### The comment -/

/-- What stands in a script for one line of the banner. -/
def commentOf (line : List Char) : List Char :=
  if line.all Text.isBlank then "//".toList else "// ".toList ++ line.rdropWhile Text.isBlank

/-- What stands above the code for a banner. -/
def comment : Option String → List Char
  | none => []
  | some banner =>
    if banner = "" then []
    else (sourceLines banner.toList).flatMap (fun line => commentOf line ++ ['\n']) ++ ['\n']

theorem commentLine_trimEnd (line : List Char) :
    Script.commentLine (String.ofList (Text.trimEnd line)) = commentOf line ++ ['\n'] := by
  have htrim : Text.trimEnd line = line.rdropWhile Text.isBlank := rfl
  rw [Script.commentLine, commentOf, htrim]
  by_cases hblank : ∀ c ∈ line, Text.isBlank c
  · rw [List.rdropWhile_eq_nil_iff.2 hblank, if_pos (List.all_eq_true.2 hblank)]
    rfl
  · have hne : line.rdropWhile Text.isBlank ≠ [] := mt List.rdropWhile_eq_nil_iff.1 hblank
    have hempty : ¬(String.ofList (line.rdropWhile Text.isBlank)).isEmpty := by
      simpa using hne
    rw [if_neg hempty, if_neg (mt List.all_eq_true.1 hblank),
      String.toList_ofList (l := line.rdropWhile Text.isBlank)]

theorem bannerChars_lines (banner : Option String) :
    Script.bannerChars (lines (banner.getD "")) = comment banner := by
  cases banner with
  | none => rfl
  | some banner =>
      by_cases hempty : banner = ""
      · subst hempty
        rfl
      · have hne : banner.toList ≠ [] := fun hnil => hempty (String.toList_inj.1 hnil)
        have hlines : lines banner = (sourceLines banner.toList).map fun line =>
            String.ofList (Text.trimEnd line) := by
          rw [lines, if_neg (mt String.isEmpty_iff.1 hempty), splitOnP_eq_sourceLines hne]
        have hsome : ¬(sourceLines banner.toList).isEmpty := by
          rw [List.isEmpty_iff, ← splitOnP_eq_sourceLines hne]
          exact List.splitOnP_ne_nil _ _
        rw [Option.getD_some, comment, if_neg hempty, hlines, Script.bannerChars, List.isEmpty_map,
          if_neg hsome, List.flatMap_map]
        simp only [commentLine_trimEnd]

theorem not_mem_lineEnds_of_mem_commentOf {line : List Char} (h : ∀ c ∈ line, c ∉ lineEnds) :
    ∀ c ∈ commentOf line, c ∉ lineEnds := by
  intro c hc
  rw [commentOf] at hc
  split_ifs at hc
  · have hslashes : ∀ c ∈ "//".toList, c ∉ lineEnds := by simp [lineEnds]
    exact hslashes c hc
  · have hslashes : ∀ c ∈ "// ".toList, c ∉ lineEnds := by simp [lineEnds]
    rcases List.mem_append.1 hc with hc | hc
    · exact hslashes c hc
    · exact h c ((List.rdropWhile_prefix _ _).subset hc)

/-! ### Reading on after the comment -/

/-- The text after the comments and the line ends with which it begins. `inside` tells whether it begins
inside a comment, which ends where the line does. -/
def afterComments (inside : Bool) : List Char → List Char
  | [] => []
  | c :: rest =>
    if c ∈ lineEnds then afterComments false rest
    else if inside then afterComments true rest
    else if c = '/' ∧ rest.head? = some '/' then afterComments true rest
    else c :: rest

theorem afterComments_inside {line : List Char} (h : ∀ c ∈ line, c ∉ lineEnds) (rest : List Char) :
    afterComments true (line ++ '\n' :: rest) = afterComments false rest := by
  induction line with
  | nil => rw [List.nil_append, afterComments, if_pos (by decide)]
  | cons c line ih =>
      rw [List.cons_append, afterComments, if_neg (h c (List.mem_cons_self ..)), if_pos rfl]
      exact ih fun d hd => h d (List.mem_cons_of_mem _ hd)

theorem afterComments_line {line : List Char} (h : ∀ c ∈ line, c ∉ lineEnds) (rest : List Char) :
    afterComments false (commentOf line ++ '\n' :: rest) = afterComments false rest := by
  have hline := not_mem_lineEnds_of_mem_commentOf h
  obtain ⟨tail, htail⟩ : ∃ tail, commentOf line = '/' :: '/' :: tail := by
    rw [commentOf]
    split_ifs
    · exact ⟨_, rfl⟩
    · exact ⟨_, rfl⟩
  rw [htail] at hline ⊢
  have hslash := fun d hd => hline d (List.mem_cons_of_mem _ hd)
  rw [List.cons_append, afterComments, if_neg (hline _ (List.mem_cons_self ..)),
    if_neg Bool.false_ne_true, if_pos ⟨rfl, rfl⟩, afterComments_inside hslash]

/-- Whatever the banner, what follows its comment is read from its first character on. -/
theorem afterComments_comment (banner : Option String) {c : Char} {code : List Char}
    (hend : c ∉ lineEnds) (hslash : c ≠ '/') :
    afterComments false (comment banner ++ c :: code) = c :: code := by
  have hcode : afterComments false (c :: code) = c :: code := by
    rw [afterComments, if_neg hend, if_neg Bool.false_ne_true, if_neg fun h => hslash h.1]
  have hlines : ∀ lines : List (List Char), (∀ line ∈ lines, ∀ c ∈ line, c ∉ lineEnds) →
      afterComments false (lines.flatMap (fun line => commentOf line ++ ['\n']) ++ '\n' :: c :: code) =
        c :: code := by
    intro lines h
    induction lines with
    | nil => rw [List.flatMap_nil, List.nil_append, afterComments, if_pos (by decide), hcode]
    | cons line lines ih =>
        rw [List.flatMap_cons, List.append_assoc, List.append_assoc, List.singleton_append,
          afterComments_line (h line (List.mem_cons_self ..))]
        exact ih fun other hother => h other (List.mem_cons_of_mem _ hother)
  cases banner with
  | none => exact hcode
  | some banner =>
      rw [comment]
      split_ifs
      · exact hcode
      · rw [List.append_assoc, List.singleton_append]
        exact hlines _ fun line hline => not_mem_lineEnds_of_mem_sourceLines hline

end Banner

namespace Accessor

/-- The code of a script file, without the comment above it. -/
def code (a : Accessor) (defaultExport : Bool) : List Char :=
  if defaultExport then "export default ".toList ++ a.toScript.chars 0 ++ ";\n".toList
  else a.toScript.chars 0 ++ "\n".toList

theorem render_eq (a : Accessor) (options : Options) :
    a.render options =
      String.ofList (Banner.comment options.banner ++ a.code options.defaultExport) := by
  rw [render, module, Script.Module.text, Script.Module.chars, Options.bannerLines,
    Banner.bannerChars_lines]
  rfl

theorem starts_code {v : Json.Value} {a : Accessor} (h : ofJson v = .ok a) (defaultExport : Bool) :
    Script.Starts (a.code defaultExport) := by
  have hscript : Script.Starts (a.toScript.chars 0) :=
    (Script.Expr.Readable.reads _ (readable_ofJson v a h)).readsBack.starts 0
  rw [code]
  cases defaultExport with
  | false => exact hscript.append _
  | true => exact ⟨'e', _, rfl, by decide⟩

/-- The file that is written for a resource is a comment and the code, and the code depends on the resource
and the export flag alone. Without a banner there is no comment; otherwise it has one line for each line of
the banner and then an empty line. No line of it is ended from within, so a reader that passes over the
comment arrives at the code. -/
theorem renderValue_eq_comment_append {v : Json.Value} {a : Accessor} (h : ofJson v = .ok a)
    (options : Options) : ∃ comment : List Char,
      renderValue v options = .ok (String.ofList (comment ++ a.code options.defaultExport)) ∧
      (options.banner = none ∨ options.banner = some "" → comment = []) ∧
      (∀ banner, options.banner = some banner → banner ≠ "" →
        comment = (Banner.sourceLines banner.toList).flatMap
          (fun line => Banner.commentOf line ++ ['\n']) ++ ['\n'] ∧
        ∀ line ∈ Banner.sourceLines banner.toList, ∀ c ∈ Banner.commentOf line, c ∉ Banner.lineEnds) ∧
      Banner.afterComments false (comment ++ a.code options.defaultExport) =
        a.code options.defaultExport := by
  refine ⟨Banner.comment options.banner, ?_, ?_, ?_, ?_⟩
  · rw [renderValue, h, ← render_eq]
    rfl
  · rintro (hnone | hempty)
    · rw [hnone]
      rfl
    · rw [hempty]
      rfl
  · intro banner hbanner hne
    rw [hbanner, Banner.comment, if_neg hne]
    exact ⟨rfl, fun line hline => Banner.not_mem_lineEnds_of_mem_commentOf
      (Banner.not_mem_lineEnds_of_mem_sourceLines hline)⟩
  · obtain ⟨c, tail, hcode, hc⟩ := starts_code h options.defaultExport
    rw [hcode]
    have hends : ∀ d ∈ '/' :: Banner.lineEnds, ¬Script.isStart d := by
      simp only [Banner.lineEnds, List.forall_mem_cons, List.not_mem_nil, IsEmpty.forall_iff, implies_true]
      decide
    exact Banner.afterComments_comment _ (fun hend => hends c (List.mem_cons_of_mem _ hend) hc)
      fun hslash => hends c (List.mem_cons.2 (Or.inl hslash)) hc

/-- A carriage return before another line end has a line of its own, and code after a line separator is
kept in the comment. -/
theorem renderValue_eq_comment_append_mixed : ∃ a comment, ofJson (.bool true) = .ok a ∧
    renderValue (.bool true) ⟨true, some "x \r\r\n\u2028alert(1)"⟩ =
      .ok (String.ofList (comment ++ a.code true)) ∧
    comment = "// x\n//\n//\n// alert(1)\n\n".toList ∧
    Banner.afterComments false (comment ++ a.code true) = a.code true := by
  obtain ⟨comment, hrender, -, hlines, hafter⟩ := renderValue_eq_comment_append
    (v := .bool true) rfl ⟨true, some "x \r\r\n\u2028alert(1)"⟩
  refine ⟨_, comment, rfl, hrender, ?_, hafter⟩
  rw [(hlines _ rfl (by decide)).1]
  decide

end Accessor

end Phrasebook
