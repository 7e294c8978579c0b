import Phrasebook.ArgType
import Phrasebook.Text.Blank
import Phrasebook.Text.Name
import Phrasebook.Text.Word

/-!
Placeholders. A placeholder is written as a name, a colon and a type token between braces, with
white space around the colon alone. `Placeholder.eq_append_of_parse?` says that what is read as
one is exactly what is written for it.
-/

namespace Phrasebook

/-- A placeholder, with the white space around its colon. -/
structure Placeholder where
  name : String
  beforeColon : String
  afterColon : String
  token : String
  deriving DecidableEq, Repr

namespace Placeholder

def text (p : Placeholder) : List Char :=
  '\x7b' :: p.name.toList ++ p.beforeColon.toList ++ ':' :: p.afterColon.toList ++
    p.token.toList ++ ['\x7d']

/-- The type that the placeholder's token names. -/
def type (p : Placeholder) : ArgType := .ofToken p.token

/-- The white space and the token after the colon, up to the closing brace, and what follows it. -/
def parseToken? (s : List Char) : Option ((List Char × List Char) × List Char) :=
  let afterColon := s.takeWhile Text.isBlank
  let s := s.dropWhile Text.isBlank
  match s.dropWhile Text.isWord with
  | '\x7d' :: rest => some ((afterColon, s.takeWhile Text.isWord), rest)
  | _ => none

/-- The placeholder at the start of a text, and what follows it. No character of a name is white
space or a colon, and none of a token is a brace, so each piece takes all it can. -/
def parse? : List Char → Option (Placeholder × List Char)
  | '\x7b' :: s =>
    let name := s.takeWhile Text.isNameChar
    let s := s.dropWhile Text.isNameChar
    match s.dropWhile Text.isBlank with
    | ':' :: t =>
      if Text.isName name then
        (parseToken? t).map fun ((afterColon, token), rest) =>
          (⟨String.ofList name, String.ofList (s.takeWhile Text.isBlank),
            String.ofList afterColon, String.ofList token⟩, rest)
      else none
    | _ => none
  | _ => none

theorem eq_append_of_parseToken? {s afterColon token rest : List Char}
    (h : parseToken? s = some ((afterColon, token), rest)) :
    s = afterColon ++ token ++ '\x7d' :: rest := by
  simp only [parseToken?] at h
  split at h
  · rename_i heq
    simp only [Option.some.injEq, Prod.mk.injEq] at h
    obtain ⟨⟨rfl, rfl⟩, rfl⟩ := h
    rw [List.append_assoc, ← heq, List.takeWhile_append_dropWhile, List.takeWhile_append_dropWhile]
  · simp at h

/-- What `parse?` reads is the placeholder as it is written. -/
theorem eq_append_of_parse? {s rest : List Char} {p : Placeholder}
    (h : parse? s = some (p, rest)) : s = p.text ++ rest := by
  simp only [parse?] at h
  split at h
  · rename_i s
    split at h
    · rename_i t heq
      split at h
      · obtain ⟨⟨⟨afterColon, token⟩, rest'⟩, htoken, hp⟩ := Option.map_eq_some_iff.1 h
        simp only [Prod.mk.injEq] at hp
        obtain ⟨rfl, rfl⟩ := hp
        have ht := eq_append_of_parseToken? htoken
        subst ht
        simp only [text, String.toList_ofList, List.cons_append, List.append_assoc,
          List.nil_append, List.cons.injEq, true_and]
        simp only [List.append_assoc] at heq
        rw [← heq, List.takeWhile_append_dropWhile, List.takeWhile_append_dropWhile]
      · simp at h
    · simp at h
  · simp at h

theorem length_of_parse? {s rest : List Char} {p : Placeholder}
    (h : parse? s = some (p, rest)) : rest.length < s.length := by
  have := congrArg List.length (eq_append_of_parse? h)
  simp only [text, List.length_append, List.length_cons] at this
  omega

end Placeholder

end Phrasebook
