import Mathlib.Data.List.Basic
import Phrasebook.Proofs.Placeholder
import Phrasebook.Template

/-!
What the placeholders of a text are replaced with. `substitute` works on bytes: it copies what lies
between the places that a scan gives and puts a value in each of them. `substitute_eq` says that this
is what a template gives when each placeholder is replaced and each run is kept, so no byte is lost
and none is moved.
-/

namespace Phrasebook

/-! ### Names of placeholders -/

namespace Template

theorem isName_of_mem_placeholders {s : List Char} {p : Placeholder}
    (h : p ∈ (parse s).placeholders) : Text.isName p.name.toList := by
  fun_induction parse s with
  | case1 s first rest hfirst _ t ih =>
      rcases List.mem_cons.1 h with rfl | h
      · exact (Placeholder.wellFormed_of_parse? hfirst).name
      · exact ih h
  | case2 => cases h
  | case3 c rest _ t ih => exact ih h

/-- The text with each placeholder replaced by the value of its name. -/
def fill (value : String → List Char) (t : Template) : List Char :=
  t.head ++ t.tail.flatMap fun (p, run) => value p.name ++ run

theorem fill_of_isEmpty {value : String → List Char} {t : Template} (h : t.tail.isEmpty) :
    t.fill value = t.text := by
  rw [fill, text, List.isEmpty_iff.1 h]
  rfl

end Template

theorem Template.placeholders_occurrencesFrom (start : Nat) (tail : List (Placeholder × List Char)) :
    (occurrencesFrom start tail).map (·.placeholder) = tail.map (·.1) := by
  induction tail generalizing start with
  | nil => rfl
  | cons head tail ih =>
      rw [occurrencesFrom, List.map_cons, List.map_cons, ih]

/-- A scan finds the placeholders of the template, in their order. -/
theorem Occurrence.placeholders_scan (s : String) :
    (scan s).map (·.placeholder) = (Template.parse s.toList).placeholders :=
  Template.placeholders_occurrencesFrom _ _

/-- A scan finds nothing in a text that is one run. -/
theorem Occurrence.scan_eq_nil_iff {s : String} : scan s = [] ↔ (Template.parse s.toList).tail = [] := by
  rw [← List.map_eq_nil_iff (f := (·.placeholder)), placeholders_scan]
  exact List.map_eq_nil_iff

/-! ### Bytes -/

/-- The bytes of a text in UTF-8. -/
def utf8 (s : String) : List UInt8 := s.toUTF8.data.toList

def encode (s : List Char) : List UInt8 := s.flatMap String.utf8EncodeChar

theorem utf8_eq_encode (s : String) : utf8 s = encode s.toList := by
  rw [utf8, encode, String.toUTF8_eq_toByteArray, ← String.utf8Encode_toList, List.utf8Encode]
  simp

theorem encode_append (s t : List Char) : encode (s ++ t) = encode s ++ encode t :=
  List.flatMap_append

theorem length_encode (s : List Char) : (encode s).length = byteLength s := by
  rw [encode, List.length_flatMap, byteLength]
  simp only [String.length_utf8EncodeChar]

/-- Bytes with the given places replaced: what lies before a place, from where the last one ended,
is kept, and so is what lies after all of them. -/
def splice (value : String → String) (bytes : List UInt8) (start : Nat) : List Occurrence → List UInt8
  | [] => bytes.drop start
  | o :: rest => (bytes.take o.start).drop start ++ utf8 (value o.placeholder.name) ++
      splice value bytes o.stop rest

/-- The bytes of a text with each placeholder replaced by the value of its name. -/
def substitute (value : String → String) (s : String) : List UInt8 :=
  splice value (utf8 s) 0 (Occurrence.scan s)

theorem byteLength_append (s t : List Char) : byteLength (s ++ t) = byteLength s + byteLength t := by
  rw [byteLength, List.map_append, List.sum_append_nat]
  rfl

theorem drop_encode (before after : List Char) :
    (encode (before ++ after)).drop (byteLength before) = encode after := by
  rw [encode_append, ← length_encode, List.drop_left]

theorem take_encode (before after : List Char) :
    (encode (before ++ after)).take (byteLength before) = encode before := by
  rw [encode_append, ← length_encode, List.take_left]

namespace Template

/-- From the end of one place on, where a run begins, the places that are left are replaced and the
runs between them are kept. -/
theorem splice_occurrencesFrom (value : String → String) (tail : List (Placeholder × List Char))
    (before run : List Char) :
    splice value (encode (before ++ run ++ tail.flatMap fun (p, run) => p.text ++ run))
        (byteLength before) (occurrencesFrom (byteLength (before ++ run)) tail) =
      encode (run ++ tail.flatMap fun (p, run) => (value p.name).toList ++ run) := by
  induction tail generalizing before run with
  | nil =>
      rw [occurrencesFrom, splice, List.flatMap_nil, List.flatMap_nil, List.append_nil,
        List.append_nil, drop_encode]
  | cons head tail ih =>
      obtain ⟨p, next⟩ := head
      -- the next run begins where the placeholder ends
      have hstop : byteLength (before ++ run) + byteLength p.text =
          byteLength (before ++ run ++ p.text) := (byteLength_append _ _).symm
      have htext : before ++ run ++ (p.text ++ next ++ tail.flatMap fun (p, run) => p.text ++ run) =
          before ++ run ++ p.text ++ next ++ tail.flatMap fun (p, run) => p.text ++ run := by
        simp only [List.append_assoc]
      rw [occurrencesFrom, splice, List.flatMap_cons, List.flatMap_cons]
      dsimp only
      rw [take_encode, drop_encode, utf8_eq_encode, htext, hstop, ← byteLength_append, ih,
        encode_append run, List.append_assoc (value p.name).toList, encode_append (value p.name).toList,
        List.append_assoc]

end Template

/-- The bytes of a text with its placeholders replaced are those of its template, filled. -/
theorem substitute_eq (value : String → String) (s : String) :
    substitute value s = encode ((Template.parse s.toList).fill fun name => (value name).toList) := by
  have htext := Template.text_parse s.toList
  have hsplice := Template.splice_occurrencesFrom value (Template.parse s.toList).tail []
    (Template.parse s.toList).head
  rw [substitute, utf8_eq_encode, Occurrence.scan, Template.occurrences, Template.fill]
  rw [Template.text] at htext
  rw [List.nil_append, htext] at hsplice
  exact hsplice

end Phrasebook
