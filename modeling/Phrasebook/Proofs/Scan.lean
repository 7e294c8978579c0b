import Phrasebook.Proofs.Template

/-!
What a scan finds. It goes over a text once, from left to right, and yet it finds every range of bytes that
is a placeholder: the one opening brace of a placeholder is its first character, so no placeholder begins
inside another one, and no place that is passed by begins one.
-/

namespace Phrasebook

/-! ### Bytes of characters -/

/-- The bytes of a range. -/
def slice (bytes : List UInt8) (start stop : Nat) : List UInt8 := (bytes.take stop).drop start

theorem slice_eq_iff {bytes part : List UInt8} {start stop : Nat} (hpart : part ≠ []) :
    (stop ≤ bytes.length ∧ slice bytes start stop = part) ↔
      ∃ rest, bytes.drop start = part ++ rest ∧ start + part.length = stop := by
  have hpos := List.length_pos_of_ne_nil hpart
  unfold slice
  constructor
  · rintro ⟨hstop, hslice⟩
    have hlength := congrArg List.length hslice
    rw [List.length_drop, List.length_take_of_le hstop] at hlength
    refine ⟨bytes.drop stop, ?_, by omega⟩
    calc bytes.drop start = (bytes.take stop ++ bytes.drop stop).drop start := by
          rw [List.take_append_drop]
      _ = (bytes.take stop).drop start ++ bytes.drop stop :=
          List.drop_append_of_le_length (by rw [List.length_take_of_le hstop]; omega)
      _ = part ++ bytes.drop stop := by rw [hslice]
  · rintro ⟨rest, hrest, rfl⟩
    have hlength := congrArg List.length hrest
    rw [List.length_drop, List.length_append] at hlength
    refine ⟨by omega, ?_⟩
    rw [← List.take_drop, hrest, List.take_left]

theorem encode_cons (c : Char) (s : List Char) : encode (c :: s) = String.utf8EncodeChar c ++ encode s :=
  List.flatMap_cons

theorem byteLength_cons (c : Char) (s : List Char) : byteLength (c :: s) = c.utf8Size + byteLength s := by
  rw [← length_encode, encode_cons, List.length_append, String.length_utf8EncodeChar, length_encode]

/-- No character's bytes begin with those of another one. -/
theorem eq_of_utf8EncodeChar_append_eq {c d : Char} {before after : List UInt8}
    (h : String.utf8EncodeChar c ++ before = String.utf8EncodeChar d ++ after) : c = d := by
  have hc := ByteArray.utf8DecodeChar?_utf8EncodeChar_append (b := before.toByteArray) (c := c)
  have hd := ByteArray.utf8DecodeChar?_utf8EncodeChar_append (b := after.toByteArray) (c := d)
  rw [← List.toByteArray_append, h, List.toByteArray_append, hd] at hc
  exact (Option.some.inj hc).symm

/-- Where the bytes of a text begin with those of some characters, the text begins with these. -/
theorem exists_eq_append_of_encode_eq {s t : List Char} {bytes : List UInt8}
    (h : encode s = encode t ++ bytes) : ∃ rest, s = t ++ rest := by
  induction t generalizing s with
  | nil => exact ⟨s, rfl⟩
  | cons d t ih =>
      cases s with
      | nil =>
          have hlength := congrArg List.length h
          rw [List.length_append, length_encode, length_encode, byteLength_cons] at hlength
          have hpos := d.utf8Size_pos
          simp only [byteLength, List.map_nil, List.sum_nil] at hlength
          omega
      | cons c s =>
          rw [encode_cons, encode_cons, List.append_assoc] at h
          cases eq_of_utf8EncodeChar_append_eq h
          obtain ⟨rest, hrest⟩ := ih (List.append_cancel_left h)
          exact ⟨rest, by rw [hrest, List.cons_append]⟩

/-- The bytes of characters stand in the bytes of a text only where these characters stand in the text:
the first byte of a character is never one of its other bytes. -/
theorem exists_split_of_drop_encode_eq {s t : List Char} {start : Nat} {bytes : List UInt8} (ht : t ≠ [])
    (h : (encode s).drop start = encode t ++ bytes) :
    ∃ before after, s = before ++ t ++ after ∧ byteLength before = start := by
  obtain ⟨d, t, rfl⟩ := List.exists_cons_of_ne_nil ht
  induction s generalizing start with
  | nil =>
      have hlength := congrArg List.length h
      rw [encode_cons] at hlength
      have hpos := d.utf8Size_pos
      simp [encode] at hlength
      omega
  | cons c s ih =>
      by_cases hzero : start = 0
      · subst hzero
        obtain ⟨after, hafter⟩ := exists_eq_append_of_encode_eq h
        exact ⟨[], after, hafter, rfl⟩
      · by_cases hinside : start < c.utf8Size
        · have hstart : start < (String.utf8EncodeChar c).length := by
            rwa [String.length_utf8EncodeChar]
          have hfirst : 0 < (String.utf8EncodeChar d).length := by
            rw [String.length_utf8EncodeChar]
            exact d.utf8Size_pos
          have hbyte := congrArg (fun bytes => bytes[0]?) h
          rw [encode_cons, encode_cons, List.append_assoc, List.getElem?_drop, Nat.add_zero,
            List.getElem?_append_left hstart, List.getElem?_append_left hfirst,
            List.getElem?_eq_getElem hstart, List.getElem?_eq_getElem hfirst] at hbyte
          have hlead := UInt8.isUTF8FirstByte_getElem_zero_utf8EncodeChar (c := d)
          rw [← Option.some.inj hbyte, UInt8.isUTF8FirstByte_getElem_utf8EncodeChar] at hlead
          exact absurd hlead hzero
        · obtain ⟨start, rfl⟩ := Nat.exists_eq_add_of_le (Nat.not_lt.1 hinside)
          rw [encode_cons, ← String.length_utf8EncodeChar, List.drop_length_add_append] at h
          obtain ⟨before, after, rfl, rfl⟩ := ih h
          exact ⟨c :: before, after, rfl, byteLength_cons c before⟩

/-! ### Places of placeholders -/

theorem Placeholder.byteLength_text_pos (p : Placeholder) : 0 < byteLength p.text := by
  show 0 < byteLength ('\x7b' :: _)
  rw [byteLength_cons]
  exact Nat.add_pos_left (Char.utf8Size_pos _) _

namespace Occurrence

/-- A well-formed placeholder stands in a text, the first byte of which has the given offset, at the place
of the occurrence. -/
def StandsIn (o : Occurrence) (offset : Nat) (s : List Char) : Prop :=
  o.placeholder.WellFormed ∧ ∃ before after, s = before ++ o.placeholder.text ++ after ∧
    offset + byteLength before = o.start ∧ offset + byteLength (before ++ o.placeholder.text) = o.stop

variable {o : Occurrence} {offset : Nat}

theorem not_standsIn_nil : ¬o.StandsIn offset [] := by
  rintro ⟨-, before, after, h, -⟩
  have hlength := congrArg List.length h
  simp [Placeholder.text] at hlength

/-- No placeholder begins inside another one: after the first character of a placeholder the next one may
begin at its end. -/
theorem exists_of_text_append_eq {p q : Placeholder} {before after rest : List Char} (hp : p.WellFormed)
    (hbefore : before ≠ []) (h : p.text ++ rest = before ++ (q.text ++ after)) :
    ∃ between, before = p.text ++ between ∧ rest = between ++ (q.text ++ after) := by
  rcases List.append_eq_append_iff.1 h with ⟨between, hbetween, hrest⟩ | ⟨inside, htext, hrest⟩
  · exact ⟨between, hbetween, hrest⟩
  · cases inside with
    | nil =>
        rw [List.append_nil] at htext
        exact ⟨[], by rw [htext, List.append_nil], hrest.symm⟩
    | cons brace inside =>
        obtain ⟨inner, hinner, hnone⟩ := Placeholder.exists_text_eq_cons hp
        obtain ⟨first, before, rfl⟩ := List.exists_cons_of_ne_nil hbefore
        cases (List.cons.inj hrest).1
        rw [hinner, List.cons_append] at htext
        refine absurd ?_ hnone
        rw [(List.cons.inj htext).2]
        simp

/-- Where a text begins with a placeholder, all others stand in what follows it. -/
theorem standsIn_of_parse? {s rest : List Char} {p : Placeholder}
    (h : Placeholder.parse? s = some (p, rest)) : o.StandsIn offset s ↔
      o = ⟨p, offset, offset + byteLength p.text⟩ ∨ o.StandsIn (offset + byteLength p.text) rest := by
  obtain ⟨hp, rfl⟩ := Placeholder.parse?_eq_some_iff.1 h
  constructor
  · rintro ⟨hq, before, after, hs, hstart, hstop⟩
    rw [List.append_assoc] at hs
    by_cases hbefore : before = []
    · subst hbefore
      left
      cases (Placeholder.eq_of_text_append_eq hp hq hs).1
      cases o
      simp only [byteLength, List.map_nil, List.sum_nil, Nat.add_zero, List.nil_append] at hstart hstop
      subst hstart hstop
      rfl
    · right
      obtain ⟨between, rfl, hrest⟩ := exists_of_text_append_eq hp hbefore hs
      refine ⟨hq, between, after, by rw [hrest, List.append_assoc], ?_, ?_⟩
      · rw [← hstart, byteLength_append, Nat.add_assoc]
      · rw [← hstop, List.append_assoc, byteLength_append p.text, Nat.add_assoc]
  · rintro (rfl | ⟨hq, before, after, rfl, hstart, hstop⟩)
    · exact ⟨hp, [], rest, rfl, rfl, rfl⟩
    · refine ⟨hq, p.text ++ before, after, by simp only [List.append_assoc], ?_, ?_⟩
      · rw [byteLength_append, ← Nat.add_assoc]
        exact hstart
      · rw [List.append_assoc, byteLength_append, ← Nat.add_assoc]
        exact hstop

/-- Where a text begins with no placeholder, all of them stand in what follows its first character. -/
theorem standsIn_cons {c : Char} {s : List Char} (h : Placeholder.parse? (c :: s) = none) :
    o.StandsIn offset (c :: s) ↔ o.StandsIn (offset + c.utf8Size) s := by
  constructor
  · rintro ⟨hq, before, after, hs, hstart, hstop⟩
    cases before with
    | nil =>
        rw [hs, List.nil_append, Placeholder.parse?_text_append hq] at h
        cases h
    | cons d before =>
        rw [List.cons_append, List.cons_append] at hs
        cases (List.cons.inj hs).1
        refine ⟨hq, before, after, (List.cons.inj hs).2, ?_, ?_⟩
        · rw [← hstart, byteLength_cons, Nat.add_assoc]
        · rw [← hstop, List.cons_append, byteLength_cons, Nat.add_assoc]
  · rintro ⟨hq, before, after, rfl, hstart, hstop⟩
    refine ⟨hq, c :: before, after, rfl, ?_, ?_⟩
    · rw [← hstart, byteLength_cons, Nat.add_assoc]
    · rw [← hstop, List.cons_append, byteLength_cons, Nat.add_assoc]

end Occurrence

namespace Template

/-- The places that are found are those at which a placeholder stands. -/
theorem mem_occurrencesFrom_parse {s : List Char} {offset : Nat} {o : Occurrence} :
    o ∈ occurrencesFrom (offset + byteLength (parse s).head) (parse s).tail ↔ o.StandsIn offset s := by
  fun_induction parse s generalizing offset with
  | case1 s p rest h =>
      rename_i ih
      rw [Occurrence.standsIn_of_parse? h, occurrencesFrom, List.mem_cons, ← ih]
      rfl
  | case2 => simp [occurrencesFrom, Occurrence.not_standsIn_nil]
  | case3 c rest h =>
      rename_i ih
      rw [Occurrence.standsIn_cons h, ← ih, byteLength_cons, ← Nat.add_assoc]

theorem le_start_of_mem_occurrencesFrom {tail : List (Placeholder × List Char)} {start : Nat}
    {o : Occurrence} (h : o ∈ occurrencesFrom start tail) : start ≤ o.start := by
  induction tail generalizing start with
  | nil => cases h
  | cons first tail ih =>
      rw [occurrencesFrom] at h
      rcases List.mem_cons.1 h with rfl | h
      · exact Nat.le_refl _
      · have := ih h
        omega

/-- Each place ends before the next one starts. -/
theorem pairwise_occurrencesFrom (start : Nat) (tail : List (Placeholder × List Char)) :
    (occurrencesFrom start tail).Pairwise fun o next => o.start < next.start ∧ o.stop ≤ next.start := by
  induction tail generalizing start with
  | nil => exact .nil
  | cons first tail ih =>
      obtain ⟨p, run⟩ := first
      refine .cons (fun next hnext => ?_) (ih _)
      have hpos := p.byteLength_text_pos
      have hle := le_start_of_mem_occurrencesFrom hnext
      dsimp only
      omega

end Template

namespace Occurrence

theorem mem_scan_iff {s : String} {o : Occurrence} : o ∈ scan s ↔ o.StandsIn 0 s.toList := by
  rw [← Template.mem_occurrencesFrom_parse, Nat.zero_add]
  rfl

/-- The bytes of a range are those of a well-formed placeholder exactly when it stands there. -/
theorem standsIn_iff_slice {s : String} {o : Occurrence} : o.StandsIn 0 s.toList ↔
    o.placeholder.WellFormed ∧ o.stop ≤ (utf8 s).length ∧
      slice (utf8 s) o.start o.stop = encode o.placeholder.text := by
  have htext : o.placeholder.text ≠ [] := List.cons_ne_nil _ _
  have hpart : encode o.placeholder.text ≠ [] := by
    apply List.ne_nil_of_length_pos
    rw [length_encode]
    exact o.placeholder.byteLength_text_pos
  unfold StandsIn
  rw [slice_eq_iff hpart, utf8_eq_encode, length_encode]
  refine and_congr_right fun _ => ⟨?_, ?_⟩
  · rintro ⟨before, after, hs, hstart, hstop⟩
    rw [Nat.zero_add] at hstart hstop
    refine ⟨encode after, ?_, ?_⟩
    · rw [hs, ← hstart, List.append_assoc, drop_encode, encode_append]
    · rw [← hstop, ← hstart, byteLength_append]
  · rintro ⟨bytes, hbytes, hstop⟩
    obtain ⟨before, after, hs, hstart⟩ := exists_split_of_drop_encode_eq htext hbytes
    refine ⟨before, after, hs, ?_, ?_⟩
    · rw [Nat.zero_add, hstart]
    · rw [Nat.zero_add, byteLength_append, hstart, hstop]

/-- A scan finds, in their order, just the ranges of bytes that a placeholder fills, and no two of them
meet. They begin and end between characters, and each is found with the one placeholder that is written
there. -/
theorem scan_places (s : String) :
    ((scan s).Pairwise fun o next => o.start < next.start ∧ o.stop ≤ next.start) ∧
    (∀ start stop, (∃ o ∈ scan s, o.start = start ∧ o.stop = stop) ↔ stop ≤ (utf8 s).length ∧
      ∃ p : Placeholder, p.WellFormed ∧ slice (utf8 s) start stop = encode p.text) ∧
    ∀ o ∈ scan s, slice (utf8 s) o.start o.stop = encode o.placeholder.text ∧
      (∃ before after, s.toList = before ++ o.placeholder.text ++ after ∧
        byteLength before = o.start ∧ byteLength (before ++ o.placeholder.text) = o.stop) ∧
      ∀ p : Placeholder, p.WellFormed ∧ p.text = o.placeholder.text ↔ p = o.placeholder := by
  refine ⟨Template.pairwise_occurrencesFrom _ _, fun start stop => ⟨?_, ?_⟩, fun o ho => ?_⟩
  · rintro ⟨o, ho, rfl, rfl⟩
    obtain ⟨hp, hstop, hslice⟩ := standsIn_iff_slice.1 (mem_scan_iff.1 ho)
    exact ⟨hstop, o.placeholder, hp, hslice⟩
  · rintro ⟨hstop, p, hp, hslice⟩
    have hstands : (⟨p, start, stop⟩ : Occurrence).StandsIn 0 s.toList :=
      standsIn_iff_slice.2 ⟨hp, hstop, hslice⟩
    exact ⟨_, mem_scan_iff.2 hstands, rfl, rfl⟩
  · have hstands := mem_scan_iff.1 ho
    obtain ⟨hp, -, hslice⟩ := standsIn_iff_slice.1 hstands
    obtain ⟨-, before, after, hs, hstart, hstop⟩ := hstands
    rw [Nat.zero_add] at hstart hstop
    refine ⟨hslice, ⟨before, after, hs, hstart, hstop⟩, fun q => ⟨?_, ?_⟩⟩
    · rintro ⟨hq, htext⟩
      have heq : q.text ++ [] = o.placeholder.text ++ [] := congrArg (· ++ []) htext
      exact (Placeholder.eq_of_text_append_eq hq hp heq).1
    · rintro rfl
      exact ⟨hp, rfl⟩

end Occurrence

end Phrasebook
