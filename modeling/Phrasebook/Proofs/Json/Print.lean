import Phrasebook.Json.Print
import Phrasebook.Proofs.Json.Nodes
import Phrasebook.Proofs.Number.Text
import Phrasebook.Proofs.Script.ReadsBack

/-!
The JSON text of a value tells the value. Each text says by itself where it ends, so two texts that go on
alike are of one value; this holds of the compact and of the pretty text, which differ in their gaps alone.
-/

namespace Phrasebook.Json

/-! ### Strings -/

theorem element?_stringChar (c : Char) (rest : List Char) :
    Script.Quote.string.element? (stringChar c ++ rest) = some (c, rest) := by
  unfold stringChar
  split_ifs with hquote hslash hback htab hfeed hform hreturn hcontrol
  · subst hquote
    rfl
  · subst hslash
    rfl
  · subst hback
    rfl
  · subst htab
    rfl
  · subst hfeed
    rfl
  · subst hform
    rfl
  · subst hreturn
    rfl
  · exact Script.unicodeEscape?_fourHex (by omega) rest
  · rw [List.cons_append, List.nil_append, Script.Quote.element?, if_neg hslash, Script.Quote.plain?,
      if_neg (not_or.2 ⟨hfeed, hreturn⟩)]

theorem end?_stringChar (c : Char) (rest : List Char) :
    Script.Quote.string.end? (stringChar c ++ rest) = none := by
  unfold stringChar
  split_ifs with hquote
  any_goals rfl
  rw [List.cons_append, Script.Quote.end?, if_neg hquote]

theorem read?_stringText (s : List Char) (rest : List Char) :
    Script.Quote.string.read? (s.flatMap stringChar ++ '"' :: rest) = some ((s, .close), rest) := by
  induction s with
  | nil => exact Script.Quote.read?_end rfl
  | cons c s ih =>
      rw [List.flatMap_cons, List.append_assoc]
      exact Script.Quote.read?_element (end?_stringChar c _) (element?_stringChar c _) ih

/-- A string ends at its closing quote, whatever follows. -/
theorem stringText_inj {s t : String} {rest other : List Char}
    (h : stringText s ++ rest = stringText t ++ other) : s = t ∧ rest = other := by
  simp only [stringText, List.cons_append, List.append_assoc, List.nil_append, List.cons.injEq,
    true_and] at h
  have hread := read?_stringText s.toList rest
  rw [h, read?_stringText] at hread
  obtain ⟨hmark, hrest⟩ := Prod.mk.inj (Option.some.inj hread)
  exact ⟨String.toList_inj.1 (Prod.mk.inj hmark).1.symm, hrest.symm⟩

/-! ### Texts in brackets -/

/-- The closing brackets. -/
def IsClosing (c : Char) : Prop := c = ']' ∨ c = '\x7d'

instance : DecidablePred IsClosing := fun _ => inferInstanceAs (Decidable (_ ∨ _))

/-- A text that does not begin with a closing bracket. -/
def StartsOpen (text : List Char) : Prop := ∃ c tail, text = c :: tail ∧ ¬IsClosing c

/-- How a text is spaced: what stands at the start of a line of each level, and after a colon. -/
structure Spacing where
  gap : Nat → List Char
  afterColon : List Char
  blank : ∀ level, ∀ c ∈ gap level, c = '\n' ∨ c = ' '

/-- Texts in brackets, with commas between them. -/
def bracketed (spacing : Spacing) (level : Nat) (opening closing : Char) : List (List Char) → List Char
  | [] => [opening, closing]
  | first :: rest =>
    opening :: spacing.gap (level + 1) ++ first ++
      rest.flatMap (fun text => ',' :: spacing.gap (level + 1) ++ text) ++ spacing.gap level ++ [closing]

/-- What can follow a value in a text. -/
def FollowsValue (rest : List Char) : Prop :=
  ∀ c ∈ rest.head?, c = ',' ∨ c = '\n' ∨ c = ' ' ∨ IsClosing c

/-- The text of a thing says where it ends: no other thing has a text that can go on to the same text. -/
def TellsEnd {α : Type} (text : α → List Char) (a : α) : Prop :=
  ∀ b rest other, FollowsValue rest → FollowsValue other → text a ++ rest = text b ++ other →
    a = b ∧ rest = other

section Bracketed

variable {α : Type} {text : α → List Char} {spacing : Spacing} {level : Nat}
  {opening closing : Char} {as bs : List α} {rest other : List Char}

theorem followsValue_comma (rest : List Char) : FollowsValue (',' :: rest) := by
  intro c hc
  cases hc
  exact Or.inl rfl

/-- What stands before a closing bracket. -/
theorem head?_gap_append (spacing : Spacing) (level : Nat) (closing : Char) (rest : List Char) :
    ∀ c ∈ (spacing.gap level ++ closing :: rest).head?, c = '\n' ∨ c = ' ' ∨ c = closing := by
  intro c hc
  cases hgap : spacing.gap level with
  | nil =>
      rw [hgap] at hc
      cases hc
      exact Or.inr (Or.inr rfl)
  | cons d gap =>
      rw [hgap] at hc
      obtain rfl : d = c := by simpa using hc
      rcases spacing.blank level d (by rw [hgap]; exact List.mem_cons_self ..) with hd | hd
      · exact Or.inl hd
      · exact Or.inr (Or.inl hd)

theorem followsValue_closing (hclosing : IsClosing closing) (level : Nat) (rest : List Char) :
    FollowsValue (spacing.gap level ++ closing :: rest) := by
  intro c hc
  rcases head?_gap_append spacing level closing rest c hc with h | h | rfl
  · exact Or.inr (Or.inl h)
  · exact Or.inr (Or.inr (Or.inl h))
  · exact Or.inr (Or.inr (Or.inr hclosing))

theorem closing_ne_comma (hclosing : IsClosing closing) (level : Nat) (rest other : List Char) :
    spacing.gap level ++ closing :: rest ≠ ',' :: other := by
  intro h
  have hcomma : ',' ∈ (spacing.gap level ++ closing :: rest).head? := by rw [h, List.head?_cons]; rfl
  rcases head?_gap_append spacing level closing rest ',' hcomma with hhead | hhead | rfl
  · exact absurd hhead (by decide)
  · exact absurd hhead (by decide)
  · exact absurd hclosing (by decide)

/-- The texts after a first one in brackets, with all that follows them. -/
def afterFirst (spacing : Spacing) (level : Nat) (closing : Char) (texts : List (List Char))
    (rest : List Char) : List Char :=
  texts.flatMap (fun text => ',' :: spacing.gap (level + 1) ++ text) ++
    (spacing.gap level ++ closing :: rest)

theorem afterFirst_cons (t : List Char) (texts : List (List Char)) (rest : List Char) :
    afterFirst spacing level closing (t :: texts) rest =
      ',' :: (spacing.gap (level + 1) ++ (t ++ afterFirst spacing level closing texts rest)) := by
  simp [afterFirst]

theorem followsValue_afterFirst (hclosing : IsClosing closing)
    (texts : List (List Char)) (rest : List Char) :
    FollowsValue (afterFirst spacing level closing texts rest) := by
  cases texts with
  | nil => exact followsValue_closing hclosing level rest
  | cons t texts =>
      rw [afterFirst_cons]
      exact followsValue_comma _

theorem afterFirst_inj (hclosing : IsClosing closing) (has : ∀ a ∈ as, TellsEnd text a)
    (h : afterFirst spacing level closing (as.map text) rest =
      afterFirst spacing level closing (bs.map text) other) : as = bs ∧ rest = other := by
  induction as generalizing bs with
  | nil =>
      cases bs with
      | nil => exact ⟨rfl, List.cons.inj (List.append_cancel_left h) |>.2⟩
      | cons b bs =>
          rw [List.map_cons, afterFirst_cons] at h
          exact absurd h (closing_ne_comma hclosing level rest _)
  | cons a as ih =>
      cases bs with
      | nil =>
          rw [List.map_cons, afterFirst_cons] at h
          exact absurd h.symm (closing_ne_comma hclosing level other _)
      | cons b bs =>
          rw [List.map_cons, List.map_cons, afterFirst_cons, afterFirst_cons] at h
          have htexts := List.append_cancel_left (List.cons.inj h).2
          obtain ⟨rfl, htail⟩ := has a (List.mem_cons_self ..) b _ _
            (followsValue_afterFirst hclosing _ rest) (followsValue_afterFirst hclosing _ other) htexts
          obtain ⟨rfl, hrest⟩ := ih (fun a ha => has a (List.mem_cons_of_mem _ ha)) htail
          exact ⟨rfl, hrest⟩

theorem bracketed_nil_append (rest : List Char) :
    bracketed spacing level opening closing [] ++ rest = opening :: closing :: rest := rfl

theorem bracketed_cons_append (t : List Char) (texts : List (List Char)) (rest : List Char) :
    bracketed spacing level opening closing (t :: texts) ++ rest =
      opening :: (spacing.gap (level + 1) ++ (t ++ afterFirst spacing level closing texts rest)) := by
  simp [bracketed, afterFirst]

theorem gap_append_ne_closing (hclosing : IsClosing closing) {t : List Char} (ht : StartsOpen t)
    (level : Nat) (rest other : List Char) : spacing.gap level ++ (t ++ rest) ≠ closing :: other := by
  intro h
  obtain ⟨c, tail, rfl, hopen⟩ := ht
  have hfirst : closing ∈ (spacing.gap level ++ c :: (tail ++ rest)).head? := by
    rw [← List.cons_append, h, List.head?_cons]
    rfl
  rcases head?_gap_append spacing level c (tail ++ rest) closing hfirst with rfl | rfl | rfl
  · exact absurd hclosing (by decide)
  · exact absurd hclosing (by decide)
  · exact hopen hclosing

/-- Things in brackets are told by the text, if each is told by its own text, which no closing bracket
begins. -/
theorem bracketed_inj (hclosing : IsClosing closing) (hstart : ∀ a, StartsOpen (text a))
    (has : ∀ a ∈ as, TellsEnd text a)
    (h : bracketed spacing level opening closing (as.map text) ++ rest =
      bracketed spacing level opening closing (bs.map text) ++ other) : as = bs ∧ rest = other := by
  cases as with
  | nil =>
      cases bs with
      | nil => exact ⟨rfl, (List.cons.inj (List.cons.inj h).2).2⟩
      | cons b bs =>
          rw [List.map_nil, List.map_cons, bracketed_nil_append, bracketed_cons_append] at h
          exact absurd (List.cons.inj h).2.symm (gap_append_ne_closing hclosing (hstart b) _ _ _)
  | cons a as =>
      cases bs with
      | nil =>
          rw [List.map_nil, List.map_cons, bracketed_nil_append, bracketed_cons_append] at h
          exact absurd (List.cons.inj h).2 (gap_append_ne_closing hclosing (hstart a) _ _ _)
      | cons b bs =>
          rw [List.map_cons, List.map_cons, bracketed_cons_append, bracketed_cons_append] at h
          have htexts := List.append_cancel_left (List.cons.inj h).2
          obtain ⟨rfl, htail⟩ := has a (List.mem_cons_self ..) b _ _
            (followsValue_afterFirst hclosing _ rest) (followsValue_afterFirst hclosing _ other) htexts
          obtain ⟨rfl, hrest⟩ := afterFirst_inj hclosing
            (fun a ha => has a (List.mem_cons_of_mem _ ha)) htail
          exact ⟨rfl, hrest⟩

end Bracketed

/-! ### Texts of values -/

/-- The text of a value, spaced in some way, of which the compact and the pretty text are cases. -/
def spacedChars (spacing : Spacing) (level : Nat) : Value → List Char
  | .null => "null".toList
  | .bool b => boolText b
  | .number n => n.text
  | .string s => stringText s
  | .array items =>
    bracketed spacing level '[' ']' (items.map fun item => spacedChars spacing (level + 1) item)
  | .object members =>
    bracketed spacing level '\x7b' '\x7d' (members.map fun member =>
      stringText member.1 ++ ':' :: spacing.afterColon ++ spacedChars spacing (level + 1) member.2)
termination_by v => sizeOf v
decreasing_by
  · rename_i h
    have hsize := List.sizeOf_lt_of_mem h
    simp only [Value.array.sizeOf_spec]
    omega
  · rename_i h
    have hsize := List.sizeOf_lt_of_mem h
    obtain ⟨key, value⟩ := member
    simp only [Prod.mk.sizeOf_spec, Value.object.sizeOf_spec] at hsize ⊢
    omega

/-- The kinds of values. -/
inductive Kind where
  | null
  | bool
  | number
  | string
  | array
  | object
  deriving DecidableEq, Repr

def Value.kind : Value → Kind
  | .null => .null
  | .bool _ => .bool
  | .number _ => .number
  | .string _ => .string
  | .array _ => .array
  | .object _ => .object

/-- The kind of the values whose texts begin with a character. -/
def Kind.ofFirst (c : Char) : Kind :=
  if c = 'n' then .null
  else if c = 't' ∨ c = 'f' then .bool
  else if c = '"' then .string
  else if c = '[' then .array
  else if c = '\x7b' then .object
  else .number

theorem Kind.ofFirst_digit {c : Char} (h : c.isDigit) : Kind.ofFirst c = .number := by
  have hne : ∀ d : Char, ¬d.isDigit → c ≠ d := by
    rintro d hd rfl
    exact hd h
  simp [ofFirst, hne 'n', hne 't', hne 'f', hne '"', hne '[', hne '\x7b']

theorem spacedChars_eq_cons (spacing : Spacing) (level : Nat) (v : Value) :
    ∃ c tail, spacedChars spacing level v = c :: tail ∧ Kind.ofFirst c = v.kind ∧ ¬IsClosing c := by
  cases v with
  | null =>
      rw [spacedChars]
      exact ⟨'n', _, rfl, rfl, by decide⟩
  | bool b =>
      rw [spacedChars]
      cases b with
      | true => exact ⟨'t', _, rfl, rfl, by decide⟩
      | false => exact ⟨'f', _, rfl, rfl, by decide⟩
  | number n =>
      obtain ⟨sign, text, hsign, htext, heq⟩ := Script.numberText_eq n
      rw [spacedChars, heq]
      rcases hsign with rfl | rfl
      · obtain ⟨c, tail, rfl, hc⟩ := Script.head?_isDigit htext
        refine ⟨c, tail, rfl, Kind.ofFirst_digit hc, ?_⟩
        rintro (rfl | rfl)
        · exact absurd hc (by decide)
        · exact absurd hc (by decide)
      · exact ⟨'-', text, rfl, rfl, by decide⟩
  | string s =>
      rw [spacedChars]
      exact ⟨'"', _, rfl, rfl, by decide⟩
  | array items =>
      rw [spacedChars]
      cases items with
      | nil => exact ⟨'[', _, rfl, rfl, by decide⟩
      | cons item items => exact ⟨'[', _, rfl, rfl, by decide⟩
  | object members =>
      rw [spacedChars]
      cases members with
      | nil => exact ⟨'\x7b', _, rfl, rfl, by decide⟩
      | cons member members => exact ⟨'\x7b', _, rfl, rfl, by decide⟩

/-- Values whose texts go on alike are of one kind. -/
theorem kind_eq {spacing : Spacing} {level : Nat} {v w : Value} {rest other : List Char}
    (h : spacedChars spacing level v ++ rest = spacedChars spacing level w ++ other) :
    v.kind = w.kind := by
  obtain ⟨c, tail, hv, hkindv, -⟩ := spacedChars_eq_cons spacing level v
  obtain ⟨d, end_, hw, hkindw, -⟩ := spacedChars_eq_cons spacing level w
  rw [hv, hw] at h
  rw [← hkindv, ← hkindw, (List.cons.inj h).1]

/-! ### Numbers -/

theorem endsNumeral_of_followsValue {rest : List Char} (h : FollowsValue rest) : Script.EndsNumeral rest := by
  intro c hc
  rcases h c hc with rfl | rfl | rfl | rfl | rfl <;> exact ⟨by decide, by decide⟩

/-- A numeral ends where its text ends. -/
theorem numberText_inj {m n : Number} {rest other : List Char} (hrest : FollowsValue rest)
    (hother : FollowsValue other) (h : m.text ++ rest = n.text ++ other) : m = n ∧ rest = other := by
  have hread : ∀ (n : Number) (rest : List Char), FollowsValue rest →
      Script.Reader.number (n.text ++ rest) = some (n.text, rest) := by
    intro n rest hrest
    exact Script.Reader.number_of_skip (endsNumeral_of_followsValue hrest)
      ((Script.starts_numberText n).append rest).skip
  have hsame := hread m rest hrest
  rw [h, hread n other hother] at hsame
  obtain ⟨htext, hrest⟩ := Prod.mk.inj (Option.some.inj hsame)
  exact ⟨Number.text_inj htext.symm, hrest.symm⟩

theorem startsOpen_spacedChars (spacing : Spacing) (level : Nat) (v : Value) :
    StartsOpen (spacedChars spacing level v) := by
  obtain ⟨c, tail, htext, -, hopen⟩ := spacedChars_eq_cons spacing level v
  exact ⟨c, tail, htext, hopen⟩

theorem tellsEnd_member {spacing : Spacing} {level : Nat} {member : String × Value}
    (h : TellsEnd (spacedChars spacing level) member.2) :
    TellsEnd (fun member : String × Value =>
      stringText member.1 ++ ':' :: spacing.afterColon ++ spacedChars spacing level member.2) member := by
  rintro ⟨key, w⟩ rest other hrest hother htext
  simp only [List.append_assoc, List.cons_append] at htext
  obtain ⟨hkey, hvalue⟩ := stringText_inj htext
  obtain ⟨hmember, hsame⟩ := h w rest other hrest hother
    (List.append_cancel_left (List.cons.inj hvalue).2)
  exact ⟨Prod.ext hkey hmember, hsame⟩

/-- The text of a value, spaced in any way, tells the value and says where it ends. -/
theorem tellsEnd_spacedChars (spacing : Spacing) (v : Value) (level : Nat) :
    TellsEnd (spacedChars spacing level) v := by
  induction v using Value.inductOn generalizing level with
  | null =>
      intro w rest other hrest hother h
      have hkind := kind_eq h
      cases w with
      | null => exact ⟨rfl, List.append_cancel_left h⟩
      | _ => cases hkind
  | bool b =>
      intro w rest other hrest hother h
      have hkind := kind_eq h
      cases w with
      | bool c =>
          rw [spacedChars, spacedChars] at h
          cases b <;> cases c
          · exact ⟨rfl, List.append_cancel_left h⟩
          · cases (List.cons.inj h).1
          · cases (List.cons.inj h).1
          · exact ⟨rfl, List.append_cancel_left h⟩
      | _ => cases hkind
  | number n =>
      intro w rest other hrest hother h
      have hkind := kind_eq h
      cases w with
      | number m =>
          rw [spacedChars, spacedChars] at h
          obtain ⟨rfl, hsame⟩ := numberText_inj hrest hother h
          exact ⟨rfl, hsame⟩
      | _ => cases hkind
  | string s =>
      intro w rest other hrest hother h
      have hkind := kind_eq h
      cases w with
      | string t =>
          rw [spacedChars, spacedChars] at h
          obtain ⟨rfl, hsame⟩ := stringText_inj h
          exact ⟨rfl, hsame⟩
      | _ => cases hkind
  | array items ih =>
      intro w rest other hrest hother h
      have hkind := kind_eq h
      cases w with
      | array others =>
          rw [spacedChars, spacedChars] at h
          obtain ⟨rfl, hsame⟩ := bracketed_inj (Or.inl rfl)
            (fun item => startsOpen_spacedChars spacing (level + 1) item)
            (fun item hitem => ih item hitem (level + 1)) h
          exact ⟨rfl, hsame⟩
      | _ => cases hkind
  | object members ih =>
      intro w rest other hrest hother h
      have hkind := kind_eq h
      cases w with
      | object others =>
          rw [spacedChars, spacedChars] at h
          obtain ⟨rfl, hsame⟩ := bracketed_inj (Or.inr rfl)
            (fun member => ⟨'"', _, rfl, by decide⟩)
            (fun member hmember => tellsEnd_member (ih member hmember (level + 1))) h
          exact ⟨rfl, hsame⟩
      | _ => cases hkind

/-! ### The compact and the pretty text -/

/-- No gaps at all. -/
def Spacing.compact : Spacing where
  gap _ := []
  afterColon := []
  blank := by simp

/-- A line for each item or member, and a space after each colon. -/
def Spacing.pretty : Spacing where
  gap := lineStart
  afterColon := [' ']
  blank level c hc := by
    rcases List.mem_cons.1 hc with rfl | hc
    · exact Or.inl rfl
    · exact Or.inr (List.eq_of_mem_replicate hc)

/-- What is written with commas between the items is the first item, and each other one after its comma. -/
theorem commas_eq {α : Type} (writeAll : List α → List Char) (write : α → List Char)
    (hone : ∀ a, writeAll [a] = write a)
    (hmore : ∀ a b rest, writeAll (a :: b :: rest) = write a ++ ',' :: writeAll (b :: rest)) (a : α)
    (rest : List α) : writeAll (a :: rest) = write a ++ rest.flatMap fun b => ',' :: write b := by
  induction rest generalizing a with
  | nil => rw [hone, List.flatMap_nil, List.append_nil]
  | cons b rest ih => rw [hmore, ih b, List.flatMap_cons, List.cons_append]

theorem compactItems_cons (item : Value) (items : List Value) :
    compactItems (item :: items) =
      compactChars item ++ items.flatMap fun item => ',' :: compactChars item :=
  commas_eq compactItems compactChars (by simp [compactItems]) (by simp [compactItems]) item items

theorem compactMembers_cons (member : String × Value) (members : List (String × Value)) :
    compactMembers (member :: members) = stringText member.1 ++ ':' :: compactChars member.2 ++
      members.flatMap fun member => ',' :: (stringText member.1 ++ ':' :: compactChars member.2) :=
  commas_eq compactMembers (fun member => stringText member.1 ++ ':' :: compactChars member.2)
    (by simp [compactMembers]) (by simp [compactMembers]) member members

/-- The compact text as one of the spaced texts. -/
theorem compactChars_eq (v : Value) (level : Nat) : compactChars v = spacedChars .compact level v := by
  induction v using Value.inductOn generalizing level with
  | array items ih =>
      have htexts : items.map (fun item => spacedChars .compact (level + 1) item) =
          items.map compactChars :=
        List.map_congr_left fun item hitem => (ih item hitem (level + 1)).symm
      rw [spacedChars, htexts]
      cases items with
      | nil => rfl
      | cons item items =>
          simp [compactChars, compactItems_cons, bracketed, Spacing.compact, List.flatMap_map]
  | object members ih =>
      have htexts : (members.map fun member => stringText member.1 ++ ':' :: Spacing.compact.afterColon ++
            spacedChars .compact (level + 1) member.2) =
          members.map fun member => stringText member.1 ++ ':' :: compactChars member.2 := by
        refine List.map_congr_left fun member hmember => ?_
        rw [← ih member hmember (level + 1)]
        simp [Spacing.compact]
      rw [spacedChars, htexts]
      cases members with
      | nil => rfl
      | cons member members =>
          simp [compactChars, compactMembers_cons, bracketed, Spacing.compact, List.flatMap_map]
  | _ => rw [spacedChars, compactChars]

theorem prettyItems_cons (level : Nat) (item : Value) (items : List Value) :
    prettyItems level (item :: items) = lineStart level ++ prettyChars level item ++
      items.flatMap fun item => ',' :: (lineStart level ++ prettyChars level item) :=
  commas_eq (prettyItems level) (fun item => lineStart level ++ prettyChars level item)
    (by simp [prettyItems]) (by simp [prettyItems]) item items

theorem prettyMembers_cons (level : Nat) (member : String × Value) (members : List (String × Value)) :
    prettyMembers level (member :: members) =
      lineStart level ++ stringText member.1 ++ ':' :: ' ' :: prettyChars level member.2 ++
      members.flatMap fun member =>
        ',' :: (lineStart level ++ stringText member.1 ++ ':' :: ' ' :: prettyChars level member.2) :=
  commas_eq (prettyMembers level)
    (fun member => lineStart level ++ stringText member.1 ++ ':' :: ' ' :: prettyChars level member.2)
    (by simp [prettyMembers]) (by simp [prettyMembers]) member members

/-- The pretty text as one of the spaced texts. -/
theorem prettyChars_eq (v : Value) (level : Nat) :
    prettyChars level v = spacedChars .pretty level v := by
  induction v using Value.inductOn generalizing level with
  | array items ih =>
      have htexts : items.map (fun item => spacedChars .pretty (level + 1) item) =
          items.map fun item => prettyChars (level + 1) item :=
        List.map_congr_left fun item hitem => (ih item hitem (level + 1)).symm
      rw [spacedChars, htexts]
      cases items with
      | nil => rfl
      | cons item items =>
          simp [prettyChars, prettyItems_cons, bracketed, Spacing.pretty, List.flatMap_map]
  | object members ih =>
      have htexts : (members.map fun member => stringText member.1 ++ ':' :: Spacing.pretty.afterColon ++
            spacedChars .pretty (level + 1) member.2) =
          members.map fun member => stringText member.1 ++ ':' :: ' ' :: prettyChars (level + 1) member.2 := by
        refine List.map_congr_left fun member hmember => ?_
        rw [← ih member hmember (level + 1)]
        simp [Spacing.pretty]
      rw [spacedChars, htexts]
      cases members with
      | nil => rfl
      | cons member members =>
          simp [prettyChars, prettyMembers_cons, bracketed, Spacing.pretty, List.flatMap_map]
  | _ => rw [spacedChars, prettyChars]

theorem followsValue_nil : FollowsValue [] := fun _ h => by cases h

/-- A spaced text is of one value. -/
theorem eq_of_spacedChars_eq {spacing : Spacing} {level : Nat} {v w : Value}
    (h : spacedChars spacing level v = spacedChars spacing level w) : v = w :=
  (tellsEnd_spacedChars spacing v level w [] [] followsValue_nil followsValue_nil
    (by rw [List.append_nil, List.append_nil, h])).1

theorem eq_of_compact_eq {v w : Value} (h : v.compact = w.compact) : v = w := by
  have hchars := String.ofList_inj.1 h
  rw [compactChars_eq v 0, compactChars_eq w 0] at hchars
  exact eq_of_spacedChars_eq hchars

theorem eq_of_pretty_eq {v w : Value} (h : v.pretty = w.pretty) : v = w := by
  have hchars := String.ofList_inj.1 h
  rw [prettyChars_eq, prettyChars_eq] at hchars
  exact eq_of_spacedChars_eq hchars

end Phrasebook.Json
