import Phrasebook.Proofs.Accessor.Selection
import Phrasebook.Proofs.NamedCounts
import Phrasebook.Proofs.Script.Rounded

/-!
What the functions of plural forms return where all numbers are doubles. Each count of an object is read as
the nearest integer of 53 bits. The function returns the text of the least count that is read as the number
it is called with, so a count has its own text unless a smaller one is read as the same number; up to `2 ^ 53`
there is none.
-/

namespace Phrasebook

open Script (Expr Stmt Val Piece)

-- Powers are those of core, also where other powers of natural numbers are in scope.
attribute [local instance (high)] instPowNat

/-! ### Scripts with doubles -/

/-- A form has no numbers of its own. -/
theorem Form.rounded_toScript (identifiers : Identifiers) (form : Form) :
    (form.toScript identifiers).rounded = form.toScript identifiers := by
  cases form with
  | literal text => rfl
  | parts parts =>
      have hpieces : Script.piecesRounded (parts.map (Part.toPiece identifiers)) =
          parts.map (Part.toPiece identifiers) := by
        induction parts with
        | nil => rfl
        | cons part parts ih =>
            cases part with
            | literal text => exact congrArg (Piece.static text :: ·) ih
            | arg name => exact congrArg (Piece.dynamic (.ident (identifiers.get name)) :: ·) ih
      rw [Form.toScript, Part.toTemplate, Expr.rounded, hpieces]

namespace Accessor

theorem rounded_conditional (identifiers : Identifiers) (numeral : Number) (s : String) :
    (conditional identifiers numeral s).rounded = conditional identifiers numeral.rounded s := by
  rw [conditional, Stmt.rounded, Script.stmtsRounded, Script.stmtsRounded, Form.toReturn, Stmt.rounded,
    Form.rounded_toScript]
  rfl

/-- With doubles for numbers, the function of plural forms compares with the nearest ones of its counts. -/
theorem rounded_toScript_ofPlural (counts : Counts String) (nth : String) :
    (ofPlural counts nth).toScript.rounded = pluralScript (fun n => (Number.int n).rounded) counts nth := by
  rw [toScript_ofPlural, Expr.rounded, Script.stmtsRounded_eq, List.map_append, List.map_map,
    List.map_singleton, Form.toReturn, Stmt.rounded, Form.rounded_toScript, pluralScript]
  congr 2
  refine List.map_congr_left fun entry _ => ?_
  exact rounded_conditional _ _ entry.2

/-- Whether two counts are strictly equal as doubles. -/
def readsAlike (n k : Nat) : Bool :=
  Val.strictEqual (.number (Number.int n).rounded) (.number (Number.int k).rounded)

theorem readsAlike_iff {n k : Nat} (hn : n < 2 ^ (1023 : Nat)) (hk : k < 2 ^ (1023 : Nat)) :
    readsAlike n k ↔ Binary64.nearest k = Binary64.nearest n := by
  rw [readsAlike, Val.strictEqual, Number.value_rounded hn, Number.value_rounded hk, beq_iff_eq, Nat.cast_inj,
    eq_comm]

theorem readsAlike_self (n : Nat) : readsAlike n n := beq_self_eq_true _

theorem call_rounded_ofPlural (counts : Counts String) (nth : String) {n : Nat} (values : String → Val)
    (hcount : values Arg.count.name = .number (Number.int n).rounded) :
    (ofPlural counts nth).toScript.rounded.call (Arg.values values (ofPlural counts nth).args) =
      .ok (filled values
        (((counts.entries.find? fun entry => readsAlike n entry.1).map (·.2)).getD nth)) := by
  rw [rounded_toScript_ofPlural, call_pluralScript, hcount]
  rfl

/-- The function of plural forms, where all numbers are doubles, returns for a count that the object names the
text of the least one that is read as the same number, with each placeholder replaced by the value of its
name. This is the count itself up to `2 ^ 53`. -/
theorem call_plural_rounded {members : List (String × Json.Value)} {counts : Counts String} {nth : String}
    (hkeys : (members.map (·.1)).Nodup) (hshape : Shape.ofMembers members = .plural counts nth)
    {n : Nat} (hn : n ∈ Shape.namedCounts members) {values : String → Val}
    (hcount : values "count" = .number (Number.int n).rounded) :
    ∃ a m source text, ofJson (.object members) = .ok a ∧
      IsLeast {k | k ∈ Shape.namedCounts members ∧ Binary64.nearest k = Binary64.nearest n} m ∧
      Shape.countValue? members m = some (.string source) ∧
      a.toScript.rounded.call (Arg.values values a.args) = .ok text ∧
      utf8 text = substitute (fun name => (values name).render) source ∧
      (n ≤ 2 ^ (53 : Nat) → m = n) := by
  have hcounts := Shape.counts_eq_namedCounts hkeys hshape
  have hlarge : ∀ k ∈ Shape.namedCounts members, k < 2 ^ (1023 : Nat) := fun k hk =>
    Nat.lt_trans (Shape.lt_of_mem_namedCounts hshape hk) (by decide +kernel)
  have halike : {k | k ∈ counts.entries.map (·.1) ∧ readsAlike n k} =
      {k | k ∈ Shape.namedCounts members ∧ Binary64.nearest k = Binary64.nearest n} := by
    rw [hcounts]
    ext k
    exact and_congr_right fun hk => readsAlike_iff (hlarge n hn) (hlarge k hk)
  -- the count itself has an entry, so some entry is found
  obtain ⟨⟨m, source⟩, hfind⟩ :
      ∃ entry, counts.entries.find? (fun entry => readsAlike n entry.1) = some entry := by
    have hmem := hn
    rw [← hcounts] at hmem
    obtain ⟨entry, hentry, rfl⟩ := List.mem_map.1 hmem
    rw [← Option.isSome_iff_exists, List.find?_isSome]
    exact ⟨entry, hentry, readsAlike_self entry.1⟩
  obtain ⟨hleast, hget⟩ := Counts.isLeast_of_find? hfind
  rw [halike] at hleast
  have hcall := call_rounded_ofPlural counts nth values hcount
  rw [hfind] at hcall
  refine ⟨ofPlural counts nth, m, source, _, ?_, hleast, ?_, ?_, utf8_filled values source, ?_⟩
  · rw [ofJson, hshape]
  · rw [Shape.countValue?_eq_get? hkeys hshape, hget]
    rfl
  · exact hcall
  · intro hsmall
    have hle : m ≤ n := hleast.2 ⟨hn, rfl⟩
    have hnearest := hleast.1.2
    rwa [Binary64.nearest_of_le hsmall, Binary64.nearest_of_le (Nat.le_trans hle hsmall)] at hnearest

/-- The member of a count may come after that of a larger one, and the count itself may stand in its text. -/
theorem call_plural_rounded_limit : ∃ a m source text,
    ofJson (.object [("18446744073709551615", .string "max"), ("n", .string "other"),
      ("9007199254740992", .string "\x7bcount: number\x7d")]) = .ok a ∧
    IsLeast {k | k ∈ Shape.namedCounts [("18446744073709551615", .string "max"), ("n", .string "other"),
      ("9007199254740992", .string "\x7bcount: number\x7d")] ∧
        Binary64.nearest k = Binary64.nearest 9007199254740992} m ∧
    Shape.countValue? [("18446744073709551615", .string "max"), ("n", .string "other"),
      ("9007199254740992", .string "\x7bcount: number\x7d")] m = some (.string source) ∧
    a.toScript.rounded.call
      (Arg.values (fun _ => .number (Number.int (9007199254740992 : Nat)).rounded) a.args) = .ok text ∧
    utf8 text = substitute
      (fun _ => (Val.number (Number.int (9007199254740992 : Nat)).rounded).render) source ∧
    (9007199254740992 ≤ 2 ^ (53 : Nat) → m = 9007199254740992) :=
  call_plural_rounded (by decide) rfl
    (Shape.mem_namedCounts.2 ⟨_, List.mem_of_getElem? (i := 2) rfl, by decide +kernel⟩) rfl

/-- Two counts beyond `2 ^ 53` may be read as one number, and then the text of the larger one is never
returned. -/
theorem call_rounded_collision : ∃ a,
    ofJson (.object [("9007199254740992", .string "a"), ("9007199254740993", .string "b"),
      ("n", .string "c")]) = .ok a ∧
    9007199254740993 ∈ Shape.namedCounts [("9007199254740992", .string "a"),
      ("9007199254740993", .string "b"), ("n", .string "c")] ∧
    Shape.countValue? [("9007199254740992", .string "a"), ("9007199254740993", .string "b"),
      ("n", .string "c")] 9007199254740993 = some (.string "b") ∧
    a.toScript.rounded.call
      (Arg.values (fun _ => .number (Number.int (9007199254740993 : Nat)).rounded) a.args) = .ok "a" ∧
    utf8 "a" ≠ substitute
      (fun _ => (Val.number (Number.int (9007199254740993 : Nat)).rounded).render) "b" := by
  obtain ⟨counts, nth, hok, hentries⟩ : ∃ counts nth,
      ofJson (.object [("9007199254740992", .string "a"), ("9007199254740993", .string "b"),
        ("n", .string "c")]) = .ok (ofPlural counts nth) ∧
      counts.entries = [(9007199254740992, "a"), (9007199254740993, "b")] := ⟨_, _, rfl, rfl⟩
  have hcall := call_rounded_ofPlural counts nth
    (fun _ => .number (Number.int (9007199254740993 : Nat)).rounded) rfl
  have hfirst : readsAlike 9007199254740993 9007199254740992 := by
    rw [readsAlike_iff (by decide +kernel) (by decide +kernel)]
    decide +kernel
  rw [hentries, List.find?_cons_of_pos (by exact hfirst)] at hcall
  refine ⟨_, hok, ?_, ?_, hcall.trans ?_, ?_⟩
  · exact Shape.mem_namedCounts.2 ⟨_, List.mem_of_getElem? (i := 1) rfl, by decide +kernel⟩
  · rfl
  · rw [Option.map_some, Option.getD_some]
    exact congrArg Except.ok (by decide +kernel)
  · decide +kernel

end Accessor

end Phrasebook
