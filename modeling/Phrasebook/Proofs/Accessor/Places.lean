import Phrasebook.Proofs.Accessor.Entries
import Phrasebook.Proofs.Json.Nodes

/-!
Places. A path leads through the lists and the plain objects of a resource, and the same path leads through
the arrays and the objects of its script. An object of forms is taken whole, so no path leads further from
one, and none leads into a function. What stands at a place of the script was written for the value at
that place of the resource, as if the value were a resource of its own.
-/

namespace Phrasebook

open Script (Expr)

/-! ### Things that are there or missing together -/

section Together

variable {α β γ δ : Type} {R : α → β → Prop} {a? : Option α} {b? c? : Option β}

theorem rel_bind {S : γ → δ → Prop} {f : α → Option γ} {g : β → Option δ} (h : Option.Rel R a? b?)
    (hnext : ∀ a b, R a b → Option.Rel S (f a) (g b)) : Option.Rel S (a?.bind f) (b?.bind g) := by
  cases h with
  | none => exact .none
  | some hab => exact hnext _ _ hab

theorem rel_imp {S : α → β → Prop} (h : Option.Rel R a? b?) (himp : ∀ a b, a? = some a → R a b → S a b) :
    Option.Rel S a? b? := by
  cases h with
  | none => exact .none
  | some hab => exact .some (himp _ _ rfl hab)

theorem eq_none_of_rel_none (h : Option.Rel R none b?) : b? = none := by
  cases h with
  | none => rfl

/-- Where one thing is related to one other thing at most, it determines what is there beside it. -/
theorem rel_unique (hunique : ∀ a b c, R a b → R a c → b = c) (hb : Option.Rel R a? b?)
    (hc : Option.Rel R a? c?) : b? = c? := by
  cases hb with
  | none => rw [eq_none_of_rel_none hc]
  | some hab =>
      cases hc with
      | some hac => rw [hunique _ _ _ hab hac]

end Together

/-! ### Steps -/

namespace Json.Value

/-- The value that one step leads to from a list or a plain object. -/
def enter? : Value → Step → Option Value
  | .array items, .index place => items[place]?
  | .object members, .key name =>
    match Shape.ofMembers members with
    | .plain => lookup members name
    | _ => none
  | _, _ => none

/-- The value that a path leads to, through lists and plain objects alone. -/
def reach? (v : Value) (path : Path) : Option Value := path.foldlM enter? v

theorem enter?_plain {members : List (String × Value)} (hplain : Shape.ofMembers members = .plain)
    (name : String) : (object members).enter? (.key name) = lookup members name := by
  rw [enter?, hplain]

theorem enter?_forms {members : List (String × Value)} (hforms : Shape.ofMembers members ≠ .plain)
    (step : Step) : (object members).enter? step = none := by
  cases step with
  | index place => rfl
  | key name =>
      rw [enter?]
      cases hshape : Shape.ofMembers members with
      | plain => exact absurd hshape hforms
      | plural counts nth => rfl
      | choice whenTrue whenFalse => rfl

theorem DistinctKeys.of_enter? {v w : Value} {step : Step} (hkeys : v.DistinctKeys)
    (h : v.enter? step = some w) : w.DistinctKeys := by
  cases hkeys with
  | array hitems =>
      cases step with
      | key name => cases h
      | index place => exact hitems w (List.mem_of_getElem? h)
  | @object members _ hmembers =>
      by_cases hplain : Shape.ofMembers members = .plain
      · cases step with
        | index place => cases h
        | key name =>
            rw [enter?_plain hplain] at h
            exact hmembers _ (mem_of_lookup h)
      · rw [enter?_forms hplain] at h
        cases h
  | _ => cases h

theorem DistinctKeys.of_reach? {v w : Value} {path : Path} (hkeys : v.DistinctKeys)
    (h : v.reach? path = some w) : w.DistinctKeys := by
  induction path generalizing v with
  | nil =>
      cases h
      exact hkeys
  | cons step path ih =>
      obtain ⟨u, hstep, hrest⟩ := Option.bind_eq_some_iff.1 h
      exact ih (hkeys.of_enter? hstep) hrest

end Json.Value

namespace Script.Expr

/-- The expression that one step leads to from an array or an object. -/
def step? : Expr → Step → Option Expr
  | .array items, .index place => items[place]?
  | .object members, .key name => Json.lookup members name
  | _, _ => none

/-- The expression that a path leads to. -/
def at? (e : Expr) (path : Path) : Option Expr := path.foldlM step? e

end Script.Expr

namespace Accessor

open Json (Value)

/-- The expression that is written for a value. -/
def scriptOf (v : Value) : Except Unsupported Expr := (ofJson v).map toScript

theorem scriptOf_eq_ok {v : Value} {e : Expr} :
    scriptOf v = .ok e ↔ ∃ a, ofJson v = .ok a ∧ a.toScript = e := by
  rw [scriptOf]
  cases ofJson v with
  | error cause => simp [Except.map]
  | ok a => simp [Except.map]

/-! ### What is written for lists and objects -/

/-- A list is written as an array, item by item. -/
theorem scriptOf_array {items : List Value} {e : Expr} (h : scriptOf (.array items) = .ok e) :
    ∃ expressions, e = .array expressions ∧
      List.Forall₂ (fun item expression => scriptOf item = .ok expression) items expressions := by
  obtain ⟨a, ha, rfl⟩ := scriptOf_eq_ok.1 h
  obtain ⟨accessors, rfl, hitems⟩ := ofJson_array ha
  refine ⟨accessors.map toScript, ?_, ?_⟩
  · rw [toScript, itemsToScript_eq]
  · rw [List.forall₂_map_right_iff]
    exact hitems.imp fun item a ha => scriptOf_eq_ok.2 ⟨a, ha, rfl⟩

/-- A plain object is written as an object, member by member. -/
theorem scriptOf_plain {members : List (String × Value)} {e : Expr}
    (hplain : Shape.ofMembers members = .plain) (h : scriptOf (.object members) = .ok e) :
    ∃ properties, e = .object properties ∧
      List.Forall₂ (fun member property => member.1 = property.1 ∧ scriptOf member.2 = .ok property.2)
        members properties := by
  obtain ⟨a, ha, rfl⟩ := scriptOf_eq_ok.1 h
  obtain ⟨entries, rfl, hentries⟩ := ofJson_plain hplain ha
  refine ⟨entries.map fun entry => (entry.1, entry.2.toScript), ?_, ?_⟩
  · rw [toScript, entriesToScript_eq]
  · rw [List.forall₂_map_right_iff]
    exact hentries.imp fun member entry hentry =>
      ⟨hentry.1, scriptOf_eq_ok.2 ⟨entry.2, hentry.2, rfl⟩⟩

/-- No step leads further from what is written for an object of forms. -/
theorem step?_forms {members : List (String × Value)} {e : Expr}
    (hforms : Shape.ofMembers members ≠ .plain) (h : scriptOf (.object members) = .ok e) (step : Step) :
    e.step? step = none := by
  obtain ⟨a, ha, rfl⟩ := scriptOf_eq_ok.1 h
  rw [ofJson] at ha
  cases hshape : Shape.ofMembers members with
  | plain => exact absurd hshape hforms
  | plural counts nth =>
      rw [hshape] at ha
      cases ha
      rfl
  | choice whenTrue whenFalse =>
      rw [hshape] at ha
      cases ha
      rfl

theorem step?_text (s : String) (step : Step) : (ofText s).toScript.step? step = none := by
  rw [ofText]
  split_ifs
  · rfl
  · rfl

/-! ### Places -/

/-- What is written for a value, with the keys of a plain object and the length of a list as they are in
the resource. Numbers stay what they are, and a boolean becomes the text of its name. -/
structure WrittenFor (w : Value) (e : Expr) : Prop where
  script : scriptOf w = .ok e
  length : ∀ items, w = .array items →
    ∃ expressions, e = .array expressions ∧ expressions.length = items.length
  keys : ∀ members, w = .object members → Shape.ofMembers members = .plain →
    ∃ properties, e = .object properties ∧ properties.map (·.1) = members.map (·.1) ∧
      (properties.map (·.1)).Nodup
  number : ∀ n, w = .number n → e = .literal (.number n)
  bool : ∀ b, w = .bool b → e = .literal (.string (if b then "true" else "false"))

theorem writtenFor_of_scriptOf {w : Value} {e : Expr} (hkeys : w.DistinctKeys)
    (h : scriptOf w = .ok e) : WrittenFor w e where
  script := h
  length := by
    rintro items rfl
    obtain ⟨expressions, rfl, hitems⟩ := scriptOf_array h
    exact ⟨expressions, rfl, hitems.length_eq.symm⟩
  keys := by
    rintro members rfl hplain
    obtain ⟨properties, rfl, hproperties⟩ := scriptOf_plain hplain h
    have hnames : properties.map (·.1) = members.map (·.1) := by
      rw [← List.forall₂_eq_eq_eq, List.forall₂_map_left_iff, List.forall₂_map_right_iff]
      exact hproperties.flip.imp fun property member hproperty => hproperty.1.symm
    refine ⟨properties, rfl, hnames, ?_⟩
    rw [hnames]
    cases hkeys with
    | object hnodup _ => exact hnodup
  number := by
    rintro n rfl
    cases h
    rfl
  bool := by
    rintro b rfl
    cases h
    rfl

/-- A step leads on in a resource exactly when it leads on in the script, and then to what is written for
the value to which it leads. -/
theorem rel_step {v : Value} {e : Expr} (h : scriptOf v = .ok e) (step : Step) :
    Option.Rel (fun w d => scriptOf w = .ok d) (v.enter? step) (e.step? step) := by
  cases v with
  | array items =>
      obtain ⟨expressions, rfl, hitems⟩ := scriptOf_array h
      cases step with
      | key name => exact .none
      | index place => exact rel_getElem? hitems place
  | object members =>
      by_cases hplain : Shape.ofMembers members = .plain
      · obtain ⟨properties, rfl, hproperties⟩ := scriptOf_plain hplain h
        cases step with
        | index place => exact .none
        | key name =>
            rw [Value.enter?_plain hplain]
            exact rel_lookup (R := fun w d => scriptOf w = .ok d) hproperties name
      · rw [Value.enter?_forms hplain, step?_forms hplain h]
        exact .none
  | null => cases h
  | string s =>
      cases h
      rw [step?_text]
      exact .none
  | number n =>
      cases h
      exact .none
  | bool b =>
      cases h
      exact .none

theorem rel_path {v : Value} {e : Expr} (h : scriptOf v = .ok e) (path : Path) :
    Option.Rel (fun w d => scriptOf w = .ok d) (v.reach? path) (e.at? path) := by
  induction path generalizing v e with
  | nil => exact .some h
  | cons step path ih => exact rel_bind (rel_step h step) fun w d hwd => ih hwd

/-- A path leads through the lists and plain objects of a resource exactly when it leads through the arrays
and objects of its script, and what it leads to there was written for the value to which it leads here.
Nothing else counts: where the same value stands in any resource, the same expression stands in the
script. -/
theorem written_at {v : Value} {a : Accessor} (hkeys : v.DistinctKeys) (h : ofJson v = .ok a)
    (path : Path) :
    Option.Rel WrittenFor (v.reach? path) (a.toScript.at? path) ∧
      ∀ other b otherPath, ofJson other = .ok b → other.reach? otherPath = v.reach? path →
        b.toScript.at? otherPath = a.toScript.at? path := by
  have hrel := rel_path (scriptOf_eq_ok.2 ⟨a, h, rfl⟩) path
  refine ⟨rel_imp hrel fun w e hw hscript => ?_, fun other b otherPath hb heq => ?_⟩
  · exact writtenFor_of_scriptOf (hkeys.of_reach? hw) hscript
  · have hother := rel_path (scriptOf_eq_ok.2 ⟨b, hb, rfl⟩) otherPath
    rw [heq] at hother
    exact rel_unique (fun w d e hd he => Except.ok.inj (hd.symm.trans he)) hother hrel

/-- Members keep their order, a path ends at an object of forms, and the script of a value in a list is
that of the value alone. -/
theorem written_at_list : ∃ a e properties,
    ofJson (.object [("z", .array [.bool true, .object [("n", .string "x")]]),
      ("a", .number (.int 5))]) = .ok a ∧
    a.toScript = .object properties ∧ properties.map (·.1) = ["z", "a"] ∧
    a.toScript.at? [.key "z", .index 0] = some (.literal (.string "true")) ∧
    a.toScript.at? [.key "z", .index 1] = some e ∧ scriptOf (.object [("n", .string "x")]) = .ok e ∧
    a.toScript.at? [.key "z", .index 1, .key "n"] = none := by
  have hkeys : Value.DistinctKeys (.object [("z", .array [.bool true, .object [("n", .string "x")]]),
      ("a", .number (.int 5))]) := by
    refine .object (by decide) fun member hmember => ?_
    rcases List.mem_pair.1 hmember with rfl | rfl
    · refine .array fun item hitem => ?_
      rcases List.mem_pair.1 hitem with rfl | rfl
      · exact .bool true
      · refine .object (by decide) fun form hform => ?_
        rw [List.mem_singleton.1 hform]
        exact .string "x"
    · exact .number (.int 5)
  obtain ⟨a, ha⟩ : ∃ a, ofJson (.object [("z", .array [.bool true, .object [("n", .string "x")]]),
      ("a", .number (.int 5))]) = .ok a := ⟨_, rfl⟩
  have hwhole := (written_at hkeys ha []).1
  have hflag := (written_at hkeys ha [.key "z", .index 0]).1
  have hforms := (written_at hkeys ha [.key "z", .index 1]).1
  have hinside : Option.Rel WrittenFor none (a.toScript.at? [.key "z", .index 1, .key "n"]) :=
    (written_at hkeys ha [.key "z", .index 1, .key "n"]).1
  obtain ⟨e, he, hwritten⟩ := exists_of_rel_some hwhole
  obtain ⟨properties, hproperties, hnames, -⟩ := hwritten.keys _ rfl rfl
  obtain ⟨flag, hat, hflag⟩ := exists_of_rel_some hflag
  obtain ⟨forms, hatForms, hforms⟩ := exists_of_rel_some hforms
  refine ⟨a, forms, properties, ha, ?_, hnames, ?_, hatForms, hforms.script, ?_⟩
  · rw [← hproperties]
    exact Option.some.inj he
  · rw [hat, hflag.bool true rfl]
    rfl
  · exact eq_none_of_rel_none hinside

end Accessor

end Phrasebook
