import Mathlib.Data.List.Forall2
import Phrasebook.Accessor.OfJson
import Phrasebook.Accessor.ToScript
import Phrasebook.Proofs.Json.Nodes

/-!
The entries of a resource. The accessor of a list is the list of the accessors of its items, and that of
a plain object the group of the accessors of its members, each under its key: what stands at a place of
the one stands at the same place of the other.
-/

namespace Phrasebook

/-! ### Lists of related things -/

section Related

variable {α β : Type} {R : α → β → Prop}

theorem exists_of_rel_some {a : α} {b? : Option β} (h : Option.Rel R (some a) b?) :
    ∃ b, b? = some b ∧ R a b := by
  cases h with
  | some hab => exact ⟨_, rfl, hab⟩

theorem rel_getElem? {as : List α} {bs : List β} (h : List.Forall₂ R as bs) (i : Nat) :
    Option.Rel R as[i]? bs[i]? := by
  induction h generalizing i with
  | nil => exact .none
  | cons hhead _ ih =>
      cases i with
      | zero => exact .some hhead
      | succ i => exact ih i

/-- What is found on the right stands across from something on the left. -/
theorem exists_getElem?_of_mem {as : List α} {bs : List β} (h : List.Forall₂ R as bs) {b : β}
    (hb : b ∈ bs) : ∃ (i : Nat) (a : α), as[i]? = some a ∧ R a b := by
  obtain ⟨i, hi⟩ := List.mem_iff_getElem?.1 hb
  have hrel := rel_getElem? h i
  rw [hi] at hrel
  cases has : as[i]? with
  | none =>
      rw [has] at hrel
      cases hrel
  | some a =>
      rw [has] at hrel
      cases hrel with
      | some hab => exact ⟨i, a, has, hab⟩

theorem exists_mem_of_forall₂ {as : List α} {bs : List β} (h : List.Forall₂ R as bs) {b : β}
    (hb : b ∈ bs) : ∃ a ∈ as, R a b := by
  obtain ⟨i, a, ha, hab⟩ := exists_getElem?_of_mem h hb
  exact ⟨a, List.mem_of_getElem? ha, hab⟩

/-- Members and entries of the same keys, related one by one, are related when they are looked up. -/
theorem rel_lookup {members : List (String × α)} {entries : List (String × β)}
    (h : List.Forall₂ (fun member entry => member.1 = entry.1 ∧ R member.2 entry.2) members entries)
    (key : String) : Option.Rel R (Json.lookup members key) (Json.lookup entries key) := by
  induction h with
  | nil => exact .none
  | @cons member entry members entries hhead _ ih =>
      obtain ⟨hkey, hvalue⟩ := hhead
      rw [Json.lookup, Json.lookup, List.find?_cons, List.find?_cons, hkey]
      cases entry.1 == key with
      | true => exact .some hvalue
      | false => exact ih

/-- Where each thing on the right is related to a third one, there is a list of these. -/
theorem exists_forall₂ {γ : Type} {S : β → γ → Prop} {as : List α} {bs : List β}
    (h : List.Forall₂ R as bs) (hnext : ∀ a ∈ as, ∀ b, R a b → ∃ c, S b c) :
    ∃ cs, List.Forall₂ (fun a c => ∃ b, R a b ∧ S b c) as cs ∧ List.Forall₂ S bs cs := by
  induction h with
  | nil => exact ⟨[], .nil, .nil⟩
  | @cons a b as bs hhead _ ih =>
      obtain ⟨c, hc⟩ := hnext a (List.mem_cons_self ..) b hhead
      obtain ⟨cs, has, hbs⟩ := ih fun other hother => hnext other (List.mem_cons_of_mem _ hother)
      exact ⟨c :: cs, .cons ⟨b, hhead, hc⟩ has, .cons hc hbs⟩

end Related

namespace Accessor

/-! ### Lists and groups -/

section Rest

variable {place : Nat} {key : String} {value : Json.Value}

theorem ofItems_cons {items : List Json.Value} {accessors : List Accessor}
    (h : ofItems place (value :: items) = .ok accessors) : ∃ head tail,
      ofJson value = .ok head ∧ ofItems (place + 1) items = .ok tail ∧ accessors = head :: tail := by
  rw [ofItems] at h
  cases hhead : ofJson value with
  | error e =>
      rw [hhead] at h
      cases h
  | ok head =>
      rw [hhead] at h
      cases htail : ofItems (place + 1) items with
      | error e =>
          simp only [htail] at h
          cases h
      | ok tail =>
          simp only [htail] at h
          cases h
          exact ⟨head, tail, rfl, rfl, rfl⟩

theorem ofEntries_cons {members : List (String × Json.Value)} {entries : List (String × Accessor)}
    (h : ofEntries ((key, value) :: members) = .ok entries) : ∃ head tail,
      ofJson value = .ok head ∧ ofEntries members = .ok tail ∧ entries = (key, head) :: tail := by
  rw [ofEntries] at h
  cases hhead : ofJson value with
  | error e =>
      rw [hhead] at h
      cases h
  | ok head =>
      rw [hhead] at h
      cases htail : ofEntries members with
      | error e =>
          simp only [htail] at h
          cases h
      | ok tail =>
          simp only [htail] at h
          cases h
          exact ⟨head, tail, rfl, rfl, rfl⟩

end Rest

theorem forall₂_ofItems {items : List Json.Value} {place : Nat} {accessors : List Accessor}
    (h : ofItems place items = .ok accessors) :
    List.Forall₂ (fun item accessor => ofJson item = .ok accessor) items accessors := by
  induction items generalizing place accessors with
  | nil =>
      cases h
      exact .nil
  | cons item items ih =>
      obtain ⟨head, tail, hhead, htail, rfl⟩ := ofItems_cons h
      exact .cons hhead (ih htail)

theorem forall₂_ofEntries {members : List (String × Json.Value)} {entries : List (String × Accessor)}
    (h : ofEntries members = .ok entries) :
    List.Forall₂ (fun member entry => member.1 = entry.1 ∧ ofJson member.2 = .ok entry.2)
      members entries := by
  induction members generalizing entries with
  | nil =>
      cases h
      exact .nil
  | cons member members ih =>
      obtain ⟨key, value⟩ := member
      obtain ⟨head, tail, hhead, htail, rfl⟩ := ofEntries_cons h
      exact .cons ⟨rfl, hhead⟩ (ih htail)

/-- The accessor of a list holds an accessor for each item, in its place. -/
theorem ofJson_array {items : List Json.Value} {a : Accessor} (h : ofJson (.array items) = .ok a) :
    ∃ accessors, a = .list accessors ∧
      List.Forall₂ (fun item accessor => ofJson item = .ok accessor) items accessors := by
  rw [ofJson] at h
  cases hitems : ofItems 0 items with
  | error e =>
      rw [hitems] at h
      cases h
  | ok accessors =>
      rw [hitems] at h
      cases h
      exact ⟨accessors, rfl, forall₂_ofItems hitems⟩

/-- The accessor of a plain object holds an accessor for each member, under its key. -/
theorem ofJson_plain {members : List (String × Json.Value)} {a : Accessor}
    (hplain : Shape.ofMembers members = .plain) (h : ofJson (.object members) = .ok a) :
    ∃ entries, a = .group entries ∧
      List.Forall₂ (fun member entry => member.1 = entry.1 ∧ ofJson member.2 = .ok entry.2)
        members entries := by
  rw [ofJson, hplain] at h
  cases hentries : ofEntries members with
  | error e =>
      simp only [hentries] at h
      cases h
  | ok entries =>
      simp only [hentries] at h
      cases h
      exact ⟨entries, rfl, forall₂_ofEntries hentries⟩

/-- What holds of the accessors of texts and forms, and goes from the accessors of items and members to
those of lists and plain objects, holds of the accessors of all values. -/
@[elab_as_elim]
theorem ofJson_induction {motive : ∀ (v : Json.Value) (a : Accessor), ofJson v = .ok a → Prop}
    {v : Json.Value} {a : Accessor} (h : ofJson v = .ok a)
    (bool : ∀ b, motive (.bool b) (.constant (.bool b)) rfl)
    (number : ∀ n, motive (.number n) (.constant (.number n)) rfl)
    (string : ∀ s, motive (.string s) (ofText s) rfl)
    (array : ∀ (items : List Json.Value) (accessors : List Accessor)
      (h : ofJson (.array items) = .ok (.list accessors)),
      List.Forall₂ (fun item accessor => ofJson item = .ok accessor) items accessors →
      (∀ item ∈ items, ∀ (accessor : Accessor) (hok : ofJson item = .ok accessor),
        motive item accessor hok) → motive _ _ h)
    (plural : ∀ (members : List (String × Json.Value)) (counts : Counts String) (nth : String)
      (h : ofJson (.object members) = .ok (ofPlural counts nth)),
      Shape.ofMembers members = .plural counts nth → motive _ _ h)
    (choice : ∀ (members : List (String × Json.Value)) (whenTrue whenFalse : String)
      (h : ofJson (.object members) = .ok (ofChoice whenTrue whenFalse)),
      Shape.ofMembers members = .choice whenTrue whenFalse → motive _ _ h)
    (plain : ∀ (members : List (String × Json.Value)) (entries : List (String × Accessor))
      (h : ofJson (.object members) = .ok (.group entries)), Shape.ofMembers members = .plain →
      List.Forall₂ (fun member entry => member.1 = entry.1 ∧ ofJson member.2 = .ok entry.2)
        members entries →
      (∀ member ∈ members, ∀ (accessor : Accessor) (hok : ofJson member.2 = .ok accessor),
        motive member.2 accessor hok) → motive _ _ h) : motive v a h := by
  induction v using Json.Value.inductOn generalizing a with
  | null => cases h
  | bool b =>
      cases h
      exact bool b
  | number n =>
      cases h
      exact number n
  | string s =>
      cases h
      exact string s
  | array items ih =>
      obtain ⟨accessors, rfl, hitems⟩ := ofJson_array h
      exact array items accessors h hitems fun item hitem accessor hok => ih item hitem hok
  | object members ih =>
      cases hshape : Shape.ofMembers members with
      | plural counts nth =>
          have hplural := h
          rw [ofJson, hshape] at hplural
          cases hplural
          exact plural members counts nth h hshape
      | choice whenTrue whenFalse =>
          have hchoice := h
          rw [ofJson, hshape] at hchoice
          cases hchoice
          exact choice members whenTrue whenFalse h hshape
      | plain =>
          obtain ⟨entries, rfl, hentries⟩ := ofJson_plain hshape h
          exact plain members entries h hshape hentries fun member hmember accessor hok =>
            ih member hmember hok

/-! ### Their scripts -/

theorem itemsToScript_eq (items : List Accessor) : itemsToScript items = items.map toScript := by
  induction items with
  | nil => rfl
  | cons item items ih => rw [itemsToScript, List.map_cons, ih]

theorem entriesToScript_eq (entries : List (String × Accessor)) :
    entriesToScript entries = entries.map fun entry => (entry.1, entry.2.toScript) := by
  induction entries with
  | nil => rfl
  | cons entry entries ih => rw [entriesToScript, List.map_cons, ih]

end Accessor

end Phrasebook
