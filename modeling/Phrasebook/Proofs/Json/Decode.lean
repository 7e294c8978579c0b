import Mathlib.Data.List.Nodup
import Phrasebook.Json.Decode

/-!
The keys of decoded objects. A key that is repeated in the text is kept once, so in a decoded value no
object has two members of one key, however deep it stands. What a decoder yields is followed through
its steps: a list holds only what the decoder of its items yields.
-/

namespace Phrasebook.Json

/-- No object in the value has two members of one key. -/
inductive Value.DistinctKeys : Value → Prop
  | null : DistinctKeys .null
  | bool (b : Bool) : DistinctKeys (.bool b)
  | number (n : Number) : DistinctKeys (.number n)
  | string (s : String) : DistinctKeys (.string s)
  | array {items : List Value} (hitems : ∀ item ∈ items, DistinctKeys item) :
      DistinctKeys (.array items)
  | object {members : List (String × Value)} (hkeys : (members.map (·.1)).Nodup)
      (hmembers : ∀ member ∈ members, DistinctKeys member.2) : DistinctKeys (.object members)

/-! ### Members -/

section Members

variable {α : Type} {P : α → Prop} {key : String} {value : α}

theorem nodup_keys_insert {members : List (String × α)} (h : (members.map (·.1)).Nodup) :
    ((insert members key value).map (·.1)).Nodup := by
  rw [insert]
  by_cases hkey : members.any (·.1 == key)
  · have hkeys : (members.map fun member => if member.1 == key then (key, value) else member).map
        (·.1) = members.map (·.1) := by
      rw [List.map_map]
      refine List.map_congr_left fun member _ => ?_
      by_cases heq : member.1 = key
      · simp [heq]
      · simp [heq]
    rw [if_pos hkey, hkeys]
    exact h
  · rw [if_neg hkey, List.map_cons, List.nodup_cons]
    refine ⟨fun hmem => hkey ?_, h⟩
    obtain ⟨member, hmember, hmkey⟩ := List.mem_map.1 hmem
    exact List.any_eq_true.2 ⟨member, hmember, beq_iff_eq.2 hmkey⟩

theorem forall_mem_insert {members : List (String × α)} (h : ∀ member ∈ members, P member.2)
    (hvalue : P value) : ∀ member ∈ insert members key value, P member.2 := by
  intro member hmember
  rw [insert] at hmember
  by_cases hkey : members.any (·.1 == key)
  · rw [if_pos hkey] at hmember
    obtain ⟨old, hold, rfl⟩ := List.mem_map.1 hmember
    by_cases heq : old.1 == key
    · rw [if_pos heq]
      exact hvalue
    · rw [if_neg heq]
      exact h old hold
  · rw [if_neg hkey] at hmember
    rcases List.mem_cons.1 hmember with rfl | hmember
    · exact hvalue
    · exact h member hmember

/-- The members of an object have distinct keys, and no value but those that were read. -/
theorem ofMembers_spec {members : List (String × α)} (h : ∀ member ∈ members, P member.2) :
    ((ofMembers members).map (·.1)).Nodup ∧ ∀ member ∈ ofMembers members, P member.2 := by
  have hfold : ∀ read : List (String × α), (read.map (·.1)).Nodup → (∀ member ∈ read, P member.2) →
      ((members.foldl (fun object member => insert object member.1 member.2) read).map
        (·.1)).Nodup ∧
      ∀ member ∈ members.foldl (fun object member => insert object member.1 member.2) read,
        P member.2 := by
    induction members with
    | nil => exact fun read hread hP => ⟨hread, hP⟩
    | cons first members ih =>
        intro read hread hP
        exact ih (fun member hmember => h member (List.mem_cons_of_mem _ hmember)) _
          (nodup_keys_insert hread) (forall_mem_insert hP (h first (List.mem_cons_self ..)))
  obtain ⟨hkeys, hvalues⟩ := hfold [] List.nodup_nil fun member hmember => by cases hmember
  refine ⟨?_, fun member hmember => hvalues member (List.mem_reverse.1 hmember)⟩
  rw [ofMembers, List.map_reverse]
  exact List.nodup_reverse.2 hkeys

end Members

/-! ### Decoders -/

namespace Decoder

/-- Whatever the decoder reads, its result is of a kind. -/
def Yields {α : Type} (P : α → Prop) (d : Decoder α) : Prop :=
  ∀ cursor result after, d cursor = .ok (result, after) → P result

section Yields

variable {α β : Type} {P : α → Prop} {Q : β → Prop}

theorem Yields.any (d : Decoder α) : Yields (fun _ => True) d := fun _ _ _ _ => trivial

theorem Yields.pure {a : α} (h : P a) : Yields P (pure a) := by
  intro cursor result after hresult
  cases hresult
  exact h

theorem Yields.failHere (cause : Cause) : Yields P (failHere cause) := by
  intro cursor result after hresult
  cases hresult

theorem Yields.failNext (cause : Cause) : Yields P (failNext cause) := by
  intro cursor result after hresult
  cases hresult

theorem Yields.bind {d : Decoder α} {f : α → Decoder β} (hd : Yields P d)
    (hf : ∀ a, P a → Yields Q (f a)) : Yields Q (d >>= f) := by
  intro cursor result after hresult
  change (d cursor >>= fun r => f r.1 r.2) = _ at hresult
  cases hread : d cursor with
  | error e =>
      rw [hread] at hresult
      cases hresult
  | ok r =>
      obtain ⟨a, next⟩ := r
      rw [hread] at hresult
      exact hf a (hd cursor a next hread) next result after hresult

theorem Yields.after {d : Decoder α} {f : α → Decoder β} (hf : ∀ a, Yields Q (f a)) :
    Yields Q (d >>= f) :=
  (Yields.any d).bind fun a _ => hf a

theorem yields_items {item : Decoder α} (hitem : Yields P item) : ∀ (steps : Nat) (read : List α),
    (∀ a ∈ read, P a) → Yields (fun list => ∀ a ∈ list, P a) (items item steps read)
  | 0, _, _ => Yields.failHere _
  | steps + 1, read, hread => by
      refine Yields.after fun more => ?_
      cases more with
      | true =>
          refine hitem.bind fun a ha => yields_items hitem steps _ fun b hb => ?_
          rcases List.mem_cons.1 hb with rfl | hb
          · exact ha
          · exact hread b hb
      | false =>
          exact Yields.after fun _ => Yields.pure fun a ha => hread a (List.mem_reverse.1 ha)

theorem yields_members {size : Nat} {item : Decoder α} (hitem : Yields P item) :
    ∀ (steps : Nat) (read : List (String × α)), (∀ member ∈ read, P member.2) →
      Yields (fun list => ∀ member ∈ list, P member.2) (members size item steps read)
  | 0, _, _ => Yields.failHere _
  | steps + 1, read, hread => by
      refine Yields.after fun more => ?_
      cases more with
      | true =>
          refine Yields.after fun key => Yields.after fun _ => hitem.bind fun a ha =>
            yields_members hitem steps _ fun member hmember => ?_
          rcases List.mem_cons.1 hmember with rfl | hmember
          · exact ha
          · exact hread member hmember
      | false =>
          exact Yields.after fun _ =>
            Yields.pure fun member hmember => hread member (List.mem_reverse.1 hmember)

end Yields

/-- A property that values have when the values in them do. -/
structure Kept (P : Value → Prop) : Prop where
  null : P .null
  bool : ∀ b, P (.bool b)
  number : ∀ n, P (.number n)
  string : ∀ s, P (.string s)
  array : ∀ items, (∀ item ∈ items, P item) → P (.array items)
  object : ∀ members, (members.map (·.1)).Nodup → (∀ member ∈ members, P member.2) →
    P (.object members)

theorem yields_valueOf {P : Value → Prop} (hP : Kept P) {size : Nat} {nested : Option (Decoder Value)}
    (hnested : ∀ item ∈ nested, Yields P item) : Yields P (valueOf size nested) := by
  refine Yields.after fun next => ?_
  split
  · exact Yields.failHere _
  · exact Yields.after fun _ => Yields.pure hP.null
  · exact Yields.after fun _ => Yields.pure (hP.bool true)
  · exact Yields.after fun _ => Yields.pure (hP.bool false)
  · exact Yields.after fun s => Yields.pure (hP.string s)
  · cases nested with
    | none => exact Yields.failNext _
    | some item =>
        refine Yields.after fun _ => ?_
        exact (yields_items (hnested item rfl) size [] fun _ h => by cases h).bind
          fun list hlist => Yields.pure (hP.array list hlist)
  · cases nested with
    | none => exact Yields.failNext _
    | some item =>
        refine Yields.after fun _ => ?_
        refine (yields_members (hnested item rfl) size [] fun _ h => by cases h).bind
          fun list hlist => Yields.pure ?_
        obtain ⟨hkeys, hvalues⟩ := ofMembers_spec hlist
        exact hP.object _ hkeys hvalues
  · split
    · exact Yields.after fun n => Yields.pure (hP.number n)
    · exact Yields.failNext _

theorem yields_value {P : Value → Prop} (hP : Kept P) (size depth : Nat) : Yields P (value size depth) := by
  induction depth with
  | zero => exact yields_valueOf hP fun item h => by cases h
  | succ depth ih =>
      refine yields_valueOf hP fun item h => ?_
      cases h
      exact ih

end Decoder

/-- What decoding keeps holds of a decoded value. -/
theorem of_decode {P : Value → Prop} (hP : Decoder.Kept P) {text : String} {v : Value}
    (h : decode text = .ok v) : P v := by
  rw [decode, Decoder.run] at h
  cases hread : Decoder.value (text.length + 1) maxDepth (Cursor.start text.toList) with
  | error e =>
      rw [hread] at h
      cases h
  | ok r =>
      obtain ⟨result, cursor⟩ := r
      have hresult := Decoder.yields_value hP _ _ _ _ _ hread
      rw [hread] at h
      change (Decoder.finish cursor >>= fun _ => Except.ok result) = _ at h
      cases hfinish : Decoder.finish cursor with
      | error e =>
          rw [hfinish] at h
          cases h
      | ok _ =>
          rw [hfinish] at h
          cases h
          exact hresult

/-- In a decoded value no object has two members of one key. -/
theorem distinctKeys_of_decode {text : String} {v : Value} (h : decode text = .ok v) : v.DistinctKeys :=
  of_decode {
    null := .null
    bool := .bool
    number := .number
    string := .string
    array := fun _ => .array
    object := fun _ => .object } h

end Phrasebook.Json
