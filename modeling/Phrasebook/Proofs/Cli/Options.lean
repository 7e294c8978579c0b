import Phrasebook.Proofs.Cli.Stages

/-!
The options that a run uses. A command line is read word by word; the last export flag in it counts, and
a banner in it counts even if it is empty. What the command line does not say is taken from the
configuration.
-/

namespace Phrasebook.Cli

/-! ### What a command line says -/

/-- The words before the one after which every word names a resource. -/
def optionWords (words : List String) : List String := words.takeWhile (· ≠ "--")

/-- The export flag that a word is. -/
def exportFlag? (word : String) : Option Bool :=
  if word = "--default-export" then some true
  else if word = "--no-default-export" then some false
  else none

/-- The export flags of a command line, in order. -/
def exportFlags (words : List String) : List Bool := (optionWords words).filterMap exportFlag?

/-- The banner that stands in one word with the name of its option. -/
def attachedBanner? (word : String) : Option String :=
  if "--banner=".toList <+: word.toList then some (String.ofList (word.toList.drop 9)) else none

/-- The banners that words give, in one word with the name of the option or as the word after it. -/
def bannersOf : List String → List String
  | [] => []
  | word :: rest =>
    (attachedBanner? word).toList ++ (if word = "--banner" then rest.head?.toList else []) ++
      bannersOf rest

/-- The banners of a command line, in order. -/
def banners (words : List String) : List String := bannersOf (optionWords words)

/-- What one word among the options says: whether it is an export flag, the banner that it holds, and
whether the next word is a banner. -/
structure Says (word : String) (flag? : Option Bool) (banner? : Option String) (awaits : Bool) : Prop where
  ne_end : word ≠ "--"
  flag : exportFlag? word = flag?
  banner : attachedBanner? word = banner?
  awaits : (word == "--banner") = awaits

/-- A word that does not begin with two dashes says nothing about the export or the banner. -/
theorem says_plain {word : String} (h : ∀ long, word.toList ≠ '-' :: '-' :: long) :
    Says word none none false where
  ne_end := by
    rintro rfl
    exact h _ rfl
  flag := by
    rw [exportFlag?, if_neg, if_neg]
    · rintro rfl
      exact h _ rfl
    · rintro rfl
      exact h _ rfl
  banner := by
    refine if_neg fun hprefix => ?_
    obtain ⟨rest, hrest⟩ := hprefix
    exact h _ hrest.symm
  awaits := by
    rw [beq_eq_false_iff_ne]
    rintro rfl
    exact h _ rfl

namespace Says

variable {word : String} {flag? : Option Bool} {banner? : Option String} {awaits : Bool}

theorem optionWords_cons (h : Says word flag? banner? awaits) (words : List String) :
    optionWords (word :: words) = word :: optionWords words :=
  List.takeWhile_cons_of_pos (decide_eq_true h.ne_end)

theorem bannersOf_cons (h : Says word flag? banner? awaits) (rest : List String) :
    bannersOf (word :: rest) =
      banner?.toList ++ (if awaits then rest.head?.toList else []) ++ bannersOf rest := by
  rw [bannersOf, h.banner, ← h.awaits]
  simp only [beq_iff_eq]

/-- A later export flag takes back an earlier one. -/
theorem getLast?_cons (h : Says word flag? banner? awaits) (rest : List String) (earlier : Option Bool) :
    (((word :: rest).filterMap exportFlag?).getLast? <|> earlier) =
      ((rest.filterMap exportFlag?).getLast? <|> flag? <|> earlier) := by
  cases flag? with
  | none => rw [List.filterMap_cons_none h.flag]; rfl
  | some flag =>
      rw [List.filterMap_cons_some h.flag, List.getLast?_cons]
      cases (rest.filterMap exportFlag?).getLast? <;> rfl

end Says

/-- The name of an option after two dashes. -/
def Switch.longName : Switch → String
  | .slot .output => "output"
  | .slot .banner => "banner"
  | .slot .config => "config"
  | .slot .input => "input"
  | .flag .defaultExport => "default-export"
  | .flag .noDefaultExport => "no-default-export"
  | .flag .dumpAccessors => "emit-ir"
  | .flag .verbose => "verbose"
  | .flag .help => "help"
  | .flag .version => "version"

theorem longName_of_ofLongName? {name : String} {switch : Switch} (h : ofLongName? name = some switch) :
    name = switch.longName := by
  unfold ofLongName? at h
  split at h
  all_goals cases h
  all_goals rfl

/-- What an option without a value says about the export. -/
def Flag.export? : Flag → Option Bool
  | .defaultExport => some true
  | .noDefaultExport => some false
  | .dumpAccessors | .verbose | .help | .version => none

theorem says_flag {word : String} {flag : Flag}
    (h : word.toList = '-' :: '-' :: (Switch.longName (.flag flag)).toList) :
    Says word flag.export? none false := by
  rw [← String.ofList_toList (s := word), h]
  cases flag <;> exact ⟨by decide, by decide, by decide, by decide⟩

theorem says_slot {word : String} {slot : Slot}
    (h : word.toList = '-' :: '-' :: (Switch.longName (.slot slot)).toList) :
    Says word none none (slot == .banner) := by
  rw [← String.ofList_toList (s := word), h]
  cases slot <;> exact ⟨by decide, by decide, by decide, by decide⟩

theorem says_slot_value {word : String} {slot : Slot} {value : List Char}
    (h : word.toList = '-' :: '-' :: ((Switch.longName (.slot slot)).toList ++ '=' :: value)) :
    Says word none (if slot = .banner then some (String.ofList value) else none) false := by
  -- neither a flag nor the name of the option alone has an equals sign
  have hsign : '=' ∈ word.toList := by simp [h]
  have hne : ∀ other : String, '=' ∉ other.toList → word ≠ other := by
    rintro other hother rfl
    exact hother hsign
  refine ⟨hne _ (by decide), ?_, ?_, beq_eq_false_iff_ne.2 (hne _ (by decide))⟩
  · rw [exportFlag?, if_neg (hne _ (by decide)), if_neg (hne _ (by decide))]
  · rw [attachedBanner?, h]
    cases slot with
    | banner => exact if_pos (List.prefix_append "--banner=".toList value)
    | input | output | config => simp [Switch.longName]

/-! ### What one word does -/

/-- What stands after two dashes is a name alone, or a name and a value. -/
theorem name_value_cases (long : List Char) :
    long = long.takeWhile (· != '=') ∧ long.dropWhile (· != '=') = [] ∨
      ∃ value, long = long.takeWhile (· != '=') ++ '=' :: value ∧
        long.dropWhile (· != '=') = '=' :: value := by
  have happend : long.takeWhile (· != '=') ++ long.dropWhile (· != '=') = long :=
    List.takeWhile_append_dropWhile
  cases hdrop : long.dropWhile (· != '=') with
  | nil =>
      rw [hdrop, List.append_nil] at happend
      exact Or.inl ⟨happend.symm, rfl⟩
  | cons c value =>
      have hhead := List.head?_dropWhile_not (· != '=') long
      rw [hdrop] at hhead happend
      have hc : c = '=' := by simpa using hhead
      rw [hc] at happend
      exact Or.inr ⟨value, happend.symm, by rw [hc]⟩

theorem export?_of_ofLetter? {letter : Char} {flag : Flag} (h : ofLetter? letter = some (.flag flag)) :
    flag.export? = none := by
  unfold ofLetter? at h
  split at h
  all_goals cases h
  all_goals rfl

theorem eq_output_of_ofLetter? {letter : Char} {slot : Slot} (h : ofLetter? letter = some (.slot slot)) :
    slot = .output := by
  unfold ofLetter? at h
  split at h
  all_goals cases h
  rfl

theorem exists_of_bind_eq_ok {ε α β : Type} {x : Except ε α} {f : α → Except ε β} {b : β}
    (h : (x >>= f) = .ok b) : ∃ a, x = .ok a ∧ f a = .ok b := by
  cases x with
  | error e => cases h
  | ok a => exact ⟨a, rfl, h⟩

namespace Draft

variable {draft later : Draft}

theorem set_eq_ok {slot : Slot} {value : String} (h : draft.set slot value = .ok later) :
    later.defaultExport = draft.defaultExport ∧
      later.banner.toList = draft.banner.toList ++ if slot = .banner then [value] else [] := by
  unfold set at h
  split_ifs at h with hset hempty
  cases slot with
  | banner =>
      cases h
      have hnone : draft.banner = none := Option.not_isSome_iff_eq_none.1 hset
      refine ⟨rfl, ?_⟩
      rw [hnone]
      rfl
  | input | output | config =>
      cases h
      exact ⟨rfl, (List.append_nil _).symm⟩

theorem turnOn_eq_ok {flag : Flag} (h : draft.turnOn flag = .ok later) :
    later.defaultExport = (flag.export? <|> draft.defaultExport) ∧ later.banner = draft.banner := by
  cases flag with
  | defaultExport | noDefaultExport | dumpAccessors | verbose =>
      rw [turnOn] at h
      split_ifs at h
      cases h
      exact ⟨rfl, rfl⟩
  | help | version => cases h

end Draft

namespace Progress

variable {p q r : Progress} {word : String}

/-- Whether the next word is to be a banner. -/
def awaitsBanner (p : Progress) : Bool := p.pending == some (.banner, none)

/-- The banners that were given so far. -/
def given (p : Progress) : List String :=
  p.draft.banner.toList ++
    match p.pending with
    | some (.banner, some value) => [value]
    | _ => []

/-- From one progress to a later one an export flag and banners were read, and the next word is then to
be a banner or not. -/
structure Reads (p q : Progress) (flag? : Option Bool) (banners : List String) (awaits : Bool) : Prop where
  before : p.awaitsBanner = false
  defaultExport : q.draft.defaultExport = (flag? <|> p.draft.defaultExport)
  given : q.given = p.given ++ banners
  after : q.awaitsBanner = awaits
  onlyInputs : q.onlyInputs = p.onlyInputs

theorem Reads.trans (h : Reads p q none [] false) (h' : Reads q r none [] false) :
    Reads p r none [] false where
  before := h.before
  defaultExport := h'.defaultExport.trans h.defaultExport
  given := by rw [h'.given, h.given, List.append_nil, List.append_nil]
  after := h'.after
  onlyInputs := h'.onlyInputs.trans h.onlyInputs

theorem settle_eq_ok (h : p.settle = .ok q) : Reads p q none [] false ∧ q.pending = none := by
  obtain ⟨draft, pending, onlyInputs⟩ := p
  unfold settle at h
  match pending with
  | none =>
      cases h
      exact ⟨⟨rfl, rfl, (List.append_nil _).symm, rfl, rfl⟩, rfl⟩
  | some (slot, none) => cases h
  | some (slot, some value) =>
      obtain ⟨later, hset, heq⟩ := exists_of_bind_eq_ok h
      cases heq
      obtain ⟨hflag, hbanner⟩ := Draft.set_eq_ok hset
      refine ⟨⟨?_, hflag, ?_, rfl, rfl⟩, rfl⟩
      · cases slot <;> rfl
      · simp only [given, hbanner, List.append_nil]
        cases slot <;> simp

theorem given_of_pending_eq_none (h : p.pending = none) : p.given = p.draft.banner.toList := by
  rw [given, h, List.append_nil]

/-- What is read into the draft is read after the value that was pending. -/
theorem reads_of_settle {draft : Draft} {flag? : Option Bool} {banners : List String}
    (hsettle : p.settle = .ok q) (hflag : draft.defaultExport = (flag? <|> q.draft.defaultExport))
    (hbanner : draft.banner.toList = q.draft.banner.toList ++ banners) :
    Reads p { q with draft := draft } flag? banners false := by
  obtain ⟨hreads, hpending⟩ := settle_eq_ok hsettle
  have hgiven := hreads.given
  rw [given_of_pending_eq_none hpending, List.append_nil] at hgiven
  refine ⟨hreads.before, ?_, ?_, hreads.after, hreads.onlyInputs⟩
  · rw [hflag, hreads.defaultExport]
    rfl
  · have hlater : ({ q with draft } : Progress).pending = none := hpending
    rw [given_of_pending_eq_none hlater, hbanner, hgiven]

theorem turnOn_eq_ok {flag : Flag} (h : p.turnOn flag = .ok q) : Reads p q flag.export? [] false := by
  obtain ⟨settled, hsettle, h⟩ := exists_of_bind_eq_ok h
  obtain ⟨draft, hdraft, heq⟩ := exists_of_bind_eq_ok h
  cases heq
  obtain ⟨hflag, hbanner⟩ := Draft.turnOn_eq_ok hdraft
  exact reads_of_settle hsettle hflag (by rw [hbanner, List.append_nil])

theorem attach_eq_ok {slot : Slot} {value : String} (h : p.attach slot value = .ok q) :
    Reads p q none (if slot = .banner then [value] else []) false := by
  obtain ⟨settled, hsettle, h⟩ := exists_of_bind_eq_ok h
  obtain ⟨draft, hdraft, heq⟩ := exists_of_bind_eq_ok h
  cases heq
  obtain ⟨hflag, hbanner⟩ := Draft.set_eq_ok hdraft
  exact reads_of_settle hsettle hflag hbanner

/-- A slot that is named waits for a value that has not been read into the draft; a banner that is waited
for is not given yet. -/
theorem reads_of_pending {slot : Slot} {value? : Option String} (hsettle : p.settle = .ok q)
    (hbanner : slot = .banner → value? = none) :
    Reads p { q with pending := some (slot, value?) } none [] (slot == .banner) := by
  obtain ⟨hreads, hpending⟩ := settle_eq_ok hsettle
  have hgiven := hreads.given
  rw [given_of_pending_eq_none hpending] at hgiven
  refine ⟨hreads.before, hreads.defaultExport, ?_, ?_, hreads.onlyInputs⟩
  · rw [← hgiven, given]
    cases slot with
    | banner =>
        rw [hbanner rfl]
        exact List.append_nil _
    | input | output | config => exact List.append_nil _
  · cases slot with
    | banner =>
        rw [hbanner rfl]
        rfl
    | input | output | config => rfl

theorem await_eq_ok {slot : Slot} (h : p.await slot = .ok q) : Reads p q none [] (slot == .banner) := by
  obtain ⟨settled, hsettle, heq⟩ := exists_of_bind_eq_ok h
  cases heq
  exact reads_of_pending hsettle fun _ => rfl

theorem addInput_eq_ok (h : p.addInput word = .ok q) : Reads p q none [] false := by
  rw [addInput] at h
  split_ifs at h with hinput
  · cases h
  · obtain ⟨settled, hsettle, heq⟩ := exists_of_bind_eq_ok h
    cases heq
    exact reads_of_pending hsettle fun hslot => by cases hslot

/-- A word that is no option is the banner that is waited for, or says nothing about options. -/
theorem readPlain_eq_ok (h : p.readPlain word = .ok q) :
    (p.awaitsBanner ∧ q = { p with pending := some (.banner, some word) }) ∨ Reads p q none [] false := by
  obtain ⟨draft, pending, onlyInputs⟩ := p
  unfold readPlain at h
  split at h
  · rename_i slot hpending
    cases hpending
    cases h
    cases slot with
    | banner => exact Or.inl ⟨rfl, rfl⟩
    | input | output | config => exact Or.inr ⟨rfl, rfl, (List.append_nil _).symm, rfl, rfl⟩
  · exact Or.inr (addInput_eq_ok h)

/-- The first letter after one dash is a flag, with more letters after it, or the output is named. -/
theorem readShort_cons_eq_ok {letter : Char} {rest : List Char}
    (h : p.readShort (letter :: rest) = .ok q) :
    (∃ flag next, flag.export? = none ∧ p.turnOn flag = .ok next ∧ next.readShort rest = .ok q) ∨
      p.await .output = .ok q ∨ ∃ value, p.attach .output value = .ok q := by
  unfold readShort at h
  split at h
  · cases h
  · rename_i flag hletter
    obtain ⟨next, hflag, hrest⟩ := exists_of_bind_eq_ok h
    exact Or.inl ⟨flag, next, export?_of_ofLetter? hletter, hflag, hrest⟩
  · rename_i slot hletter
    rw [eq_output_of_ofLetter? hletter] at h
    exact Or.inr (Or.inl h)
  · rename_i slot value hletter
    rw [eq_output_of_ofLetter? hletter] at h
    exact Or.inr (Or.inr ⟨_, h⟩)
  · rename_i slot hletter _ _
    rw [eq_output_of_ofLetter? hletter] at h
    exact Or.inr (Or.inr ⟨_, h⟩)

/-- After one dash there are no options about the export or the banner. -/
theorem readShort_eq_ok {letter : Char} {rest : List Char} (h : p.readShort (letter :: rest) = .ok q) :
    Reads p q none [] false := by
  induction rest generalizing p letter with
  | nil =>
      rcases readShort_cons_eq_ok h with ⟨flag, next, hexport, hflag, hend⟩ | hawait | ⟨value, hattach⟩
      · cases hend
        rw [← hexport]
        exact turnOn_eq_ok hflag
      · exact await_eq_ok hawait
      · exact attach_eq_ok hattach
  | cons c rest ih =>
      rcases readShort_cons_eq_ok h with ⟨flag, next, hexport, hflag, hrest⟩ | hawait | ⟨value, hattach⟩
      · have hreads := turnOn_eq_ok hflag
        rw [hexport] at hreads
        exact hreads.trans (ih hrest)
      · exact await_eq_ok hawait
      · exact attach_eq_ok hattach

/-- After two dashes stands the name of an option, and a value after an equals sign. -/
theorem readLong_eq_ok {long : List Char} (h : p.readLong long = .ok q) :
    (∃ flag : Flag, long = (Switch.longName (.flag flag)).toList ∧ p.turnOn flag = .ok q) ∨
      (∃ slot : Slot, long = (Switch.longName (.slot slot)).toList ∧ p.await slot = .ok q) ∨
      ∃ (slot : Slot) (value : List Char), long = (Switch.longName (.slot slot)).toList ++ '=' :: value ∧
        p.attach slot (String.ofList value) = .ok q := by
  cases hswitch : ofLongName? (String.ofList (long.takeWhile (· != '='))) with
  | none =>
      simp only [readLong, hswitch] at h
      cases h
  | some switch =>
      have hlong := congrArg String.toList (longName_of_ofLongName? hswitch)
      rw [String.toList_ofList] at hlong
      rcases name_value_cases long with ⟨hname, hdrop⟩ | ⟨value, hname, hdrop⟩
      · rw [hlong] at hname
        simp only [readLong, hswitch, hdrop] at h
        cases switch with
        | flag flag => exact Or.inl ⟨flag, hname, h⟩
        | slot slot => exact Or.inr (Or.inl ⟨slot, hname, h⟩)
      · rw [hlong] at hname
        simp only [readLong, hswitch, hdrop] at h
        cases switch with
        | flag flag => cases h
        | slot slot => exact Or.inr (Or.inr ⟨slot, value, hname, h⟩)

/-- Among options a word ends them, is the banner that is waited for, or is read for what it says. -/
theorem read_eq_ok (h : p.read word = .ok q) (hoptions : p.onlyInputs = false) :
    (word = "--" ∧ q = { p with onlyInputs := true }) ∨
      (p.awaitsBanner ∧ Says word none none false ∧
        q = { p with pending := some (.banner, some word) }) ∨
      ∃ flag? banner? awaits, Says word flag? banner? awaits ∧ Reads p q flag? banner?.toList awaits := by
  rw [read, if_neg (by rw [hoptions]; exact Bool.false_ne_true)] at h
  split at h
  · rename_i hword
    cases h
    exact Or.inl ⟨String.toList_injective hword, rfl⟩
  · rename_i long _ hword
    refine Or.inr (Or.inr ?_)
    obtain ⟨flag, rfl, hturn⟩ | ⟨slot, rfl, hawait⟩ | ⟨slot, value, rfl, hattach⟩ := readLong_eq_ok h
    · exact ⟨_, _, _, says_flag hword, turnOn_eq_ok hturn⟩
    · exact ⟨_, _, _, says_slot hword, await_eq_ok hawait⟩
    · refine ⟨_, _, _, says_slot_value hword, ?_⟩
      have hreads := attach_eq_ok hattach
      cases slot <;> exact hreads
  · rename_i letter letters _ hne hword
    refine Or.inr (Or.inr ⟨_, _, _, says_plain fun long hlong => ?_, readShort_eq_ok h⟩)
    rw [hlong] at hword
    cases hword
    exact hne rfl
  · rename_i hne
    have hsays : Says word none none false := says_plain fun long hlong => hne _ _ hlong
    rcases readPlain_eq_ok h with ⟨hawaits, hq⟩ | hreads
    · exact Or.inr (Or.inl ⟨hawaits, hsays, hq⟩)
    · exact Or.inr (Or.inr ⟨_, _, _, hsays, hreads⟩)

/-! ### What a line does -/

/-- Of the words to come those that are still read as options. -/
def toCome (p : Progress) (words : List String) : List String :=
  if p.onlyInputs then [] else optionWords words

/-- The banners given so far and by the words to come. -/
def allBanners (p : Progress) (words : List String) : List String :=
  p.given ++ (if p.awaitsBanner then (p.toCome words).head?.toList else []) ++ bannersOf (p.toCome words)

/-- The last of the export flags so far and of the words to come. -/
def lastExport? (p : Progress) (words : List String) : Option Bool :=
  ((p.toCome words).filterMap exportFlag?).getLast? <|> p.draft.defaultExport

theorem toCome_of_onlyInputs (h : p.onlyInputs = true) (words : List String) : p.toCome words = [] := by
  rw [toCome, if_pos h]

theorem toCome_of_options (h : p.onlyInputs = false) (words : List String) :
    p.toCome words = optionWords words := by
  rw [toCome, h, if_neg Bool.false_ne_true]

/-- Reading a word takes nothing from what the whole line says, and adds nothing to it. -/
theorem read_preserves (h : p.read word = .ok q) (words : List String) :
    q.allBanners words = p.allBanners (word :: words) ∧
      q.lastExport? words = p.lastExport? (word :: words) := by
  cases honly : p.onlyInputs with
  | true =>
      rw [read, if_pos honly] at h
      have hreads := addInput_eq_ok h
      have hlater : q.onlyInputs = true := hreads.onlyInputs.trans honly
      rw [allBanners, allBanners, lastExport?, lastExport?, toCome_of_onlyInputs honly,
        toCome_of_onlyInputs hlater, hreads.given, hreads.before, hreads.after, hreads.defaultExport,
        List.append_nil]
      exact ⟨rfl, rfl⟩
  | false =>
      rcases read_eq_ok h honly with ⟨rfl, rfl⟩ | ⟨hawaits, hsays, rfl⟩ |
        ⟨flag?, banner?, awaits, hsays, hreads⟩
      · -- none of the words to come is an option any more
        have hend : optionWords ("--" :: words) = [] := List.takeWhile_cons_of_neg (by simp)
        rw [allBanners, allBanners, lastExport?, lastExport?, toCome_of_onlyInputs rfl,
          toCome_of_options honly, hend]
        exact ⟨rfl, rfl⟩
      · -- the word counts as the banner that was named before it, and not by itself
        have hpending : p.pending = some (.banner, none) := eq_of_beq hawaits
        have hlater : Progress.onlyInputs { p with pending := some (.banner, some word) } = false := honly
        rw [allBanners, allBanners, lastExport?, lastExport?, toCome_of_options honly,
          toCome_of_options hlater, hsays.optionWords_cons, hsays.bannersOf_cons, hsays.getLast?_cons,
          if_pos hawaits, given, given, hpending]
        refine ⟨?_, rfl⟩
        simp only [List.append_nil, List.append_assoc]
        rfl
      · have hlater : q.onlyInputs = false := hreads.onlyInputs.trans honly
        rw [allBanners, allBanners, lastExport?, lastExport?, toCome_of_options hlater,
          toCome_of_options honly, hsays.optionWords_cons, hsays.bannersOf_cons, hsays.getLast?_cons,
          hreads.given, hreads.before, hreads.after, hreads.defaultExport]
        refine ⟨?_, rfl⟩
        simp only [List.append_assoc]
        rfl

/-- What a whole line says is what was read from it at its end. -/
theorem foldlM_read_preserves {words : List String} (h : words.foldlM read p = .ok q) :
    q.allBanners [] = p.allBanners words ∧ q.lastExport? [] = p.lastExport? words := by
  induction words generalizing p with
  | nil =>
      cases h
      exact ⟨rfl, rfl⟩
  | cons word words ih =>
      rw [List.foldlM_cons] at h
      obtain ⟨next, hread, hrest⟩ := exists_of_bind_eq_ok h
      obtain ⟨hbanners, hexport⟩ := read_preserves hread words
      obtain ⟨hbannersRest, hexportRest⟩ := ih hrest
      exact ⟨hbannersRest.trans hbanners, hexportRest.trans hexport⟩

theorem finish_eq_ok {args : Args} (h : p.finish = .ok args) :
    args.banner.toList = p.allBanners [] ∧ args.defaultExport = p.lastExport? [] := by
  obtain ⟨settled, hsettle, h⟩ := exists_of_bind_eq_ok h
  obtain ⟨hreads, hpending⟩ := settle_eq_ok hsettle
  have htoCome : p.toCome [] = [] := by
    rw [toCome]
    exact ite_self []
  have hgiven := hreads.given
  rw [given_of_pending_eq_none hpending] at hgiven
  rw [allBanners, lastExport?, htoCome, hreads.before]
  dsimp only at h
  split at h
  · cases h
  · cases h
    refine ⟨?_, hreads.defaultExport⟩
    rw [hgiven, if_neg Bool.false_ne_true, bannersOf, List.append_nil, List.append_nil]

end Progress

/-- The arguments of an accepted line have its last export flag, and its banner if there is one. -/
theorem parse_eq_ok {words : List String} {args : Args} (h : Args.parse words = .ok args) :
    args.banner.toList = banners words ∧ args.defaultExport = (exportFlags words).getLast? := by
  obtain ⟨p, hread, hfinish⟩ := exists_of_bind_eq_ok h
  obtain ⟨hbanners, hexport⟩ := Progress.foldlM_read_preserves hread
  obtain ⟨hbanner, hflag⟩ := Progress.finish_eq_ok hfinish
  constructor
  · rw [hbanner, hbanners]
    rfl
  · rw [hflag, hexport, Progress.lastExport?, Progress.toCome_of_options rfl]
    simp [exportFlags]

/-! ### The options of a run -/

/-- The stages after the configuration, with the options that they use. -/
def stagesWith (args : Args) (options : Options) : Stage String := do
  let text ← readInput args.input
  let resource ← decodeInput args.input text
  let accessor ← makeAccessor args.input resource
  deliver args.output (← renderAccessor accessor args.dumpAccessors options)

/-- What can be seen of the stages when they are over. -/
def conclude (args : Args) : Except Failure String × Session → Outcome
  | (.ok stdout, session) =>
    { status := 0, stdout, logs := shown args session.logs, tree := session.tree }
  | (.error failure, session) =>
    { status := 1, stderr := "Error: " ++ failure.message ++ "\n", logs := shown args session.logs,
      tree := session.tree }

variable (commentary : Toml.Commentary)

theorem execute_eq_conclude (args : Args) (tree : FileTree) :
    execute commentary args tree = conclude args ((stages commentary args).run.run { tree }) := by
  rw [execute]
  rcases (stages commentary args).run.run { tree } with ⟨result, session⟩
  cases result <;> rfl

theorem run_stages_with {args : Args} {tree : FileTree} {config : Options}
    (h : Configured args tree config) (logs : List LogLine) :
    (stages commentary args).run.run ⟨tree, logs⟩ =
      (stagesWith args (config.override args)).run.run ⟨tree, logs ++ Phase.lines args .config⟩ :=
  Stage.run_bind_ok (run_loadConfig commentary h logs)

theorem defaultExport_override_iff (config : Options) (args : Args) :
    (config.override args).defaultExport = true ↔
      args.defaultExport = some true ∨ args.defaultExport = none ∧ config.defaultExport = true := by
  rw [Options.override]
  cases args.defaultExport with
  | none => simp
  | some flag => simp

theorem bannerChars_bannerLines_of_empty {options : Options} (h : options.banner = some "") :
    Script.bannerChars options.bannerLines = [] := by
  rw [Options.bannerLines, h]
  rfl

/-- The options that a run uses. The script is the default export if the last of all export flags says
so, or if there is none and the configuration says so. The banner is the one of the command line, of
which there is no second, or else that of the configuration; an empty one makes no comment. -/
theorem run_options {words : List String} {args : Args} {tree : FileTree} {config : Options}
    (h : Args.parse words = .ok args) (hconfig : Configured args tree config) :
    let options := config.override args
    run words tree commentary =
      conclude args ((stagesWith args options).run.run ⟨tree, Phase.lines args .config⟩) ∧
    (options.defaultExport = true ↔ (exportFlags words).getLast? = some true ∨
      exportFlags words = [] ∧ config.defaultExport = true) ∧
    (banners words).length ≤ 1 ∧ options.banner = ((banners words).head? <|> config.banner) ∧
    (options.banner = some "" → Script.bannerChars options.bannerLines = []) := by
  intro options
  obtain ⟨hbanner, hexport⟩ := parse_eq_ok h
  refine ⟨?_, ?_, ?_, ?_, bannerChars_bannerLines_of_empty⟩
  · rw [run_of_parse commentary h, execute_eq_conclude, run_stages_with commentary hconfig, List.nil_append]
  · rw [defaultExport_override_iff, hexport, List.getLast?_eq_none_iff]
  · rw [← hbanner]
    exact Option.length_toList_le
  · rw [← hbanner, Option.head?_toList]
    rfl

/-- Flags that take back each other, and an empty banner that comes before the configured one. -/
theorem run_options_alternating :
    let words := ["--default-export", "--no-default-export", "--banner=", "en.json", "--config",
      "i18nts.toml", "--default-export"]
    let args : Args := ⟨"en.json", none, some true, some "", some "i18nts.toml", false, false⟩
    let tree : FileTree := ⟨[(["en.json"], .file "true".toUTF8),
      (["i18nts.toml"], .file "default_export = false\nbanner = \"Generated.\"\n".toUTF8)]⟩
    let config : Options := ⟨false, some "Generated."⟩
    Args.parse words = .ok args ∧ Configured args tree config ∧
      exportFlags words = [true, false, true] ∧ banners words = [""] ∧
      run words tree = conclude args
        ((stagesWith args ⟨true, some ""⟩).run.run ⟨tree, [⟨.debug, "Loaded config file."⟩]⟩) ∧
      Script.bannerChars (Options.bannerLines ⟨true, some ""⟩) = [] := by
  intro words args tree config
  have hparse : Args.parse words = .ok args := rfl
  have hconfig : Configured args tree config := ⟨_, rfl, rfl⟩
  obtain ⟨hrun, -, -, -, hempty⟩ := run_options .silent hparse hconfig
  exact ⟨hparse, hconfig, by decide, by decide, hrun, hempty rfl⟩

end Phrasebook.Cli
