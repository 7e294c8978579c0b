import Phrasebook.Proofs.Cli.FileTree
import Phrasebook.Proofs.Cli.Messages

/-!
The course of a run. The stages are tried one after the other, each on what those before it made. A run
stops at the first stage that fails, reports the path and the cause, and leaves all files as they were. A
run in which no stage fails delivers one text, to the standard output or to one file.
-/

namespace Phrasebook.Cli

/-! ### Stages and their failures -/

/-- The stages of a run. -/
inductive Phase where
  | config
  | input
  | decode
  | convert
  | generate
  | write
  deriving DecidableEq, Repr

namespace Phase

/-- The stages in the order in which they are tried. -/
def order : List Phase := [.config, .input, .decode, .convert, .generate, .write]

/-- What the log says when a stage is over. -/
def lines (args : Args) : Phase → List LogLine
  | .config => if args.config.isSome then [⟨.debug, "Loaded config file."⟩] else []
  | .input => [⟨.debug, "Read localization resource."⟩]
  | .decode => [⟨.debug, "Converting resource JSON to IR."⟩]
  | .convert => []
  | .generate =>
    if args.dumpAccessors then []
    else [⟨.debug, "Generating TypeScript AST from IR."⟩, ⟨.debug, "TypeScript accessors generated."⟩]
  | .write => if args.output.isSome then [⟨.info, "Wrote generated file."⟩] else []

end Phase

/-- The names that lead to the directory of a file. -/
def wayToParent (path : String) : List String := ((FilePath.parent? path).map FilePath.names).getD []

/-- The tree in which the directory of a file was made, and the error if it could not be. -/
def withParent (tree : FileTree) (path : String) : FileTree × Option FileError :=
  tree.makeDirectories (wayToParent path).reverse

/-- How the stages of a run fail on some files. Each stage from the decoding on has what the one before it
made; only the generation of a text cannot fail. -/
inductive Fails (commentary : Toml.Commentary) (args : Args) (tree : FileTree) : Phase → Failure → Prop
  | config {path : String} {e : FileError} (hconfig : args.config = some path)
      (hread : tree.readText path = .error e) : Fails commentary args tree .config (.read path e)
  | options {path text : String} {report : Toml.Report} (hconfig : args.config = some path)
      (hread : tree.readText path = .ok text)
      (hoptions : Options.ofToml commentary text = .error report) :
      Fails commentary args tree .config (.config path report)
  | input {e : FileError} (hread : tree.readText args.input = .error e) :
      Fails commentary args tree .input (.read args.input e)
  | decode {text : String} {e : Json.Error} (hread : tree.readText args.input = .ok text)
      (hdecode : Json.decode text = .error e) :
      Fails commentary args tree .decode (.resource args.input (.json e))
  | convert {text : String} {v : Json.Value} {e : Unsupported}
      (hread : tree.readText args.input = .ok text) (hdecode : Json.decode text = .ok v)
      (hconvert : Accessor.ofJson v = .error e) :
      Fails commentary args tree .convert (.resource args.input (.unsupported e))
  | directory {path parent : String} {e : FileError} (houtput : args.output = some path)
      (hparent : FilePath.parent? path = some parent) (hmake : (withParent tree path).2 = some e) :
      Fails commentary args tree .write (.write parent e)
  | write {path text : String} {e : FileError} (houtput : args.output = some path)
      (hmake : (withParent tree path).2 = none)
      (hwrite : (withParent tree path).1.writeText path text = .error e) :
      Fails commentary args tree .write (.write path e)

/-- None of some stages fails. -/
def Passed (commentary : Toml.Commentary) (args : Args) (tree : FileTree) (phases : List Phase) : Prop :=
  ∀ phase ∈ phases, ∀ failure, ¬Fails commentary args tree phase failure

/-! ### What a run makes -/

/-- The options that a run has from its configuration file; without one they are the usual ones. -/
def Configured (args : Args) (tree : FileTree) (config : Options) : Prop :=
  match args.config with
  | none => config = {}
  | some path => ∃ text, tree.readText path = .ok text ∧ Options.readToml text = .ok config

/-- The text for a resource: its script or, on demand, its accessor as JSON, to which the options do not
matter. -/
def rendering (args : Args) (source : String) (options : Options) : Except ResourceError String :=
  if args.dumpAccessors then (accessorOf source).map fun accessor => accessor.toJson.pretty ++ "\n"
  else compile source options

/-- A tree in which one file has a text and its directory was made, and nothing else is changed. -/
structure Written (tree : FileTree) (path text : String) (later : FileTree) : Prop where
  readText : later.readText path = .ok text
  parent : ∃ place, later.resolve (wayToParent path) [] = .ok place ∧ later.lookup place = some .directory
  others : ∃ place, later.resolve (FilePath.names path) [] = .ok place ∧
    later.lookup place = some (.file text.toUTF8) ∧ ∀ other, other ≠ place →
      later.lookup other = tree.lookup other ∨
      tree.lookup other = none ∧ later.lookup other = some .directory ∧
        ∃ way, way <+: wayToParent path ∧ later.resolve way [] = .ok other

/-- What the standard output gets of a text, and how the files are when it is delivered. -/
def Delivered (args : Args) (tree : FileTree) (text stdout : String) (later : FileTree) : Prop :=
  match args.output with
  | none => stdout = text ∧ later = tree
  | some path => stdout = "" ∧ Written tree path text later

/-- The directories that a run may add before it fails. -/
def wayToOutput (args : Args) : List String := (args.output.map wayToParent).getD []

/-! ### Running -/

namespace Stage

variable {α β : Type} {stage : Stage α} {next : α → Stage β} {session later : Session}

theorem run_bind_ok {a : α} (h : stage.run.run session = (.ok a, later)) :
    (stage >>= next).run.run session = (next a).run.run later := by
  simp only [ExceptT.run_bind, StateT.run_bind, h]
  rfl

theorem run_bind_error {failure : Failure} (h : stage.run.run session = (.error failure, later)) :
    (stage >>= next).run.run session = (.error failure, later) := by
  simp only [ExceptT.run_bind, StateT.run_bind, h]
  rfl

theorem run_check_ok {ε : Type} {result : Except ε α} {a : α} (h : result = .ok a)
    (failure : ε → Failure) : (check result failure).run.run session = (.ok a, session) := by
  rw [h]
  rfl

theorem run_check_error {ε : Type} {result : Except ε α} {e : ε} (h : result = .error e)
    (failure : ε → Failure) : (check result failure).run.run session = (.error (failure e), session) := by
  rw [h]
  rfl

theorem run_readFile_ok {path text : String} (h : session.tree.readText path = .ok text) :
    (readFile path).run.run session = (.ok text, session) :=
  run_check_ok h (.read path)

theorem run_readFile_error {path : String} {e : FileError} (h : session.tree.readText path = .error e) :
    (readFile path).run.run session = (.error (.read path e), session) :=
  run_check_error h (.read path)

end Stage

/-- A part of a run that tries some stages one after the other. It stops at the first that fails, with the
files as they were but for directories on the way to the output; when none fails it makes something. The log
tells of the stages that are over. -/
structure Tries {α : Type} (commentary : Toml.Commentary) (args : Args) (tree : FileTree)
    (phases : List Phase) (stage : Stage α) (made : α → FileTree → Prop) : Prop where
  stops : ∀ before phase after failure, phases = before ++ phase :: after →
    Passed commentary args tree before → Fails commentary args tree phase failure → ∃ later,
      FileTree.Extends (wayToOutput args) tree later ∧ ∀ logs, stage.run.run ⟨tree, logs⟩ =
        (.error failure, ⟨later, logs ++ before.flatMap (Phase.lines args)⟩)
  passes : Passed commentary args tree phases → ∃ a later, made a later ∧ ∀ logs,
    stage.run.run ⟨tree, logs⟩ = (.ok a, ⟨later, logs ++ phases.flatMap (Phase.lines args)⟩)

namespace Tries

variable {α β : Type} {commentary : Toml.Commentary} {args : Args} {tree : FileTree}
  {phases rest : List Phase} {phase : Phase} {stage : Stage α} {next : α → Stage β}

theorem of_phase {made : α → FileTree → Prop}
    (hstops : ∀ failure, Fails commentary args tree phase failure → ∃ later,
      FileTree.Extends (wayToOutput args) tree later ∧ ∀ logs,
      stage.run.run ⟨tree, logs⟩ = (.error failure, ⟨later, logs⟩))
    (hpasses : (∀ failure, ¬Fails commentary args tree phase failure) → ∃ a later, made a later ∧
      ∀ logs, stage.run.run ⟨tree, logs⟩ = (.ok a, ⟨later, logs ++ phase.lines args⟩)) :
    Tries commentary args tree [phase] stage made where
  stops := by
    intro before other after failure horder _ hfails
    obtain ⟨rfl, h⟩ | ⟨_, rfl, h⟩ := List.cons_eq_append_iff.1 horder
    · cases h
      obtain ⟨later, hextends, hrun⟩ := hstops failure hfails
      refine ⟨later, hextends, fun logs => ?_⟩
      rw [hrun, List.flatMap_nil, List.append_nil]
    · simp at h
  passes := by
    intro hpassed
    obtain ⟨a, later, hmade, hrun⟩ := hpasses (hpassed phase (by simp))
    refine ⟨a, later, hmade, fun logs => ?_⟩
    rw [hrun, List.flatMap_singleton]

theorem imp {made other : α → FileTree → Prop} (h : Tries commentary args tree phases stage made)
    (hmade : ∀ a later, made a later → other a later) : Tries commentary args tree phases stage other where
  stops := h.stops
  passes := by
    intro hpassed
    obtain ⟨a, later, hresult, hrun⟩ := h.passes hpassed
    exact ⟨a, later, hmade a later hresult, hrun⟩

/-- Two parts of a run, the second of which goes on with what the first made of the files as they are. -/
theorem bind {result : α → Prop} {made : β → FileTree → Prop}
    (hstage : Tries commentary args tree phases stage fun a later => result a ∧ later = tree)
    (hnext : ∀ a, result a → Tries commentary args tree rest (next a) made) :
    Tries commentary args tree (phases ++ rest) (stage >>= next) made where
  stops := by
    intro before phase after failure horder hpassed hfails
    have hplace : (∃ between, before = phases ++ between ∧ rest = between ++ phase :: after) ∨
        ∃ left, phases = before ++ phase :: left := by
      obtain ⟨between, hbefore, hrest⟩ | ⟨left, hphases, hleft⟩ := List.append_eq_append_iff.1 horder
      · exact Or.inl ⟨between, hbefore, hrest⟩
      · cases left with
        | nil => exact Or.inl ⟨[], by rw [hphases, List.append_nil, List.append_nil], hleft.symm⟩
        | cons first left =>
            cases (List.cons.inj hleft).1
            exact Or.inr ⟨left, hphases⟩
    obtain ⟨between, rfl, hrest⟩ | ⟨left, hphases⟩ := hplace
    · obtain ⟨a, _, ⟨hresult, rfl⟩, hrun⟩ :=
        hstage.passes fun other hother => hpassed other (List.mem_append_left _ hother)
      obtain ⟨later, hextends, hrunNext⟩ := (hnext a hresult).stops between phase after failure hrest
        (fun other hother => hpassed other (List.mem_append_right _ hother)) hfails
      refine ⟨later, hextends, fun logs => ?_⟩
      rw [Stage.run_bind_ok (hrun logs), hrunNext, List.flatMap_append, List.append_assoc]
    · obtain ⟨later, hextends, hrun⟩ := hstage.stops before phase left failure hphases hpassed hfails
      exact ⟨later, hextends, fun logs => Stage.run_bind_error (hrun logs)⟩
  passes := by
    intro hpassed
    obtain ⟨a, _, ⟨hresult, rfl⟩, hrun⟩ :=
      hstage.passes fun other hother => hpassed other (List.mem_append_left _ hother)
    obtain ⟨b, later, hmade, hrunNext⟩ :=
      (hnext a hresult).passes fun other hother => hpassed other (List.mem_append_right _ hother)
    refine ⟨b, later, hmade, fun logs => ?_⟩
    rw [Stage.run_bind_ok (hrun logs), hrunNext, List.flatMap_append, List.append_assoc]

end Tries

/-! ### The stages of the command -/

section Stages

open Stage

variable {args : Args} {tree : FileTree} {text : String} (commentary : Toml.Commentary)

theorem run_loadConfig {config : Options} (h : Configured args tree config) (logs : List LogLine) :
    (loadConfig commentary args.config).run.run ⟨tree, logs⟩ =
      (.ok config, ⟨tree, logs ++ Phase.lines args .config⟩) := by
  rw [Configured] at h
  cases hconfig : args.config with
  | none =>
      rw [hconfig] at h
      rw [Phase.lines, hconfig, Option.isSome_none, if_neg Bool.false_ne_true, List.append_nil, h]
      rfl
  | some path =>
      rw [hconfig] at h
      obtain ⟨text, hread, hreadToml⟩ := h
      have hoptions : Options.ofToml commentary text = .ok config := congrArg (Except.mapError _) hreadToml
      rw [Phase.lines, hconfig, Option.isSome_some, if_pos rfl]
      exact (run_bind_ok (run_readFile_ok hread)).trans (run_bind_ok (run_check_ok hoptions _))

theorem tries_loadConfig (args : Args) (tree : FileTree) :
    Tries commentary args tree [.config] (loadConfig commentary args.config)
      fun config later => Configured args tree config ∧ later = tree := by
  apply Tries.of_phase
  · intro failure hfails
    refine ⟨tree, .refl _ _, fun logs => ?_⟩
    cases hfails with
    | config hconfig hread =>
        rw [hconfig]
        exact run_bind_error (run_readFile_error hread)
    | options hconfig hread hoptions =>
        rw [hconfig]
        exact (run_bind_ok (run_readFile_ok hread)).trans (run_bind_error (run_check_error hoptions _))
  · intro hpassed
    obtain ⟨config, hconfigured⟩ : ∃ config, Configured args tree config := by
      unfold Configured
      cases hconfig : args.config with
      | none => exact ⟨{}, rfl⟩
      | some path =>
          cases hread : tree.readText path with
          | error e => exact absurd (Fails.config hconfig hread) (hpassed _)
          | ok text =>
              cases hreadToml : Options.readToml text with
              | error place =>
                  have hoptions : Options.ofToml commentary text = .error (commentary.report text place) :=
                    congrArg (Except.mapError _) hreadToml
                  exact absurd (Fails.options hconfig hread hoptions) (hpassed _)
              | ok config => exact ⟨config, text, hread, hreadToml⟩
    exact ⟨config, tree, ⟨hconfigured, rfl⟩, run_loadConfig commentary hconfigured⟩

theorem tries_readInput (args : Args) (tree : FileTree) :
    Tries commentary args tree [.input] (readInput args.input)
      fun text later => tree.readText args.input = .ok text ∧ later = tree := by
  apply Tries.of_phase
  · intro failure hfails
    cases hfails with
    | input hread => exact ⟨tree, .refl _ _, fun logs => run_bind_error (run_readFile_error hread)⟩
  · intro hpassed
    cases hread : tree.readText args.input with
    | error e => exact absurd (Fails.input hread) (hpassed _)
    | ok text => exact ⟨text, tree, ⟨rfl, rfl⟩, fun logs => run_bind_ok (run_readFile_ok hread)⟩

theorem tries_decodeInput (hread : tree.readText args.input = .ok text) :
    Tries commentary args tree [.decode] (decodeInput args.input text)
      fun resource later => Json.decode text = .ok resource ∧ later = tree := by
  apply Tries.of_phase
  · intro failure hfails
    cases hfails with
    | decode hother hdecode =>
        cases hread.symm.trans hother
        have hresource : decodeResource text = .error (.json _) := congrArg (Except.mapError _) hdecode
        exact ⟨tree, .refl _ _, fun logs => run_bind_error (run_check_error hresource _)⟩
  · intro hpassed
    cases hdecode : Json.decode text with
    | error e => exact absurd (Fails.decode hread hdecode) (hpassed _)
    | ok resource =>
        have hresource : decodeResource text = .ok resource := congrArg (Except.mapError _) hdecode
        exact ⟨resource, tree, ⟨rfl, rfl⟩, fun logs => run_bind_ok (run_check_ok hresource _)⟩

theorem tries_makeAccessor {resource : Json.Value} (hread : tree.readText args.input = .ok text)
    (hdecode : Json.decode text = .ok resource) :
    Tries commentary args tree [.convert] (makeAccessor args.input resource)
      fun accessor later => Accessor.ofJson resource = .ok accessor ∧ later = tree := by
  apply Tries.of_phase
  · intro failure hfails
    cases hfails with
    | convert hother hdecoded hconvert =>
        cases hread.symm.trans hother
        cases hdecode.symm.trans hdecoded
        exact ⟨tree, .refl _ _, fun logs => run_check_error hconvert _⟩
  · intro hpassed
    cases hconvert : Accessor.ofJson resource with
    | error e => exact absurd (Fails.convert hread hdecode hconvert) (hpassed _)
    | ok accessor =>
        refine ⟨accessor, tree, ⟨rfl, rfl⟩, fun logs => ?_⟩
        rw [Phase.lines, List.append_nil]
        exact run_check_ok hconvert _

theorem tries_renderAccessor (args : Args) (tree : FileTree) (accessor : Accessor) (options : Options) :
    Tries commentary args tree [.generate] (renderAccessor accessor args.dumpAccessors options)
      fun text later => text = (if args.dumpAccessors then accessor.toJson.pretty ++ "\n"
        else accessor.render options) ∧ later = tree := by
  apply Tries.of_phase
  · intro failure hfails
    cases hfails
  · intro _
    refine ⟨_, tree, ⟨rfl, rfl⟩, fun logs => ?_⟩
    rw [Phase.lines]
    cases args.dumpAccessors with
    | true => rw [if_pos rfl, if_pos rfl, List.append_nil]; rfl
    | false =>
        rw [if_neg Bool.false_ne_true, if_neg Bool.false_ne_true, List.append_cons]
        rfl

theorem withParent_of_parent? {path parent : String} (hparent : FilePath.parent? path = some parent) :
    withParent tree path = tree.makeDirectories (FilePath.names parent).reverse := by
  rw [withParent, wayToParent, hparent, Option.map_some, Option.getD_some]

theorem run_makeParent_ok {path : String} {logs : List LogLine} (h : (withParent tree path).2 = none) :
    (makeParent path).run.run ⟨tree, logs⟩ = (.ok (), ⟨(withParent tree path).1, logs⟩) := by
  cases hparent : FilePath.parent? path with
  | none =>
      rw [withParent, wayToParent, hparent]
      simp only [makeParent, hparent]
      rfl
  | some parent =>
      rw [withParent_of_parent? hparent] at h ⊢
      simp only [makeParent, hparent]
      refine (run_bind_ok rfl).trans ((run_bind_ok rfl).trans ?_)
      simp only [h]
      rfl

theorem run_makeParent_error {path parent : String} {e : FileError} {logs : List LogLine}
    (hparent : FilePath.parent? path = some parent) (h : (withParent tree path).2 = some e) :
    (makeParent path).run.run ⟨tree, logs⟩ =
      (.error (.write parent e), ⟨(withParent tree path).1, logs⟩) := by
  rw [withParent_of_parent? hparent] at h ⊢
  simp only [makeParent, hparent]
  refine (run_bind_ok rfl).trans ((run_bind_ok rfl).trans ?_)
  simp only [h]
  rfl

theorem withParent_spec (tree : FileTree) (path : String) :
    FileTree.Extends (wayToParent path) tree (withParent tree path).1 ∧
      ((withParent tree path).2 = none → ∃ place,
        (withParent tree path).1.resolve (wayToParent path) [] = .ok place ∧
        (withParent tree path).1.lookup place = some .directory) := by
  have hspec := tree.makeDirectories_spec (wayToParent path).reverse
  rw [List.reverse_reverse] at hspec
  exact hspec

theorem run_writeFile_error {path : String} {e : FileError} {logs : List LogLine}
    (hmake : (withParent tree path).2 = none)
    (hwrite : (withParent tree path).1.writeText path text = .error e) :
    (writeFile path text).run.run ⟨tree, logs⟩ =
      (.error (.write path e), ⟨(withParent tree path).1, logs⟩) := by
  refine (run_bind_ok (run_makeParent_ok hmake)).trans ?_
  exact (run_bind_ok rfl).trans (run_bind_error (run_check_error hwrite _))

theorem run_writeFile_ok {path : String} {later : FileTree} {logs : List LogLine}
    (hmake : (withParent tree path).2 = none)
    (hwrite : (withParent tree path).1.writeText path text = .ok later) :
    (writeFile path text).run.run ⟨tree, logs⟩ =
      (.ok (), ⟨later, logs ++ [⟨.info, "Wrote generated file."⟩]⟩) := by
  refine (run_bind_ok (run_makeParent_ok hmake)).trans ?_
  exact (run_bind_ok rfl).trans (run_bind_ok (run_check_ok hwrite _))

theorem written_of_writeText {path : String} {later : FileTree} (hmake : (withParent tree path).2 = none)
    (hwrite : (withParent tree path).1.writeText path text = .ok later) : Written tree path text later := by
  obtain ⟨hextends, hparent⟩ := withParent_spec tree path
  obtain ⟨directory, hway, hdirectory⟩ := hparent hmake
  obtain ⟨hread, place, hplace, hne, hfile, hsame, hways⟩ := FileTree.writeText_eq_ok hwrite
  have hother : directory ≠ place := by
    rintro rfl
    exact hne hdirectory
  refine ⟨hread, ⟨directory, hways _ _ hway, ?_⟩, place, hplace, hfile, fun other h => ?_⟩
  · rw [hsame directory hother, hdirectory]
  · rw [hsame other h]
    rcases hextends other with hsame | ⟨hnone, hdirectory, way, hprefix, hresolve⟩
    · exact Or.inl hsame
    · exact Or.inr ⟨hnone, hdirectory, way, hprefix, hways _ _ hresolve⟩

theorem tries_deliver (args : Args) (tree : FileTree) (text : String) :
    Tries commentary args tree [.write] (deliver args.output text) (Delivered args tree text) := by
  apply Tries.of_phase
  · intro failure hfails
    cases hfails with
    | directory houtput hparent hmake =>
        rename_i path parent e
        refine ⟨(withParent tree path).1, ?_, fun logs => ?_⟩
        · rw [wayToOutput, houtput]
          exact (withParent_spec tree path).1
        · rw [houtput]
          exact run_bind_error (run_bind_error (run_makeParent_error hparent hmake))
    | write houtput hmake hwrite =>
        rename_i path other e
        refine ⟨(withParent tree path).1, ?_, fun logs => ?_⟩
        · rw [wayToOutput, houtput]
          exact (withParent_spec tree path).1
        · have hwrite := FileTree.writeText_eq_error hwrite text
          rw [houtput]
          exact run_bind_error (run_writeFile_error hmake hwrite)
  · intro hpassed
    cases houtput : args.output with
    | none =>
        refine ⟨text, tree, by rw [Delivered, houtput]; exact ⟨rfl, rfl⟩, fun logs => ?_⟩
        rw [Phase.lines, houtput, Option.isSome_none, if_neg Bool.false_ne_true, List.append_nil]
        rfl
    | some path =>
        cases hmake : (withParent tree path).2 with
        | some e =>
            cases hparent : FilePath.parent? path with
            | none =>
                rw [withParent, wayToParent, hparent] at hmake
                cases hmake
            | some parent => exact absurd (Fails.directory houtput hparent hmake) (hpassed _)
        | none =>
            cases hwrite : (withParent tree path).1.writeText path text with
            | error e => exact absurd (Fails.write houtput hmake hwrite) (hpassed _)
            | ok later =>
                refine ⟨"", later, ?_, fun logs => ?_⟩
                · rw [Delivered, houtput]
                  exact ⟨rfl, written_of_writeText hmake hwrite⟩
                · rw [Phase.lines, houtput, Option.isSome_some, if_pos rfl]
                  exact run_bind_ok (run_writeFile_ok hmake hwrite)

/-- What the stages of a run make when none fails. -/
def Made (args : Args) (tree : FileTree) (stdout : String) (later : FileTree) : Prop :=
  ∃ source config text, tree.readText args.input = .ok source ∧ Configured args tree config ∧
    rendering args source (config.override args) = .ok text ∧ Delivered args tree text stdout later

theorem rendering_eq_ok {source : String} {resource : Json.Value} {accessor : Accessor}
    (hdecode : Json.decode source = .ok resource) (hconvert : Accessor.ofJson resource = .ok accessor)
    (args : Args) (options : Options) :
    rendering args source options =
      .ok (if args.dumpAccessors then accessor.toJson.pretty ++ "\n" else accessor.render options) := by
  have haccessor : accessorOf source = .ok accessor := by
    rw [accessorOf, decodeResource, hdecode]
    exact congrArg (Except.mapError _) hconvert
  rw [rendering, compile, haccessor]
  cases args.dumpAccessors <;> rfl

theorem tries_stages (args : Args) (tree : FileTree) :
    Tries commentary args tree Phase.order (stages commentary args) (Made args tree) := by
  refine (tries_loadConfig commentary args tree).bind fun config hconfig => ?_
  refine (tries_readInput commentary args tree).bind fun source hread => ?_
  refine (tries_decodeInput commentary hread).bind fun resource hdecode => ?_
  refine (tries_makeAccessor commentary hread hdecode).bind fun accessor hconvert => ?_
  refine (tries_renderAccessor commentary args tree accessor (config.override args)).bind
    fun text htext => ?_
  refine (tries_deliver commentary args tree text).imp fun stdout later hdelivered => ?_
  exact ⟨source, config, text, hread, hconfig, htext ▸ rendering_eq_ok hdecode hconvert args _, hdelivered⟩

/-! ### Runs -/

/-- The lines of a log that are shown. -/
def shown (args : Args) (logs : List LogLine) : List LogLine :=
  logs.filter fun line => args.verbose || line.level == .info

/-- A run that stopped at a failure after some stages: what it tells has the path and the cause, in one line
but for the report on a configuration; nothing is delivered, and the files are the same. -/
structure StoppedBy (args : Args) (tree : FileTree) (before : List Phase) (failure : Failure)
    (outcome : Outcome) : Prop where
  status : outcome.status = 1
  stdout : outcome.stdout = ""
  stderr : outcome.stderr =
    "Error: " ++ (failure.lead ++ failure.path ++ ": " ++ failure.cause) ++ "\n"
  -- there is no line end in what is told but those of the path itself and the last one
  lines : (∀ path report, failure ≠ .config path report) →
    outcome.stderr.toList.count '\n' = failure.path.toList.count '\n' + 1
  logs : outcome.logs = shown args (before.flatMap (Phase.lines args))
  files : ∀ place content,
    outcome.tree.lookup place = some (.file content) ↔ tree.lookup place = some (.file content)
  directories : FileTree.Extends (wayToOutput args) tree outcome.tree

/-- A run that delivered the text for its resource. -/
structure Delivers (args : Args) (tree : FileTree) (outcome : Outcome) : Prop where
  status : outcome.status = 0
  stderr : outcome.stderr = ""
  logs : outcome.logs = shown args (Phase.order.flatMap (Phase.lines args))
  made : Made args tree outcome.stdout outcome.tree

theorem Fails.lineEnd_not_mem_cause {commentary : Toml.Commentary} {phase : Phase} {failure : Failure}
    (h : Fails commentary args tree phase failure)
    (hconfig : ∀ path report, failure ≠ .config path report) : '\n' ∉ failure.cause.toList := by
  refine Failure.lineEnd_not_mem_cause hconfig fun path e hfailure => ?_
  subst hfailure
  cases h with
  | decode hread hdecode => exact ⟨_, hdecode⟩

/-- The report of a failure whose cause is one line. -/
theorem count_lineEnd_report {failure : Failure} (hcause : '\n' ∉ failure.cause.toList) :
    ("Error: " ++ (failure.lead ++ failure.path ++ ": " ++ failure.cause) ++ "\n").toList.count '\n' =
      failure.path.toList.count '\n' + 1 := by
  have hlead := failure.lineEnd_not_mem_lead
  have herror : "Error: ".toList.count '\n' = 0 := by decide
  have hcolon : ": ".toList.count '\n' = 0 := by decide
  have hend : "\n".toList.count '\n' = 1 := by decide
  simp only [String.toList_append, List.count_append, List.count_eq_zero_of_not_mem hlead,
    List.count_eq_zero_of_not_mem hcause, herror, hcolon, hend]
  omega

/-- A text of one line, with its line end. -/
def IsLine (text : String) : Prop := ∃ line : String, '\n' ∉ line.toList ∧ text = line ++ "\n"

theorem not_isLine_of_mem {text : String} (h : '\n' ∈ text.toList) : ¬IsLine (text ++ "\n") := by
  rintro ⟨line, hline, heq⟩
  rw [(String.append_left_inj _).1 heq] at h
  exact hline h

theorem run_of_parse {words : List String} (h : Args.parse words = .ok args) (tree : FileTree) :
    run words tree commentary = execute commentary args tree := by
  rw [run, h]

/-- The stages are tried in order. A run stops at the first that fails, tells its path and its cause, and
delivers nothing; a run in which no stage fails delivers the text for its resource. -/
theorem run_stages {words : List String} (h : Args.parse words = .ok args) (tree : FileTree) :
    (∀ before phase after failure, Phase.order = before ++ phase :: after →
      Passed commentary args tree before → Fails commentary args tree phase failure →
      StoppedBy args tree before failure (run words tree commentary)) ∧
    (Passed commentary args tree Phase.order → Delivers args tree (run words tree commentary)) := by
  rw [run_of_parse commentary h]
  constructor
  · intro before phase after failure horder hpassed hfails
    obtain ⟨later, hextends, hrun⟩ :=
      (tries_stages commentary args tree).stops before phase after failure horder hpassed hfails
    have hexecute : execute commentary args tree =
        { status := 1, stderr := "Error: " ++ failure.message ++ "\n",
          logs := shown args (before.flatMap (Phase.lines args)), tree := later } := by
      rw [execute, hrun]
      rfl
    rw [hexecute]
    exact ⟨rfl, rfl, rfl, fun hconfig => count_lineEnd_report (hfails.lineEnd_not_mem_cause hconfig), rfl,
      fun place => hextends.lookup_file_iff, hextends⟩
  · intro hpassed
    obtain ⟨stdout, later, hmade, hrun⟩ := (tries_stages commentary args tree).passes hpassed
    have hexecute : execute commentary args tree =
        { status := 0, stdout, logs := shown args (Phase.order.flatMap (Phase.lines args)),
          tree := later } := by
      rw [execute, hrun]
      rfl
    rw [hexecute]
    exact ⟨rfl, rfl, rfl, hmade⟩

/-- Of several faults the first alone is told: the configuration has a key that is no option, a resource breaks
off, and a file stands where the output has its directory. A resource without a fault is delivered to a
directory that is made for it. -/
theorem run_stages_output :
    let commentary : Toml.Commentary :=
      ⟨fun _ => "  |\n1 | default_exports = true\n  | ^^^^^^^^^^^^^^^\n",
        fun _ => "unknown field `default_exports`, expected `default_export` or `banner`"⟩
    let words := ["en.json", "--output", "out/en.ts", "--config", "c.toml"]
    let args : Args := ⟨"en.json", some "out/en.ts", none, none, some "c.toml", false, false⟩
    let files (config resource : String) : FileTree :=
      ⟨[(["en.json"], .file resource.toUTF8), (["c.toml"], .file config.toUTF8), (["out"], .file .empty)]⟩
    let invalid : FileTree := files "default_exports = true\n" "["
    let broken : FileTree := files "default_export = true\n" "["
    let sound : FileTree :=
      ⟨[(["en.json"], .file "true".toUTF8), (["c.toml"], .file "default_export = true\n".toUTF8)]⟩
    Args.parse words = .ok args ∧ Fails commentary args invalid .write (.write "out" .exists) ∧
      Fails commentary args broken .write (.write "out" .exists) ∧
      StoppedBy args invalid []
        (.config "c.toml" (commentary.report "default_exports = true\n" ⟨1, 1⟩))
        (run words invalid commentary) ∧
      StoppedBy args broken [.config, .input] (.resource "en.json" (.json ⟨.endInList, ⟨1, 1⟩⟩))
        (run words broken commentary) ∧
      Delivers args sound (run words sound commentary) := by
  refine ⟨rfl, .directory rfl rfl (by decide +kernel), .directory rfl rfl (by decide +kernel), ?_, ?_, ?_⟩
  · refine (run_stages _ rfl _).1 [] .config [.input, .decode, .convert, .generate, .write] _ rfl ?_
      (.options rfl (show _ = Except.ok "default_exports = true\n" from rfl) rfl)
    intro phase hphase
    cases hphase
  · refine (run_stages _ rfl _).1 [.config, .input] .decode [.convert, .generate, .write] _ rfl ?_
      (.decode (show _ = Except.ok "[" from rfl) rfl)
    intro phase hphase failure hfails
    cases hfails with
    | config hconfig hread =>
        cases hconfig
        cases hread
    | options hconfig hread hoptions =>
        cases hconfig
        cases hread
        cases hoptions
    | input hread => cases hread
    | decode | convert | directory | write => simp at hphase
  · refine (run_stages _ rfl _).2 fun phase _ failure hfails => ?_
    cases hfails with
    | config hconfig hread =>
        cases hconfig
        cases hread
    | options hconfig hread hoptions =>
        cases hconfig
        cases hread
        cases hoptions
    | input hread => cases hread
    | decode hread hdecode =>
        cases hread
        cases hdecode
    | convert hread hdecode hconvert =>
        cases hread
        cases hdecode
        cases hconvert
    | directory houtput hparent hmake =>
        cases houtput
        cases hparent
        cases hmake
    | write houtput hmake hwrite =>
        cases houtput
        cases hwrite

/-- What is told of an invalid configuration is not one line, nor is a message with a path that has a line feed
in it. -/
theorem run_stages_several_lines :
    let commentary : Toml.Commentary :=
      ⟨fun _ => "  |\n1 | default_exports = true\n  | ^^^^^^^^^^^^^^^\n",
        fun _ => "unknown field `default_exports`, expected `default_export` or `banner`"⟩
    let words := ["en.json", "--config", "c.toml"]
    let args : Args := ⟨"en.json", none, none, none, some "c.toml", false, false⟩
    let tree : FileTree :=
      ⟨[(["en.json"], .file "true".toUTF8), (["c.toml"], .file "default_exports = true\n".toUTF8)]⟩
    let report := commentary.report "default_exports = true\n" ⟨1, 1⟩
    let told := (run words tree commentary).stderr
    let missing := (run ["a\nb.json"] ⟨[]⟩ commentary).stderr
    Args.parse words = .ok args ∧ Fails commentary args tree .config (.config "c.toml" report) ∧
      told = "Error: invalid config file c.toml: TOML parse error at line 1, column 1\n" ++
        "  |\n1 | default_exports = true\n  | ^^^^^^^^^^^^^^^\n" ++
        "unknown field `default_exports`, expected `default_export` or `banner`\n" ++ "\n" ∧
      ¬IsLine told ∧
      missing = "Error: failed to read a\nb.json: No such file or directory (os error 2)" ++ "\n" ∧
      ¬IsLine missing := by
  intro commentary words args tree report told missing
  have hread : tree.readText "c.toml" = .ok "default_exports = true\n" := rfl
  have htold : told = "Error: invalid config file c.toml: TOML parse error at line 1, column 1\n" ++
      "  |\n1 | default_exports = true\n  | ^^^^^^^^^^^^^^^\n" ++
      "unknown field `default_exports`, expected `default_export` or `banner`\n" ++ "\n" := by
    decide +kernel
  have hmissing : missing =
      "Error: failed to read a\nb.json: No such file or directory (os error 2)" ++ "\n" := by
    decide +kernel
  refine ⟨rfl, .options rfl hread rfl, htold, ?_, hmissing, ?_⟩
  · have hfirst :
        '\n' ∈ "Error: invalid config file c.toml: TOML parse error at line 1, column 1\n".toList := by simp
    rw [htold]
    exact not_isLine_of_mem (by simp only [String.toList_append, List.mem_append, hfirst, true_or])
  · rw [hmissing]
    exact not_isLine_of_mem (by simp)

end Stages

end Phrasebook.Cli
