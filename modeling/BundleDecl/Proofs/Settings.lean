import Mathlib
import BundleDecl.Proofs.Failure
import BundleDecl.Proofs.Text.UpperCase
import BundleDecl.Settings

/-!
# Precedence of settings

Each setting is the first one that is set, of the command line, the environment, the configuration
and the default. The configuration is that of the file that was asked for, or else of the first
default file that holds a mapping. What was settled once stays as it is.
-/

namespace BundleDecl

namespace Settings

/-! ## The first of some values -/

/-- A value sets nothing: it is missing, or it is white space. -/
def Unset (value : Option Text) : Prop :=
  ∀ text ∈ value, text.all Text.isWhiteSpace = true

/-- Of some values the first that sets something, without the white space around it. -/
def First (values : List (Option Text)) (kept : Text) : Prop :=
  ∃ before text after, values = before ++ some text :: after ∧ (∀ value ∈ before, Unset value) ∧
    Text.Trims text kept

theorem nonBlank?_eq_some_iff {text kept : Text} :
    nonBlank? text = some kept ↔ Text.Trims text kept := by
  rw [nonBlank?]
  constructor
  · intro found
    split at found
    · contradiction
    · rename_i visible
      rw [← Option.some.inj found]
      exact Text.trims_strip visible
  · intro trims
    rw [trims.strip_eq]
    cases kept with
    | nil => exact absurd rfl trims.ne_nil
    | cons first rest => rfl

theorem nonBlank?_eq_none_iff {text : Text} :
    nonBlank? text = none ↔ text.all Text.isWhiteSpace = true := by
  rw [← Text.strip_eq_nil_iff, nonBlank?]
  split <;> simp_all

theorem bind_nonBlank?_eq_none_iff {value : Option Text} :
    value.bind nonBlank? = none ↔ Unset value := by
  cases value with
  | none => simp [Unset]
  | some text => simp [Unset, nonBlank?_eq_none_iff]

theorem firstSet_eq_some_iff {values : List (Option Text)} {kept : Text} :
    firstSet values = some kept ↔ First values kept := by
  simp only [firstSet, List.findSome?_eq_some_iff, bind_nonBlank?_eq_none_iff,
    Option.bind_eq_some_iff, nonBlank?_eq_some_iff, First]
  constructor
  · rintro ⟨before, _, after, split, ⟨text, rfl, trims⟩, unset⟩
    exact ⟨before, text, after, split, unset, trims⟩
  · rintro ⟨before, text, after, split, unset, trims⟩
    exact ⟨before, some text, after, split, ⟨text, rfl, trims⟩, unset⟩

theorem firstSet_eq_none_iff {values : List (Option Text)} :
    firstSet values = none ↔ ∀ value ∈ values, Unset value := by
  simp only [firstSet, List.findSome?_eq_none_iff, bind_nonBlank?_eq_none_iff]

/-- A default is taken if no value sets anything. -/
theorem first_getD (values : List (Option Text)) {fallback : Text}
    (trims : Text.Trims fallback fallback) :
    First (values ++ [some fallback]) ((firstSet values).getD fallback) := by
  cases found : firstSet values with
  | some kept =>
      rcases firstSet_eq_some_iff.1 found with ⟨before, text, after, rfl, unset, trims⟩
      exact ⟨before, text, after ++ [some fallback], by simp, unset, trims⟩
  | none => exact ⟨values, fallback, [], rfl, firstSet_eq_none_iff.1 found, trims⟩

/-- What was settled is settled again, whatever comes after it. -/
theorem firstSet_cons_of_trims {kept : Text} (trims : Text.Trims kept kept)
    (others : List (Option Text)) : firstSet (some kept :: others) = some kept :=
  firstSet_eq_some_iff.2 ⟨[], kept, others, rfl, List.forall_mem_nil _, trims⟩

/-- The first of some values is the first again in place of the foremost one. -/
theorem firstSet_firstSet (given : Option Text) (others : List (Option Text)) :
    firstSet (firstSet (given :: others) :: others) = firstSet (given :: others) := by
  cases found : firstSet (given :: others) with
  | some kept =>
      rcases firstSet_eq_some_iff.1 found with ⟨_, _, _, _, _, trims⟩
      exact firstSet_cons_of_trims trims.self others
  | none =>
      rw [firstSet_eq_none_iff, List.forall_mem_cons] at found ⊢
      exact ⟨nofun, found.2⟩

end Settings

namespace Configuration

open Settings

variable {host : Host} {tree : FileTree} {config : Config}

/-! ## The configuration file -/

/-- A default file exists and holds a value. -/
def Holds (host : Host) (tree : FileTree) (path : Path) (value : Yaml.Value) : Prop :=
  ∃ content, tree.contentAt? path = some (.ok content) ∧
    (textOf content >>= yamlOf host) = .ok value

/-- A default file is passed over: it does not exist, or it holds something else than a mapping. -/
def PassedOver (host : Host) (tree : FileTree) (path : Path) : Prop :=
  tree.contentAt? path = none ∨
    ∃ value, Holds host tree path value ∧ ∀ members, value ≠ .mapping members

/-- The first of some default files that holds a mapping has the configuration, which is empty if
all of them are passed over. -/
def Default (host : Host) (tree : FileTree) (paths : List Path) (config : Config) : Prop :=
  (∃ before path after, paths = before ++ path :: after ∧
    (∀ earlier ∈ before, PassedOver host tree earlier) ∧ Holds host tree path (.mapping config)) ∨
  (∀ path ∈ paths, PassedOver host tree path) ∧ config = []

/-- A file that was asked for has the configuration. An empty file has an empty one. -/
def Asked (host : Host) (tree : FileTree) (name : Text) (config : Config) : Prop :=
  ∃ content value, tree.read name = .ok content ∧
    (textOf content >>= if isJsonName name then jsonOf host else yamlOf host) = .ok value ∧
    (value = .mapping config ∨ value = .scalar .null ∧ config = [])

/-- A file is asked for by a name that is not blank; otherwise the default files are looked for in
the working directory and in the home directory, under either name. -/
def Provided (host : Host) (tree : FileTree) (name : Option Text) (config : Config) : Prop :=
  (∃ text, name = some text ∧ ¬Unset name ∧ Asked host tree text config) ∨
  Unset name ∧ Default host tree
    [tree.directory ++ ["nestdeps.yml".toList], tree.directory ++ ["nestdeps.yaml".toList],
      tree.home ++ [".config".toList, "nestdeps".toList, "nestdeps.yml".toList],
      tree.home ++ [".config".toList, "nestdeps".toList, "nestdeps.yaml".toList]] config

theorem ofFile_eq_ok_iff {name : Text} :
    ofFile host tree name = .ok config ↔ Asked host tree name config := by
  simp only [ofFile, bind_eq_ok_iff, mapError_eq_ok_iff, Asked, exists_and_left]
  apply exists_congr
  intro content
  apply and_congr_right
  intro _
  apply exists_congr
  intro value
  apply and_congr_right
  intro _
  split
  · rw [pure_eq_ok_iff]
    simp [eq_comm]
  · simp
  · rename_i noNull noMapping
    constructor
    · nofun
    · rintro (rfl | ⟨rfl, rfl⟩)
      · exact absurd rfl (noMapping config)
      · exact absurd rfl noNull

/-- The first default file has the configuration, or it is passed over and one of the others has. -/
theorem default_cons_iff {path : Path} {rest : List Path} :
    Default host tree (path :: rest) config ↔
      Holds host tree path (.mapping config) ∨
        PassedOver host tree path ∧ Default host tree rest config := by
  constructor
  · rintro (⟨before, found, after, split, passed, holds⟩ | ⟨passed, rfl⟩)
    · cases before with
      | nil =>
          rcases List.cons.inj split with ⟨rfl, -⟩
          exact .inl holds
      | cons first before =>
          rcases List.cons.inj split with ⟨rfl, rfl⟩
          rw [List.forall_mem_cons] at passed
          exact .inr ⟨passed.1, .inl ⟨before, found, after, rfl, passed.2, holds⟩⟩
    · rw [List.forall_mem_cons] at passed
      exact .inr ⟨passed.1, .inr ⟨passed.2, rfl⟩⟩
  · rintro (holds | ⟨first, ⟨before, found, after, rfl, passed, holds⟩ | ⟨passed, rfl⟩⟩)
    · exact .inl ⟨[], path, rest, rfl, List.forall_mem_nil _, holds⟩
    · exact .inl ⟨path :: before, found, after, rfl, List.forall_mem_cons.2 ⟨first, passed⟩, holds⟩
    · exact .inr ⟨List.forall_mem_cons.2 ⟨first, passed⟩, rfl⟩

/-- A file holds one value at most. -/
theorem holds_iff_of_file {path : Path} {content : List UInt8} {value : Yaml.Value}
    (file : tree.contentAt? path = some (.ok content)) :
    Holds host tree path value ↔ (textOf content >>= yamlOf host) = .ok value := by
  simp [Holds, file]

theorem passedOver_iff_of_file {path : Path} {content : List UInt8}
    (file : tree.contentAt? path = some (.ok content)) :
    PassedOver host tree path ↔
      ∃ value, (textOf content >>= yamlOf host) = .ok value ∧
        ∀ members, value ≠ .mapping members := by
  simp [PassedOver, file, holds_iff_of_file file]

theorem ofDefaults_result_eq_ok_iff {paths : List Path} :
    (ofDefaults host tree paths).result = .ok config ↔ Default host tree paths config := by
  induction paths with
  | nil => simp [ofDefaults, Default, eq_comm]
  | cons path rest ih =>
      rw [ofDefaults, default_cons_iff, ← ih]
      split
      · rename_i noFile
        simp [PassedOver, Holds, noFile]
      · rename_i problem unread
        simp [PassedOver, Holds, unread]
      · rename_i content file
        rw [holds_iff_of_file file, passedOver_iff_of_file file]
        split
        · rename_i problem malformed
          simp [malformed]
        · rename_i members held
          simp [held]
        · rename_i value noMapping held
          have other (members : Config) : (value = .mapping members) = False :=
            eq_false (noMapping members)
          simp [held, passing, other]

/-- A configuration is found if and only if a file provides it. -/
theorem load_result_eq_ok_iff {name : Option Text} :
    (load host tree name).result = .ok config ↔ Provided host tree name config := by
  have asks : (name.filter fun text => (nonBlank? text).isSome) = none ↔ Unset name := by
    simp [Option.filter_eq_none_iff, Unset, nonBlank?_eq_none_iff]
  rw [load, Provided, ← asks]
  split
  · rename_i text asked
    rw [Option.filter_eq_some_iff] at asked
    have visible : nonBlank? text ≠ none := Option.isSome_iff_ne_none.1 asked.2
    simp [asked.1, visible, ofFile_eq_ok_iff]
  · rename_i none
    rw [ofDefaults_result_eq_ok_iff]
    simp [none, defaultPaths, fileNames]

end Configuration

namespace Settings

variable (environment : Environment) (config : Config)

/-! ## Settings -/

/-- The values for the log level, the first of which counts. -/
def logLevels (given : Option Text) : List (Option Text) :=
  [given, environment.logLevel, ofConfig "log_level" config, some "INFO".toList]

/-- The values for the declaring bundle, the first of which counts. -/
def declaringTexts (given : Option Text) : List (Option Text) :=
  [given, environment.declaring, ofConfig "declaring_identifier" config]

theorem exists_first_logLevel (logLevel : Option Text) (declaring : Option (Option Text)) :
    ∃ level, First (logLevels environment config logLevel) level ∧
      (resolve environment config logLevel declaring).logLevel = Text.upper level := by
  have trims : Text.Trims "INFO".toList "INFO".toList := Text.trims_strip (by decide)
  exact ⟨_, first_getD [logLevel, environment.logLevel, ofConfig "log_level" config] trims, rfl⟩

/-- Settings are settled: they result again if they are given in place of what was given. -/
theorem resolve_resolve (logLevel : Option Text) (declaring : Option (Option Text)) :
    resolve environment config (some (resolve environment config logLevel declaring).logLevel)
        (resolve environment config logLevel declaring).declaring =
      resolve environment config logLevel declaring := by
  have sameLevel : (resolve environment config
      (some (resolve environment config logLevel declaring).logLevel)
      (resolve environment config logLevel declaring).declaring).logLevel =
        (resolve environment config logLevel declaring).logLevel := by
    rcases exists_first_logLevel environment config logLevel declaring with
      ⟨level, ⟨_, _, _, _, _, trims⟩, settled⟩
    rw [settled, resolve, firstSet_cons_of_trims trims.upper, Option.getD_some, Text.upper_upper]
  have sameDeclaring : (resolve environment config
      (some (resolve environment config logLevel declaring).logLevel)
      (resolve environment config logLevel declaring).declaring).declaring =
        (resolve environment config logLevel declaring).declaring := by
    cases declaring with
    | none => rfl
    | some given => exact congrArg some (firstSet_firstSet given _)
  exact congrArg₂ Settings.mk sameLevel sameDeclaring

theorem declaring_resolve (logLevel given : Option Text) :
    (∃ kept, First (declaringTexts environment config given) kept ∧
      (resolve environment config logLevel (some given)).declaring = some (some kept)) ∨
    (∀ value ∈ declaringTexts environment config given, Unset value) ∧
      (resolve environment config logLevel (some given)).declaring = some none := by
  cases found : firstSet (declaringTexts environment config given) with
  | some kept => exact .inl ⟨kept, firstSet_eq_some_iff.1 found, congrArg some found⟩
  | none => exact .inr ⟨firstSet_eq_none_iff.1 found, congrArg some found⟩

/-- A mapping of one member to a text that is written as such. -/
theorem ofNode_mapping_singleton (content : Text) {key : Yaml.Node} {name : Yaml.Scalar}
    (named : Yaml.Value.keyOf key = .ok name) (plain : Yaml.Value.isMergeKey key = false) :
    Yaml.Value.ofNode (.mapping none [(key, .scalar .text content)]) =
      .ok (.mapping [(name, .scalar (.text content))]) := by
  have mergeable : Yaml.Value.isMergeable [(key, .scalar .text content)] = true := by
    rw [Yaml.Value.isMergeable, plain, Yaml.Value.isMergeable]
    rfl
  have merged : Yaml.Value.mergedMembers [(key, .scalar .text content)] = .ok [] := by
    rw [Yaml.Value.mergedMembers, plain, Yaml.Value.mergedMembers]
    rfl
  have value : Yaml.Value.ofNode (.scalar .text content) = .ok (.scalar (.text content)) := by
    rw [Yaml.Value.ofNode]
    rfl
  have own : Yaml.Value.ownMembers [(key, .scalar .text content)] =
      .ok [(name, .scalar (.text content))] := by
    rw [Yaml.Value.ownMembers, plain, named, value, Yaml.Value.ownMembers]
    rfl
  rw [Yaml.Value.ofNode, Yaml.Value.membersOf, mergeable, merged, own]
  rfl

/-- A line that sets the log level. -/
theorem yamlOf_logLevel : Configuration.yamlOf .usual "'log_level': ' debug'" =
    .ok (.mapping [(.text "log_level", .scalar (.text " debug"))]) := by
  have node : Yaml.Node.ofText? "'log_level': ' debug'" = .ok (some (.mapping none
      [(.scalar .text "log_level", .scalar .text " debug")])) := by cbv
  have key : Yaml.Value.keyOf (.scalar .text "log_level") = .ok (.text "log_level") := by cbv
  have value := ofNode_mapping_singleton " debug" key (by cbv)
  have read : Yaml.Value.ofText? "'log_level': ' debug'" =
      .ok (some (.mapping [(.text "log_level", .scalar (.text " debug"))])) := by
    rw [Yaml.Value.ofText?, if_pos (by decide +kernel), node]
    exact congrArg (fun checked => some <$> checked.toExcept) value
  rw [Configuration.yamlOf, read]
  rfl

/-- How the settings of a command result from what is given, from the environment and from the file
that provides the configuration. -/
structure Precedence (host : Host) (tree : FileTree) (name : Option Text)
    (environment : Environment) (logLevel : Option Text) (declaring : Option (Option Text)) :
    Prop where
  /-- The configuration is found exactly if the file that was asked for, or else the first default
  file that holds a mapping, provides it. -/
  config : ∀ config, (Configuration.load host tree name).result = .ok config ↔
    Configuration.Provided host tree name config
  /-- The log level is the first that is set, in upper case. -/
  level : ∀ config, (Configuration.load host tree name).result = .ok config →
    ∃ level, First (logLevels environment config logLevel) level ∧
      (resolve environment config logLevel declaring).logLevel = Text.upper level
  /-- A command without this setting does not gain it. -/
  lacking : ∀ config, declaring = none →
    (resolve environment config logLevel declaring).declaring = none
  /-- The declaring bundle is the first that is set, if any. -/
  bundle : ∀ config, (Configuration.load host tree name).result = .ok config →
    ∀ given, declaring = some given →
      (∃ kept, First (declaringTexts environment config given) kept ∧
        (resolve environment config logLevel declaring).declaring = some (some kept)) ∨
      (∀ value ∈ declaringTexts environment config given, Unset value) ∧
        (resolve environment config logLevel declaring).declaring = some none
  /-- Given again, the settings stay as they are. -/
  again : ∀ config, (Configuration.load host tree name).result = .ok config →
    resolve environment config (some (resolve environment config logLevel declaring).logLevel)
        (resolve environment config logLevel declaring).declaring =
      resolve environment config logLevel declaring

/-- The configuration is what the right file provides, and of the values that are set the first one
counts. -/
theorem resolve_precedence (host : Host) (tree : FileTree) (name : Option Text)
    (environment : Environment) (logLevel : Option Text) (declaring : Option (Option Text)) :
    Precedence host tree name environment logLevel declaring where
  config _ := Configuration.load_result_eq_ok_iff
  level config _ := exists_first_logLevel environment config logLevel declaring
  lacking config := by
    rintro rfl
    rfl
  bundle config _ := by
    rintro given rfl
    exact declaring_resolve environment config logLevel given
  again config _ := resolve_resolve environment config logLevel declaring

/-- A default file without a mapping is passed over, and so is a missing one after it. -/
theorem resolve_precedence_passed_over :
    let tree : FileTree := ⟨[(["w"], .directory),
      (["w", "nestdeps.yml"], .file (Text.Utf8.encode "[]")),
      (["h", ".config", "nestdeps", "nestdeps.yml"],
        .file (Text.Utf8.encode "'log_level': ' debug'"))], ["w"], ["h"], []⟩
    let config : Config := [(.text "log_level", .scalar (.text " debug"))]
    let settings := resolve ⟨some " \t", some "b-v2 "⟩ config none (some none)
    (Configuration.load .usual tree (some " ")).result = .ok config ∧
      settings = ⟨"DEBUG", some (some "b-v2")⟩ ∧
      resolve ⟨some " \t", some "b-v2 "⟩ config (some settings.logLevel) settings.declaring =
        settings := by
  intro tree config settings
  have precedence :=
    resolve_precedence .usual tree (some " ") ⟨some " \t", some "b-v2 "⟩ none (some none)
  have listed : Configuration.Holds .usual tree ["w", "nestdeps.yml"]
      (.sequence []) := ⟨_, rfl, by cbv⟩
  have held : Configuration.Holds .usual tree ["h", ".config", "nestdeps", "nestdeps.yml"]
      (.mapping config) := by
    have decoded : Configuration.textOf (Text.Utf8.encode "'log_level': ' debug'") =
        .ok "'log_level': ' debug'" := by cbv
    exact ⟨_, rfl, by rw [decoded]; exact yamlOf_logLevel⟩
  have loaded : (Configuration.load .usual tree (some " ")).result = .ok config := by
    rw [precedence.config]
    refine .inr ⟨by simp [Unset, Text.isWhiteSpace, Text.whiteSpaceRanges], .inl
      ⟨[["w", "nestdeps.yml"], ["w", "nestdeps.yaml"]], _, [_], rfl, ?_, held⟩⟩
    rw [List.forall_mem_cons, List.forall_mem_singleton]
    refine ⟨.inr ⟨_, listed, ?_⟩, .inl rfl⟩
    intro members same
    contradiction
  exact ⟨loaded, by decide +kernel, precedence.again config loaded⟩

end Settings

end BundleDecl
