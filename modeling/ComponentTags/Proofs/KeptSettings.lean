import ComponentTags.Proofs.ValidSettings
import ComponentTags.Settings.Session

/-!
# The settings that a session keeps

The first load of a session that succeeds decides about all later ones: they give the settings that it gave,
whether they ask for a check or not. So a load that is checked gives valid settings unless the session started
with an unchecked load, and that gave settings that break the rules.
-/

namespace ComponentTags.Settings

/-- Whether an action asks for the settings of its session and, if so, whether for checked ones. -/
def Action.asks? : Action → Option Bool
  | .load checked => some checked
  | .spelling | .registry _ | .compile .. => some true
  | .loadAnew _ | .findFile | .fileSettings _ | .putFile .. | .removeFile _ | .setVariable .. => none

section

variable [Services]

/-- What a load gives if the project has no settings file and every variable takes effect. -/
theorem load_of_findFile_eq_none {tree : FileTree} {environment : Environment} {project : Project}
    {checked : Bool} {fields : Fields} {applied : List String} (hfile : project.findFile tree = .ok none)
    (henvironment : applyEnvironment defaults environment = ⟨fields, applied, none⟩)
    (hvalid : checked = true → Valid fields) :
    (load tree environment project checked).result = .ok fields := by
  have files : (loadFiles tree project).result = .ok (.ofFields defaults) :=
    congrArg Logged.result (loadFiles_of_findFile_eq_none hfile)
  obtain ⟨hfields, -, herror⟩ := Overridden.mk.inj henvironment
  have overridden : (loadEnvironment (.ofFields defaults) environment).result =
      .ok (override (.ofFields defaults) environment).fields := by
    simp only [loadEnvironment, herror]
  rw [load, Logged.bind_result_ok files, Logged.bind_result_ok overridden, hfields]
  cases checked with
  | false => rfl
  | true =>
    have passed : (Logged.silent (validate (.object fields))).result = .ok () := hvalid rfl
    rw [if_pos rfl, Logged.bind_result_ok passed]
    rfl

/-- A load that is checked gives valid settings. -/
theorem valid_of_load {tree : FileTree} {environment : Environment} {project : Project} {fields : Fields}
    (h : (load tree environment project true).result = .ok fields) : Valid fields := by
  obtain ⟨lower, -, h⟩ := Logged.bind_result_eq_ok h
  obtain ⟨draft, -, h⟩ := Logged.bind_result_eq_ok h
  rw [if_pos rfl] at h
  obtain ⟨accepted, hvalid, h⟩ := Logged.bind_result_eq_ok h
  obtain rfl : draft.values = fields := Except.ok.inj h
  exact hvalid

end

namespace Session

/-- What can happen in a session: an action, or any change of the files and variables that it can see. -/
inductive Happening where
  | action (a : Action)
  | change (tree : FileTree) (environment : Environment)

def next [Services] (s : Session) : Happening → Session
  | .action a => s.after a
  | .change tree environment => { s with tree, environment }

/-- The session after a history. -/
def following [Services] (s : Session) (history : List Happening) : Session :=
  history.foldl next s

/-- What is loaded if a session keeps no settings: whether it is checked, and the settings. -/
def loaded? [Services] (s : Session) : Happening → Option (Bool × Fields)
  | .action a => a.asks?.bind fun checked =>
      (load s.tree s.environment s.project checked).result.toOption.map fun fields => (checked, fields)
  | .change .. => none

/-- The first load of a history that succeeds. -/
def source? [Services] (s : Session) : List Happening → Option (Bool × Fields)
  | [] => none
  | happening :: rest => (s.loaded? happening).or ((s.next happening).source? rest)

section

variable [Services] {s : Session} {history : List Happening} {happening : Happening} {checked : Bool}
  {fields served : Fields}

theorem settings_of_kept (h : s.kept = some fields) (checked : Bool) :
    (s.settings checked).result = .ok fields := by
  simp only [settings, h]
  rfl

/-- What is built on kept settings depends on nothing else of the session. -/
theorem build_of_kept (h : s.kept = some fields) (answer : Fields → Logged Answer) :
    s.build answer = answer fields := by
  have served : s.settings true = Logged.silent (.ok fields) := by
    simp only [settings, h]
    rfl
  rw [build, served]
  rfl

theorem settings_of_unkept (h : s.kept = none) (checked : Bool) :
    s.settings checked = load s.tree s.environment s.project checked := by
  simp only [settings, h]

theorem keep_of_kept (h : s.kept = some fields) (checked : Bool) : s.keep checked = s := by
  simp [keep, settings_of_kept h checked, ← h]

theorem kept_keep_of_unkept (h : s.kept = none) (checked : Bool) :
    (s.keep checked).kept = (load s.tree s.environment s.project checked).result.toOption := by
  rw [keep, settings_of_unkept h]
  cases hload : (load s.tree s.environment s.project checked).result with
  | error e => exact h
  | ok fields => rfl

/-- Kept settings stay. -/
theorem kept_next_of_kept (h : s.kept = some fields) (happening : Happening) :
    (s.next happening).kept = some fields := by
  cases happening with
  | change tree environment => exact h
  | action a =>
    cases a with
    | load checked => rw [next, after, keep_of_kept h, h]
    | spelling | registry _ | compile _ _ => rw [next, after, keep_of_kept h, h]
    | loadAnew _ | findFile | fileSettings _ | putFile _ _ | removeFile _ | setVariable _ _ => exact h

/-- A session without settings keeps what is loaded. -/
theorem kept_next_of_unkept (h : s.kept = none) (happening : Happening) :
    (s.next happening).kept = (s.loaded? happening).map (·.2) := by
  have asked (checked : Bool) : (s.keep checked).kept =
      ((load s.tree s.environment s.project checked).result.toOption.map
        fun fields => (checked, fields)).map (·.2) := by
    rw [kept_keep_of_unkept h, Option.map_map]
    exact Option.map_id'.symm
  cases happening with
  | change tree environment => exact h
  | action a =>
    cases a with
    | load checked => exact asked checked
    | spelling | registry _ | compile _ _ => exact asked true
    | loadAnew _ | findFile | fileSettings _ | putFile _ _ | removeFile _ | setVariable _ _ => exact h

/-- A session keeps the settings of the first load that succeeded. -/
theorem kept_following (s : Session) (history : List Happening) :
    (s.following history).kept = s.kept.or ((s.source? history).map (·.2)) := by
  induction history generalizing s with
  | nil => simp [following, source?]
  | cons happening rest ih =>
    have hrest : (s.following (happening :: rest)).kept = ((s.next happening).following rest).kept := rfl
    rw [hrest, ih, source?]
    cases hkept : s.kept with
    | some fields => rw [kept_next_of_kept hkept]; rfl
    | none =>
      rw [kept_next_of_unkept hkept]
      cases s.loaded? happening with
      | none => rfl
      | some found => rfl

/-- A first load that was checked gave valid settings. -/
theorem valid_of_source? (h : s.source? history = some (true, fields)) : Valid fields := by
  induction history generalizing s with
  | nil => cases h
  | cons happening rest ih =>
    rw [source?, Option.or_eq_some_iff] at h
    rcases h with h | ⟨-, h⟩
    · cases happening with
      | change tree environment => cases h
      | action a =>
        obtain ⟨checked, -, h⟩ := Option.bind_eq_some_iff.1 h
        obtain ⟨loaded, hloaded, heq⟩ := Option.map_eq_some_iff.1 h
        cases heq
        cases hload : (load s.tree s.environment s.project true).result with
        | error e => rw [hload] at hloaded; cases hloaded
        | ok given => rw [hload] at hloaded; cases hloaded; exact valid_of_load hload
    · exact ih h

theorem answer_load_of_kept (h : s.kept = some fields) (checked : Bool) :
    (s.answer (.load checked)).result = .ok (.settings fields) := by
  rw [answer, Logged.bind_result_ok (settings_of_kept h checked)]
  rfl

theorem settings_of_answer (h : (s.answer (.load checked)).result = .ok (.settings fields)) :
    (s.settings checked).result = .ok fields := by
  obtain ⟨given, hgiven, h⟩ := Logged.bind_result_eq_ok h
  cases h
  exact hgiven

/-- After any history, a load that is checked gives valid settings exactly if the first load that succeeded
was checked or gave valid settings, or if there was none. -/
theorem valid_load_iff {project : Project} {tree : FileTree} {environment : Environment}
    (h : (((Session.new project tree environment).following history).answer (.load true)).result =
      .ok (.settings fields)) :
    Valid fields ↔ ∀ unchecked,
      (Session.new project tree environment).source? history = some (false, unchecked) → Valid unchecked := by
  have hsettings := settings_of_answer h
  have hkept : ((Session.new project tree environment).following history).kept =
      ((Session.new project tree environment).source? history).map (·.2) :=
    kept_following _ history
  cases hsource : (Session.new project tree environment).source? history with
  | none =>
    rw [hsource] at hkept
    rw [settings_of_unkept hkept] at hsettings
    exact ⟨fun _ _ h => (by cases h), fun _ => valid_of_load hsettings⟩
  | some source =>
    obtain ⟨checked, kept⟩ := source
    rw [hsource] at hkept
    rw [settings_of_kept hkept] at hsettings
    obtain rfl : kept = fields := Except.ok.inj hsettings
    cases checked with
    | true => exact ⟨fun _ _ h => (by cases h), fun _ => valid_of_source? hsource⟩
    | false => exact ⟨fun valid _ h => (by cases h; exact valid), fun h => h kept rfl⟩

end

/-- A session on an empty system. -/
def bare (environment : Environment) : Session :=
  .new ⟨⟨"/", []⟩, none⟩ ⟨⟨"/", []⟩, [], []⟩ environment

theorem applyEnvironment_nil [Services] (fields : Fields) : applyEnvironment fields [] = ⟨fields, [], none⟩ := by
  simp only [applyEnvironment, override, Environment.sorted, List.mergeSort_nil, applyVariables, Draft.values_ofFields]

theorem findFile_bare (environment : Environment) :
    (bare environment).project.findFile (bare environment).tree = .ok none := by
  change Project.firstPresent (bare environment).tree (bare environment).project.usualFiles = _
  rw [Project.usualFiles_eq]
  rfl

/-- Settings that were checked once are served on, though the variables would spoil them by now. -/
theorem load_of_checked_load :
    (((bare []).following [.action (.load true), .action (.setVariable "BLADETAGS_PREFIX" "7")]).answer
      (.load true)).result = .ok (.settings defaults) ∧ Valid defaults := by
  have loaded : (load _ [] _ true).result = .ok defaults :=
    load_of_findFile_eq_none (findFile_bare []) (applyEnvironment_nil _) (fun _ => valid_defaults)
  have source : (bare []).source? [.action (.load true), .action (.setVariable "BLADETAGS_PREFIX" "7")] =
      some (true, defaults) := by
    change Option.or (((load _ [] _ true).result.toOption.map fun fields => (true, fields))) _ = _
    rw [loaded]
    rfl
  have kept : ((bare []).following
      [.action (.load true), .action (.setVariable "BLADETAGS_PREFIX" "7")]).kept = some defaults := by
    rw [kept_following, source]
    rfl
  have answered := answer_load_of_kept kept true
  refine ⟨answered, (valid_load_iff answered).2 fun unchecked h => ?_⟩
  cases source.symm.trans h

/-- Variables that make the prefix a number. -/
def numberPrefix : Environment := [("BLADETAGS_PREFIX", "7")]

theorem applyEnvironment_numberPrefix :
    applyEnvironment defaults numberPrefix =
      ⟨Assoc.insert defaults "prefix" (.int 7), ["BLADETAGS_PREFIX"], none⟩ := by
  have path : overridePath? "PREFIX".toList = some [.text "prefix"] := by
    rw [overridePath?, Text.splitOn_of_cutAt?_eq_none rfl]
    rfl
  have marked : Text.afterLiteral environmentMark.toList "BLADETAGS_PREFIX".toList =
      some "PREFIX".toList := rfl
  have shallow : tooDeep? "7" = none := rfl
  have value : coerce "7" = .ok (.int 7) := rfl
  simp only [applyEnvironment, override, Environment.sorted, numberPrefix, List.mergeSort_singleton, applyVariables,
    marked, override?, path, shallow, value]
  rfl

/-- A load that is not checked lets the session give a prefix that is no text to a load that is. -/
theorem load_of_unchecked_load : ∃ fields,
    (((bare numberPrefix).following [.action (.load false)]).answer (.load true)).result =
      .ok (.settings fields) ∧ ¬ Valid fields := by
  let fields : Fields := Assoc.insert defaults "prefix" (.int 7)
  have loaded : (load _ numberPrefix _ false).result = .ok fields :=
    load_of_findFile_eq_none (findFile_bare numberPrefix) applyEnvironment_numberPrefix (fun h => by cases h)
  have kept : ((bare numberPrefix).following [.action (.load false)]).kept = some fields := by
    change ((bare numberPrefix).keep false).kept = some fields
    rw [kept_keep_of_unkept rfl]
    exact congrArg Except.toOption loaded
  refine ⟨fields, answer_load_of_kept kept true, fun valid => ?_⟩
  obtain ⟨text, htext⟩ := Admitted.prefix_is_text (v := .int 7) (valid_iff_admitted.1 valid) rfl
  cases htext

end Session

end ComponentTags.Settings
