import OtaMqtt.Log.Logger

/-! The listener that carries a change of the log configuration over to the loggers. -/

namespace OtaMqtt.Log

open OtaMqtt.Lib OtaMqtt.Lib.Execution

/-- One appender of a definition; `ap` stays null for a type other than 1 and 2. -/
def buildAppender (define : LogAppenderDefine) : Run LogAppender := do
  let appender : LogAppender ←
    if define.type = 1 then .ok (.fileLogAppender define.file)
    else if define.type = 2 then .ok .stdoutLogAppender
    else .error .nullPointer
  let levelled := appender.setLevel define.level.value
  if define.formatter = "" then return levelled
  let fmt := LogFormatter.make define.formatter
  return if fmt.error then levelled else levelled.setFormatter (some fmt)

/-- What the listener calls on the logger of a definition. -/
def configure (define : LogDefine) (logger : Logger) : Run Logger := do
  let levelled := logger.setLevel define.level.value
  let formatted :=
    if define.formatter = "" then levelled else levelled.setFormatter define.formatter
  define.appenders.foldlM (fun logger appender => do
    return logger.addAppender (← buildAppender appender)) formatted.clearAppenders

/-- The body of the first loop. The pointer is null for a logger that is defined as before. -/
def applyDefine (old : LogDefines) (manager : LoggerManager) (define : LogDefine) :
    Run LoggerManager :=
  match old.find define with
  | none => (manager.getLogger define.name).through (some define.name) (configure define)
  | some before =>
      if define = before then manager.through none (configure define)
      else (manager.getLogger define.name).through (some define.name) (configure define)

/-- The body of the second loop. -/
def retireDefine (new : LogDefines) (manager : LoggerManager) (define : LogDefine) :
    Run LoggerManager :=
  match new.find define with
  | some _ => .ok manager
  | none =>
      (manager.getLogger define.name).through (some define.name)
        fun logger => .ok (logger.setLevel 100).clearAppenders

/-- The listener of `LogIniter`. -/
def onChange (old new : LogDefines) (manager : LoggerManager) : Run LoggerManager := do
  let applied ← new.elements.foldlM (applyDefine old) manager
  old.elements.foldlM (retireDefine new) applied

/-- The appender that a definition asks for, on a logger with the formatter `inherited`. -/
def LogAppenderDefine.built (inherited : Option LogFormatter) (define : LogAppenderDefine) :
    LogAppender where
  file := if define.type = 1 then some define.file else none
  level := some define.level.value
  formatter := if define.formatter = "" then inherited else some (.make define.formatter)
  hasFormatter := define.formatter ≠ ""

/-- The logger has the level, the formatter if one is given, and the appenders of `define`. -/
structure Logger.Meets (logger : Logger) (define : LogDefine) : Prop where
  level : logger.level = define.level.value
  formatter : define.formatter ≠ "" → logger.formatter = some (.make define.formatter)
  appenders : logger.appenders = define.appenders.map (LogAppenderDefine.built logger.formatter)

def Legal (pattern : String) : Prop := pattern ≠ "" → (LogFormatter.make pattern).error = false

/-- A definition with appenders of the two types and legal patterns. -/
structure LogDefine.Valid (define : LogDefine) : Prop where
  formatter : Legal define.formatter
  types : ∀ appender ∈ define.appenders, appender.type = 1 ∨ appender.type = 2
  formatters : ∀ appender ∈ define.appenders, Legal appender.formatter

/-- What a reload from `old` to `new` is to do: carry over what is new or changed, leave what
is the same, and silence what is gone. -/
structure Converged (old new : LogDefines) (before after : LoggerManager) : Prop where
  applied : ∀ define ∈ new.elements, define ∉ old.elements →
    ∃ logger, after.loggers define.name = some logger ∧ logger.Meets define
  kept : ∀ define ∈ new.elements, define ∈ old.elements →
    after.loggers define.name = before.loggers define.name
  removed : ∀ define ∈ old.elements, (∀ other ∈ new.elements, other.name ≠ define.name) →
    ∃ logger, after.loggers define.name = some logger ∧ logger.appenders = []

theorem buildAppender_ok {define : LogAppenderDefine} (types : define.type = 1 ∨ define.type = 2)
    (legal : Legal define.formatter) : buildAppender define = .ok (define.built none) := by
  by_cases plain : define.formatter = ""
  · rcases types with first | second
    · simp [buildAppender, LogAppenderDefine.built, first, plain, LogAppender.setLevel,
        LogAppender.fileLogAppender, pure, Except.pure]
    · simp [buildAppender, LogAppenderDefine.built, second, plain, LogAppender.setLevel,
        LogAppender.stdoutLogAppender, pure, Except.pure]
  · have valid := legal plain
    rcases types with first | second
    · simp [buildAppender, LogAppenderDefine.built, first, plain, valid, LogAppender.setLevel,
        LogAppender.setFormatter, LogAppender.fileLogAppender, pure, Except.pure]
    · simp [buildAppender, LogAppenderDefine.built, second, plain, valid, LogAppender.setLevel,
        LogAppender.setFormatter, LogAppender.stdoutLogAppender, pure, Except.pure]

theorem addAppender_built (logger : Logger) (define : LogAppenderDefine) :
    logger.addAppender (define.built none) =
      { logger with appenders := logger.appenders ++ [define.built logger.formatter] } := by
  by_cases plain : define.formatter = "" <;>
    simp [Logger.addAppender, LogAppenderDefine.built, plain]

theorem addAppenders_ok (appenders : List LogAppenderDefine)
    (types : ∀ appender ∈ appenders, appender.type = 1 ∨ appender.type = 2)
    (legal : ∀ appender ∈ appenders, Legal appender.formatter) (logger : Logger) :
    appenders.foldlM (fun logger appender => do
        return logger.addAppender (← buildAppender appender)) logger =
      (.ok { logger with
        appenders := logger.appenders ++ appenders.map (LogAppenderDefine.built logger.formatter) } :
        Run Logger) := by
  induction appenders generalizing logger with
  | nil => simp [pure, Except.pure]
  | cons head tail ih =>
      have rest := ih (fun appender member => types appender (List.mem_cons_of_mem _ member))
        (fun appender member => legal appender (List.mem_cons_of_mem _ member))
        (logger.addAppender (head.built none))
      rw [List.foldlM_cons, buildAppender_ok (types head List.mem_cons_self)
        (legal head List.mem_cons_self)]
      refine rest.trans ?_
      simp [addAppender_built]

theorem configure_ok {define : LogDefine} (valid : define.Valid) (logger : Logger) :
    ∃ configured, configure define logger = .ok configured ∧ configured.Meets define := by
  refine ⟨_, addAppenders_ok define.appenders valid.types valid.formatters _, ?_⟩
  by_cases plain : define.formatter = ""
  · constructor
    · simp [plain, Logger.setLevel, Logger.clearAppenders]
    · exact fun given => absurd plain given
    · simp [plain, Logger.setLevel, Logger.clearAppenders]
  · have legal := valid.formatter plain
    constructor
    · simp [plain, legal, Logger.setLevel, Logger.setFormatter, Logger.setFormatterPtr,
        Logger.clearAppenders]
    · simp [plain, legal, Logger.setLevel, Logger.setFormatter, Logger.setFormatterPtr,
        Logger.clearAppenders]
    · simp [plain, legal, Logger.setLevel, Logger.setFormatter, Logger.setFormatterPtr,
        Logger.clearAppenders]

theorem through_getLogger (manager : LoggerManager) (name : String) (calls : Logger → Run Logger)
    (good : Logger → Prop) (total : ∀ logger, ∃ called, calls logger = .ok called ∧ good called) :
    ∃ after, (manager.getLogger name).through (some name) calls = .ok after ∧
      (∃ logger, after.loggers name = some logger ∧ good logger) ∧
      ∀ other, other ≠ name → after.loggers other = manager.loggers other := by
  have present : ∃ logger, (manager.getLogger name).loggers name = some logger := by
    rw [LoggerManager.getLogger]
    cases found : manager.loggers name with
    | some logger => exact ⟨logger, found⟩
    | none => exact ⟨_, Function.update_self ..⟩
  have frame : ∀ other, other ≠ name →
      (manager.getLogger name).loggers other = manager.loggers other := by
    intro other apart
    rw [LoggerManager.getLogger]
    cases manager.loggers name with
    | some logger => rfl
    | none => exact Function.update_of_ne apart _ _
  obtain ⟨logger, found⟩ := present
  obtain ⟨called, ran, holds⟩ := total logger
  refine ⟨⟨Function.update (manager.getLogger name).loggers name (some called)⟩, ?_, ?_, ?_⟩
  · simp [LoggerManager.through, found, ran, pure, Except.pure]
  · exact ⟨called, Function.update_self .., holds⟩
  · intro other apart
    rw [← frame other apart]
    exact Function.update_of_ne apart _ _

theorem find_iff_mem {defines : LogDefines} {define : LogDefine} :
    defines.find define = some define ↔ define ∈ defines.elements := by
  constructor
  · exact fun found => (OrderedSet.find_mem found).1
  · exact fun present => OrderedSet.find_present defines.ordered present rfl

theorem applyDefine_known {old : LogDefines} {define : LogDefine} (manager : LoggerManager)
    (known : define ∈ old.elements) : applyDefine old manager define = .error .nullPointer := by
  rw [applyDefine, find_iff_mem.mpr known]
  simp [LoggerManager.through]

theorem applyDefine_ok {old : LogDefines} {define : LogDefine} (manager : LoggerManager)
    (unknown : define ∉ old.elements) (valid : define.Valid) :
    ∃ after, applyDefine old manager define = .ok after ∧
      (∃ logger, after.loggers define.name = some logger ∧ logger.Meets define) ∧
      ∀ other, other ≠ define.name → after.loggers other = manager.loggers other := by
  have called := through_getLogger manager define.name (configure define) (·.Meets define)
    (configure_ok valid)
  rw [applyDefine]
  cases found : old.find define with
  | none => exact called
  | some before =>
      have changed : define ≠ before := by
        rintro rfl
        exact unknown (find_iff_mem.mp found)
      simp only [if_neg changed]
      exact called

theorem retireDefine_ok (new : LogDefines) (manager : LoggerManager) (define : LogDefine) :
    ∃ after, retireDefine new manager define = .ok after ∧
      ((∀ other ∈ new.elements, other.name ≠ define.name) →
        ∃ logger, after.loggers define.name = some logger ∧ logger.appenders = []) ∧
      ∀ name, (name = define.name → ∃ other ∈ new.elements, other.name = name) →
        after.loggers name = manager.loggers name := by
  rw [retireDefine]
  cases found : new.find define with
  | some other =>
      obtain ⟨member, same⟩ := OrderedSet.find_mem found
      exact ⟨manager, rfl, fun gone => absurd same (gone other member), fun _ _ => rfl⟩
  | none =>
      have gone := (OrderedSet.find_absent new.ordered).mp found
      obtain ⟨after, ran, silent, frame⟩ := through_getLogger manager define.name
        (fun logger => .ok (logger.setLevel 100).clearAppenders) (·.appenders = [])
        (fun logger => ⟨_, rfl, rfl⟩)
      refine ⟨after, ran, fun _ => silent, fun name meant => frame name ?_⟩
      rintro rfl
      obtain ⟨other, member, same⟩ := meant rfl
      exact gone other member same

theorem names_apart {head : LogDefine} {tail : List LogDefine}
    (ordered : OrderedSet.Ordered LogDefine.less (head :: tail)) :
    ∀ define ∈ tail, define.name ≠ head.name := by
  intro define member same
  have before := (List.pairwise_cons.mp ordered).1 define member
  simp [LogDefine.less, OrderedSet.byKey, same] at before

theorem apply_loop (old : LogDefines) (rest : List LogDefine) (manager : LoggerManager)
    (ordered : OrderedSet.Ordered LogDefine.less rest)
    (unknown : ∀ define ∈ rest, define ∉ old.elements) (valid : ∀ define ∈ rest, define.Valid) :
    ∃ after, rest.foldlM (applyDefine old) manager = .ok after ∧
      (∀ define ∈ rest, ∃ logger, after.loggers define.name = some logger ∧ logger.Meets define) ∧
      ∀ name, (∀ define ∈ rest, define.name ≠ name) → after.loggers name = manager.loggers name := by
  induction rest generalizing manager with
  | nil => exact ⟨manager, rfl, (fun define member => nomatch member), fun _ _ => rfl⟩
  | cons head tail ih =>
      obtain ⟨next, ran, ⟨logger, stored, meets⟩, frame⟩ := applyDefine_ok manager
        (unknown head List.mem_cons_self) (valid head List.mem_cons_self)
      obtain ⟨after, looped, all, frame'⟩ := ih next (List.pairwise_cons.mp ordered).2
        (fun define member => unknown define (List.mem_cons_of_mem _ member))
        (fun define member => valid define (List.mem_cons_of_mem _ member))
      refine ⟨after, by rw [List.foldlM_cons, ran, ok_bind, looped], ?_, ?_⟩
      · rw [List.forall_mem_cons]
        refine ⟨⟨logger, ?_, meets⟩, all⟩
        rw [frame' head.name (names_apart ordered), stored]
      · intro name apart
        rw [frame' name fun define member => apart define (List.mem_cons_of_mem _ member)]
        exact frame name (apart head List.mem_cons_self).symm

theorem apply_loop_unknown {old : LogDefines} {rest : List LogDefine} {manager after : LoggerManager}
    (ran : rest.foldlM (applyDefine old) manager = .ok after) :
    ∀ define ∈ rest, define ∉ old.elements := by
  induction rest generalizing manager with
  | nil => exact fun define member => nomatch member
  | cons head tail ih =>
      rw [List.foldlM_cons, bind_eq_ok] at ran
      obtain ⟨next, applied, looped⟩ := ran
      rw [List.forall_mem_cons]
      refine ⟨fun known => ?_, ih looped⟩
      rw [applyDefine_known manager known] at applied
      cases applied

theorem retire_loop (new : LogDefines) (rest : List LogDefine) (manager : LoggerManager)
    (ordered : OrderedSet.Ordered LogDefine.less rest) :
    ∃ after, rest.foldlM (retireDefine new) manager = .ok after ∧
      (∀ define ∈ rest, (∀ other ∈ new.elements, other.name ≠ define.name) →
        ∃ logger, after.loggers define.name = some logger ∧ logger.appenders = []) ∧
      ∀ name, (∀ define ∈ rest, name = define.name → ∃ other ∈ new.elements, other.name = name) →
        after.loggers name = manager.loggers name := by
  induction rest generalizing manager with
  | nil => exact ⟨manager, rfl, (fun define member => nomatch member), fun _ _ => rfl⟩
  | cons head tail ih =>
      obtain ⟨next, ran, silent, frame⟩ := retireDefine_ok new manager head
      obtain ⟨after, looped, all, frame'⟩ := ih next (List.pairwise_cons.mp ordered).2
      refine ⟨after, by rw [List.foldlM_cons, ran, ok_bind, looped], ?_, ?_⟩
      · rw [List.forall_mem_cons]
        refine ⟨fun gone => ?_, all⟩
        obtain ⟨logger, stored, bare⟩ := silent gone
        refine ⟨logger, ?_, bare⟩
        rw [frame' head.name fun define member same =>
          absurd same.symm (names_apart ordered define member), stored]
      · intro name meant
        rw [frame' name fun define member => meant define (List.mem_cons_of_mem _ member)]
        exact frame name (meant head List.mem_cons_self)

theorem onChange_unknown {old new : LogDefines} {manager after : LoggerManager}
    (ran : onChange old new manager = .ok after) : ∀ define ∈ new.elements, define ∉ old.elements := by
  rw [onChange, bind_eq_ok] at ran
  obtain ⟨applied, looped, -⟩ := ran
  exact apply_loop_unknown looped

theorem onChange_converges {old new : LogDefines} (manager : LoggerManager)
    (valid : ∀ define ∈ new.elements, define.Valid)
    (unknown : ∀ define ∈ new.elements, define ∉ old.elements) :
    ∃ after, onChange old new manager = .ok after ∧ Converged old new manager after := by
  obtain ⟨applied, looped, met, frame⟩ := apply_loop old new.elements manager new.ordered unknown valid
  obtain ⟨after, retired, silent, frame'⟩ := retire_loop new old.elements applied old.ordered
  refine ⟨after, by rw [onChange, looped, ok_bind, retired], ?_, ?_, silent⟩
  · intro define member _
    rw [frame' define.name fun _ _ _ => ⟨define, member, rfl⟩]
    exact met define member
  · exact fun define member known => absurd known (unknown define member)

/-- A reload runs to its end and converges exactly when no logger is defined in the new set
as it was in the old one: for such a logger the listener follows a null pointer. -/
theorem onChange_converged_iff (old new : LogDefines) (manager : LoggerManager)
    (valid : ∀ define ∈ new.elements, define.Valid) :
    (∃ after, onChange old new manager = .ok after ∧ Converged old new manager after) ↔
      ∀ define ∈ new.elements, define ∉ old.elements :=
  ⟨fun ⟨_, ran, _⟩ => onChange_unknown ran, onChange_converges manager valid⟩

/-- `setValue` of the variable `logs`, which calls no listener for a value that is there already. -/
def reload (old new : LogDefines) (manager : LoggerManager) : Run LoggerManager :=
  if new.elements = old.elements then .ok manager else onChange old new manager

theorem converged_same (defines : LogDefines) (manager : LoggerManager) :
    Converged defines defines manager manager where
  applied := fun _ member unknown => absurd member unknown
  kept := fun _ _ _ => rfl
  removed := fun define member gone => absurd rfl (gone define member)

theorem reload_converged_iff (old new : LogDefines) (manager : LoggerManager)
    (valid : ∀ define ∈ new.elements, define.Valid) :
    (∃ after, reload old new manager = .ok after ∧ Converged old new manager after) ↔
      new.elements = old.elements ∨ ∀ define ∈ new.elements, define ∉ old.elements := by
  rw [reload]
  split
  · rename_i same
    obtain rfl : new = old := by
      cases new
      cases old
      cases same
      rfl
    exact iff_of_true ⟨manager, rfl, converged_same new manager⟩ (.inl rfl)
  · rename_i changed
    rw [or_iff_right changed]
    exact ⟨fun ⟨_, ran, _⟩ => onChange_unknown ran, onChange_converges manager valid⟩

def systemLogger : LogDefine := ⟨"system", .debug, "%m%n", [⟨2, .info, "", ""⟩]⟩

def quietLogger : LogDefine := ⟨"system", .error, "%m%n", [⟨1, .error, "%d%m%n", "system.txt"⟩]⟩

def rootLogger : LogDefine := ⟨"root", .info, "", [⟨2, .unknow, "", ""⟩]⟩

/-- The logger `root` goes, and `system` changes its level and its appender. -/
theorem onChange_quiet :
    let old := (LogDefines.empty.insert rootLogger).insert systemLogger
    let new := LogDefines.empty.insert quietLogger
    ∃ after, onChange old new .fresh = .ok after ∧ Converged old new .fresh after := by
  apply (onChange_converged_iff _ _ _ ?_).mpr
  · decide
  · intro define member
    rw [List.mem_singleton.mp member]
    constructor
    · exact fun _ => by decide
    · decide
    · intro appender member _
      rw [List.mem_singleton.mp member]
      decide

/-- The logger `root` is defined as before, and `system` is new. -/
theorem onChange_unchanged :
    let old := LogDefines.empty.insert rootLogger
    let new := (LogDefines.empty.insert rootLogger).insert systemLogger
    (∀ define ∈ new.elements, define.Valid) ∧
      ¬ ∃ after, onChange old new .fresh = .ok after ∧ Converged old new .fresh after := by
  constructor
  · intro define member
    rcases List.mem_pair.mp member with rfl | rfl
    · constructor
      · exact fun given => absurd rfl given
      · decide
      · intro appender member given
        rw [List.mem_singleton.mp member] at given
        exact absurd rfl given
    · constructor
      · exact fun _ => by decide
      · decide
      · intro appender member given
        rw [List.mem_singleton.mp member] at given
        exact absurd rfl given
  · rintro ⟨after, ran, -⟩
    cases ran

end OtaMqtt.Log
