import UempPlugin.Ref.Yaml
import Std.Data.ExtTreeMap
import Mathlib.Algebra.Group.Nat.Defs
import Mathlib.Algebra.Group.Int.Defs

/-!
# `LogPrivate`

The logger behind the `Logger` facade: the configuration it is loaded from,
the callbacks registered with it, and what a message does. A call runs in the
state monad with exceptions, and an exception leaves the state where it was
thrown: `m_logger` is reset before anything is read, and the six show-line
flags are assigned one by one.

Everything the code cannot decide is given to a call as its environment:
whether a file can be read, opened, written, removed, what a log file's
constructor does to the files it opens, whether the thread pool fits into
memory. Of the pool itself the state has the size of its queue, which decides
whether it can be taken down again: `spdlog` keeps one pool for the process,
and making another waits for the threads of the one before. yaml-cpp's parser
and emitter are parameters, and so is the meaning of a path, since two
spellings may name one file. The singleton is constructed before the first
call. What is printed to the console is left out, and so are the log files once
their sinks exist.
-/

namespace UempPlugin.Ref

namespace Log

open Yaml (Node Convert getNode getSequenceNode getDef setDef addNode pushBack)

/-- The file system's names and yaml-cpp's text format. -/
structure World where
  File : Type
  [decEq : DecidableEq File]
  resolve : String → File
  -- `none` when the parser throws
  parse : List UInt8 → Option Node
  emit : Node → List UInt8

attribute [instance] World.decEq

variable {W : World}

/-! ## Levels -/

/-- `spdlog::level::level_enum`. -/
inductive Level where
  | trace | debug | info | warn | err | critical | off
deriving DecidableEq, Repr

namespace Level

def toNat : Level → Nat
  | trace => 0
  | debug => 1
  | info => 2
  | warn => 3
  | err => 4
  | critical => 5
  | off => 6

/-- `spdlog::level::from_str`. -/
def fromStr (name : String) : Level :=
  if name = "trace" then trace
  else if name = "debug" then debug
  else if name = "info" then info
  else if name = "warning" then warn
  else if name = "error" then err
  else if name = "critical" then critical
  else if name = "off" then off
  else if name = "warn" then warn
  else if name = "err" then err
  else off

/-- `should_log`, of a sink and of the logger. -/
def shouldLog (threshold msg : Level) : Bool := threshold.toNat ≤ msg.toNat

end Level

/-! ## Sinks -/

/-- `static_cast<size_t>` and `static_cast<uint64_t>` of an `int`. -/
def toU64 (n : Int) : Nat := (n % 2 ^ 64).toNat

/-- `static_cast<uint16_t>` of an `int`. -/
def toU16 (n : Int) : Nat := (n % 2 ^ 16).toNat

/-- 32-bit `int` arithmetic, which wraps on the targets of the build. -/
def wrapInt (n : Int) : Int := (n + 2 ^ 31) % 2 ^ 32 - 2 ^ 31

/-- The arguments a sink of each supported type is constructed with. -/
inductive SinkConfig where
  | stdoutColor
  | dailyFile (filePath : String) (rotationHour rotationMin : Int) (truncate : Bool)
      (maxDays : Nat)
  | rotatingFile (filePath : String) (maxSize maxFiles : Nat) (rotateOnOpen : Bool)
  | basicFile (filePath : String) (truncate : Bool)
  | countRotatingFile (filePath : String) (maxCount maxFiles : Nat)
      (rotateOnOpen strictCountOnOpen : Bool)
  | dailySizeRotatingFile (rootDir name dateNameFormat : String) (rotationHour rotationMin : Int)
      (maxSize maxFiles : Nat) (rotateOnOpen : Bool)
deriving DecidableEq

/-- The object `addCallBackSink` allocates: `ptr` is its address, `callback`
the function it wraps. -/
structure CallbackSink where
  ptr : Nat
  callback : Nat
  level : Level
deriving DecidableEq

inductive Sink where
  | configured (config : SinkConfig) (level : Level)
  | callback (sink : CallbackSink)
deriving DecidableEq

/-- `file_helper::split_by_extension`. -/
def splitByExtension (fname : Text) : Text × Text :=
  let ext := (fname.reverse.takeWhile (· ≠ '.')).reverse
  let base := fname.take (fname.length - ext.length - 1)
  -- no dot, a dot at either end, or the last dot in or right after a folder
  if ¬ '.' ∈ fname ∨ ext = [] ∨ base = [] ∨ sep ∈ ext ∨ base.getLast? = some sep then (fname, [])
  else (base, '.' :: ext)

/-- `rotating_file_sink::calc_filename`. -/
def calcFilename (filePath : String) (index : Nat) : String :=
  if index = 0 then filePath
  else
    let (base, ext) := splitByExtension filePath.toList
    String.ofList (base ++ '.' :: toStr index ++ ext)

/-- `daily_filename_calculator::calc_filename`, for the text of a date. -/
def dailyFilename (filePath : String) (date : Text) : String :=
  let (base, ext) := splitByExtension filePath.toList
  String.ofList (base ++ '_' :: date ++ ext)

/-- The files a constructor opens, truncates or renames. The two sinks of this
repository do not touch theirs before the first message. -/
def SinkConfig.Touches (W : World) : SinkConfig → W.File → Prop
  | .dailyFile filePath _ _ _ _, f => ∃ date, f = W.resolve (dailyFilename filePath date)
  | .rotatingFile filePath _ maxFiles _, f =>
      ∃ index ≤ maxFiles, f = W.resolve (calcFilename filePath index)
  | .basicFile filePath _, f => f = W.resolve filePath
  | _, _ => False

/-- Whether the constructor opens a file at all. -/
def SinkConfig.opens : SinkConfig → Bool
  | .dailyFile .. => true
  | .rotatingFile .. => true
  | .basicFile .. => true
  | _ => false

def SinkConfig.path : SinkConfig → String
  | .dailyFile filePath .. => filePath
  | .rotatingFile filePath .. => filePath
  | .basicFile filePath .. => filePath
  | .countRotatingFile filePath .. => filePath
  | .dailySizeRotatingFile rootDir .. => rootDir
  | .stdoutColor => ""

/-- What the constructor throws for its arguments alone. -/
def SinkConfig.refuses : SinkConfig → Option Exn
  | .dailyFile _ hour min _ _ =>
      if hour < 0 ∨ hour > 23 ∨ min < 0 ∨ min > 59 then
        some (.spdlogEx "daily_file_sink: Invalid rotation time in ctor")
      else none
  | .rotatingFile _ maxSize maxFiles _ =>
      if maxSize = 0 then
        some (.spdlogEx "rotating sink constructor: max_size arg cannot be zero")
      else if maxFiles > 200000 then
        some (.spdlogEx "rotating sink constructor: max_files arg cannot exceed MaxFiles")
      else none
  | .dailySizeRotatingFile _ _ _ hour min maxSize _ _ =>
      if hour < 0 ∨ hour > 23 ∨ min < 0 ∨ min > 59 then
        some (.invalidArgument "rotation time invalid")
      else if (maxSize + 7) % 2 ^ 64 / 8 = 0 then
        some (.invalidArgument "max_size_bits must be > 0")
      else none
  | _ => none

/-- What constructing a sink does outside: whether its file opens (and, for a
rotation on opening, is renamed), and what it leaves in the files it touches. -/
structure SinkOutcome (W : World) (config : SinkConfig) where
  opens : Bool
  writes : List (W.File × Option (List UInt8))
  own : ∀ w ∈ writes, config.Touches W w.1

def applyWrites (writes : List (W.File × Option (List UInt8)))
    (files : W.File → Option (List UInt8)) : W.File → Option (List UInt8) :=
  writes.foldl (fun files w => Function.update files w.1 w.2) files

/-! ## The state -/

/-- `spdlog::logger`, or `spdlog::async_logger` when `async`. -/
structure Logger where
  name : String
  sinks : List Sink := []
  level : Level := .info
  flushLevel : Level := .off
  pattern : String := ""
  async : Bool := false
deriving DecidableEq

/-- `LogMsg`, as far as it depends on the message. -/
structure Message where
  level : Level
  msg : String
deriving DecidableEq

/-- The members of `LogPrivate`, the files it reads and writes, the next
address an allocation gives, what callbacks were invoked with so far, and the
queue size of the thread pool that spdlog's registry holds. -/
structure LogPrivate (W : World) where
  logger : Option Logger := none
  configFilePath : String := "./log_config.yaml"
  traceShowLine : Bool := false
  debugShowLine : Bool := false
  infoShowLine : Bool := false
  warnShowLine : Bool := true
  errorShowLine : Bool := true
  criticalShowLine : Bool := true
  callbackSinks : Std.ExtTreeMap String CallbackSink := ∅
  files : W.File → Option (List UInt8)
  nextPtr : Nat := 0
  invoked : List (CallbackSink × Message) := []
  queued : List Message := []
  pool : Option Nat := none

/-- A run that may throw. -/
abbrev LogM (W : World) := EStateM Exn (LogPrivate W)

/-- A read of the document inside such a run. -/
def read {α : Type} : Except Exn α → LogM W α
  | .ok a => pure a
  | .error e => throw e

/-! ## Loading a configuration -/

/-- What one call of `loadConfigFile` meets: whether the file can be read,
whether `std::filesystem::absolute` succeeds, what constructing the i-th sink
does, and whether the queues of the two thread pools can be allocated. -/
structure LoadEnv (W : World) where
  readable : Bool := true
  absolute : Bool := true
  construct : Nat → (config : SinkConfig) → SinkOutcome W config
  -- for the logger that stays, and for the console logger of an empty list
  queue : Bool := true
  consoleQueue : Bool := true

/-- `std::filesystem::absolute`. -/
def absolute (ok : Bool) : LogM W Unit :=
  if ok then pure () else throw (.filesystemError "cannot make absolute path")

/-- `YamlTool::loadFile`: every exception of reading and parsing becomes
`false`, here `none`. -/
def loadFile (env : LoadEnv W) (configFilePath : String)
    (files : W.File → Option (List UInt8)) : Option Node :=
  match files (W.resolve configFilePath) with
  | none => none
  | some bytes =>
      if env.readable then
        match W.parse bytes with
        | some node => if node.isDefined then some node else none
        | none => none
      else none

/-- The locals `loadConfigFile` reads from the logger node. -/
structure Settings where
  loggerName : String
  debugLevel : Level
  releaseLevel : Level
  flushOn : Level
  logPattern : String
  asyncEnabled : Bool
  asyncQueueSize : Int
  asyncThreadCount : Int

def defaultPattern : String := "[%Y-%m-%d %H:%M:%S.%e][%n][%^%l%$][thread %t]%v"

/-- `try { … } catch (...) {}` around an assignment. -/
def orElse {α : Type} (dflt : α) : Except Exn α → α
  | .ok a => a
  | .error _ => dflt

def readSettings (loggerNode : Node) : Except Exn Settings := do
  let loggerName ← getDef loggerNode "name" "default-logger"
  let debugLevel ← getDef loggerNode "debug_level" "trace"
  let releaseLevel ← getDef loggerNode "release_level" "info"
  let flushOn ← getDef loggerNode "flush_on" "trace"
  let logPattern ← getDef loggerNode "pattern" defaultPattern
  let async := orElse "false" (getDef loggerNode "async" "false")
  let queueSize := orElse "8192" (getDef loggerNode "async_queue_size" "8192")
  let threadCount := orElse "1" (getDef loggerNode "async_thread_count" "1")
  return {
    loggerName := loggerName
    debugLevel := .fromStr debugLevel
    releaseLevel := .fromStr releaseLevel
    flushOn := .fromStr flushOn
    logPattern := logPattern
    asyncEnabled := async = "true" ∨ async = "1"
    asyncQueueSize := (Yaml.stoi queueSize).getD 8192
    asyncThreadCount := (Yaml.stoi threadCount).getD 1 }

def readShowLines (showCodeLineNode : Node) : LogM W Unit := do
  if showCodeLineNode.isDefined && !showCodeLineNode.isNull then
    let traceShowLine ← read (getDef showCodeLineNode "trace" false)
    modify fun s => { s with traceShowLine := traceShowLine }
    let debugShowLine ← read (getDef showCodeLineNode "debug" false)
    modify fun s => { s with debugShowLine := debugShowLine }
    let infoShowLine ← read (getDef showCodeLineNode "info" false)
    modify fun s => { s with infoShowLine := infoShowLine }
    let warnShowLine ← read (getDef showCodeLineNode "warn" true)
    modify fun s => { s with warnShowLine := warnShowLine }
    let errorShowLine ← read (getDef showCodeLineNode "error" true)
    modify fun s => { s with errorShowLine := errorShowLine }
    let criticalShowLine ← read (getDef showCodeLineNode "critical" true)
    modify fun s => { s with criticalShowLine := criticalShowLine }

/-- The sizes are given in KB and handed over in bits. -/
def readMaxSize (sinkNode : Node) : Except Exn Nat := do
  let maxSize ← getDef sinkNode "max_size" (52428800 : Int)
  return toU64 (wrapInt (maxSize * 8 * 1024))

/-- The arguments of the constructor for one sink node, `none` for a node that
is skipped: no supported type, or no path. -/
def readSinkConfig (type : String) (sinkNode : Node) : Except Exn (Option SinkConfig) := do
  if type = "stdout_color_sink_mt" then return some .stdoutColor
  else if type = "daily_file_mt" then
    let filePath ← getDef sinkNode "file_path" ""
    if filePath = "" then return none
    let rotationHour ← getDef sinkNode "rotation_hour" (0 : Int)
    let rotationMin ← getDef sinkNode "rotation_min" (0 : Int)
    let maxDays ← getDef sinkNode "max_days" (0 : Int)
    let truncate ← getDef sinkNode "truncate" false
    return some (.dailyFile filePath rotationHour rotationMin truncate (toU16 maxDays))
  else if type = "rotating_file_mt" then
    let filePath ← getDef sinkNode "file_path" ""
    if filePath = "" then return none
    let maxSize ← readMaxSize sinkNode
    let maxFiles ← getDef sinkNode "max_files" (10 : Int)
    let rotateOnOpen ← getDef sinkNode "rotate_on_open" false
    return some (.rotatingFile filePath maxSize (toU64 maxFiles) rotateOnOpen)
  else if type = "basic_file_sink_mt" then
    let filePath ← getDef sinkNode "file_path" ""
    if filePath = "" then return none
    let truncate ← getDef sinkNode "truncate" false
    return some (.basicFile filePath truncate)
  else if type = "count_rotating_file_mt" then
    let filePath ← getDef sinkNode "file_path" ""
    if filePath = "" then return none
    let maxCount ← getDef sinkNode "max_count" (100000 : Int)
    let maxFiles ← getDef sinkNode "max_files" (10 : Int)
    let rotateOnOpen ← getDef sinkNode "rotate_on_open" false
    let strictCountOnOpen ← getDef sinkNode "strict_count_on_open" true
    return some (.countRotatingFile filePath (toU64 maxCount) (toU64 maxFiles) rotateOnOpen
      strictCountOnOpen)
  else if type = "daily_size_rotating_file_mt" then
    let rootDir ← getDef sinkNode "root_dir" ""
    if rootDir = "" then return none
    let name ← getDef sinkNode "name" "{date}"
    let dateNameFormat ← getDef sinkNode "date_name_format" "yyyy-MM-dd"
    let rotationHour ← getDef sinkNode "rotation_hour" (0 : Int)
    let rotationMin ← getDef sinkNode "rotation_min" (0 : Int)
    let maxSize ← readMaxSize sinkNode
    let maxFiles ← getDef sinkNode "max_files" (10 : Int)
    let rotateOnOpen ← getDef sinkNode "rotate_on_open" false
    return some (.dailySizeRotatingFile rootDir name dateNameFormat rotationHour rotationMin
      maxSize (toU64 maxFiles) rotateOnOpen)
  else return none

/-- The sink's constructor. -/
def construct (config : SinkConfig) (outcome : SinkOutcome W config) : LogM W Unit := do
  if let some e := config.refuses then throw e
  modify fun s => { s with files := applyWrites outcome.writes s.files }
  if config.opens && !outcome.opens then
    throw (.spdlogEx ("Failed opening file " ++ config.path ++ " for writing"))

/-- One round of the loop over the sinks. -/
def loadSink (env : LoadEnv W) (i : Nat) (sinkNode : Node) : LogM W (List Sink) := do
  if !sinkNode.isDefined || sinkNode.isNull then return []
  let type ← read (getDef sinkNode "type" "")
  let sinkLevel ← read (getDef sinkNode "level" "trace")
  match ← read (readSinkConfig type sinkNode) with
  | none => return []
  | some config =>
      construct config (env.construct i config)
      return [.configured config (.fromStr sinkLevel)]

/-- The loop from index `i` on, `n` rounds. -/
def loadSinks (env : LoadEnv W) (sinksNode : Node) : Nat → Nat → LogM W (List Sink)
  | 0, _ => return []
  | n + 1, i => do
      let sinks ← loadSink env i (getSequenceNode sinksNode i)
      let rest ← loadSinks env sinksNode n (i + 1)
      return sinks ++ rest

/-- A queue of this size lets nothing through: the one slot of size 0 tells a
full queue from an empty one, and the largest `size_t` wraps to no slots. So
`~thread_pool` waits forever, for room for its messages or for the workers
that never see them. -/
def stuck (queueSize : Nat) : Bool := queueSize = 0 || queueSize = 2 ^ 64 - 1

/-- `registry::set_tp`. Nothing else refers to the former pool, so assigning
the new one destroys it. -/
def setTp (queueSize : Nat) : LogM W Unit := do
  let old := (← get).pool
  modify fun s => { s with pool := some queueSize }
  if old.any stuck then throw .blocked

/-- `spdlog::init_thread_pool`: the queue is allocated before the number of
threads is checked, and the pool is there before it replaces another. -/
def initThreadPool (queue : Bool) (settings : Settings) : LogM W Unit := do
  if !queue then throw .badAlloc
  if toU64 settings.asyncThreadCount = 0 ∨ toU64 settings.asyncThreadCount > 1000 then
    throw (.spdlogEx "spdlog::thread_pool(): invalid threads_n param (valid range is 1-1000)")
  setTp (toU64 settings.asyncQueueSize)

/-- `logger.h` defines `DEBUG` unless `QT_NO_DEBUG` is defined, and the build
does not define it. -/
def DEBUG : Bool := true

/-- The pool of an asynchronous logger. -/
def startPool (queue : Bool) (settings : Settings) : LogM W Unit :=
  if settings.asyncEnabled then initThreadPool queue settings else pure ()

/-- `loadConfigFile` up to the sinks: the settings, and the node that lists
the sinks. -/
def loadHead (configFilePath : String) (rootNode : Node) : LogM W (Settings × Node) := do
  let logConfigNode ← read (getNode rootNode "log_config")
  if !logConfigNode.isDefined || logConfigNode.isNull then
    throw (.spdlogEx "日志yaml配置文件中, <LogConfig> 节点未定义或为空")
  let loggerNode ← read (getNode logConfigNode "logger")
  if !loggerNode.isDefined || loggerNode.isNull then
    throw (.spdlogEx "日志yaml配置文件中, <Logger> 节点未定义或为空")
  modify fun s => { s with configFilePath := configFilePath }
  let settings ← read (readSettings loggerNode)
  readShowLines (← read (getNode logConfigNode "showCodeLine"))
  let sinksNode ← read (getNode logConfigNode "sinks")
  if !sinksNode.isDefined || sinksNode.isNull || !sinksNode.isSequence then
    throw (.spdlogEx "在日志yaml配置文件中, <Sinks> 节点未定义、为空，或不是序列")
  return (settings, sinksNode)

/-- The logger with its sinks, its levels and its pattern. -/
def Settings.logger (settings : Settings) (sinks : List Sink) : Logger where
  name := settings.loggerName
  sinks := sinks
  level := if DEBUG then settings.debugLevel else settings.releaseLevel
  flushLevel := settings.flushOn
  pattern := settings.logPattern
  async := settings.asyncEnabled

/-- `m_logger = …`. -/
def setLogger (logger : Logger) : LogM W Unit :=
  modify fun s => { s with logger := some logger }

/-- The end of `loadConfigFile`: the logger and the closing announcement. -/
def createLogger (env : LoadEnv W) (settings : Settings) (sinks : List Sink) : LogM W Unit := do
  startPool env.queue settings
  setLogger (settings.logger sinks)
  absolute env.absolute

def loadRoot (env : LoadEnv W) (configFilePath : String) (rootNode : Node) : LogM W Unit := do
  let (settings, sinksNode) ← loadHead configFilePath rootNode
  if sinksNode.size = 0 then
    -- the console logger made here is replaced at once by one without sinks
    startPool env.consoleQueue settings
    setLogger {
      name := "console"
      sinks := [.configured .stdoutColor .trace]
      async := settings.asyncEnabled }
    createLogger env settings []
  else
    let sinks ← loadSinks env sinksNode sinksNode.size 0
    createLogger env settings sinks

def loadConfigFile (env : LoadEnv W) (configFilePath : String) : LogM W Unit := do
  modify fun s => { s with logger := none }
  match loadFile env configFilePath (← get).files with
  | none =>
      absolute env.absolute
      throw (.spdlogEx ("加载日志yaml配置文件失败，路径：" ++ configFilePath))
  | some rootNode => loadRoot env configFilePath rootNode

/-! ## The default configuration -/

/-- A node filled from empty. -/
def build (fill : EStateM Exn Node Unit) : Except Exn Node :=
  match fill .null with
  | .ok _ node => .ok node
  | .error e _ => .error e

/-- `setDef<std::string>` of one key after another. -/
def setDefs : List (String × String) → EStateM Exn Node Unit
  | [] => pure ()
  | (key, value) :: rest => do
      let _ ← setDef key value
      setDefs rest

/-- The document `loadDefaultConfig` puts together. -/
def defaultConfig : Except Exn Node := do
  let loggerNode ← build (setDefs [("name", "default-log"), ("debug_level", "trace"),
    ("release_level", "info"), ("flush_on", "trace"), ("pattern", defaultPattern),
    ("async", "false"), ("async_queue_size", "8192"), ("async_thread_count", "1")])
  let showCodeLineNode ← build (setDefs [("trace", "false"), ("debug", "false"),
    ("info", "false"), ("warn", "true"), ("error", "true"), ("critical", "true")])
  let stdoutColorNode ← build (setDefs [("type", "stdout_color_sink_mt"), ("level", "trace")])
  let basicNode ← build (setDefs [("type", "basic_file_sink_mt"), ("level", "trace"),
    ("file_path", "./logs/basic_file_sink_mt.log"), ("truncate", "false")])
  let rotatingNode ← build (setDefs [("type", "rotating_file_mt"), ("level", "trace"),
    ("file_path", "./logs/rotating_file_mt.log"), ("max_size", "10240"), ("max_files", "5"),
    ("rotate_on_open", "false")])
  let dailyNode ← build (setDefs [("type", "daily_file_mt"), ("level", "trace"),
    ("file_path", "./logs/daily_file_mt.log"), ("rotation_hour", "0"), ("rotation_min", "0"),
    ("max_days", "7"), ("truncate", "false")])
  let countRotatingNode ← build (setDefs [("type", "count_rotating_file_mt"), ("level", "trace"),
    ("file_path", "./logs/count_rotating_file_mt.log"), ("max_count", "100000"),
    ("max_files", "5"), ("rotate_on_open", "false"), ("strict_count_on_open", "true")])
  let dailySizeRotatingNode ← build (setDefs [("type", "daily_size_rotating_file_mt"),
    ("level", "trace"), ("root_dir", "./logs"), ("name", "{date}"),
    ("date_name_format", "yyyy-MM-dd"), ("rotation_hour", "0"), ("rotation_min", "0"),
    ("max_size", "10240"), ("max_files", "5"), ("rotate_on_open", "false")])
  let sinksNode ← build do
    pushBack stdoutColorNode
    pushBack basicNode
    pushBack rotatingNode
    pushBack dailyNode
    pushBack countRotatingNode
    pushBack dailySizeRotatingNode
  let logConfigNode ← build do
    addNode "logger" loggerNode
    addNode "showCodeLine" showCodeLineNode
    addNode "sinks" sinksNode
  build (addNode "log_config" logConfigNode)

/-- What happens to `saveAsFile`: the stream does not open, or it is truncated
and only so many bytes reach it. Neither throws. -/
inductive SaveOutcome where
  | notOpened
  | written (count : Nat)

/-- `YamlToolPrivate::saveAsFile`. -/
def saveAsFile (node : Node) (filePath : String) (outcome : SaveOutcome) : LogM W Unit := do
  if !node.isDefined || node.isNull then
    throw (.runtimeError "failed to save config file: node is invalid")
  match outcome with
  | .notOpened => pure ()
  | .written count =>
      modify fun s => { s with
        files := Function.update s.files (W.resolve filePath) (some ((W.emit node).take count)) }

/-- What `loadDefaultConfig` meets. -/
structure DefaultEnv (W : World) where
  save : SaveOutcome
  absolute : Bool := true
  reload : LoadEnv W

/-- The `try` block of `loadDefaultConfig`. -/
def saveAndReload (env : DefaultEnv W) (rootNode : Node) (configFilePath : String) :
    LogM W Unit := do
  saveAsFile rootNode configFilePath env.save
  modify fun s => { s with configFilePath := configFilePath }
  absolute env.absolute
  loadConfigFile env.reload configFilePath

/-- `catch (std::exception& e)` around a block that throws nothing else. It
cannot catch a block that never ends. -/
def catchAll (block : LogM W Unit) : LogM W Unit := fun s =>
  match block s with
  | .ok _ s' => .ok () s'
  | .error .blocked s' => .error .blocked s'
  | .error _ s' => .ok () s'

/-- `MZ_LOG_DEBUG` is not defined by the build either. -/
def loadDefaultConfig (env : DefaultEnv W) (configFilePath : String) : LogM W Unit := do
  modify fun s => { s with
    logger := some { name := "log-default", level := .warn, pattern := defaultPattern }
    traceShowLine := false
    debugShowLine := false
    infoShowLine := false
    warnShowLine := true
    errorShowLine := true
    criticalShowLine := true }
  let rootNode ← read defaultConfig
  catchAll (saveAndReload env rootNode configFilePath)

/-! ## `setConfigPath` -/

/-- What `std::filesystem::remove` does with a file that exists. -/
inductive RemoveOutcome where
  | removed
  | notRemoved
  | throws
deriving DecidableEq

/-- What `deleteOldConfig` meets. -/
structure DeleteEnv where
  stat : Bool := true
  remove : RemoveOutcome := .removed
  absolute : Bool := true

/-- `remove` and the announcement of what it did. -/
def removeFile (env : DeleteEnv) (configFilePath : String) : LogM W Unit :=
  match env.remove with
  | .throws => throw (.filesystemError "cannot remove")
  | .notRemoved => absolute env.absolute
  | .removed => do
      modify fun s => { s with files := Function.update s.files (W.resolve configFilePath) none }
      absolute env.absolute

def deleteOldConfig (env : DeleteEnv) (configFilePath : String) : LogM W Unit := do
  if configFilePath ≠ "" then
    if !env.stat then throw (.filesystemError "cannot get file status")
    if ((← get).files (W.resolve configFilePath)).isSome then removeFile env configFilePath
    else absolute env.absolute

/-- What one call of `setConfigPath` meets. -/
structure CallEnv (W : World) where
  load : LoadEnv W
  fallback : DefaultEnv W
  delete : DeleteEnv := {}

/-- The `try` block shared with the constructor: only `spdlog_ex` is caught. -/
def loadOrDefault (load : LoadEnv W) (fallback : DefaultEnv W) (configFilePath : String) :
    LogM W Unit := fun s =>
  match loadConfigFile load configFilePath s with
  | .error (.spdlogEx _) s' => loadDefaultConfig fallback configFilePath s'
  | r => r

/-- The constructor of the singleton. -/
def constructLogPrivate (load : LoadEnv W) (fallback : DefaultEnv W) : LogM W Unit := do
  modify fun s => { s with configFilePath := "./log_config.yaml" }
  loadOrDefault load fallback "./log_config.yaml"

def setConfigPath (env : CallEnv W) (configFilePath : String) (isDeleteOldConfig : Bool) :
    LogM W Unit := do
  let oldConfigPath := (← get).configFilePath
  loadOrDefault env.load env.fallback configFilePath
  if isDeleteOldConfig then deleteOldConfig env.delete oldConfigPath

/-! ## Callbacks and messages -/

/-- `std::remove` and `erase` of the sink at an address. -/
def eraseSink (ptr : Nat) (sinks : List Sink) : List Sink :=
  sinks.filter fun
    | .callback sink => sink.ptr ≠ ptr
    | .configured .. => true

/-- `addCallBackSink`; `sinkId` is what `m_id8Generator()` returns. -/
def addCallBackSink (logCallBack : Nat) (level : Level) (sinkId : String) : LogM W String := do
  let s ← get
  match s.logger with
  | none => return ""
  | some logger =>
      let (logger, callbackSinks) :=
        match s.callbackSinks[sinkId]? with
        | some old =>
            ({ logger with sinks := eraseSink old.ptr logger.sinks }, s.callbackSinks.erase sinkId)
        | none => (logger, s.callbackSinks)
      let cbSink : CallbackSink := { ptr := s.nextPtr, callback := logCallBack, level := level }
      set { s with
        nextPtr := s.nextPtr + 1
        logger := some { logger with sinks := logger.sinks ++ [Sink.callback cbSink] }
        callbackSinks := callbackSinks.insert sinkId cbSink }
      return sinkId

def removeCallBackSink (sinkId : String) : LogM W Unit := do
  let s ← get
  match s.logger with
  | none => return
  | some logger =>
      match s.callbackSinks[sinkId]? with
      | some old =>
          set { s with
            logger := some { logger with sinks := eraseSink old.ptr logger.sinks }
            callbackSinks := s.callbackSinks.erase sinkId }
      | none => return

/-- `callback_sink::log`. `SPDLOG_LOGGER_CATCH` swallows a `std::exception`;
`foreign` says that the callback throws something else, which goes on. -/
def invoke (foreign : CallbackSink → Bool) (m : Message) (sink : CallbackSink) : LogM W Unit := do
  modify fun s => { s with invoked := s.invoked ++ [(sink, m)] }
  if foreign sink then throw .foreign

/-- `logger::sink_it_`. A configured sink writes to its own log files. -/
def sinkIt (foreign : CallbackSink → Bool) (m : Message) : List Sink → LogM W Unit
  | [] => pure ()
  | .configured _ _ :: sinks => sinkIt foreign m sinks
  | .callback sink :: sinks => do
      if sink.level.shouldLog m.level then invoke foreign m sink
      sinkIt foreign m sinks

/-- `logger->log`. -/
def Logger.log (logger : Logger) (foreign : CallbackSink → Bool) (m : Message) : LogM W Unit := do
  if logger.level.shouldLog m.level then
    if logger.async then modify fun s => { s with queued := s.queued ++ [m] }
    else sinkIt foreign m logger.sinks

/-- `getInstance().getLogger()->log`. -/
def logMessage (foreign : CallbackSink → Bool) (m : Message) : LogM W Unit := do
  match (← get).logger with
  | none => throw .crash
  | some logger => logger.log foreign m

/-- A `std::any`: without a value, holding `nullptr`, or holding something
that `LoggerUtil::anyToString` gives a text for or does not. -/
inductive Any where
  | empty
  | nullptr
  | value (type : String) (text : Option String)

/-- Where a message comes from: `GET_LINE`. -/
structure SourceLine where
  fileName : String
  fileLine : Int
  function : String

/-- `"[{}:{}][{}]{}"`. -/
def SourceLine.format (src : SourceLine) (text : String) : String :=
  "[" ++ src.fileName ++ ":" ++ toString src.fileLine ++ "][" ++ src.function ++ "]" ++ text

def anyToString (foreign : CallbackSink → Bool) (src : SourceLine) : Any → LogM W String
  | .empty => do
      logMessage foreign ⟨.debug, src.format " anyToString: empty std::any"⟩
      return ""
  | .nullptr => do
      logMessage foreign
        ⟨.warn, src.format " anyToString: std::any holds nullptr_t (prefer empty std::any)"⟩
      return ""
  | .value type none => do
      logMessage foreign
        ⟨.debug, src.format (" anyToString: convert failed, type=" ++ type)⟩
      return ""
  | .value _ (some text) => return text

def linkString (foreign : CallbackSink → Bool) (src : SourceLine) : List Any → LogM W String
  | [] => return ""
  | msg :: msgList => do
      let msgStr ← anyToString foreign src msg
      let linkStr ← linkString foreign src msgList
      return msgStr ++ linkStr

def logImpl (foreign : CallbackSink → Bool) (src : SourceLine) (msgList : List Any)
    (showLine : Bool) (level : Level) : LogM W Unit := do
  let msg ← linkString foreign src msgList
  if msgList.length = 1 ∧ msg = "" then logMessage foreign ⟨level, src.format " 日志内容为空"⟩
  else if msgList.length > 1 ∧ msg = "" then
    logMessage foreign ⟨level, src.format " 日志打印失败，数据类型转换错误"⟩
  else if !showLine then logMessage foreign ⟨level, msg⟩
  else logMessage foreign ⟨level, src.format msg⟩

/-- The flag each of the logging functions passes on. -/
def LogPrivate.showLine (s : LogPrivate W) : Level → Bool
  | .trace => s.traceShowLine
  | .debug => s.debugShowLine
  | .info => s.infoShowLine
  | .warn => s.warnShowLine
  | .err => s.errorShowLine
  | .critical => s.criticalShowLine
  | .off => false

/-- `trace`, `debug`, `info`, `warn`, `error` and `critical`. -/
def log (foreign : CallbackSink → Bool) (level : Level) (src : SourceLine) (msgList : List Any) :
    LogM W Unit := do
  logImpl foreign src msgList ((← get).showLine level) level

end Log

end UempPlugin.Ref
