import UempPlugin.Lib.Faults
import UempPlugin.Ref.Logger

/-!
# What a configuration says, and what is wrong with it

A document is read here without running anything: the child under a key, the
value of a key when it reads as its type, the settings, the sinks it asks for.
Beside each stands the list of what may be thrown on the way there, in the
order the code checks it. What is thrown up to the replacement of the logger
and what is thrown after it are kept apart, since they leave different states
behind.

One fault is no exception: replacing a thread pool that cannot be taken down
never ends. It depends on the pool that is there, so the lists are given that
pool, and beside them stands the pool that a load leaves.
-/

namespace UempPlugin.Ref.Log

open UempPlugin.Lib
open Yaml (Node Convert getSequenceNode wrongType)

variable {W : World}

/-! ## Keys -/

/-- The child under a key, null when there is none. -/
def childAt (node : Node) (key : String) : Node :=
  match node with
  | .map pairs =>
      match Node.lookup key pairs with
      | some child => if child.isDefined then child else .null
      | none => .null
  | _ => .null

/-- The value of a key that has one and reads as `α`. -/
def valueAt {α : Type} [Convert α] (node : Node) (key : String) (dflt : α) : α :=
  match node with
  | .map pairs =>
      match Node.lookup key pairs with
      | some (.scalar text) => (Convert.decode text).getD dflt
      | _ => dflt
  | _ => dflt

/-- A scalar has no keys. -/
def subscriptFault (node : Node) (key : String) : Option Exn :=
  match node with
  | .scalar _ => some (.badSubscript key)
  | _ => none

/-- A key with a value that does not read as `α`. -/
def keyFault (α : Type) [Convert α] (node : Node) (key : String) : Option Exn :=
  match node with
  | .scalar _ => some (.badSubscript key)
  | .map pairs =>
      match Node.lookup key pairs with
      | none => none
      | some .null => none
      | some .undefined => none
      | some (.scalar text) =>
          if (Convert.decode text : Option α).isSome then none else some (wrongType key)
      | some _ => some (wrongType key)
  | _ => none

/-! ## The logger -/

def settingsFaults (loggerNode : Node) : List (Option Exn) :=
  ["name", "debug_level", "release_level", "flush_on", "pattern"].map (keyFault String loggerNode)

def settingsAt (loggerNode : Node) : Settings where
  loggerName := valueAt loggerNode "name" "default-logger"
  debugLevel := .fromStr (valueAt loggerNode "debug_level" "trace")
  releaseLevel := .fromStr (valueAt loggerNode "release_level" "info")
  flushOn := .fromStr (valueAt loggerNode "flush_on" "trace")
  logPattern := valueAt loggerNode "pattern" defaultPattern
  asyncEnabled :=
    valueAt loggerNode "async" "false" = "true" ∨ valueAt loggerNode "async" "false" = "1"
  asyncQueueSize := (Yaml.stoi (valueAt loggerNode "async_queue_size" "8192")).getD 8192
  asyncThreadCount := (Yaml.stoi (valueAt loggerNode "async_thread_count" "1")).getD 1

def showLineFaults (showCodeLineNode : Node) : List (Option Exn) :=
  if showCodeLineNode.isDefined && !showCodeLineNode.isNull then
    ["trace", "debug", "info", "warn", "error", "critical"].map (keyFault Bool showCodeLineNode)
  else []

def poolFaults (queue : Bool) (settings : Settings) : List (Option Exn) :=
  [if !queue then some .badAlloc else none,
    if toU64 settings.asyncThreadCount = 0 ∨ toU64 settings.asyncThreadCount > 1000 then
      some (.spdlogEx "spdlog::thread_pool(): invalid threads_n param (valid range is 1-1000)")
    else none]

/-! ## The sinks -/

/-- The faults of the keys after a path, which is looked at first. -/
def pathFaults (sinkNode : Node) (key : String) (rest : List (Option Exn)) : List (Option Exn) :=
  keyFault String sinkNode key :: if valueAt sinkNode key "" = "" then [] else rest

def sinkKeyFaults (type : String) (sinkNode : Node) : List (Option Exn) :=
  if type = "stdout_color_sink_mt" then []
  else if type = "daily_file_mt" then
    pathFaults sinkNode "file_path"
      [keyFault Int sinkNode "rotation_hour", keyFault Int sinkNode "rotation_min",
        keyFault Int sinkNode "max_days", keyFault Bool sinkNode "truncate"]
  else if type = "rotating_file_mt" then
    pathFaults sinkNode "file_path"
      [keyFault Int sinkNode "max_size", keyFault Int sinkNode "max_files",
        keyFault Bool sinkNode "rotate_on_open"]
  else if type = "basic_file_sink_mt" then
    pathFaults sinkNode "file_path" [keyFault Bool sinkNode "truncate"]
  else if type = "count_rotating_file_mt" then
    pathFaults sinkNode "file_path"
      [keyFault Int sinkNode "max_count", keyFault Int sinkNode "max_files",
        keyFault Bool sinkNode "rotate_on_open", keyFault Bool sinkNode "strict_count_on_open"]
  else if type = "daily_size_rotating_file_mt" then
    pathFaults sinkNode "root_dir"
      [keyFault String sinkNode "name", keyFault String sinkNode "date_name_format",
        keyFault Int sinkNode "rotation_hour", keyFault Int sinkNode "rotation_min",
        keyFault Int sinkNode "max_size", keyFault Int sinkNode "max_files",
        keyFault Bool sinkNode "rotate_on_open"]
  else []

/-- The path of a sink that has one, given to `config`. -/
def withPath (sinkNode : Node) (key : String) (config : String → SinkConfig) :
    Option SinkConfig :=
  if valueAt sinkNode key "" = "" then none else some (config (valueAt sinkNode key ""))

def maxSizeAt (sinkNode : Node) : Nat :=
  toU64 (wrapInt (valueAt sinkNode "max_size" (52428800 : Int) * 8 * 1024))

def maxFilesAt (sinkNode : Node) : Nat := toU64 (valueAt sinkNode "max_files" (10 : Int))

/-- The sink an entry asks for, if it is of a supported type and has its path. -/
def sinkConfigAt (type : String) (sinkNode : Node) : Option SinkConfig :=
  if type = "stdout_color_sink_mt" then some .stdoutColor
  else if type = "daily_file_mt" then
    withPath sinkNode "file_path" fun filePath =>
      .dailyFile filePath (valueAt sinkNode "rotation_hour" (0 : Int))
        (valueAt sinkNode "rotation_min" (0 : Int)) (valueAt sinkNode "truncate" false)
        (toU16 (valueAt sinkNode "max_days" (0 : Int)))
  else if type = "rotating_file_mt" then
    withPath sinkNode "file_path" fun filePath =>
      .rotatingFile filePath (maxSizeAt sinkNode) (maxFilesAt sinkNode)
        (valueAt sinkNode "rotate_on_open" false)
  else if type = "basic_file_sink_mt" then
    withPath sinkNode "file_path" fun filePath =>
      .basicFile filePath (valueAt sinkNode "truncate" false)
  else if type = "count_rotating_file_mt" then
    withPath sinkNode "file_path" fun filePath =>
      .countRotatingFile filePath (toU64 (valueAt sinkNode "max_count" (100000 : Int)))
        (maxFilesAt sinkNode) (valueAt sinkNode "rotate_on_open" false)
        (valueAt sinkNode "strict_count_on_open" true)
  else if type = "daily_size_rotating_file_mt" then
    withPath sinkNode "root_dir" fun rootDir =>
      .dailySizeRotatingFile rootDir (valueAt sinkNode "name" "{date}")
        (valueAt sinkNode "date_name_format" "yyyy-MM-dd")
        (valueAt sinkNode "rotation_hour" (0 : Int)) (valueAt sinkNode "rotation_min" (0 : Int))
        (maxSizeAt sinkNode) (maxFilesAt sinkNode) (valueAt sinkNode "rotate_on_open" false)
  else none

/-- The entry's sink: nothing for an entry that is null. -/
def entryConfig (sinkNode : Node) : Option SinkConfig :=
  if !sinkNode.isDefined || sinkNode.isNull then none
  else sinkConfigAt (valueAt sinkNode "type" "") sinkNode

/-- The faults of reading an entry. -/
def entryKeyFaults (sinkNode : Node) : List (Option Exn) :=
  if !sinkNode.isDefined || sinkNode.isNull then []
  else keyFault String sinkNode "type" :: keyFault String sinkNode "level" ::
    sinkKeyFaults (valueAt sinkNode "type" "") sinkNode

/-- The fault of opening the sink's file. -/
def openFault (config : SinkConfig) (outcome : SinkOutcome W config) : Option Exn :=
  if config.opens && !outcome.opens then
    some (.spdlogEx ("Failed opening file " ++ config.path ++ " for writing"))
  else none

/-- The faults of the constructor of the i-th sink, if there is one. -/
def constructFaults (env : LoadEnv W) (i : Nat) : Option SinkConfig → List (Option Exn)
  | none => []
  | some config => [config.refuses, openFault config (env.construct i config)]

/-- What the constructor of the i-th sink writes: nothing if it refuses its
arguments. -/
def constructWrites (env : LoadEnv W) (i : Nat) :
    Option SinkConfig → List (W.File × Option (List UInt8))
  | none => []
  | some config => if config.refuses = none then (env.construct i config).writes else []

def entryFaults (env : LoadEnv W) (i : Nat) (sinkNode : Node) : List (Option Exn) :=
  entryKeyFaults sinkNode ++ constructFaults env i (entryConfig sinkNode)

def entryWrites (env : LoadEnv W) (i : Nat) (sinkNode : Node) :
    List (W.File × Option (List UInt8)) :=
  if firstFault (entryKeyFaults sinkNode) = none then constructWrites env i (entryConfig sinkNode)
  else []

def entrySinks (sinkNode : Node) : List Sink :=
  match entryConfig sinkNode with
  | none => []
  | some config => [.configured config (.fromStr (valueAt sinkNode "level" "trace"))]

/-! The `n` entries from index `i` on. The code stops at the first entry with
a fault, and what that entry wrote stays. -/

def sinksFaults (env : LoadEnv W) (sinksNode : Node) : Nat → Nat → List (Option Exn)
  | 0, _ => []
  | n + 1, i =>
      entryFaults env i (getSequenceNode sinksNode i) ++ sinksFaults env sinksNode n (i + 1)

def sinksWrites (env : LoadEnv W) (sinksNode : Node) :
    Nat → Nat → List (W.File × Option (List UInt8))
  | 0, _ => []
  | n + 1, i =>
      entryWrites env i (getSequenceNode sinksNode i) ++
        if firstFault (entryFaults env i (getSequenceNode sinksNode i)) = none then
          sinksWrites env sinksNode n (i + 1)
        else []

def sinksAt (sinksNode : Node) : Nat → Nat → List Sink
  | 0, _ => []
  | n + 1, i => entrySinks (getSequenceNode sinksNode i) ++ sinksAt sinksNode n (i + 1)

/-! ## The document -/

/-- A node that must be there. -/
def absentFault (what : String) (node : Node) : Option Exn :=
  if !node.isDefined || node.isNull then some (.spdlogEx what) else none

def sequenceFault (sinksNode : Node) : Option Exn :=
  if !sinksNode.isDefined || sinksNode.isNull || !sinksNode.isSequence then
    some (.spdlogEx "在日志yaml配置文件中, <Sinks> 节点未定义、为空，或不是序列")
  else none

def absoluteFault (ok : Bool) : Option Exn :=
  if ok then none else some (.filesystemError "cannot make absolute path")

def logConfigAt (root : Node) : Node := childAt root "log_config"

def loggerAt (root : Node) : Node := childAt (logConfigAt root) "logger"

def sinksNodeAt (root : Node) : Node := childAt (logConfigAt root) "sinks"

/-- Everything up to the sinks. -/
def headFaults (root : Node) : List (Option Exn) :=
  [subscriptFault root "log_config",
    absentFault "日志yaml配置文件中, <LogConfig> 节点未定义或为空" (logConfigAt root),
    subscriptFault (logConfigAt root) "logger",
    absentFault "日志yaml配置文件中, <Logger> 节点未定义或为空" (loggerAt root)] ++
  settingsFaults (loggerAt root) ++
  [subscriptFault (logConfigAt root) "showCodeLine"] ++
  showLineFaults (childAt (logConfigAt root) "showCodeLine") ++
  [subscriptFault (logConfigAt root) "sinks", sequenceFault (sinksNodeAt root)]

/-- Taking down the pool that is replaced. -/
def replaceFault (pool : Option Nat) : Option Exn :=
  if pool.any stuck then some .blocked else none

/-- The pool of a logger that is asynchronous. -/
def asyncFaults (queue : Bool) (pool : Option Nat) (settings : Settings) : List (Option Exn) :=
  if settings.asyncEnabled then poolFaults queue settings ++ [replaceFault pool] else []

/-- The pool there is then. -/
def poolAfter (queue : Bool) (pool : Option Nat) (settings : Settings) : Option Nat :=
  if settings.asyncEnabled ∧ firstFault (poolFaults queue settings) = none then
    some (toU64 settings.asyncQueueSize)
  else pool

/-- The fault that leaves `m_logger` null. -/
def faultBefore (env : LoadEnv W) (configFilePath : String) (pool : Option Nat) :
    Option Node → Option Exn
  | none =>
      (absoluteFault env.absolute).or
        (some (.spdlogEx ("加载日志yaml配置文件失败，路径：" ++ configFilePath)))
  | some root =>
      (firstFault (headFaults root)).or
        (if (sinksNodeAt root).size = 0 then
          firstFault (asyncFaults env.consoleQueue pool (settingsAt (loggerAt root)))
        else (firstFault (sinksFaults env (sinksNodeAt root) (sinksNodeAt root).size 0)).or
          (firstFault (asyncFaults env.queue pool (settingsAt (loggerAt root)))))

/-- The fault that leaves a logger behind. The second pool of an empty list
replaces the first. -/
def faultAfter (env : LoadEnv W) (pool : Option Nat) : Option Node → Option Exn
  | none => none
  | some root =>
      (if (sinksNodeAt root).size = 0 then
        firstFault (asyncFaults env.queue
          (poolAfter env.consoleQueue pool (settingsAt (loggerAt root)))
          (settingsAt (loggerAt root)))
      else none).or (absoluteFault env.absolute)

/-- The pool after a load, however it ends. -/
def loadedPool (env : LoadEnv W) (pool : Option Nat) : Option Node → Option Nat
  | none => pool
  | some root =>
      if firstFault (headFaults root) = none then
        if (sinksNodeAt root).size = 0 then
          if firstFault (asyncFaults env.consoleQueue pool (settingsAt (loggerAt root))) = none then
            poolAfter env.queue (poolAfter env.consoleQueue pool (settingsAt (loggerAt root)))
              (settingsAt (loggerAt root))
          else poolAfter env.consoleQueue pool (settingsAt (loggerAt root))
        else
          if firstFault (sinksFaults env (sinksNodeAt root) (sinksNodeAt root).size 0) = none then
            poolAfter env.queue pool (settingsAt (loggerAt root))
          else pool
      else pool

/-- What loading writes. -/
def loadWrites (env : LoadEnv W) : Option Node → List (W.File × Option (List UInt8))
  | none => []
  | some root =>
      if firstFault (headFaults root) = none then
        sinksWrites env (sinksNodeAt root) (sinksNodeAt root).size 0
      else []

/-- The sinks a document configures. -/
def configuredSinks : Option Node → List Sink
  | none => []
  | some root => sinksAt (sinksNodeAt root) (sinksNodeAt root).size 0

/-! ## A call of `setConfigPath` -/

/-- The document `loadDefaultConfig` writes. -/
def defaultDoc : Node := orElse .null defaultConfig

theorem defaultConfig_eq : defaultConfig = .ok defaultDoc := rfl

/-- The files once the default configuration was saved. -/
def saved (outcome : SaveOutcome) (configFilePath : String)
    (files : W.File → Option (List UInt8)) : W.File → Option (List UInt8) :=
  match outcome with
  | .notOpened => files
  | .written count =>
      Function.update files (W.resolve configFilePath) (some ((W.emit defaultDoc).take count))

/-- The document that is loaded after saving. -/
def savedDoc (env : DefaultEnv W) (configFilePath : String)
    (files : W.File → Option (List UInt8)) : Option Node :=
  loadFile env.reload configFilePath (saved env.save configFilePath files)

/-- Of the faults that leave a logger, the one that is no exception. -/
def hangs (fault : Option Exn) : Option Exn := if fault = some .blocked then fault else none

/-- The fault that leaves `m_logger` null after falling back, or never lets the
fallback end. When the path is not announced, nothing is reloaded and the
default logger stays. -/
def fallbackFault (env : DefaultEnv W) (configFilePath : String)
    (files : W.File → Option (List UInt8)) (pool : Option Nat) : Option Exn :=
  if env.absolute then
    (faultBefore env.reload configFilePath pool (savedDoc env configFilePath files)).or
      (hangs (faultAfter env.reload pool (savedDoc env configFilePath files)))
  else none

def fallbackFiles (env : DefaultEnv W) (configFilePath : String)
    (files : W.File → Option (List UInt8)) : W.File → Option (List UInt8) :=
  if env.absolute then
    applyWrites (loadWrites env.reload (savedDoc env configFilePath files))
      (saved env.save configFilePath files)
  else saved env.save configFilePath files

/-- The fault of the first load, whichever state it leaves. -/
def loadFault (env : LoadEnv W) (configFilePath : String)
    (files : W.File → Option (List UInt8)) (pool : Option Nat) : Option Exn :=
  (faultBefore env configFilePath pool (loadFile env configFilePath files)).or
    (faultAfter env pool (loadFile env configFilePath files))

/-- The files after the first load. -/
def loadedFiles (env : LoadEnv W) (configFilePath : String)
    (files : W.File → Option (List UInt8)) : W.File → Option (List UInt8) :=
  applyWrites (loadWrites env (loadFile env configFilePath files)) files

/-- The load passes every check, or the first check it fails throws
`spdlog_ex` and the default configuration is loaded up to its logger. -/
def Boots (load : LoadEnv W) (fallback : DefaultEnv W) (configFilePath : String)
    (files : W.File → Option (List UInt8)) (pool : Option Nat) : Prop :=
  match loadFault load configFilePath files pool with
  | none => True
  | some (.spdlogEx _) =>
      fallbackFault fallback configFilePath (loadedFiles load configFilePath files)
        (loadedPool load pool (loadFile load configFilePath files)) = none
  | some _ => False

/-- The files when the loading is over. -/
def bootedFiles (load : LoadEnv W) (fallback : DefaultEnv W) (configFilePath : String)
    (files : W.File → Option (List UInt8)) (pool : Option Nat) :
    W.File → Option (List UInt8) :=
  match loadFault load configFilePath files pool with
  | some (.spdlogEx _) =>
      fallbackFiles fallback configFilePath (loadedFiles load configFilePath files)
  | _ => loadedFiles load configFilePath files

/-- What deleting the old configuration throws. -/
def deleteFault (env : DeleteEnv) (configFilePath : String)
    (files : W.File → Option (List UInt8)) : Option Exn :=
  if configFilePath = "" then none
  else firstFault
    [if env.stat then none else some (.filesystemError "cannot get file status"),
      if (files (W.resolve configFilePath)).isSome ∧ env.remove = .throws then
        some (.filesystemError "cannot remove")
      else none,
      absoluteFault env.absolute]

end UempPlugin.Ref.Log
