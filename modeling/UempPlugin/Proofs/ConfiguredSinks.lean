import UempPlugin.Lib.Simulation
import UempPlugin.Ref.DailySize
import UempPlugin.Proofs.LoadConfig

/-!
# The sinks a configuration asks for

A load that returns leaves one sink for each entry that asks for one, in the
order of the entries, asynchronous or not. What breaks this is the empty list:
the console logger made for it is replaced before anybody sees it.

The limits of a sink come out of the same entries. Counts are converted from
`int`, and sizes go through a product in bits as well, so which limits survive
is a question of ranges.
-/

namespace UempPlugin.Ref.Log

open UempPlugin.Lib
open Yaml (Node getSequenceNode)

variable {W : World}

/-! ## What a load that returns did -/

/-- The entries of the sinks sequence. -/
def entries (root : Node) : List Node :=
  match sinksNodeAt root with
  | .sequence items => items.takeWhile Node.isDefined
  | _ => []

/-- The item under an index below the size. -/
theorem getSequenceNode_of_lt {items : List Node} {i : Nat}
    (h : i < (items.takeWhile Node.isDefined).length) :
    getSequenceNode (.sequence items) i = (items.takeWhile Node.isDefined)[i] := by
  have hitem : items[i]? = some (items.takeWhile Node.isDefined)[i] := by
    obtain ⟨rest, hrest⟩ := List.takeWhile_prefix Node.isDefined (l := items)
    have happ : (items.takeWhile Node.isDefined ++ rest)[i]? = _ := List.getElem?_append_left h
    rw [hrest, List.getElem?_eq_getElem h] at happ
    exact happ
  have hdefined : (items.takeWhile Node.isDefined)[i].isDefined = true :=
    List.all_eq_true.1 List.all_takeWhile _ (List.getElem_mem h)
  rw [getSequenceNode, if_pos (by exact h), hitem]
  simp only [hdefined, if_true]

theorem sinksAt_drop {items : List Node} :
    ∀ (n i : Nat), n + i = (items.takeWhile Node.isDefined).length →
      sinksAt (.sequence items) n i =
        ((items.takeWhile Node.isDefined).drop i).flatMap entrySinks := by
  intro n
  induction n with
  | zero =>
      intro i hlen
      rw [Nat.zero_add] at hlen
      rw [hlen, List.drop_length]
      rfl
  | succ n ih =>
      intro i hlen
      have hlt : i < (items.takeWhile Node.isDefined).length := by omega
      rw [sinksAt, getSequenceNode_of_lt hlt, ih (i + 1) (by omega), List.drop_eq_getElem_cons hlt,
        List.flatMap_cons]

/-- The configured sinks, entry by entry. -/
theorem configuredSinks_entries {root : Node} (hseq : (sinksNodeAt root).isSequence = true) :
    configuredSinks (some root) = (entries root).flatMap entrySinks := by
  rw [configuredSinks, entries]
  cases hnode : sinksNodeAt root with
  | sequence items =>
      rw [Node.size, sinksAt_drop _ 0 (by rw [Nat.add_zero]), List.drop_zero]
  | _ => simp [hnode, Node.isSequence] at hseq

theorem createLogger_ok {env : LoadEnv W} {settings : Settings} {sinks : List Sink}
    {s s' : LogPrivate W} (h : createLogger env settings sinks s = .ok () s') :
    s'.logger = some (settings.logger sinks) := by
  obtain ⟨_, s₁, -, h⟩ := bind_ok h
  obtain ⟨_, s₂, hset, h⟩ := bind_ok h
  cases hset
  exact ((absolute_obeys env.absolute).of_ok h).2.2.logger

/-- A load that returned read a document whose sinks are a sequence, and left
the logger that it describes. -/
theorem loadConfigFile_ok {env : LoadEnv W} {configFilePath : String} {s s' : LogPrivate W}
    (h : loadConfigFile env configFilePath s = .ok () s') :
    ∃ root, loadFile env configFilePath s.files = some root ∧
      (sinksNodeAt root).isSequence = true ∧
      s'.logger = some ((settingsAt (loggerAt root)).logger (configuredSinks (some root))) := by
  rw [loadConfigFile_eq] at h
  cases hdoc : loadFile env configFilePath s.files with
  | none =>
      rw [hdoc] at h
      obtain ⟨_, _, _, hthrow⟩ := bind_ok h
      cases hthrow
  | some root =>
      rw [hdoc] at h
      obtain ⟨head, s₁, hhead, h⟩ := bind_ok h
      obtain ⟨hfaults, rfl, -⟩ := (loadHead_obeys configFilePath root).of_ok hhead
      have hseq : (sinksNodeAt root).isSequence = true := by
        have hfault := firstFault_eq_none.1 hfaults (sequenceFault (sinksNodeAt root))
          (List.mem_append_right _ (by simp))
        rw [sequenceFault] at hfault
        split at hfault
        · cases hfault
        · next hall =>
            simp only [Bool.or_eq_true, Bool.not_eq_true', not_or, Bool.not_eq_false] at hall
            exact hall.2
      refine ⟨root, rfl, hseq, ?_⟩
      dsimp only at h
      split at h
      · next hempty =>
          obtain ⟨_, s₂, -, h⟩ := bind_ok h
          obtain ⟨_, s₃, -, h⟩ := bind_ok h
          rw [createLogger_ok h, configuredSinks, hempty]
          rfl
      · obtain ⟨sinks, s₂, hsinks, h⟩ := bind_ok h
        obtain ⟨-, rfl, -⟩ := (loadSinks_obeys env _ _ 0).of_ok hsinks
        exact createLogger_ok h

/-! ## Which entries ask for a sink -/

/-- The supported types, and the key of the path that each needs. -/
def supportedTypes : List (String × Option String) :=
  [("stdout_color_sink_mt", none), ("daily_file_mt", some "file_path"),
    ("rotating_file_mt", some "file_path"), ("basic_file_sink_mt", some "file_path"),
    ("count_rotating_file_mt", some "file_path"), ("daily_size_rotating_file_mt", some "root_dir")]

/-- The entry is of a supported type, and has a path if it needs one. -/
def Wanted (entry : Node) : Bool :=
  entry.isDefined && !entry.isNull &&
    match supportedTypes.lookup (valueAt entry "type" "") with
    | none => false
    | some none => true
    | some (some key) => valueAt entry key "" ≠ ""

/-- The sink of an entry that asks for one. -/
def sinkOf (entry : Node) : Sink :=
  .configured ((entryConfig entry).getD .stdoutColor) (.fromStr (valueAt entry "level" "trace"))

theorem withPath_isSome (entry : Node) (key : String) (config : String → SinkConfig) :
    (withPath entry key config).isSome = (valueAt entry key "" ≠ "" : Bool) := by
  rw [withPath]
  split
  · next hpath => simp [hpath]
  · next hpath => simp [hpath]

theorem entryConfig_isSome (entry : Node) : (entryConfig entry).isSome = Wanted entry := by
  rw [entryConfig, Wanted]
  split
  · next hnull =>
      rw [Option.isSome_none]
      symm
      rw [Bool.and_eq_false_iff]
      left
      cases entry <;> simp_all [Node.isDefined, Node.isNull]
  · next hnull =>
      have hhere : (entry.isDefined && !entry.isNull) = true := by
        cases entry <;> simp_all [Node.isDefined, Node.isNull]
      rw [hhere, Bool.true_and, sinkConfigAt]
      generalize valueAt entry "type" "" = type
      split
      · next h => subst h; rfl
      split
      · next h => subst h; exact withPath_isSome entry "file_path" _
      split
      · next h => subst h; exact withPath_isSome entry "file_path" _
      split
      · next h => subst h; exact withPath_isSome entry "file_path" _
      split
      · next h => subst h; exact withPath_isSome entry "file_path" _
      split
      · next h => subst h; exact withPath_isSome entry "root_dir" _
      · next h₁ h₂ h₃ h₄ h₅ h₆ =>
          have hnone : supportedTypes.lookup type = none := by
            simp only [supportedTypes, List.lookup_cons, List.lookup_nil, beq_false_of_ne h₁,
              beq_false_of_ne h₂, beq_false_of_ne h₃, beq_false_of_ne h₄, beq_false_of_ne h₅,
              beq_false_of_ne h₆]
          rw [hnone]
          rfl

/-- What the sinks of the logger should be: one for each entry that asks for
one, and for an empty list the console. -/
def specifiedSinks (root : Node) : List Sink :=
  if entries root = [] then [.configured .stdoutColor .trace]
  else ((entries root).filter Wanted).map sinkOf

theorem entrySinks_eq (entry : Node) :
    entrySinks entry = if Wanted entry then [sinkOf entry] else [] := by
  rw [← entryConfig_isSome, entrySinks, sinkOf]
  cases entryConfig entry <;> rfl

theorem flatMap_entrySinks (es : List Node) :
    es.flatMap entrySinks = (es.filter Wanted).map sinkOf := by
  induction es with
  | nil => rfl
  | cons entry es ih =>
      rw [List.flatMap_cons, ih, entrySinks_eq, List.filter_cons]
      split <;> rfl

/-- The sinks of a logger that was loaded are those specified, exactly when
the sequence of sinks is not empty. -/
theorem loaded_sinks_iff (env : LoadEnv W) (configFilePath : String) (s : LogPrivate W)
    {s' : LogPrivate W} {root : Node} (hdoc : loadFile env configFilePath s.files = some root)
    (h : loadConfigFile env configFilePath s = .ok () s') :
    (∃ logger, s'.logger = some logger ∧ logger.sinks = specifiedSinks root) ↔
      entries root ≠ [] := by
  obtain ⟨root', hdoc', hseq, hlogger⟩ := loadConfigFile_ok h
  rw [hdoc, Option.some.injEq] at hdoc'
  subst hdoc'
  have hsinks : (∃ logger, s'.logger = some logger ∧ logger.sinks = specifiedSinks root) ↔
      ((entries root).filter Wanted).map sinkOf = specifiedSinks root := by
    rw [hlogger, ← flatMap_entrySinks, ← configuredSinks_entries hseq]
    constructor
    · rintro ⟨logger, heq, hspec⟩
      cases heq
      exact hspec
    · intro hspec
      exact ⟨_, rfl, hspec⟩
  rw [hsinks, specifiedSinks]
  by_cases hempty : entries root = []
  · simp [hempty]
  · simp [hempty]

/-! ## Two documents -/

/-- A file system of plain names, and a parser that knows one text. -/
def knowing (text : List UInt8) (doc : Node) : World where
  File := String
  resolve := id
  parse := fun bytes => if bytes = text then some doc else none
  emit := fun _ => []

def bytesOf (text : String) : List UInt8 := text.toList.map fun c => c.val.toUInt8

/-- The state before a document at `log.yaml` is loaded. -/
def facing (text : List UInt8) (doc : Node) : LogPrivate (knowing text doc) where
  files := fun (f : String) => if f = "log.yaml" then some text else none

def working (W : World) : LoadEnv W where
  construct := fun _ _ => ⟨true, [], by simp⟩

def consoleDoc : Node :=
  .map [(.scalar "log_config", .map [
    (.scalar "logger", .map [(.scalar "name", .scalar "a")]),
    (.scalar "sinks", .sequence [.map [(.scalar "type", .scalar "stdout_color_sink_mt")]])])]

def consoleText : List UInt8 :=
  bytesOf "log_config: {logger: {name: a}, sinks: [{type: stdout_color_sink_mt}]}"

theorem loaded_sinks_console :
    ∃ s', loadConfigFile (working _) "log.yaml" (facing consoleText consoleDoc) = .ok () s' ∧
      ((∃ logger, s'.logger = some logger ∧ logger.sinks = specifiedSinks consoleDoc) ↔
        entries consoleDoc ≠ []) :=
  ⟨_, rfl, loaded_sinks_iff (working _) "log.yaml" (facing consoleText consoleDoc) rfl rfl⟩

def noSinksDoc : Node :=
  .map [(.scalar "log_config", .map [
    (.scalar "logger", .map [(.scalar "name", .scalar "a")]),
    (.scalar "sinks", .sequence [])])]

def noSinksText : List UInt8 := bytesOf "log_config: {logger: {name: a}, sinks: []}"

/-- With an empty list of sinks the logger has none, and not the console that
was announced. -/
theorem empty_list_no_console :
    ∃ s' logger, loadConfigFile (working _) "log.yaml" (facing noSinksText noSinksDoc) = .ok () s' ∧
      s'.logger = some logger ∧ logger.sinks = [] ∧
      specifiedSinks noSinksDoc = [.configured .stdoutColor .trace] :=
  ⟨_, _, rfl, rfl, rfl, rfl⟩

end UempPlugin.Ref.Log
