import UempPlugin.Proofs.UsableLogger

/-!
# What a call leaves of its configuration

Three parts of `setConfigPath` write files: the constructors of the configured
sinks, the default writer behind a load that failed, and the deletion of the
old configuration. Each is named by the documents and paths alone, so what is
left of the file the call was pointed at can be read off them.
-/

namespace UempPlugin.Ref.Log

open UempPlugin.Lib
open Yaml (Node getSequenceNode)

variable {W : World}

/-- No sink that the document configures touches the file. -/
def LeavesAlone (doc : Option Node) (f : W.File) : Prop :=
  ∀ config level, Sink.configured config level ∈ configuredSinks doc → ¬ config.Touches W f

theorem applyWrites_of_ne {writes : List (W.File × Option (List UInt8))} {f : W.File}
    (h : ∀ w ∈ writes, w.1 ≠ f) (files : W.File → Option (List UInt8)) :
    applyWrites writes files f = files f := by
  induction writes generalizing files with
  | nil => rfl
  | cons w writes ih =>
      have hrest := ih (fun w' hw' => h w' (List.mem_cons_of_mem _ hw'))
        (Function.update files w.1 w.2)
      rw [Function.update_of_ne (h w List.mem_cons_self).symm] at hrest
      exact hrest

/-- What an entry writes belongs to its sink. -/
theorem entryWrites_touches {env : LoadEnv W} {i : Nat} {sinkNode : Node}
    {w : W.File × Option (List UInt8)} (hw : w ∈ entryWrites env i sinkNode) :
    ∃ config level, Sink.configured config level ∈ entrySinks sinkNode ∧
      config.Touches W w.1 := by
  rw [entryWrites] at hw
  split at hw
  · cases hconfig : entryConfig sinkNode with
    | none =>
        rw [hconfig] at hw
        cases hw
    | some config =>
        rw [hconfig, constructWrites] at hw
        split at hw
        · refine ⟨config, .fromStr (valueAt sinkNode "level" "trace"), ?_,
            (env.construct i config).own w hw⟩
          rw [entrySinks, hconfig]
          exact List.mem_singleton_self _
        · cases hw
  · cases hw

theorem sinksWrites_touches {env : LoadEnv W} {sinksNode : Node}
    {w : W.File × Option (List UInt8)} :
    ∀ {n i : Nat}, w ∈ sinksWrites env sinksNode n i →
      ∃ config level, Sink.configured config level ∈ sinksAt sinksNode n i ∧
        config.Touches W w.1 := by
  intro n
  induction n with
  | zero =>
      intro i hw
      cases hw
  | succ n ih =>
      intro i hw
      rw [sinksWrites, List.mem_append] at hw
      rcases hw with hentry | hrest
      · obtain ⟨config, level, hmem, htouches⟩ := entryWrites_touches hentry
        exact ⟨config, level, List.mem_append_left _ hmem, htouches⟩
      · split at hrest
        · obtain ⟨config, level, hmem, htouches⟩ := ih hrest
          exact ⟨config, level, List.mem_append_right _ hmem, htouches⟩
        · cases hrest

/-- Loading a document leaves a file alone that none of its sinks touches. -/
theorem applyWrites_load {env : LoadEnv W} {doc : Option Node} {f : W.File}
    (h : LeavesAlone doc f) (files : W.File → Option (List UInt8)) :
    applyWrites (loadWrites env doc) files f = files f := by
  refine applyWrites_of_ne ?_ files
  intro w hw heq
  cases doc with
  | none => cases hw
  | some root =>
      rw [loadWrites] at hw
      split at hw
      · obtain ⟨config, level, hmem, htouches⟩ := sinksWrites_touches hw
        exact h config level hmem (heq ▸ htouches)
      · cases hw

/-- What the default writer makes of the bytes at its path. -/
def savedBytes (W : World) (outcome : SaveOutcome) (bytes : Option (List UInt8)) :
    Option (List UInt8) :=
  match outcome with
  | .notOpened => bytes
  | .written count => some ((W.emit defaultDoc).take count)

theorem saved_self (outcome : SaveOutcome) (configFilePath : String)
    (files : W.File → Option (List UInt8)) :
    saved outcome configFilePath files (W.resolve configFilePath) =
      savedBytes W outcome (files (W.resolve configFilePath)) := by
  cases outcome with
  | notOpened => rfl
  | written count => exact Function.update_self _ _ _

/-- The documents of a call leave the file at its path alone: the one that is
there, and after falling back the one that was written there. -/
structure Call.Apart (c : Call W) (pool : Option Nat) : Prop where
  loaded : LeavesAlone (loadFile c.env.load c.configFilePath c.files) (W.resolve c.configFilePath)
  reloaded : ∀ what, loadFault c.env.load c.configFilePath c.files pool = some (.spdlogEx what) →
    LeavesAlone (savedDoc c.env.fallback c.configFilePath
      (loadedFiles c.env.load c.configFilePath c.files)) (W.resolve c.configFilePath)

/-- What the call leaves of the bytes at its path. -/
def Call.keptBytes (c : Call W) (pool : Option Nat) : Option (List UInt8) :=
  match loadFault c.env.load c.configFilePath c.files pool with
  | some (.spdlogEx _) => savedBytes W c.env.fallback.save (c.files (W.resolve c.configFilePath))
  | _ => c.files (W.resolve c.configFilePath)

theorem Call.booted_self {c : Call W} {pool : Option Nat} (h : c.Apart pool) :
    bootedFiles c.env.load c.env.fallback c.configFilePath c.files pool
        (W.resolve c.configFilePath) =
      c.keptBytes pool := by
  have hloaded : loadedFiles c.env.load c.configFilePath c.files (W.resolve c.configFilePath) =
      c.files (W.resolve c.configFilePath) := applyWrites_load h.loaded c.files
  rw [bootedFiles, keptBytes]
  cases hfault : loadFault c.env.load c.configFilePath c.files pool with
  | none => exact hloaded
  | some e =>
      cases e with
      | spdlogEx what =>
          show fallbackFiles c.env.fallback c.configFilePath
            (loadedFiles c.env.load c.configFilePath c.files) (W.resolve c.configFilePath) = _
          rw [fallbackFiles]
          split
          · rw [applyWrites_load (h.reloaded what hfault), saved_self, hloaded]
          · rw [saved_self, hloaded]
      | _ => exact hloaded

/-- The files a call ends with are those of the loading, but for the old
configuration when that is to be deleted. -/
theorem Call.run_files (c : Call W) (s : LogPrivate W) {f : W.File}
    (hold : c.isDeleteOldConfig → W.resolve s.configFilePath ≠ f) :
    (final (c.run s)).files f =
      bootedFiles c.env.load c.env.fallback c.configFilePath c.files s.pool f := by
  obtain ⟨s', -, hfiles, -, hfinal, -⟩ := loadOrDefault_spec c.env.load c.env.fallback
    c.configFilePath { s with files := c.files }
  rw [← hfiles]
  cases he : loadOrDefault c.env.load c.env.fallback c.configFilePath
      { s with files := c.files } with
  | error e t =>
      rw [he] at hfinal
      rw [run_error he, show t = s' from hfinal]
      rfl
  | ok u t =>
      rw [he] at hfinal
      rw [run_ok he, show t = s' from hfinal, cleanUp]
      split
      · next hdelete =>
          obtain ⟨s'', hclean, hd⟩ := deleteOldConfig_spec c.env.delete s.configFilePath s'
          rw [hclean, final_ending]
          exact hd.files f (hold hdelete).symm
      · rfl

/-- The file a call is pointed at is still there when its own sinks keep away
from it and it is not itself the old configuration to be deleted. It has the
same bytes, unless loading it failed with `spdlog_ex`: then it has those of the
default configuration, as far as they were written. -/
theorem config_file_kept (c : Call W) (s : LogPrivate W)
    (hfile : (c.files (W.resolve c.configFilePath)).isSome) (hapart : c.Apart s.pool)
    (hold : c.isDeleteOldConfig → W.resolve s.configFilePath ≠ W.resolve c.configFilePath) :
    (final (c.run s)).files (W.resolve c.configFilePath) = c.keptBytes s.pool ∧
      (c.keptBytes s.pool).isSome := by
  refine ⟨(c.run_files s hold).trans (Call.booted_self hapart), ?_⟩
  rw [Call.keptBytes]
  split
  · cases c.env.fallback.save with
    | notOpened => exact hfile
    | written count => rfl
  · exact hfile

/-! ## Files that are not kept -/

/-- The first line of the default configuration. -/
def firstLine : List UInt8 := "log_config:".toList.map fun c => c.val.toUInt8

/-- A configuration whose sink logs into the configuration. -/
def selfLogText : List UInt8 :=
  "log_config: {logger: {name: a}, sinks: [{type: basic_file_sink_mt, file_path: log.yaml, truncate: true}]}".toList.map
    fun c => c.val.toUInt8

def selfLogDoc : Node :=
  .map [(.scalar "log_config", .map [
    (.scalar "logger", .map [(.scalar "name", .scalar "a")]),
    (.scalar "sinks", .sequence [.map [
      (.scalar "type", .scalar "basic_file_sink_mt"),
      (.scalar "file_path", .scalar "log.yaml"),
      (.scalar "truncate", .scalar "true")]])])]

/-- A file system of plain names. The empty text is a null document, and of the
default configuration one line is known. -/
def lineWorld : World where
  File := String
  resolve := id
  parse := fun bytes =>
    if bytes = [] then some .null
    else if bytes = firstLine then some (.map [(.scalar "log_config", .null)])
    else if bytes = selfLogText then some selfLogDoc
    else none
  emit := fun _ => firstLine

/-- A file that is opened to be truncated is empty. -/
def truncating (config : SinkConfig) : SinkOutcome lineWorld config where
  opens := true
  writes :=
    match config with
    | .basicFile filePath true => [((filePath : String), some [])]
    | _ => []
  own := by
    intro w hw
    split at hw
    · rw [List.mem_singleton] at hw
      rw [hw]
      rfl
    · cases hw

/-- A call on `log.yaml`. Its default writer gets as far as one line. -/
def lineCall (text : List UInt8) (isDeleteOldConfig : Bool) : Call lineWorld where
  files := fun (f : String) => if f = "log.yaml" then some text else none
  env := {
    load := { construct := fun _ => truncating }
    fallback := {
      save := .written 11
      reload := { construct := fun _ => truncating } } }
  configFilePath := "log.yaml"
  isDeleteOldConfig := isDeleteOldConfig

def lineStart : LogPrivate lineWorld where
  files := fun _ => none

theorem lineCall_apart : (lineCall [] true).Apart none where
  loaded := fun _ _ hmem => absurd hmem List.not_mem_nil
  reloaded := fun _ _ _ _ hmem => absurd hmem List.not_mem_nil

theorem config_file_kept_line :
    (final ((lineCall [] true).run lineStart)).files ("log.yaml" : String) =
        (lineCall [] true).keptBytes none ∧ ((lineCall [] true).keptBytes none).isSome :=
  config_file_kept (lineCall [] true) lineStart rfl lineCall_apart
    (fun _ => by decide : true → ("./log_config.yaml" : String) ≠ "log.yaml")

/-- An empty configuration is overwritten, and one whose sink truncates it is
truncated. -/
theorem configuration_overwritten :
    ((lineCall [] false).files ("log.yaml" : String) = some [] ∧
      (final ((lineCall [] false).run lineStart)).files ("log.yaml" : String) = some firstLine ∧
      firstLine ≠ []) ∧
    ((lineCall selfLogText false).files ("log.yaml" : String) = some selfLogText ∧
      (final ((lineCall selfLogText false).run lineStart)).files ("log.yaml" : String) = some [] ∧
      selfLogText ≠ []) :=
  ⟨⟨rfl, rfl, by decide⟩, rfl, rfl, by decide⟩

end UempPlugin.Ref.Log
