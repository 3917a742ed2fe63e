import UempPlugin.Lib.Simulation
import UempPlugin.Proofs.LoadConfig

/-!
# When a logger is left

`setConfigPath` resets the logger before it reads anything, and catches one
type of exception. So a call leaves a logger exactly when its document is
loaded, or fails with that type and the default configuration written in its
place is loaded. A run of calls leaves a logger after each of them exactly when
every call is of that kind.

A load can also never end. The thread pool of an asynchronous logger replaces
the one before, and that one cannot be taken down when its queue lets nothing
through. So whether a call is of that kind depends on the pool it finds.
-/

namespace UempPlugin.Ref.Log

open UempPlugin.Lib
open Yaml (Node)

variable {W : World}

/-! ## Falling back -/

/-- The callbacks and what they saw are not touched. -/
structure Keeps (s s' : LogPrivate W) : Prop where
  callbackSinks : s'.callbackSinks = s.callbackSinks
  nextPtr : s'.nextPtr = s.nextPtr
  invoked : s'.invoked = s.invoked
  queued : s'.queued = s.queued

theorem Keeps.trans {s s' s'' : LogPrivate W} (h : Keeps s s') (h' : Keeps s' s'') :
    Keeps s s'' where
  callbackSinks := h'.callbackSinks.trans h.callbackSinks
  nextPtr := h'.nextPtr.trans h.nextPtr
  invoked := h'.invoked.trans h.invoked
  queued := h'.queued.trans h.queued

theorem Reloaded.keeps {ws : List (W.File × Option (List UInt8))} {s s' : LogPrivate W}
    (h : Reloaded ws s s') : Keeps s s' :=
  ⟨h.callbackSinks, h.nextPtr, h.invoked, h.queued⟩

theorem saveAsFile_run (outcome : SaveOutcome) (configFilePath : String) (s : LogPrivate W) :
    saveAsFile defaultDoc configFilePath outcome s =
      .ok () { s with files := saved outcome configFilePath s.files } := by
  cases outcome <;> rfl

/-- No callback is attached to the logger, if there is one. -/
def Detached (s : LogPrivate W) : Prop := s.logger = none ∨ Fresh s

/-- A fault was swallowed: what is left is no logger, or without a fault a
fresh one. Only a block is not swallowed. -/
def Swallowed (fault : Option Exn) (r : EStateM.Result Exn (LogPrivate W) Unit)
    (s : LogPrivate W) : Prop :=
  match fault with
  | none => r = .ok () s ∧ Fresh s
  | some .blocked => r = .error .blocked s
  | some _ => r = .ok () s ∧ s.logger = none

theorem Swallowed.final {fault : Option Exn} {r : EStateM.Result Exn (LogPrivate W) Unit}
    {s : LogPrivate W} (h : Swallowed fault r s) : final r = s := by
  cases fault with
  | none => rw [h.1]; rfl
  | some e =>
      cases e with
      | blocked => rw [show r = _ from h]; rfl
      | _ => rw [h.1]; rfl

/-- Whatever the load throws is swallowed. -/
theorem catchAll_load (env : LoadEnv W) (configFilePath : String) (s : LogPrivate W) :
    ∃ s', Reloaded (loadWrites env (loadFile env configFilePath s.files)) s s' ∧ Detached s' ∧
      Swallowed ((faultBefore env configFilePath s.pool (loadFile env configFilePath s.files)).or
          (hangs (faultAfter env s.pool (loadFile env configFilePath s.files))))
        (catchAll (loadConfigFile env configFilePath) s) s' := by
  obtain ⟨s', hr, -, hend⟩ := loadConfigFile_spec env configFilePath s
  rw [catchAll]
  cases hbefore : faultBefore env configFilePath s.pool (loadFile env configFilePath s.files) with
  | some e =>
      rw [hbefore] at hend
      refine ⟨s', hr, .inl hend.2, ?_⟩
      rw [hend.1]
      cases e with
      | blocked => rfl
      | _ => exact ⟨rfl, hend.2⟩
  | none =>
      rw [hbefore] at hend
      refine ⟨s', hr, .inr hend.2, ?_⟩
      rw [hend.1]
      cases faultAfter env s.pool (loadFile env configFilePath s.files) with
      | none => exact ⟨rfl, hend.2⟩
      | some e =>
          cases e with
          | blocked => rfl
          | _ => exact ⟨rfl, hend.2⟩

theorem saveAndReload_run (env : DefaultEnv W) (configFilePath : String) {s : LogPrivate W}
    (hs : Fresh s) :
    ∃ s', Keeps s s' ∧ s'.files = fallbackFiles env configFilePath s.files ∧ Detached s' ∧
      Swallowed (fallbackFault env configFilePath s.files s.pool)
        (catchAll (saveAndReload env defaultDoc configFilePath) s) s' := by
  have hsaved : saveAndReload env defaultDoc configFilePath s =
      (absolute env.absolute >>= fun _ => loadConfigFile env.reload configFilePath)
        { s with
          files := saved env.save configFilePath s.files
          configFilePath := configFilePath } :=
    bind_of_ok (saveAsFile_run env.save configFilePath s)
  rw [catchAll, hsaved, fallbackFiles, fallbackFault]
  cases habs : env.absolute with
  | false =>
      exact ⟨{ s with
          files := saved env.save configFilePath s.files
          configFilePath := configFilePath }, ⟨rfl, rfl, rfl, rfl⟩, rfl, .inr hs, rfl, hs⟩
  | true =>
      obtain ⟨s', hr, hdet, he⟩ := catchAll_load env.reload configFilePath
        { s with
          files := saved env.save configFilePath s.files
          configFilePath := configFilePath }
      exact ⟨s', ⟨hr.callbackSinks, hr.nextPtr, hr.invoked, hr.queued⟩, hr.files, hdet, he⟩

theorem loadDefaultConfig_spec (env : DefaultEnv W) (configFilePath : String) (s : LogPrivate W) :
    ∃ s', Keeps s s' ∧ s'.files = fallbackFiles env configFilePath s.files ∧ Detached s' ∧
      Swallowed (fallbackFault env configFilePath s.files s.pool)
        (loadDefaultConfig env configFilePath s) s' := by
  have hrun : loadDefaultConfig env configFilePath s =
      catchAll (saveAndReload env defaultDoc configFilePath)
        { s with
          logger := some { name := "log-default", level := .warn, pattern := defaultPattern }
          traceShowLine := false
          debugShowLine := false
          infoShowLine := false
          warnShowLine := true
          errorShowLine := true
          criticalShowLine := true } := by
    rw [loadDefaultConfig, defaultConfig_eq]
    rfl
  have hfresh : Fresh { s with
      logger := some { name := "log-default", level := .warn, pattern := defaultPattern }
      traceShowLine := false
      debugShowLine := false
      infoShowLine := false
      warnShowLine := true
      errorShowLine := true
      criticalShowLine := true } :=
    ⟨_, rfl, fun _ hmem => by cases hmem⟩
  obtain ⟨s', hk, hfiles, hdet, he⟩ := saveAndReload_run env configFilePath hfresh
  rw [← hrun] at he
  exact ⟨s', ⟨hk.callbackSinks, hk.nextPtr, hk.invoked, hk.queued⟩, hfiles, hdet, he⟩

/-! ## Loading, or falling back -/

theorem loadConfigFile_ending (env : LoadEnv W) (configFilePath : String) (s : LogPrivate W) :
    ∃ s', loadConfigFile env configFilePath s =
        ending (loadFault env configFilePath s.files s.pool) () s' ∧
      Keeps s s' ∧ s'.files = loadedFiles env configFilePath s.files ∧
      s'.pool = loadedPool env s.pool (loadFile env configFilePath s.files) ∧ Detached s' ∧
      (loadFault env configFilePath s.files s.pool = none → Fresh s') := by
  obtain ⟨s', hr, hpool, hend⟩ := loadConfigFile_spec env configFilePath s
  refine ⟨s', ?_, hr.keeps, hr.files, hpool, ?_, ?_⟩
  · rw [loadFault]
    cases hbefore : faultBefore env configFilePath s.pool (loadFile env configFilePath s.files) with
    | some e =>
        rw [hbefore] at hend
        exact hend.1
    | none =>
        rw [hbefore] at hend
        exact hend.1
  · cases hbefore : faultBefore env configFilePath s.pool (loadFile env configFilePath s.files) with
    | some e =>
        rw [hbefore] at hend
        exact .inl hend.2
    | none =>
        rw [hbefore] at hend
        exact .inr hend.2
  · intro hnone
    rw [(Option.or_eq_none_iff.1 hnone).1] at hend
    exact hend.2

/-- How the `try` block of `setConfigPath` ends. -/
theorem loadOrDefault_spec (load : LoadEnv W) (fallback : DefaultEnv W) (configFilePath : String)
    (s : LogPrivate W) :
    ∃ s', Keeps s s' ∧ s'.files = bootedFiles load fallback configFilePath s.files s.pool ∧
      Detached s' ∧ final (loadOrDefault load fallback configFilePath s) = s' ∧
      match loadFault load configFilePath s.files s.pool with
      | none => loadOrDefault load fallback configFilePath s = .ok () s' ∧ Fresh s'
      | some (.spdlogEx _) =>
          Swallowed (fallbackFault fallback configFilePath
              (loadedFiles load configFilePath s.files)
              (loadedPool load s.pool (loadFile load configFilePath s.files)))
            (loadOrDefault load fallback configFilePath s) s'
      | some e => loadOrDefault load fallback configFilePath s = .error e s' := by
  obtain ⟨s', he, hk, hfiles, hpool, hdet, hfresh⟩ := loadConfigFile_ending load configFilePath s
  rw [bootedFiles]
  cases hfault : loadFault load configFilePath s.files s.pool with
  | none =>
      rw [hfault] at he
      have hrun : loadOrDefault load fallback configFilePath s = .ok () s' := by
        rw [loadOrDefault, he]
        rfl
      exact ⟨s', hk, hfiles, hdet, by rw [hrun]; rfl, hrun, hfresh hfault⟩
  | some e =>
      rw [hfault] at he
      cases e with
      | spdlogEx what =>
          obtain ⟨s'', hk', hfiles', hdet', hswallowed⟩ :=
            loadDefaultConfig_spec fallback configFilePath s'
          rw [hfiles] at hfiles'
          rw [hfiles, hpool] at hswallowed
          have hrun : loadOrDefault load fallback configFilePath s =
              loadDefaultConfig fallback configFilePath s' := by
            rw [loadOrDefault, he]
            rfl
          rw [← hrun] at hswallowed
          exact ⟨s'', hk.trans hk', hfiles', hdet', hswallowed.final, hswallowed⟩
      | _ =>
          refine ⟨s', hk, hfiles, hdet, ?_, ?_⟩
          all_goals
            rw [loadOrDefault, he]
            rfl

theorem Fresh.logger_ne {s : LogPrivate W} (h : Fresh s) : s.logger ≠ none := by
  obtain ⟨logger, hlogger, -⟩ := h
  rw [hlogger]
  exact Option.some_ne_none logger

/-- A logger is left exactly when the documents say so. -/
theorem loadOrDefault_boots (load : LoadEnv W) (fallback : DefaultEnv W)
    (configFilePath : String) (s : LogPrivate W) :
    (Boots load fallback configFilePath s.files s.pool →
      ∃ s', loadOrDefault load fallback configFilePath s = .ok () s' ∧ Keeps s s' ∧
        s'.files = bootedFiles load fallback configFilePath s.files s.pool ∧ Fresh s') ∧
    (¬ Boots load fallback configFilePath s.files s.pool →
      ∀ s', loadOrDefault load fallback configFilePath s = .ok () s' → s'.logger = none) := by
  obtain ⟨s', hk, hfiles, -, -, hend⟩ := loadOrDefault_spec load fallback configFilePath s
  rw [Boots]
  cases hfault : loadFault load configFilePath s.files s.pool with
  | none =>
      rw [hfault] at hend
      exact ⟨fun _ => ⟨s', hend.1, hk, hfiles, hend.2⟩, fun h => absurd trivial h⟩
  | some e =>
      rw [hfault] at hend
      cases e with
      | spdlogEx what =>
          replace hend : Swallowed _ _ _ := hend
          cases hfall : fallbackFault fallback configFilePath
              (loadedFiles load configFilePath s.files)
              (loadedPool load s.pool (loadFile load configFilePath s.files)) with
          | none =>
              rw [hfall] at hend
              exact ⟨fun _ => ⟨s', hend.1, hk, hfiles, hend.2⟩, fun h => absurd rfl h⟩
          | some e' =>
              rw [hfall] at hend
              refine ⟨fun h => absurd h (by simp), ?_⟩
              intro _ s'' he'
              cases e' with
              | blocked =>
                  rw [show loadOrDefault load fallback configFilePath s = _ from hend] at he'
                  cases he'
              | _ =>
                  rw [hend.1, EStateM.Result.ok.injEq] at he'
                  rw [← he'.2]
                  exact hend.2
      | _ =>
          refine ⟨False.elim, ?_⟩
          intro _ s'' he'
          rw [show loadOrDefault load fallback configFilePath s = _ from hend] at he'
          cases he'

/-! ## Deleting the old configuration -/

/-- Everything is kept but the file at the path. -/
structure Deleted (configFilePath : String) (s s' : LogPrivate W) : Prop where
  keeps : Keeps s s'
  logger : s'.logger = s.logger
  files : ∀ f, f ≠ W.resolve configFilePath → s'.files f = s.files f

theorem absolute_deleted (ok : Bool) (configFilePath : String) {s s' : LogPrivate W}
    (h : Deleted configFilePath s s') :
    ∃ s'', absolute ok s' = ending (absoluteFault ok) () s'' ∧ Deleted configFilePath s s'' := by
  cases ok <;> exact ⟨s', rfl, h⟩

theorem removeFile_run (env : DeleteEnv) (configFilePath : String) (s : LogPrivate W) :
    ∃ s', removeFile env configFilePath s =
        ending ((if env.remove = .throws then some (.filesystemError "cannot remove") else none).or
          (absoluteFault env.absolute)) () s' ∧
      Deleted configFilePath s s' := by
  have hself : Deleted configFilePath s s := ⟨⟨rfl, rfl, rfl, rfl⟩, rfl, fun _ _ => rfl⟩
  rw [removeFile]
  cases hremove : env.remove with
  | throws => exact ⟨s, rfl, hself⟩
  | notRemoved => exact absolute_deleted env.absolute configFilePath hself
  | removed =>
      have hdeleted : Deleted configFilePath s
          { s with files := Function.update s.files (W.resolve configFilePath) none } :=
        ⟨⟨rfl, rfl, rfl, rfl⟩, rfl, fun f hf => Function.update_of_ne hf none s.files⟩
      exact absolute_deleted env.absolute configFilePath hdeleted

/-- The deletion throws its fault, and touches the old file only. -/
theorem deleteOldConfig_spec (env : DeleteEnv) (configFilePath : String) (s : LogPrivate W) :
    ∃ s', deleteOldConfig env configFilePath s =
        ending (deleteFault env configFilePath s.files) () s' ∧
      Deleted configFilePath s s' := by
  have hself : Deleted configFilePath s s := ⟨⟨rfl, rfl, rfl, rfl⟩, rfl, fun _ _ => rfl⟩
  rw [deleteOldConfig, deleteFault]
  by_cases hpath : configFilePath = ""
  · rw [if_neg (not_not.2 hpath), if_pos hpath]
    exact ⟨s, rfl, hself⟩
  · rw [if_pos hpath, if_neg hpath]
    cases hstat : env.stat with
    | false => exact ⟨s, rfl, hself⟩
    | true =>
        rw [if_neg (by simp)]
        simp only [firstFault, if_pos, Option.none_or, Option.or_none]
        by_cases hsome : (s.files (W.resolve configFilePath)).isSome
        · simp only [hsome, true_and]
          obtain ⟨s', he, hd⟩ := removeFile_run env configFilePath s
          refine ⟨s', ?_, hd⟩
          show (if (s.files (W.resolve configFilePath)).isSome then _ else _ : LogM W Unit) s = _
          rw [if_pos hsome]
          exact he
        · simp only [hsome]
          obtain ⟨s', he, hd⟩ := absolute_deleted env.absolute configFilePath hself
          refine ⟨s', ?_, hd⟩
          show (if (s.files (W.resolve configFilePath)).isSome then _ else _ : LogM W Unit) s = _
          rw [if_neg hsome]
          exact he

/-! ## Runs -/

/-- One call, and the files as it finds them. -/
structure Call (W : World) where
  files : W.File → Option (List UInt8)
  env : CallEnv W
  configFilePath : String
  isDeleteOldConfig : Bool

def Call.run (c : Call W) : LogM W Unit := do
  modify fun s => { s with files := c.files }
  setConfigPath c.env c.configFilePath c.isDeleteOldConfig

/-- The call loads a document, and no file-system call of the deletion throws. -/
def Call.Safe (c : Call W) (s : LogPrivate W) : Prop :=
  Boots c.env.load c.env.fallback c.configFilePath c.files s.pool ∧
    (c.isDeleteOldConfig → deleteFault c.env.delete s.configFilePath
      (bootedFiles c.env.load c.env.fallback c.configFilePath c.files s.pool) = none)

/-- The call returns, and leaves a logger. -/
def Call.Usable (c : Call W) (s : LogPrivate W) : Prop :=
  ∃ s', c.run s = .ok () s' ∧ s'.logger ≠ none

/-- What `setConfigPath` does after the loading. -/
def Call.cleanUp (c : Call W) (oldConfigPath : String) : LogM W Unit :=
  if c.isDeleteOldConfig then deleteOldConfig c.env.delete oldConfigPath else pure ()

theorem Call.run_ok {c : Call W} {s s' : LogPrivate W}
    (h : loadOrDefault c.env.load c.env.fallback c.configFilePath { s with files := c.files } =
      .ok () s') :
    c.run s = c.cleanUp s.configFilePath s' :=
  bind_of_ok h

theorem Call.run_error {c : Call W} {s s' : LogPrivate W} {e : Exn}
    (h : loadOrDefault c.env.load c.env.fallback c.configFilePath { s with files := c.files } =
      .error e s') :
    c.run s = .error e s' := by
  show (loadOrDefault c.env.load c.env.fallback c.configFilePath >>= fun _ => _) _ = _
  exact bind_of_error h

theorem Call.cleanUp_spec (c : Call W) (oldConfigPath : String) (s : LogPrivate W) :
    ∃ s', c.cleanUp oldConfigPath s =
        ending (if c.isDeleteOldConfig then deleteFault c.env.delete oldConfigPath s.files
          else none) () s' ∧
      Deleted oldConfigPath s s' := by
  rw [cleanUp]
  split
  · exact deleteOldConfig_spec c.env.delete oldConfigPath s
  · exact ⟨s, rfl, ⟨rfl, rfl, rfl, rfl⟩, rfl, fun _ _ => rfl⟩

theorem final_ending (fault : Option Exn) (s : LogPrivate W) : final (ending fault () s) = s := by
  cases fault <;> rfl

/-- However a call ends, the callbacks are as before, and none is attached to
the logger. -/
theorem Call.run_detaches (c : Call W) (s : LogPrivate W) :
    Keeps s (final (c.run s)) ∧ Detached (final (c.run s)) := by
  obtain ⟨s', hk, -, hdet, hfinal, -⟩ := loadOrDefault_spec c.env.load c.env.fallback
    c.configFilePath { s with files := c.files }
  have hk' : Keeps s s' := ⟨hk.callbackSinks, hk.nextPtr, hk.invoked, hk.queued⟩
  cases he : loadOrDefault c.env.load c.env.fallback c.configFilePath
      { s with files := c.files } with
  | error e t =>
      rw [he] at hfinal
      rw [run_error he, show t = s' from hfinal]
      exact ⟨hk', hdet⟩
  | ok u t =>
      rw [he] at hfinal
      obtain ⟨s'', hclean, hd⟩ := c.cleanUp_spec s.configFilePath s'
      rw [run_ok he, show t = s' from hfinal, hclean]
      rw [final_ending]
      refine ⟨hk'.trans hd.keeps, ?_⟩
      rcases hdet with hnone | ⟨logger, hlogger, hsinks⟩
      · exact .inl (hd.logger.trans hnone)
      · exact .inr ⟨logger, hd.logger.trans hlogger, hsinks⟩

theorem Call.usable_iff (c : Call W) (s : LogPrivate W) : c.Usable s ↔ c.Safe s := by
  have hboots := loadOrDefault_boots c.env.load c.env.fallback c.configFilePath
    { s with files := c.files }
  by_cases hb : Boots c.env.load c.env.fallback c.configFilePath c.files s.pool
  · obtain ⟨s', he, -, hfiles, hfresh⟩ := hboots.1 hb
    obtain ⟨s'', hclean, hd⟩ := c.cleanUp_spec s.configFilePath s'
    rw [hfiles, ← run_ok he] at hclean
    constructor
    · intro ⟨t, hrun, _⟩
      refine ⟨hb, fun hdelete => ?_⟩
      rw [hclean, if_pos hdelete] at hrun
      cases hfault : deleteFault c.env.delete s.configFilePath
          (bootedFiles c.env.load c.env.fallback c.configFilePath c.files s.pool) with
      | none => rfl
      | some e =>
          rw [hfault] at hrun
          cases hrun
    · intro ⟨_, hdelete⟩
      refine ⟨s'', ?_, by rw [hd.logger]; exact hfresh.logger_ne⟩
      rw [hclean]
      split
      · next hon => rw [hdelete hon]; rfl
      · rfl
  · constructor
    · intro ⟨t, hrun, hlogger⟩
      cases he : loadOrDefault c.env.load c.env.fallback c.configFilePath
          { s with files := c.files } with
      | error e s' =>
          rw [run_error he] at hrun
          cases hrun
      | ok u s' =>
          obtain ⟨s'', hclean, hd⟩ := c.cleanUp_spec s.configFilePath s'
          rw [run_ok he, hclean] at hrun
          have hnone := hboots.2 hb s' he
          cases hfault : (if c.isDeleteOldConfig then
              deleteFault c.env.delete s.configFilePath s'.files else none) with
          | some e =>
              rw [hfault] at hrun
              cases hrun
          | none =>
              rw [hfault] at hrun
              cases hrun
              exact absurd (hd.logger.trans hnone) hlogger
    · intro hsafe
      exact absurd hsafe.1 hb

/-- Every call of the run returns and leaves a logger. -/
def RunUsable : List (Call W) → LogPrivate W → Prop
  | [], _ => True
  | c :: calls, s => c.Usable s ∧ ∀ s', c.run s = .ok () s' → RunUsable calls s'

/-- Every call of the run is safe in the state it is made in. -/
def RunSafe : List (Call W) → LogPrivate W → Prop
  | [], _ => True
  | c :: calls, s => c.Safe s ∧ ∀ s', c.run s = .ok () s' → RunSafe calls s'

/-- Runs of `setConfigPath` leave a usable logger after every call exactly when
each call loads its document, or fails to with `spdlog_ex` and then loads the
default configuration it wrote, replaces no pool that cannot be taken down, and
can delete what it is asked to delete. -/
theorem run_usable_iff (calls : List (Call W)) (s : LogPrivate W) :
    RunUsable calls s ↔ RunSafe calls s := by
  induction calls generalizing s with
  | nil => exact Iff.rfl
  | cons c calls ih => simp only [RunUsable, RunSafe, Call.usable_iff, ih]

/-! ## Pools that are replaced -/

theorem poolFaults_pass {queue : Bool} {settings : Settings}
    (hasync : settings.asyncEnabled = true)
    (hchecks : firstFault (poolFaults queue settings) = none) (pool : Option Nat) :
    firstFault (asyncFaults queue pool settings) = replaceFault pool ∧
      poolAfter queue pool settings = some (toU64 settings.asyncQueueSize) := by
  constructor
  · rw [asyncFaults, if_pos hasync, firstFault_append, hchecks, Option.none_or, firstFault,
      firstFault, Option.or_none]
  · exact if_pos ⟨hasync, hchecks⟩

theorem replaceFault_eq (pool : Option Nat) :
    replaceFault pool = none ∨ replaceFault pool = some .blocked := by
  rw [replaceFault]
  split
  · exact .inr rfl
  · exact .inl rfl

/-- An empty list of sinks makes two pools, so a document that asks for a queue
that lets nothing through does not get past its own load, whatever pool it
finds. -/
theorem empty_list_blocks {env : LoadEnv W} {configFilePath : String}
    {files : W.File → Option (List UInt8)} {root : Node}
    (hdoc : loadFile env configFilePath files = some root)
    (hhead : firstFault (headFaults root) = none) (hempty : (sinksNodeAt root).size = 0)
    (hasync : (settingsAt (loggerAt root)).asyncEnabled = true)
    (hconsole : firstFault (poolFaults env.consoleQueue (settingsAt (loggerAt root))) = none)
    (hqueue : firstFault (poolFaults env.queue (settingsAt (loggerAt root))) = none)
    (hstuck : stuck (toU64 (settingsAt (loggerAt root)).asyncQueueSize) = true)
    (pool : Option Nat) :
    loadFault env configFilePath files pool = some .blocked := by
  obtain ⟨hfirst, hpool⟩ := poolFaults_pass hasync hconsole pool
  have hsecond : firstFault (asyncFaults env.queue
      (poolAfter env.consoleQueue pool (settingsAt (loggerAt root)))
      (settingsAt (loggerAt root))) = some .blocked := by
    rw [(poolFaults_pass hasync hqueue _).1, hpool, replaceFault, Option.any_some, if_pos hstuck]
  rw [loadFault, hdoc, faultBefore, faultAfter, hhead, Option.none_or, if_pos hempty,
    if_pos hempty, hfirst, hsecond]
  rcases replaceFault_eq pool with hfree | hblocked
  · rw [hfree]
    rfl
  · rw [hblocked]
    rfl

/-! ## A list of names -/

/-- A document with a sink that is a name and no map. -/
def namedSinkText : List UInt8 :=
  "log_config: {logger: {name: a}, sinks: [stdout]}".toList.map fun c => c.val.toUInt8

/-- How yaml-cpp reads that text. -/
def namedSinkDoc : Node :=
  .map [(.scalar "log_config", .map [
    (.scalar "logger", .map [(.scalar "name", .scalar "a")]),
    (.scalar "sinks", .sequence [.scalar "stdout"])])]

/-- A file system of plain names, and a parser that knows the text. -/
def namedSinkWorld : World where
  File := String
  resolve := id
  parse := fun bytes => if bytes = namedSinkText then some namedSinkDoc else none
  emit := fun _ => []

/-- The document at `log.yaml`, read where nothing else fails. -/
def namedSinkCall : Call namedSinkWorld where
  files := fun (f : String) => if f = "log.yaml" then some namedSinkText else none
  env := {
    load := { construct := fun _ _ => ⟨true, [], by simp⟩ }
    fallback := {
      save := .written 0
      reload := { construct := fun _ _ => ⟨true, [], by simp⟩ } } }
  configFilePath := "log.yaml"
  isDeleteOldConfig := false

/-- The subscript of the name throws, nobody catches it, and the logger that
was there is gone. -/
theorem named_sink_escapes :
    ∃ s', namedSinkCall.run { logger := some { name := "a" }, files := namedSinkCall.files } =
      .error (.badSubscript "type") s' ∧ s'.logger = none :=
  ⟨_, rfl, rfl⟩

end UempPlugin.Ref.Log
