import UempPlugin.Spec.ConfigFaults

/-!
# `loadConfigFile` does what the document says

Each stage of the load is matched with its list of faults, in the order of the
code. Together they say how a load ends, which logger and which pool it leaves,
and which files it wrote, for every document.
-/

namespace UempPlugin.Ref.Log

open UempPlugin.Lib
open Yaml (Node Convert getNode getSequenceNode getDef wrongType)

variable {W : World}

/-! ## Reading -/

theorem getDef_reads {α : Type} [Convert α] (node : Node) (key : String) (dflt : α) :
    Reads (getDef node key dflt) (keyFault α node key) (valueAt node key dflt) := by
  cases node with
  | undefined => rfl
  | null => rfl
  | scalar text => rfl
  | sequence items => rfl
  | map pairs =>
      rw [getDef, if_neg (by simp [Node.isNull]), keyFault, valueAt, Node.get]
      cases hl : Node.lookup key pairs with
      | none => rfl
      | some child =>
          cases child with
          | undefined => rfl
          | null => rfl
          | scalar text =>
              simp only [bind, Except.bind]
              cases (Convert.decode text : Option α) <;> rfl
          | sequence items => rfl
          | map pairs => rfl

theorem getNode_reads (node : Node) (key : String) :
    Reads (getNode node key) (subscriptFault node key) (childAt node key) := by
  cases node with
  | undefined => rfl
  | null => rfl
  | scalar text => rfl
  | sequence items => rfl
  | map pairs =>
      rw [getNode, if_pos (by rfl), childAt, Node.get]
      cases hl : Node.lookup key pairs with
      | none => rfl
      | some child => rfl

/-- A value that does not read is the default. -/
theorem valueAt_of_fault {α : Type} [Convert α] {node : Node} {key : String} {dflt : α} {e : Exn}
    (h : keyFault α node key = some e) : valueAt node key dflt = dflt := by
  cases node with
  | map pairs =>
      rw [keyFault] at h
      rw [valueAt]
      cases hl : Node.lookup key pairs with
      | none => rfl
      | some child =>
          cases child with
          | scalar text =>
              cases hd : (Convert.decode text : Option α) with
              | none => simp only [hd, Option.getD_none]
              | some value => simp [hl, hd] at h
          | _ => rfl
  | _ => rfl

theorem orElse_getDef {α : Type} [Convert α] (node : Node) (key : String) (dflt : α) :
    orElse dflt (getDef node key dflt) = valueAt node key dflt := by
  have hreads := getDef_reads node key dflt
  cases hf : keyFault α node key with
  | none =>
      rw [hf] at hreads
      rw [show getDef node key dflt = .ok _ from hreads, orElse]
  | some e =>
      rw [hf] at hreads
      rw [show getDef node key dflt = .error e from hreads, orElse, valueAt_of_fault hf]

theorem readSettings_reads (loggerNode : Node) :
    Reads (readSettings loggerNode) (firstFault (settingsFaults loggerNode))
      (settingsAt loggerNode) := by
  rw [readSettings]
  refine (getDef_reads loggerNode "name" "default-logger").bind ?_
  refine (getDef_reads loggerNode "debug_level" "trace").bind ?_
  refine (getDef_reads loggerNode "release_level" "info").bind ?_
  refine (getDef_reads loggerNode "flush_on" "trace").bind ?_
  refine (getDef_reads loggerNode "pattern" defaultPattern).bind ?_
  simp only [orElse_getDef]
  exact Reads.pure _

/-- Reading a path, and after one that is not empty the rest. -/
theorem pathed_reads {sinkNode : Node} {key : String} {config : String → SinkConfig}
    {rest : List (Option Exn)} {body : String → Except Exn (Option SinkConfig)}
    (hbody : Reads (body (valueAt sinkNode key "")) (firstFault rest)
      (some (config (valueAt sinkNode key "")))) :
    Reads (getDef sinkNode key "" >>= fun path => if path = "" then pure none else body path)
      (firstFault (pathFaults sinkNode key rest)) (withPath sinkNode key config) := by
  refine (getDef_reads sinkNode key "").bind ?_
  rw [withPath]
  split
  · exact Reads.pure _
  · exact hbody

theorem readMaxSize_reads (sinkNode : Node) :
    Reads (readMaxSize sinkNode) (keyFault Int sinkNode "max_size") (maxSizeAt sinkNode) := by
  rw [readMaxSize, ← Option.or_none (o := keyFault Int sinkNode "max_size")]
  exact (getDef_reads sinkNode "max_size" (52428800 : Int)).bind (Reads.pure _)

theorem readSinkConfig_reads (type : String) (sinkNode : Node) :
    Reads (readSinkConfig type sinkNode) (firstFault (sinkKeyFaults type sinkNode))
      (sinkConfigAt type sinkNode) := by
  rw [readSinkConfig, sinkKeyFaults, sinkConfigAt]
  split
  · rfl
  split
  · refine pathed_reads ?_
    refine (getDef_reads sinkNode "rotation_hour" (0 : Int)).bind ?_
    refine (getDef_reads sinkNode "rotation_min" (0 : Int)).bind ?_
    refine (getDef_reads sinkNode "max_days" (0 : Int)).bind ?_
    exact (getDef_reads sinkNode "truncate" false).bind (Reads.pure _)
  split
  · refine pathed_reads ?_
    refine (readMaxSize_reads sinkNode).bind ?_
    refine (getDef_reads sinkNode "max_files" (10 : Int)).bind ?_
    exact (getDef_reads sinkNode "rotate_on_open" false).bind (Reads.pure _)
  split
  · refine pathed_reads ?_
    exact (getDef_reads sinkNode "truncate" false).bind (Reads.pure _)
  split
  · refine pathed_reads ?_
    refine (getDef_reads sinkNode "max_count" (100000 : Int)).bind ?_
    refine (getDef_reads sinkNode "max_files" (10 : Int)).bind ?_
    refine (getDef_reads sinkNode "rotate_on_open" false).bind ?_
    exact (getDef_reads sinkNode "strict_count_on_open" true).bind (Reads.pure _)
  split
  · refine pathed_reads ?_
    refine (getDef_reads sinkNode "name" "{date}").bind ?_
    refine (getDef_reads sinkNode "date_name_format" "yyyy-MM-dd").bind ?_
    refine (getDef_reads sinkNode "rotation_hour" (0 : Int)).bind ?_
    refine (getDef_reads sinkNode "rotation_min" (0 : Int)).bind ?_
    refine (readMaxSize_reads sinkNode).bind ?_
    refine (getDef_reads sinkNode "max_files" (10 : Int)).bind ?_
    exact (getDef_reads sinkNode "rotate_on_open" false).bind (Reads.pure _)
  · rfl

/-! ## Stages that change nothing but what they write -/

/-- The call wrote `writes`, and kept the logger, the pool and the callbacks. -/
structure Wrote (writes : List (W.File × Option (List UInt8))) (s s' : LogPrivate W) : Prop where
  files : s'.files = applyWrites writes s.files
  logger : s'.logger = s.logger
  callbackSinks : s'.callbackSinks = s.callbackSinks
  nextPtr : s'.nextPtr = s.nextPtr
  invoked : s'.invoked = s.invoked
  queued : s'.queued = s.queued
  pool : s'.pool = s.pool

namespace Wrote

variable {ws ws' : List (W.File × Option (List UInt8))} {s s' s'' : LogPrivate W}

theorem refl (s : LogPrivate W) : Wrote [] s s := ⟨rfl, rfl, rfl, rfl, rfl, rfl, rfl⟩

theorem trans (h : Wrote ws s s') (h' : Wrote ws' s' s'') : Wrote (ws ++ ws') s s'' where
  files := by rw [h'.files, h.files, applyWrites, applyWrites, applyWrites, List.foldl_append]
  logger := h'.logger.trans h.logger
  callbackSinks := h'.callbackSinks.trans h.callbackSinks
  nextPtr := h'.nextPtr.trans h.nextPtr
  invoked := h'.invoked.trans h.invoked
  queued := h'.queued.trans h.queued
  pool := h'.pool.trans h.pool

end Wrote

theorem read_obeys {α : Type} {f : Except Exn α} {fault : Option Exn} {a : α}
    (h : Reads f fault a) : Obeys (Wrote (W := W) []) (read f) fault a := by
  cases fault with
  | none =>
      rw [show f = .ok a from h]
      exact Obeys.pure Wrote.refl
  | some e =>
      rw [show f = .error e from h]
      exact Obeys.throw Wrote.refl

/-- A stage that writes nothing, before any other. -/
theorem quiet_bind {α β : Type} {f : LogM W α} {g : α → LogM W β} {fault fault' : Option Exn}
    {a : α} {b : β} {ws : List (W.File × Option (List UInt8))}
    (hf : Obeys (Wrote []) f fault a) (hg : Obeys (Wrote ws) (g a) fault' b) :
    Obeys (Wrote (if fault = none then ws else [])) (f >>= g) (fault.or fault') b := by
  refine hf.bind hg ?_ ?_
  · intro s s' hfault h
    rw [if_neg hfault]
    exact h
  · intro s s' s'' hfault h h'
    rw [if_pos hfault]
    exact h.trans h'

/-- A stage that writes nothing, before another that does not either. -/
theorem quiet_seq {α β : Type} {f : LogM W α} {g : α → LogM W β} {fault fault' : Option Exn}
    {a : α} {b : β} (hf : Obeys (Wrote []) f fault a) (hg : Obeys (Wrote []) (g a) fault' b) :
    Obeys (Wrote []) (f >>= g) (fault.or fault') b :=
  hf.seq hg fun h h' => h.trans h'

theorem absolute_obeys (ok : Bool) :
    Obeys (Wrote (W := W) []) (absolute ok) (absoluteFault ok) () := by
  cases ok with
  | true => exact Obeys.pure Wrote.refl
  | false => exact Obeys.throw Wrote.refl

/-- Reading a flag and setting it, before the rest. -/
theorem readFlag_obeys {node : Node} {key : String} {dflt : Bool}
    {assign : Bool → LogPrivate W → LogPrivate W} {rest : LogM W Unit} {fault : Option Exn}
    (hassign : ∀ flag s, Wrote [] s (assign flag s)) (hrest : Obeys (Wrote []) rest fault ()) :
    Obeys (Wrote []) (read (getDef node key dflt) >>= fun flag =>
      modify (assign flag) >>= fun _ => rest) ((keyFault Bool node key).or fault) () := by
  refine quiet_seq (read_obeys (getDef_reads node key dflt)) ?_
  exact quiet_seq (Obeys.modify (hassign _)) hrest

theorem readShowLines_obeys (node : Node) :
    Obeys (Wrote (W := W) []) (readShowLines node) (firstFault (showLineFaults node)) () := by
  rw [readShowLines, showLineFaults]
  split
  · refine readFlag_obeys (fun _ _ => ⟨rfl, rfl, rfl, rfl, rfl, rfl, rfl⟩) ?_
    refine readFlag_obeys (fun _ _ => ⟨rfl, rfl, rfl, rfl, rfl, rfl, rfl⟩) ?_
    refine readFlag_obeys (fun _ _ => ⟨rfl, rfl, rfl, rfl, rfl, rfl, rfl⟩) ?_
    refine readFlag_obeys (fun _ _ => ⟨rfl, rfl, rfl, rfl, rfl, rfl, rfl⟩) ?_
    refine readFlag_obeys (fun _ _ => ⟨rfl, rfl, rfl, rfl, rfl, rfl, rfl⟩) ?_
    refine quiet_seq (read_obeys (getDef_reads node "critical" true)) ?_
    exact Obeys.modify fun _ => ⟨rfl, rfl, rfl, rfl, rfl, rfl, rfl⟩
  · exact Obeys.pure Wrote.refl

/-- A test that throws, before the rest. -/
theorem throwIf_bind {α : Type} {c : Prop} [Decidable c] {e : Exn} {rest : Unit → LogM W α}
    {fault : Option Exn} {a : α} {ws : List (W.File × Option (List UInt8))}
    (h : Obeys (Wrote ws) (rest ()) fault a) :
    Obeys (Wrote (if c then [] else ws)) (if c then throw e >>= rest else rest ())
      ((if c then some e else none).or fault) a := by
  split
  · exact fun s => ⟨s, rfl, Wrote.refl s⟩
  · exact h

theorem throwIf_seq {α : Type} {c : Prop} [Decidable c] {e : Exn} {rest : Unit → LogM W α}
    {fault : Option Exn} {a : α} (h : Obeys (Wrote []) (rest ()) fault a) :
    Obeys (Wrote []) (if c then throw e >>= rest else rest ())
      ((if c then some e else none).or fault) a := by
  have hbind := throwIf_bind (c := c) (e := e) h
  rw [ite_self] at hbind
  exact hbind

/-- The same at the end. -/
theorem throwIf_obeys {c : Prop} [Decidable c] {e : Exn} :
    Obeys (Wrote (W := W) []) (if c then throw e else pure ()) (if c then some e else none) () := by
  split
  · exact Obeys.throw Wrote.refl
  · exact Obeys.pure Wrote.refl

/-! ## The pool -/

theorem setTp_run (queueSize : Nat) (s : LogPrivate W) :
    setTp queueSize s = ending (replaceFault s.pool) () { s with pool := some queueSize } := by
  rw [replaceFault]
  show (if s.pool.any stuck then throw .blocked else pure () : LogM W Unit) _ = _
  split <;> rfl

/-- The new pool is there once it has passed its checks, and then the old one
may not go. -/
theorem initThreadPool_run (queue : Bool) (settings : Settings) (s : LogPrivate W) :
    initThreadPool queue settings s =
      ending (firstFault (poolFaults queue settings ++ [replaceFault s.pool])) () { s with
        pool := if firstFault (poolFaults queue settings) = none then
            some (toU64 settings.asyncQueueSize)
          else s.pool } := by
  rw [initThreadPool, poolFaults, firstFault_append]
  cases queue with
  | false => rfl
  | true =>
      simp only [firstFault, Bool.not_true, Bool.false_eq_true, if_false, Option.or_none,
        Option.none_or]
      split
      · rfl
      · rw [if_pos rfl]
        exact setTp_run (toU64 settings.asyncQueueSize) s

theorem startPool_run (queue : Bool) (settings : Settings) (s : LogPrivate W) :
    startPool queue settings s =
      ending (firstFault (asyncFaults queue s.pool settings)) ()
        { s with pool := poolAfter queue s.pool settings } := by
  rw [startPool, asyncFaults, poolAfter]
  cases settings.asyncEnabled with
  | false => rfl
  | true =>
      simp only [if_true, true_and]
      exact initThreadPool_run queue settings s

/-! ## The sinks -/

theorem construct_obeys (env : LoadEnv W) (i : Nat) (config : SinkConfig) :
    Obeys (Wrote (constructWrites env i (some config))) (construct config (env.construct i config))
      (firstFault (constructFaults env i (some config))) () := by
  rw [construct, constructFaults, constructWrites, firstFault, firstFault, firstFault,
    Option.or_none]
  cases hrefuses : config.refuses with
  | some e =>
      rw [if_neg (by simp)]
      exact fun s => ⟨s, rfl, Wrote.refl s⟩
  | none =>
      rw [if_pos rfl, Option.none_or, openFault]
      intro s
      have hopen := throwIf_obeys (c := (config.opens && !(env.construct i config).opens) = true)
        (e := .spdlogEx ("Failed opening file " ++ config.path ++ " for writing"))
        { s with files := applyWrites (env.construct i config).writes s.files }
      obtain ⟨s', he, hw⟩ := hopen
      refine ⟨s', he, ?_⟩
      exact ⟨hw.files, hw.logger, hw.callbackSinks, hw.nextPtr, hw.invoked, hw.queued, hw.pool⟩

/-- What is written when neither of two stages throws. -/
theorem writes_or (fault fault' : Option Exn) (ws : List (W.File × Option (List UInt8))) :
    (if fault.or fault' = none then ws else []) =
      if fault = none then if fault' = none then ws else [] else [] := by
  cases fault with
  | none => by_cases h : fault' = none <;> simp [h]
  | some e => simp

/-- Constructing the sink of an entry, if it asks for one. -/
theorem constructEntry_obeys (env : LoadEnv W) (i : Nat) (level : String) :
    ∀ (config? : Option SinkConfig), Obeys (Wrote (constructWrites env i config?))
      (match config? with
        | none => pure []
        | some config => do
            construct config (env.construct i config)
            return [Sink.configured config (.fromStr level)])
      (firstFault (constructFaults env i config?))
      (match config? with
        | none => []
        | some config => [.configured config (.fromStr level)])
  | none => Obeys.pure Wrote.refl
  | some config => by
      rw [← Option.or_none (o := firstFault (constructFaults env i (some config)))]
      refine (construct_obeys env i config).bind (T := Wrote []) (Obeys.pure Wrote.refl)
        (fun _ h => h) ?_
      intro s s' s'' _ h h'
      have htrans := h.trans h'
      rw [List.append_nil] at htrans
      exact htrans

theorem loadSink_obeys (env : LoadEnv W) (i : Nat) (sinkNode : Node) :
    Obeys (Wrote (entryWrites env i sinkNode)) (loadSink env i sinkNode)
      (firstFault (entryFaults env i sinkNode)) (entrySinks sinkNode) := by
  rw [loadSink, entryFaults, entryWrites, entryKeyFaults, entrySinks, entryConfig]
  split
  · exact Obeys.pure Wrote.refl
  · rw [firstFault_append, firstFault, firstFault, Option.or_assoc, Option.or_assoc, writes_or,
      writes_or]
    refine quiet_bind (read_obeys (getDef_reads sinkNode "type" "")) ?_
    refine quiet_bind (read_obeys (getDef_reads sinkNode "level" "trace")) ?_
    refine quiet_bind (read_obeys (readSinkConfig_reads _ sinkNode)) ?_
    exact constructEntry_obeys env i _ _

theorem loadSinks_obeys (env : LoadEnv W) (sinksNode : Node) :
    ∀ n i, Obeys (Wrote (sinksWrites env sinksNode n i)) (loadSinks env sinksNode n i)
      (firstFault (sinksFaults env sinksNode n i)) (sinksAt sinksNode n i) := by
  intro n
  induction n with
  | zero => exact fun i => Obeys.pure Wrote.refl
  | succ n ih =>
      intro i
      rw [loadSinks, sinksFaults, firstFault_append, sinksWrites, sinksAt]
      refine (loadSink_obeys env i _).bind (T := Wrote (sinksWrites env sinksNode n (i + 1)))
        ?_ ?_ ?_
      · rw [← Option.or_none (o := firstFault (sinksFaults env sinksNode n (i + 1)))]
        refine (ih (i + 1)).bind (T := Wrote []) (Obeys.pure Wrote.refl) (fun _ h => h) ?_
        intro s s' s'' _ h h'
        have htrans := h.trans h'
        rw [List.append_nil] at htrans
        exact htrans
      · intro s s' hfault h
        rw [if_neg hfault, List.append_nil]
        exact h
      · intro s s' s'' hfault h h'
        rw [if_pos hfault]
        exact h.trans h'

/-! ## The whole load -/

/-- The logger is not null, and no callback is attached to it. -/
def Fresh (s : LogPrivate W) : Prop :=
  ∃ logger, s.logger = some logger ∧ ∀ sink ∈ logger.sinks, ∀ cbSink, sink ≠ .callback cbSink

/-- Everything but the logger is as `Wrote` says. -/
structure Reloaded (writes : List (W.File × Option (List UInt8))) (s s' : LogPrivate W) :
    Prop where
  files : s'.files = applyWrites writes s.files
  callbackSinks : s'.callbackSinks = s.callbackSinks
  nextPtr : s'.nextPtr = s.nextPtr
  invoked : s'.invoked = s.invoked
  queued : s'.queued = s.queued

theorem configured_no_callback (sinksNode : Node) :
    ∀ n i, ∀ sink ∈ sinksAt sinksNode n i, ∀ cbSink, sink ≠ .callback cbSink := by
  intro n
  induction n with
  | zero =>
      intro i sink hmem
      cases hmem
  | succ n ih =>
      intro i sink hmem cbSink
      rw [sinksAt, List.mem_append] at hmem
      cases hmem with
      | inl hmem =>
          rw [entrySinks] at hmem
          split at hmem
          · cases hmem
          · rw [List.mem_singleton] at hmem
            rw [hmem]
            exact Sink.noConfusion
      | inr hmem => exact ih (i + 1) sink hmem cbSink

/-- From a null logger and the given pool, `f` ends with the fault `before`,
leaving the logger null, or else with the fault `after`, if any, leaving a
fresh one. Either way `pool'` is the pool then. -/
def Ends (pool pool' : Option Nat) (before after : Option Exn)
    (writes : List (W.File × Option (List UInt8))) (f : LogM W Unit) : Prop :=
  ∀ s, s.logger = none → s.pool = pool → ∃ s', Reloaded writes s s' ∧ s'.pool = pool' ∧
    match before with
    | some e => f s = .error e s' ∧ s'.logger = none
    | none => f s = ending after () s' ∧ Fresh s'

namespace Reloaded

variable {ws ws' : List (W.File × Option (List UInt8))} {s s' s'' : LogPrivate W}

theorem trans (h : Reloaded ws s s') (h' : Reloaded ws' s' s'') : Reloaded (ws ++ ws') s s'' where
  files := by rw [h'.files, h.files, applyWrites, applyWrites, applyWrites, List.foldl_append]
  callbackSinks := h'.callbackSinks.trans h.callbackSinks
  nextPtr := h'.nextPtr.trans h.nextPtr
  invoked := h'.invoked.trans h.invoked
  queued := h'.queued.trans h.queued

/-- Logger and pool are not looked at. -/
theorem of_set {logger : Option Logger} {pool : Option Nat}
    (h : Reloaded ws { s with logger := logger, pool := pool } s') : Reloaded ws s s' :=
  ⟨h.files, h.callbackSinks, h.nextPtr, h.invoked, h.queued⟩

end Reloaded

theorem Wrote.reloaded {ws : List (W.File × Option (List UInt8))} {s s' : LogPrivate W}
    (h : Wrote ws s s') : Reloaded ws s s' :=
  ⟨h.files, h.callbackSinks, h.nextPtr, h.invoked, h.queued⟩

/-- A stage that keeps logger and pool, before the rest of the load. -/
theorem Ends.after_stage {α : Type} {f : LogM W α} {g : α → LogM W Unit}
    {pool pool' : Option Nat} {fault before after : Option Exn} {a : α}
    {ws ws' : List (W.File × Option (List UInt8))}
    (hf : Obeys (Wrote ws) f fault a) (hg : Ends pool pool' before after ws' (g a)) :
    Ends pool (if fault = none then pool' else pool) (fault.or before) after
      (ws ++ if fault = none then ws' else []) (f >>= g) := by
  intro s hs hpool
  cases fault with
  | some e =>
      obtain ⟨s', hw, hrun⟩ := hf.throws g s
      refine ⟨s', ?_, hw.pool.trans hpool, hrun, hw.logger.trans hs⟩
      rw [if_neg (by simp), List.append_nil]
      exact hw.reloaded
  | none =>
      obtain ⟨s', hw, hrun⟩ := hf.continues g s
      obtain ⟨s'', hr, hpool', hend⟩ := hg s' (hw.logger.trans hs) (hw.pool.trans hpool)
      refine ⟨s'', ?_, hpool', ?_⟩
      · rw [if_pos rfl]
        exact hw.reloaded.trans hr
      · rw [Option.none_or, hrun]
        exact hend

/-- Starting the pool, before the rest of the load. -/
theorem Ends.after_pool {queue : Bool} {settings : Settings} {g : Unit → LogM W Unit}
    {pool pool' : Option Nat} {after : Option Exn}
    (hg : Ends (poolAfter queue pool settings) pool' none after [] (g ())) :
    Ends pool
      (if firstFault (asyncFaults queue pool settings) = none then pool'
        else poolAfter queue pool settings)
      (firstFault (asyncFaults queue pool settings)) after [] (startPool queue settings >>= g) := by
  intro s hs hpool
  have hrun := startPool_run queue settings s
  rw [hpool] at hrun
  cases hfault : firstFault (asyncFaults queue pool settings) with
  | some e =>
      rw [hfault] at hrun
      exact ⟨{ s with pool := poolAfter queue pool settings }, ⟨rfl, rfl, rfl, rfl, rfl⟩,
        (if_neg (Option.some_ne_none e)).symm, bind_of_error hrun, hs⟩
  | none =>
      rw [hfault] at hrun
      obtain ⟨s', hr, hpool', hend⟩ :=
        hg { s with pool := poolAfter queue pool settings } hs rfl
      refine ⟨s', hr.of_set, hpool', ?_⟩
      exact ⟨(bind_of_ok hrun).trans hend.1, hend.2⟩

/-- Assigning a logger without callbacks, and the end of the load. -/
theorem setLogger_run (logger : Logger) (ok : Bool)
    (hsinks : ∀ sink ∈ logger.sinks, ∀ cbSink, sink ≠ .callback cbSink) (s : LogPrivate W) :
    ∃ s', Reloaded [] s s' ∧ s'.pool = s.pool ∧
      (setLogger logger >>= fun _ => absolute ok) s = ending (absoluteFault ok) () s' ∧
      Fresh s' := by
  obtain ⟨s', he, hw⟩ := absolute_obeys ok { s with logger := some logger }
  exact ⟨s', ⟨hw.files, hw.callbackSinks, hw.nextPtr, hw.invoked, hw.queued⟩, hw.pool, he,
    logger, hw.logger, hsinks⟩

theorem createLogger_ends (env : LoadEnv W) (pool : Option Nat) (settings : Settings)
    {sinks : List Sink} (hsinks : ∀ sink ∈ sinks, ∀ cbSink, sink ≠ .callback cbSink) :
    Ends pool (poolAfter env.queue pool settings)
      (firstFault (asyncFaults env.queue pool settings)) (absoluteFault env.absolute) []
      (createLogger env settings sinks) := by
  have hset : Ends (W := W) (poolAfter env.queue pool settings) (poolAfter env.queue pool settings)
      none (absoluteFault env.absolute) []
      (setLogger (settings.logger sinks) >>= fun _ => absolute env.absolute) := by
    intro s _ hpool
    obtain ⟨s', hr, hkept, hend⟩ := setLogger_run (settings.logger sinks) env.absolute hsinks s
    exact ⟨s', hr, hkept.trans hpool, hend⟩
  have hends := Ends.after_pool (g := fun _ => _) hset
  rw [ite_self] at hends
  exact hends

/-- When a logger is there already, it is replaced or stays. -/
theorem createLogger_run (env : LoadEnv W) (settings : Settings) {s : LogPrivate W}
    {pool : Option Nat} (hs : Fresh s) (hpool : s.pool = pool) :
    ∃ s', Reloaded [] s s' ∧ s'.pool = poolAfter env.queue pool settings ∧
      createLogger env settings [] s =
        ending ((firstFault (asyncFaults env.queue pool settings)).or
          (absoluteFault env.absolute)) () s' ∧ Fresh s' := by
  have hrun := startPool_run env.queue settings s
  rw [hpool] at hrun
  cases hfault : firstFault (asyncFaults env.queue pool settings) with
  | some e =>
      rw [hfault] at hrun
      exact ⟨{ s with pool := poolAfter env.queue pool settings }, ⟨rfl, rfl, rfl, rfl, rfl⟩, rfl,
        bind_of_error hrun, hs⟩
  | none =>
      rw [hfault] at hrun
      obtain ⟨s', hr, hkept, he, hfresh⟩ := setLogger_run (settings.logger []) env.absolute
        (fun _ hmem => by cases hmem) { s with pool := poolAfter env.queue pool settings }
      exact ⟨s', hr.of_set, hkept, (bind_of_ok hrun).trans he, hfresh⟩

theorem loadHead_obeys (configFilePath : String) (root : Node) :
    Obeys (Wrote (W := W) []) (loadHead configFilePath root) (firstFault (headFaults root))
      (settingsAt (loggerAt root), sinksNodeAt root) := by
  rw [loadHead, headFaults]
  simp only [firstFault_append, firstFault, Option.or_assoc, Option.none_or]
  refine quiet_seq (read_obeys (getNode_reads root "log_config")) ?_
  refine throwIf_seq ?_
  refine quiet_seq (read_obeys (getNode_reads (logConfigAt root) "logger")) ?_
  refine throwIf_seq ?_
  rw [← Option.none_or (o := (firstFault (settingsFaults (loggerAt root))).or _)]
  refine quiet_seq (Obeys.modify fun _ => ⟨rfl, rfl, rfl, rfl, rfl, rfl, rfl⟩) ?_
  refine quiet_seq (read_obeys (readSettings_reads (loggerAt root))) ?_
  refine quiet_seq (read_obeys (getNode_reads (logConfigAt root) "showCodeLine")) ?_
  refine quiet_seq (readShowLines_obeys _) ?_
  refine quiet_seq (read_obeys (getNode_reads (logConfigAt root) "sinks")) ?_
  exact throwIf_seq (Obeys.pure Wrote.refl)

/-- The logger of an empty list of sinks is assigned twice, and so is its pool. -/
theorem loadConsole_ends (env : LoadEnv W) (pool : Option Nat) (settings : Settings) :
    Ends pool
      (if firstFault (asyncFaults env.consoleQueue pool settings) = none then
        poolAfter env.queue (poolAfter env.consoleQueue pool settings) settings
      else poolAfter env.consoleQueue pool settings)
      (firstFault (asyncFaults env.consoleQueue pool settings))
      ((firstFault (asyncFaults env.queue (poolAfter env.consoleQueue pool settings) settings)).or
        (absoluteFault env.absolute)) []
      (do
        startPool env.consoleQueue settings
        setLogger {
          name := "console"
          sinks := [.configured .stdoutColor .trace]
          async := settings.asyncEnabled }
        createLogger env settings []) := by
  refine Ends.after_pool ?_
  intro s _ hpool
  have hfresh : Fresh { s with logger := some {
      name := "console"
      sinks := [.configured .stdoutColor .trace]
      async := settings.asyncEnabled } } := by
    refine ⟨_, rfl, ?_⟩
    intro sink hmem cbSink
    rw [List.mem_singleton] at hmem
    rw [hmem]
    exact Sink.noConfusion
  obtain ⟨s', hr, hpool', he, hfresh'⟩ := createLogger_run env settings hfresh hpool
  exact ⟨s', hr.of_set, hpool', he, hfresh'⟩

theorem loadRoot_ends (env : LoadEnv W) (configFilePath : String) (pool : Option Nat)
    (root : Node) :
    Ends pool (loadedPool env pool (some root)) (faultBefore env configFilePath pool (some root))
      (faultAfter env pool (some root)) (loadWrites env (some root))
      (loadRoot env configFilePath root) := by
  have hhead := loadHead_obeys (W := W) configFilePath root
  rw [loadRoot, loadedPool, faultBefore, faultAfter, loadWrites]
  rw [← List.nil_append (if firstFault (headFaults root) = none then _ else [])]
  refine Ends.after_stage hhead ?_
  dsimp only
  by_cases hempty : (sinksNodeAt root).size = 0
  · rw [if_pos hempty, if_pos hempty, if_pos hempty, if_pos hempty, hempty]
    exact loadConsole_ends env pool (settingsAt (loggerAt root))
  · rw [if_neg hempty, if_neg hempty, if_neg hempty, if_neg hempty, Option.none_or]
    have hstage := Ends.after_stage
      (loadSinks_obeys env (sinksNodeAt root) (sinksNodeAt root).size 0)
      (createLogger_ends env pool (settingsAt (loggerAt root))
        (configured_no_callback (sinksNodeAt root) (sinksNodeAt root).size 0))
    rw [ite_self, List.append_nil] at hstage
    exact hstage

/-- Without a document there is nothing to load. -/
theorem loadNothing_ends (env : LoadEnv W) (configFilePath : String) (pool : Option Nat) :
    Ends pool (loadedPool env pool none) (faultBefore env configFilePath pool none)
      (faultAfter env pool none) (loadWrites env none)
      (absolute env.absolute >>= fun _ =>
        throw (.spdlogEx ("加载日志yaml配置文件失败，路径：" ++ configFilePath))) := by
  intro s hs hpool
  obtain ⟨s', he, hw⟩ := quiet_seq (absolute_obeys env.absolute) (g := fun _ => _) (b := ())
    (Obeys.throw Wrote.refl) s
  refine ⟨s', hw.reloaded, hw.pool.trans hpool, ?_⟩
  rw [faultBefore]
  cases hfault : absoluteFault env.absolute with
  | none =>
      rw [hfault] at he
      exact ⟨he, hw.logger.trans hs⟩
  | some e =>
      rw [hfault] at he
      exact ⟨he, hw.logger.trans hs⟩

/-- What `loadConfigFile` does once it has looked for the file. -/
def loadDocument (env : LoadEnv W) (configFilePath : String) : Option Node → LogM W Unit
  | none => absolute env.absolute >>= fun _ =>
      throw (.spdlogEx ("加载日志yaml配置文件失败，路径：" ++ configFilePath))
  | some rootNode => loadRoot env configFilePath rootNode

theorem loadConfigFile_eq (env : LoadEnv W) (configFilePath : String) (s : LogPrivate W) :
    loadConfigFile env configFilePath s =
      loadDocument env configFilePath (loadFile env configFilePath s.files)
        { s with logger := none } := rfl

/-- How a load ends. -/
theorem loadConfigFile_spec (env : LoadEnv W) (configFilePath : String) (s : LogPrivate W) :
    ∃ s', Reloaded (loadWrites env (loadFile env configFilePath s.files)) s s' ∧
      s'.pool = loadedPool env s.pool (loadFile env configFilePath s.files) ∧
      match faultBefore env configFilePath s.pool (loadFile env configFilePath s.files) with
      | some e => loadConfigFile env configFilePath s = .error e s' ∧ s'.logger = none
      | none =>
          loadConfigFile env configFilePath s =
            ending (faultAfter env s.pool (loadFile env configFilePath s.files)) () s' ∧
          Fresh s' := by
  have hends : ∀ (doc : Option Node), Ends s.pool (loadedPool env s.pool doc)
      (faultBefore env configFilePath s.pool doc) (faultAfter env s.pool doc) (loadWrites env doc)
      (loadDocument env configFilePath doc) := by
    intro doc
    cases doc with
    | none => exact loadNothing_ends env configFilePath s.pool
    | some root => exact loadRoot_ends env configFilePath s.pool root
  obtain ⟨s', hr, hpool, hend⟩ :=
    hends (loadFile env configFilePath s.files) { s with logger := none } rfl rfl
  rw [← loadConfigFile_eq] at hend
  exact ⟨s', hr.of_set, hpool, hend⟩

end UempPlugin.Ref.Log
