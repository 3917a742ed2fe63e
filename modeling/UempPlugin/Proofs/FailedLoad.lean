import UempPlugin.Proofs.ConfiguredSinks

/-!
# What a load leaves when it throws

`loadConfigFile` resets the logger first, sets the path once the document has
passed two checks, and assigns the six flags one after another. So a load that
throws does not go back: the former logger is gone, and how far path and flags
came depends on the first fault.
-/

namespace UempPlugin.Ref.Log

open UempPlugin.Lib
open Yaml (Node getNode getDef)

variable {W : World}

/-! ## Stages that leave path and flags alone -/

/-- The path in force and the flags. -/
def marks (s : LogPrivate W) : String × (Level → Bool) := (s.configFilePath, s.showLine)

def SameMarks (s s' : LogPrivate W) : Prop := marks s' = marks s

theorem SameMarks.trans {s s' s'' : LogPrivate W} (h : SameMarks s s') (h' : SameMarks s' s'') :
    SameMarks s s'' := Eq.trans h' h

theorem read_marks {α : Type} (r : Except Exn α) : Leads (SameMarks (W := W)) (read r) := by
  cases r <;> exact fun _ => rfl

theorem pure_marks {α : Type} (a : α) : Leads (SameMarks (W := W)) (pure a : LogM W α) :=
  fun _ => rfl

theorem throw_marks {α : Type} (e : Exn) : Leads (SameMarks (W := W)) (throw e : LogM W α) :=
  fun _ => rfl

theorem absolute_marks (ok : Bool) : Leads (SameMarks (W := W)) (absolute ok) := by
  cases ok <;> exact fun _ => rfl

theorem startPool_marks (queue : Bool) (settings : Settings) :
    Leads (SameMarks (W := W)) (startPool queue settings) := by
  intro s
  rw [startPool_run]
  cases firstFault (asyncFaults queue s.pool settings) <;> rfl

theorem construct_marks {config : SinkConfig} (outcome : SinkOutcome W config) :
    Leads SameMarks (construct config outcome) := by
  intro s
  rw [construct]
  cases config.refuses with
  | some e => rfl
  | none =>
      show SameMarks s (final ((if config.opens && !outcome.opens then _ else _ : LogM W Unit) _))
      split <;> rfl

theorem loadSink_marks (env : LoadEnv W) (i : Nat) (sinkNode : Node) :
    Leads SameMarks (loadSink env i sinkNode) := by
  rw [loadSink]
  split
  · exact pure_marks _
  · refine Leads.bind SameMarks.trans (read_marks _) fun type => ?_
    refine Leads.bind SameMarks.trans (read_marks _) fun level => ?_
    refine Leads.bind SameMarks.trans (read_marks _) fun config? => ?_
    cases config? with
    | none => exact pure_marks _
    | some config =>
        exact Leads.bind SameMarks.trans (construct_marks _) fun _ => pure_marks _

theorem loadSinks_marks (env : LoadEnv W) (sinksNode : Node) :
    ∀ n i, Leads SameMarks (loadSinks env sinksNode n i) := by
  intro n
  induction n with
  | zero => exact fun i => pure_marks _
  | succ n ih =>
      intro i
      refine Leads.bind SameMarks.trans (loadSink_marks env i _) fun sinks => ?_
      exact Leads.bind SameMarks.trans (ih (i + 1)) fun rest => pure_marks _

theorem setLogger_marks (logger : Logger) : Leads (SameMarks (W := W)) (setLogger logger) :=
  fun _ => rfl

theorem createLogger_marks (env : LoadEnv W) (settings : Settings) (sinks : List Sink) :
    Leads SameMarks (createLogger env settings sinks) := by
  refine Leads.bind SameMarks.trans (startPool_marks _ _) fun _ => ?_
  exact Leads.bind SameMarks.trans (setLogger_marks _) fun _ => absolute_marks _

/-- Everything after the head of the document. -/
theorem loadTail_marks (env : LoadEnv W) (settings : Settings) (sinksNode : Node) :
    Leads (SameMarks (W := W)) (if sinksNode.size = 0 then do
        startPool env.consoleQueue settings
        setLogger {
          name := "console"
          sinks := [.configured .stdoutColor .trace]
          async := settings.asyncEnabled }
        createLogger env settings []
      else do
        let sinks ← loadSinks env sinksNode sinksNode.size 0
        createLogger env settings sinks) := by
  split
  · refine Leads.bind SameMarks.trans (startPool_marks _ _) fun _ => ?_
    exact Leads.bind SameMarks.trans (setLogger_marks _) fun _ => createLogger_marks _ _ _
  · exact Leads.bind SameMarks.trans (loadSinks_marks _ _ _ _) fun _ => createLogger_marks _ _ _

/-! ## Stages that set them -/

/-- The state's path and flags become those that `t` makes of them. -/
def Marks (t : String × (Level → Bool) → String × (Level → Bool)) (s s' : LogPrivate W) : Prop :=
  marks s' = t (marks s)

/-- A stage after another. -/
theorem marks_bind {α β : Type} {f : LogM W α} {g : α → LogM W β} {fault fault' : Option Exn}
    {a : α} {b : β} {t t' : String × (Level → Bool) → String × (Level → Bool)}
    (hf : Obeys (Marks t) f fault a) (hg : Obeys (Marks t') (g a) fault' b) :
    Obeys (Marks (if fault = none then t' ∘ t else t)) (f >>= g) (fault.or fault') b := by
  refine hf.bind hg ?_ ?_
  · intro s s' hfault h
    rw [if_neg hfault]
    exact h
  · intro s s' s'' hfault h h'
    rw [if_pos hfault, Marks, h', h]
    rfl

/-- A read before the rest. -/
theorem read_marks_bind {α β : Type} {r : Except Exn α} {g : α → LogM W β}
    {fault fault' : Option Exn} {a : α} {b : β}
    {t : String × (Level → Bool) → String × (Level → Bool)} (hr : Reads r fault a)
    (hg : Obeys (Marks t) (g a) fault' b) :
    Obeys (Marks (if fault = none then t else id)) (read r >>= g) (fault.or fault') b := by
  have hread : Obeys (Marks (W := W) id) (read r) fault a := by
    cases fault with
    | none =>
        rw [show r = .ok a from hr]
        exact Obeys.pure fun _ => rfl
    | some e =>
        rw [show r = .error e from hr]
        exact Obeys.throw fun _ => rfl
  exact marks_bind hread hg

/-- A test that throws, before the rest. -/
theorem throwIf_marks {α : Type} {c : Prop} [Decidable c] {e : Exn} {rest : Unit → LogM W α}
    {fault : Option Exn} {a : α} {t : String × (Level → Bool) → String × (Level → Bool)}
    (h : Obeys (Marks t) (rest ()) fault a) :
    Obeys (Marks (if (if c then some e else none) = none then t else id))
      (if c then throw e >>= rest else rest ()) ((if c then some e else none).or fault) a := by
  split
  · exact fun s => ⟨s, rfl, rfl⟩
  · exact h

/-- The flags in the order of the code, with their keys and defaults. -/
def flagKeys : List (Level × String × Bool) :=
  [(.trace, "trace", false), (.debug, "debug", false), (.info, "info", false),
    (.warn, "warn", true), (.err, "error", true), (.critical, "critical", true)]

/-- The flags are assigned up to the first that does not read. -/
def setFlags (node : Node) :
    List (Level × String × Bool) → String × (Level → Bool) → String × (Level → Bool)
  | [], m => m
  | f :: fs, m =>
      if keyFault Bool node f.2.1 = none then
        setFlags node fs (m.1, Function.update m.2 f.1 (valueAt node f.2.1 f.2.2))
      else m

theorem readFlag_marks {node : Node} {f : Level × String × Bool} {fs : List (Level × String × Bool)}
    {assign : Bool → LogPrivate W → LogPrivate W} {rest : LogM W Unit} {fault : Option Exn}
    (hassign : ∀ flag s, marks (assign flag s) = ((marks s).1, Function.update (marks s).2 f.1 flag))
    (hrest : Obeys (Marks (setFlags node fs)) rest fault ()) :
    Obeys (Marks (setFlags node (f :: fs))) (read (getDef node f.2.1 f.2.2) >>= fun flag =>
      modify (assign flag) >>= fun _ => rest) ((keyFault Bool node f.2.1).or fault) () := by
  have hset : Obeys (Marks fun m => (m.1, Function.update m.2 f.1 (valueAt node f.2.1 f.2.2)))
      (modify (assign (valueAt node f.2.1 f.2.2)) : LogM W Unit) none () :=
    Obeys.modify fun s => hassign _ s
  refine (read_marks_bind (getDef_reads node f.2.1 f.2.2) (marks_bind hset hrest)).weaken ?_
  intro s s' h
  rw [Marks, h, setFlags]
  split <;> rfl

/-- The same at the end. -/
theorem lastFlag_marks {node : Node} {f : Level × String × Bool}
    {assign : Bool → LogPrivate W → LogPrivate W}
    (hassign : ∀ flag s,
      marks (assign flag s) = ((marks s).1, Function.update (marks s).2 f.1 flag)) :
    Obeys (Marks (setFlags node [f])) (read (getDef node f.2.1 f.2.2) >>= fun flag =>
      modify (assign flag)) ((keyFault Bool node f.2.1).or none) () := by
  have hset : Obeys (Marks fun m => (m.1, Function.update m.2 f.1 (valueAt node f.2.1 f.2.2)))
      (modify (assign (valueAt node f.2.1 f.2.2)) : LogM W Unit) none () :=
    Obeys.modify fun s => hassign _ s
  refine (read_marks_bind (getDef_reads node f.2.1 f.2.2) hset).weaken ?_
  intro s s' h
  rw [Marks, h, setFlags]
  split <;> rfl

/-- A node that is there. -/
def present (node : Node) : Bool := node.isDefined && !node.isNull

theorem readShowLines_marks (node : Node) :
    Obeys (Marks (W := W) (if present node then setFlags node flagKeys else id))
      (readShowLines node) (firstFault (showLineFaults node)) () := by
  have hupdate : ∀ {m m' : String × (Level → Bool)} {level : Level} {flag : Bool},
      m'.1 = m.1 → (∀ l, m'.2 l = Function.update m.2 level flag l) →
        m' = (m.1, Function.update m.2 level flag) :=
    fun hpath hflags => Prod.ext hpath (funext hflags)
  rw [readShowLines, showLineFaults, present]
  split
  · refine readFlag_marks (f := (.trace, "trace", false)) ?_ ?_
    · exact fun flag s => hupdate rfl fun l => by cases l <;> rfl
    refine readFlag_marks (f := (.debug, "debug", false)) ?_ ?_
    · exact fun flag s => hupdate rfl fun l => by cases l <;> rfl
    refine readFlag_marks (f := (.info, "info", false)) ?_ ?_
    · exact fun flag s => hupdate rfl fun l => by cases l <;> rfl
    refine readFlag_marks (f := (.warn, "warn", true)) ?_ ?_
    · exact fun flag s => hupdate rfl fun l => by cases l <;> rfl
    refine readFlag_marks (f := (.err, "error", true)) ?_ ?_
    · exact fun flag s => hupdate rfl fun l => by cases l <;> rfl
    refine lastFlag_marks (f := (.critical, "critical", true)) ?_
    exact fun flag s => hupdate rfl fun l => by cases l <;> rfl
  · exact Obeys.pure fun _ => rfl

/-- The checks before the path is set. -/
def gateFaults (root : Node) : List (Option Exn) :=
  [subscriptFault root "log_config",
    absentFault "日志yaml配置文件中, <LogConfig> 节点未定义或为空" (logConfigAt root),
    subscriptFault (logConfigAt root) "logger",
    absentFault "日志yaml配置文件中, <Logger> 节点未定义或为空" (loggerAt root)]

def showLineAt (root : Node) : Node := childAt (logConfigAt root) "showCodeLine"

/-- The checks between the path and the first flag. -/
def settingFaults (root : Node) : List (Option Exn) :=
  settingsFaults (loggerAt root) ++ [subscriptFault (logConfigAt root) "showCodeLine"]

/-- What the head of a document makes of path and flags. -/
def headMarks (configFilePath : String) (root : Node) :
    String × (Level → Bool) → String × (Level → Bool) :=
  if firstFault (gateFaults root) = none then
    (if firstFault (settingFaults root) = none then
      if present (showLineAt root) then setFlags (showLineAt root) flagKeys else id
    else id) ∘ fun m => (configFilePath, m.2)
  else id

/-- Two checks in a row are one after the other. -/
theorem ite_or_none {γ : Type} (fault fault' : Option Exn) (x y : γ) :
    (if fault.or fault' = none then x else y) =
      if fault = none then if fault' = none then x else y else y := by
  cases fault with
  | none => rfl
  | some e => rfl

theorem loadHead_marks (configFilePath : String) (root : Node) :
    Obeys (Marks (W := W) (headMarks configFilePath root)) (loadHead configFilePath root)
      (firstFault (headFaults root)) (settingsAt (loggerAt root), sinksNodeAt root) := by
  rw [loadHead, headFaults]
  simp only [firstFault_append, firstFault, Option.or_assoc, Option.none_or]
  rw [← Option.none_or (o := (firstFault (settingsFaults (loggerAt root))).or _)]
  have hpath : Obeys (Marks fun m => (configFilePath, m.2))
      (modify fun s => { s with configFilePath := configFilePath } : LogM W Unit) none () :=
    Obeys.modify fun s => rfl
  refine Obeys.weaken (read_marks_bind (getNode_reads root "log_config") <| throwIf_marks <|
    read_marks_bind (getNode_reads (logConfigAt root) "logger") <| throwIf_marks <|
    marks_bind hpath <| read_marks_bind (readSettings_reads (loggerAt root)) <|
    read_marks_bind (getNode_reads (logConfigAt root) "showCodeLine") <|
    marks_bind (readShowLines_marks (showLineAt root)) <|
    read_marks_bind (getNode_reads (logConfigAt root) "sinks") <|
    throwIf_marks (t := id) <| Obeys.pure fun _ => rfl) ?_
  intro s s' h
  rw [Marks, h, headMarks, gateFaults, settingFaults]
  simp only [firstFault_append, firstFault, Option.or_none, ite_or_none, ite_self,
    Function.id_comp, if_true, absentFault]
  rfl

/-! ## How far path and flags came -/

/-- The path is taken over. -/
def PathTaken : Option Node → Prop
  | none => False
  | some root => firstFault (gateFaults root) = none

/-- The flags are read without a fault, and everything before them. -/
def FlagsRead (flags : List (Level × String × Bool)) : Option Node → Prop
  | none => False
  | some root =>
      firstFault (gateFaults root) = none ∧ firstFault (settingFaults root) = none ∧
        present (showLineAt root) = true ∧
        ∀ f ∈ flags, keyFault Bool (showLineAt root) f.2.1 = none

/-- The value the document gives a flag. -/
def flagAt (f : Level × String × Bool) : Option Node → Bool
  | none => f.2.2
  | some root => valueAt (showLineAt root) f.2.1 f.2.2

theorem setFlags_path (node : Node) (fs : List (Level × String × Bool)) :
    ∀ m, (setFlags node fs m).1 = m.1 := by
  induction fs with
  | nil => exact fun m => rfl
  | cons f fs ih =>
      intro m
      rw [setFlags]
      split
      · exact ih _
      · rfl

theorem setFlags_of_ne (node : Node) {fs : List (Level × String × Bool)} {level : Level}
    (h : ∀ f ∈ fs, f.1 ≠ level) : ∀ m, (setFlags node fs m).2 level = m.2 level := by
  induction fs with
  | nil => exact fun m => rfl
  | cons f fs ih =>
      intro m
      rw [setFlags]
      split
      · rw [ih fun g hg => h g (List.mem_cons_of_mem _ hg)]
        exact Function.update_of_ne (h f List.mem_cons_self).symm _ _
      · rfl

/-- A flag is set exactly when it reads, and all before it. -/
theorem setFlags_split (node : Node) {f : Level × String × Bool}
    {post : List (Level × String × Bool)} (hpost : ∀ g ∈ post, g.1 ≠ f.1) :
    ∀ {pre : List (Level × String × Bool)} (m : String × (Level → Bool)),
      (∀ g ∈ pre, g.1 ≠ f.1) →
      ((∀ g ∈ pre ++ [f], keyFault Bool node g.2.1 = none) →
        (setFlags node (pre ++ f :: post) m).2 f.1 = valueAt node f.2.1 f.2.2) ∧
      ((¬ ∀ g ∈ pre ++ [f], keyFault Bool node g.2.1 = none) →
        (setFlags node (pre ++ f :: post) m).2 f.1 = m.2 f.1) := by
  intro pre
  induction pre with
  | nil =>
      intro m _
      rw [List.nil_append, List.nil_append, setFlags]
      constructor
      · intro hread
        rw [if_pos (hread f (List.mem_singleton_self f)), setFlags_of_ne node hpost]
        exact Function.update_self _ _ _
      · intro hread
        rw [if_neg fun hf => hread fun g hg => by rw [List.mem_singleton.1 hg]; exact hf]
  | cons g pre ih =>
      intro m hpre
      rw [List.cons_append, List.cons_append, setFlags, List.forall_mem_cons]
      split
      · next hg =>
          have hne : g.1 ≠ f.1 := hpre g List.mem_cons_self
          obtain ⟨hset, hkept⟩ := ih (m.1, Function.update m.2 g.1 (valueAt node g.2.1 g.2.2))
            fun x hx => hpre x (List.mem_cons_of_mem _ hx)
          refine ⟨fun hread => hset hread.2, fun hread => ?_⟩
          rw [hkept fun hrest => hread ⟨hg, hrest⟩]
          exact Function.update_of_ne hne.symm _ _
      · next hg => exact ⟨fun hread => absurd hread.1 hg, fun _ => rfl⟩

/-- Path and flags after the head of a document. -/
theorem headMarks_spec (configFilePath : String) (root : Node) (m : String × (Level → Bool)) :
    ((PathTaken (some root) → (headMarks configFilePath root m).1 = configFilePath) ∧
      (¬ PathTaken (some root) → (headMarks configFilePath root m).1 = m.1)) ∧
    ∀ pre f post, flagKeys = pre ++ f :: post →
      (FlagsRead (pre ++ [f]) (some root) →
        (headMarks configFilePath root m).2 f.1 = flagAt f (some root)) ∧
      (¬ FlagsRead (pre ++ [f]) (some root) →
        (headMarks configFilePath root m).2 f.1 = m.2 f.1) := by
  by_cases hgate : firstFault (gateFaults root) = none
  · have hpath : (headMarks configFilePath root m).1 = configFilePath := by
      rw [headMarks, if_pos hgate, Function.comp_apply]
      split
      · split
        · exact setFlags_path _ _ _
        · rfl
      · rfl
    refine ⟨⟨fun _ => hpath, fun hnot => absurd hgate hnot⟩, ?_⟩
    intro pre f post hsplit
    rw [headMarks, if_pos hgate, Function.comp_apply]
    by_cases hset : firstFault (settingFaults root) = none
    · rw [if_pos hset]
      by_cases hpresent : present (showLineAt root) = true
      · have hnodup : (flagKeys.map Prod.fst).Nodup := by decide
        rw [hsplit, List.map_append, List.map_cons, List.nodup_append, List.nodup_cons] at hnodup
        have hpre : ∀ g ∈ pre, g.1 ≠ f.1 := fun g hg =>
          hnodup.2.2 g.1 (List.mem_map_of_mem hg) f.1 List.mem_cons_self
        have hpost : ∀ g ∈ post, g.1 ≠ f.1 := fun g hg heq =>
          hnodup.2.1.1 (heq ▸ List.mem_map_of_mem hg)
        obtain ⟨hread, hkept⟩ := setFlags_split (showLineAt root) hpost (configFilePath, m.2) hpre
        rw [if_pos hpresent, hsplit]
        exact ⟨fun h => hread h.2.2.2, fun h => hkept fun hall => h ⟨hgate, hset, hpresent, hall⟩⟩
      · rw [if_neg hpresent]
        exact ⟨fun h => absurd h.2.2.1 hpresent, fun _ => rfl⟩
    · rw [if_neg hset]
      exact ⟨fun h => absurd h.2.1 hset, fun _ => rfl⟩
  · rw [headMarks, if_neg hgate]
    refine ⟨⟨fun h => absurd h hgate, fun _ => rfl⟩, ?_⟩
    intro pre f post _
    exact ⟨fun h => absurd h.1 hgate, fun _ => rfl⟩

/-- Path and flags after a load, however it ends. -/
theorem loadConfigFile_marks (env : LoadEnv W) (configFilePath : String) (s : LogPrivate W) :
    marks (final (loadConfigFile env configFilePath s)) =
      match loadFile env configFilePath s.files with
      | none => marks s
      | some root => headMarks configFilePath root (marks s) := by
  have hrun : loadConfigFile env configFilePath s =
      (match loadFile env configFilePath s.files with
        | none => absolute env.absolute >>= fun _ =>
            throw (.spdlogEx ("加载日志yaml配置文件失败，路径：" ++ configFilePath))
        | some rootNode => loadRoot env configFilePath rootNode : LogM W Unit)
        { s with logger := none } := rfl
  rw [hrun]
  cases hdoc : loadFile env configFilePath s.files with
  | none =>
      have hsame : Leads (SameMarks (W := W)) (absolute env.absolute >>= fun _ =>
          (throw (.spdlogEx ("加载日志yaml配置文件失败，路径：" ++ configFilePath)) : LogM W Unit)) :=
        Leads.bind SameMarks.trans (absolute_marks env.absolute) fun _ => throw_marks _
      exact hsame { s with logger := none }
  | some root =>
      have hhead := loadHead_marks configFilePath root (W := W)
      show marks (final (loadRoot env configFilePath root { s with logger := none })) = _
      rw [loadRoot]
      cases hfault : firstFault (headFaults root) with
      | some e =>
          rw [hfault] at hhead
          obtain ⟨s₁, hm, he⟩ := hhead.throws (fun head => _) { s with logger := none }
          rw [he]
          exact hm
      | none =>
          rw [hfault] at hhead
          obtain ⟨s₁, hm, he⟩ := hhead.continues (fun head => _) { s with logger := none }
          rw [he]
          have htail := loadTail_marks env (settingsAt (loggerAt root)) (sinksNodeAt root) s₁
          exact Eq.trans htail hm

/-- A load that throws does so before it has a logger, or in its last steps. -/
theorem loadConfigFile_error {env : LoadEnv W} {configFilePath : String} {s s' : LogPrivate W}
    {e : Exn} (h : loadConfigFile env configFilePath s = .error e s') :
    faultBefore env configFilePath s.pool (loadFile env configFilePath s.files) = some e ∧
        s'.logger = none ∨
      faultBefore env configFilePath s.pool (loadFile env configFilePath s.files) = none ∧
        faultAfter env s.pool (loadFile env configFilePath s.files) = some e ∧ Fresh s' := by
  obtain ⟨s'', -, -, hend⟩ := loadConfigFile_spec env configFilePath s
  rw [h] at hend
  cases hbefore : faultBefore env configFilePath s.pool (loadFile env configFilePath s.files) with
  | some e' =>
      rw [hbefore] at hend
      obtain ⟨he, hlogger⟩ := hend
      cases he
      exact .inl ⟨rfl, hlogger⟩
  | none =>
      rw [hbefore] at hend
      obtain ⟨he, hfresh⟩ := hend
      cases hafter : faultAfter env s.pool (loadFile env configFilePath s.files) with
      | none =>
          rw [hafter] at he
          cases he
      | some e' =>
          rw [hafter] at he
          cases he
          exact .inr ⟨rfl, rfl, hfresh⟩

/-- What a load that throws leaves: no logger, or a new one when the last
steps failed; the new path once the document named a logger; and each flag as
the document has it, when it and everything before it reads. -/
theorem failed_load (env : LoadEnv W) (configFilePath : String) (s : LogPrivate W) {e : Exn}
    {s' : LogPrivate W} (h : loadConfigFile env configFilePath s = .error e s') :
    (faultBefore env configFilePath s.pool (loadFile env configFilePath s.files) = some e ∧
        s'.logger = none ∨
      faultBefore env configFilePath s.pool (loadFile env configFilePath s.files) = none ∧
        faultAfter env s.pool (loadFile env configFilePath s.files) = some e ∧ Fresh s') ∧
    ((PathTaken (loadFile env configFilePath s.files) → s'.configFilePath = configFilePath) ∧
      (¬ PathTaken (loadFile env configFilePath s.files) →
        s'.configFilePath = s.configFilePath)) ∧
    ∀ pre f post, flagKeys = pre ++ f :: post →
      (FlagsRead (pre ++ [f]) (loadFile env configFilePath s.files) →
        s'.showLine f.1 = flagAt f (loadFile env configFilePath s.files)) ∧
      (¬ FlagsRead (pre ++ [f]) (loadFile env configFilePath s.files) →
        s'.showLine f.1 = s.showLine f.1) := by
  have hmarks := loadConfigFile_marks env configFilePath s
  rw [h] at hmarks
  refine ⟨loadConfigFile_error h, ?_⟩
  cases hdoc : loadFile env configFilePath s.files with
  | none =>
      rw [hdoc] at hmarks
      have hpath : s'.configFilePath = s.configFilePath := congrArg Prod.fst hmarks
      have hflags : s'.showLine = s.showLine := congrArg Prod.snd hmarks
      refine ⟨⟨False.elim, fun _ => hpath⟩, ?_⟩
      intro pre f post _
      exact ⟨False.elim, fun _ => congrFun hflags f.1⟩
  | some root =>
      rw [hdoc] at hmarks
      have hspec := headMarks_spec configFilePath root (marks s)
      rw [← show marks s' = headMarks configFilePath root (marks s) from hmarks] at hspec
      exact hspec

/-! ## A document without sinks -/

def sinklessDoc : Node :=
  .map [(.scalar "log_config", .map [
    (.scalar "logger", .map [(.scalar "name", .scalar "a")]),
    (.scalar "showCodeLine", .map [(.scalar "trace", .scalar "true")])])]

def sinklessText : List UInt8 :=
  bytesOf "log_config: {logger: {name: a}, showCodeLine: {trace: true}}"

/-- A logger is in force when that document is loaded. -/
def sinklessStart : LogPrivate (knowing sinklessText sinklessDoc) :=
  { facing sinklessText sinklessDoc with logger := some { name := "b" } }

def noSinks : Exn := .spdlogEx "在日志yaml配置文件中, <Sinks> 节点未定义、为空，或不是序列"

theorem failed_load_sinkless :
    ∃ s', loadConfigFile (working _) "log.yaml" sinklessStart = .error noSinks s' ∧
      s'.showLine .trace = flagAt (.trace, "trace", false) (some sinklessDoc) :=
  ⟨_, rfl, ((failed_load (working _) "log.yaml" sinklessStart rfl).2.2 []
    (.trace, "trace", false) _ rfl).1 ⟨rfl, rfl, rfl, by
      intro f hf
      rw [List.mem_singleton.1 hf]
      rfl⟩⟩

/-- The load throws, and logger, path and a flag are others than before. -/
theorem load_not_undone :
    ∃ s', loadConfigFile (working _) "log.yaml" sinklessStart = .error noSinks s' ∧
      sinklessStart.logger = some { name := "b" } ∧ s'.logger = none ∧
      sinklessStart.configFilePath = "./log_config.yaml" ∧ s'.configFilePath = "log.yaml" ∧
      sinklessStart.traceShowLine = false ∧ s'.traceShowLine = true :=
  ⟨_, rfl, rfl, rfl, rfl, rfl, rfl, rfl⟩

end UempPlugin.Ref.Log
