import UempPlugin.Lib.Subscribers
import UempPlugin.Lib.Simulation
import UempPlugin.Proofs.UsableLogger

/-!
# Callbacks as subscribers

The registry of callbacks and the sinks of the current logger are two records
of one thing, who is subscribed to the messages. As long as nobody replaces
the logger under a registered callback the two agree, every message goes to
each subscriber once, and the code is the publish-and-subscribe model of
`Lib/Subscribers`. Loading a configuration is the operation that breaks the
agreement: it makes a logger without callbacks and leaves the registry alone.
-/

namespace UempPlugin.Ref.Log

open UempPlugin.Lib
open Yaml (Node)

variable {W : World}

/-- The callback sinks of a logger, in order. -/
def callbacksOf (sinks : List Sink) : List CallbackSink :=
  sinks.filterMap fun
    | .callback cbSink => some cbSink
    | .configured .. => none

theorem mem_callbacksOf {sinks : List Sink} {c : CallbackSink} :
    c ∈ callbacksOf sinks ↔ Sink.callback c ∈ sinks := by
  rw [callbacksOf, List.mem_filterMap]
  constructor
  · intro ⟨sink, hmem, heq⟩
    cases sink with
    | configured config level => cases heq
    | callback c' =>
        cases heq
        exact hmem
  · intro hmem
    exact ⟨_, hmem, rfl⟩

theorem callbacksOf_append (sinks sinks' : List Sink) :
    callbacksOf (sinks ++ sinks') = callbacksOf sinks ++ callbacksOf sinks' := by
  rw [callbacksOf, callbacksOf, callbacksOf, List.filterMap_append]

theorem callbacksOf_eraseSink (ptr : Nat) (sinks : List Sink) :
    callbacksOf (eraseSink ptr sinks) = (callbacksOf sinks).filter fun c => c.ptr ≠ ptr := by
  induction sinks with
  | nil => rfl
  | cons sink sinks ih =>
      cases sink with
      | configured config level => exact ih
      | callback c =>
          by_cases hptr : c.ptr = ptr
          · have hdrop : eraseSink ptr (.callback c :: sinks) = eraseSink ptr sinks := by
              simp [eraseSink, hptr]
            have hcons : callbacksOf (.callback c :: sinks) = c :: callbacksOf sinks := rfl
            rw [hdrop, hcons, ih]
            simp [hptr]
          · have hkeep : eraseSink ptr (.callback c :: sinks) =
                .callback c :: eraseSink ptr sinks := by simp [eraseSink, hptr]
            have hcons : ∀ sinks, callbacksOf (.callback c :: sinks) = c :: callbacksOf sinks :=
              fun _ => rfl
            rw [hkeep, hcons, hcons, ih]
            simp [hptr]

theorem count_callback (c : CallbackSink) (sinks : List Sink) :
    sinks.count (.callback c) = (callbacksOf sinks).count c := by
  induction sinks with
  | nil => rfl
  | cons sink sinks ih =>
      cases sink with
      | configured config level =>
          rw [List.count_cons_of_ne (by simp), ih]
          rfl
      | callback c' =>
          rw [show callbacksOf (.callback c' :: sinks) = c' :: callbacksOf sinks from rfl,
            List.count_cons, List.count_cons, ih]
          simp

/-! ## Sending a message -/

/-- A callback sink wants the messages at or above its level. -/
def wants (c : CallbackSink) (m : Message) : Bool := c.level.shouldLog m.level

/-- The messages a logger passes on. -/
def passed (logger : Logger) (messages : List Message) : List Message :=
  messages.filter fun m => logger.level.shouldLog m.level

/-- What its callbacks are invoked with. -/
def deliveries (logger : Logger) (messages : List Message) : List (CallbackSink × Message) :=
  (passed logger messages).flatMap (deliver wants (callbacksOf logger.sinks))

def LogPrivate.invokedWith (s : LogPrivate W) (ds : List (CallbackSink × Message)) :
    LogPrivate W := { s with invoked := s.invoked ++ ds }

theorem invokedWith_nil (s : LogPrivate W) : s.invokedWith [] = s := by
  rw [LogPrivate.invokedWith, List.append_nil]

theorem invokedWith_append (s : LogPrivate W) (ds ds' : List (CallbackSink × Message)) :
    s.invokedWith (ds ++ ds') = (s.invokedWith ds).invokedWith ds' := by
  simp only [LogPrivate.invokedWith, List.append_assoc]

theorem logMessage_none {foreign : CallbackSink → Bool} (m : Message) {s : LogPrivate W}
    (h : s.logger = none) : logMessage foreign m s = .error .crash s := by
  cases s
  cases h
  rfl

theorem logMessage_some {foreign : CallbackSink → Bool} (m : Message) {s : LogPrivate W}
    {logger : Logger} (h : s.logger = some logger) :
    logMessage foreign m s = logger.log foreign m s := by
  cases s
  cases h
  rfl

theorem get_bind {α : Type} (f : LogPrivate W → LogM W α) (s : LogPrivate W) :
    (get >>= f) s = f s s := rfl

/-- `f` sends the messages and returns `a`, when the logger is synchronous and
no callback throws anything but a `std::exception`. -/
def Sends {α : Type} (foreign : CallbackSink → Bool) (f : LogM W α) (messages : List Message)
    (a : α) : Prop :=
  ∀ s logger, s.logger = some logger → logger.async = false →
    (∀ c ∈ callbacksOf logger.sinks, foreign c = false) →
    f s = .ok a (s.invokedWith (deliveries logger messages))

section

variable {foreign : CallbackSink → Bool}

theorem Sends.pure {α : Type} (a : α) : Sends foreign (pure a : LogM W α) [] a := by
  intro s logger _ _ _
  show EStateM.Result.ok a s = .ok a (s.invokedWith [])
  rw [invokedWith_nil]

theorem deliveries_append (logger : Logger) (ms ms' : List Message) :
    deliveries logger (ms ++ ms') = deliveries logger ms ++ deliveries logger ms' := by
  simp only [deliveries, passed, List.filter_append, List.flatMap_append]

theorem Sends.bind {α β : Type} {f : LogM W α} {g : α → LogM W β} {ms ms' : List Message} {a : α}
    {b : β} (hf : Sends foreign f ms a) (hg : Sends foreign (g a) ms' b) :
    Sends foreign (f >>= g) (ms ++ ms') b := by
  intro s logger hlogger hsync hforeign
  rw [bind_of_ok (hf s logger hlogger hsync hforeign), deliveries_append, invokedWith_append]
  exact hg (s.invokedWith (deliveries logger ms)) logger hlogger hsync hforeign

theorem sinkIt_run (m : Message) :
    ∀ (sinks : List Sink) (s : LogPrivate W), (∀ c ∈ callbacksOf sinks, foreign c = false) →
      sinkIt foreign m sinks s = .ok () (s.invokedWith (deliver wants (callbacksOf sinks) m)) := by
  intro sinks
  induction sinks with
  | nil =>
      intro s _
      rw [show deliver wants (callbacksOf []) m = [] from rfl, invokedWith_nil]
      rfl
  | cons sink sinks ih =>
      intro s hforeign
      cases sink with
      | configured config level => exact ih s hforeign
      | callback c =>
          have hcons : callbacksOf (.callback c :: sinks) = c :: callbacksOf sinks := rfl
          rw [hcons] at hforeign ⊢
          have hrest := fun t => ih t fun c' hc' => hforeign c' (List.mem_cons_of_mem _ hc')
          rw [sinkIt, deliver, List.filter_cons]
          by_cases hw : c.level.shouldLog m.level
          · rw [if_pos hw, if_pos (show wants c m = true from hw), List.map_cons,
              ← List.singleton_append, invokedWith_append, ← deliver, ← hrest]
            show EStateM.bind _ _ _ = _
            rw [EStateM.bind, invoke, hforeign c List.mem_cons_self]
            rfl
          · rw [if_neg hw, if_neg (show ¬ wants c m = true from hw), ← deliver, ← hrest]

theorem logMessage_sends (m : Message) : Sends foreign (logMessage (W := W) foreign m) [m] () := by
  intro s logger hlogger hsync hforeign
  rw [logMessage_some m hlogger, Logger.log, deliveries, passed]
  by_cases hlevel : logger.level.shouldLog m.level
  · rw [if_pos hlevel, hsync, List.filter_cons_of_pos (by exact hlevel), List.filter_nil,
      List.flatMap_cons, List.flatMap_nil, List.append_nil, ← sinkIt_run m logger.sinks s hforeign]
    rfl
  · rw [if_neg hlevel, List.filter_cons_of_neg (by exact hlevel), List.filter_nil,
      List.flatMap_nil, invokedWith_nil]
    rfl

/-- What the conversion of one value complains about. -/
def complaints (src : SourceLine) : Any → List Message
  | .empty => [⟨.debug, src.format " anyToString: empty std::any"⟩]
  | .nullptr =>
      [⟨.warn, src.format " anyToString: std::any holds nullptr_t (prefer empty std::any)"⟩]
  | .value type none => [⟨.debug, src.format (" anyToString: convert failed, type=" ++ type)⟩]
  | .value _ (some _) => []

/-- The text of one value. -/
def anyText : Any → String
  | .value _ (some text) => text
  | _ => ""

theorem anyToString_sends (src : SourceLine) (data : Any) :
    Sends (W := W) foreign (anyToString foreign src data) (complaints src data) (anyText data) := by
  match data with
  | .empty => exact (logMessage_sends _).bind (Sends.pure _)
  | .nullptr => exact (logMessage_sends _).bind (Sends.pure _)
  | .value type none => exact (logMessage_sends _).bind (Sends.pure _)
  | .value _ (some text) => exact Sends.pure text

def linkedText (msgList : List Any) : String :=
  msgList.foldr (fun msg text => anyText msg ++ text) ""

theorem linkString_sends (src : SourceLine) (msgList : List Any) :
    Sends (W := W) foreign (linkString foreign src msgList) (msgList.flatMap (complaints src))
      (linkedText msgList) := by
  induction msgList with
  | nil => exact Sends.pure ""
  | cons msg msgList ih =>
      rw [List.flatMap_cons, ← List.append_nil (msgList.flatMap _)]
      exact (anyToString_sends src msg).bind (ih.bind (Sends.pure _))

/-- The message `logImpl` ends with. -/
def finalMessage (src : SourceLine) (msgList : List Any) (showLine : Bool) (level : Level) :
    Message :=
  if msgList.length = 1 ∧ linkedText msgList = "" then ⟨level, src.format " 日志内容为空"⟩
  else if msgList.length > 1 ∧ linkedText msgList = "" then
    ⟨level, src.format " 日志打印失败，数据类型转换错误"⟩
  else if !showLine then ⟨level, linkedText msgList⟩
  else ⟨level, src.format (linkedText msgList)⟩

/-- All messages of one call, in order. -/
def messagesOf (src : SourceLine) (msgList : List Any) (showLine : Bool) (level : Level) :
    List Message :=
  msgList.flatMap (complaints src) ++ [finalMessage src msgList showLine level]

theorem logImpl_sends (src : SourceLine) (msgList : List Any) (showLine : Bool) (level : Level) :
    Sends (W := W) foreign (logImpl foreign src msgList showLine level)
      (messagesOf src msgList showLine level) () := by
  refine (linkString_sends src msgList).bind ?_
  rw [finalMessage]
  split
  · exact logMessage_sends _
  · split
    · exact logMessage_sends _
    · split
      · exact logMessage_sends _
      · exact logMessage_sends _

end

/-! ## Without a logger -/

/-- Without a logger nothing happens before the crash. -/
def Idle {α : Type} (f : LogM W α) : Prop := ∀ s, s.logger = none → final (f s) = s

theorem Idle.pure {α : Type} (a : α) : Idle (pure a : LogM W α) := fun _ _ => rfl

theorem Idle.bind {α β : Type} {f : LogM W α} {g : α → LogM W β} (hf : Idle f)
    (hg : ∀ a, Idle (g a)) : Idle (f >>= g) := by
  intro s hs
  have hfinal := hf s hs
  cases he : f s with
  | ok a s' =>
      rw [he] at hfinal
      rw [bind_of_ok he, show s' = s from hfinal]
      exact hg a s hs
  | error e s' =>
      rw [he] at hfinal
      rw [bind_of_error he]
      exact hfinal

theorem logMessage_idle (foreign : CallbackSink → Bool) (m : Message) :
    Idle (logMessage (W := W) foreign m) := by
  intro s hs
  rw [logMessage_none m hs]
  rfl

theorem anyToString_idle (foreign : CallbackSink → Bool) (src : SourceLine) (data : Any) :
    Idle (anyToString (W := W) foreign src data) := by
  match data with
  | .empty => exact (logMessage_idle foreign _).bind Idle.pure
  | .nullptr => exact (logMessage_idle foreign _).bind Idle.pure
  | .value type none => exact (logMessage_idle foreign _).bind Idle.pure
  | .value _ (some text) => exact Idle.pure text

theorem linkString_idle (foreign : CallbackSink → Bool) (src : SourceLine) (msgList : List Any) :
    Idle (linkString (W := W) foreign src msgList) := by
  induction msgList with
  | nil => exact Idle.pure ""
  | cons msg msgList ih =>
      exact (anyToString_idle foreign src msg).bind fun _ => ih.bind fun _ => Idle.pure _

theorem logImpl_idle (foreign : CallbackSink → Bool) (src : SourceLine) (msgList : List Any)
    (showLine : Bool) (level : Level) :
    Idle (logImpl (W := W) foreign src msgList showLine level) := by
  refine (linkString_idle foreign src msgList).bind fun _ => ?_
  split
  · exact logMessage_idle foreign _
  · split
    · exact logMessage_idle foreign _
    · split
      · exact logMessage_idle foreign _
      · exact logMessage_idle foreign _

/-! ## Operations -/

/-- A call from the outside. `sinkId` is what the generator returns, `foreign`
tells the callbacks that throw something other than a `std::exception`. -/
inductive Op (W : World) where
  | addCallBack (callback : Nat) (level : Level) (sinkId : String)
  | removeCallBack (sinkId : String)
  | setConfigPath (call : Call W)
  | log (foreign : CallbackSink → Bool) (level : Level) (src : SourceLine) (msgList : List Any)

namespace Op

/-- The state after the call, whether it returned or threw. -/
def step (s : LogPrivate W) : Op W → LogPrivate W
  | addCallBack callback level sinkId => final (addCallBackSink callback level sinkId s)
  | removeCallBack sinkId => final (removeCallBackSink sinkId s)
  | setConfigPath call => final (call.run s)
  | log foreign level src msgList => final (Log.log foreign level src msgList s)

/-- The messages of the call that pass the logger's level. -/
def messages (s : LogPrivate W) : Op W → List Message
  | log _ level src msgList =>
      match s.logger with
      | none => []
      | some logger => passed logger (messagesOf src msgList (s.showLine level) level)
  | _ => []

/-- What the call is to the subscribers. Without a logger, `addCallBack`
returns the empty string and registers nothing. -/
def events (s : LogPrivate W) (op : Op W) : List (Event String CallbackSink Message) :=
  match op with
  | addCallBack callback level sinkId =>
      match s.logger with
      | none => []
      | some _ => [.subscribe sinkId ⟨s.nextPtr, callback, level⟩]
  | removeCallBack sinkId => [.unsubscribe sinkId]
  | setConfigPath _ => []
  | log .. => (op.messages s).map .publish

/-- A configuration is loaded only while no callback is registered, and a
message goes to a synchronous logger whose callbacks throw nothing but
`std::exception`s. -/
def Ok (s : LogPrivate W) : Op W → Prop
  | setConfigPath _ => ∀ id : String, s.callbackSinks[id]? = none
  | log foreign _ _ _ => ∀ logger, s.logger = some logger →
      logger.async = false ∧ ∀ c ∈ callbacksOf logger.sinks, foreign c = false
  | _ => True

end Op

theorem addCallBack_run (s : LogPrivate W) (callback : Nat) (level : Level) (sinkId : String) :
    (Op.addCallBack callback level sinkId).step s =
      match s.logger with
      | none => s
      | some logger =>
          match s.callbackSinks[sinkId]? with
          | some old => { s with
              nextPtr := s.nextPtr + 1
              logger := some { logger with
                sinks := eraseSink old.ptr logger.sinks ++ [.callback ⟨s.nextPtr, callback, level⟩] }
              callbackSinks :=
                (s.callbackSinks.erase sinkId).insert sinkId ⟨s.nextPtr, callback, level⟩ }
          | none => { s with
              nextPtr := s.nextPtr + 1
              logger := some { logger with
                sinks := logger.sinks ++ [.callback ⟨s.nextPtr, callback, level⟩] }
              callbackSinks := s.callbackSinks.insert sinkId ⟨s.nextPtr, callback, level⟩ } := by
  show final (addCallBackSink callback level sinkId s) = _
  rw [addCallBackSink, get_bind]
  cases s.logger with
  | none => rfl
  | some logger => cases s.callbackSinks[sinkId]? <;> rfl

theorem removeCallBack_run (s : LogPrivate W) (sinkId : String) :
    (Op.removeCallBack sinkId).step s =
      match s.logger with
      | none => s
      | some logger =>
          match s.callbackSinks[sinkId]? with
          | some old => { s with
              logger := some { logger with sinks := eraseSink old.ptr logger.sinks }
              callbackSinks := s.callbackSinks.erase sinkId }
          | none => s := by
  show final (removeCallBackSink sinkId s) = _
  rw [removeCallBackSink, get_bind]
  cases s.logger with
  | none => rfl
  | some logger => cases s.callbackSinks[sinkId]? <;> rfl

/-- The registry and the logger's sinks both hold exactly the subscribers. -/
structure InStep (s : LogPrivate W) (ps : List (String × CallbackSink)) : Prop where
  sinks : ∀ logger, s.logger = some logger → callbacksOf logger.sinks = ps.map Prod.snd
  alone : s.logger = none → ps = []
  registry : ∀ (id : String) c, s.callbackSinks[id]? = some c ↔ (id, c) ∈ ps
  ptrs : (ps.map fun p => p.2.ptr).Nodup
  below : ∀ p ∈ ps, p.2.ptr < s.nextPtr

namespace InStep

variable {s : LogPrivate W} {ps : List (String × CallbackSink)}

theorem nodup (h : InStep s ps) : (ps.map Prod.snd).Nodup := by
  refine List.Nodup.of_map CallbackSink.ptr ?_
  rw [List.map_map]
  exact h.ptrs

/-- Erasing a sink by its address is erasing the subscriber by its id. -/
theorem filter_ptr (h : InStep s ps) {id : String} {old : CallbackSink}
    (hold : s.callbackSinks[id]? = some old) :
    (ps.map Prod.snd).filter (fun c => c.ptr ≠ old.ptr) =
      (ps.filter fun p => p.1 ≠ id).map Prod.snd := by
  rw [List.filter_map]
  congr 1
  refine List.filter_congr ?_
  intro p hp
  have hmem := (h.registry id old).1 hold
  have hiff : p.2.ptr = old.ptr ↔ p.1 = id := by
    constructor
    · intro hptr
      rw [List.inj_on_of_nodup_map h.ptrs hp hmem hptr]
    · intro hid
      have hreg : s.callbackSinks[id]? = some p.2 := (h.registry id p.2).2 (by rw [← hid]; exact hp)
      rw [hold, Option.some.injEq] at hreg
      rw [hreg]
  simp [hiff]

/-- The id goes. -/
theorem erase (h : InStep s ps) {id : String} {old : CallbackSink} {logger : Logger}
    (hlogger : s.logger = some logger) (hold : s.callbackSinks[id]? = some old) :
    InStep { s with
        logger := some { logger with sinks := eraseSink old.ptr logger.sinks }
        callbackSinks := s.callbackSinks.erase id }
      (ps.filter fun p => p.1 ≠ id) := by
  refine ⟨?_, fun hnone => (Option.some_ne_none _ hnone).elim, ?_, ?_, ?_⟩
  · intro logger' heq
    cases heq
    rw [callbacksOf_eraseSink, h.sinks logger hlogger, h.filter_ptr hold]
  · intro id' c
    simp only [Std.ExtTreeMap.getElem?_erase, List.mem_filter, ne_eq, decide_eq_true_eq,
      Std.compare_eq_iff_eq, ← h.registry]
    by_cases hid : id' = id
    · simp [hid]
    · simp [hid, Ne.symm hid]
  · exact h.ptrs.sublist (List.Sublist.map _ List.filter_sublist)
  · exact fun p hp => h.below p (List.mem_filter.1 hp).1

/-- A new callback comes under an id that is not registered. -/
theorem attach (h : InStep s ps) {id : String} {logger : Logger} (callback : Nat) (level : Level)
    (hlogger : s.logger = some logger) (hnew : s.callbackSinks[id]? = none) :
    InStep { s with
        nextPtr := s.nextPtr + 1
        logger := some { logger with
          sinks := logger.sinks ++ [Sink.callback ⟨s.nextPtr, callback, level⟩] }
        callbackSinks := s.callbackSinks.insert id ⟨s.nextPtr, callback, level⟩ }
      (ps ++ [(id, ⟨s.nextPtr, callback, level⟩)]) := by
  have hnotin : ∀ c, (id, c) ∉ ps := by
    intro c hmem
    rw [← h.registry, hnew] at hmem
    cases hmem
  refine ⟨?_, fun hnone => (Option.some_ne_none _ hnone).elim, ?_, ?_, ?_⟩
  · intro logger' heq
    cases heq
    rw [callbacksOf_append, h.sinks logger hlogger, List.map_append]
    rfl
  · intro id' c
    simp only [Std.ExtTreeMap.getElem?_insert, Std.compare_eq_iff_eq, List.mem_append,
      List.mem_singleton, Prod.mk.injEq, ← h.registry]
    by_cases hid : id = id'
    · subst hid
      simp [hnew, eq_comm]
    · simp [hid, Ne.symm hid]
  · rw [List.map_append, List.nodup_append]
    refine ⟨h.ptrs, List.nodup_singleton _, ?_⟩
    intro ptr hptr ptr' hptr' heq
    obtain ⟨p, hp, rfl⟩ := List.mem_map.1 hptr
    have hlt := h.below p hp
    rw [List.map_singleton, List.mem_singleton] at hptr'
    rw [heq, hptr'] at hlt
    exact Nat.lt_irrefl _ hlt
  · intro p hp
    rcases List.mem_append.1 hp with hmem | hmem
    · exact Nat.lt_succ_of_lt (h.below p hmem)
    · rw [List.mem_singleton.1 hmem]
      exact Nat.lt_succ_self _

/-- Without an entry of the id there is nothing to filter. -/
theorem filter_id (h : InStep s ps) {id : String} (hnew : s.callbackSinks[id]? = none) :
    (ps.filter fun p => p.1 ≠ id) = ps := by
  rw [List.filter_eq_self]
  intro p hp
  have hreg := (h.registry p.1 p.2).2 hp
  have hne : p.1 ≠ id := by
    intro heq
    rw [heq, hnew] at hreg
    cases hreg
  simpa using hne

theorem addCallBack (h : InStep s ps) (callback : Nat) (level : Level) (sinkId : String) :
    InStep ((Op.addCallBack callback level sinkId).step s)
      (((Op.addCallBack callback level sinkId).events s).foldl Event.next ps) := by
  rw [addCallBack_run, Op.events]
  cases hlogger : s.logger with
  | none => exact h
  | some logger =>
      rw [List.foldl_cons, List.foldl_nil, Event.next]
      cases hold : s.callbackSinks[sinkId]? with
      | none =>
          rw [h.filter_id hold]
          exact h.attach callback level hlogger hold
      | some old =>
          refine (h.erase hlogger hold).attach callback level rfl ?_
          simp

theorem removeCallBack (h : InStep s ps) (sinkId : String) :
    InStep ((Op.removeCallBack sinkId).step s)
      (((Op.removeCallBack sinkId).events s).foldl Event.next ps) := by
  rw [removeCallBack_run, Op.events, List.foldl_cons, List.foldl_nil, Event.next]
  cases hlogger : s.logger with
  | none =>
      have hps := h.alone hlogger
      subst hps
      exact h
  | some logger =>
      cases hold : s.callbackSinks[sinkId]? with
      | none =>
          rw [h.filter_id hold]
          exact h
      | some old => exact h.erase hlogger hold

/-- No callback on either side. -/
theorem detached {s : LogPrivate W} (hdetached : Detached s)
    (hnone : ∀ id : String, s.callbackSinks[id]? = none) : InStep s [] := by
  refine ⟨?_, fun _ => rfl, ?_, List.nodup_nil, fun p hp => absurd hp List.not_mem_nil⟩
  · intro logger hlogger
    rcases hdetached with hnull | ⟨logger', hlogger', hconfigured⟩
    · exact absurd (hnull.symm.trans hlogger) (Option.some_ne_none _).symm
    · have heq : logger' = logger := Option.some.inj (hlogger'.symm.trans hlogger)
      rw [List.map_nil, List.eq_nil_iff_forall_not_mem]
      intro c hc
      rw [← heq, mem_callbacksOf] at hc
      exact hconfigured _ hc c rfl
  · intro id c
    simp [hnone id]

theorem setConfigPath (h : InStep s ps) {call : Call W} (hok : (Op.setConfigPath call).Ok s) :
    InStep ((Op.setConfigPath call).step s) ps := by
  obtain ⟨hkeeps, hdetached⟩ := call.run_detaches s
  have hps : ps = [] := by
    rw [List.eq_nil_iff_forall_not_mem]
    intro p hp
    have hreg := (h.registry p.1 p.2).2 hp
    rw [hok p.1] at hreg
    cases hreg
  rw [hps]
  refine detached hdetached ?_
  intro id
  exact (congrArg (fun m => m[id]?) hkeeps.callbackSinks).trans (hok id)

theorem log_step (h : InStep s ps) {foreign : CallbackSink → Bool} {level : Level}
    {src : SourceLine} {msgList : List Any} (hok : (Op.log foreign level src msgList).Ok s) :
    (Op.log foreign level src msgList).step s =
      s.invokedWith (((Op.log foreign level src msgList).messages s).flatMap
        (deliver wants (ps.map Prod.snd))) := by
  show final (logImpl foreign src msgList (s.showLine level) level s) = _
  cases hlogger : s.logger with
  | none =>
      rw [logImpl_idle foreign src msgList (s.showLine level) level s hlogger, Op.messages, hlogger]
      exact (invokedWith_nil s).symm
  | some logger =>
      obtain ⟨hsync, hforeign⟩ := hok logger hlogger
      rw [logImpl_sends src msgList (s.showLine level) level s logger hlogger hsync hforeign,
        deliveries, h.sinks logger hlogger, Op.messages, hlogger]
      rfl

theorem invokedWith (h : InStep s ps) (ds : List (CallbackSink × Message)) :
    InStep (s.invokedWith ds) ps :=
  ⟨h.sinks, h.alone, h.registry, h.ptrs, h.below⟩

/-- One call keeps registry and logger in step. -/
theorem step (h : InStep s ps) {op : Op W} (hok : op.Ok s) :
    InStep (op.step s) ((op.events s).foldl Event.next ps) := by
  cases op with
  | addCallBack callback level sinkId => exact h.addCallBack callback level sinkId
  | removeCallBack sinkId => exact h.removeCallBack sinkId
  | setConfigPath call => exact h.setConfigPath hok
  | log foreign level src msgList =>
      rw [h.log_step hok, Op.events, foldl_publish]
      exact h.invokedWith _

/-- A callback that is registered is among the logger's sinks once. -/
theorem attached (h : InStep s ps) {id : String} {c : CallbackSink}
    (hreg : s.callbackSinks[id]? = some c) :
    ∃ logger, s.logger = some logger ∧ logger.sinks.count (.callback c) = 1 := by
  have hmem := (h.registry id c).1 hreg
  cases hlogger : s.logger with
  | none =>
      rw [h.alone hlogger] at hmem
      cases hmem
  | some logger =>
      refine ⟨logger, rfl, ?_⟩
      rw [count_callback, h.sinks logger hlogger]
      exact List.count_eq_one_of_mem h.nodup (List.mem_map_of_mem hmem)

end InStep

/-! ## Runs -/

/-- The state after the calls. -/
def runOps (s : LogPrivate W) (ops : List (Op W)) : LogPrivate W := ops.foldl Op.step s

/-- What the calls are to the subscribers. -/
def history (s : LogPrivate W) : List (Op W) → List (Event String CallbackSink Message)
  | [] => []
  | op :: ops => op.events s ++ history (op.step s) ops

/-- Every call of the run is made in a state that it is fit for. -/
def OpsOk (s : LogPrivate W) : List (Op W) → Prop
  | [] => True
  | op :: ops => op.Ok s ∧ OpsOk (op.step s) ops

theorem opsOk_append {s : LogPrivate W} {ops ops' : List (Op W)} :
    OpsOk s (ops ++ ops') ↔ OpsOk s ops ∧ OpsOk (runOps s ops) ops' := by
  induction ops generalizing s with
  | nil => simp [OpsOk, runOps]
  | cons op ops ih =>
      rw [List.cons_append, OpsOk, OpsOk, ih, and_assoc]
      rfl

theorem InStep.run {s : LogPrivate W} {ps : List (String × CallbackSink)} (h : InStep s ps)
    {ops : List (Op W)} (hok : OpsOk s ops) :
    InStep (runOps s ops) ((history s ops).foldl Event.next ps) := by
  induction ops generalizing s ps with
  | nil => exact h
  | cons op ops ih =>
      rw [history, List.foldl_append]
      exact ih (h.step hok.1) hok.2

/-- The singleton after its constructor. -/
def constructed (load : LoadEnv W) (fallback : DefaultEnv W)
    (files : W.File → Option (List UInt8)) : LogPrivate W :=
  final (constructLogPrivate load fallback { files := files })

theorem constructed_inStep (load : LoadEnv W) (fallback : DefaultEnv W)
    (files : W.File → Option (List UInt8)) : InStep (constructed load fallback files) [] := by
  obtain ⟨s', hkeeps, -, hdetached, hfinal, -⟩ := loadOrDefault_spec load fallback
    "./log_config.yaml" { files := files }
  have hstate : constructed load fallback files = s' := hfinal
  rw [hstate]
  refine InStep.detached hdetached ?_
  intro id
  rw [hkeeps.callbackSinks]
  exact Std.ExtTreeMap.getElem?_empty

/-- The registry holds who was added and not removed since, and each of them
is among the logger's sinks once. -/
def Tracks (s : LogPrivate W) (past : List (Event String CallbackSink Message)) : Prop :=
  (∀ (id : String) c, s.callbackSinks[id]? = some c ↔ Since past id c) ∧
    ∀ (id : String) c, s.callbackSinks[id]? = some c →
      ∃ logger, s.logger = some logger ∧ logger.sinks.count (.callback c) = 1

/-- Each message of the call goes once to each of those who want it, and to
nobody else. -/
def Delivers (s : LogPrivate W) (op : Op W) (past : List (Event String CallbackSink Message)) :
    Prop :=
  ∃ new, (op.step s).invoked = s.invoked ++ new ∧
    ∀ c, ((∃ id, Since past id c) → heard c new = (op.messages s).filter (wants c)) ∧
      ((¬ ∃ id, Since past id c) → heard c new = [])

theorem InStep.delivers {s : LogPrivate W} {past : List (Event String CallbackSink Message)}
    (h : InStep s (subscribers past)) {op : Op W} (hok : op.Ok s) : Delivers s op past := by
  have hsince : ∀ c, (∃ id, Since past id c) ↔ c ∈ (subscribers past).map Prod.snd := by
    intro c
    simp [← mem_subscribers]
  have hinvoked : (op.step s).invoked =
      s.invoked ++ (op.messages s).flatMap (deliver wants ((subscribers past).map Prod.snd)) := by
    cases op with
    | addCallBack callback level sinkId =>
        show _ = s.invoked ++ []
        rw [addCallBack_run, List.append_nil]
        cases s.logger with
        | none => rfl
        | some logger => cases s.callbackSinks[sinkId]? <;> rfl
    | removeCallBack sinkId =>
        show _ = s.invoked ++ []
        rw [removeCallBack_run, List.append_nil]
        cases s.logger with
        | none => rfl
        | some logger => cases s.callbackSinks[sinkId]? <;> rfl
    | setConfigPath call =>
        show _ = s.invoked ++ []
        rw [List.append_nil]
        exact (call.run_detaches s).1.invoked
    | log foreign level src msgList =>
        rw [h.log_step hok]
        rfl
  refine ⟨_, hinvoked, fun c => ⟨?_, ?_⟩⟩
  · intro hsub
    exact heard_deliverAll wants h.nodup ((hsince c).1 hsub) (op.messages s)
  · intro hnot
    exact heard_deliverAll_of_notMem wants (fun hmem => hnot ((hsince c).2 hmem)) (op.messages s)

/-- Registry and logger stay in step, as long as no configuration is loaded
under a registered callback and no callback throws anything but a
`std::exception`. -/
theorem callbacks_in_step (load : LoadEnv W) (fallback : DefaultEnv W)
    (files : W.File → Option (List UInt8)) (ops : List (Op W))
    (hok : OpsOk (constructed load fallback files) ops) :
    ∀ pre post, ops = pre ++ post →
      Tracks (runOps (constructed load fallback files) pre)
          (history (constructed load fallback files) pre) ∧
        ∀ op ops', post = op :: ops' →
          Delivers (runOps (constructed load fallback files) pre) op
            (history (constructed load fallback files) pre) := by
  intro pre post hsplit
  rw [hsplit, opsOk_append] at hok
  have hstep := (constructed_inStep load fallback files).run hok.1
  refine ⟨⟨?_, fun id c hreg => hstep.attached hreg⟩, ?_⟩
  · intro id c
    rw [hstep.registry]
    exact mem_subscribers
  · intro op ops' hpost
    rw [hpost] at hok
    exact InStep.delivers hstep hok.2.1

/-! ## A configuration loaded under a callback -/

/-- A document without sinks. -/
def plainText : List UInt8 :=
  "log_config: {logger: {name: a}, sinks: []}".toList.map fun c => c.val.toUInt8

def plainDoc : Node :=
  .map [(.scalar "log_config", .map [
    (.scalar "logger", .map [(.scalar "name", .scalar "a")]),
    (.scalar "sinks", .sequence [])])]

/-- A file system of plain names, and a parser that knows that text. -/
def plainWorld : World where
  File := String
  resolve := id
  parse := fun bytes => if bytes = plainText then some plainDoc else none
  emit := fun _ => []

def plainFiles : plainWorld.File → Option (List UInt8) :=
  fun (f : String) => if f = "./log_config.yaml" then some plainText else none

def plainLoad : LoadEnv plainWorld where
  construct := fun _ _ => ⟨true, [], by simp⟩

def plainFallback : DefaultEnv plainWorld where
  save := .written 0
  reload := plainLoad

def plainSource : SourceLine := ⟨"main.cpp", 1, "main"⟩

def plainLog : Op plainWorld :=
  .log (fun _ => false) .info plainSource [.value "std::string" (some "x")]

/-- The configuration that is in force, loaded again. -/
def plainReload : Op plainWorld :=
  .setConfigPath {
    files := plainFiles
    env := { load := plainLoad, fallback := plainFallback }
    configFilePath := "./log_config.yaml"
    isDeleteOldConfig := false }

def plainStart : LogPrivate plainWorld := constructed plainLoad plainFallback plainFiles

def plainAdd : Op plainWorld := .addCallBack 0 .trace "k"

def plainLogger (sinks : List Sink) : Logger where
  name := "a"
  sinks := sinks
  level := .trace
  flushLevel := .trace
  pattern := defaultPattern

/-- A run that removes its callback before it loads the configuration again. -/
theorem plainRun_ok :
    OpsOk plainStart [plainAdd, plainLog, .removeCallBack "k", plainReload, plainLog] := by
  have hlog : ∀ s : LogPrivate plainWorld, (∃ sinks, s.logger = some (plainLogger sinks)) →
      plainLog.Ok s := by
    intro s ⟨sinks, hs⟩ logger hlogger
    have heq := Option.some.inj (hs.symm.trans hlogger)
    rw [← heq]
    exact ⟨rfl, fun _ _ => rfl⟩
  refine ⟨trivial, hlog _ ⟨_, rfl⟩, trivial, ?_, hlog _ ⟨_, rfl⟩, trivial⟩
  intro id
  show ((∅ : Std.ExtTreeMap String CallbackSink).insert "k" ⟨0, 0, .trace⟩ |>.erase "k")[id]? = none
  rw [Std.ExtTreeMap.getElem?_erase, Std.ExtTreeMap.getElem?_insert]
  split
  · rfl
  · exact Std.ExtTreeMap.getElem?_empty

theorem callbacks_in_step_removed :
    OpsOk plainStart [plainAdd, plainLog, .removeCallBack "k", plainReload, plainLog] ∧
      Delivers (runOps plainStart [plainAdd]) plainLog (history plainStart [plainAdd]) :=
  ⟨plainRun_ok, (callbacks_in_step plainLoad plainFallback plainFiles _ plainRun_ok [plainAdd]
    _ rfl).2 _ _ rfl⟩

/-- Once the same configuration is loaded again, the callback is still
registered and no longer among the logger's sinks, and a message that passes
the logger's level and its own does not reach it. -/
theorem reload_detaches :
    (runOps plainStart [plainAdd, plainReload]).callbackSinks["k"]? = some ⟨0, 0, .trace⟩ ∧
      Since (history plainStart [plainAdd, plainReload]) "k" ⟨0, 0, .trace⟩ ∧
      (∃ logger, (runOps plainStart [plainAdd, plainReload]).logger = some logger ∧
        logger.async = false ∧ logger.sinks.count (.callback ⟨0, 0, .trace⟩) = 0) ∧
      plainLog.messages (runOps plainStart [plainAdd, plainReload]) = [⟨.info, "x"⟩] ∧
      wants ⟨0, 0, .trace⟩ ⟨.info, "x"⟩ = true ∧
      (runOps plainStart [plainAdd, plainReload, plainLog]).invoked = [] :=
  ⟨rfl, ⟨[], [], rfl, by simp⟩, ⟨_, rfl, rfl, rfl⟩, rfl, rfl, rfl⟩

end UempPlugin.Ref.Log
