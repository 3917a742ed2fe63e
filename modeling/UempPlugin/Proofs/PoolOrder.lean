import UempPlugin.Proofs.CallbackSinks
import UempPlugin.Proofs.PoolShutdown

/-!
# When an asynchronous logger writes like a synchronous one

One worker makes the calls in the order of the posts, so at any time the sinks
have seen a beginning of what a synchronous logger would have done, and in the
end all of it. With a second worker this is lost: it can take the next message
and write it first.
-/

namespace UempPlugin.Ref.Log.Pool

open UempPlugin.Lib
open CircularQ (Queues)

variable {logger : Logger} {n threadCount : Nat} {programs : List (List Message)} {p : Pool}

/-! ## Two workers -/

/-- Some sink takes the message. -/
theorem logCalls_head {sinks : List Sink} {msg : Message}
    (h : ∃ sink ∈ sinks, sink.level.shouldLog msg.level = true) (i : Nat) :
    ∃ j rest, logCalls msg i sinks = .log j msg :: rest := by
  induction sinks generalizing i with
  | nil =>
      obtain ⟨sink, hmem, -⟩ := h
      cases hmem
  | cons sink sinks ih =>
      rw [logCalls]
      split
      · exact ⟨i, _, rfl⟩
      · next hskip =>
          refine ih ?_ (i + 1)
          obtain ⟨sink', hmem, hlevel⟩ := h
          rcases List.mem_cons.1 hmem with rfl | hrest
          · exact absurd hlevel hskip
          · exact ⟨sink', hrest, hlevel⟩

theorem backendSinkIt_head {msg : Message}
    (h : ∃ sink ∈ logger.sinks, sink.level.shouldLog msg.level = true) :
    ∃ j rest, logger.backendSinkIt msg = .log j msg :: rest := by
  obtain ⟨j, rest, hcalls⟩ := logCalls_head h 0
  exact ⟨j, _, by rw [Logger.backendSinkIt, hcalls]; rfl⟩

/-- The second of two workers overtakes the first. -/
theorem overtaking_run (hn : 1 ≤ n) (hfits : n + 1 < 2 ^ 64) {msg msg' : Message}
    (hlevel : logger.level.shouldLog msg.level = true)
    (hlevel' : logger.level.shouldLog msg'.level = true) {call : SinkCall} {rest : List SinkCall}
    (hcalls : logger.backendSinkIt msg' = call :: rest) (k : Nat) :
    ∃ p, run logger (start n (k + 2) [[msg, msg']]) [.begin 0, .post 0, .dequeue 0, .begin 0,
        .post 0, .dequeue 1, .call 1] = some p ∧
      p.calls = [call] ∧ p.posted = [(0, msg), (0, msg')] := by
  have hq := CircularQ.queues_construct (α := AsyncMsg) hfits
  obtain ⟨q₁, hpost₁, hq₁⟩ := hq.enqueue_some hn (.log msg)
  obtain ⟨q₂, htake₁, hq₂⟩ := hq₁.dequeue_some
  obtain ⟨q₃, hpost₂, hq₃⟩ := hq₂.enqueue_some hn (.log msg')
  obtain ⟨q₄, htake₂, hq₄⟩ := hq₃.dequeue_some
  refine ⟨{
    q := q₄
    workers := .running (logger.backendSinkIt msg) :: .running rest ::
      List.replicate k (.running [])
    clients := [{ todo := [] }]
    posted := [(0, msg), (0, msg')]
    calls := [call] }, ?_, rfl, rfl⟩
  simp [run, perform, step, start, beginCall, hlevel, hlevel', alive, setClient, setWorker,
    Worker.take, Logger.process, hcalls, hpost₁, htake₁, hpost₂, htake₂, List.replicate_succ]

/-- The calls on the sinks are at any time a beginning of those a synchronous
logger makes for the messages posted, in the same order, if and only if the
pool has one thread. -/
theorem pool_ordered_iff (hn : 1 ≤ n) (hfits : n + 1 < 2 ^ 64) (hthreads : 1 ≤ threadCount)
    {msg msg' : Message} (hne : msg ≠ msg') (hlevel : logger.level.shouldLog msg.level = true)
    (hlevel' : logger.level.shouldLog msg'.level = true)
    (hsink : ∃ sink ∈ logger.sinks, sink.level.shouldLog msg.level = true)
    (hsink' : ∃ sink ∈ logger.sinks, sink.level.shouldLog msg'.level = true) :
    (∀ programs actions p, run logger (start n threadCount programs) actions = some p →
        p.calls <+: p.owed logger) ↔ threadCount = 1 := by
  constructor
  · intro hordered
    by_contra hmore
    obtain ⟨k, rfl⟩ : ∃ k, threadCount = k + 2 := ⟨threadCount - 2, by omega⟩
    obtain ⟨i, rest, hcalls⟩ := backendSinkIt_head hsink
    obtain ⟨j, rest', hcalls'⟩ := backendSinkIt_head hsink'
    obtain ⟨p, hrun, hmade, hposted⟩ := overtaking_run hn hfits hlevel hlevel' hcalls' k
    have hprefix := hordered _ _ p hrun
    rw [owed, hmade, hposted, List.flatMap_cons, hcalls, List.cons_append,
      List.cons_prefix_cons] at hprefix
    injection hprefix.1 with _ heq
    exact hne heq.symm
  · rintro rfl programs actions p hrun
    have h : p.allCalls logger = p.owed logger := (run_inv hfits hrun).order rfl
    rw [allCalls, List.append_assoc] at h
    exact ⟨_, h⟩

theorem pool_ordered_greeting :
    (∀ programs actions p, run greeter (start 8192 2 programs) actions = some p →
      p.calls <+: p.owed greeter) ↔ 2 = 1 := by
  have hne : greeting ≠ ⟨.err, "bye"⟩ := by decide
  exact pool_ordered_iff (by decide) (by decide) (by decide) hne rfl rfl
    ⟨_, List.mem_cons_self, rfl⟩ ⟨_, List.mem_cons_self, rfl⟩

/-! ## The callbacks -/

/-- The invocations among the calls on the sinks. -/
def invocations (sinks : List Sink) (calls : List SinkCall) : List (CallbackSink × Message) :=
  calls.filterMap fun
    | .log i msg =>
        match sinks[i]? with
        | some (.callback c) => some (c, msg)
        | _ => none
    | .flush _ => none

theorem invocations_append (sinks : List Sink) (calls calls' : List SinkCall) :
    invocations sinks (calls ++ calls') = invocations sinks calls ++ invocations sinks calls' := by
  rw [invocations, invocations, invocations, List.filterMap_append]

theorem invocations_flush (sinks rest : List Sink) (i : Nat) :
    invocations sinks (flushCalls i rest) = [] := by
  induction rest generalizing i with
  | nil => rfl
  | cons sink rest ih => exact ih (i + 1)

theorem invocations_log {sinks : List Sink} (msg : Message) {i : Nat} {rest : List Sink}
    (h : sinks.drop i = rest) :
    invocations sinks (logCalls msg i rest) = deliver wants (callbacksOf rest) msg := by
  induction rest generalizing i with
  | nil => rfl
  | cons sink rest ih =>
      have hi : sinks[i]? = some sink := by rw [← List.head?_drop, h, List.head?_cons]
      have hrest := ih (i := i + 1) (by rw [← List.tail_drop, h, List.tail_cons])
      rw [logCalls]
      cases sink with
      | configured config level =>
          rw [show callbacksOf (.configured config level :: rest) = callbacksOf rest from rfl,
            ← hrest]
          split
          · simp [invocations, hi]
          · rfl
      | callback c =>
          rw [show callbacksOf (.callback c :: rest) = c :: callbacksOf rest from rfl, deliver,
            List.filter_cons]
          split
          · next hw =>
              rw [if_pos (show wants c msg = true from hw), List.map_cons, ← deliver, ← hrest]
              simp [invocations, hi]
          · next hw =>
              rw [if_neg (show ¬ wants c msg = true from hw), ← deliver, ← hrest]

theorem invocations_backendSinkIt (logger : Logger) (msg : Message) :
    invocations logger.sinks (logger.backendSinkIt msg) =
      deliver wants (callbacksOf logger.sinks) msg := by
  rw [Logger.backendSinkIt, invocations_append, invocations_log msg List.drop_zero]
  split
  · rw [invocations_flush, List.append_nil]
  · exact List.append_nil _

/-- Only messages that pass the level are posted. -/
theorem Follows.passed (h : Follows logger programs p) :
    ∀ x ∈ p.posted, logger.level.shouldLog x.2.level = true := by
  intro x hx
  have hlt := h.known x (List.mem_append_left _ hx)
  obtain ⟨c, hc⟩ : ∃ c, p.clients[x.1]? = some c :=
    ⟨_, List.getElem?_eq_getElem (by rw [h.threads]; exact hlt)⟩
  have hmem : x.2 ∈ admitted logger programs[x.1] := by
    rw [h.order x.1 _ _ (List.getElem?_eq_getElem hlt) hc, progress, List.append_assoc,
      List.append_assoc]
    refine List.mem_append_left _ (List.mem_map.2 ⟨x, List.mem_filter.2 ⟨hx, ?_⟩, rfl⟩)
    exact decide_eq_true rfl
  exact (List.mem_filter.1 hmem).2

variable {W : World} {foreign : CallbackSink → Bool}

theorem forM_sends (msgs : List Message) :
    Sends (W := W) foreign (msgs.forM (logMessage foreign)) msgs () := by
  induction msgs with
  | nil => exact Sends.pure ()
  | cons msg msgs ih => exact (logMessage_sends msg).bind ih

theorem deliveries_passed {msgs : List Message}
    (h : ∀ msg ∈ msgs, logger.level.shouldLog msg.level = true) :
    deliveries logger msgs = msgs.flatMap (deliver wants (callbacksOf logger.sinks)) := by
  rw [deliveries, Log.passed, List.filter_eq_self.2 h]

/-- With one worker an asynchronous logger that was shut down has done what a
synchronous one does: it made the same calls on its sinks, in the same order,
and its callbacks have been invoked as if the messages posted had been logged
synchronously. -/
theorem async_as_sync (hn : 1 ≤ n) (hfits : n + 1 < 2 ^ 64) {actions : List Action}
    (hrun : run logger (start n 1 programs) actions = some p) (hstuck : Stuck (step logger) p)
    {s : LogPrivate W} (hs : s.logger = some { logger with async := false })
    (hforeign : ∀ c ∈ callbacksOf logger.sinks, foreign c = false) :
    p.calls = (p.posted.map Prod.snd).flatMap logger.backendSinkIt ∧
      (p.posted.map Prod.snd).forM (logMessage foreign) s =
        .ok () (s.invokedWith (invocations logger.sinks p.calls)) := by
  have h := run_inv hfits hrun
  have hdrained := stuck_drained h hstuck hn (Nat.le_refl 1)
  have hcalls : p.calls = p.owed logger := by
    have hprefix : p.calls <+: p.owed logger := by
      have horder := h.order rfl
      rw [allCalls, List.append_assoc] at horder
      exact ⟨_, horder⟩
    exact hprefix.eq_of_length hdrained.calls.length_eq
  refine ⟨by rw [hcalls, owed, List.flatMap_map], ?_⟩
  have hpassed : ∀ msg ∈ p.posted.map Prod.snd, logger.level.shouldLog msg.level = true := by
    intro msg hmsg
    obtain ⟨x, hx, rfl⟩ := List.mem_map.1 hmsg
    exact h.follows.passed x hx
  have hinvoked : invocations logger.sinks (p.owed logger) =
      deliveries logger (p.posted.map Prod.snd) := by
    rw [deliveries_passed hpassed, owed, List.flatMap_map]
    generalize p.posted = posted
    induction posted with
    | nil => rfl
    | cons x posted ih =>
        rw [List.flatMap_cons, List.flatMap_cons, invocations_append, ih,
          invocations_backendSinkIt]
  rw [hcalls, hinvoked]
  exact forM_sends _ s { logger with async := false } hs rfl hforeign

theorem greeted_stuck : Stuck (step greeter) greeted := by
  intro action
  cases action with
  | begin i => cases i <;> rfl
  | post i => cases i <;> rfl
  | dequeue i => cases i <;> rfl
  | call i => cases i <;> rfl
  | shutdown => rfl
  | terminate => rfl

/-- No files, and no text that parses. -/
def bareWorld : World where
  File := String
  resolve := id
  parse := fun _ => none
  emit := fun _ => []

def bareState : LogPrivate bareWorld where
  logger := some { greeter with async := false }
  files := fun _ => none

theorem async_as_sync_greeting :
    [greeting].forM (logMessage fun _ => false) bareState =
      .ok () (bareState.invokedWith [(listener, greeting)]) :=
  (async_as_sync (n := 1) (Nat.le_refl 1) (by decide) greeting_run greeted_stuck
    (s := bareState) rfl (fun _ _ => rfl)).2

end UempPlugin.Ref.Log.Pool
