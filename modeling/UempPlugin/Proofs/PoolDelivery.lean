import UempPlugin.Proofs.BoundedQueue
import UempPlugin.Ref.ThreadPool

/-!
# What the threads of a pool do to its messages

A message is posted by its thread, waits in the queue, is taken by a worker
and then costs one call on a sink after another. `Step` lists what the actions
do, and `Inv` is kept by each of them: the calls made, those a worker has in
hand and those the queue still stands for are together the calls that a
synchronous logger makes for the messages posted. A single worker makes them in
that very order.

The destructor's messages come last in the queue. A pool in which it has begun
is never used again, so a worker that took one leaves nothing behind.
-/

namespace UempPlugin.Ref.Log.Pool

open UempPlugin.Lib
open CircularQ (Queues)

/-- The actions, by what they find and what they do. -/
inductive Step (logger : Logger) (p : Pool) : Pool → Prop
  | skip {i : Nat} {msg : Message} {todo : List Message}
      (hc : p.clients[i]? = some ⟨msg :: todo, none⟩)
      (hlevel : logger.level.shouldLog msg.level = false) :
      Step logger p (p.setClient i { todo := todo })
  | lock {i : Nat} {msg : Message} {todo : List Message}
      (hc : p.clients[i]? = some ⟨msg :: todo, none⟩)
      (hlevel : logger.level.shouldLog msg.level = true) (halive : p.alive = true) :
      Step logger p (p.setClient i { todo := todo, posting := some msg })
  | refuse {i : Nat} {msg : Message} {todo : List Message}
      (hc : p.clients[i]? = some ⟨msg :: todo, none⟩)
      (hlevel : logger.level.shouldLog msg.level = true) (halive : p.alive = false) :
      Step logger p { p.setClient i { todo := todo } with refused := p.refused ++ [(i, msg)] }
  | post {i : Nat} {msg : Message} {todo : List Message} {q : CircularQ AsyncMsg}
      (hc : p.clients[i]? = some ⟨todo, some msg⟩) (hq : p.q.enqueue (.log msg) = some q) :
      Step logger p
        { p.setClient i { todo := todo } with q := q, posted := p.posted ++ [(i, msg)] }
  | take {i : Nat} {msg : AsyncMsg} {q : CircularQ AsyncMsg}
      (hw : p.workers[i]? = some (.running [])) (hq : p.q.dequeue = some (msg, q)) :
      Step logger p { p.setWorker i (Worker.take logger msg) with q := q }
  | call {i : Nat} {call : SinkCall} {rest : List SinkCall}
      (hw : p.workers[i]? = some (.running (call :: rest))) :
      Step logger p { p.setWorker i (.running rest) with calls := p.calls ++ [call] }
  | shutdown (hreg : p.registered = true) : Step logger p { p with registered := false }
  | terminate {q : CircularQ AsyncMsg} (halive : p.alive = false)
      (hlt : p.terminates < p.workers.length) (hq : p.q.enqueue .terminate = some q) :
      Step logger p { p with q := q, terminates := p.terminates + 1 }

theorem step_cases {logger : Logger} {p p' : Pool} {action : Action}
    (h : step logger p action = some p') : Step logger p p' := by
  cases action with
  | begin i =>
      rw [step] at h
      split at h
      · next msg todo hc =>
          rw [beginCall] at h
          injection h with h
          subst h
          split
          · next hlevel => exact .skip hc (by simpa using hlevel)
          · next hlevel =>
              split
              · next halive => exact .lock hc (by simpa using hlevel) halive
              · next halive => exact .refuse hc (by simpa using hlevel) (by simpa using halive)
      · cases h
  | post i =>
      rw [step] at h
      split at h
      · next todo msg hc =>
          split at h
          · next q hq =>
              injection h with h
              subst h
              exact .post hc hq
          · cases h
      · cases h
  | dequeue i =>
      rw [step] at h
      split at h
      · next hw =>
          split at h
          · next msg q hq =>
              injection h with h
              subst h
              exact .take hw hq
          · cases h
      · cases h
  | call i =>
      rw [step] at h
      split at h
      · next call rest hw =>
          injection h with h
          subst h
          exact .call hw
      · cases h
  | shutdown =>
      rw [step] at h
      split at h
      · next hreg =>
          injection h with h
          subst h
          exact .shutdown hreg
      · cases h
  | terminate =>
      rw [step] at h
      split at h
      · next hcond =>
          rw [Bool.and_eq_true, Bool.not_eq_true', decide_eq_true_iff] at hcond
          split at h
          · next q hq =>
              injection h with h
              subst h
              exact .terminate hcond.1 hcond.2 hq
          · cases h
      · cases h

/-! ## Where the messages are -/

def Worker.rest : Worker → List SinkCall
  | .running rest => rest
  | .stopped => []

/-- The calls the workers have in hand. -/
def inHand (p : Pool) : List SinkCall := p.workers.flatMap Worker.rest

/-- The calls the queue stands for. -/
def queued (logger : Logger) (p : Pool) : List SinkCall := p.q.items.flatMap logger.process

/-- The calls a synchronous logger makes for the messages posted. -/
def owed (logger : Logger) (p : Pool) : List SinkCall :=
  p.posted.flatMap fun x => logger.backendSinkIt x.2

/-- The messages of one thread. -/
def ofClient (i : Nat) (xs : List (Nat × Message)) : List Message :=
  (xs.filter fun x => x.1 = i).map Prod.snd

/-- The messages of one thread that pass the logger's level. -/
def admitted (logger : Logger) (msgs : List Message) : List Message :=
  msgs.filter fun msg => logger.level.shouldLog msg.level

variable {logger : Logger} {n : Nat} {programs : List (List Message)} {p p' : Pool}

/-! ## A pool that is gone -/

theorem alive_eq_false_iff :
    p.alive = false ↔ p.registered = false ∧ ∀ c ∈ p.clients, c.posting = none := by
  rw [alive, Bool.or_eq_false_iff, List.any_eq_false]
  simp only [Option.isSome_iff_ne_none, ne_eq, not_not]

theorem alive_of_posting {i : Nat} {todo : List Message} {msg : Message}
    (hc : p.clients[i]? = some ⟨todo, some msg⟩) : p.alive = true := by
  by_contra hdead
  have := (alive_eq_false_iff.1 (by simpa using hdead)).2 _ (List.mem_of_getElem? hc)
  cases this

/-- It stays so. -/
theorem alive_setClient {i : Nat} {todo : List Message} (h : p.alive = false) :
    (p.setClient i { todo := todo }).alive = false := by
  obtain ⟨hreg, hnone⟩ := alive_eq_false_iff.1 h
  refine alive_eq_false_iff.2 ⟨hreg, fun c hc => ?_⟩
  rcases List.mem_or_eq_of_mem_set hc with hold | rfl
  · exact hnone c hold
  · rfl

theorem Step.alive (h : Step logger p p') (hdead : p.alive = false) : p'.alive = false := by
  cases h with
  | skip hc hlevel => exact alive_setClient hdead
  | lock hc hlevel halive => rw [hdead] at halive; cases halive
  | refuse hc hlevel halive => exact alive_setClient hdead
  | post hc hq => exact alive_setClient hdead
  | take hw hq => exact hdead
  | call hw => exact hdead
  | shutdown hreg =>
      rw [alive_eq_false_iff] at hdead
      rw [hdead.1] at hreg
      cases hreg
  | terminate halive hlt hq => exact hdead

/-! ## The queue -/

/-- Posted messages wait in front of the destructor's. Each of the latter that
is no longer there has stopped a worker, and the first one found no posted
message in front of it. -/
structure Shape (p : Pool) (msgs : List Message) (k : Nat) : Prop where
  items : p.q.items = msgs.map .log ++ List.replicate k .terminate
  count : p.terminates = p.workers.count .stopped + k
  drained : .stopped ∈ p.workers → msgs = []

/-- What every action keeps of the pool itself. -/
structure Sound (n : Nat) (p : Pool) : Prop where
  queue : Queues n p.q p.q.items
  shape : ∃ msgs k, Shape p msgs k
  bound : p.terminates ≤ p.workers.length
  gone : 0 < p.terminates ∨ p.refused ≠ [] → p.alive = false

theorem Sound.posting (h : Sound n p) {i : Nat} {todo : List Message} {msg : Message}
    (hc : p.clients[i]? = some ⟨todo, some msg⟩) : p.terminates = 0 ∧ p.refused = [] := by
  have halive := alive_of_posting hc
  constructor
  · by_contra hpos
    rw [h.gone (.inl (Nat.pos_of_ne_zero hpos))] at halive
    cases halive
  · by_contra hne
    rw [h.gone (.inr hne)] at halive
    cases halive

theorem count_set {workers : List Worker} {i : Nat} {rest : List SinkCall}
    (hw : workers[i]? = some (.running rest)) (w : Worker) :
    (workers.set i w).count .stopped = workers.count .stopped + if w = .stopped then 1 else 0 := by
  obtain ⟨hlt, hx⟩ := List.getElem?_eq_some_iff.1 hw
  rw [List.count_set hlt, hx]
  simp

theorem stopped_mem_set {workers : List Worker} {i : Nat} {rest : List SinkCall}
    (h : .stopped ∈ workers.set i (.running rest)) : .stopped ∈ workers := by
  rcases List.mem_or_eq_of_mem_set h with hold | hnew
  · exact hold
  · cases hnew

section

variable {msgs : List Message} {k : Nat}

theorem Shape.post (h : Shape p msgs k) (hnone : p.terminates = 0) {q : CircularQ AsyncMsg}
    {msg : Message} (hq : q.items = p.q.items ++ [.log msg]) (i : Nat) (c : Client)
    (posted : List (Nat × Message)) :
    Shape { p.setClient i c with q := q, posted := posted } (msgs ++ [msg]) 0 := by
  have hcount := h.count
  have hzero : k = 0 := by omega
  have hstopped : Worker.stopped ∉ p.workers := List.count_eq_zero.1 (by omega)
  refine ⟨?_, by rw [← hzero]; exact hcount, fun hmem => absurd hmem hstopped⟩
  show q.items = _
  rw [hq, h.items, hzero]
  simp

theorem Shape.take (h : Shape p msgs k) {i : Nat} (hw : p.workers[i]? = some (.running []))
    {msg : AsyncMsg} {q : CircularQ AsyncMsg} (hq : p.q.items = msg :: q.items) :
    ∃ msgs k, Shape { p.setWorker i (Worker.take logger msg) with q := q } msgs k := by
  have hcount := h.count
  rw [h.items] at hq
  cases msgs with
  | cons m ms =>
      obtain ⟨rfl, hrest⟩ := List.cons.inj hq
      refine ⟨ms, k, hrest.symm, ?_, fun hmem => ?_⟩
      · show p.terminates = (p.workers.set i _).count .stopped + k
        rw [count_set hw, hcount]
        rfl
      · cases h.drained (stopped_mem_set hmem)
  | nil =>
      cases k with
      | zero => cases hq
      | succ k =>
          obtain ⟨rfl, hrest⟩ := List.cons.inj hq
          refine ⟨[], k, hrest.symm, ?_, fun _ => rfl⟩
          show p.terminates = (p.workers.set i _).count .stopped + k
          rw [count_set hw, hcount, Worker.take, if_pos rfl]
          omega

theorem Shape.call (h : Shape p msgs k) {i : Nat} {rest rest' : List SinkCall}
    (hw : p.workers[i]? = some (.running rest)) (calls : List SinkCall) :
    Shape { p.setWorker i (.running rest') with calls := calls } msgs k := by
  refine ⟨h.items, ?_, fun hmem => h.drained (stopped_mem_set hmem)⟩
  show p.terminates = (p.workers.set i _).count .stopped + k
  rw [count_set hw, h.count]
  rfl

theorem Shape.terminate (h : Shape p msgs k) {q : CircularQ AsyncMsg}
    (hq : q.items = p.q.items ++ [.terminate]) :
    Shape { p with q := q, terminates := p.terminates + 1 } msgs (k + 1) := by
  have hcount := h.count
  refine ⟨?_, ?_, h.drained⟩
  · rw [hq, h.items, List.append_assoc, List.replicate_succ']
  · show p.terminates + 1 = p.workers.count .stopped + (k + 1)
    omega

end

theorem sound_start (hn : n + 1 < 2 ^ 64) (threadCount : Nat) (programs : List (List Message)) :
    Sound n (start n threadCount programs) := by
  have hq := CircularQ.queues_construct (α := AsyncMsg) hn
  refine ⟨by rw [start, hq.items]; exact hq, ⟨[], 0, ?_, ?_, fun _ => rfl⟩, Nat.zero_le _, ?_⟩
  · rw [start, hq.items]
    rfl
  · show 0 = (List.replicate threadCount (Worker.running [])).count .stopped + 0
    rw [List.count_replicate]
    rfl
  · intro h
    rcases h with h | h
    · cases h
    · exact absurd rfl h

theorem Sound.step (h : Sound n p) (hs : Step logger p p') : Sound n p' := by
  have hgone := h.gone
  obtain ⟨msgs, k, hshape⟩ := h.shape
  cases hs with
  | skip hc hlevel =>
      exact ⟨h.queue, ⟨msgs, k, hshape.items, hshape.count, hshape.drained⟩, h.bound,
        fun hpos => alive_setClient (hgone hpos)⟩
  | lock hc hlevel halive =>
      refine ⟨h.queue, ⟨msgs, k, hshape.items, hshape.count, hshape.drained⟩, h.bound,
        fun hpos => ?_⟩
      rw [hgone hpos] at halive
      cases halive
  | refuse hc hlevel halive =>
      exact ⟨h.queue, ⟨msgs, k, hshape.items, hshape.count, hshape.drained⟩, h.bound,
        fun _ => alive_setClient halive⟩
  | post hc hq =>
      have hnext := h.queue.enqueue hq
      refine ⟨by rw [hnext.items]; exact hnext,
        ⟨_, _, hshape.post (h.posting hc).1 hnext.items _ _ _⟩, h.bound, fun hpos => ?_⟩
      exact alive_setClient (hgone hpos)
  | take hw hq =>
      obtain ⟨rest, hitems, hnext⟩ := h.queue.dequeue hq
      rw [← hnext.items] at hitems
      exact ⟨by rw [hnext.items]; exact hnext, hshape.take hw hitems,
        by rw [setWorker, List.length_set]; exact h.bound, hgone⟩
  | call hw =>
      exact ⟨h.queue, ⟨msgs, k, hshape.call hw _⟩,
        by rw [setWorker, List.length_set]; exact h.bound, hgone⟩
  | shutdown hreg =>
      refine ⟨h.queue, ⟨msgs, k, hshape.items, hshape.count, hshape.drained⟩, h.bound,
        fun hpos => ?_⟩
      have := (alive_eq_false_iff.1 (hgone hpos)).1
      rw [this] at hreg
      cases hreg
  | terminate halive hlt hq =>
      have hnext := h.queue.enqueue hq
      exact ⟨by rw [hnext.items]; exact hnext, ⟨msgs, k + 1, hshape.terminate hnext.items⟩, hlt,
        fun _ => halive⟩

/-! ## The calls -/

theorem rest_take (logger : Logger) (msg : AsyncMsg) :
    Worker.rest (Worker.take logger msg) = logger.process msg := by
  cases msg <;> rfl

/-- The calls made, in hand and queued, in this order. -/
def allCalls (logger : Logger) (p : Pool) : List SinkCall :=
  p.calls ++ p.inHand ++ p.queued logger

theorem queued_enqueue (logger : Logger) {q : CircularQ AsyncMsg} {msg : AsyncMsg}
    (hq : q.items = p.q.items ++ [msg]) :
    q.items.flatMap logger.process = p.queued logger ++ logger.process msg := by
  rw [hq, List.flatMap_append, List.flatMap_singleton]
  rfl

theorem owed_post (logger : Logger) (p : Pool) (i : Nat) (msg : Message) :
    (p.posted ++ [(i, msg)]).flatMap (fun x => logger.backendSinkIt x.2) =
      p.owed logger ++ logger.process (.log msg) := by
  rw [List.flatMap_append, List.flatMap_singleton]
  rfl

theorem only_worker {workers : List Worker} (hone : workers.length = 1) {i : Nat} {w : Worker}
    (hw : workers[i]? = some w) : i = 0 ∧ workers = [w] := by
  obtain ⟨w', rfl⟩ := List.length_eq_one_iff.1 hone
  cases i with
  | zero => exact ⟨rfl, by rw [Option.some.inj hw]⟩
  | succ i => cases hw

/-- No call is lost or made twice. -/
theorem Step.balance (h : Sound n p) (hs : Step logger p p')
    (hb : (p.allCalls logger).Perm (p.owed logger)) :
    (p'.allCalls logger).Perm (p'.owed logger) := by
  rw [List.perm_iff_count] at hb ⊢
  intro c
  specialize hb c
  simp only [allCalls, List.count_append] at hb ⊢
  cases hs with
  | skip hc hlevel => exact hb
  | lock hc hlevel halive => exact hb
  | refuse hc hlevel halive => exact hb
  | @post i msg todo q hc hq =>
      have hqueued := queued_enqueue logger (h.queue.enqueue hq).items
      show p.calls.count c + p.inHand.count c + (q.items.flatMap logger.process).count c =
        ((p.posted ++ [(i, msg)]).flatMap _).count c
      rw [hqueued, owed_post, List.count_append, List.count_append]
      omega
  | @take i msg q hw hq =>
      obtain ⟨rest, hitems, hnext⟩ := h.queue.dequeue hq
      obtain ⟨pre, post, hold, hnew⟩ := flatMap_set Worker.rest hw
      have hqueued : p.queued logger = logger.process msg ++ q.items.flatMap logger.process := by
        rw [queued, hitems, hnext.items, List.flatMap_cons]
      rw [inHand, hold, hqueued] at hb
      show p.calls.count c + ((p.workers.set i _).flatMap Worker.rest).count c +
        (q.items.flatMap logger.process).count c = (p.owed logger).count c
      rw [hnew, rest_take]
      simp only [List.count_append, Worker.rest, List.count_nil] at hb ⊢
      omega
  | @call i call rest hw =>
      obtain ⟨pre, post, hold, hnew⟩ := flatMap_set Worker.rest hw
      rw [inHand, hold] at hb
      show (p.calls ++ [call]).count c + ((p.workers.set i _).flatMap Worker.rest).count c +
        (p.queued logger).count c = (p.owed logger).count c
      rw [hnew]
      simp only [List.count_append, Worker.rest, List.count_cons, List.count_nil] at hb ⊢
      omega
  | shutdown hreg => exact hb
  | @terminate q halive hlt hq =>
      have hqueued := queued_enqueue logger (h.queue.enqueue hq).items
      show p.calls.count c + p.inHand.count c + (q.items.flatMap logger.process).count c =
        (p.owed logger).count c
      rw [hqueued, Logger.process, List.append_nil]
      exact hb

/-- A single worker also keeps their order. -/
theorem Step.order (h : Sound n p) (hs : Step logger p p') (hone : p.workers.length = 1)
    (hb : p.allCalls logger = p.owed logger) : p'.allCalls logger = p'.owed logger := by
  rw [allCalls] at hb ⊢
  cases hs with
  | skip hc hlevel => exact hb
  | lock hc hlevel halive => exact hb
  | refuse hc hlevel halive => exact hb
  | @post i msg todo q hc hq =>
      have hqueued := queued_enqueue logger (h.queue.enqueue hq).items
      show p.calls ++ p.inHand ++ q.items.flatMap logger.process =
        (p.posted ++ [(i, msg)]).flatMap _
      rw [hqueued, owed_post, ← hb]
      simp only [List.append_assoc]
  | @take i msg q hw hq =>
      obtain ⟨rest, hitems, hnext⟩ := h.queue.dequeue hq
      obtain ⟨rfl, hworkers⟩ := only_worker hone hw
      have hqueued : p.queued logger = logger.process msg ++ q.items.flatMap logger.process := by
        rw [queued, hitems, hnext.items, List.flatMap_cons]
      rw [inHand, hworkers, hqueued] at hb
      show p.calls ++ (p.workers.set 0 _).flatMap Worker.rest ++
        q.items.flatMap logger.process = p.owed logger
      rw [← hb, hworkers, List.set_cons_zero, List.flatMap_singleton, rest_take,
        List.flatMap_singleton, Worker.rest]
      simp only [List.append_assoc, List.nil_append]
  | @call i call rest hw =>
      obtain ⟨rfl, hworkers⟩ := only_worker hone hw
      rw [inHand, hworkers] at hb
      show p.calls ++ [call] ++ (p.workers.set 0 _).flatMap Worker.rest ++ p.queued logger =
        p.owed logger
      rw [← hb, hworkers, List.set_cons_zero, List.flatMap_singleton, List.flatMap_singleton,
        Worker.rest, Worker.rest]
      simp only [List.append_assoc, List.cons_append, List.nil_append]
  | shutdown hreg => exact hb
  | @terminate q halive hlt hq =>
      have hqueued := queued_enqueue logger (h.queue.enqueue hq).items
      show p.calls ++ p.inHand ++ q.items.flatMap logger.process = p.owed logger
      rw [hqueued, Logger.process, List.append_nil]
      exact hb

/-! ## The threads of the program -/

theorem ofClient_concat (i : Nat) (xs : List (Nat × Message)) (msg : Message) :
    ofClient i (xs ++ [(i, msg)]) = ofClient i xs ++ [msg] := by
  simp [ofClient]

theorem ofClient_concat_ne {i j : Nat} (h : j ≠ i) (xs : List (Nat × Message)) (msg : Message) :
    ofClient j (xs ++ [(i, msg)]) = ofClient j xs := by
  simp [ofClient, Ne.symm h]

/-- What became of a thread's program so far: what it posted, what it waits to
post or what came too late, and what is to come. -/
def progress (logger : Logger) (p : Pool) (i : Nat) (c : Client) : List Message :=
  ofClient i p.posted ++ c.posting.toList ++ ofClient i p.refused ++ admitted logger c.todo

structure Follows (logger : Logger) (programs : List (List Message)) (p : Pool) : Prop where
  threads : p.clients.length = programs.length
  order : ∀ i program c, programs[i]? = some program → p.clients[i]? = some c →
    admitted logger program = progress logger p i c
  known : ∀ x ∈ p.posted ++ p.refused, x.1 < programs.length

theorem follows_start (n threadCount : Nat) (programs : List (List Message)) :
    Follows logger programs (start n threadCount programs) := by
  refine ⟨by rw [start, List.length_map], fun i program c hprogram hc => ?_, fun x hx => ?_⟩
  · rw [start, List.getElem?_map, hprogram] at hc
    cases hc
    rfl
  · cases hx

/-- One thread moves on. -/
theorem Follows.moved (h : Follows logger programs p) {i : Nat} {c c' : Client}
    (hc : p.clients[i]? = some c) (hclients : p'.clients = p.clients.set i c')
    (hown : progress logger p' i c' = progress logger p i c)
    (hothers : ∀ j ≠ i, ∀ c, progress logger p' j c = progress logger p j c)
    (hknown : ∀ x ∈ p'.posted ++ p'.refused, x ∈ p.posted ++ p.refused ∨ x.1 = i) :
    Follows logger programs p' := by
  have hlt : i < p.clients.length := (List.getElem?_eq_some_iff.1 hc).1
  refine ⟨by rw [hclients, List.length_set, h.threads], fun j program d hprogram hd => ?_,
    fun x hx => ?_⟩
  · rw [hclients, List.getElem?_set] at hd
    split at hd
    · next heq =>
        subst heq
        cases hd
        rw [hown]
        exact h.order i program c hprogram hc
    · next hne =>
        rw [hothers j (Ne.symm hne) d]
        exact h.order j program d hprogram hd
  · rcases hknown x hx with hold | hnew
    · exact h.known x hold
    · rw [hnew, ← h.threads]
      exact hlt

theorem Follows.step (h : Follows logger programs p) (hsound : Sound n p)
    (hs : Step logger p p') : Follows logger programs p' := by
  cases hs with
  | @skip i msg todo hc hlevel =>
      refine h.moved hc rfl ?_ (fun _ _ _ => rfl) fun x hx => .inl hx
      simp [progress, setClient, admitted, hlevel]
  | @lock i msg todo hc hlevel halive =>
      have hnone : p.refused = [] := by
        by_contra hne
        rw [hsound.gone (.inr hne)] at halive
        cases halive
      refine h.moved hc rfl ?_ (fun _ _ _ => rfl) fun x hx => .inl hx
      simp [progress, setClient, admitted, hlevel, hnone, ofClient]
  | @refuse i msg todo hc hlevel halive =>
      refine h.moved hc rfl ?_ (fun j hj c => ?_) fun x hx => ?_
      · show ofClient i p.posted ++ [] ++ ofClient i (p.refused ++ [(i, msg)]) ++ _ = _
        rw [ofClient_concat]
        simp [progress, admitted, hlevel]
      · show ofClient j p.posted ++ _ ++ ofClient j (p.refused ++ [(i, msg)]) ++ _ = _
        rw [ofClient_concat_ne hj]
        rfl
      · have hx : x ∈ p.posted ++ (p.refused ++ [(i, msg)]) := hx
        rw [← List.append_assoc] at hx
        rcases List.mem_append.1 hx with hold | hnew
        · exact .inl hold
        · exact .inr (by rw [List.mem_singleton.1 hnew])
  | @post i msg todo q hc hq =>
      have hnone := (hsound.posting hc).2
      refine h.moved hc rfl ?_ (fun j hj c => ?_) fun x hx => ?_
      · show ofClient i (p.posted ++ [(i, msg)]) ++ [] ++ ofClient i p.refused ++ _ = _
        rw [ofClient_concat, hnone]
        simp [progress, hnone, ofClient]
      · show ofClient j (p.posted ++ [(i, msg)]) ++ _ ++ ofClient j p.refused ++ _ = _
        rw [ofClient_concat_ne hj]
        rfl
      · have hx : x ∈ p.posted ++ [(i, msg)] ++ p.refused := hx
        rw [hnone, List.append_nil] at hx
        rcases List.mem_append.1 hx with hold | hnew
        · exact .inl (List.mem_append_left _ hold)
        · exact .inr (by rw [List.mem_singleton.1 hnew])
  | take hw hq => exact ⟨h.threads, h.order, h.known⟩
  | call hw => exact ⟨h.threads, h.order, h.known⟩
  | shutdown hreg => exact ⟨h.threads, h.order, h.known⟩
  | terminate halive hlt hq => exact ⟨h.threads, h.order, h.known⟩

/-! ## Runs -/

/-- What holds of a pool whatever its threads did. -/
structure Inv (logger : Logger) (n threadCount : Nat) (programs : List (List Message))
    (p : Pool) : Prop where
  sound : Sound n p
  workers : p.workers.length = threadCount
  balance : (p.allCalls logger).Perm (p.owed logger)
  order : threadCount = 1 → p.allCalls logger = p.owed logger
  follows : Follows logger programs p

theorem Step.workers (hs : Step logger p p') : p'.workers.length = p.workers.length := by
  cases hs with
  | take hw hq => exact List.length_set
  | call hw => exact List.length_set
  | skip hc hlevel => rfl
  | lock hc hlevel halive => rfl
  | refuse hc hlevel halive => rfl
  | post hc hq => rfl
  | shutdown hreg => rfl
  | terminate halive hlt hq => rfl

variable {threadCount : Nat}

theorem inv_start (hn : n + 1 < 2 ^ 64) :
    Inv logger n threadCount programs (start n threadCount programs) := by
  have hq := CircularQ.queues_construct (α := AsyncMsg) hn
  have hcalls : (start n threadCount programs).allCalls logger = [] := by
    have hhand : (start n threadCount programs).inHand = [] := by
      rw [inHand, start, List.flatMap_eq_nil_iff]
      intro w hw
      rw [List.eq_of_mem_replicate hw]
      rfl
    rw [allCalls, hhand, queued, start, hq.items]
    rfl
  refine ⟨sound_start hn threadCount programs, List.length_replicate, ?_, fun _ => ?_,
    follows_start n threadCount programs⟩
  · rw [hcalls]
    exact .nil
  · rw [hcalls]
    rfl

theorem Inv.step (h : Inv logger n threadCount programs p) (hs : Step logger p p') :
    Inv logger n threadCount programs p' where
  sound := h.sound.step hs
  workers := hs.workers.trans h.workers
  balance := hs.balance h.sound h.balance
  order := fun hone => hs.order h.sound (h.workers.trans hone) (h.order hone)
  follows := h.follows.step h.sound hs

theorem run_inv (hn : n + 1 < 2 ^ 64) {actions : List Action}
    (hrun : run logger (start n threadCount programs) actions = some p) :
    Inv logger n threadCount programs p :=
  Lib.perform_induct (fun _ _ _ h hs => h.step (step_cases hs)) (inv_start hn) hrun

/-- Whatever the threads of the program and of the pool did so far: the calls on
the sinks that were made, that a worker has in hand and that the queue stands
for are, each as often, those a synchronous logger makes for the messages
posted. Every thread posted its messages in its own order; those that pass the
level were posted, unless the pool was gone. The queue never overran. -/
theorem pool_conserves (hn : n + 1 < 2 ^ 64) {actions : List Action}
    (hrun : run logger (start n threadCount programs) actions = some p) :
    (p.calls ++ p.inHand ++ p.queued logger).Perm (p.owed logger) ∧
      (∀ i program c, programs[i]? = some program → p.clients[i]? = some c →
        admitted logger program =
          ofClient i p.posted ++ c.posting.toList ++ ofClient i p.refused ++
            admitted logger c.todo) ∧
      (∀ x ∈ p.posted ++ p.refused, x.1 < programs.length) ∧
      (p.refused ≠ [] → p.alive = false) ∧ p.q.overrunCounter = 0 := by
  have h := run_inv hn hrun
  exact ⟨h.balance, h.follows.order, h.follows.known, fun hne => h.sound.gone (.inr hne),
    h.sound.queue.overrun⟩

/-! A logger with the console and one callback, and a pool of one thread that
is shut down after one message. -/

def greeting : Message := ⟨.info, "hello"⟩

def listener : CallbackSink := ⟨0, 7, .trace⟩

def greeter : Logger where
  name := "default-log"
  sinks := [.configured .stdoutColor .trace, .callback listener]
  level := .trace
  async := true

def greetingRun : List Action :=
  [.begin 0, .post 0, .dequeue 0, .call 0, .call 0, .shutdown, .terminate, .dequeue 0]

def greeted : Pool where
  q := { maxItems := 2, v := [.log greeting, .terminate] }
  workers := [.stopped]
  clients := [{ todo := [] }]
  registered := false
  terminates := 1
  posted := [(0, greeting)]
  calls := [.log 0 greeting, .log 1 greeting]

theorem greeting_run : run greeter (start 1 1 [[greeting]]) greetingRun = some greeted := rfl

theorem pool_conserves_greeting :
    (greeted.calls ++ greeted.inHand ++ greeted.queued greeter).Perm (greeted.owed greeter) ∧
      greeted.q.overrunCounter = 0 := by
  have h := pool_conserves (n := 1) (by decide) greeting_run
  exact ⟨h.1, h.2.2.2.2⟩

end UempPlugin.Ref.Log.Pool
