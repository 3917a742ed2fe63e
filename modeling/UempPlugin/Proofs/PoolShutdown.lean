import UempPlugin.Proofs.PoolDelivery

/-!
# A pool comes to rest

Every action uses up some of the work there is: a message costs something to
begin, to post, to take and for each call on a sink, and so do `shutdown` and
the destructor's messages. So no order of the threads goes on forever, and what
matters is where it gets stuck. With room for a message and a thread to take
it, it only gets stuck when everything posted has been written, no thread of
the program is waiting and every worker has stopped.

Two values of `async_queue_size` make a queue without room: 0 leaves nothing
but the slot that marks a full queue, and -1 becomes the size that wraps to no
slots at all. Then the workers wait forever, and with them whoever takes the
pool down: `shutdown`, or the pool that is to replace it.
-/

namespace UempPlugin.Ref.Log.Pool

open UempPlugin.Lib
open CircularQ (Queues)

variable {logger : Logger} {n threadCount : Nat} {programs : List (List Message)} {p p' : Pool}

/-! ## The work there is -/

/-- A message in the queue: taking it, and the calls it costs. -/
def cost (logger : Logger) (msg : AsyncMsg) : Nat := (logger.process msg).length + 1

/-- Before that it is begun and posted. -/
def Client.work (logger : Logger) (c : Client) : Nat :=
  total (fun msg => cost logger (.log msg) + 2) c.todo +
    total (fun msg => cost logger (.log msg) + 1) c.posting.toList

/-- A worker has its calls left. -/
def Worker.load (w : Worker) : Nat := (Worker.rest w).length

theorem load_take (logger : Logger) (msg : AsyncMsg) :
    Worker.load (Worker.take logger msg) = (logger.process msg).length := by
  rw [Worker.load, rest_take]

theorem load_running (rest : List SinkCall) : Worker.load (.running rest) = rest.length := rfl

def work (logger : Logger) (p : Pool) : Nat :=
  total (Client.work logger) p.clients + total (cost logger) p.q.items +
    total Worker.load p.workers + p.registered.toNat +
    2 * (p.workers.length - p.terminates)

theorem total_enqueue (h : Sound n p) {msg : AsyncMsg} {q : CircularQ AsyncMsg}
    (hq : p.q.enqueue msg = some q) :
    total (cost logger) q.items = total (cost logger) p.q.items + cost logger msg := by
  rw [(h.queue.enqueue hq).items, total_append]
  rfl

theorem Step.work (h : Sound n p) (hs : Step logger p p') : work logger p' < work logger p := by
  simp only [Pool.work]
  cases hs with
  | @skip i msg todo hc hlevel =>
      have hset := total_set (Client.work logger) hc { todo := todo }
      simp only [Client.work, total, Option.toList] at hset
      simp only [setClient]
      omega
  | @lock i msg todo hc hlevel halive =>
      have hset := total_set (Client.work logger) hc { todo := todo, posting := some msg }
      simp only [Client.work, total, Option.toList] at hset
      simp only [setClient]
      omega
  | @refuse i msg todo hc hlevel halive =>
      have hset := total_set (Client.work logger) hc { todo := todo }
      simp only [Client.work, total, Option.toList] at hset
      simp only [setClient]
      omega
  | @post i msg todo q hc hq =>
      have hset := total_set (Client.work logger) hc { todo := todo }
      simp only [Client.work, total, Option.toList] at hset
      simp only [setClient, total_enqueue h hq]
      omega
  | @take i msg q hw hq =>
      obtain ⟨rest, hitems, hnext⟩ := h.queue.dequeue hq
      have hset := total_set Worker.load hw (Worker.take logger msg)
      rw [load_take, load_running, List.length_nil] at hset
      simp only [setWorker, List.length_set, hitems, hnext.items, total, cost]
      omega
  | @call i call rest hw =>
      have hset := total_set Worker.load hw (.running rest)
      rw [load_running, load_running, List.length_cons] at hset
      simp only [setWorker, List.length_set]
      omega
  | shutdown hreg =>
      simp only [hreg, Bool.toNat_true, Bool.toNat_false]
      omega
  | terminate halive hlt hq =>
      simp only [total_enqueue h hq, cost, Logger.process, List.length_nil]
      omega

/-- No order of the threads takes more actions than there is work. -/
theorem run_length (hn : n + 1 < 2 ^ 64) {actions : List Action}
    (hrun : run logger (start n threadCount programs) actions = some p) :
    actions.length ≤ work logger (start n threadCount programs) := by
  have := perform_length (P := Sound n) (fun _ _ _ h hs => h.step (step_cases hs))
    (fun _ _ _ h hs => (step_cases hs).work h) (sound_start hn threadCount programs) hrun
  omega

/-! ## What a stuck pool looks like -/

/-- Everything posted has been written, and no thread is left waiting. -/
structure Drained (logger : Logger) (p : Pool) : Prop where
  workers : ∀ w ∈ p.workers, w = .stopped
  clients : ∀ c ∈ p.clients, c.todo = [] ∧ c.posting = none
  calls : p.calls.Perm (p.owed logger)

section

variable (hstuck : Stuck (step logger) p)

include hstuck

theorem stuck_registered : p.registered = false := by
  have h := hstuck .shutdown
  rw [step] at h
  split at h
  · cases h
  · next hreg => simpa using hreg

/-- A worker that has not stopped waits for the queue. -/
theorem stuck_worker (h : Sound n p) {w : Worker} (hw : w ∈ p.workers) :
    w = .stopped ∨ p.q.items = [] := by
  obtain ⟨i, hi⟩ := List.mem_iff_getElem?.1 hw
  cases w with
  | stopped => exact .inl rfl
  | running rest =>
      right
      cases rest with
      | cons call rest =>
          have hcall := hstuck (.call i)
          rw [step, hi] at hcall
          cases hcall
      | nil =>
          have htake := hstuck (.dequeue i)
          rw [step, hi] at htake
          cases hq : p.q.dequeue with
          | none => exact h.queue.dequeue_none hq
          | some r =>
              rw [hq] at htake
              cases htake

/-- So a full queue is not what a stuck pool waits for. -/
theorem stuck_room (h : Sound n p) (hn : 1 ≤ n) (hfull : p.q.items.length = n) :
    ∀ w ∈ p.workers, w = .stopped := by
  intro w hw
  rcases stuck_worker hstuck h hw with hdone | hempty
  · exact hdone
  · rw [hempty, List.length_nil] at hfull
    omega

/-- A worker that has stopped says that the pool is gone. -/
theorem stuck_clients (h : Sound n p) (hn : 1 ≤ n) (hworkers : 1 ≤ p.workers.length) {c : Client}
    (hc : c ∈ p.clients) : c.todo = [] ∧ c.posting = none := by
  obtain ⟨i, hi⟩ := List.mem_iff_getElem?.1 hc
  obtain ⟨todo, posting⟩ := c
  cases posting with
  | none =>
      cases todo with
      | nil => exact ⟨rfl, rfl⟩
      | cons msg todo =>
          have hbegin := hstuck (.begin i)
          rw [step, hi] at hbegin
          cases hbegin
  | some msg =>
      have hpost := hstuck (.post i)
      rw [step, hi] at hpost
      cases hq : p.q.enqueue (.log msg) with
      | some q =>
          simp only [hq] at hpost
          cases hpost
      | none =>
          have hall := stuck_room hstuck h hn (h.queue.enqueue_none hq)
          have hcount : p.workers.count .stopped = p.workers.length :=
            List.count_eq_length.2 fun w hw => (hall w hw).symm
          obtain ⟨msgs, k, hshape⟩ := h.shape
          have hterminates := hshape.count
          have hzero := (h.posting hi).1
          omega

theorem stuck_workers (h : Sound n p) (hn : 1 ≤ n) (hworkers : 1 ≤ p.workers.length) :
    ∀ w ∈ p.workers, w = .stopped := by
  have hdead : p.alive = false := alive_eq_false_iff.2
    ⟨stuck_registered hstuck, fun c hc => (stuck_clients hstuck h hn hworkers hc).2⟩
  by_cases hlt : p.terminates < p.workers.length
  · -- the destructor waits for room
    have hterminate := hstuck .terminate
    rw [step, hdead] at hterminate
    simp only [Bool.not_false, Bool.true_and, decide_eq_true_eq, if_pos hlt] at hterminate
    cases hq : p.q.enqueue .terminate with
    | some q =>
        rw [hq] at hterminate
        cases hterminate
    | none => exact stuck_room hstuck h hn (h.queue.enqueue_none hq)
  · intro w hw
    rcases stuck_worker hstuck h hw with hdone | hempty
    · exact hdone
    · -- its messages have all been taken
      obtain ⟨msgs, k, hshape⟩ := h.shape
      have hterminates := hshape.count
      have hle := hshape.items
      rw [hempty] at hle
      have hk : k = 0 := by
        have hlen := congrArg List.length hle
        rw [List.length_nil, List.length_append, List.length_replicate] at hlen
        omega
      have hall : p.workers.count .stopped = p.workers.length := by
        have := List.count_le_length (a := Worker.stopped) (l := p.workers)
        omega
      exact (List.count_eq_length.1 hall w hw).symm

end

theorem stuck_drained (h : Inv logger n threadCount programs p)
    (hstuck : Stuck (step logger) p) (hn : 1 ≤ n) (hthreads : 1 ≤ threadCount) :
    Drained logger p := by
  have hworkers : 1 ≤ p.workers.length := by rw [h.workers]; exact hthreads
  have hall := stuck_workers hstuck h.sound hn hworkers
  obtain ⟨w, hw⟩ := List.exists_mem_of_length_pos hworkers
  obtain ⟨msgs, k, hshape⟩ := h.sound.shape
  have hnone : msgs = [] := hshape.drained (hall w hw ▸ hw)
  have hcount : p.workers.count .stopped = p.workers.length :=
    List.count_eq_length.2 fun w hw => (hall w hw).symm
  have hk : k = 0 := by
    have hterminates := hshape.count
    have hbound := h.sound.bound
    omega
  have hqueued : p.queued logger = [] := by
    rw [queued, hshape.items, hnone, hk]
    rfl
  have hhand : p.inHand = [] := by
    rw [inHand, List.flatMap_eq_nil_iff]
    intro w hw
    rw [hall w hw]
    rfl
  have hbalance := h.balance
  rw [allCalls, hqueued, hhand, List.append_nil, List.append_nil] at hbalance
  exact ⟨hall, fun c hc => stuck_clients hstuck h.sound hn hworkers hc, hbalance⟩

/-! ## Queues without room -/

/-- Nothing goes in to come out. -/
structure Dead (q : CircularQ AsyncMsg) : Prop where
  enqueue : ∀ msg q', q.enqueue msg = some q' → q' = q
  dequeue : q.dequeue = none

theorem dead_zero : Dead (.construct 0) where
  enqueue := fun msg q' h => by cases h
  dequeue := rfl

theorem dead_wrapped : Dead (.construct (2 ^ 64 - 1)) where
  enqueue := fun msg q' h => by
    have hslots : (CircularQ.construct (α := AsyncMsg) (2 ^ 64 - 1)).maxItems = 0 := rfl
    rw [CircularQ.enqueue, CircularQ.full, CircularQ.pushBack, hslots, if_neg (by decide),
      if_neg (by decide)] at h
    exact (Option.some.inj h).symm
  dequeue := rfl

/-- The workers of such a pool wait forever. -/
theorem dead_step (h : Dead p.q ∧ ∀ w ∈ p.workers, w = .running []) (hs : Step logger p p') :
    Dead p'.q ∧ ∀ w ∈ p'.workers, w = .running [] := by
  obtain ⟨hdead, hworkers⟩ := h
  cases hs with
  | skip hc hlevel => exact ⟨hdead, hworkers⟩
  | lock hc hlevel halive => exact ⟨hdead, hworkers⟩
  | refuse hc hlevel halive => exact ⟨hdead, hworkers⟩
  | post hc hq =>
      refine ⟨?_, hworkers⟩
      rw [hdead.enqueue _ _ hq]
      exact hdead
  | take hw hq =>
      rw [hdead.dequeue] at hq
      cases hq
  | call hw => cases hworkers _ (List.mem_of_getElem? hw)
  | shutdown hreg => exact ⟨hdead, hworkers⟩
  | terminate halive hlt hq =>
      refine ⟨?_, hworkers⟩
      rw [hdead.enqueue _ _ hq]
      exact hdead

theorem dead_start (hdead : Dead (.construct n)) {actions : List Action}
    (hrun : run logger (start n threadCount programs) actions = some p) :
    ∀ w ∈ p.workers, w = .running [] :=
  (perform_induct (P := fun p => Dead p.q ∧ ∀ w ∈ p.workers, w = .running [])
    (fun _ _ _ h hs => dead_step h (step_cases hs))
    ⟨hdead, fun _ hw => List.eq_of_mem_replicate hw⟩ hrun).2

theorem dead_of_stuck (h : stuck n = true) : Dead (.construct n) := by
  rw [stuck, Bool.or_eq_true, decide_eq_true_eq, decide_eq_true_eq] at h
  rcases h with hzero | hwrapped
  · rw [hzero]
    exact dead_zero
  · rw [hwrapped]
    exact dead_wrapped

/-- So a pool can be taken down, whatever its threads do, exactly when its
queue lets something through. -/
theorem drains_iff (hsize : n < 2 ^ 64) (hthreads : 1 ≤ threadCount) :
    ((∃ bound, ∀ actions p, run logger (start n threadCount programs) actions = some p →
          actions.length ≤ bound) ∧
        ∀ actions p, run logger (start n threadCount programs) actions = some p →
          Stuck (step logger) p → Drained logger p) ↔
      stuck n = false := by
  constructor
  · intro ⟨⟨bound, hbound⟩, hdrained⟩
    obtain ⟨actions, p, hrun, hstuck⟩ := exists_stuck hbound
    rw [Bool.eq_false_iff]
    intro hqueue
    have hwait := dead_start (dead_of_stuck hqueue) hrun
    have hworkers : p.workers.length = threadCount :=
      perform_induct (P := fun p => p.workers.length = threadCount)
        (fun _ _ _ h hs => (step_cases hs).workers.trans h) List.length_replicate hrun
    obtain ⟨w, hw⟩ := List.exists_mem_of_length_pos (by rw [hworkers]; exact hthreads)
    have hstop := (hdrained actions p hrun hstuck).workers w hw
    rw [hwait w hw] at hstop
    cases hstop
  · intro hqueue
    rw [stuck, Bool.or_eq_false_iff, decide_eq_false_iff_not, decide_eq_false_iff_not] at hqueue
    have hfits : n + 1 < 2 ^ 64 := by omega
    exact ⟨⟨_, fun actions p hrun => run_length hfits hrun⟩, fun actions p hrun hstuck =>
      stuck_drained (run_inv hfits hrun) hstuck (by omega) hthreads⟩

/-! ## The queue sizes a configuration can ask for -/

/-- `async_queue_size` as the `size_t` it becomes. -/
theorem stuck_toU64 {size : Int} (hlow : -2 ^ 31 ≤ size) (hhigh : size < 2 ^ 31) :
    stuck (toU64 size) = false ↔ size ≠ 0 ∧ size ≠ -1 := by
  rw [stuck, Bool.or_eq_false_iff, decide_eq_false_iff_not, decide_eq_false_iff_not, toU64]
  omega

/-- Whatever the threads do, they stop after finitely many actions, and then
`shutdown` has returned with everything posted written, if and only if the
configured queue size is neither 0 nor -1. -/
theorem shutdown_drains_iff {size : Int} (hlow : -2 ^ 31 ≤ size) (hhigh : size < 2 ^ 31)
    (hthreads : 1 ≤ threadCount) :
    ((∃ bound, ∀ actions p, run logger (start (toU64 size) threadCount programs) actions = some p →
          actions.length ≤ bound) ∧
        ∀ actions p, run logger (start (toU64 size) threadCount programs) actions = some p →
          Stuck (step logger) p → Drained logger p) ↔
      size ≠ 0 ∧ size ≠ -1 := by
  have hsize : toU64 size < 2 ^ 64 := by
    rw [toU64]
    omega
  exact (drains_iff hsize hthreads).trans (stuck_toU64 hlow hhigh)

theorem shutdown_drains_default :
    (∃ bound, ∀ actions p, run greeter (start (toU64 8192) 1 [[greeting]]) actions = some p →
        actions.length ≤ bound) ∧
      ∀ actions p, run greeter (start (toU64 8192) 1 [[greeting]]) actions = some p →
        Stuck (step greeter) p → Drained greeter p :=
  (shutdown_drains_iff (by decide) (by decide) (Nat.le_refl 1)).2 ⟨by decide, by decide⟩

end UempPlugin.Ref.Log.Pool
