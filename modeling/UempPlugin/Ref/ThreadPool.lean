import UempPlugin.Lib.Actions
import UempPlugin.Ref.CircularQ
import UempPlugin.Ref.Logger

/-!
# The asynchronous logger

With `async` configured, `logger->log` only puts the message into the queue of
a thread pool, and the pool's threads hand it to the sinks. Here the pool is a
state and what any of the threads does next an action: a program thread begins
a call or finds room for its message, a worker takes a message or makes its
next call on a sink, the main thread gives the pool up in `shutdown`, the
pool's destructor tells the workers to stop. Each action is one critical
section, so a run of the program is a sequence of them in any order; an action
that would have to wait is not enabled.

A pool lives as long as the registry or a call in progress refers to it, and
its destructor runs when the last reference goes. The sinks of the logger stay
the same meanwhile, and a sink throws nothing but a `std::exception`, which the
logger swallows. `LogPrivate` never flushes explicitly, and its loggers block
when the queue is full, which is the default policy.
-/

namespace UempPlugin.Ref

namespace Log

/-- `async_msg`. -/
inductive AsyncMsg where
  | log (msg : Message)
  | flush
  | terminate
deriving DecidableEq

instance : Inhabited AsyncMsg := ⟨.log ⟨.off, ""⟩⟩

/-- A call on the sink at an index of `sinks_`. -/
inductive SinkCall where
  | log (sink : Nat) (msg : Message)
  | flush (sink : Nat)
deriving DecidableEq

def Sink.level : Sink → Level
  | .configured _ level => level
  | .callback sink => sink.level

/-! ## What a message does to the sinks -/

/-- The loop of `backend_sink_it_`, from the sink at index `i` on. -/
def logCalls (msg : Message) : Nat → List Sink → List SinkCall
  | _, [] => []
  | i, sink :: sinks =>
      if sink.level.shouldLog msg.level then .log i msg :: logCalls msg (i + 1) sinks
      else logCalls msg (i + 1) sinks

/-- `backend_flush_`. -/
def flushCalls : Nat → List Sink → List SinkCall
  | _, [] => []
  | i, _ :: sinks => .flush i :: flushCalls (i + 1) sinks

/-- `should_flush_`. -/
def Logger.shouldFlush (logger : Logger) (msg : Message) : Bool :=
  logger.flushLevel.toNat ≤ msg.level.toNat && msg.level ≠ .off

/-- `backend_sink_it_`, and `sink_it_` of a synchronous logger. -/
def Logger.backendSinkIt (logger : Logger) (msg : Message) : List SinkCall :=
  logCalls msg 0 logger.sinks ++ if logger.shouldFlush msg then flushCalls 0 logger.sinks else []

/-- The calls `process_next_msg_` makes. -/
def Logger.process (logger : Logger) : AsyncMsg → List SinkCall
  | .log msg => logger.backendSinkIt msg
  | .flush => flushCalls 0 logger.sinks
  | .terminate => []

/-! ## The pool -/

/-- A pool thread: the calls it has still to make for the message it took, or
it left `worker_loop_`. -/
inductive Worker where
  | running (rest : List SinkCall)
  | stopped
deriving DecidableEq

/-- What a worker does with the message it took. -/
def Worker.take (logger : Logger) : AsyncMsg → Worker
  | .terminate => .stopped
  | msg => .running (logger.process msg)

/-- A thread of the program: the messages it will log, and the one its
`post_log` is waiting to enqueue. -/
structure Client where
  todo : List Message
  posting : Option Message := none
deriving DecidableEq

/-- `registered` is the registry's reference and `terminates` the destructor's
loop counter. What was enqueued, what came when the pool was gone, and the
calls made on the sinks are recorded, each in order. -/
structure Pool where
  q : CircularQ AsyncMsg
  workers : List Worker
  clients : List Client
  registered : Bool := true
  terminates : Nat := 0
  posted : List (Nat × Message) := []
  refused : List (Nat × Message) := []
  calls : List SinkCall := []

namespace Pool

/-- `init_thread_pool` and the threads that will log. -/
def start (qSize threadCount : Nat) (programs : List (List Message)) : Pool where
  q := .construct qSize
  workers := List.replicate threadCount (.running [])
  clients := programs.map fun program => { todo := program }

/-- `thread_pool_.lock()`. -/
def alive (p : Pool) : Bool := p.registered || p.clients.any fun client => client.posting.isSome

inductive Action where
  | begin (client : Nat)
  | post (client : Nat)
  | dequeue (worker : Nat)
  | call (worker : Nat)
  | shutdown
  | terminate

def setClient (p : Pool) (i : Nat) (client : Client) : Pool :=
  { p with clients := p.clients.set i client }

def setWorker (p : Pool) (i : Nat) (worker : Worker) : Pool :=
  { p with workers := p.workers.set i worker }

/-- `logger->log` up to `post_log`: a message below the logger's level goes no
further, and one for a pool that is gone is reported to the error handler. -/
def beginCall (logger : Logger) (p : Pool) (i : Nat) (msg : Message) (todo : List Message) :
    Pool :=
  if !logger.level.shouldLog msg.level then p.setClient i { todo := todo }
  else if p.alive then p.setClient i { todo := todo, posting := some msg }
  else { p.setClient i { todo := todo } with refused := p.refused ++ [(i, msg)] }

/-- One action; `none` when it has to wait or there is nothing to do. -/
def step (logger : Logger) (p : Pool) : Action → Option Pool
  | .begin i =>
      match p.clients[i]? with
      | some ⟨msg :: todo, none⟩ => some (beginCall logger p i msg todo)
      | _ => none
  | .post i =>
      match p.clients[i]? with
      | some ⟨todo, some msg⟩ =>
          match p.q.enqueue (.log msg) with
          | some q =>
              some { p.setClient i { todo := todo } with q := q, posted := p.posted ++ [(i, msg)] }
          | none => none
      | _ => none
  | .dequeue i =>
      match p.workers[i]? with
      | some (.running []) =>
          match p.q.dequeue with
          | some (msg, q) => some { p.setWorker i (Worker.take logger msg) with q := q }
          | none => none
      | _ => none
  | .call i =>
      match p.workers[i]? with
      | some (.running (call :: rest)) =>
          some { p.setWorker i (.running rest) with calls := p.calls ++ [call] }
      | _ => none
  | .shutdown => if p.registered then some { p with registered := false } else none
  | .terminate =>
      if !p.alive && p.terminates < p.workers.length then
        match p.q.enqueue .terminate with
        | some q => some { p with q := q, terminates := p.terminates + 1 }
        | none => none
      else none

/-- The actions of a run, one after another. -/
def run (logger : Logger) (p : Pool) (actions : List Action) : Option Pool :=
  Lib.perform (step logger) p actions

end Pool

end Log

end UempPlugin.Ref
