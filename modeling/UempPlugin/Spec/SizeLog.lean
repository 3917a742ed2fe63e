import UempPlugin.Lib.Shelf

/-!
# What a log rotated by size is

The purpose of one date group of the daily sink without its files: a shelf
whose current text is rotated before a message would take it over a limit. The
size is that of the text itself; that the sink's counter always equals it is
part of the connection, not of the purpose.

Nothing rotates after a write, so the current text always ends with the last
message. `turn` is what a new day or a new sink does to a group it returns to:
the text stays, and the first write may rotate again.
-/

namespace UempPlugin.Spec

open UempPlugin.Lib

structure SizeCfg where
  maxSize : Nat
  maxFiles : Nat
  rotateOnOpen : Bool

structure SizeLog extends Shelf where
  opened : Bool
  begun : Bool

namespace SizeLog

/-- The size of slot 0. -/
def size (t : SizeLog) : Nat := (Chain.slotBytes (t.chain 0)).length

/-- Close the log and rotate its shelf. -/
def rotate (c : SizeCfg) (t : SizeLog) : SizeLog :=
  if c.maxFiles = 0 then t
  else { t with toShelf := t.toShelf.rotate c.maxFiles, opened := false }

def openLog (t : SizeLog) : SizeLog :=
  if t.opened then t else { t with toShelf := t.toShelf.create, opened := true }

/-- The rotation before the first message of a log that asks for it. -/
def begin (c : SizeCfg) (t : SizeLog) : SizeLog :=
  if t.begun then t
  else if c.rotateOnOpen ∧ c.maxFiles > 0 ∧ (t.chain 0).isSome then
    { rotate c t with begun := true }
  else { t with begun := true }

/-- Rotate if the message does not fit. -/
def makeRoom (c : SizeCfg) (b : Bytes) (t : SizeLog) : SizeLog :=
  if c.maxFiles > 0 ∧ t.size + b.length > c.maxSize then openLog (rotate c t) else t

def append (b : Bytes) (t : SizeLog) : SizeLog := { t with toShelf := t.toShelf.append b }

/-- Log one message. -/
def log (c : SizeCfg) (b : Bytes) (t : SizeLog) : SizeLog :=
  append b (makeRoom c b (openLog (begin c t)))

/-- Leave the log and come back to it. -/
def turn (t : SizeLog) : SizeLog := { t with opened := false, begun := false }

/-- What happens to a log. -/
inductive Op where
  | log (b : Bytes)
  | turn

def step (c : SizeCfg) (t : SizeLog) : Op → SizeLog
  | .log b => log c b t
  | .turn => turn t

def run (c : SizeCfg) (t : SizeLog) (ops : List Op) : SizeLog := ops.foldl (step c) t

def messages : List Op → List Bytes
  | [] => []
  | .log b :: ops => b :: messages ops
  | .turn :: ops => messages ops

theorem messages_append (ops ops' : List Op) :
    messages (ops ++ ops') = messages ops ++ messages ops' := by
  induction ops with
  | nil => rfl
  | cons op ops ih => cases op <;> simp [messages, ih]

theorem messages_cons (op : Op) (ops : List Op) :
    messages (op :: ops) = messages [op] ++ messages ops :=
  messages_append [op] ops

theorem run_append (c : SizeCfg) (t : SizeLog) (ops ops' : List Op) :
    run c t (ops ++ ops') = run c (run c t ops) ops' := List.foldl_append

/-! ## The current text -/

theorem openLog_of_opened {t : SizeLog} (h : t.opened = true) : openLog t = t := if_pos h

theorem openLog_of_closed {t : SizeLog} (h : t.opened = false) :
    openLog t = { t with toShelf := t.toShelf.create, opened := true } := by
  rw [openLog, if_neg (by rw [h]; decide)]

theorem openLog_opened (t : SizeLog) : (openLog t).opened = true := by
  cases h : t.opened with
  | true => rw [openLog_of_opened h, h]
  | false => rw [openLog_of_closed h]

theorem makeRoom_opened {c : SizeCfg} {t : SizeLog} (h : t.opened = true) (b : Bytes) :
    (makeRoom c b t).opened = true := by
  rw [makeRoom]
  split
  · exact openLog_opened _
  · exact h

end SizeLog

end UempPlugin.Spec
