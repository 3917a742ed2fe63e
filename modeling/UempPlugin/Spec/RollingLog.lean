import UempPlugin.Lib.Rolling
import UempPlugin.Spec.SizeLog

/-!
# What a log is that rolls when it is full

The purpose of `rotating_file_sink` without its files: a shelf whose current
text is rolled away before a message would take it over a limit, if there is
any text. The log is always open; a new one over the same texts appends to
what it finds, or rolls it away first.
-/

namespace UempPlugin.Spec

open UempPlugin.Lib

namespace RollingLog

def size (t : Shelf) : Nat := (Chain.slotBytes (t.chain 0)).length

/-- Roll the shelf and start over. -/
def rotate (c : SizeCfg) (t : Shelf) : Shelf :=
  if c.maxFiles = 0 then t.clear else (t.roll c.maxFiles).clear

def makeRoom (c : SizeCfg) (b : Bytes) (t : Shelf) : Shelf :=
  if size t + b.length > c.maxSize ∧ size t > 0 then rotate c t else t

/-- Log one message. -/
def log (c : SizeCfg) (b : Bytes) (t : Shelf) : Shelf := (makeRoom c b t).append b

/-- A new log over the same texts. -/
def restart (c : SizeCfg) (t : Shelf) : Shelf :=
  if c.rotateOnOpen ∧ size t.create > 0 then rotate c t.create else t.create

def step (c : SizeCfg) (t : Shelf) : SizeLog.Op → Shelf
  | .log b => log c b t
  | .turn => restart c t

def run (c : SizeCfg) (t : Shelf) (ops : List SizeLog.Op) : Shelf := ops.foldl (step c) t

/-- A rotation leaves an empty current file. -/
theorem rotate_zero (c : SizeCfg) (t : Shelf) :
    (rotate c t).chain 0 = some { bytes := [] } := by
  rw [rotate]
  split
  · exact Shelf.clear_zero _
  · exact Shelf.clear_zero _

end RollingLog

end UempPlugin.Spec
