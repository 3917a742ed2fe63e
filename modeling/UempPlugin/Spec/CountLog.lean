import UempPlugin.Lib.Lines
import UempPlugin.Lib.Shelf

/-!
# What a log rotated by message count is

The purpose of the count sink without its files: a shelf of numbered texts and
a counter that says when to rotate it. There are no names, no handles and no
calls that could fail.

The counter is deliberately kept apart from the text. It counts messages while
the log stays open and is recomputed, from the newlines of the text, when a
strict log is opened again; how the two notions agree is what the layout and
the bound theorems are about.
-/

namespace UempPlugin.Spec

open UempPlugin.Lib

structure CountCfg where
  maxCount : Nat
  maxFiles : Nat
  rotateOnOpen : Bool
  strict : Bool

/-- The shelf, the counter and the two flags. -/
structure CountLog extends Shelf where
  count : Nat
  opened : Bool
  begun : Bool

namespace CountLog

/-- Lines in slot 0. -/
def held (t : CountLog) : Nat := lineCount (Chain.slotBytes (t.chain 0))

/-- Close the log and rotate its shelf. -/
def rotate (c : CountCfg) (t : CountLog) : CountLog :=
  { t with toShelf := t.toShelf.rotate c.maxFiles, opened := false, count := 0 }

/-- The strict scan of slot 0. -/
def scan (c : CountCfg) (t : CountLog) : CountLog :=
  if !c.strict ∨ c.maxCount = 0 then { t with count := 0 }
  else if c.maxCount ≤ t.held then { rotate c t with count := 0 }
  else { t with count := t.held }

/-- Open the log for writing. -/
def openLog (c : CountCfg) (t : CountLog) : CountLog :=
  if t.opened then t
  else { scan c t with toShelf := (scan c t).toShelf.create, opened := true }

/-- The rotation before the first message of a log that asks for it. -/
def begin (c : CountCfg) (t : CountLog) : CountLog :=
  if t.begun then t
  else if c.rotateOnOpen ∧ c.maxFiles > 0 ∧ (t.chain 0).isSome then
    { rotate c t with begun := true }
  else { t with begun := true }

def beforeOpen (c : CountCfg) (t : CountLog) : CountLog :=
  if t.count ≥ c.maxCount then
    if c.maxFiles > 0 then openLog c (rotate c t) else { t with count := c.maxCount }
  else t

def afterOpen (c : CountCfg) (t : CountLog) : CountLog :=
  if t.count ≥ c.maxCount then openLog c (rotate c t) else t

/-- Append to slot 0 and count one message. -/
def append (b : Bytes) (t : CountLog) : CountLog :=
  { t with toShelf := t.toShelf.append b, count := t.count + 1 }

def afterWrite (c : CountCfg) (t : CountLog) : CountLog :=
  if t.count ≥ c.maxCount then rotate c t else t

/-- Log one message. -/
def log (c : CountCfg) (b : Bytes) (t : CountLog) : CountLog :=
  afterWrite c (append b (afterOpen c (openLog c (beforeOpen c (begin c t)))))

/-- A new log over the same texts. -/
def restart (t : CountLog) : CountLog :=
  { t with count := 0, opened := false, begun := false }

/-! ## The layout of a strict log

A strict log of one-line messages cuts its messages into blocks of `maxCount`.
The block in progress is slot 0, and complete blocks fill the backups, the
latest in slot 1. -/

/-- The `j`-th block of `M` messages, the oldest being block 0. -/
def block (M j : Nat) (ms : List Bytes) : List Bytes := (ms.drop (M * j)).take M

/-- Slot `k` after the messages `ms`, with `N` backups of `M` messages. -/
def layout (M N : Nat) (ms : List Bytes) (k : Nat) : Option Bytes :=
  if k = 0 then
    if ms.length % M = 0 then none else some (block M (ms.length / M) ms).flatten
  else if k ≤ N ∧ k ≤ ms.length / M then some (block M (ms.length / M - k) ms).flatten
  else none

/-! ## Equations for the branches -/

theorem openLog_of_opened {c : CountCfg} {t : CountLog} (h : t.opened = true) :
    openLog c t = t := if_pos h

theorem openLog_of_closed {c : CountCfg} {t : CountLog} (h : t.opened = false) :
    openLog c t = { scan c t with toShelf := (scan c t).toShelf.create, opened := true } := by
  rw [openLog, if_neg (by rw [h]; decide)]

/-- Writing finds the log open. -/
theorem openLog_opened (c : CountCfg) (t : CountLog) : (openLog c t).opened = true := by
  cases h : t.opened with
  | true => rw [openLog_of_opened h, h]
  | false => rw [openLog_of_closed h]

theorem afterOpen_opened {c : CountCfg} {t : CountLog} (h : t.opened = true) :
    (afterOpen c t).opened = true := by
  rw [afterOpen]
  split
  · exact openLog_opened c _
  · exact h

end CountLog

end UempPlugin.Spec
