import UempPlugin.Lib.FaultyChain
import UempPlugin.Proofs.CountChain
import UempPlugin.Proofs.DailyGroup

/-!
# Rotations whose renames fail

Both sinks delete the oldest backup and then move every file one slot up,
deleting the destination of each move first and ignoring how a rename ends.
-/

namespace UempPlugin.Ref

open UempPlugin.Lib

/-- A rotation with `N` backups of the chain of files that `path` names. -/
def RotationSafe (path : Nat → Path) (N : Nat) (d d' : Disk Path) : Prop :=
  Chain.Survives N (Disk.chain path d) (Disk.chain path d')

theorem rotateChain_safe_iff {path : Nat → Path} (hinj : Function.Injective path)
    {fail : Nat → Bool} {d : Disk Path} (h : Disk.RenamesFail path fail d) {N : Nat}
    (hN : N ≠ 0) :
    RotationSafe path N d (d.rotateChain path N) ↔ Chain.Clear fail N (Disk.chain path d) := by
  obtain ⟨n, rfl⟩ : ∃ n, N = n + 1 := ⟨N - 1, by omega⟩
  exact Disk.rotate_survives_iff hinj h n

/-- With at least one backup, rotating keeps every file but the oldest backup,
each under a name of its own, exactly when no file whose rename fails has
another file below it. This holds of the count sink and of every group of the
daily sink. -/
theorem failing_renames_iff (fail : Nat → Bool) :
    (∀ (a : CountArgs) (s : CountSink), a.maxFiles ≠ 0 →
      Disk.RenamesFail (chainPath a.dir a.stem) fail s.disk →
      (RotationSafe (chainPath a.dir a.stem) a.maxFiles s.disk (CountSink.rotateFiles a s).disk ↔
        Chain.Clear fail a.maxFiles (Disk.chain (chainPath a.dir a.stem) s.disk))) ∧
    ∀ (a : DailyArgs) (s : DailySink), a.maxFiles ≠ 0 →
      Disk.RenamesFail (chainPath a.dir s.currentBasename) fail s.disk →
      (RotationSafe (chainPath a.dir s.currentBasename) a.maxFiles s.disk
          (DailySink.rotateBySizeChain a s).disk ↔
        Chain.Clear fail a.maxFiles (Disk.chain (chainPath a.dir s.currentBasename) s.disk)) := by
  constructor
  · intro a s hN h
    rw [CountSink.rotateFiles_eq]
    exact rotateChain_safe_iff (chainPath_injective _ _) h hN
  · intro a s hN h
    rw [DailySink.rotateBySizeChain_eq hN]
    exact rotateChain_safe_iff (chainPath_injective _ _) h hN

/-! ## A backup that does not move -/

/-- A current file and one backup, which cannot be renamed. -/
def stuckDisk (path : Nat → Path) : Disk Path where
  files := fun p =>
    if p = path 0 then some { bytes := [1] } else if p = path 1 then some { bytes := [2] } else none
  fault := fun _ call => if call = .rename (path 1) (path 2) then some 0 else none

def onlyFirst (k : Nat) : Bool := k = 1

theorem stuckDisk_renames {path : Nat → Path} (hinj : Function.Injective path) :
    Disk.RenamesFail path onlyFirst (stuckDisk path) where
  renames := by
    intro n k
    by_cases hk : k = 1
    · subst hk
      exact congrArg Option.isSome (if_pos rfl)
    · have hne : Call.rename (path k) (path (k + 1)) ≠ .rename (path 1) (path 2) := by
        intro heq
        rw [Call.rename.injEq] at heq
        exact hk (hinj heq.1)
      rw [onlyFirst, decide_eq_false hk]
      exact congrArg Option.isSome (if_neg hne)
  others := fun n call hcall => if_neg (hcall 1)

/-- The backup that is stuck has the current file below it. -/
theorem stuckDisk_not_clear {path : Nat → Path} (hinj : Function.Injective path) :
    ¬ Chain.Clear onlyFirst 2 (Disk.chain path (stuckDisk path)) := by
  intro hclear
  have hbase : Disk.chain path (stuckDisk path) 0 = some { bytes := [1] } := if_pos rfl
  have hne : path 1 ≠ path 0 := fun heq => absurd (hinj heq) (by decide)
  have hbackup : Disk.chain path (stuckDisk path) 1 = some { bytes := [2] } :=
    (if_neg hne).trans (if_pos rfl)
  have hnone := hclear 0 (by decide) rfl (by rw [hbackup]; rfl)
  rw [hbase] at hnone
  cases hnone

def stuckCountArgs : CountArgs where
  baseFilename := "logs/a.log".toList
  maxCount := 1
  maxFiles := 2

def stuckCount : CountSink :=
  CountSink.construct stuckCountArgs (stuckDisk (chainPath stuckCountArgs.dir stuckCountArgs.stem))

def stuckDailyArgs : DailyArgs where
  dir := "logs".toList
  namePattern := "{date}".toList
  dateFormat := "yyyy-MM-dd".toList
  rotationHour := 0
  rotationMin := 0
  maxSizeBits := 8
  maxFiles := 2

def stuckDaily : DailySink :=
  DailySink.start stuckDailyArgs (Zone.fixed 0) 0
    (stuckDisk (chainPath stuckDailyArgs.dir "1970-01-01".toList))

theorem stuckDaily_basename : stuckDaily.currentBasename = "1970-01-01".toList := by
  decide +kernel

theorem stuckCount_renames : Disk.RenamesFail (chainPath stuckCountArgs.dir stuckCountArgs.stem)
    onlyFirst stuckCount.disk :=
  (stuckDisk_renames (chainPath_injective _ _)).of_fault rfl

theorem stuckDaily_renames : Disk.RenamesFail (chainPath stuckDailyArgs.dir stuckDaily.currentBasename)
    onlyFirst stuckDaily.disk := by
  rw [stuckDaily_basename]
  exact (stuckDisk_renames (chainPath_injective _ _)).of_fault rfl

theorem failing_renames_stuck :
    (RotationSafe (chainPath stuckCountArgs.dir stuckCountArgs.stem) 2 stuckCount.disk
        (CountSink.rotateFiles stuckCountArgs stuckCount).disk ↔
      Chain.Clear onlyFirst 2
        (Disk.chain (chainPath stuckCountArgs.dir stuckCountArgs.stem) stuckCount.disk)) ∧
    (RotationSafe (chainPath stuckDailyArgs.dir stuckDaily.currentBasename) 2 stuckDaily.disk
        (DailySink.rotateBySizeChain stuckDailyArgs stuckDaily).disk ↔
      Chain.Clear onlyFirst 2
        (Disk.chain (chainPath stuckDailyArgs.dir stuckDaily.currentBasename) stuckDaily.disk)) :=
  ⟨(failing_renames_iff onlyFirst).1 stuckCountArgs stuckCount (by decide) stuckCount_renames,
    (failing_renames_iff onlyFirst).2 stuckDailyArgs stuckDaily (by decide) stuckDaily_renames⟩

/-- The rename of the only backup fails, and then the current file is moved
over it: one of the two files is gone. -/
theorem stuck_backup_lost :
    ¬ RotationSafe (chainPath stuckCountArgs.dir stuckCountArgs.stem) 2 stuckCount.disk
        (CountSink.rotateFiles stuckCountArgs stuckCount).disk ∧
    ¬ RotationSafe (chainPath stuckDailyArgs.dir stuckDaily.currentBasename) 2 stuckDaily.disk
        (DailySink.rotateBySizeChain stuckDailyArgs stuckDaily).disk := by
  constructor
  · rw [CountSink.rotateFiles_eq]
    intro hsafe
    exact stuckDisk_not_clear (chainPath_injective _ _)
      ((rotateChain_safe_iff (chainPath_injective _ _) stuckCount_renames (by decide)).1 hsafe)
  · rw [DailySink.rotateBySizeChain_eq (by decide)]
    intro hsafe
    have hclear :=
      (rotateChain_safe_iff (chainPath_injective _ _) stuckDaily_renames (by decide)).1 hsafe
    rw [stuckDaily_basename] at hclear
    exact stuckDisk_not_clear (chainPath_injective _ _) hclear

end UempPlugin.Ref
