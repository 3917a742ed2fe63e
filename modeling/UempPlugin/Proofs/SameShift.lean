import UempPlugin.Proofs.CountChain
import UempPlugin.Proofs.DailyGroup

/-!
# Both sinks rotate alike

`rotate_files_` counts from `max_files_ - 1` down to 1 and names the source of a
move, `rotate_by_size_chain_` counts from `max_files_` down to 2 and names its
destination. The moves are the same cascade.
-/

namespace UempPlugin.Ref

open UempPlugin.Lib

theorem rotateBySizeChain_disk (a : DailyArgs) (s : DailySink) :
    (DailySink.rotateBySizeChain a s).disk =
      s.disk.rotateChain (chainPath a.dir s.currentBasename) a.maxFiles := by
  by_cases hN : a.maxFiles = 0
  · rw [DailySink.rotateBySizeChain, if_pos hN, hN, Disk.rotateChain]
  · rw [DailySink.rotateBySizeChain_eq hN]

/-- Where no call fails, either rotation shifts the chain by one and touches no
other file; over the same files under the same names they leave the same
files. -/
theorem same_shift (a : CountArgs) (s : CountSink) (b : DailyArgs) (t : DailySink)
    (hs : s.disk.NoFault) (ht : t.disk.NoFault) :
    Disk.Shifted (chainPath a.dir a.stem) a.maxFiles s.disk (CountSink.rotateFiles a s).disk ∧
      Disk.Shifted (chainPath b.dir t.currentBasename) b.maxFiles t.disk
        (DailySink.rotateBySizeChain b t).disk ∧
      (a.maxFiles = b.maxFiles → a.dir = b.dir → a.stem = t.currentBasename →
        s.disk.files = t.disk.files →
          (CountSink.rotateFiles a s).disk.files = (DailySink.rotateBySizeChain b t).disk.files) := by
  have hcount : Disk.Shifted (chainPath a.dir a.stem) a.maxFiles s.disk
      (CountSink.rotateFiles a s).disk := by
    rw [CountSink.rotateFiles_eq]
    exact Disk.rotateChain_shifted (chainPath_injective _ _) hs _
  have hdaily : Disk.Shifted (chainPath b.dir t.currentBasename) b.maxFiles t.disk
      (DailySink.rotateBySizeChain b t).disk := by
    rw [rotateBySizeChain_disk]
    exact Disk.rotateChain_shifted (chainPath_injective _ _) ht _
  refine ⟨hcount, hdaily, fun hN hdir hstem hfiles => ?_⟩
  rw [hN, hdir, hstem] at hcount
  exact hcount.unique hdaily hfiles

/-- A base file, a gap and a second backup, with three backups allowed. -/
theorem same_shift_gap :
    let a : CountArgs := { baseFilename := "logs/app.log".toList, maxCount := 1, maxFiles := 3 }
    let b : DailyArgs :=
      { dir := "logs".toList, namePattern := [], dateFormat := [], rotationHour := 0,
        rotationMin := 0, maxSizeBits := 8, maxFiles := 3 }
    let d : Disk Path :=
      { files := fun p =>
          if p = "logs/app.log".toList then some { bytes := [1] }
          else if p = "logs/app.2.log".toList then some { bytes := [2] } else none }
    let s : CountSink := ⟨0, true, true, none, d⟩
    let t : DailySink := ⟨"app".toList, 0, 0, true, true, none, d⟩
    (CountSink.rotateFiles a s).disk.files = (DailySink.rotateBySizeChain b t).disk.files ∧
      (CountSink.rotateFiles a s).disk.files "logs/app.1.log".toList = some { bytes := [1] } :=
  ⟨(same_shift _ _ _ _ (fun _ _ => rfl) (fun _ _ => rfl)).2.2 rfl (by decide +kernel)
    (by decide +kernel) rfl, by decide +kernel⟩

end UempPlugin.Ref
