import UempPlugin.Proofs.LibrarySinkFiles

/-!
# Several sinks on one disk

A program has several sinks, of one logger or of many, built and rebuilt when
configurations are loaded, and called in whatever order the messages and the
threads bring about. As long as no two of them may use the same name, none of
them can tell: each ends, with its files, as if the others were not there. That
holds of whatever calls fail, provided that they do not fail because of how many
were made before.
-/

namespace UempPlugin.Ref

open UempPlugin.Lib

/-- The names a sink may use. -/
def FileArgs.Files (zone : Zone) : FileArgs → Path → Prop
  | .dailyFile a => a.Files zone
  | .rotatingFile a => a.Files
  | .basicFile a => fun p => p = a.filename
  | .countRotatingFile a => a.Files
  | .dailySizeRotatingFile a => a.Files zone

namespace FileSink

variable {zone : Zone} {d e : Disk Path}

/-- A sink is at its own files. One that was not built has no files open. -/
def Own (zone : Zone) : FileSink → Prop
  | .dailyFile a s => DailyFileSink.Own a zone s
  | .rotatingFile a s => ∀ p, s.fd = some p → a.Files p
  | .basicFile a s => ∀ p, s.fd = some p → p = a.filename
  | .countRotatingFile a s => ∀ p, s.fd = some p → a.Files p
  | .dailySizeRotatingFile a s => DailySink.Own a zone s
  | .thrown _ _ => True

def host (zone : Zone) : Host FileSink Path where
  disk := disk
  put := put
  names s := s.args.Files zone
  ok := Own zone
  disk_put d s := by cases s <;> rfl
  put_put d d' s := by cases s <;> rfl
  put_disk s := by cases s <;> rfl
  names_put d s := by cases s <;> rfl
  ok_put d s := by
    cases s with
    | dailyFile a s => exact (DailyFileSink.host a zone).ok_put d s
    | dailySizeRotatingFile a s => exact (DailySink.host a zone).ok_put d s
    | _ => rfl

theorem log_local (zone : Zone) (time now : Int) (msg : Bytes) :
    (host zone).Steps (log zone time now msg) := by
  refine Host.steps_of fun s e hok h => ?_
  cases s with
  | dailyFile a s =>
      have hnext := (DailyFileSink.sinkIt_local a zone time now msg).final s _ (Host.near_put hok h)
      exact ⟨hnext.goes, congrArg (FileSink.dailyFile a) hnext.same, rfl, hnext.ok⟩
  | rotatingFile a s =>
      have hnext := (RotatingSink.sinkIt_local a msg).final s _ (Host.near_put hok h)
      exact ⟨hnext.goes, congrArg (FileSink.rotatingFile a) hnext.same, rfl, hnext.ok⟩
  | basicFile a s =>
      have hnext := (BasicSink.sinkIt_local a msg).final s _ (Host.near_put hok h)
      exact ⟨hnext.goes, congrArg (FileSink.basicFile a) hnext.same, rfl, hnext.ok⟩
  | countRotatingFile a s =>
      have hnext := (CountSink.sinkIt_local a msg).final s _ (Host.near_put hok h)
      exact ⟨hnext.goes, congrArg (FileSink.countRotatingFile a) hnext.same, rfl, hnext.ok⟩
  | dailySizeRotatingFile a s =>
      have hnext := (DailySink.sinkIt_local a zone now msg).final s _ (Host.near_put hok h)
      exact ⟨hnext.goes, congrArg (FileSink.dailySizeRotatingFile a) hnext.same, rfl, hnext.ok⟩
  | thrown a d => exact Host.Next.of (H := host zone) (.thrown a d) (Goes.refl h) rfl trivial

/-- Building a sink of any kind. -/
theorem construct_next (zone : Zone) (args : FileArgs) (now nowNext nowInit : Int)
    (h : Alike (args.Files zone) d e) :
    (host zone).Next (.thrown args d) (construct zone now nowNext nowInit d args)
      (construct zone now nowNext nowInit e args) := by
  cases args with
  | dailyFile a =>
      have hbuilds := DailyFileSink.construct_builds a zone now nowNext nowInit h
      rw [construct, construct]
      generalize DailyFileSink.construct a zone now nowNext nowInit d = r at hbuilds ⊢
      generalize DailyFileSink.construct a zone now nowNext nowInit e = r' at hbuilds ⊢
      rcases hbuilds with ⟨hgoes, hsame, -, hok⟩ | ⟨hgoes⟩
      · exact ⟨hgoes, congrArg (FileSink.dailyFile a) hsame, rfl, hok⟩
      · exact ⟨hgoes, rfl, rfl, trivial⟩
  | rotatingFile a =>
      have hbuilds := RotatingSink.construct_builds a h
      rw [construct, construct]
      generalize RotatingSink.construct a d = r at hbuilds ⊢
      generalize RotatingSink.construct a e = r' at hbuilds ⊢
      rcases hbuilds with ⟨hgoes, hsame, -, hok⟩ | ⟨hgoes⟩
      · exact ⟨hgoes, congrArg (FileSink.rotatingFile a) hsame, rfl, hok⟩
      · exact ⟨hgoes, rfl, rfl, trivial⟩
  | basicFile a =>
      have hbuilds := BasicSink.construct_builds a h
      rw [construct, construct]
      generalize BasicSink.construct a d = r at hbuilds ⊢
      generalize BasicSink.construct a e = r' at hbuilds ⊢
      rcases hbuilds with ⟨hgoes, hsame, -, hok⟩ | ⟨hgoes⟩
      · exact ⟨hgoes, congrArg (FileSink.basicFile a) hsame, rfl, hok⟩
      · exact ⟨hgoes, rfl, rfl, trivial⟩
  | countRotatingFile a => exact ⟨Goes.tick h, rfl, rfl, fun _ hp => nomatch hp⟩
  | dailySizeRotatingFile a =>
      have hrefl : (host zone).Next (.thrown (.dailySizeRotatingFile a) d)
          (.thrown (.dailySizeRotatingFile a) d) (.thrown (.dailySizeRotatingFile a) e) :=
        ⟨Goes.refl h, rfl, rfl, trivial⟩
      have htick : Goes (a.Files zone) d (d.mkdirs a.dir) (e.mkdirs a.dir) := Goes.tick h
      simp only [construct, DailySink.construct]
      split
      · next heq =>
          split at heq
          · cases heq
          split at heq
          · cases heq
          cases heq
          rw [if_neg ‹_›, if_neg ‹_›]
          exact ⟨htick, rfl, rfl, ⟨now, rfl⟩, fun _ hp => nomatch hp⟩
      · next heq =>
          split at heq
          · rw [if_pos ‹_›]
            exact hrefl
          split at heq
          · rw [if_neg ‹_›, if_pos ‹_›]
            exact hrefl
          · cases heq

theorem step_local (zone : Zone) (ev : Event) : (host zone).Steps (step zone ev) := by
  cases ev with
  | log time now msg => exact log_local zone time now msg
  | restart now nowNext nowInit =>
      refine Host.steps_of fun s e hok h => ?_
      have hbuilt := construct_next zone s.args now nowNext nowInit h
      have hargs : ((host zone).put e s).args = s.args := by cases s <;> rfl
      have hdisk : ((host zone).put e s).disk = e := (host zone).disk_put e s
      rw [step, step, hargs, hdisk]
      exact ⟨hbuilt.goes, hbuilt.same, hbuilt.names, hbuilt.ok⟩

end FileSink

/-! ## The whole program -/

section

open FileSink

variable {K : Type} [DecidableEq K]

/-- No sink is there before a configuration is loaded. -/
def unbuilt (args : K → FileArgs) (d : Disk Path) : System FileSink Path K where
  cells k := .thrown (args k) d
  disk := d

variable {zone : Zone} {d : Disk Path}

omit [DecidableEq K] in
theorem apart_unbuilt (zone : Zone) (args : K → FileArgs)
    (hsteady : ∀ n m c, d.fault n c = d.fault m c) :
    System.Apart (host zone) (fun k => (args k).Files zone) (unbuilt args d)
      fun k => .thrown (args k) d where
  near _ := ⟨Goes.refl ⟨hsteady, rfl, fun _ _ => rfl⟩, rfl, rfl, trivial⟩
  names _ := rfl

/-- Sinks no two of which may use the same name do not notice each other: after
any constructions and messages, in any order, each has the members and the files
it would have alone, and all other files are as they were. -/
theorem sinks_independent (args : K → FileArgs)
    (hapart : ∀ k l p, (args k).Files zone p → (args l).Files zone p → k = l)
    (hsteady : ∀ n m c, d.fault n c = d.fault m c) (es : List (K × FileSink.Event)) :
    let S := (unbuilt args d).run (host zone) (step zone) es
    (∀ k, let s := System.alone (step zone) (.thrown (args k) d) (System.share k es)
      S.seen (host zone) k = s.put S.disk ∧
        ∀ p, (args k).Files zone p → S.disk.files p = s.disk.files p) ∧
      ∀ p, (∀ k, ¬ (args k).Files zone p) → S.disk.files p = d.files p := by
  have hstart := apart_unbuilt zone args hsteady
  have hrun := hstart.run (step_local zone) hapart es
  refine ⟨fun k => ⟨?_, fun p hp => ?_⟩, fun p hp => ?_⟩
  · have hsame := (hrun.near k).same
    show _ = (host zone).put _ _
    rw [hsame, (host zone).put_put]
    exact ((host zone).put_put _ _ _).symm
  · have hfiles := (hrun.near k).goes.files p
    rw [System.seen_names, hrun.names, System.disk_seen] at hfiles
    exact (hfiles hp).symm
  · exact hstart.elsewhere (step_local zone) hapart hp es

/-- Two plain log files, one of them truncated when it is opened. -/
def twoFiles : Bool → FileArgs
  | true => .basicFile { filename := ['a'], truncate := true }
  | false => .basicFile { filename := ['b'] }

/-- Both exist already; messages go to one, the other, and the first again. -/
theorem sinks_independent_pair :
    let d : Disk Path := { files := fun _ => some { bytes := [7] } }
    let es : List (Bool × Event) := [(true, .restart 0 0 0), (false, .restart 0 0 0),
      (true, .log 0 0 [1]), (false, .log 0 0 [2]), (true, .log 0 0 [3])]
    let S := (unbuilt twoFiles d).run (host (Zone.fixed 0)) (step (Zone.fixed 0)) es
    S.disk.files ['a'] = some { bytes := [1, 3], written := true } ∧
      S.disk.files ['b'] = some { bytes := [7, 2], written := true } ∧
      S.disk.files ['c'] = some { bytes := [7] } := by
  intro d es S
  have hapart : ∀ k l p, (twoFiles k).Files (Zone.fixed 0) p → (twoFiles l).Files (Zone.fixed 0) p →
      k = l := by
    rintro (_ | _) (_ | _) p hk hl
    · rfl
    · exact absurd (hk.symm.trans hl) (by decide)
    · exact absurd (hk.symm.trans hl) (by decide)
    · rfl
  obtain ⟨hown, helse⟩ := sinks_independent (d := d) twoFiles hapart (fun _ _ _ => rfl) es
  refine ⟨((hown true).2 ['a'] rfl).trans ?_, ((hown false).2 ['b'] rfl).trans ?_, helse ['c'] ?_⟩
  · rfl
  · rfl
  · rintro (_ | _) h
    · exact absurd (show ['c'] = ['b'] from h) (by decide)
    · exact absurd (show ['c'] = ['a'] from h) (by decide)

end

end UempPlugin.Ref
