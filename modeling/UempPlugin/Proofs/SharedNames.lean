import UempPlugin.Proofs.CalendarNames
import UempPlugin.Proofs.DateGroups
import UempPlugin.Proofs.SharedDisk
import UempPlugin.Spec.ConfigFaults

/-!
# Which sinks share a name

Whether two sinks can get at the same file is a question of their names. The
five file sinks of the default configuration write to one folder, and there the
first character of a name tells whose it is, at any time and in any time zone.
Two counting sinks of one folder get in each other's way when the stem of the
one is a backup of the other.
-/

namespace UempPlugin.Ref

open UempPlugin.Lib

/-! ## The default configuration -/

/-- The file sinks a document asks for. -/
def fileSinks (root : Yaml.Node) : List FileArgs :=
  (Log.configuredSinks (some root)).filterMap fun
    | .configured config _ => config.fileArgs
    | .callback _ => none

/-- The folder all of them write to. -/
def logsFolder : Text := "./logs/".toList

/-- The first character of a name in the folder. -/
def BeginsWith (first : Char → Prop) (p : Path) : Prop :=
  ∃ c rest, first c ∧ p = logsFolder ++ c :: rest

theorem BeginsWith.apart {first first' : Char → Prop} {p : Path} (h : BeginsWith first p)
    (h' : BeginsWith first' p) : ∃ c, first c ∧ first' c := by
  obtain ⟨c, rest, hc, rfl⟩ := h
  obtain ⟨c', rest', hc', heq⟩ := h'
  cases List.append_cancel_left heq
  exact ⟨c, hc, hc'⟩

/-- What a year begins with. -/
def DateStart (c : Char) : Prop := c.isDigit = true ∨ c = '-'

theorem appendInt_start (v : Int) (width : Nat) :
    ∃ c rest, DateStart c ∧ appendInt v width = c :: rest := by
  have hdigits : ∀ n, ∃ c rest, DateStart c ∧ toStr n = c :: rest := by
    intro n
    have hne : toStr n ≠ [] := Nat.toDigits_ne_nil
    obtain ⟨c, rest, heq⟩ := List.exists_cons_of_ne_nil hne
    refine ⟨c, rest, .inl (isDigit_toStr (n := n) ?_), heq⟩
    rw [heq]
    exact List.mem_cons_self ..
  have htext : ∃ c rest, DateStart c ∧ intText v = c :: rest := by
    rw [intText]
    split
    · exact ⟨'-', _, .inr rfl, rfl⟩
    · exact hdigits _
  rw [appendInt]
  cases width - (intText v).length with
  | zero => exact htext
  | succ n => exact ⟨'0', _, .inl (by decide), rfl⟩

/-- The names after the default pattern begin with the year. -/
theorem default_basename (zone : Zone) (tp : Int) :
    ∃ c rest, DateStart c ∧
      makeBasename zone "{date}".toList "yyyy-MM-dd".toList tp = c :: rest := by
  have hpieces : pieces datePlaceholder ("{date}".toList.length + 1) "{date}".toList =
      [[], []] := by
    decide +kernel
  have hparts : partsLoop "yyyy-MM-dd".toList.length false "yyyy-MM-dd".toList =
      some [.year, .literal ['-'], .month, .literal ['-'], .day] := rfl
  let tm := zone.localtime (toTimeT tp)
  let rest : List DatePart := [.literal ['-'], .month, .literal ['-'], .day]
  have hdate : qtDatetimeFormatSubset zone tp "yyyy-MM-dd".toList =
      appendInt (tm.year + 1900) 4 ++ rest.flatMap (DatePart.text tm) :=
    formatLoop_parts (toLocalParts zone tp) _ _ _ _ hparts
  obtain ⟨c, digits, hc, hyear⟩ := appendInt_start (tm.year + 1900) 4
  refine ⟨c, digits ++ rest.flatMap (DatePart.text tm), hc, ?_⟩
  rw [makeBasename, replaceAll_eq (by decide), hpieces, hdate, hyear, List.intercalate_cons_cons,
    List.intercalate_singleton, List.nil_append, List.append_nil, List.cons_append]

/-- The sinks `loadDefaultConfig` asks for. -/
def defaultBasic : BasicArgs where
  filename := "./logs/basic_file_sink_mt.log".toList

def defaultRotating : RotatingArgs where
  baseFilename := "./logs/rotating_file_mt.log".toList
  maxSize := 10240 * 8 * 1024
  maxFiles := 5

def defaultDaily : DailyFileArgs where
  baseFilename := "./logs/daily_file_mt.log".toList
  rotationH := 0
  rotationM := 0
  maxFiles := 7
  maxFiles_lt := by decide

def defaultCount : CountArgs where
  baseFilename := "./logs/count_rotating_file_mt.log".toList
  maxCount := 100000
  maxFiles := 5
  strictCountOnOpen := true

def defaultDailySize : DailyArgs where
  dir := "./logs".toList
  namePattern := "{date}".toList
  dateFormat := "yyyy-MM-dd".toList
  rotationHour := 0
  rotationMin := 0
  maxSizeBits := 10240 * 8 * 1024
  maxFiles := 5

theorem fileSinks_default : fileSinks Log.defaultDoc =
    [.basicFile defaultBasic, .rotatingFile defaultRotating, .dailyFile defaultDaily,
      .countRotatingFile defaultCount, .dailySizeRotatingFile defaultDailySize] := by
  have hsinks : Log.configuredSinks (some Log.defaultDoc) = [
      .configured .stdoutColor .trace,
      .configured (.basicFile "./logs/basic_file_sink_mt.log" false) .trace,
      .configured (.rotatingFile "./logs/rotating_file_mt.log" (10240 * 8 * 1024) 5 false) .trace,
      .configured (.dailyFile "./logs/daily_file_mt.log" 0 0 false 7) .trace,
      .configured (.countRotatingFile "./logs/count_rotating_file_mt.log" 100000 5 false true)
        .trace,
      .configured (.dailySizeRotatingFile "./logs" "{date}" "yyyy-MM-dd" 0 0 (10240 * 8 * 1024) 5
        false) .trace] := by
    decide +kernel
  rw [fileSinks, hsinks]
  rfl

theorem joinPath_logs {c : Char} (hc : c ≠ sep) (rest : Text) :
    joinPath "./logs".toList (c :: rest) = logsFolder ++ c :: rest := by
  have hhead : ¬ ((c :: rest).head? = some sep ∨ "./logs".toList = []) := by
    rintro (h | h)
    · exact hc (Option.some.inj h)
    · exact absurd h (by decide)
  rw [joinPath, if_neg hhead, if_neg (by decide)]
  rfl

theorem slotName_cons (c : Char) (stem : Text) (k : Nat) :
    slotName (c :: stem) k = c :: slotName stem k := by
  cases k <;> rfl

variable {zone : Zone} {p : Path}

theorem begins_basic (h : p = defaultBasic.filename) : BeginsWith (· = 'b') p :=
  ⟨'b', "asic_file_sink_mt.log".toList, rfl, h⟩

theorem begins_rotating (h : defaultRotating.Files p) : BeginsWith (· = 'r') p := by
  obtain ⟨k, -, rfl⟩ := h
  cases k with
  | zero => exact ⟨'r', "otating_file_mt.log".toList, rfl, rfl⟩
  | succ k =>
      have hsplit : Log.splitByExtension defaultRotating.baseFilename =
          ("./logs/rotating_file_mt".toList, ".log".toList) := by
        decide +kernel
      refine ⟨'r', "otating_file_mt".toList ++ '.' :: toStr (k + 1) ++ ".log".toList, rfl, ?_⟩
      rw [calcPath, if_neg (Nat.succ_ne_zero k), hsplit]
      rfl

theorem begins_daily (h : defaultDaily.Files zone p) : BeginsWith (· = 'd') p := by
  obtain ⟨tp, rfl⟩ := h
  have hsplit : Log.splitByExtension defaultDaily.baseFilename =
      ("./logs/daily_file_mt".toList, ".log".toList) := by
    decide +kernel
  rw [DailyFileArgs.pathAt, calcDailyPath, hsplit]
  exact ⟨'d', _, rfl, rfl⟩

theorem begins_count (h : defaultCount.Files p) : BeginsWith (· = 'c') p := by
  obtain ⟨k, -, rfl⟩ := h
  have hdir : defaultCount.dir = "./logs".toList := by decide +kernel
  have hstem : defaultCount.stem = 'c' :: "ount_rotating_file_mt".toList := by decide +kernel
  rw [chainPath_eq, hdir, hstem, slotName_cons, joinPath_logs (by decide)]
  exact ⟨'c', _, rfl, rfl⟩

theorem begins_dailySize (h : defaultDailySize.Files zone p) : BeginsWith DateStart p := by
  obtain ⟨tp, k, -, rfl⟩ := h
  obtain ⟨c, rest, hc, hname⟩ := default_basename zone tp
  have hsep : c ≠ sep := by
    rintro rfl
    rcases hc with hc | hc
    · exact absurd hc (by decide)
    · exact absurd hc (by decide)
  rw [chainPath_eq, show defaultDailySize.basenameAt zone tp = c :: rest from hname, slotName_cons,
    show defaultDailySize.dir = "./logs".toList from rfl, joinPath_logs hsep]
  exact ⟨c, _, hc, rfl⟩

/-- The five file sinks of the default configuration share no name, in any time
zone and at no time. -/
theorem default_sinks_apart (zone : Zone) :
    (fileSinks Log.defaultDoc).length = 5 ∧
      (fileSinks Log.defaultDoc).Pairwise fun a b => ∀ p, ¬ (a.Files zone p ∧ b.Files zone p) := by
  have hletters : ∀ {x y : Char} {p : Path}, x ≠ y → BeginsWith (· = x) p →
      ¬ BeginsWith (· = y) p := by
    intro x y p hne h h'
    obtain ⟨c, hx, hy⟩ := h.apart h'
    exact hne (hx.symm.trans hy)
  have hdates : ∀ {x : Char} {p : Path}, ¬ DateStart x → BeginsWith (· = x) p →
      ¬ BeginsWith DateStart p := by
    intro x p hne h h'
    obtain ⟨c, hx, hc⟩ := h.apart h'
    exact hne (hx ▸ hc)
  have hno : ¬ DateStart 'b' ∧ ¬ DateStart 'r' ∧ ¬ DateStart 'd' ∧ ¬ DateStart 'c' := by
    simp only [DateStart]
    decide
  rw [fileSinks_default]
  refine ⟨rfl, ?_⟩
  simp only [List.pairwise_cons, List.mem_cons, List.not_mem_nil, or_false, forall_eq_or_imp,
    forall_eq, FileArgs.Files]
  refine ⟨⟨?_, ?_, ?_, ?_⟩, ⟨?_, ?_, ?_⟩, ⟨?_, ?_⟩, ?_, by simp⟩
  · exact fun p h => hletters (by decide) (begins_basic h.1) (begins_rotating h.2)
  · exact fun p h => hletters (by decide) (begins_basic h.1) (begins_daily h.2)
  · exact fun p h => hletters (by decide) (begins_basic h.1) (begins_count h.2)
  · exact fun p h => hdates hno.1 (begins_basic h.1) (begins_dailySize h.2)
  · exact fun p h => hletters (by decide) (begins_rotating h.1) (begins_daily h.2)
  · exact fun p h => hletters (by decide) (begins_rotating h.1) (begins_count h.2)
  · exact fun p h => hdates hno.2.1 (begins_rotating h.1) (begins_dailySize h.2)
  · exact fun p h => hletters (by decide) (begins_daily h.1) (begins_count h.2)
  · exact fun p h => hdates hno.2.2.1 (begins_daily h.1) (begins_dailySize h.2)
  · exact fun p h => hdates hno.2.2.2 (begins_count h.1) (begins_dailySize h.2)

/-! ## Two counting sinks of one folder -/

/-- Two names agree when the stems do, or the stem of the one log file is the
other's with a number behind it. -/
theorem slotName_eq {s t : Text} {i j : Nat} (h : slotName s i = slotName t j) :
    s = t ∨ (i = 0 ∧ 1 ≤ j ∧ s = t ++ '.' :: toStr j) ∨
      (j = 0 ∧ 1 ≤ i ∧ t = s ++ '.' :: toStr i) := by
  match i, j with
  | 0, 0 => exact .inl (List.append_cancel_right h)
  | 0, j + 1 => exact .inr (.inl ⟨rfl, Nat.succ_pos j, List.append_cancel_right h⟩)
  | i + 1, 0 => exact .inr (.inr ⟨rfl, Nat.succ_pos i, (List.append_cancel_right h).symm⟩)
  | i + 1, j + 1 =>
      have hback := congrArg List.reverse (List.append_cancel_right h)
      rw [List.reverse_append, List.reverse_append, List.reverse_cons, List.reverse_cons,
        List.append_assoc, List.append_assoc] at hback
      have hnum : ∀ n, '.' ∉ (toStr n).reverse := fun n hm =>
        silent_dot.notMem_toStr n (List.mem_reverse.1 hm)
      exact .inl (List.reverse_inj.1 (split_first (hnum _) (hnum _) hback).2)

/-- A stem is part of a file name. -/
theorem CountArgs.notMem_stem (a : CountArgs) : sep ∉ a.stem := by
  have hname : sep ∉ filename a.baseFilename := by
    intro hm
    have hm := List.mem_reverse.1 hm
    have hall := List.all_eq_true.1 (List.all_takeWhile (l := a.baseFilename.reverse)
      (p := fun c => decide (c ≠ sep))) sep hm
    simp at hall
  rw [CountArgs.stem]
  split
  · exact fun hm => hname (List.mem_of_mem_take hm)
  · exact hname

/-- Two counting sinks in one folder can get at the same file exactly when they
have the same stem, or the stem of one is that of a backup the other keeps. -/
theorem count_share_iff {a b : CountArgs} (hdir : a.dir = b.dir) :
    (∃ p, a.Files p ∧ b.Files p) ↔
      a.stem = b.stem ∨ (∃ k, 1 ≤ k ∧ k ≤ a.maxFiles ∧ b.stem = a.stem ++ '.' :: toStr k) ∨
        ∃ k, 1 ≤ k ∧ k ≤ b.maxFiles ∧ a.stem = b.stem ++ '.' :: toStr k := by
  have hplain : ∀ (c : CountArgs) (k : Nat), sep ∉ slotName c.stem k := fun c k =>
    notMem_slotName silent_sep (by decide) c.notMem_stem k
  constructor
  · rintro ⟨p, ⟨i, hi, rfl⟩, j, hj, hp⟩
    rw [chainPath_eq, chainPath_eq, hdir] at hp
    rcases slotName_eq (joinPath_plain (hplain a i) (hplain b j) hp) with h | ⟨-, hpos, h⟩ | h
    · exact .inl h
    · exact .inr (.inr ⟨j, hpos, hj, h⟩)
    · exact .inr (.inl ⟨i, h.2.1, hi, h.2.2⟩)
  · rintro (h | ⟨k, hpos, hk, h⟩ | ⟨k, hpos, hk, h⟩)
    · exact ⟨a.basePath, CountSink.files_basePath a, 0, Nat.zero_le _, by
        rw [CountArgs.basePath, h, hdir]
        rfl⟩
    · obtain ⟨i, rfl⟩ := Nat.exists_eq_succ_of_ne_zero (Nat.one_le_iff_ne_zero.1 hpos)
      refine ⟨chainPath a.dir a.stem (i + 1), ⟨i + 1, hk, rfl⟩, 0, Nat.zero_le _, ?_⟩
      rw [chainPath_eq, chainPath_eq, slotName, slotName, h, hdir]
    · obtain ⟨i, rfl⟩ := Nat.exists_eq_succ_of_ne_zero (Nat.one_le_iff_ne_zero.1 hpos)
      refine ⟨chainPath b.dir b.stem (i + 1), ⟨0, Nat.zero_le _, ?_⟩, i + 1, hk, rfl⟩
      rw [chainPath_eq, chainPath_eq, slotName, slotName, h, hdir]

/-- `app.log` and `app.2.log`, where the first keeps two backups. -/
theorem count_share_app :
    let a : CountArgs := { baseFilename := "d/app.log".toList, maxCount := 1, maxFiles := 2 }
    let b : CountArgs := { baseFilename := "d/app.2.log".toList, maxCount := 1 }
    ∃ p, a.Files p ∧ b.Files p := by
  refine (count_share_iff (by decide +kernel)).2 (.inr (.inl ⟨2, ?_, ?_, ?_⟩))
  · decide
  · decide
  · decide +kernel

end UempPlugin.Ref
