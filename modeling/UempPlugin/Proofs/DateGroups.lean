import Mathlib.Data.List.Induction
import UempPlugin.Proofs.DailyTargets
import UempPlugin.Proofs.DateNames
import UempPlugin.Proofs.ReplaceAll

/-!
# Date groups are isolated

The files of a date group are named after its base name, with a number in
front of the extension for the backups. A backup of one group could only bear
the name of another group's file if the base names differed in their number of
dots. They do not: what a token of the date format prints has no dot in it, so
the dots of a base name are those written in the pattern and in the format,
whatever the time is.

On the disk, a call of the sink touches no file outside the group its clock
reading has chosen, whatever fails.
-/

namespace UempPlugin.Ref

open UempPlugin.Lib

/-! ## What a token prints -/

/-- No token prints this character: it is no letter, no digit and no sign. -/
structure Silent (c : Char) : Prop where
  digit : c.isDigit = false
  alpha : c.isAlpha = false
  minus : c ≠ '-'

theorem silent_dot : Silent '.' := ⟨by decide, by decide, by decide⟩

theorem silent_sep : Silent sep := ⟨by decide, by decide, by decide⟩

variable {c : Char}

theorem Silent.notMem_toStr (hc : Silent c) (n : Nat) : c ∉ toStr n := by
  intro h
  have hdigit := isDigit_toStr h
  rw [hc.digit] at hdigit
  cases hdigit

theorem Silent.notMem_zeros (hc : Silent c) (n : Nat) : c ∉ List.replicate n '0' := by
  intro h
  have hdigit := hc.digit
  rw [(List.mem_replicate.1 h).2] at hdigit
  exact absurd hdigit (by decide)

theorem Silent.notMem_intText (hc : Silent c) (v : Int) : c ∉ intText v := by
  rw [intText]
  split
  · intro h
    rcases List.mem_cons.1 h with h | h
    · exact hc.minus h
    · exact hc.notMem_toStr _ h
  · exact hc.notMem_toStr _

theorem Silent.notMem_appendInt (hc : Silent c) (v : Int) (width : Nat) :
    c ∉ appendInt v width := by
  intro h
  rcases List.mem_append.1 h with h | h
  · exact hc.notMem_zeros _ h
  · exact hc.notMem_intText v h

theorem Silent.notMem_entry (hc : Silent c) {table : List String}
    (ht : ∀ name ∈ table, name.toList.all Char.isAlpha) (i : Int) : c ∉ entry table i := by
  intro h
  rw [entry, List.getD_eq_getElem?_getD] at h
  cases hname : table[i.toNat]? with
  | none =>
      rw [hname] at h
      exact absurd h (by simp)
  | some name =>
      rw [hname] at h
      have hall := List.all_eq_true.1 (ht name (List.mem_of_getElem? hname)) c h
      rw [hc.alpha] at hall
      cases hall

theorem Silent.formatRun_cases (hc : Silent c) (p : LocalDateTimeParts) (ch : Char) (n : Nat) :
    ch.isAlpha ∧ c ∉ formatRun p ch n ∨ formatRun p ch n = List.replicate n ch := by
  have hint := hc.notMem_appendInt
  unfold formatRun
  simp only
  split
  · refine .inl ⟨by decide, ?_⟩
    split
    · exact hint _ _
    · split <;> exact hint _ _
  · refine .inl ⟨by decide, ?_⟩
    split
    · exact hint _ _
    · split
      · exact hint _ _
      · split <;> exact hc.notMem_entry (by decide) _
  · refine .inl ⟨by decide, ?_⟩
    split
    · exact hint _ _
    · split
      · exact hint _ _
      · split <;> exact hc.notMem_entry (by decide) _
  · exact .inl ⟨by decide, by split <;> exact hint _ _⟩
  · exact .inl ⟨by decide, by split <;> exact hint _ _⟩
  · exact .inl ⟨by decide, by split <;> exact hint _ _⟩
  · exact .inl ⟨by decide, by split <;> exact hint _ _⟩
  · refine .inl ⟨by decide, ?_⟩
    split
    · exact hint _ _
    · split <;> exact hint _ _
  · exact .inr rfl

theorem Silent.count_formatRun (hc : Silent c) (p : LocalDateTimeParts) (ch : Char) (n : Nat) :
    (formatRun p ch n).count c = if ch = c then n else 0 := by
  rcases hc.formatRun_cases p ch n with ⟨hch, hout⟩ | hout
  · have hne : ch ≠ c := by
      rintro rfl
      rw [hc.alpha] at hch
      cases hch
    rw [List.count_eq_zero_of_not_mem hout, if_neg hne]
  · rw [hout, List.count_replicate]
    simp only [beq_iff_eq]

theorem Silent.count_ampm (hc : Silent c) (p : LocalDateTimeParts) (upper : Bool) :
    (ampm p upper).count c = 0 := by
  refine List.count_eq_zero_of_not_mem fun h => ?_
  have hall : (ampm p upper).all Char.isAlpha = true := by
    rw [ampm]
    split <;> split <;> decide
  have := List.all_eq_true.1 hall c h
  rw [hc.alpha] at this
  cases this

/-! ## What a format prints -/

/-- At any two instants a format prints equally many. -/
theorem Silent.count_formatLoop (hc : Silent c) (p q : LocalDateTimeParts) :
    ∀ (k : Nat) (inQuote : Bool) (fmt : Text),
      (formatLoop p k inQuote fmt).count c = (formatLoop q k inQuote fmt).count c := by
  intro k
  induction k with
  | zero => intro inQuote fmt; rfl
  | succ k ih =>
      intro inQuote fmt
      cases fmt with
      | nil => rfl
      | cons ch rest =>
          rw [formatLoop, formatLoop]
          split
          · split
            · rw [List.count_cons, List.count_cons, ih]
            · exact ih _ _
          · split
            · rw [List.count_cons, List.count_cons, ih]
            · split
              · rw [List.count_append, List.count_append, hc.count_ampm, hc.count_ampm, ih]
              · rw [List.count_append, List.count_append, hc.count_formatRun,
                  hc.count_formatRun, ih]

/-- What is printed was in the format. -/
theorem Silent.notMem_formatLoop (hc : Silent c) (p : LocalDateTimeParts) :
    ∀ (k : Nat) (inQuote : Bool) (fmt : Text), c ∉ fmt → c ∉ formatLoop p k inQuote fmt := by
  intro k
  induction k with
  | zero => intro inQuote fmt _ h; cases h
  | succ k ih =>
      intro inQuote fmt hfmt
      cases fmt with
      | nil => exact List.not_mem_nil
      | cons ch rest =>
          have hch : c ≠ ch := fun he => hfmt (he ▸ List.mem_cons_self)
          have hrest : c ∉ rest := fun hm => hfmt (List.mem_cons_of_mem _ hm)
          have hdrop : ∀ n, c ∉ rest.drop n := fun n hm => hrest (List.mem_of_mem_drop hm)
          rw [formatLoop]
          split
          · next hquote =>
              split
              · exact List.not_mem_cons_of_ne_of_not_mem (hquote ▸ hch) (ih _ _ (hdrop 1))
              · exact ih _ _ hrest
          · split
            · exact List.not_mem_cons_of_ne_of_not_mem hch (ih _ _ hrest)
            · split
              · exact List.not_mem_append (List.count_eq_zero.1 (hc.count_ampm p _))
                  (ih _ _ (hdrop 1))
              · refine List.not_mem_append (List.count_eq_zero.1 ?_) (ih _ _ (hdrop _))
                rw [hc.count_formatRun, if_neg (Ne.symm hch)]

variable {a : DailyArgs} {zone : Zone}

theorem Silent.count_basenameAt (hc : Silent c) (t u : Int) :
    (a.basenameAt zone t).count c = (a.basenameAt zone u).count c := by
  rw [DailyArgs.basenameAt, DailyArgs.basenameAt, makeBasename, makeBasename]
  exact count_replaceAll (hc.count_formatLoop _ _ _ _ _)

theorem Silent.notMem_basenameAt (hc : Silent c) (hp : c ∉ a.namePattern)
    (hf : c ∉ a.dateFormat) (t : Int) : c ∉ a.basenameAt zone t := by
  intro h
  rw [DailyArgs.basenameAt, makeBasename] at h
  rcases mem_replaceAll h with h | h
  · exact hp h
  · exact hc.notMem_formatLoop _ _ _ _ hf h

/-! ## The names of a group -/

/-- The names behind `chainPath`. -/
def slotName (stem : Text) : Nat → Text
  | 0 => stem ++ extension
  | k + 1 => stem ++ '.' :: toStr (k + 1) ++ extension

theorem chainPath_eq (dir stem : Text) (k : Nat) :
    chainPath dir stem k = joinPath dir (slotName stem k) := by
  cases k <;> rfl

theorem notMem_slotName (hc : Silent c) (hdot : c ≠ '.') {stem : Text} (h : c ∉ stem) (k : Nat) :
    c ∉ slotName stem k := by
  have hext : c ∉ extension := by
    intro hm
    rcases List.mem_cons.1 hm with hm | hm
    · exact hdot hm
    · have hall : ['l', 'o', 'g'].all Char.isAlpha = true := by decide
      have := List.all_eq_true.1 hall c hm
      rw [hc.alpha] at this
      cases this
  cases k with
  | zero => exact List.not_mem_append h hext
  | succ k =>
      refine List.not_mem_append (List.not_mem_append h ?_) hext
      exact List.not_mem_cons_of_ne_of_not_mem hdot (hc.notMem_toStr _)

/-- A name without separators is what the path ends in. -/
theorem joinPath_plain {dir x y : Text} (hx : sep ∉ x) (hy : sep ∉ y)
    (h : joinPath dir x = joinPath dir y) : x = y := by
  have hhead : ∀ {z : Text}, sep ∉ z → z.head? ≠ some sep := by
    intro z hz he
    exact hz (List.mem_of_head? he)
  simp only [joinPath, hhead hx, hhead hy, false_or] at h
  split at h
  · exact h
  · split at h
    · exact List.append_cancel_left h
    · exact (List.cons_inj_right _).1 (List.append_cancel_left h)

theorem count_slotName (stem : Text) (k : Nat) :
    (slotName stem k).count '.' = stem.count '.' + (if k = 0 then 1 else 2) := by
  have hext : extension.count '.' = 1 := by decide
  cases k with
  | zero => rw [slotName, List.count_append, hext, if_pos rfl]
  | succ k =>
      have hnum := List.count_eq_zero_of_not_mem (silent_dot.notMem_toStr (k + 1))
      rw [slotName, List.count_append, List.count_append, List.count_cons_self, hnum, hext,
        if_neg (by omega)]

/-- Base names with equally many dots share no file name. -/
theorem slotName_stem {stem stem' : Text} {i j : Nat} (hdots : stem.count '.' = stem'.count '.')
    (h : slotName stem i = slotName stem' j) : stem = stem' := by
  have hcount := congrArg (List.count '.') h
  rw [count_slotName, count_slotName, hdots] at hcount
  match i, j with
  | 0, 0 => exact List.append_cancel_right h
  | 0, j + 1 => simp at hcount
  | i + 1, 0 => simp at hcount
  | i + 1, j + 1 =>
      -- what stands behind the last dot is a number
      have hback := congrArg List.reverse (List.append_cancel_right h)
      rw [List.reverse_append, List.reverse_append, List.reverse_cons, List.reverse_cons,
        List.append_assoc, List.append_assoc] at hback
      have hnum : ∀ n, '.' ∉ (toStr n).reverse := fun n hm =>
        silent_dot.notMem_toStr n (List.mem_reverse.1 hm)
      exact List.reverse_inj.1 (split_first (hnum _) (hnum _) hback).2

/-- Different base names of one sink share no file name. -/
theorem chainPath_basename (hp : sep ∉ a.namePattern) (hf : sep ∉ a.dateFormat) {t u : Int}
    {i j : Nat}
    (h : chainPath a.dir (a.basenameAt zone t) i = chainPath a.dir (a.basenameAt zone u) j) :
    a.basenameAt zone t = a.basenameAt zone u := by
  rw [chainPath_eq, chainPath_eq] at h
  have hplain : ∀ t k, sep ∉ slotName (a.basenameAt zone t) k := fun t k =>
    notMem_slotName silent_sep (by decide) (silent_sep.notMem_basenameAt hp hf t) k
  exact slotName_stem (silent_dot.count_basenameAt t u)
    (joinPath_plain (hplain t i) (hplain u j) h)

/-! ## The files a call touches -/

/-- `file_helper::open` touches the file it opens. -/
theorem openFile_other {p q : Path} (h : q ≠ p) (d : Disk Path) :
    (openFile p d).2.files q = d.files q := by
  have hloop : ∀ (n : Nat) (d : Disk Path), (openLoop p n d).2.files q = d.files q := by
    intro n
    induction n with
    | zero => intro d; rfl
    | succ n ih =>
        intro d
        have hopen := Disk.fopen_other (d.mkdirs (parentPath p)) h
        rw [openLoop]
        split
        · next d' he =>
            rw [he] at hopen
            exact hopen
        · next d' he =>
            rw [he] at hopen
            rw [ih]
            exact hopen
  exact hloop openTries d

namespace DailySink

/-- A handle is that of the current group's base file. -/
def Held (a : DailyArgs) (s : DailySink) : Prop :=
  ∀ p, s.fd = some p → p = a.basePath s.currentBasename

/-- From `s` to `s'` only files of the current group were touched. -/
structure Within (a : DailyArgs) (s s' : DailySink) : Prop where
  basename : s'.currentBasename = s.currentBasename
  held : Held a s → Held a s'
  files : Held a s → ∀ p, (∀ k, p ≠ chainPath a.dir s.currentBasename k) →
    s'.disk.files p = s.disk.files p

theorem Within.refl (s : DailySink) : Within a s s := ⟨rfl, id, fun _ _ _ => rfl⟩

theorem Within.trans {s s' s'' : DailySink} (h : Within a s s') (h' : Within a s' s'') :
    Within a s s'' := by
  refine ⟨h'.basename.trans h.basename, fun hs => h'.held (h.held hs), fun hs p hp => ?_⟩
  have hp' : ∀ k, p ≠ chainPath a.dir s'.currentBasename k := by
    rw [h.basename]
    exact hp
  rw [h'.files (h.held hs) p hp', h.files hs p hp]

theorem held_of_closed {s : DailySink} (h : s.fd = none) : Held a s := by
  intro p hp
  rw [h] at hp
  cases hp

theorem shiftChain_other {b : Text} {p : Path} (hp : ∀ k, p ≠ chainPath a.dir b k) :
    ∀ (i : Nat) (d : Disk Path), (shiftChain a b i d).files p = d.files p := by
  intro i
  induction i with
  | zero => intro d; rfl
  | succ i ih =>
      intro d
      cases i with
      | zero => rfl
      | succ i =>
          rw [shiftChain, ih]
          exact Disk.moveOver_other d (hp (i + 1)) (hp (i + 2))

theorem rotateBySizeChain_within (s : DailySink) : Within a s (rotateBySizeChain a s) := by
  rw [rotateBySizeChain]
  split
  · exact Within.refl s
  · next hN =>
      refine ⟨rfl, fun _ => held_of_closed rfl, fun _ p hp => ?_⟩
      obtain ⟨n, hn⟩ := Nat.exists_eq_succ_of_ne_zero hN
      have hlast : p ≠ a.rotatedPath s.currentBasename a.maxFiles := by
        rw [hn]
        exact hp (n + 1)
      have hbase : p ≠ a.basePath s.currentBasename := hp 0
      have hfirst : p ≠ a.rotatedPath s.currentBasename 1 := hp 1
      simp only
      rw [Disk.moveOver_other _ hbase hfirst, shiftChain_other hp, Disk.unlink_other _ hlast]

theorem rotateOnFirstWrite_within (s : DailySink) : Within a s (rotateOnFirstWrite a s) := by
  have hmark : ∀ {s' : DailySink}, Within a s s' →
      Within a s { s' with rotatedOnOpenDone := true } :=
    fun h => ⟨h.basename, h.held, h.files⟩
  rw [rotateOnFirstWrite]
  split
  · exact Within.refl s
  · split
    · have hd := stat_files (a.basePath s.currentBasename) s.disk
      cases hs : s.disk.stat (a.basePath s.currentBasename) with
      | mk found d =>
          rw [hs] at hd
          have hstat : Within a s { s with disk := d } :=
            ⟨rfl, id, fun _ p _ => congrFun hd p⟩
          cases found with
          | true => exact hmark (hstat.trans (rotateBySizeChain_within _))
          | false => exact hmark hstat
    · exact hmark (Within.refl s)

theorem ensureOpenedForWrite_within : Leads (Within a) (ensureOpenedForWrite a) := by
  intro s
  rw [ensureOpenedForWrite]
  split
  · exact Within.refl s
  · have hopen : ∀ p, (∀ k, p ≠ chainPath a.dir s.currentBasename k) →
        (openFile (a.basePath s.currentBasename) s.disk).2.files p = s.disk.files p :=
      fun p hp => openFile_other (hp 0) s.disk
    simp only
    cases he : openFile (a.basePath s.currentBasename) s.disk with
    | mk ok d =>
        rw [he] at hopen
        cases ok with
        | false => exact ⟨rfl, fun _ => held_of_closed rfl, fun _ => hopen⟩
        | true =>
            have hsize : (fileSize (some (a.basePath s.currentBasename)) d).2.files = d.files := by
              rw [fileSize]
              split <;> rfl
            have hfd : ∀ p, some (a.basePath s.currentBasename) = some p →
                p = a.basePath s.currentBasename := fun p hp => (Option.some.inj hp).symm
            simp only
            cases hsz : fileSize (some (a.basePath s.currentBasename)) d with
            | mk size d' =>
                rw [hsz] at hsize
                have hfiles : ∀ p, (∀ k, p ≠ chainPath a.dir s.currentBasename k) →
                    d'.files p = s.disk.files p :=
                  fun p hp => (congrFun hsize p).trans (hopen p hp)
                cases size with
                | none => exact ⟨rfl, fun _ => hfd, fun _ => hfiles⟩
                | some n => exact ⟨rfl, fun _ => hfd, fun _ => hfiles⟩

theorem rotateBeforeWrite_within (msg : Bytes) : Leads (Within a) (rotateBeforeWrite a msg) := by
  intro s
  rw [rotateBeforeWrite]
  split
  · exact (rotateBySizeChain_within s).trans (ensureOpenedForWrite_within _)
  · exact Within.refl s

theorem writeMessage_within (msg : Bytes) : Leads (Within a) (writeMessage msg) := by
  intro s
  have hwrite : Held a s → ∀ p, (∀ k, p ≠ chainPath a.dir s.currentBasename k) →
      (writeFile s.fd msg s.disk).2.files p = s.disk.files p := by
    intro hs p hp
    cases hfd : s.fd with
    | none => rfl
    | some q =>
        have hq : p ≠ q := by
          rw [hs q hfd]
          exact hp 0
        exact Disk.fwrite_other s.disk msg hq
  rw [writeMessage]
  cases hw : writeFile s.fd msg s.disk with
  | mk ok d =>
      rw [hw] at hwrite
      cases ok with
      | true => exact ⟨rfl, id, hwrite⟩
      | false => exact ⟨rfl, id, hwrite⟩

theorem sinkBody_within (msg : Bytes) : Leads (Within a) (sinkBody a msg) :=
  Leads.bind Within.trans (Leads.modify rotateOnFirstWrite_within) fun _ =>
    Leads.bind Within.trans ensureOpenedForWrite_within fun _ =>
      Leads.bind Within.trans (rotateBeforeWrite_within msg) fun _ => writeMessage_within msg

/-! ## Runs -/

/-- Between two events: the group is that of some reading of the clock, and an
open file is its base file. -/
structure Grouped (a : DailyArgs) (zone : Zone) (s : DailySink) : Prop where
  held : Held a s
  basename : ∃ t, s.currentBasename = a.basenameAt zone t

theorem grouped_start (t0 : Int) (d : Disk Path) : Grouped a zone (start a zone t0 d) :=
  ⟨held_of_closed rfl, t0, rfl⟩

/-- The clock is consulted before any file is touched. -/
theorem grouped_clock {s : DailySink} (h : Grouped a zone s) (now : Int) :
    Grouped a zone (rotateIfNeededByTime a zone now s) ∧
      (rotateIfNeededByTime a zone now s).disk = s.disk := by
  rw [rotateIfNeededByTime]
  split
  · exact ⟨h, rfl⟩
  · exact ⟨⟨held_of_closed rfl, now, rfl⟩, rfl⟩

/-- An event touches only files of the group it leaves the sink in. -/
theorem step_grouped {s : DailySink} (h : Grouped a zone s) (e : Event) :
    Grouped a zone (step a zone s e) ∧
      ∀ p, (∀ k, p ≠ chainPath a.dir (step a zone s e).currentBasename k) →
        (step a zone s e).disk.files p = s.disk.files p := by
  cases e with
  | restart now => exact ⟨grouped_start now _, fun _ _ => rfl⟩
  | log now msg =>
      obtain ⟨hclock, hdisk⟩ := grouped_clock h now
      obtain ⟨t, ht⟩ := hclock.basename
      have hstep : step a zone s (.log now msg) =
          final (sinkBody a msg (rotateIfNeededByTime a zone now s)) := by
        rw [step, sinkIt_eq]
        cases sinkBody a msg (rotateIfNeededByTime a zone now s) <;> rfl
      have hbody := sinkBody_within (a := a) msg (rotateIfNeededByTime a zone now s)
      rw [hstep]
      refine ⟨⟨hbody.held hclock.held, t, hbody.basename.trans ht⟩, fun p hp => ?_⟩
      rw [hbody.basename] at hp
      rw [hbody.files hclock.held p hp, hdisk]

variable (a zone) in
theorem run_grouped (t0 : Int) (d : Disk Path) (evs : List Event) :
    Grouped a zone (run a zone (start a zone t0 d) evs) := by
  induction evs using List.reverseRecOn with
  | nil => exact grouped_start t0 d
  | append_singleton evs e ih =>
      rw [run_concat]
      exact (step_grouped ih e).1

/-- The groups of two base names share no file name; so in every run, however
its calls fail, an event leaves every file of every other group alone. -/
theorem groups_isolated (a : DailyArgs) (zone : Zone) (hp : sep ∉ a.namePattern)
    (hf : sep ∉ a.dateFormat) :
    (∀ t u, a.basenameAt zone t ≠ a.basenameAt zone u → ∀ i j,
      chainPath a.dir (a.basenameAt zone t) i ≠ chainPath a.dir (a.basenameAt zone u) j) ∧
    ∀ (t0 : Int) (d : Disk Path) (evs : List Event) (e : Event) (t : Int),
      a.basenameAt zone t ≠ (run a zone (start a zone t0 d) (evs ++ [e])).currentBasename →
      ∀ k, (run a zone (start a zone t0 d) (evs ++ [e])).disk.files
          (chainPath a.dir (a.basenameAt zone t) k) =
        (run a zone (start a zone t0 d) evs).disk.files
          (chainPath a.dir (a.basenameAt zone t) k) := by
  refine ⟨fun t u hne i j h => hne (chainPath_basename hp hf h), ?_⟩
  intro t0 d evs e t hne k
  rw [run_concat] at hne ⊢
  obtain ⟨hnext, hother⟩ := step_grouped (run_grouped a zone t0 d evs) e
  obtain ⟨u, hu⟩ := hnext.basename
  refine hother _ fun j h => hne ?_
  rw [hu] at h ⊢
  exact chainPath_basename hp hf h

/-- A sink that names its files after the date. -/
def datedArgs : DailyArgs where
  dir := ['d']
  namePattern := datedPattern
  dateFormat := datedFormat
  rotationHour := 0
  rotationMin := 0
  maxSizeBits := 64
  maxFiles := 2

theorem groups_isolated_dated :
    datedArgs.basenameAt (Zone.fixed 0) 0 ≠
      datedArgs.basenameAt (Zone.fixed 0) (hours 24) ∧
    ∀ i j, chainPath ['d'] (datedArgs.basenameAt (Zone.fixed 0) 0) i ≠
      chainPath ['d'] (datedArgs.basenameAt (Zone.fixed 0) (hours 24)) j := by
  have hne : datedArgs.basenameAt (Zone.fixed 0) 0 ≠
      datedArgs.basenameAt (Zone.fixed 0) (hours 24) := by decide +kernel
  exact ⟨hne, (groups_isolated datedArgs (Zone.fixed 0) (by decide) (by decide)).1 _ _ hne⟩

end DailySink

end UempPlugin.Ref
