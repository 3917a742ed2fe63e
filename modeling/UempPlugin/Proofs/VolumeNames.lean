import Mathlib.Data.List.TakeWhile
import UempPlugin.Proofs.DateGroups
import UempPlugin.Ref.DailyCountRotating

/-!
# The names of the files of a day

`make_filename_` names an index of a day, and `extract_index_` reads it off the
name again. Dates are of one length, so no name belongs to two days. A folder
whose files of a day all bear such names is scanned without a throw, and the
list that comes of it is the list of the indices in increasing order.
-/

namespace UempPlugin.Ref

open UempPlugin.Lib

/-! ## Paths -/

theorem filename_append {dir name : Text} (hname : sep ∉ name)
    (hdir : dir = [] ∨ dir.getLast? = some sep) : filename (dir ++ name) = name := by
  have hfront : (name.reverse).takeWhile (· ≠ sep) = name.reverse :=
    List.takeWhile_eq_self_iff.2 fun c hc =>
      decide_eq_true fun h => hname (h ▸ List.mem_reverse.1 hc)
  have hback : (dir.reverse).takeWhile (· ≠ sep) = [] := by
    rcases hdir with rfl | hlast
    · rfl
    · rw [← List.head?_reverse] at hlast
      cases hrev : dir.reverse with
      | nil => rfl
      | cons c rest =>
          rw [hrev, List.head?_cons, Option.some_inj] at hlast
          rw [List.takeWhile_cons_of_neg (by simp [hlast])]
  rw [filename, List.reverse_append, List.takeWhile_append, hfront, if_pos rfl, hback,
    List.append_nil, List.reverse_reverse]

theorem filename_joinPath {dir name : Text} (hname : sep ∉ name) :
    filename (joinPath dir name) = name := by
  rw [joinPath]
  split
  · have hwhole := filename_append hname (.inl (rfl : ([] : Text) = []))
    exact hwhole
  · split
    · next hlast => exact filename_append hname (.inr hlast)
    · have hsplit : dir ++ sep :: name = (dir ++ [sep]) ++ name := by
        rw [List.append_assoc, List.singleton_append]
      rw [hsplit]
      exact filename_append hname (.inr (by rw [List.getLast?_append]; rfl))

theorem joinPath_inj {dir x y : Text} (hx : sep ∉ x) (hy : sep ∉ y)
    (h : joinPath dir x = joinPath dir y) : x = y := by
  have hname : filename (joinPath dir x) = x := filename_joinPath hx
  rw [← hname, h, filename_joinPath hy]

theorem sep_notMem_filename (p : Path) : sep ∉ filename p := by
  rw [filename, List.mem_reverse]
  intro h
  have hne := List.mem_takeWhile_imp h
  exact of_decide_eq_true hne rfl

/-! ## Dates -/

theorem le_length_printfInt (width : Nat) (v : Int) : width ≤ (printfInt width v).length := by
  simp only [printfInt]
  split
  · rw [List.length_cons, List.length_append, List.length_replicate]
    omega
  · rw [List.length_append, List.length_replicate]
    omega

theorem length_localDate (tm : Tm) : (localDateYyyyMmDd tm).length = 10 := by
  have hyear := le_length_printfInt 4 (tm.year + 1900)
  have hmonth := le_length_printfInt 2 (tm.mon + 1)
  have hday := le_length_printfInt 2 tm.mday
  rw [localDateYyyyMmDd, List.length_take, List.length_append, List.length_append,
    List.length_cons, List.length_cons]
  omega

theorem Silent.notMem_printfInt {c : Char} (hc : Silent c) (width : Nat) (v : Int) :
    c ∉ printfInt width v := by
  simp only [printfInt]
  split
  · intro h
    rcases List.mem_cons.1 h with h | h
    · exact hc.minus h
    · rcases List.mem_append.1 h with h | h
      · exact hc.notMem_zeros _ h
      · exact hc.notMem_toStr _ h
  · intro h
    rcases List.mem_append.1 h with h | h
    · exact hc.notMem_zeros _ h
    · exact hc.notMem_toStr _ h

theorem sep_notMem_localDate (tm : Tm) : sep ∉ localDateYyyyMmDd tm := by
  intro h
  rcases List.mem_append.1 (List.mem_of_mem_take h) with h | h
  · rcases List.mem_append.1 h with h | h
    · exact silent_sep.notMem_printfInt _ _ h
    · rcases List.mem_cons.1 h with h | h
      · exact silent_sep.minus h
      · exact silent_sep.notMem_printfInt _ _ h
  · rcases List.mem_cons.1 h with h | h
    · exact silent_sep.minus h
    · exact silent_sep.notMem_printfInt _ _ h

/-! ## Numbers -/

theorem isSpace_of_isDigit {c : Char} (hc : c.isDigit = true) : isSpace c = false := by
  rw [← Bool.not_eq_true]
  intro hspace
  simp only [isSpace, Bool.or_eq_true, decide_eq_true_eq] at hspace
  rcases hspace with ((((rfl | rfl) | rfl) | rfl) | rfl) | rfl <;> exact absurd hc (by decide)

theorem stoull_toStr {n : Nat} (hn : n < wordSize) : stoull (toStr n) = .ok n := by
  have hdigits : (toStr n).takeWhile Char.isDigit = toStr n :=
    List.takeWhile_eq_self_iff.2 fun c hc => isDigit_toStr hc
  have hne : toStr n ≠ [] := Nat.toDigits_ne_nil
  obtain ⟨c, rest, hcons⟩ := List.exists_cons_of_ne_nil hne
  have hc : c.isDigit = true := isDigit_toStr (hcons ▸ List.mem_cons_self)
  have hspace : (toStr n).dropWhile isSpace = toStr n := by
    rw [hcons, List.dropWhile_cons_of_neg (by simp [isSpace_of_isDigit hc])]
  have hminus : (toStr n).head? ≠ some '-' := by
    rw [hcons, List.head?_cons, Ne, Option.some_inj]
    rintro rfl
    exact absurd hc (by decide)
  have hplus : (toStr n).head? ≠ some '+' := by
    rw [hcons, List.head?_cons, Ne, Option.some_inj]
    rintro rfl
    exact absurd hc (by decide)
  have hvalue : Nat.ofDigitChars 10 (toStr n) 0 = n := Nat.ofDigitChars_ten_toDigits
  simp only [stoull, hspace]
  rw [if_neg (not_or.2 ⟨hminus, hplus⟩), hdigits, hvalue, if_neg hne, if_neg (Nat.not_le.2 hn),
    if_neg hminus]

/-! ## Names of a day -/

namespace DailyCountArgs

variable (a : DailyCountArgs)

theorem sep_notMem_stem : sep ∉ a.stem := by
  rw [stem]
  split
  · exact fun h => sep_notMem_filename _ (List.mem_of_mem_take h)
  · exact sep_notMem_filename _

theorem makeFilename_split (date : Text) (i : Nat) :
    ∃ tail, a.makeFilename date i = a.stem ++ '_' :: (date ++ '.' :: tail) ∧ sep ∉ tail := by
  rw [makeFilename, todayPrefix]
  split
  · exact ⟨['l', 'o', 'g'], by simp [extension], by decide⟩
  · refine ⟨toStr i ++ extension, by simp, fun h => ?_⟩
    rcases List.mem_append.1 h with h | h
    · exact silent_sep.notMem_toStr i h
    · exact absurd h (by decide)

theorem makeFilename_pos (date : Text) {i : Nat} (hi : i ≠ 0) :
    a.makeFilename date i = (a.todayPrefix date ++ ['.']) ++ (toStr i ++ extension) := by
  rw [makeFilename, if_neg hi, List.append_assoc, List.append_assoc, List.singleton_append,
    List.cons_append]

theorem makeFilename_ne_nil (date : Text) (i : Nat) : a.makeFilename date i ≠ [] := by
  obtain ⟨tail, heq, _⟩ := a.makeFilename_split date i
  rw [heq]
  exact List.append_ne_nil_of_right_ne_nil _ (List.cons_ne_nil _ _)

theorem sep_notMem_makeFilename {date : Text} (hdate : sep ∉ date) (i : Nat) :
    sep ∉ a.makeFilename date i := by
  obtain ⟨tail, heq, htail⟩ := a.makeFilename_split date i
  rw [heq]
  intro h
  rcases List.mem_append.1 h with h | h
  · exact a.sep_notMem_stem h
  · rcases List.mem_cons.1 h with h | h
    · exact absurd h (by decide)
    · rcases List.mem_append.1 h with h | h
      · exact hdate h
      · rcases List.mem_cons.1 h with h | h
        · exact absurd h (by decide)
        · exact htail h

theorem isNumbered_makeFilename {date : Text} {i : Nat} (hi : i ≠ 0) :
    a.isNumbered date (a.makeFilename date i) = true := by
  rw [isNumbered, makeFilename, if_neg hi, Bool.and_eq_true, List.isPrefixOf_iff_prefix,
    List.isSuffixOf_iff_suffix]
  constructor
  · exact ⟨toStr i ++ extension, by simp⟩
  · exact ⟨a.todayPrefix date ++ '.' :: toStr i, by simp⟩

theorem isTodays_makeFilename (date : Text) (i : Nat) :
    a.isTodays date (a.makeFilename date i) = true := by
  rw [isTodays, Bool.or_eq_true]
  by_cases hi : i = 0
  · left
    rw [makeFilename, if_pos hi, decide_eq_true_eq]
  · exact .inr (a.isNumbered_makeFilename hi)

/-- A name that is taken for one of a day starts like the names of that day. -/
theorem isTodays_prefix {date name : Text} (h : a.isTodays date name = true) :
    a.todayPrefix date ++ ['.'] <+: name := by
  rw [isTodays, Bool.or_eq_true, decide_eq_true_eq] at h
  rcases h with rfl | h
  · exact ⟨['l', 'o', 'g'], by simp [extension]⟩
  · rw [isNumbered, Bool.and_eq_true, List.isPrefixOf_iff_prefix] at h
    exact h.1

/-- A name belongs to one day. -/
theorem date_unique {date date' : Text} {i : Nat} (hlen : date'.length = date.length)
    (h : a.isTodays date' (a.makeFilename date i) = true) : date' = date := by
  obtain ⟨tail, heq, _⟩ := a.makeFilename_split date i
  obtain ⟨tail', heq'⟩ := a.isTodays_prefix h
  rw [heq, todayPrefix, List.append_assoc, List.append_assoc, List.cons_append] at heq'
  have hrest := (List.cons_inj_right _).1 (List.append_cancel_left heq')
  exact (List.append_inj hrest hlen).1

/-- `extract_index_` undoes `make_filename_`. -/
theorem extractIndex_makeFilename (date : Text) {i : Nat} (hi : i < wordSize) :
    a.extractIndex date (a.makeFilename date i) = .ok i := by
  by_cases hzero : i = 0
  · rw [extractIndex, makeFilename, if_pos hzero, if_pos rfl, hzero]
  · have hname := a.makeFilename_pos date hzero
    have hne : a.makeFilename date i ≠ a.todayPrefix date ++ extension := by
      rw [hname]
      intro h
      have hlen := congrArg List.length h
      simp only [List.length_append, List.length_singleton] at hlen
      omega
    have hcount : (a.makeFilename date i).length - extension.length -
        (a.todayPrefix date ++ ['.']).length = (toStr i).length := by
      simp only [hname, List.length_append]
      omega
    rw [extractIndex, if_neg hne, if_pos (a.isNumbered_makeFilename hzero)]
    simp only [hcount]
    rw [hname, List.drop_left, List.take_left, stoull_toStr hi]

theorem makeFilename_injective (date : Text) {i j : Nat} (hi : i < wordSize) (hj : j < wordSize)
    (h : a.makeFilename date i = a.makeFilename date j) : i = j := by
  have hindex := a.extractIndex_makeFilename date hi
  rw [h, a.extractIndex_makeFilename date hj] at hindex
  exact (Except.ok.inj hindex).symm

theorem makePath_injective {date : Text} (hdate : sep ∉ date) {i j : Nat} (hi : i < wordSize)
    (hj : j < wordSize) (h : a.makePath date i = a.makePath date j) : i = j :=
  a.makeFilename_injective date hi hj
    (joinPath_inj (a.sep_notMem_makeFilename hdate i) (a.sep_notMem_makeFilename hdate j) h)

/-! ## Sorting -/

theorem mapM_extractIndex (date : Text) {is : List Nat} (his : ∀ i ∈ is, i < wordSize) :
    (is.map (a.makeFilename date)).mapM (a.extractIndex date) = .ok is := by
  induction is with
  | nil => rfl
  | cons i is ih =>
      rw [List.map_cons, List.mapM_cons, a.extractIndex_makeFilename date (his i (by simp)),
        ih fun j hj => his j (by simp [hj])]
      rfl

theorem sortByIndex_map (date : Text) {is : List Nat} (his : ∀ i ∈ is, i < wordSize) :
    a.sortByIndex date (is.map (a.makeFilename date)) =
      .ok ((is.insertionSort (· ≤ ·)).map (a.makeFilename date)) := by
  rw [sortByIndex, List.length_map]
  split
  · next hlen =>
      cases is with
      | nil => rfl
      | cons i is =>
          rw [List.length_cons] at hlen
          rw [List.length_eq_zero_iff.1 (Nat.lt_one_iff.1 (Nat.lt_of_succ_lt_succ hlen))]
          rfl
  · have hzip : is.zip (is.map (a.makeFilename date)) =
        is.map fun i => (i, a.makeFilename date i) := by
      have hboth := List.zip_map' (l := is) (f := id) (g := a.makeFilename date)
      rw [List.map_id] at hboth
      exact hboth
    rw [a.mapM_extractIndex date his]
    refine congrArg Except.ok ?_
    rw [hzip, ← List.map_insertionSort (fun i j => i ≤ j) (fun x y => x.1 ≤ y.1)
      (fun i => (i, a.makeFilename date i)) is fun i _ j _ => Iff.rfl, List.map_map]
    rfl

/-! ## Scanning -/

/-- The folder's files of a day all bear names of `make_filename_`. -/
def Named (a : DailyCountArgs) (date : Text) (d : Disk Path) : Prop :=
  ∀ name, sep ∉ name → a.isTodays date name = true → (d.files (joinPath a.dir name)).isSome →
    ∃ i < wordSize, name = a.makeFilename date i

/-- `ls` lists the regular files of the folder, each of them once. -/
structure Lists (a : DailyCountArgs) (d : Disk Path) (ls : List Text) : Prop where
  nodup : ls.Nodup
  mem_iff : ∀ name, name ∈ ls ↔
    name ≠ [] ∧ sep ∉ name ∧ (d.files (joinPath a.dir name)).isSome

/-- Index `i` of the day is in the folder. -/
def Present (a : DailyCountArgs) (date : Text) (d : Disk Path) (i : Nat) : Prop :=
  i < wordSize ∧ (d.files (a.makePath date i)).isSome

variable {a} {date : Text} {d : Disk Path} {ls : List Text}

theorem Lists.mkdirs (h : a.Lists d ls) (p : Path) : a.Lists (d.mkdirs p) ls :=
  ⟨h.nodup, h.mem_iff⟩

/-- The files of the day that a listing has, by index. -/
theorem found_eq_map (hnamed : a.Named date d) (hls : a.Lists d ls) :
    ∃ is : List Nat, ls.filter (a.isTodays date) = is.map (a.makeFilename date) ∧
      ∀ i ∈ is, i < wordSize := by
  have hall : ∀ name ∈ ls.filter (a.isTodays date),
      ∃ i, i < wordSize ∧ name = a.makeFilename date i := by
    intro name hname
    obtain ⟨hmem, htodays⟩ := List.mem_filter.1 hname
    obtain ⟨_, hsep, hsome⟩ := (hls.mem_iff name).1 hmem
    obtain ⟨i, hi, heq⟩ := hnamed name hsep htodays hsome
    exact ⟨i, hi, heq⟩
  generalize ls.filter (a.isTodays date) = names at hall
  induction names with
  | nil => exact ⟨[], rfl, fun i hi => absurd hi List.not_mem_nil⟩
  | cons name names ih =>
      obtain ⟨i, hi, rfl⟩ := hall name List.mem_cons_self
      obtain ⟨is, rfl, his⟩ := ih fun x hx => hall x (List.mem_cons_of_mem _ hx)
      refine ⟨i :: is, rfl, fun j hj => ?_⟩
      rcases List.mem_cons.1 hj with rfl | hj
      · exact hi
      · exact his j hj

theorem mem_found_iff (hdate : sep ∉ date) (hls : a.Lists d ls) (i : Nat) :
    a.makeFilename date i ∈ ls.filter (a.isTodays date) ↔
      (d.files (a.makePath date i)).isSome := by
  rw [List.mem_filter, hls.mem_iff, makePath]
  exact ⟨fun h => h.1.2.2, fun h => ⟨⟨a.makeFilename_ne_nil date i,
    a.sep_notMem_makeFilename hdate i, h⟩, a.isTodays_makeFilename date i⟩⟩

/-- A scan of the folder makes the list of the day's indices, increasing. -/
theorem scan_sorted (hdate : sep ∉ date) (hnamed : a.Named date d) (hls : a.Lists d ls) :
    ∃ is : List Nat, a.sortByIndex date (ls.filter (a.isTodays date)) =
        .ok (is.map (a.makeFilename date)) ∧
      is.Pairwise (· < ·) ∧ ∀ i, i ∈ is ↔ a.Present date d i := by
  obtain ⟨is, hfound, his⟩ := found_eq_map hnamed hls
  have hperm := List.perm_insertionSort (· ≤ ·) is
  refine ⟨is.insertionSort (· ≤ ·), by rw [hfound, a.sortByIndex_map date his], ?_, fun i => ?_⟩
  · have hnodup : is.Nodup := by
      have hfoundNodup := hls.nodup.filter (a.isTodays date)
      rw [hfound] at hfoundNodup
      exact hfoundNodup.of_map
    have hsorted := List.pairwise_insertionSort (· ≤ ·) is
    exact (hsorted.and (hperm.nodup_iff.2 hnodup)).imp fun h => Nat.lt_of_le_of_ne h.1 h.2
  · rw [hperm.mem_iff, Present, ← mem_found_iff hdate hls i, hfound]
    constructor
    · exact fun hi => ⟨his i hi, List.mem_map_of_mem hi⟩
    · rintro ⟨hi, hmem⟩
      obtain ⟨j, hj, heq⟩ := List.mem_map.1 hmem
      exact a.makeFilename_injective date (his j hj) hi heq ▸ hj

end DailyCountArgs

end UempPlugin.Ref
