import UempPlugin.Ref.DailySize

/-!
# A name that tells dates apart

The sink keeps the text of different dates apart when its pattern names them
differently. There are patterns that do: one that puts year, month and day
behind a letter, separated by underscores, which no number contains.
-/

namespace UempPlugin.Ref

open UempPlugin.Lib

/-! ## Numbers as text -/

theorem intText_underscore (v : Int) : '_' ∉ intText v := by
  rw [intText]
  split
  · intro h
    rcases List.mem_cons.1 h with h | h
    · exact absurd h (by decide)
    · exact Nat.underscore_not_in_toDigits h
  · exact Nat.underscore_not_in_toDigits

theorem minus_notMem_toStr (n : Nat) : '-' ∉ toStr n := by
  intro h
  exact absurd (isDigit_toStr h) (by decide)

theorem intText_injective {v w : Int} (h : intText v = intText w) : v = w := by
  simp only [intText] at h
  split at h
  · next hv =>
      split at h
      · next hw =>
          have := toStr_injective (List.cons.inj h).2
          omega
      · exact absurd (h ▸ List.mem_cons_self) (minus_notMem_toStr w.natAbs)
  · next hv =>
      split at h
      · exact absurd (h ▸ List.mem_cons_self) (minus_notMem_toStr v.natAbs)
      · next hw =>
          have := toStr_injective h
          omega

theorem appendInt_zero (v : Int) : appendInt v 0 = intText v := by
  rw [appendInt, Nat.zero_sub]
  rfl

/-- A text is cut at the first `c` in one way only. -/
theorem split_first {c : Char} {y y' : Text} :
    ∀ {x x' : Text}, c ∉ x → c ∉ x' → x ++ c :: y = x' ++ c :: y' → x = x' ∧ y = y' := by
  intro x
  induction x with
  | nil =>
      intro x' _ hx' h
      match x' with
      | [] => exact ⟨rfl, (List.cons.inj h).2⟩
      | e :: x' => exact absurd ((List.cons.inj h).1 ▸ List.mem_cons_self) hx'
  | cons e x ih =>
      intro x' hx hx' h
      match x' with
      | [] => exact absurd ((List.cons.inj h).1.symm ▸ List.mem_cons_self) hx
      | e' :: x' =>
          obtain ⟨he, hrest⟩ := List.cons.inj h
          obtain ⟨h1, h2⟩ := ih (fun hm => hx (List.mem_cons_of_mem _ hm))
            (fun hm => hx' (List.mem_cons_of_mem _ hm)) hrest
          exact ⟨by rw [he, h1], h2⟩

/-! ## The pattern -/

/-- Nothing is found behind the end. -/
theorem find_end (s : Text) {pat : Text} (hpat : pat ≠ []) : find s pat s.length = none := by
  refine List.find?_eq_none.2 fun i hi h => ?_
  have hlt := List.mem_range.1 hi
  simp only [Bool.and_eq_true, decide_eq_true_eq] at h
  rw [show i = s.length by omega, List.drop_length] at h
  exact hpat (List.prefix_nil.1 (List.isPrefixOf_iff_prefix.1 h.2))

def datedPattern : Text := "a{date}".toList

def datedFormat : Text := "y_M_d".toList

theorem replaceAll_dated (x : Text) : replaceAll datedPattern datePlaceholder x = 'a' :: x := by
  have hfirst : find datedPattern datePlaceholder 0 = some 1 := by decide
  have hsecond : find ('a' :: x) datePlaceholder (x.length + 1) = none :=
    find_end ('a' :: x) (by decide)
  have htext : datedPattern.take 1 ++ x ++ datedPattern.drop (1 + datePlaceholder.length) =
      'a' :: x := by
    rw [show datedPattern.drop (1 + datePlaceholder.length) = [] by decide, List.append_nil]
    rfl
  rw [replaceAll, if_neg (by decide), show datedPattern.length + 1 = 8 by decide, replaceLoop,
    hfirst]
  simp only [htext]
  rw [replaceLoop, Nat.add_comm, hsecond]

theorem format_dated (zone : Zone) (t : Int) :
    qtDatetimeFormatSubset zone t datedFormat =
      intText ((zone.localtime (toTimeT t)).year + 1900) ++ '_' ::
        (intText ((zone.localtime (toTimeT t)).mon + 1) ++ '_' ::
          intText (zone.localtime (toTimeT t)).mday) := by
  have hscan : qtDatetimeFormatSubset zone t datedFormat =
      appendInt ((zone.localtime (toTimeT t)).year + 1900) 0 ++ (['_'] ++
        (appendInt ((zone.localtime (toTimeT t)).mon + 1) 0 ++ (['_'] ++
          (appendInt (zone.localtime (toTimeT t)).mday 0 ++ [])))) := rfl
  rw [hscan, appendInt_zero, appendInt_zero, appendInt_zero, List.append_nil]
  rfl

/-- Under this pattern the same base file means the same date. -/
theorem dated_names {a : DailyArgs} (hp : a.namePattern = datedPattern)
    (hf : a.dateFormat = datedFormat) (zone : Zone) {t u : Int}
    (h : a.basePath (a.basenameAt zone t) = a.basePath (a.basenameAt zone u)) :
    (zone.localtime (toTimeT t)).year = (zone.localtime (toTimeT u)).year ∧
      (zone.localtime (toTimeT t)).mon = (zone.localtime (toTimeT u)).mon ∧
      (zone.localtime (toTimeT t)).mday = (zone.localtime (toTimeT u)).mday := by
  rw [DailyArgs.basenameAt, DailyArgs.basenameAt, makeBasename, makeBasename, hp, hf,
    replaceAll_dated, replaceAll_dated, DailyArgs.basePath, DailyArgs.basePath, logPath,
    logPath] at h
  have hhead : ∀ x y : Text, ('a' :: x ++ extension).head? = ('a' :: y ++ extension).head? :=
    fun _ _ => rfl
  have hname := joinPath_injective (hhead _ _) h
  have hdate := (List.cons.inj (List.append_cancel_right hname)).2
  rw [format_dated, format_dated] at hdate
  obtain ⟨hy, hrest⟩ := split_first (intText_underscore _) (intText_underscore _) hdate
  obtain ⟨hm, hd⟩ := split_first (intText_underscore _) (intText_underscore _) hrest
  have hyear := intText_injective hy
  have hmon := intText_injective hm
  exact ⟨by omega, by omega, intText_injective hd⟩

end UempPlugin.Ref
