import UempPlugin.Proofs.ReplaceAll

/-!
# Names that tell every two days apart

A format of the runs `yyyy`, `MM` and `dd` and of literal text is a list of
parts, and the scanning loop writes them one behind the other. Month and day
have two digits on every date; the year has four or more. Two equal names are
equally long, so the years in them are, and then every part begins where it
does in the other name.
-/

namespace UempPlugin.Ref

open UempPlugin.Lib

/-! ## Formats as lists of parts -/

/-- What a date format is made of. -/
inductive DatePart where
  | year
  | month
  | day
  | literal (text : Text)

/-- A run of one letter, or of one character that is no letter. -/
def runPart (c : Char) (n : Nat) : Option DatePart :=
  if c = 'y' then if n = 4 then some .year else none
  else if c = 'M' then if n = 2 then some .month else none
  else if c = 'd' then if n = 2 then some .day else none
  else if c.isAlpha then none
  else some (.literal (List.replicate n c))

/-- The scan of `formatLoop`, for formats that have no other run in them. -/
def partsLoop : Nat → Bool → Text → Option (List DatePart)
  | 0, _, _ => some []
  | _, _, [] => some []
  | k + 1, inQuote, c :: rest =>
      if c = '\'' then
        if rest.head? = some '\'' then
          (partsLoop k inQuote (rest.drop 1)).map (.literal ['\''] :: ·)
        else partsLoop k (!inQuote) rest
      else if inQuote then (partsLoop k inQuote rest).map (.literal [c] :: ·)
      else
        (runPart c (repeats c rest + 1)).bind fun part =>
          (partsLoop k inQuote (rest.drop (repeats c rest))).map (part :: ·)

def dateParts (fmt : Text) : Option (List DatePart) := partsLoop fmt.length false fmt

/-- Outside quotes there are the runs `yyyy`, `MM` and `dd`, each at least once,
and no other letter. -/
def CalendarFormat (fmt : Text) : Prop :=
  ∃ parts, dateParts fmt = some parts ∧
    DatePart.year ∈ parts ∧ DatePart.month ∈ parts ∧ DatePart.day ∈ parts

/-- The fields are those of a calendar date from the year 0 on. -/
structure IsCalendarDate (tm : Tm) : Prop where
  year : 0 ≤ tm.year + 1900
  mon : 0 ≤ tm.mon ∧ tm.mon ≤ 11
  mday : 1 ≤ tm.mday ∧ tm.mday ≤ 31

/-- The text of a part. -/
def DatePart.text (tm : Tm) : DatePart → Text
  | year => appendInt (tm.year + 1900) 4
  | month => appendInt (tm.mon + 1) 2
  | day => appendInt tm.mday 2
  | literal text => text

theorem runPart_text {c : Char} {n : Nat} {part : DatePart} (h : runPart c n = some part)
    (p : LocalDateTimeParts) : formatRun p c n = part.text p.tm ∧ c ≠ 'A' ∧ c ≠ 'a' := by
  rw [runPart] at h
  split at h
  · next hc =>
    subst hc
    split at h
    · next hn =>
      subst hn
      cases h
      exact ⟨rfl, by decide, by decide⟩
    · cases h
  · split at h
    · next hc =>
      subst hc
      split at h
      · next hn =>
        subst hn
        cases h
        exact ⟨rfl, by decide, by decide⟩
      · cases h
    · split at h
      · next hc =>
        subst hc
        split at h
        · next hn =>
          subst hn
          cases h
          exact ⟨rfl, by decide, by decide⟩
        · cases h
      · split at h
        · cases h
        · next halpha =>
          cases h
          refine ⟨?_, ?_, ?_⟩
          · simp only [formatRun]
            split
            any_goals rfl
            all_goals exact absurd (by decide) halpha
          · rintro rfl
            exact halpha (by decide)
          · rintro rfl
            exact halpha (by decide)

theorem formatLoop_parts (p : LocalDateTimeParts) :
    ∀ (k : Nat) (inQuote : Bool) (fmt : Text) (parts : List DatePart),
      partsLoop k inQuote fmt = some parts →
        formatLoop p k inQuote fmt = parts.flatMap (DatePart.text p.tm) := by
  intro k
  induction k with
  | zero =>
      intro inQuote fmt parts h
      cases h
      rfl
  | succ k ih =>
      intro inQuote fmt parts h
      cases fmt with
      | nil =>
          cases h
          rfl
      | cons c rest =>
          rw [partsLoop] at h
          rw [formatLoop]
          by_cases hq : c = '\''
          · rw [if_pos hq] at h ⊢
            by_cases hqq : rest.head? = some '\''
            · rw [if_pos hqq] at h ⊢
              obtain ⟨tail, htail, rfl⟩ := Option.map_eq_some_iff.1 h
              rw [ih _ _ _ htail]
              rfl
            · rw [if_neg hqq] at h ⊢
              exact ih _ _ _ h
          · rw [if_neg hq] at h ⊢
            by_cases hin : inQuote = true
            · rw [if_pos hin] at h ⊢
              obtain ⟨tail, htail, rfl⟩ := Option.map_eq_some_iff.1 h
              rw [ih _ _ _ htail]
              rfl
            · rw [if_neg hin] at h ⊢
              obtain ⟨part, hpart, h⟩ := Option.bind_eq_some_iff.1 h
              obtain ⟨tail, htail, rfl⟩ := Option.map_eq_some_iff.1 h
              obtain ⟨htext, hA, ha⟩ := runPart_text hpart p
              rw [if_neg (by simp [isAmPm, hA, ha]), ih _ _ _ htail, htext]
              rfl

/-! ## Numbers with leading zeros -/

theorem appendInt_nat (n width : Nat) :
    appendInt n width = List.replicate (width - (toStr n).length) '0' ++ toStr n := by
  have hint : intText n = toStr n := by
    rw [intText, if_neg (by omega), Int.natAbs_natCast]
  rw [appendInt, hint]

theorem appendInt_injective {v w : Int} {width : Nat} (hv : 0 ≤ v) (hw : 0 ≤ w)
    (h : appendInt v width = appendInt w width) : v = w := by
  obtain ⟨m, rfl⟩ := Int.eq_ofNat_of_zero_le hv
  obtain ⟨n, rfl⟩ := Int.eq_ofNat_of_zero_le hw
  have hvalue : ∀ n : Nat, Nat.ofDigitChars 10 (appendInt n width) 0 = n := by
    intro n
    rw [appendInt_nat, Nat.ofDigitChars_append, Nat.ofDigitChars_replicate_zero, Nat.mul_zero]
    exact Nat.ofDigitChars_ten_toDigits
  exact congrArg Int.ofNat ((hvalue m).symm.trans ((congrArg (Nat.ofDigitChars 10 · 0) h).trans (hvalue n)))

theorem appendInt_two {v : Int} (h : 0 ≤ v ∧ v < 100) : (appendInt v 2).length = 2 := by
  obtain ⟨n, rfl⟩ := Int.eq_ofNat_of_zero_le h.1
  have hlen : (toStr n).length ≤ 2 :=
    (Nat.length_toDigits_le_iff (by decide) (by decide)).2 (by omega)
  rw [appendInt_nat, List.length_append, List.length_replicate]
  omega

/-! ## Equal texts -/

/-- The width of the year. -/
def yearWidth (tm : Tm) : Nat := (appendInt (tm.year + 1900) 4).length

/-- How long a part is when the year has this width. -/
def DatePart.width (year : Nat) : DatePart → Nat
  | .year => year
  | month => 2
  | day => 2
  | literal text => text.length

def partsWidth (year : Nat) : List DatePart → Nat
  | [] => 0
  | part :: parts => part.width year + partsWidth year parts

theorem DatePart.length_text {tm : Tm} (h : IsCalendarDate tm) (part : DatePart) :
    (part.text tm).length = part.width (yearWidth tm) := by
  obtain ⟨_, hmon, hmday⟩ := h
  cases part with
  | year => rfl
  | month => exact appendInt_two (by omega)
  | day => exact appendInt_two (by omega)
  | literal text => rfl

theorem length_parts {tm : Tm} (h : IsCalendarDate tm) (parts : List DatePart) :
    (parts.flatMap (DatePart.text tm)).length = partsWidth (yearWidth tm) parts := by
  induction parts with
  | nil => rfl
  | cons part parts ih =>
      rw [List.flatMap_cons, List.length_append, part.length_text h, ih, partsWidth]

theorem DatePart.width_mono {v w : Nat} (h : v ≤ w) (part : DatePart) :
    part.width v ≤ part.width w := by
  cases part with
  | year => exact h
  | _ => exact Nat.le_refl _

theorem partsWidth_mono {v w : Nat} (h : v ≤ w) (parts : List DatePart) :
    partsWidth v parts ≤ partsWidth w parts := by
  induction parts with
  | nil => exact Nat.le_refl _
  | cons part parts ih => exact Nat.add_le_add (part.width_mono h) ih

/-- With a year in it, a text is longer when the year is. -/
theorem partsWidth_lt {v w : Nat} (h : v < w) {parts : List DatePart}
    (hyear : DatePart.year ∈ parts) : partsWidth v parts < partsWidth w parts := by
  induction parts with
  | nil => cases hyear
  | cons part parts ih =>
      rcases List.mem_cons.1 hyear with rfl | hmem
      · exact Nat.add_lt_add_of_lt_of_le h (partsWidth_mono (Nat.le_of_lt h) parts)
      · exact Nat.add_lt_add_of_le_of_lt (part.width_mono (Nat.le_of_lt h)) (ih hmem)

theorem partsWidth_injective {v w : Nat} {parts : List DatePart} (hyear : DatePart.year ∈ parts)
    (h : partsWidth v parts = partsWidth w parts) : v = w := by
  rcases Nat.lt_trichotomy v w with hlt | heq | hlt
  · exact absurd h (Nat.ne_of_lt (partsWidth_lt hlt hyear))
  · exact heq
  · exact absurd h.symm (Nat.ne_of_lt (partsWidth_lt hlt hyear))

section Dates

variable {tm tm' : Tm} (h : IsCalendarDate tm) (h' : IsCalendarDate tm')

include h h'

/-- Where the years are equally wide, the texts of the parts stand at the same
places. -/
theorem text_eq_of_width (hwidth : yearWidth tm = yearWidth tm') {parts : List DatePart}
    (htext : parts.flatMap (DatePart.text tm) = parts.flatMap (DatePart.text tm')) :
    ∀ part ∈ parts, part.text tm = part.text tm' := by
  induction parts with
  | nil => nofun
  | cons part parts ih =>
      rw [List.flatMap_cons, List.flatMap_cons] at htext
      have hlength : (part.text tm).length = (part.text tm').length := by
        rw [part.length_text h, part.length_text h', hwidth]
      obtain ⟨hpart, hrest⟩ := List.append_inj htext hlength
      exact List.forall_mem_cons.2 ⟨hpart, ih hrest⟩

theorem date_eq_of_text {parts : List DatePart} (hyear : DatePart.year ∈ parts)
    (hmonth : DatePart.month ∈ parts) (hday : DatePart.day ∈ parts)
    (htext : parts.flatMap (DatePart.text tm) = parts.flatMap (DatePart.text tm')) :
    tm.year = tm'.year ∧ tm.mon = tm'.mon ∧ tm.mday = tm'.mday := by
  have hwidth : yearWidth tm = yearWidth tm' := by
    refine partsWidth_injective hyear ?_
    rw [← length_parts h, ← length_parts h', htext]
  have hparts := text_eq_of_width h h' hwidth htext
  have hy := appendInt_injective h.year h'.year (hparts .year hyear)
  have hm := appendInt_injective (by have := h.mon; omega) (by have := h'.mon; omega)
    (hparts .month hmonth)
  have hd := appendInt_injective (by have := h.mday; omega) (by have := h'.mday; omega)
    (hparts .day hday)
  exact ⟨by omega, by omega, hd⟩

end Dates

/-! ## Names -/

theorem length_intercalate (x : Text) (p : Text) (ps : List Text) :
    (x.intercalate (p :: ps)).length = (p :: ps).flatten.length + ps.length * x.length := by
  induction ps generalizing p with
  | nil => simp
  | cons q ps ih =>
      rw [List.intercalate_cons_cons, List.length_append, List.length_append, ih, @List.flatten_cons _ p,
        List.length_append, List.length_cons, Nat.add_mul]
      omega

/-- Pieces joined by two texts give two texts. -/
theorem intercalate_injective {x x' p q : Text} {ps : List Text}
    (h : x.intercalate (p :: q :: ps) = x'.intercalate (p :: q :: ps)) : x = x' := by
  have hlength := congrArg List.length h
  rw [length_intercalate, length_intercalate, List.length_cons, Nat.add_left_cancel_iff] at hlength
  have hx : x.length = x'.length := Nat.eq_of_mul_eq_mul_left (Nat.succ_pos _) hlength
  rw [List.intercalate_cons_cons, List.intercalate_cons_cons, List.append_assoc,
    List.append_assoc, List.append_cancel_left_eq] at h
  exact (List.append_inj h hx).1

/-- A text with the placeholder in it is cut at least once. -/
theorem pieces_cut {pat s : Text} (h : pat <:+: s) (k : Nat) :
    ∃ p q ps, pieces pat (k + 1) s = p :: q :: ps := by
  rw [pieces]
  cases hfind : find s pat 0 with
  | none =>
      obtain ⟨before, behind, rfl⟩ := h
      refine absurd ?_ (find_eq_none.1 hfind before.length (by simp) (Nat.zero_le _))
      rw [List.append_assoc, List.drop_left]
      exact List.prefix_append pat behind
  | some i =>
      obtain ⟨q, ps, hrest⟩ := List.exists_cons_of_ne_nil (pieces_ne_nil pat k (s.drop (i + pat.length)))
      exact ⟨s.take i, q, ps, by rw [← hrest]⟩

/-- With a calendar format in place of the placeholder, instants with the same
name have the same local date. -/
theorem same_name_same_date (zone : Zone) (namePattern dateFormat : Text) (tp tp' : Int)
    (hpattern : datePlaceholder <:+: namePattern) (hformat : CalendarFormat dateFormat)
    (hdate : IsCalendarDate (zone.localtime (toTimeT tp)))
    (hdate' : IsCalendarDate (zone.localtime (toTimeT tp')))
    (h : makeBasename zone namePattern dateFormat tp = makeBasename zone namePattern dateFormat tp') :
    (zone.localtime (toTimeT tp)).year = (zone.localtime (toTimeT tp')).year ∧
      (zone.localtime (toTimeT tp)).mon = (zone.localtime (toTimeT tp')).mon ∧
      (zone.localtime (toTimeT tp)).mday = (zone.localtime (toTimeT tp')).mday := by
  obtain ⟨parts, hparts, hyear, hmonth, hday⟩ := hformat
  obtain ⟨p, q, ps, hpieces⟩ := pieces_cut hpattern namePattern.length
  rw [makeBasename, makeBasename, replaceAll_eq (by decide), replaceAll_eq (by decide),
    hpieces] at h
  have htext := intercalate_injective h
  rw [qtDatetimeFormatSubset, qtDatetimeFormatSubset, formatLoop_parts _ _ _ _ _ hparts,
    formatLoop_parts _ _ _ _ _ hparts] at htext
  exact date_eq_of_text hdate hdate' hyear hmonth hday htext

/-- `yyyy-MM-dd` at the epoch and an hour later, in UTC. -/
theorem same_name_epoch :
    let name := makeBasename (Zone.fixed 0) "a{date}".toList "yyyy-MM-dd".toList
    name 0 = name (hours 1) ∧
      ((gmtime 0).year = (gmtime 3600).year ∧ (gmtime 0).mon = (gmtime 3600).mon ∧
        (gmtime 0).mday = (gmtime 3600).mday) := by
  have hname : makeBasename (Zone.fixed 0) "a{date}".toList "yyyy-MM-dd".toList 0 =
      makeBasename (Zone.fixed 0) "a{date}".toList "yyyy-MM-dd".toList (hours 1) := by
    decide +kernel
  refine ⟨hname, same_name_same_date (Zone.fixed 0) _ _ 0 (hours 1) ?_ ?_ ?_ ?_ hname⟩
  · exact ⟨['a'], [], rfl⟩
  · exact ⟨[.year, .literal ['-'], .month, .literal ['-'], .day], rfl, by simp, by simp, by simp⟩
  · exact ⟨by decide +kernel, by decide +kernel, by decide +kernel⟩
  · exact ⟨by decide +kernel, by decide +kernel, by decide +kernel⟩

end UempPlugin.Ref
