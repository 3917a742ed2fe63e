import Mathlib.Data.List.TakeWhile
import UempPlugin.Ref.DateFormat

/-!
# A format is read piece by piece

The loop of `qt_datetime_format_subset_` reads one token a round. A token ends
before the next character unless that continues it: a second quote, another of
the same letter, or the `P` behind an `A`. Where two formats meet without such
a pair, and outside quotes, they are read one after the other.

The number that bounds the rounds of `formatLoop` is bookkeeping. Every round
takes a character, so any number from the length on gives the same text.
-/

namespace UempPlugin.Ref

/-- `out`, `in_quote` and what is left of the format. -/
structure Scan where
  out : Text
  inQuote : Bool
  rest : Text

/-- What a round appends, the flag it leaves, and what it does not read of the
text behind its first character. -/
def token (p : LocalDateTimeParts) (inQuote : Bool) (c : Char) (rest : Text) : Scan :=
  if c = '\'' then
    if rest.head? = some '\'' then ⟨['\''], inQuote, rest.drop 1⟩
    else ⟨[], !inQuote, rest⟩
  else if inQuote then ⟨[c], inQuote, rest⟩
  else if isAmPm c rest then ⟨ampm p (c = 'A'), inQuote, rest.drop 1⟩
  else ⟨formatRun p c (repeats c rest + 1), inQuote, rest.drop (repeats c rest)⟩

/-- A round of the loop; with nothing left it is over. -/
def Scan.round (p : LocalDateTimeParts) (s : Scan) : Scan :=
  match s.rest with
  | [] => s
  | c :: rest =>
      let t := token p s.inQuote c rest
      ⟨s.out ++ t.out, t.inQuote, t.rest⟩

def Scan.rounds (p : LocalDateTimeParts) : Nat → Scan → Scan
  | 0, s => s
  | k + 1, s => rounds p k (s.round p)

/-- The scan of a format, after as many rounds as it has characters. -/
def scanned (p : LocalDateTimeParts) (fmt : Text) : Scan :=
  Scan.rounds p fmt.length ⟨[], false, fmt⟩

variable {p : LocalDateTimeParts}

/-! ## Rounds -/

theorem token_suffix (inQuote : Bool) (c : Char) (rest : Text) :
    (token p inQuote c rest).rest <:+ rest := by
  rw [token]
  split
  · split
    · exact List.drop_suffix _ _
    · exact List.suffix_refl _
  · split
    · exact List.suffix_refl _
    · split
      · exact List.drop_suffix _ _
      · exact List.drop_suffix _ _

theorem formatLoop_cons (k : Nat) (inQuote : Bool) (c : Char) (rest : Text) :
    formatLoop p (k + 1) inQuote (c :: rest) =
      (token p inQuote c rest).out ++
        formatLoop p k (token p inQuote c rest).inQuote (token p inQuote c rest).rest := by
  rw [formatLoop, token]
  split
  · split
    · rfl
    · rfl
  · split
    · rfl
    · split
      · rfl
      · rfl

theorem Scan.round_cons (out : Text) (inQuote : Bool) (c : Char) (rest : Text) :
    Scan.round p ⟨out, inQuote, c :: rest⟩ =
      ⟨out ++ (token p inQuote c rest).out, (token p inQuote c rest).inQuote,
        (token p inQuote c rest).rest⟩ := rfl

/-- A round reads at least one character. -/
theorem Scan.round_reads (s : Scan) (h : s.rest ≠ []) :
    (s.round p).rest.length < s.rest.length := by
  obtain ⟨out, inQuote, rest⟩ := s
  cases rest with
  | nil => exact absurd rfl h
  | cons c rest =>
      rw [Scan.round_cons]
      exact Nat.lt_succ_of_le (token_suffix inQuote c rest).length_le

theorem formatLoop_nil (k : Nat) (inQuote : Bool) : formatLoop p k inQuote [] = [] := by
  cases k <;> rfl

/-- Any number of rounds that covers the format gives one text. -/
theorem formatLoop_congr {k n : Nat} {inQuote : Bool} {fmt : Text} (hk : fmt.length ≤ k)
    (hn : fmt.length ≤ n) : formatLoop p k inQuote fmt = formatLoop p n inQuote fmt := by
  induction k generalizing n inQuote fmt with
  | zero =>
      rw [List.length_eq_zero_iff.1 (Nat.le_zero.1 hk), formatLoop_nil, formatLoop_nil]
  | succ k ih =>
      cases fmt with
      | nil => rw [formatLoop_nil, formatLoop_nil]
      | cons c rest =>
          rw [List.length_cons] at hk hn
          obtain ⟨m, rfl⟩ : ∃ m, n = m + 1 := ⟨n - 1, by omega⟩
          have hle := (token_suffix (p := p) inQuote c rest).length_le
          rw [formatLoop_cons, formatLoop_cons, ih (n := m) (by omega) (by omega)]

theorem Scan.rounds_nil (k : Nat) (out : Text) (inQuote : Bool) :
    Scan.rounds p k ⟨out, inQuote, []⟩ = ⟨out, inQuote, []⟩ := by
  induction k with
  | zero => rfl
  | succ k ih => exact ih

/-- Enough rounds end the scan, with the text of `formatLoop`. -/
theorem Scan.rounds_done {k : Nat} {out : Text} {inQuote : Bool} {fmt : Text}
    (hk : fmt.length ≤ k) :
    (Scan.rounds p k ⟨out, inQuote, fmt⟩).rest = [] ∧
      (Scan.rounds p k ⟨out, inQuote, fmt⟩).out = out ++ formatLoop p k inQuote fmt := by
  induction k generalizing out inQuote fmt with
  | zero =>
      rw [List.length_eq_zero_iff.1 (Nat.le_zero.1 hk), formatLoop_nil, List.append_nil]
      exact ⟨rfl, rfl⟩
  | succ k ih =>
      cases fmt with
      | nil =>
          rw [Scan.rounds_nil, formatLoop_nil, List.append_nil]
          exact ⟨rfl, rfl⟩
      | cons c rest =>
          have hle := (token_suffix (p := p) inQuote c rest).length_le
          rw [List.length_cons] at hk
          rw [Scan.rounds, Scan.round_cons, formatLoop_cons, ← List.append_assoc]
          exact ih (by omega)

/-! ## Two formats -/

/-- No token continues from the last character of `f` to the first of `g`. -/
structure Apart (f g : Text) : Prop where
  differ : ∀ x ∈ f.getLast?, g.head? ≠ some x
  upper : f.getLast? = some 'A' → g.head? ≠ some 'P'
  lower : f.getLast? = some 'a' → g.head? ≠ some 'p'

theorem Apart.suffix {f f' g : Text} (h : Apart f g) (hsuffix : f' <:+ f) (hne : f' ≠ []) :
    Apart f' g := by
  have hlast : f'.getLast? = f.getLast? := by
    obtain ⟨before, rfl⟩ := hsuffix
    rw [List.getLast?_append, List.getLast?_eq_some_getLast hne, Option.some_or]
  refine ⟨?_, ?_, ?_⟩
  · rw [hlast]
    exact h.differ
  · rw [hlast]
    exact h.upper
  · rw [hlast]
    exact h.lower

section Boundary

variable {c : Char} {rest g : Text} (h : Apart (c :: rest) g)

include h

/-- A second quote is looked for in the format the first one is in. -/
theorem Apart.head_quote :
    c = '\'' → ((rest ++ g).head? = some '\'' ↔ rest.head? = some '\'') := by
  rintro rfl
  cases rest with
  | nil => simpa using h.differ '\'' rfl
  | cons d rest => rfl

theorem Apart.isAmPm : isAmPm c (rest ++ g) = isAmPm c rest := by
  cases rest with
  | nil =>
      have hupper : c = 'A' → g.head? ≠ some 'P' := fun hc => h.upper (hc ▸ rfl)
      have hlower : c = 'a' → g.head? ≠ some 'p' := fun hc => h.lower (hc ▸ rfl)
      simp only [Ref.isAmPm, List.nil_append, List.head?_nil]
      by_cases hA : c = 'A'
      · simp [hA, hupper hA]
      · by_cases ha : c = 'a'
        · simp [ha, hlower ha]
        · simp [hA, ha]
  | cons d rest => rfl

theorem Apart.repeats : repeats c (rest ++ g) = repeats c rest := by
  rw [Ref.repeats, Ref.repeats, List.takeWhile_append]
  split
  · next hall =>
      -- the run goes up to the boundary, so its letter is the last one of `f`
      have hrun := List.takeWhile_eq_self_iff.1
        ((List.takeWhile_prefix _).eq_of_length hall)
      have hlast : (c :: rest).getLast? = some c := by
        rw [List.getLast?_cons]
        cases hrest : rest.getLast? with
        | none => rfl
        | some x =>
            have hx := hrun x (List.mem_of_getLast? hrest)
            rw [of_decide_eq_true hx]
            rfl
      have hnone : g.takeWhile (· = c) = [] := by
        cases g with
        | nil => rfl
        | cons d g =>
            have hne : d ≠ c := fun hd => h.differ c hlast (hd ▸ rfl)
            rw [List.takeWhile_cons_of_neg (by simpa using hne)]
      rw [hnone, List.append_nil, hall]
  · rfl

/-- Text behind a boundary is left to the rounds behind it. -/
theorem Apart.token (inQuote : Bool) :
    Ref.token p inQuote c (rest ++ g) =
      ⟨(Ref.token p inQuote c rest).out, (Ref.token p inQuote c rest).inQuote,
        (Ref.token p inQuote c rest).rest ++ g⟩ := by
  rw [Ref.token, Ref.token]
  split
  · next hquote =>
      split
      · next hnext =>
          have hown := (h.head_quote hquote).1 hnext
          rw [if_pos hown, List.drop_append_of_le_length]
          cases rest with
          | nil => cases hown
          | cons d rest => exact Nat.le_add_left _ _
      · next hnext =>
          rw [if_neg fun hown => hnext ((h.head_quote hquote).2 hown)]
  · split
    · rfl
    · rw [h.isAmPm, h.repeats]
      split
      · next hampm =>
          rw [List.drop_append_of_le_length]
          cases rest with
          | nil => simp [Ref.isAmPm] at hampm
          | cons d rest => exact Nat.le_add_left _ _
      · have hle : Ref.repeats c rest ≤ rest.length := (List.takeWhile_prefix _).length_le
        rw [List.drop_append_of_le_length hle]

end Boundary

/-- Behind the end of `f` the loop starts on `g` with the flag that the scan of
`f` leaves. -/
theorem formatLoop_append {f g : Text} (h : f ≠ [] → Apart f g) :
    ∀ (out : Text) {n k m : Nat} {inQuote : Bool}, f.length + g.length ≤ n → f.length ≤ k →
      g.length ≤ m →
      formatLoop p n inQuote (f ++ g) =
        formatLoop p k inQuote f ++
          formatLoop p m (Scan.rounds p k ⟨out, inQuote, f⟩).inQuote g := by
  intro out n k m inQuote hn hk hm
  induction k generalizing n f out inQuote with
  | zero =>
      rw [List.length_eq_zero_iff.1 (Nat.le_zero.1 hk)] at hn ⊢
      rw [formatLoop_nil]
      exact formatLoop_congr (by simpa using hn) hm
  | succ k ih =>
      cases f with
      | nil =>
          rw [formatLoop_nil, Scan.rounds_nil]
          exact formatLoop_congr (by simpa using hn) hm
      | cons c rest =>
          rw [List.length_cons] at hn hk
          obtain ⟨l, rfl⟩ : ∃ l, n = l + 1 := ⟨n - 1, by omega⟩
          have hapart := h (List.cons_ne_nil c rest)
          have hsuffix := token_suffix (p := p) inQuote c rest
          have hle := hsuffix.length_le
          rw [List.cons_append, formatLoop_cons, hapart.token, formatLoop_cons, Scan.rounds,
            Scan.round_cons, List.append_assoc]
          rw [ih (fun hne => hapart.suffix (hsuffix.trans (List.suffix_cons c rest)) hne) _
            (by omega) (by omega)]

theorem Apart.of_ends {f g : Text} (hf : f ≠ []) (hg : g ≠ [])
    (hdiffer : f.getLast hf ≠ g.head hg)
    (hupper : ¬(f.getLast hf = 'A' ∧ g.head hg = 'P'))
    (hlower : ¬(f.getLast hf = 'a' ∧ g.head hg = 'p')) : Apart f g := by
  have hlast : f.getLast? = some (f.getLast hf) := List.getLast?_eq_some_getLast hf
  have hhead : g.head? = some (g.head hg) := List.head?_eq_some_head hg
  refine ⟨?_, ?_, ?_⟩
  · intro x hx
    rw [hlast] at hx
    rw [hhead, ← Option.some_inj.1 hx]
    exact fun heq => hdiffer (Option.some_inj.1 heq).symm
  · rw [hlast, hhead]
    exact fun hA hP => hupper ⟨Option.some_inj.1 hA, Option.some_inj.1 hP⟩
  · rw [hlast, hhead]
    exact fun ha hp => hlower ⟨Option.some_inj.1 ha, Option.some_inj.1 hp⟩

/-- Formats that meet outside quotes and without a token across the boundary
are read one after the other. A round reads a character or the scan is over, so
it comes to its end on every format, with whatever quotes, and the text it has
then put together is the one returned. -/
theorem qtDatetimeFormatSubset_append (zone : Zone) (tp : Int) :
    (∀ (f g : Text) (hf : f ≠ []) (hg : g ≠ []),
      (scanned (toLocalParts zone tp) f).inQuote = false →
      f.getLast hf ≠ g.head hg →
      ¬(f.getLast hf = 'A' ∧ g.head hg = 'P') →
      ¬(f.getLast hf = 'a' ∧ g.head hg = 'p') →
      qtDatetimeFormatSubset zone tp (f ++ g) =
        qtDatetimeFormatSubset zone tp f ++ qtDatetimeFormatSubset zone tp g) ∧
      (∀ s : Scan, s.rest ≠ [] → (s.round (toLocalParts zone tp)).rest.length < s.rest.length) ∧
      ∀ fmt : Text, (scanned (toLocalParts zone tp) fmt).rest = [] ∧
        (scanned (toLocalParts zone tp) fmt).out = qtDatetimeFormatSubset zone tp fmt := by
  refine ⟨?_, fun s => s.round_reads, fun fmt => Scan.rounds_done le_rfl⟩
  intro f g hf hg hquote hdiffer hupper hlower
  have hapart := Apart.of_ends hf hg hdiffer hupper hlower
  rw [qtDatetimeFormatSubset, formatLoop_append (fun _ => hapart) [] (k := f.length)
    (m := g.length) (by rw [List.length_append]) le_rfl le_rfl]
  rw [scanned] at hquote
  rw [hquote]
  rfl

/-- `yyyy` and `-MM` at the epoch. -/
theorem qtDatetimeFormatSubset_append_month :
    qtDatetimeFormatSubset (Zone.fixed 0) 0 ("yyyy".toList ++ "-MM".toList) =
      qtDatetimeFormatSubset (Zone.fixed 0) 0 "yyyy".toList ++
        qtDatetimeFormatSubset (Zone.fixed 0) 0 "-MM".toList :=
  (qtDatetimeFormatSubset_append (Zone.fixed 0) 0).1 "yyyy".toList "-MM".toList (by decide)
    (by decide) (by decide +kernel) (by decide) (by decide) (by decide)

end UempPlugin.Ref
