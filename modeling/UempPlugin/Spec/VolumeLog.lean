import Mathlib.Data.List.Basic
import Mathlib.Data.List.Induction
import Mathlib.Logic.Function.Basic
import UempPlugin.Lib.Disk
import UempPlugin.Lib.Retention

/-!
# What a log of dated volumes is

The purpose of the dated sink without its folder: for every date a list of
volumes, the last of which is written. A volume that is full is followed by an
empty one, and then the oldest may be given up. A date is opened when it
becomes today's; it goes on with its last volume, or starts a new one.
-/

namespace UempPlugin.Spec

open UempPlugin.Lib

/-- When a volume of some size is full, how many are kept of a date (0 for all
of them), and whether a date that has some starts a new one when it is opened. -/
structure VolumeCfg where
  full : Nat → Bool
  maxFiles : Nat
  rotateOnOpen : Bool

/-- With every volume kept. -/
def VolumeCfg.endless (c : VolumeCfg) : VolumeCfg := { c with maxFiles := 0 }

/-- The volumes of a date, oldest first. -/
abbrev Volumes := List Bytes

namespace Volumes

def current (v : Volumes) : Bytes := v.getLast?.getD []

def append (b : Bytes) (v : Volumes) : Volumes := v.dropLast ++ [v.current ++ b]

/-- Start an empty volume, and give up the oldest. -/
def start (c : VolumeCfg) (v : Volumes) : Volumes := retained c.maxFiles (v ++ [[]])

/-- Log one line. -/
def log (c : VolumeCfg) (b : Bytes) (v : Volumes) : Volumes :=
  if c.full (append b v).current.length then start c (append b v) else append b v

def openDay (c : VolumeCfg) (v : Volumes) : Volumes :=
  if v = [] then [[]] else if c.rotateOnOpen then start c v else v

variable {c : VolumeCfg} {v all : Volumes}

theorem append_concat (b x : Bytes) (v : Volumes) : append b (v ++ [x]) = v ++ [x ++ b] := by
  rw [append, current, List.dropLast_concat, List.getLast?_concat, Option.getD_some]

theorem start_endless (c : VolumeCfg) (v : Volumes) : start c.endless v = v ++ [[]] := rfl

/-! ## The account of the text -/

theorem flatten_append (b : Bytes) (v : Volumes) : (append b v).flatten = v.flatten ++ b := by
  rcases List.eq_nil_or_concat' v with rfl | ⟨ys, x, rfl⟩
  · simp [append, current]
  · rw [append_concat]
    simp

theorem flatten_log (c : VolumeCfg) (b : Bytes) (v : Volumes) :
    (log c.endless b v).flatten = v.flatten ++ b := by
  rw [log]
  split
  · rw [start_endless, List.flatten_append, flatten_append]
    exact List.append_nil _
  · exact flatten_append b v

theorem flatten_openDay (c : VolumeCfg) (v : Volumes) :
    (openDay c.endless v).flatten = v.flatten := by
  rw [openDay]
  split
  · next h => rw [h]; rfl
  · split
    · rw [start_endless, List.flatten_append]
      exact List.append_nil _
    · rfl

/-! ## What is given up

A log that gives volumes up has, of the volumes of one that keeps all, the last
ones; and the last of all is among them. -/

/-- `v` is what is left of `all`. -/
def Left (c : VolumeCfg) (all v : Volumes) : Prop :=
  ∃ k, v = all.drop k ∧ (all ≠ [] → k < all.length) ∧ (c.maxFiles = 0 → k = 0)

theorem Left.refl (c : VolumeCfg) (v : Volumes) : Left c v v :=
  ⟨0, rfl, fun h => List.length_pos_iff.2 h, fun _ => rfl⟩

theorem Left.eq_nil_iff (h : Left c all v) : v = [] ↔ all = [] := by
  obtain ⟨k, rfl, hk, -⟩ := h
  rw [List.drop_eq_nil_iff]
  constructor
  · intro hle
    by_contra hne
    exact absurd (hk hne) (Nat.not_lt.2 hle)
  · rintro rfl
    exact Nat.zero_le _

/-- The volumes in front of what is left. -/
theorem Left.gone (h : Left c all v) :
    ∃ gone, gone ++ v = all ∧ (c.maxFiles = 0 → gone = []) ∧ (all ≠ [] → v ≠ []) := by
  have hnil := h.eq_nil_iff
  obtain ⟨k, rfl, hk, h0⟩ := h
  refine ⟨all.take k, List.take_append_drop k all, fun hmax => ?_, fun hne hv => hne (hnil.1 hv)⟩
  rw [h0 hmax, List.take_zero]

/-- What is left of some volumes and one more, of which the last stays. -/
theorem Left.concat {ys : Volumes} {x : Bytes} (h : Left c (ys ++ [x]) v) (z : Bytes) :
    ∃ k, v = ys.drop k ++ [x] ∧ Left c (ys ++ [z]) (ys.drop k ++ [z]) := by
  obtain ⟨k, rfl, hk, h0⟩ := h
  have hle : k ≤ ys.length := by
    have hlt := hk (List.append_ne_nil_of_right_ne_nil _ (List.cons_ne_nil x []))
    rw [List.length_append, List.length_singleton] at hlt
    omega
  refine ⟨k, List.drop_append_of_le_length hle, k, (List.drop_append_of_le_length hle).symm,
    fun _ => ?_, h0⟩
  rw [List.length_append, List.length_singleton]
  omega

theorem left_append (h : Left c all v) (b : Bytes) :
    Left c (append b all) (append b v) ∧ (append b v).current = (append b all).current := by
  rcases List.eq_nil_or_concat' all with rfl | ⟨ys, x, rfl⟩
  · obtain rfl : v = [] := h.eq_nil_iff.2 rfl
    exact ⟨Left.refl c _, rfl⟩
  · obtain ⟨k, rfl, hleft⟩ := h.concat (x ++ b)
    rw [append_concat, append_concat, current, current, List.getLast?_concat, List.getLast?_concat]
    exact ⟨hleft, rfl⟩

theorem left_start (h : Left c all v) : Left c (start c.endless all) (start c v) := by
  rw [start_endless]
  obtain ⟨k, rfl, -, h0⟩ := h
  obtain ⟨j, hkept, -⟩ := retained_concat c.maxFiles (all.drop k) []
  by_cases hmax : c.maxFiles = 0
  · rw [start, hmax, h0 hmax]
    exact Left.refl c _
  · refine ⟨min (k + j) all.length, ?_, fun _ => ?_, fun h => absurd h hmax⟩
    · rw [start, hkept, List.drop_drop, List.drop_append_of_le_length (Nat.min_le_right _ _)]
      congr 1
      rcases Nat.le_total (k + j) all.length with hle | hle
      · rw [Nat.min_eq_left hle]
      · rw [Nat.min_eq_right hle, List.drop_length, List.drop_eq_nil_of_le hle]
    · rw [List.length_append, List.length_singleton]
      exact Nat.lt_succ_of_le (Nat.min_le_right _ _)

theorem left_log (h : Left c all v) (b : Bytes) : Left c (log c.endless b all) (log c b v) := by
  obtain ⟨happend, hcurrent⟩ := left_append h b
  rw [log, log, hcurrent]
  show Left c (if c.full _ then _ else _) (if c.full _ then _ else _)
  split
  · exact left_start happend
  · exact happend

theorem left_openDay (h : Left c all v) : Left c (openDay c.endless all) (openDay c v) := by
  rw [openDay, openDay]
  by_cases hnil : all = []
  · rw [if_pos hnil, if_pos (h.eq_nil_iff.2 hnil)]
    exact Left.refl c _
  · rw [if_neg hnil, if_neg fun hv => hnil (h.eq_nil_iff.1 hv)]
    show Left c (if c.rotateOnOpen then _ else _) (if c.rotateOnOpen then _ else _)
    split
    · exact left_start h
    · exact h

/-! ## How many there are -/

/-- At most `n` volumes, where some are given up. -/
def Bounded (c : VolumeCfg) (n : Nat) (v : Volumes) : Prop :=
  c.maxFiles ≠ 0 → v.length ≤ max c.maxFiles n

theorem bounded_start (c : VolumeCfg) (n : Nat) (v : Volumes) : Bounded c n (start c v) :=
  fun hmax => Nat.le_trans (length_retained hmax _) (Nat.le_max_left _ _)

theorem bounded_log {n : Nat} (h : Bounded c n v) (b : Bytes) : Bounded c n (log c b v) := by
  rw [log]
  split
  · exact bounded_start c n _
  · intro hmax
    have hbound := h hmax
    have hleft := Nat.le_max_left c.maxFiles n
    rw [append, List.length_append, List.length_dropLast, List.length_singleton]
    omega

theorem bounded_openDay {n : Nat} (h : Bounded c n v) : Bounded c n (openDay c v) := by
  rw [openDay]
  split
  · intro hmax
    have hleft := Nat.le_max_left c.maxFiles n
    rw [List.length_singleton]
    omega
  · split
    · exact bounded_start c n v
    · exact h

/-! ## When a volume is followed by another -/

/-- Every volume but the last is full, and the last one is not. -/
structure Settled (c : VolumeCfg) (v : Volumes) : Prop where
  closed : ∀ x ∈ v.dropLast, c.full x.length = true
  current : c.full v.current.length = false

/-- On what the lines of a volume follow: on nothing, or, if they are the first
lines of all, on the volume that was found last. -/
def StartsOn (found : Volumes) (bs : List Bytes) (base : Bytes) (block : List Bytes) : Prop :=
  base = [] ∨ base = found.current ∧ block <+: bs

/-- Consecutive lines that fill a volume, which is not full before the last. -/
def FilledBy (c : VolumeCfg) (found : Volumes) (bs : List Bytes) (x : Bytes) : Prop :=
  ∃ base block line, block ++ [line] <:+: bs ∧ StartsOn found bs base (block ++ [line]) ∧
    x = base ++ block.flatten ++ line ∧ c.full (base ++ block.flatten).length = false

/-- After the lines `bs` over the volumes `found`: every volume but the last is
full, and one of those found or filled by its last line; the last one holds the
last lines, and is not full. -/
structure Packed (c : VolumeCfg) (found : Volumes) (bs : List Bytes) (v : Volumes) : Prop where
  closed : ∀ x ∈ v.dropLast, c.full x.length = true ∧ (x ∈ found.dropLast ∨ FilledBy c found bs x)
  current : ∃ base block, block <:+ bs ∧ (base = [] ∨ base = found.current ∧ block = bs) ∧
    v.current = base ++ block.flatten
  room : c.full v.current.length = false

variable {found : Volumes} {bs : List Bytes}

theorem packed_refl (h : Settled c v) : Packed c v [] v where
  closed x hx := ⟨h.closed x hx, .inl hx⟩
  current := ⟨v.current, [], List.suffix_refl [], .inr ⟨rfl, rfl⟩, (List.append_nil _).symm⟩
  room := h.current

theorem FilledBy.concat {x : Bytes} (h : FilledBy c found bs x) (b : Bytes) :
    FilledBy c found (bs ++ [b]) x := by
  obtain ⟨base, block, line, hin, hstart, hx, hroom⟩ := h
  refine ⟨base, block, line, hin.trans (List.prefix_append bs [b]).isInfix, ?_, hx, hroom⟩
  exact hstart.imp_right fun ⟨hbase, hpre⟩ => ⟨hbase, hpre.trans (List.prefix_append bs [b])⟩

/-- The line that fills the last volume. -/
theorem Packed.filledBy (h : Packed c found bs v) (b : Bytes) :
    FilledBy c found (bs ++ [b]) (v.current ++ b) := by
  obtain ⟨base, block, hsuf, hstart, hcurrent⟩ := h.current
  have hroom := h.room
  rw [hcurrent] at hroom ⊢
  refine ⟨base, block, b, ?_, ?_, rfl, hroom⟩
  · obtain ⟨front, rfl⟩ := hsuf
    exact (List.append_assoc front block [b] ▸ List.suffix_append front (block ++ [b])).isInfix
  · exact hstart.imp_right fun ⟨hbase, hall⟩ => ⟨hbase, hall ▸ List.prefix_refl _⟩

theorem Packed.append_closed (h : Packed c found bs v) {b x : Bytes} (hx : x ∈ v.dropLast) :
    c.full x.length = true ∧ (x ∈ found.dropLast ∨ FilledBy c found (bs ++ [b]) x) :=
  (h.closed x hx).imp_right fun hor => hor.imp_right fun hfilled => hfilled.concat b

theorem packed_log (h0 : c.full 0 = false) (h : Packed c found bs v) (b : Bytes) :
    Packed c found (bs ++ [b]) (log c b v) := by
  have hlast : append b v = v.dropLast ++ [v.current ++ b] := rfl
  have hcurrent : (append b v).current = v.current ++ b := by
    rw [hlast, current, List.getLast?_concat, Option.getD_some]
  rw [log]
  split
  · next hfull =>
      obtain ⟨k, hkept, -⟩ := retained_concat c.maxFiles (append b v) []
      have hnew : (start c (append b v)).current = [] := by
        rw [start, hkept, current, List.getLast?_concat, Option.getD_some]
      refine ⟨fun x hx => ?_, ⟨[], [], List.nil_suffix, .inl rfl, hnew⟩, by rw [hnew]; exact h0⟩
      rw [start, hkept, List.dropLast_concat] at hx
      rcases List.mem_append.1 (List.mem_of_mem_drop hx) with hx | hx
      · exact h.append_closed hx
      · rw [List.mem_singleton.1 hx, ← hcurrent]
        exact ⟨hfull, .inr (hcurrent ▸ h.filledBy b)⟩
  · next hroom =>
      refine ⟨fun x hx => ?_, ?_, Bool.eq_false_iff.2 hroom⟩
      · rw [append, List.dropLast_concat] at hx
        exact h.append_closed hx
      · obtain ⟨base, block, ⟨front, hfront⟩, hstart, hheld⟩ := h.current
        refine ⟨base, block ++ [b], ⟨front, by rw [← List.append_assoc, hfront]⟩, ?_, ?_⟩
        · exact hstart.imp_right fun ⟨hbase, hall⟩ => ⟨hbase, by rw [hall]⟩
        · rw [hcurrent, hheld, List.flatten_append, List.flatten_singleton, List.append_assoc]

/-- Opened again without a new volume, it is as it was. -/
theorem packed_openDay (hopen : c.rotateOnOpen = false) (h : Packed c found bs v) :
    Packed c found bs (openDay c v) := by
  rw [openDay]
  split
  · next hnil =>
      subst hnil
      exact ⟨by simp, h.current, h.room⟩
  · rw [if_neg (by rw [hopen]; decide)]
    exact h

end Volumes

/-- Today's date and the volumes of every date. -/
structure VolumeLog (D : Type) where
  today : D
  days : D → Volumes

namespace VolumeLog

variable {D : Type} [DecidableEq D]

/-- Make `date` today's. -/
def turn (c : VolumeCfg) (date : D) (t : VolumeLog D) : VolumeLog D :=
  { today := date, days := Function.update t.days date (Volumes.openDay c (t.days date)) }

/-- Log one line today. -/
def write (c : VolumeCfg) (b : Bytes) (t : VolumeLog D) : VolumeLog D :=
  { t with days := Function.update t.days t.today (Volumes.log c b (t.days t.today)) }

/-- Log one line on a date. -/
def log (c : VolumeCfg) (t : VolumeLog D) (e : D × Bytes) : VolumeLog D :=
  write c e.2 (if e.1 = t.today then t else turn c e.1 t)

def run (c : VolumeCfg) (t : VolumeLog D) (es : List (D × Bytes)) : VolumeLog D :=
  es.foldl (log c) t

/-- The lines of a date, in order. -/
def lines (date : D) (es : List (D × Bytes)) : List Bytes :=
  (es.filter fun e => e.1 = date).map Prod.snd

variable {c : VolumeCfg} {date : D}

theorem lines_concat (es : List (D × Bytes)) (b : Bytes) :
    lines date (es ++ [(date, b)]) = lines date es ++ [b] := by
  simp [lines]

theorem lines_other (es : List (D × Bytes)) {e : D × Bytes} (h : e.1 ≠ date) :
    lines date (es ++ [e]) = lines date es := by
  simp [lines, h]

/-- What opening a date and logging on it keep of its volumes, a run keeps. -/
theorem days_run {P : List Bytes → Volumes → Prop}
    (hopen : ∀ {bs v}, P bs v → P bs (Volumes.openDay c v))
    (hlog : ∀ {bs v} b, P bs v → P (bs ++ [b]) (Volumes.log c b v)) (t : VolumeLog D)
    (es : List (D × Bytes)) (h : P [] (t.days date)) :
    P (lines date es) ((run c t es).days date) := by
  induction es using List.reverseRecOn with
  | nil => exact h
  | append_singleton es e ih =>
      rw [run, List.foldl_append]
      show P (lines date (es ++ [e])) ((log c (run c t es) e).days date)
      generalize run c t es = u at ih
      rw [log]
      have htoday : (if e.1 = u.today then u else turn c e.1 u).today = e.1 := by
        split
        · next hsame => exact hsame.symm
        · rfl
      have hdays : P (lines date es) ((if e.1 = u.today then u else turn c e.1 u).days date) := by
        split
        · exact ih
        · simp only [turn, Function.update_apply]
          split
          · next hdate =>
              rw [← hdate]
              exact hopen ih
          · exact ih
      generalize (if e.1 = u.today then u else turn c e.1 u) = w at htoday hdays
      obtain ⟨day, b⟩ := e
      simp only [write, Function.update_apply]
      by_cases hdate : date = w.today
      · rw [if_pos hdate, ← hdate]
        obtain rfl : date = day := hdate.trans htoday
        rw [lines_concat]
        exact hlog b hdays
      · rw [if_neg hdate, lines_other es fun h : day = date => hdate (h.symm.trans htoday.symm)]
        exact hdays

/-- The same day, and of every date what is left of its volumes. -/
structure Left (c : VolumeCfg) (all t : VolumeLog D) : Prop where
  today : t.today = all.today
  days : ∀ date, Volumes.Left c (all.days date) (t.days date)

section Left

variable {all t : VolumeLog D}

theorem left_turn (h : Left c all t) (date : D) :
    Left c (turn c.endless date all) (turn c date t) where
  today := rfl
  days := by
    intro day
    simp only [turn, Function.update_apply]
    split
    · exact Volumes.left_openDay (h.days date)
    · exact h.days day

theorem left_write (h : Left c all t) (b : Bytes) :
    Left c (write c.endless b all) (write c b t) where
  today := h.today
  days := by
    intro day
    simp only [write, Function.update_apply, h.today]
    split
    · exact Volumes.left_log (h.days _) b
    · exact h.days day

theorem left_log (h : Left c all t) (e : D × Bytes) : Left c (log c.endless all e) (log c t e) := by
  rw [log, log, h.today]
  split
  · exact left_write h e.2
  · exact left_write (left_turn h e.1) e.2

/-- In step with a log that keeps all volumes. -/
theorem left_run (h : Left c all t) (es : List (D × Bytes)) :
    Left c (run c.endless all es) (run c t es) := by
  induction es generalizing all t with
  | nil => exact h
  | cons e es ih => exact ih (left_log h e)

end Left

theorem turn_days {P : List Bytes → Volumes → Prop}
    (hopen : ∀ {bs v}, P bs v → P bs (Volumes.openDay c v)) (today : D) (t : VolumeLog D)
    (h : P [] (t.days date)) : P [] ((turn c today t).days date) := by
  simp only [turn, Function.update_apply]
  split
  · next hdate =>
      rw [← hdate]
      exact hopen h
  · exact h

end VolumeLog

end UempPlugin.Spec
