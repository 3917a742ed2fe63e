import Mathlib.Data.List.Induction
import Mathlib.Data.List.Nodup
import Mathlib.Logic.Function.Basic
import UempPlugin.Lib.Disk
import UempPlugin.Lib.Retention

/-!
# What a log of one file per date is

The purpose of the library's daily sink without its queue and its clock: named
files, one of which is written. Now and then another name is opened; it becomes
the newest of the names that are held, and the oldest, if there is one too many,
is given up with its file.

Where every name is opened once, the account is simple. Where a name comes back,
the log may give up the very file it has just opened: that happens when the name
is the one that was opened `maxFiles` openings before.
-/

namespace UempPlugin.Spec

open UempPlugin.Lib

/-- How many names are held (0 for all of them), and whether a file is emptied
when it is opened. -/
structure DatedCfg where
  maxFiles : Nat
  truncate : Bool

/-- The names held, oldest first, the one that is written, and the files. -/
structure DatedLog (N : Type) where
  held : List N
  current : N
  text : N → Option Bytes

/-- A message, and the name that is opened for it, if one is. -/
structure Turn (N : Type) where
  opens : Option N
  bytes : Bytes

namespace DatedLog

variable {N : Type} [DecidableEq N]

def write (b : Bytes) (l : DatedLog N) : DatedLog N :=
  { l with text := Function.update l.text l.current ((l.text l.current).map (· ++ b)) }

/-- What a file holds once it is opened. -/
def found (c : DatedCfg) (text : N → Option Bytes) (p : N) : Bytes :=
  if c.truncate then [] else (text p).getD []

def start (c : DatedCfg) (p : N) (l : DatedLog N) : DatedLog N :=
  { l with current := p, text := Function.update l.text p (some (found c l.text p)) }

/-- The current name is held from now on, and the oldest may be given up. -/
def retire (c : DatedCfg) (l : DatedLog N) : DatedLog N :=
  { l with
    held := retained c.maxFiles (l.held ++ [l.current])
    text := fun p => if p ∈ dropped c.maxFiles (l.held ++ [l.current]) then none else l.text p }

def turn (c : DatedCfg) (l : DatedLog N) (t : Turn N) : DatedLog N :=
  match t.opens with
  | none => write t.bytes l
  | some p => retire c (write t.bytes (start c p l))

def run (c : DatedCfg) (l : DatedLog N) (ts : List (Turn N)) : DatedLog N := ts.foldl (turn c) l

/-- The names opened, in order. -/
def opened (ts : List (Turn N)) : List N := ts.filterMap Turn.opens

/-! ## One turn -/

variable {c : DatedCfg} {l : DatedLog N} {p q : N} {b : Bytes}

theorem write_text (l : DatedLog N) (b : Bytes) (q : N) :
    (write b l).text q = if q = l.current then (l.text q).map (· ++ b) else l.text q := by
  simp only [write, Function.update_apply]
  split
  · next h => rw [h]
  · rfl

/-- What is given up is gone, and the rest stays. -/
theorem retire_text_gone (h : p ∈ dropped c.maxFiles (l.held ++ [l.current])) :
    (retire c l).text p = none := if_pos h

theorem retire_text_kept (h : p ∉ dropped c.maxFiles (l.held ++ [l.current])) :
    (retire c l).text p = l.text p := if_neg h

theorem turn_some_held (c : DatedCfg) (l : DatedLog N) (p : N) (b : Bytes) :
    (turn c l ⟨some p, b⟩).held = retained c.maxFiles (l.held ++ [p]) := rfl

theorem turn_some_current (c : DatedCfg) (l : DatedLog N) (p : N) (b : Bytes) :
    (turn c l ⟨some p, b⟩).current = p := rfl

theorem turn_some_text (c : DatedCfg) (l : DatedLog N) (p : N) (b : Bytes) (q : N) :
    (turn c l ⟨some p, b⟩).text q =
      if q ∈ dropped c.maxFiles (l.held ++ [p]) then none
      else if q = p then some (found c l.text p ++ b) else l.text q := by
  have hstart : (start c p l).text q = if q = p then some (found c l.text p) else l.text q :=
    Function.update_apply ..
  show (if q ∈ dropped c.maxFiles (l.held ++ [p]) then none
    else (write b (start c p l)).text q) = _
  rw [write_text, hstart]
  by_cases h : q = p
  · rw [if_pos (show q = (start c p l).current from h), if_pos h, if_pos h]
    rfl
  · rw [if_neg (show q ≠ (start c p l).current from h), if_neg h, if_neg h]

/-! ## The account of the text

The entries are the names that were ever held, oldest first, with what was
written to them. -/

abbrev Entries (N : Type) := List (N × Bytes)

def entry (es : Entries N) (t : Turn N) : Entries N :=
  match t.opens with
  | some p => es ++ [(p, t.bytes)]
  | none =>
      match es.getLast? with
      | some e => es.dropLast ++ [(e.1, e.2 ++ t.bytes)]
      | none => es

def entries (held : List N) (ts : List (Turn N)) : Entries N :=
  ts.foldl entry (held.map fun p => (p, []))

/-- What a file held to which something is written: before the run, if it was
held by then, and else when it was opened. -/
def before (c : DatedCfg) (l : DatedLog N) (p : N) : Bytes :=
  if p ∈ l.held then (l.text p).getD [] else found c l.text p

/-- From `l` the log has gone to `l'`, with these entries. -/
structure Accounts (c : DatedCfg) (l : DatedLog N) (es : Entries N) (l' : DatedLog N) : Prop where
  held : l'.held = retained c.maxFiles (es.map Prod.fst)
  current : ∃ front b, es = front ++ [(l'.current, b)]
  names : (es.map Prod.fst).Nodup
  begun : ∀ p ∈ l.held, p ∈ es.map Prod.fst
  kept : ∀ e ∈ retained c.maxFiles es, l'.text e.1 = some (before c l e.1 ++ e.2)
  gone : ∀ e ∈ dropped c.maxFiles es, l'.text e.1 = none
  others : ∀ p ∉ es.map Prod.fst, l'.text p = l.text p

variable {es : Entries N} {l' : DatedLog N}

theorem accounts_self (hcurrent : ∃ front, l.held = front ++ [l.current]) (hnames : l.held.Nodup)
    (hheld : retained c.maxFiles l.held = l.held) (htext : ∀ p ∈ l.held, (l.text p).isSome) :
    Accounts c l (l.held.map fun p => (p, [])) l := by
  have hmap : (l.held.map fun p => (p, ([] : Bytes))).map Prod.fst = l.held := by
    rw [List.map_map]
    exact List.map_id _
  have hnone : dropped c.maxFiles l.held = [] := by
    have hall := dropped_append_retained c.maxFiles l.held
    rw [hheld] at hall
    exact List.append_left_eq_self.1 hall
  refine ⟨by rw [hmap, hheld], ?_, by rw [hmap]; exact hnames, fun p hp => by rw [hmap]; exact hp,
    fun e he => ?_, fun e he => ?_, fun _ _ => rfl⟩
  · obtain ⟨front, hfront⟩ := hcurrent
    exact ⟨front.map fun p => (p, []), [], by rw [hfront, List.map_append]; rfl⟩
  · rw [retained_map, hheld] at he
    obtain ⟨p, hp, rfl⟩ := List.mem_map.1 he
    obtain ⟨b, hb⟩ := Option.isSome_iff_exists.1 (htext p hp)
    rw [before, if_pos hp, hb]
    exact congrArg some (List.append_nil b).symm
  · rw [dropped_map, hnone] at he
    exact absurd he List.not_mem_nil

/-- A message without a new name goes to the newest entry. -/
theorem Accounts.write (h : Accounts c l es l') (b : Bytes) :
    Accounts c l (entry es ⟨none, b⟩) (write b l') := by
  obtain ⟨front, b0, rfl⟩ := h.current
  have hentry : entry (front ++ [(l'.current, b0)]) ⟨none, b⟩ =
      front ++ [(l'.current, b0 ++ b)] := by
    simp only [entry, List.getLast?_concat, List.dropLast_concat]
  have hmap : (front ++ [(l'.current, b0 ++ b)]).map Prod.fst =
      (front ++ [(l'.current, b0)]).map Prod.fst := by
    rw [List.map_append, List.map_append]
    rfl
  have hnodup := h.names
  rw [List.map_append, List.map_singleton] at hnodup
  have hfront : ∀ e ∈ front, e.1 ≠ l'.current := fun e he heq =>
    (List.nodup_append.1 hnodup).2.2 _ (List.mem_map_of_mem he) _ (List.mem_singleton_self _) heq
  obtain ⟨k, hk⟩ := retained_newest c.maxFiles front
  rw [hentry]
  refine ⟨by rw [hmap]; exact h.held, ⟨front, b0 ++ b, rfl⟩, by rw [hmap]; exact h.names,
    fun p hp => by rw [hmap]; exact h.begun p hp, fun e he => ?_, fun e he => ?_, fun p hp => ?_⟩
  · rw [write_text]
    rw [(hk _).2] at he
    rcases List.mem_append.1 he with he | he
    · rw [if_neg (hfront e (List.mem_of_mem_drop he))]
      exact h.kept e (by rw [(hk _).2]; exact List.mem_append_left _ he)
    · rw [List.mem_singleton.1 he, if_pos rfl,
        h.kept (l'.current, b0) (by rw [(hk _).2]; exact List.mem_append_right _ (by simp))]
      exact congrArg some (List.append_assoc ..)
  · rw [(hk _).1] at he
    rw [write_text, if_neg (hfront e (List.mem_of_mem_take he))]
    exact h.gone e (by rw [(hk _).1]; exact he)
  · rw [hmap] at hp
    rw [write_text, if_neg]
    · exact h.others p hp
    · rintro rfl
      exact hp (List.mem_map_of_mem (f := Prod.fst)
        (List.mem_append_right front (List.mem_singleton_self _)))

/-- A name that was never held becomes the newest entry. -/
theorem Accounts.opens (h : Accounts c l es l') (hp : p ∉ es.map Prod.fst) (b : Bytes) :
    Accounts c l (entry es ⟨some p, b⟩) (turn c l' ⟨some p, b⟩) := by
  have hentry : entry es ⟨some p, b⟩ = es ++ [(p, b)] := rfl
  have hmap : (es ++ [(p, b)]).map Prod.fst = es.map Prod.fst ++ [p] := List.map_append
  obtain ⟨hdropped, hretained⟩ := retained_append c.maxFiles (es.map Prod.fst) [p]
  rw [← h.held] at hdropped hretained
  have hnames : ((es ++ [(p, b)]).map Prod.fst).Nodup := by
    rw [hmap]
    exact List.nodup_append.2 ⟨h.names, List.nodup_singleton p, fun x hx y hy => by
      rw [List.mem_singleton.1 hy]
      exact fun heq => hp (heq ▸ hx)⟩
  have hsplit : (dropped c.maxFiles (es ++ [(p, b)])).map Prod.fst ++
      (retained c.maxFiles (es ++ [(p, b)])).map Prod.fst = (es ++ [(p, b)]).map Prod.fst := by
    rw [← List.map_append, dropped_append_retained]
  have hnew : before c l p = found c l'.text p := by
    rw [before, if_neg fun hheld => hp (h.begun p hheld), found, found, h.others p hp]
  rw [hentry]
  refine ⟨?_, ⟨es, b, rfl⟩, hnames, fun q hq => ?_, fun e he => ?_, fun e he => ?_, fun q hq => ?_⟩
  · rw [turn_some_held, hmap, hretained]
  · rw [hmap]
    exact List.mem_append_left _ (h.begun q hq)
  · have hkeep : e.1 ∉ dropped c.maxFiles (l'.held ++ [p]) := by
      intro hgone
      have hmem : e.1 ∈ (dropped c.maxFiles (es ++ [(p, b)])).map Prod.fst := by
        rw [← dropped_map, hmap, hdropped]
        exact List.mem_append_right _ hgone
      rw [← hsplit] at hnames
      exact (List.nodup_append.1 hnames).2.2 _ hmem _ (List.mem_map_of_mem he) rfl
    rw [turn_some_text, if_neg hkeep]
    rw [(retained_append c.maxFiles es [(p, b)]).2] at he
    rcases List.mem_append.1 ((retained_suffix _ _).mem he) with he | he
    · have hne : e.1 ≠ p := fun heq =>
        hp (heq ▸ List.mem_map_of_mem ((retained_suffix _ _).mem he))
      rw [if_neg hne]
      exact h.kept e he
    · rw [List.mem_singleton.1 he, if_pos rfl, hnew]
  · rw [turn_some_text]
    rw [(retained_append c.maxFiles es [(p, b)]).1] at he
    rcases List.mem_append.1 he with he | he
    · have hall : e ∈ es := by
        rw [← dropped_append_retained c.maxFiles es]
        exact List.mem_append_left _ he
      have hne : e.1 ≠ p := fun heq => hp (heq ▸ List.mem_map_of_mem hall)
      rw [if_neg hne, h.gone e he, ite_self]
    · have hmem := List.mem_map_of_mem (f := Prod.fst) he
      rw [← dropped_map, List.map_append, ← retained_map, ← h.held] at hmem
      exact if_pos hmem
  · rw [hmap, List.mem_append, not_or, List.mem_singleton] at hq
    have hkeep : q ∉ dropped c.maxFiles (l'.held ++ [p]) := by
      intro hgone
      have hheld := mem_dropped_concat hgone
      rw [h.held] at hheld
      exact hq.1 ((retained_suffix _ _).mem hheld)
    rw [turn_some_text, if_neg hkeep, if_neg hq.2]
    exact h.others q hq.1

omit [DecidableEq N] in
theorem entry_names (hne : es ≠ []) (t : Turn N) :
    (entry es t).map Prod.fst = es.map Prod.fst ++ t.opens.toList := by
  obtain ⟨front, e, rfl⟩ := (List.eq_nil_or_concat' es).resolve_left hne
  rw [entry]
  cases t.opens with
  | none =>
      rw [List.getLast?_concat]
      simp only [List.dropLast_concat, List.map_append, List.map_singleton, Option.toList_none,
        List.append_nil]
  | some p => exact List.map_append

omit [DecidableEq N] in
theorem entry_ne_nil (hne : es ≠ []) (t : Turn N) : entry es t ≠ [] := by
  intro hnil
  have hnames := entry_names hne t
  rw [hnil, List.map_nil] at hnames
  exact hne (List.map_eq_nil_iff.1 (List.append_eq_nil_iff.1 hnames.symm).1)

omit [DecidableEq N] in
/-- All that is written is in the entries, in order. -/
theorem entry_bytes (hne : es ≠ []) (t : Turn N) :
    ((entry es t).map Prod.snd).flatten = (es.map Prod.snd).flatten ++ t.bytes := by
  obtain ⟨front, e, rfl⟩ := (List.eq_nil_or_concat' es).resolve_left hne
  rw [entry]
  cases t.opens with
  | none =>
      rw [List.getLast?_concat]
      simp
  | some p => simp

omit [DecidableEq N] in
theorem entries_bytes : ∀ (ts : List (Turn N)) {es : Entries N}, es ≠ [] →
    ((ts.foldl entry es).map Prod.snd).flatten =
      (es.map Prod.snd).flatten ++ (ts.map Turn.bytes).flatten := by
  intro ts
  induction ts with
  | nil => simp
  | cons t ts ih =>
      intro es hne
      rw [List.foldl_cons, ih (entry_ne_nil hne t), entry_bytes hne, List.map_cons,
        List.flatten_cons, List.append_assoc]

omit [DecidableEq N] in
theorem opened_cons (t : Turn N) (ts : List (Turn N)) :
    opened (t :: ts) = t.opens.toList ++ opened ts := by
  rw [opened, List.filterMap_cons]
  cases t.opens <;> rfl

omit [DecidableEq N] in
theorem entries_names : ∀ (ts : List (Turn N)) {es : Entries N}, es ≠ [] →
    (ts.foldl entry es).map Prod.fst = es.map Prod.fst ++ opened ts := by
  intro ts
  induction ts with
  | nil => exact fun _ => (List.append_nil _).symm
  | cons t ts ih =>
      intro es hne
      rw [List.foldl_cons, ih (entry_ne_nil hne t), entry_names hne, opened_cons,
        List.append_assoc]

/-- A whole run, in which no name comes back. -/
theorem Accounts.run : ∀ (ts : List (Turn N)) {es : Entries N} {l' : DatedLog N},
    Accounts c l es l' → (es.map Prod.fst ++ opened ts).Nodup →
      Accounts c l (ts.foldl entry es) (run c l' ts) := by
  intro ts
  induction ts with
  | nil => exact fun h _ => h
  | cons t ts ih =>
      intro es l' h hfresh
      have hne : es ≠ [] := by
        obtain ⟨front, b, rfl⟩ := h.current
        simp
      rw [opened_cons, ← List.append_assoc, ← entry_names hne] at hfresh
      refine ih ?_ hfresh
      obtain ⟨opens, b⟩ := t
      cases opens with
      | none => exact h.write b
      | some p =>
          rw [entry_names hne] at hfresh
          have hp : (es.map Prod.fst ++ [p]).Nodup := (List.nodup_append.1 hfresh).1
          exact h.opens (fun hmem =>
            (List.nodup_append.1 hp).2.2 p hmem p (List.mem_singleton_self p) rfl) b

/-! ## Whether the file that is written is there -/

def Present (l : DatedLog N) : Prop := (l.text l.current).isSome

theorem present_write (l : DatedLog N) (b : Bytes) : Present (write b l) ↔ Present l := by
  have htext : (write b l).text l.current = (l.text l.current).map (· ++ b) := by
    rw [write_text, if_pos rfl]
  show ((write b l).text l.current).isSome ↔ _
  rw [htext, Option.isSome_map]
  rfl

/-- It is not when the log gives up the name it has just opened. -/
theorem present_opens (c : DatedCfg) (l : DatedLog N) (p : N) (b : Bytes) :
    Present (turn c l ⟨some p, b⟩) ↔ p ∉ dropped c.maxFiles (l.held ++ [p]) := by
  rw [Present, turn_some_current, turn_some_text, if_pos rfl]
  split
  · next h => exact ⟨fun hsome => (nomatch hsome), fun hno => absurd h hno⟩
  · next h => exact ⟨fun _ => h, fun _ => rfl⟩

omit [DecidableEq N] in
theorem opened_concat (ts : List (Turn N)) (t : Turn N) :
    opened (ts ++ [t]) = opened ts ++ t.opens.toList := by
  rw [opened, List.filterMap_append, List.filterMap_cons, List.filterMap_nil]
  cases t.opens <;> rfl

theorem run_concat (c : DatedCfg) (l : DatedLog N) (ts : List (Turn N)) (t : Turn N) :
    run c l (ts ++ [t]) = turn c (run c l ts) t := by
  rw [run, List.foldl_append]
  rfl

/-- The names held after a run are the last that were held or opened. -/
theorem held_run (hheld : retained c.maxFiles l.held = l.held) (ts : List (Turn N)) :
    (run c l ts).held = retained c.maxFiles (l.held ++ opened ts) := by
  induction ts using List.reverseRecOn with
  | nil =>
      rw [opened, List.filterMap_nil, List.append_nil, hheld]
      rfl
  | append_singleton ts t ih =>
      obtain ⟨opens, b⟩ := t
      rw [run_concat, opened_concat]
      cases opens with
      | none =>
          rw [Option.toList_none, List.append_nil]
          exact ih
      | some p =>
          rw [turn_some_held, ih, Option.toList_some, ← List.append_assoc]
          exact (retained_append c.maxFiles (l.held ++ opened ts) [p]).2.symm

/-- No name is the one that stands `n` places before it. -/
def NoReturn (n : Nat) (names : List N) : Prop :=
  ∀ (i : Nat) (p : N), names[i]? = some p → names[i + n]? ≠ some p

omit [DecidableEq N] in
theorem noReturn_concat {n : Nat} (hn : n ≠ 0) (names : List N) (p : N) :
    NoReturn n (names ++ [p]) ↔
      NoReturn n names ∧ p ∉ dropped n (retained n names ++ [p]) := by
  rw [mem_dropped_retained hn]
  constructor
  · intro h
    refine ⟨fun i q hi hin => ?_, fun ⟨hle, hp⟩ => ?_⟩
    · have hlt : i + n < names.length := (List.getElem?_eq_some_iff.1 hin).1
      refine h i q ?_ ?_
      · rw [List.getElem?_append_left (by omega)]
        exact hi
      · rw [List.getElem?_append_left hlt]
        exact hin
    · refine h (names.length - n) p ?_ ?_
      · rw [List.getElem?_append_left (by omega)]
        exact hp
      · rw [Nat.sub_add_cancel hle, List.getElem?_concat_length]
  · rintro ⟨h, hlast⟩ i q hi hin
    have hlt : i + n < names.length + 1 := by
      have := (List.getElem?_eq_some_iff.1 hin).1
      rwa [List.length_append] at this
    rw [List.getElem?_append_left (by omega)] at hi
    rcases Nat.lt_or_ge (i + n) names.length with hin' | hin'
    · rw [List.getElem?_append_left hin'] at hin
      exact h i q hi hin
    · have heq : i + n = names.length := by omega
      rw [heq, List.getElem?_concat_length] at hin
      cases hin
      refine hlast ⟨by omega, ?_⟩
      rw [show names.length - n = i by omega]
      exact hi

/-- The file that is written is there after every message, exactly when no name
is opened again `maxFiles` openings later. -/
theorem present_run_iff (hheld : retained c.maxFiles l.held = l.held) (hl : Present l)
    (ts : List (Turn N)) :
    (∀ ts', ts' <+: ts → Present (run c l ts')) ↔
      c.maxFiles = 0 ∨ NoReturn c.maxFiles (l.held ++ opened ts) := by
  by_cases hn : c.maxFiles = 0
  · refine ⟨fun _ => .inl hn, fun _ ts' hts' => ?_⟩
    clear hts'
    -- nothing is ever given up
    induction ts' using List.reverseRecOn with
    | nil => exact hl
    | append_singleton ts' t ih =>
        obtain ⟨opens, b⟩ := t
        rw [run_concat]
        cases opens with
        | none => exact (present_write _ b).2 ih
        | some p =>
            rw [present_opens, hn]
            exact List.not_mem_nil
  · rw [or_iff_right hn]
    induction ts using List.reverseRecOn with
    | nil =>
        refine ⟨fun _ i p _ hin => ?_, fun _ ts' hts' => ?_⟩
        · have hlen := length_retained hn l.held
          rw [hheld] at hlen
          have hlt := (List.getElem?_eq_some_iff.1 hin).1
          rw [opened, List.filterMap_nil, List.append_nil] at hlt
          omega
        · rw [List.prefix_nil.1 hts']
          exact hl
    | append_singleton ts t ih =>
        have hsplit : (∀ ts', ts' <+: ts ++ [t] → Present (run c l ts')) ↔
            (∀ ts', ts' <+: ts → Present (run c l ts')) ∧ Present (run c l (ts ++ [t])) := by
          simp only [List.prefix_concat_iff, or_imp, forall_and, forall_eq]
          exact And.comm
        rw [hsplit, ih, run_concat, opened_concat]
        obtain ⟨opens, b⟩ := t
        cases opens with
        | none =>
            rw [Option.toList_none, List.append_nil]
            refine and_iff_left_of_imp fun h => ?_
            exact (present_write _ b).2 (ih.2 h ts (List.prefix_refl ts))
        | some p =>
            rw [Option.toList_some, ← List.append_assoc, noReturn_concat hn, present_opens,
              held_run hheld]

end DatedLog

end UempPlugin.Spec
