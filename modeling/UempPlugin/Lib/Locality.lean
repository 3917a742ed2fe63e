import UempPlugin.Lib.Rolling
import UempPlugin.Lib.Simulation

/-!
# Programs that keep to their own files

Several programs share a disk, each with names of its own. A program is local
when it neither changes a file under another name nor behaves differently for
one: over two disks that agree on its names it ends in the same way, and the
disks agree on them again. Calls may fail, but whether a call fails must not
depend on how many were made before it, since the others make calls too.

The rules below build local programs from the calls of a disk. The last
section is what they are for: programs with disjoint names, one after the
other in any order, each end as if alone.
-/

namespace UempPlugin.Lib

variable {P : Type}

/-! ## Two disks that agree on some names -/

/-- The same files under the names `O`, and the same calls fail, at any time. -/
structure Alike (O : P → Prop) (d e : Disk P) : Prop where
  steady : ∀ n m c, d.fault n c = d.fault m c
  fault : e.fault = d.fault
  files : ∀ p, O p → e.files p = d.files p

/-- From `d` to `d'` only files under the names `O` changed, and `d'` agrees
with `e'` on them. -/
structure Goes (O : P → Prop) (d d' e' : Disk P) : Prop extends Alike O d' e' where
  within : ∀ p, ¬ O p → d'.files p = d.files p
  kept : d'.fault = d.fault

variable {O : P → Prop} {d e d' e' d'' e'' : Disk P} {p : P}

theorem Alike.refuses (h : Alike O d e) (c : Call P) : e.refuses c = d.refuses c := by
  rw [Disk.refuses, Disk.refuses, h.fault]
  exact h.steady _ _ c

theorem Goes.refl (h : Alike O d e) : Goes O d d e := ⟨h, fun _ _ => rfl, rfl⟩

theorem Goes.trans (h : Goes O d d' e') (h' : Goes O d' d'' e'') : Goes O d d'' e'' :=
  ⟨h'.toAlike, fun p hp => (h'.within p hp).trans (h.within p hp), h'.kept.trans h.kept⟩

/-- What is to be shown of a call. -/
theorem Goes.of_call (h : Alike O d e) (hd : d'.fault = d.fault) (he : e'.fault = e.fault)
    (hfiles : ∀ p, O p → e'.files p = d'.files p)
    (hwithin : ∀ p, ¬ O p → d'.files p = d.files p) : Goes O d d' e' where
  steady := by rw [hd]; exact h.steady
  fault := by rw [hd, he, h.fault]
  files := hfiles
  within := hwithin
  kept := hd

theorem Goes.tick (h : Alike O d e) : Goes O d d.tick e.tick :=
  .of_call h rfl rfl h.files fun _ _ => rfl

/-- An oracle that never refuses is a steady one. -/
theorem Alike.self (h : d.NoFault) (O : P → Prop) : Alike O d d :=
  ⟨fun n m c => (h n c).trans (h m c).symm, rfl, fun _ _ => rfl⟩

/-! ## The calls -/

theorem Goes.stat (h : Alike O d e) (hp : O p) :
    (e.stat p).1 = (d.stat p).1 ∧ Goes O d (d.stat p).2 (e.stat p).2 := by
  refine ⟨?_, Goes.tick h⟩
  simp only [Disk.stat, h.refuses, h.files p hp]

theorem Goes.fread (h : Alike O d e) (hp : O p) :
    (e.fread p).1 = (d.fread p).1 ∧ Goes O d (d.fread p).2 (e.fread p).2 := by
  simp only [Disk.fread, h.refuses, h.files p hp]
  split
  · exact ⟨rfl, Goes.tick h⟩
  · exact ⟨rfl, Goes.tick h⟩
  · exact ⟨rfl, Goes.tick h⟩

variable [DecidableEq P]

/-- Replacing a file of their own. -/
theorem Goes.update (h : Alike O d e) (hp : O p) {f : Option File}
    (hd : d'.fault = d.fault) (he : e'.fault = e.fault)
    (hdf : d'.files = Function.update d.files p f) (hef : e'.files = Function.update e.files p f) :
    Goes O d d' e' := by
  refine .of_call h hd he (fun q hq => ?_) fun q hq => ?_
  · rw [hdf, hef, Function.update_apply, Function.update_apply, h.files q hq]
  · rw [hdf, Function.update_of_ne]
    exact fun heq => hq (heq ▸ hp)

theorem Goes.unlink (h : Alike O d e) (hp : O p) : Goes O d (d.unlink p) (e.unlink p) := by
  rw [Disk.unlink, Disk.unlink, h.refuses, h.files p hp]
  split
  · exact Goes.update h hp rfl rfl rfl rfl
  · exact Goes.tick h

theorem Goes.rename {q : P} (h : Alike O d e) (hp : O p) (hq : O q) :
    Goes O d (d.rename p q) (e.rename p q) := by
  rw [Disk.rename, Disk.rename, h.refuses, h.files p hp]
  split
  · next f _ _ =>
      have hfirst : Goes O d { d.tick with files := Function.update d.files p none }
          { e.tick with files := Function.update e.files p none } :=
        Goes.update h hp rfl rfl rfl rfl
      exact hfirst.trans (Goes.update hfirst.toAlike hq rfl rfl rfl rfl)
  · exact Goes.tick h

theorem Goes.moveOver {q : P} (h : Alike O d e) (hp : O p) (hq : O q) :
    Goes O d (d.moveOver p q) (e.moveOver p q) := by
  obtain ⟨hsame, hstat⟩ := Goes.stat h hp
  rw [Disk.moveOver, Disk.moveOver]
  generalize d.stat p = r at hsame hstat
  generalize e.stat p = r' at hsame hstat
  obtain ⟨b, d1⟩ := r
  obtain ⟨b', e1⟩ := r'
  subst hsame
  cases b' with
  | false => exact hstat
  | true =>
      have hunlink := Goes.unlink hstat.toAlike hq
      exact hstat.trans (hunlink.trans (Goes.rename hunlink.toAlike hp hq))

theorem Goes.fopen (h : Alike O d e) (hp : O p) :
    (e.fopen p).1 = (d.fopen p).1 ∧ Goes O d (d.fopen p).2 (e.fopen p).2 := by
  rw [Disk.fopen, Disk.fopen, h.refuses, h.files p hp]
  split
  · exact ⟨rfl, Goes.tick h⟩
  · exact ⟨rfl, Goes.tick h⟩
  · exact ⟨rfl, Goes.update h hp rfl rfl rfl rfl⟩

theorem Goes.truncate (h : Alike O d e) (hp : O p) :
    (e.truncate p).1 = (d.truncate p).1 ∧ Goes O d (d.truncate p).2 (e.truncate p).2 := by
  rw [Disk.truncate, Disk.truncate, h.refuses]
  split
  · exact ⟨rfl, Goes.tick h⟩
  · exact ⟨rfl, Goes.update h hp rfl rfl rfl rfl⟩

theorem Goes.append (h : Alike O d e) (hp : O p) (b : Bytes) :
    Goes O d (d.append p b) (e.append p b) := by
  rw [Disk.append, Disk.append, h.files p hp]
  split
  · exact Goes.update h hp rfl rfl rfl rfl
  · exact Goes.refl h

theorem Goes.fwrite (h : Alike O d e) (hp : O p) (b : Bytes) :
    (e.fwrite p b).1 = (d.fwrite p b).1 ∧ Goes O d (d.fwrite p b).2 (e.fwrite p b).2 := by
  rw [Disk.fwrite, Disk.fwrite, h.refuses]
  split
  · exact ⟨rfl, (Goes.append h hp b).trans (Goes.tick (Goes.append h hp b).toAlike)⟩
  · next n _ =>
      exact ⟨rfl, (Goes.append h hp _).trans (Goes.tick (Goes.append h hp (b.take n)).toAlike)⟩

omit [DecidableEq P] in
/-- Two results of a call, taken apart. -/
theorem Goes.pair {α : Type} {r r' : α × Disk P} (h : r'.1 = r.1 ∧ Goes O d r.2 r'.2) :
    ∃ a d' e', r = (a, d') ∧ r' = (a, e') ∧ Goes O d d' e' :=
  ⟨r.1, r.2, r'.2, rfl, Prod.ext h.1 rfl, h.2⟩

/-! ## Programs -/

/-- States of a program that have a disk, some names, and a condition under
which the program keeps to them. Putting in another disk changes nothing else. -/
structure Host (σ P : Type) where
  disk : σ → Disk P
  put : Disk P → σ → σ
  names : σ → P → Prop
  ok : σ → Prop
  disk_put : ∀ d s, disk (put d s) = d
  put_put : ∀ d d' s, put d (put d' s) = put d s
  put_disk : ∀ s, put (disk s) s = s
  names_put : ∀ d s, names (put d s) = names s
  ok_put : ∀ d s, ok (put d s) = ok s

/-- Results of the same kind, with states that are related. -/
inductive Ends {ε σ α : Type} (R : σ → σ → Prop) :
    EStateM.Result ε σ α → EStateM.Result ε σ α → Prop
  | ok {a s' t'} (h : R s' t') : Ends R (.ok a s') (.ok a t')
  | error {e s' t'} (h : R s' t') : Ends R (.error e s') (.error e t')

namespace Host

variable {σ ε α β : Type} {H : Host σ P}

/-- From `s` the program went to `s'`, and over another disk to `t'`, which
differs from `s'` in nothing but the other names. -/
structure Next (H : Host σ P) (s s' t' : σ) : Prop where
  goes : Goes (H.names s) (H.disk s) (H.disk s') (H.disk t')
  same : t' = H.put (H.disk t') s'
  names : H.names s' = H.names s
  ok : H.ok s'

/-- The same state, over two disks. -/
def Near (H : Host σ P) (s t : σ) : Prop := H.Next s s t

def Steps (H : Host σ P) (f : σ → σ) : Prop := ∀ s t, H.Near s t → H.Next s (f s) (f t)

def Runs (H : Host σ P) (f : EStateM ε σ α) : Prop :=
  ∀ s t, H.Near s t → Ends (H.Next s) (f s) (f t)

variable {s s' t' s'' t'' : σ}

omit [DecidableEq P] in
theorem Next.near (h : H.Next s s' t') : H.Near s' t' where
  goes := by
    rw [h.names]
    exact Goes.refl h.goes.toAlike
  same := h.same
  names := rfl
  ok := h.ok

omit [DecidableEq P] in
theorem Next.trans (h : H.Next s s' t') (h' : H.Next s' s'' t'') : H.Next s s'' t'' where
  goes := by
    have hgoes := h'.goes
    rw [h.names] at hgoes
    exact h.goes.trans hgoes
  same := h'.same
  names := h'.names.trans h.names
  ok := h'.ok

omit [DecidableEq P] in
/-- What is to be shown of a step: it left the same behind, over two disks. -/
theorem Next.of (u : σ) {d' e' : Disk P} (hgoes : Goes (H.names s) (H.disk s) d' e')
    (hnames : H.names u = H.names s) (hok : H.ok u) : H.Next s (H.put d' u) (H.put e' u) where
  goes := by rwa [H.disk_put, H.disk_put]
  same := by rw [H.disk_put, H.put_put]
  names := by rw [H.names_put, hnames]
  ok := by rwa [H.ok_put]

omit [DecidableEq P] in
/-- Something that is not the disk is changed afterwards. -/
theorem Next.adjust (h : H.Next s s' t') (u : σ → σ)
    (hput : ∀ d s, u (H.put d s) = H.put d (u s)) (hdisk : ∀ s, H.disk (u s) = H.disk s)
    (hnames : ∀ s, H.names (u s) = H.names s) (hok : H.ok s' → H.ok (u s')) :
    H.Next s (u s') (u t') where
  goes := by
    rw [hdisk, hdisk]
    exact h.goes
  same := by rw [hdisk, ← hput, ← h.same]
  names := (hnames s').trans h.names
  ok := hok h.ok

omit [DecidableEq P] in
/-- A step is looked at over one disk and another. -/
theorem steps_of {f : σ → σ}
    (h : ∀ s e, H.ok s → Alike (H.names s) (H.disk s) e → H.Next s (f s) (f (H.put e s))) :
    H.Steps f := by
  intro s t ht
  have hstep := h s (H.disk t) ht.ok ht.goes.toAlike
  rwa [← ht.same] at hstep

omit [DecidableEq P] in
theorem runs_of {f : EStateM ε σ α}
    (h : ∀ s e, H.ok s → Alike (H.names s) (H.disk s) e →
      Ends (H.Next s) (f s) (f (H.put e s))) : H.Runs f := by
  intro s t ht
  have hrun := h s (H.disk t) ht.ok ht.goes.toAlike
  rwa [← ht.same] at hrun

omit [DecidableEq P] in
theorem near_put {e : Disk P} (hok : H.ok s) (h : Alike (H.names s) (H.disk s) e) :
    H.Near s (H.put e s) where
  goes := by
    rw [H.disk_put]
    exact Goes.refl h
  same := by rw [H.disk_put]
  names := rfl
  ok := hok

omit [DecidableEq P] in
theorem Steps.runs {f : σ → σ} (h : H.Steps f) : H.Runs (modify f : EStateM ε σ Unit) :=
  fun s t ht => .ok (h s t ht)

omit [DecidableEq P] in
theorem Ends.mono {R R' : σ → σ → Prop} {r r' : EStateM.Result ε σ α} (h : Ends R r r')
    (hR : ∀ s t, R s t → R' s t) : Ends R' r r' := by
  cases h with
  | ok h => exact .ok (hR _ _ h)
  | error h => exact .error (hR _ _ h)

omit [DecidableEq P] in
theorem Runs.bind {f : EStateM ε σ α} {g : α → EStateM ε σ β} (hf : H.Runs f)
    (hg : ∀ a, H.Runs (g a)) : H.Runs (f >>= g) := by
  intro s t ht
  have hfirst := hf s t ht
  cases hs : f s with
  | ok a s' =>
      rw [hs] at hfirst
      generalize ht' : f t = r at hfirst
      cases hfirst with
      | ok hnext =>
          rw [bind_of_ok hs, bind_of_ok ht']
          exact Ends.mono (hg a _ _ hnext.near) fun _ _ h => hnext.trans h
  | error e s' =>
      rw [hs] at hfirst
      generalize ht' : f t = r at hfirst
      cases hfirst with
      | error hnext =>
          rw [bind_of_error hs, bind_of_error ht']
          exact .error hnext

omit [DecidableEq P] in
/-- A step first, and then a program that may throw. -/
theorem Runs.after {f : σ → σ} {g : EStateM ε σ α} (hg : H.Runs g) (hf : H.Steps f) :
    H.Runs fun s => g (f s) :=
  fun s t ht => Ends.mono (hg _ _ (hf s t ht).near) fun _ _ h => (hf s t ht).trans h

omit [DecidableEq P] in
theorem Ends.final {R : σ → σ → Prop} {r r' : EStateM.Result ε σ α} (h : Ends R r r') :
    R (Lib.final r) (Lib.final r') := by
  cases h with
  | ok h => exact h
  | error h => exact h

/-- Results of a constructor over two disks: it built the same, or threw the
same and left disks behind. -/
inductive Builds (H : Host σ P) (O : P → Prop) (d : Disk P) :
    EStateM.Result ε (Disk P) σ → EStateM.Result ε (Disk P) σ → Prop
  | ok {s t d' e'} (goes : Goes O d (H.disk s) (H.disk t)) (same : t = H.put (H.disk t) s)
      (names : H.names s = O) (ok : H.ok s) : Builds H O d (.ok s d') (.ok t e')
  | error {x d' e'} (goes : Goes O d d' e') : Builds H O d (.error x d') (.error x e')

omit [DecidableEq P] in
/-- Whether it throws or not. -/
theorem Runs.final {f : EStateM ε σ α} (h : H.Runs f) : H.Steps fun s => Lib.final (f s) :=
  fun s t ht => Ends.final (h s t ht)

end Host

/-! ## Several programs on one disk -/

/-- Programs by key, and the disk they share. -/
structure System (σ P K : Type) where
  cells : K → σ
  disk : Disk P

namespace System

variable {σ K ι : Type} [DecidableEq K]

/-- A program, on the disk as it is now. -/
def seen (H : Host σ P) (S : System σ P K) (k : K) : σ := H.put S.disk (S.cells k)

/-- The turn of one program. -/
def turn (H : Host σ P) (f : ι → σ → σ) (S : System σ P K) (e : K × ι) : System σ P K where
  cells := Function.update S.cells e.1 (f e.2 (S.seen H e.1))
  disk := H.disk (f e.2 (S.seen H e.1))

def run (H : Host σ P) (f : ι → σ → σ) (S : System σ P K) (es : List (K × ι)) : System σ P K :=
  es.foldl (turn H f) S

/-- What one program does among the others. -/
def share (k : K) (es : List (K × ι)) : List ι :=
  es.filterMap fun e => if e.1 = k then some e.2 else none

/-- What it does, on a disk of its own. -/
def alone (f : ι → σ → σ) (s : σ) (is : List ι) : σ := is.foldl (fun s i => f i s) s

variable {H : Host σ P} {f : ι → σ → σ} {S : System σ P K} {k l : K}

/-- Each program is where it would be alone. -/
structure Apart (H : Host σ P) (N : K → P → Prop) (S : System σ P K) (t : K → σ) : Prop where
  near : ∀ k, H.Near (S.seen H k) (t k)
  names : ∀ k, H.names (S.cells k) = N k

omit [DecidableEq P] [DecidableEq K] in
theorem seen_names (S : System σ P K) (k : K) : H.names (S.seen H k) = H.names (S.cells k) :=
  H.names_put _ _

omit [DecidableEq P] [DecidableEq K] in
@[simp] theorem disk_seen (S : System σ P K) (k : K) : H.disk (S.seen H k) = S.disk :=
  H.disk_put _ _

omit [DecidableEq P] in
theorem turn_cells (S : System σ P K) (k : K) (i : ι) :
    (S.turn H f (k, i)).cells k = f i (S.seen H k) :=
  Function.update_self ..

omit [DecidableEq P] in
theorem turn_cells_of_ne (S : System σ P K) (h : l ≠ k) (i : ι) :
    (S.turn H f (k, i)).cells l = S.cells l :=
  Function.update_of_ne h ..

omit [DecidableEq P] in
/-- After its turn a program is seen as it left itself. -/
theorem seen_turn (S : System σ P K) (k : K) (i : ι) :
    (S.turn H f (k, i)).seen H k = f i (S.seen H k) := by
  rw [seen, turn_cells]
  exact H.put_disk _

omit [DecidableEq P] in
theorem seen_turn_of_ne (S : System σ P K) (h : l ≠ k) (i : ι) :
    (S.turn H f (k, i)).seen H l = H.put (H.disk (f i (S.seen H k))) (S.seen H l) := by
  rw [seen, turn_cells_of_ne S h]
  exact (H.put_put _ _ _).symm

variable {N : K → P → Prop} {t : K → σ}

omit [DecidableEq P] in
/-- One turn: the program that has it does what it would do alone, and nothing
changes that another one sees. -/
theorem Apart.turn (hf : ∀ i, H.Steps (f i)) (hN : ∀ k l p, N k p → N l p → k = l)
    (h : Apart H N S t) (e : K × ι) :
    Apart H N (S.turn H f e) (Function.update t e.1 (f e.2 (t e.1))) := by
  obtain ⟨k, i⟩ := e
  have hnext := hf i _ _ (h.near k)
  have hnames : H.names (f i (S.seen H k)) = N k := by
    rw [hnext.names, seen_names, h.names k]
  refine ⟨fun l => ?_, fun l => ?_⟩
  · by_cases hlk : l = k
    · subst hlk
      rw [seen_turn, Function.update_self]
      exact hnext.near
    · have hl := h.near l
      rw [seen_turn_of_ne S hlk, Function.update_of_ne hlk]
      have halike : Alike (H.names (S.seen H l)) (H.disk (f i (S.seen H k))) (H.disk (t l)) := by
        refine ⟨hnext.goes.steady, ?_, fun p hp => ?_⟩
        · rw [hnext.goes.kept, hl.goes.fault, disk_seen, disk_seen]
        · rw [hl.goes.files p hp, disk_seen, hnext.goes.within p, disk_seen]
          intro hk
          rw [seen_names, h.names] at hp hk
          exact hlk (hN _ _ _ hp hk)
      refine ⟨?_, ?_, rfl, ?_⟩
      · rw [H.names_put, H.disk_put]
        exact Goes.refl halike
      · rw [H.put_put]
        exact hl.same
      · rw [H.ok_put]
        exact hl.ok
  · by_cases hlk : l = k
    · subst hlk
      rw [turn_cells]
      exact hnames
    · rw [turn_cells_of_ne S hlk]
      exact h.names l

theorem share_cons (k : K) (e : K × ι) (es : List (K × ι)) :
    share k (e :: es) = if e.1 = k then e.2 :: share k es else share k es := by
  rw [share, List.filterMap_cons]
  split <;> split <;> simp_all [share]

omit [DecidableEq P] in
/-- A run in any order. -/
theorem Apart.run (hf : ∀ i, H.Steps (f i)) (hN : ∀ k l p, N k p → N l p → k = l) :
    ∀ (es : List (K × ι)) {S : System σ P K} {t : K → σ}, Apart H N S t →
      Apart H N (S.run H f es) fun k => alone f (t k) (share k es) := by
  intro es
  induction es with
  | nil => exact fun h => h
  | cons e es ih =>
      intro S t h
      have hrest := ih (h.turn hf hN e)
      have halone : (fun k => alone f (Function.update t e.1 (f e.2 (t e.1)) k) (share k es)) =
          fun k => alone f (t k) (share k (e :: es)) := by
        funext k
        rw [share_cons]
        by_cases hk : e.1 = k
        · subst hk
          rw [Function.update_self, if_pos rfl]
          rfl
        · rw [Function.update_of_ne (Ne.symm hk), if_neg hk]
      rw [halone] at hrest
      exact hrest

omit [DecidableEq P] in
/-- Files under nobody's names stay as they are. -/
theorem Apart.elsewhere (hf : ∀ i, H.Steps (f i)) (hN : ∀ k l p, N k p → N l p → k = l) {p : P}
    (hp : ∀ k, ¬ N k p) :
    ∀ (es : List (K × ι)) {S : System σ P K} {t : K → σ}, Apart H N S t →
      (S.run H f es).disk.files p = S.disk.files p := by
  intro es
  induction es with
  | nil => exact fun _ => rfl
  | cons e es ih =>
      intro S t h
      have hwithin := (hf e.2 _ _ (h.near e.1)).goes.within p
      rw [seen_names, h.names, disk_seen] at hwithin
      exact (ih (h.turn hf hN e)).trans (hwithin (hp e.1))

end System

end UempPlugin.Lib
