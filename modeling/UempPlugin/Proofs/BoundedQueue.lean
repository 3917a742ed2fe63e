import UempPlugin.Ref.CircularQ

/-!
# The ring buffer is a bounded queue

`Holds` reads the members of a `circular_q` as a `Bounded` queue: the items
are the window from `head_` on, and `tail_` is the slot behind the last of
them. Every operation of the one is the operation of the other. The capacity
is what the constructor was asked for, unless the number of slots wrapped.
-/

namespace UempPlugin.Ref.CircularQ

open UempPlugin.Lib

variable {α : Type} [Inhabited α] {n : Nat}

structure Holds (q : CircularQ α) (b : Bounded n α) : Prop where
  slots : q.maxItems = n + 1
  allocated : q.v.length = n + 1
  head : q.head < n + 1
  tail : q.tail = (q.head + b.items.length) % (n + 1)
  window : window q.v q.head b.items.length = b.items
  overrun : q.overrunCounter = b.overrun % 2 ^ 64

variable {q : CircularQ α} {b : Bounded n α}

/-- `tail_`, with the wrapping done by hand. -/
theorem Holds.tail_cases (h : Holds q b) :
    (q.head + b.items.length < n + 1 ∧ q.tail = q.head + b.items.length) ∨
      (n + 1 ≤ q.head + b.items.length ∧ q.tail + (n + 1) = q.head + b.items.length) := by
  have hfits := b.fits
  have hhead := h.head
  rw [h.tail]
  rcases Nat.lt_or_ge (q.head + b.items.length) (n + 1) with hlt | hge
  · exact .inl ⟨hlt, Nat.mod_eq_of_lt hlt⟩
  · refine .inr ⟨hge, ?_⟩
    rw [Nat.mod_eq_sub_mod hge, Nat.mod_eq_of_lt (by omega)]
    omega

theorem Holds.size (h : Holds q b) : q.size = b.items.length := by
  have hfits := b.fits
  rw [CircularQ.size, h.slots]
  rcases h.tail_cases with ⟨hlt, ht⟩ | ⟨hge, ht⟩
  · rw [if_pos (by omega)]
    omega
  · have hhead := h.head
    rw [if_neg (by omega)]
    omega

theorem Holds.items (h : Holds q b) : q.items = b.items := by
  rw [CircularQ.items, h.size, ← h.window, window_length, Lib.window, h.allocated]
  refine List.map_congr_left fun i _ => ?_
  rw [CircularQ.item, h.slots]

theorem Holds.empty_iff (h : Holds q b) : q.empty = true ↔ b.items = [] := by
  have hfits := b.fits
  have hhead := h.head
  rw [CircularQ.empty, decide_eq_true_iff, ← List.length_eq_zero_iff]
  rcases h.tail_cases with ⟨hlt, ht⟩ | ⟨hge, ht⟩
  · omega
  · omega

theorem Holds.full_iff (h : Holds q b) : q.full = true ↔ b.items.length = n := by
  have hfits := b.fits
  have hhead := h.head
  have hnext : (q.tail + 1) % (n + 1) = if q.tail = n then 0 else q.tail + 1 := by
    split
    · next heq => rw [heq, Nat.mod_self]
    · next hne =>
        have htail : q.tail < n + 1 := by rw [h.tail]; exact Nat.mod_lt _ (Nat.succ_pos n)
        exact Nat.mod_eq_of_lt (by omega)
  rw [CircularQ.full, h.slots, if_pos (Nat.succ_pos n), decide_eq_true_iff, hnext]
  rcases h.tail_cases with ⟨hlt, ht⟩ | ⟨hge, ht⟩
  · split
    · omega
    · omega
  · split
    · omega
    · omega

theorem Holds.front (h : Holds q b) {x : α} {xs : List α} (hx : b.items = x :: xs) :
    q.front = x := by
  have hw := h.window
  rw [hx, List.length_cons, window_succ, h.allocated, Nat.mod_eq_of_lt h.head] at hw
  exact (List.cons.inj hw).1

/-! ## The operations -/

theorem holds_construct (hn : n + 1 < 2 ^ 64) :
    Holds (construct (α := α) n) (Bounded.empty n α) where
  slots := Nat.mod_eq_of_lt hn
  allocated := by rw [construct, List.length_replicate, Nat.mod_eq_of_lt hn]
  head := Nat.succ_pos n
  tail := (Nat.zero_mod _).symm
  window := rfl
  overrun := rfl

theorem Holds.popFront (h : Holds q b) (hne : b.items ≠ []) : Holds q.popFront b.pop := by
  obtain ⟨x, xs, hx⟩ := List.exists_cons_of_ne_nil hne
  have hlen : b.pop.items.length = b.items.length - 1 := List.length_tail
  have hpos : 0 < b.items.length := List.length_pos_iff.2 hne
  refine ⟨h.slots, h.allocated, ?_, ?_, ?_, h.overrun⟩
  · rw [CircularQ.popFront, h.slots]
    exact Nat.mod_lt _ (Nat.succ_pos n)
  · rw [CircularQ.popFront, h.slots, Nat.mod_add_mod, hlen]
    show q.tail = _
    rw [h.tail]
    congr 1
    omega
  · have hw := h.window
    rw [hx, List.length_cons, window_succ] at hw
    show Lib.window q.v ((q.head + 1) % q.maxItems) b.pop.items.length = b.items.tail
    rw [h.slots, ← h.allocated, window_mod, hlen, hx]
    exact (List.cons.inj hw).2

/-- Writing behind the last item, before the queue looks whether it is full. -/
theorem Holds.write (h : Holds q b) (x : α) :
    Lib.window (q.v.set q.tail x) q.head (b.items.length + 1) = b.items ++ [x] := by
  have hfits := b.fits
  rw [h.tail, ← h.allocated, window_push (by rw [h.allocated]; omega), h.window]

theorem Holds.pushBack (h : Holds q b) (x : α) : Holds (q.pushBack x) (b.push x) := by
  have hfits := b.fits
  have hhead := h.head
  have hw := h.write x
  have hnext : (q.tail + 1) % (n + 1) = q.head ↔ b.items.length = n := by
    rw [← h.full_iff, CircularQ.full, h.slots, if_pos (Nat.succ_pos n), decide_eq_true_iff]
  have htail : (q.tail + 1) % (n + 1) = (q.head + (b.items.length + 1)) % (n + 1) := by
    rw [h.tail, Nat.mod_add_mod, Nat.add_assoc]
  rw [CircularQ.pushBack, h.slots, if_pos (Nat.succ_pos n)]
  by_cases hfull : b.items.length = n
  · -- the window moves on by one slot
    obtain ⟨hitems, hover⟩ := Bounded.push_full hfull x
    have hlen : (b.push x).items.length = n := by
      rw [hitems, List.length_tail, List.length_append, List.length_singleton]
      omega
    rw [if_pos (hnext.2 hfull)]
    refine ⟨rfl, by rw [List.length_set]; exact h.allocated, Nat.mod_lt _ (Nat.succ_pos n),
      ?_, ?_, ?_⟩
    · show (q.tail + 1) % (n + 1) = ((q.head + 1) % (n + 1) + (b.push x).items.length) % (n + 1)
      rw [hlen, Nat.mod_add_mod, htail, hfull]
      congr 1
      omega
    · show Lib.window (q.v.set q.tail x) ((q.head + 1) % (n + 1)) (b.push x).items.length = _
      have hset : (q.v.set q.tail x).length = n + 1 := by rw [List.length_set, h.allocated]
      rw [window_succ, hfull] at hw
      rw [← hset, window_mod, hlen, hitems, ← hw, List.tail_cons]
    · show (q.overrunCounter + 1) % 2 ^ 64 = (b.push x).overrun % 2 ^ 64
      rw [hover, h.overrun, Nat.mod_add_mod]
  · obtain ⟨hitems, hover⟩ := Bounded.push_room (by omega : b.items.length < n) x
    have hlen : (b.push x).items.length = b.items.length + 1 := by
      rw [hitems, List.length_append, List.length_singleton]
    rw [if_neg (fun heq => hfull (hnext.1 heq))]
    refine ⟨rfl, by rw [List.length_set]; exact h.allocated, hhead, ?_, ?_, ?_⟩
    · rw [hlen]
      exact htail
    · rw [hlen, hw, hitems]
    · rw [hover]
      exact h.overrun

/-! ## The blocking queue

Where a full queue makes its caller wait, nothing is ever overrun. -/

/-- The queue holds the items, and has lost none. -/
def Queues (n : Nat) (q : CircularQ α) (xs : List α) : Prop :=
  ∃ b : Bounded n α, Holds q b ∧ b.items = xs ∧ b.overrun = 0

section

variable {xs : List α} {x : α} {q' : CircularQ α}

theorem queues_construct (hn : n + 1 < 2 ^ 64) : Queues n (construct (α := α) n) [] :=
  ⟨Bounded.empty n α, holds_construct hn, rfl, rfl⟩

theorem Queues.items (h : Queues n q xs) : q.items = xs := by
  obtain ⟨b, hb, rfl, -⟩ := h
  exact hb.items

theorem Queues.overrun (h : Queues n q xs) : q.overrunCounter = 0 := by
  obtain ⟨b, hb, -, hover⟩ := h
  rw [hb.overrun, hover, Nat.zero_mod]

theorem Queues.enqueue (h : Queues n q xs) (he : enqueue x q = some q') :
    Queues n q' (xs ++ [x]) := by
  obtain ⟨b, hb, rfl, hover⟩ := h
  rw [CircularQ.enqueue] at he
  split at he
  · cases he
  · next hfull =>
      cases he
      have hroom : b.items.length < n :=
        Nat.lt_of_le_of_ne b.fits fun heq => hfull (hb.full_iff.2 heq)
      obtain ⟨hitems, hsame⟩ := Bounded.push_room hroom x
      exact ⟨b.push x, hb.pushBack x, hitems, hsame.trans hover⟩

theorem Queues.enqueue_none (h : Queues n q xs) (he : CircularQ.enqueue x q = none) :
    xs.length = n := by
  obtain ⟨b, hb, rfl, -⟩ := h
  rw [CircularQ.enqueue] at he
  split at he
  · next hfull => exact hb.full_iff.1 hfull
  · cases he

theorem Queues.dequeue (h : Queues n q xs) (he : dequeue q = some (x, q')) :
    ∃ rest, xs = x :: rest ∧ Queues n q' rest := by
  obtain ⟨b, hb, rfl, hover⟩ := h
  rw [CircularQ.dequeue] at he
  split at he
  · cases he
  · next hempty =>
      cases he
      have hne : b.items ≠ [] := fun hnil => hempty (hb.empty_iff.2 hnil)
      obtain ⟨y, rest, hrest⟩ := List.exists_cons_of_ne_nil hne
      refine ⟨rest, by rw [hb.front hrest, hrest], b.pop, hb.popFront hne, ?_, hover⟩
      show b.items.tail = rest
      rw [hrest, List.tail_cons]

/-- A queue that is not full takes a further item. -/
theorem Queues.enqueue_some (h : Queues n q xs) (hroom : xs.length < n) (x : α) :
    ∃ q', CircularQ.enqueue x q = some q' ∧ Queues n q' (xs ++ [x]) := by
  cases he : CircularQ.enqueue x q with
  | none =>
      have := h.enqueue_none he
      omega
  | some q' => exact ⟨q', rfl, h.enqueue he⟩

theorem Queues.dequeue_none (h : Queues n q xs) (he : CircularQ.dequeue q = none) : xs = [] := by
  obtain ⟨b, hb, rfl, -⟩ := h
  rw [CircularQ.dequeue] at he
  split at he
  · next hempty => exact hb.empty_iff.1 hempty
  · cases he

/-- One that is not empty gives its first item away. -/
theorem Queues.dequeue_some (h : Queues n q (x :: xs)) :
    ∃ q', CircularQ.dequeue q = some (x, q') ∧ Queues n q' xs := by
  cases he : CircularQ.dequeue q with
  | none => cases h.dequeue_none he
  | some r =>
      obtain ⟨rest, hrest, hnext⟩ := h.dequeue he
      cases hrest
      exact ⟨r.2, rfl, hnext⟩

/-! A caller that looks whether the queue is full before it adds an item, and
then makes room itself. -/

theorem Queues.length_le (h : Queues n q xs) : xs.length ≤ n := by
  obtain ⟨b, -, rfl, -⟩ := h
  exact b.fits

theorem Queues.full_iff (h : Queues n q xs) : q.full = true ↔ xs.length = n := by
  obtain ⟨b, hb, rfl, -⟩ := h
  exact hb.full_iff

theorem Queues.front (h : Queues n q (x :: xs)) : q.front = x := by
  obtain ⟨b, hb, hitems, -⟩ := h
  exact hb.front hitems

theorem Queues.popFront (h : Queues n q (x :: xs)) : Queues n q.popFront xs := by
  obtain ⟨b, hb, hitems, hover⟩ := h
  refine ⟨b.pop, hb.popFront (hitems ▸ List.cons_ne_nil x xs), ?_, hover⟩
  show b.items.tail = xs
  rw [hitems, List.tail_cons]

theorem Queues.pushBack (h : Queues n q xs) (hroom : xs.length < n) (x : α) :
    Queues n (q.pushBack x) (xs ++ [x]) := by
  obtain ⟨b, hb, rfl, hover⟩ := h
  obtain ⟨hitems, hsame⟩ := Bounded.push_room hroom x
  exact ⟨b.push x, hb.pushBack x, hitems, hsame.trans hover⟩

theorem Queues.pushAll : ∀ (ys : List α) {xs : List α} {q : CircularQ α}, Queues n q xs →
    xs.length + ys.length ≤ n → Queues n (ys.foldl (fun q y => q.pushBack y) q) (xs ++ ys) := by
  intro ys
  induction ys with
  | nil =>
      intro xs q h _
      rw [List.append_nil]
      exact h
  | cons y ys ih =>
      intro xs q h hroom
      rw [List.length_cons] at hroom
      have hpush := h.pushBack (by omega) y
      have hrest := ih hpush (by rw [List.length_append, List.length_singleton]; omega)
      rwa [List.append_assoc] at hrest

end

/-! ## Runs -/

/-- The same call on a bounded queue. -/
def boundedStep (b : Bounded n α) : Op α → Bounded n α
  | .pushBack item => b.push item
  | .popFront => b.pop

def boundedRun (b : Bounded n α) (ops : List (Op α)) : Bounded n α := ops.foldl boundedStep b

theorem Holds.step (h : Holds q b) (op : Op α) : Holds (q.step op) (boundedStep b op) := by
  cases op with
  | pushBack item => exact h.pushBack item
  | popFront =>
      by_cases hne : b.items = []
      · have hpop : b.pop = b := by
          cases b with
          | mk items overrun fits =>
              cases hne
              rfl
        rw [CircularQ.step, if_pos (h.empty_iff.2 hne), boundedStep, hpop]
        exact h
      · rw [CircularQ.step, if_neg (fun he => hne (h.empty_iff.1 he))]
        exact h.popFront hne

theorem Holds.run (h : Holds q b) (ops : List (Op α)) : Holds (q.run ops) (boundedRun b ops) := by
  induction ops generalizing q b with
  | nil => exact h
  | cons op ops ih => exact ih (h.step op)

/-- From its construction on, a `circular_q` for `n` items is the bounded queue
for `n` items, whatever is pushed and popped: the items, their number, the
first one, the tests for empty and full, and the count of the overruns. -/
theorem circularQ_refines (hn : n + 1 < 2 ^ 64) (ops : List (Op α)) :
    let q := run (construct n) ops
    let b := boundedRun (Bounded.empty n α) ops
    q.items = b.items ∧ q.size = b.items.length ∧ (q.empty = true ↔ b.items = []) ∧
      (q.full = true ↔ b.items.length = n) ∧ (∀ x ∈ b.items.head?, q.front = x) ∧
      q.overrunCounter = b.overrun % 2 ^ 64 := by
  have h := (holds_construct hn).run ops
  refine ⟨h.items, h.size, h.empty_iff, h.full_iff, fun x hx => ?_, h.overrun⟩
  obtain ⟨xs, hxs⟩ := List.head?_eq_some_iff.1 hx
  exact h.front hxs

theorem circularQ_refines_two :
    let q := run (construct 2) [.pushBack 1, .pushBack 2, .popFront, .pushBack 3, .pushBack 4]
    q.items = [3, 4] ∧ q.overrunCounter = 1 := by
  have h := circularQ_refines (n := 2) (by decide)
    [.pushBack 1, .pushBack 2, .popFront, .pushBack 3, .pushBack 4]
  exact ⟨h.1, h.2.2.2.2.2⟩

end UempPlugin.Ref.CircularQ
