import Mathlib.Data.List.Induction
import Mathlib.Data.List.Nodup
import Mathlib.Data.List.Basic

/-!
# Publish and subscribe

Subscribers come under an id, go by that id or when another one comes under
it, and hear what is published while they are there. A history of such events
says who is subscribed after it; what a message brings is then one delivery to
each of them that wants it. The faithful model of a program with callbacks is
compared with this one.
-/

namespace UempPlugin.Lib

variable {I C M : Type}

inductive Event (I C M : Type) where
  | subscribe (id : I) (subscriber : C)
  | unsubscribe (id : I)
  | publish (message : M)

section

variable [DecidableEq I]

/-- What an event does to the list of subscribers. -/
def Event.next (subscribers : List (I × C)) : Event I C M → List (I × C)
  | .subscribe id subscriber => subscribers.filter (fun p => p.1 ≠ id) ++ [(id, subscriber)]
  | .unsubscribe id => subscribers.filter fun p => p.1 ≠ id
  | .publish _ => subscribers

/-- The subscribers after a history. -/
def subscribers (history : List (Event I C M)) : List (I × C) :=
  history.foldl Event.next []

theorem subscribers_append (history events : List (Event I C M)) :
    subscribers (history ++ events) = events.foldl Event.next (subscribers history) := by
  rw [subscribers, List.foldl_append]
  rfl

/-- Messages leave the subscribers alone. -/
theorem foldl_publish (ps : List (I × C)) (messages : List M) :
    (messages.map Event.publish).foldl Event.next ps = ps := by
  induction messages with
  | nil => rfl
  | cons m ms ih => exact ih

/-- The event ends the subscription under the id, if there is one. -/
def Event.Ends (id : I) : Event I C M → Prop
  | .subscribe id' _ => id' = id
  | .unsubscribe id' => id' = id
  | .publish _ => False

/-- The subscriber came under the id, and nothing ended that since. -/
def Since (history : List (Event I C M)) (id : I) (subscriber : C) : Prop :=
  ∃ pre post, history = pre ++ .subscribe id subscriber :: post ∧ ∀ e ∈ post, ¬ e.Ends id

omit [DecidableEq I] in
theorem since_snoc {history : List (Event I C M)} {event : Event I C M} {id : I} {c : C} :
    Since (history ++ [event]) id c ↔
      event = .subscribe id c ∨ Since history id c ∧ ¬ event.Ends id := by
  constructor
  · intro ⟨pre, post, hsplit, hpost⟩
    cases post using List.reverseRecOn with
    | nil =>
        have hlast := (List.append_inj' hsplit rfl).2
        exact .inl (by simpa using hlast)
    | append_singleton post last _ =>
        rw [← List.cons_append, ← List.append_assoc] at hsplit
        obtain ⟨hhistory, hlast⟩ := List.append_inj' hsplit rfl
        have hevent : event = last := by simpa using hlast
        refine .inr ⟨⟨pre, post, hhistory, fun e he => hpost e (by simp [he])⟩, ?_⟩
        rw [hevent]
        exact hpost last (by simp)
  · intro h
    rcases h with hsub | ⟨⟨pre, post, hsplit, hpost⟩, hends⟩
    · exact ⟨history, [], by rw [hsub], by simp⟩
    · refine ⟨pre, post ++ [event], by rw [hsplit, List.append_assoc, List.cons_append], ?_⟩
      intro e he
      rcases List.mem_append.1 he with hmem | hmem
      · exact hpost e hmem
      · rw [List.mem_singleton.1 hmem]
        exact hends

/-- Who is subscribed. -/
theorem mem_subscribers {history : List (Event I C M)} {id : I} {c : C} :
    (id, c) ∈ subscribers history ↔ Since history id c := by
  induction history using List.reverseRecOn with
  | nil => simp [subscribers, Since]
  | append_singleton history event ih =>
      rw [subscribers_append, since_snoc, ← ih, List.foldl_cons, List.foldl_nil]
      cases event with
      | subscribe id' c' =>
          rw [Event.next, List.mem_append, List.mem_singleton, List.mem_filter, or_comm, Event.Ends]
          simp only [Prod.mk.injEq, Event.subscribe.injEq, ne_eq, decide_eq_true_eq,
            eq_comm (a := id), eq_comm (a := c)]
      | unsubscribe id' =>
          rw [Event.next, List.mem_filter, Event.Ends]
          simp only [reduceCtorEq, false_or, ne_eq, decide_eq_true_eq, eq_comm (a := id)]
      | publish m => simp [Event.next, Event.Ends]

end

section

variable [DecidableEq C] (wants : C → M → Bool)

/-- What a message brings to a list of subscribers. -/
def deliver (cs : List C) (message : M) : List (C × M) :=
  (cs.filter fun c => wants c message).map fun c => (c, message)

/-- What one subscriber hears of some deliveries. -/
def heard (c : C) (deliveries : List (C × M)) : List M :=
  (deliveries.filter fun d => d.1 = c).map Prod.snd

theorem heard_append (c : C) (ds ds' : List (C × M)) :
    heard c (ds ++ ds') = heard c ds ++ heard c ds' := by
  rw [heard, heard, heard, List.filter_append, List.map_append]

theorem heard_deliver_of_notMem {c : C} {cs : List C} (h : c ∉ cs) (message : M) :
    heard c (deliver wants cs message) = [] := by
  rw [heard, List.map_eq_nil_iff, List.filter_eq_nil_iff]
  intro d hd hc
  obtain ⟨c', hmem, rfl⟩ := List.mem_map.1 hd
  rw [decide_eq_true_eq] at hc
  exact h (hc ▸ (List.mem_filter.1 hmem).1)

/-- Each subscriber that wants a message hears it once. -/
theorem heard_deliver {c : C} {cs : List C} (hnodup : cs.Nodup) (h : c ∈ cs) (message : M) :
    heard c (deliver wants cs message) = if wants c message then [message] else [] := by
  obtain ⟨pre, post, rfl⟩ := List.append_of_mem h
  rw [List.nodup_append, List.nodup_cons] at hnodup
  obtain ⟨-, ⟨hpost, -⟩, hdisj⟩ := hnodup
  have hpre : c ∉ pre := fun hmem => hdisj c hmem c List.mem_cons_self rfl
  have hsplit : deliver wants (pre ++ c :: post) message =
      deliver wants pre message ++ (deliver wants [c] message ++ deliver wants post message) := by
    simp only [deliver, ← List.map_append, ← List.filter_append, List.singleton_append]
  rw [hsplit, heard_append, heard_append, heard_deliver_of_notMem wants hpre,
    heard_deliver_of_notMem wants hpost, List.nil_append, List.append_nil, deliver]
  cases hw : wants c message <;> simp [heard, hw]

/-- Of some messages in a row a subscriber hears those it wants, each once and
in their order. -/
theorem heard_deliverAll {c : C} {cs : List C} (hnodup : cs.Nodup) (h : c ∈ cs)
    (messages : List M) :
    heard c (messages.flatMap (deliver wants cs)) = messages.filter (wants c) := by
  induction messages with
  | nil => rfl
  | cons m ms ih =>
      rw [List.flatMap_cons, heard_append, heard_deliver wants hnodup h, ih, List.filter_cons]
      split <;> rfl

/-- Who is not subscribed hears nothing. -/
theorem heard_deliverAll_of_notMem {c : C} {cs : List C} (h : c ∉ cs) (messages : List M) :
    heard c (messages.flatMap (deliver wants cs)) = [] := by
  induction messages with
  | nil => rfl
  | cons m ms ih =>
      rw [List.flatMap_cons, heard_append, heard_deliver_of_notMem wants h, ih, List.nil_append]

end

end UempPlugin.Lib
