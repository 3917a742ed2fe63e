import UempPlugin.Proofs.CallbackSinks
import UempPlugin.Ref.Id8Generator

/-!
# When callback ids differ

Nothing keeps two ids from being the same: the counter alone never repeats, but
it is xor-ed with the clock, which can undo its step. That can happen at every
value of the counter and in every process, so only one call is safe.

As long as the ids differ, `addCallBackSink` never meets its own: what is
registered is registered under ids that were given out before.
-/

namespace UempPlugin.Ref.Id8Generator

/-! ## Digits -/

/-- The value of a digit. -/
def digitValue (c : Char) : Nat :=
  if c ≤ '9' then c.toNat - '0'.toNat
  else if c ≤ 'Z' then c.toNat - 'A'.toNat + 10
  else c.toNat - 'a'.toNat + 36

/-- The number that digits spell behind a number already read. -/
def decode (n : Nat) (s : List Char) : Nat := s.foldl (fun n c => 62 * n + digitValue c) n

theorem digitValue_base62Char (i : UInt64) (h : i.toNat < 62) :
    digitValue (base62Char i) = i.toNat := by
  have hall : ∀ n < 62, digitValue (base62Char (UInt64.ofNat n)) = n := by decide +kernel
  rw [← UInt64.ofNat_toNat (x := i)]
  rw [hall i.toNat h, UInt64.ofNat_toNat]

theorem decode_nil (n : Nat) : decode n [] = n := rfl

/-- Every digit that is put down in front takes its part off the number. -/
theorem decode_fill : ∀ (n : Nat) (val : UInt64) (s : List Char), val.toNat < 62 ^ n →
    decode 0 (fill n val s) = decode val.toNat s := by
  intro n
  induction n with
  | zero =>
      intro val s h
      rw [fill, show val.toNat = 0 by omega]
  | succ n ih =>
      intro val s h
      have hdiv : (val / 62).toNat = val.toNat / 62 := UInt64.toNat_div val 62
      have hmod : (val % 62).toNat = val.toNat % 62 := UInt64.toNat_mod val 62
      have hlt : (val / 62).toNat < 62 ^ n := by
        rw [hdiv, Nat.div_lt_iff_lt_mul (by decide), ← Nat.pow_succ]
        exact h
      rw [fill, ih _ _ hlt, decode, List.foldl_cons,
        digitValue_base62Char _ (by rw [hmod]; exact Nat.mod_lt _ (by decide)), hdiv, hmod,
        Nat.div_add_mod]
      rfl

theorem maxVal_toNat : maxVal.toNat = 62 ^ len := by decide +kernel

theorem reduced_lt (x : UInt64) : (x % maxVal).toNat < 62 ^ len := by
  rw [UInt64.toNat_mod, maxVal_toNat]
  exact Nat.mod_lt _ (Nat.pow_pos (by decide))

/-- The digits of two numbers that fit are the same for one number only. -/
theorem fill_eq_iff {val val' : UInt64} (hval : val.toNat < 62 ^ len)
    (hval' : val'.toNat < 62 ^ len) :
    String.ofList (fill len val []) = String.ofList (fill len val' []) ↔ val = val' := by
  constructor
  · intro h
    have hread := congrArg (decode 0) (String.ofList_injective h)
    rw [decode_fill _ _ _ hval, decode_fill _ _ _ hval', decode_nil, decode_nil] at hread
    exact UInt64.toNat_inj.1 hread
  · intro h
    rw [h]

/-! ## Successive calls -/

/-- The step of the counter, as an interval of the clock. -/
def lag (counter : UInt64) : Int64 := (counter ^^^ (counter + 1)).toInt64

theorem lag_cancels (counter : UInt64) : counter ^^^ (lag counter).toUInt64 = counter + 1 := by
  rw [lag, UInt64.toUInt64_toInt64, ← UInt64.xor_assoc, UInt64.xor_self, UInt64.zero_xor]

/-- The clock takes back the step of the counter, moving on from 0 or up to 0. -/
theorem generate_repeats (pid : UInt32) (counter : UInt64) :
    ∃ now next : Int64, now ≤ next ∧
      generate pid counter now = generate pid (counter + 1) next := by
  have hcancel := lag_cancels counter
  rcases Int64.le_total 0 (lag counter) with hle | hle
  · refine ⟨0, lag counter, hle, ?_⟩
    have hback : (counter + 1) ^^^ (lag counter).toUInt64 = counter := by
      rw [← hcancel, UInt64.xor_assoc, UInt64.xor_self, UInt64.xor_zero]
    rw [generate, generate, seed, seed, hback]
    exact congrArg (fun x => String.ofList (fill len (mix64 (x ^^^ _) % maxVal) []))
      UInt64.xor_zero
  · refine ⟨lag counter, 0, hle, ?_⟩
    rw [generate, generate, seed, seed, hcancel]
    exact congrArg (fun x => String.ofList (fill len (mix64 (x ^^^ _) % maxVal) []))
      UInt64.xor_zero.symm

theorem length_ids (pid : UInt32) (counter : UInt64) (readings : List Int64) :
    (ids pid counter readings).length = readings.length := by
  induction readings generalizing counter with
  | nil => rfl
  | cons now readings ih => rw [ids, List.length_cons, ih, List.length_cons]

/-- One call has no other to differ from. -/
theorem ids_nodup (pid : UInt32) (counter : UInt64) {readings : List Int64}
    (h : readings.length ≤ 1) : (ids pid counter readings).Nodup := by
  rw [← length_ids pid counter] at h
  match ids pid counter readings, h with
  | [], _ => exact List.nodup_nil
  | [_], _ => exact List.nodup_singleton _

end UempPlugin.Ref.Id8Generator

namespace UempPlugin.Ref.Log

open UempPlugin.Lib
open Id8Generator (generate ids generate_repeats ids_nodup)

variable {W : World}

/-! ## What is registered -/

def SameRegistry (s s' : LogPrivate W) : Prop := s'.callbackSinks = s.callbackSinks

theorem SameRegistry.trans {s s' s'' : LogPrivate W} (h : SameRegistry s s')
    (h' : SameRegistry s' s'') : SameRegistry s s'' := Eq.trans h' h

theorem pure_registry {α : Type} (a : α) : Leads SameRegistry (pure a : LogM W α) := fun _ => rfl

theorem sinkIt_registry (foreign : CallbackSink → Bool) (m : Message) :
    ∀ sinks : List Sink, Leads SameRegistry (sinkIt (W := W) foreign m sinks) := by
  intro sinks
  induction sinks with
  | nil => exact pure_registry ()
  | cons sink sinks ih =>
      cases sink with
      | configured config level => exact ih
      | callback c =>
          have hinvoke : Leads SameRegistry (invoke (W := W) foreign m c) := by
            refine Leads.bind SameRegistry.trans (Leads.modify fun _ => rfl) fun _ => ?_
            split
            · exact fun _ => rfl
            · exact pure_registry ()
          rw [sinkIt]
          split
          · exact Leads.bind SameRegistry.trans hinvoke fun _ => ih
          · exact ih

theorem logMessage_registry (foreign : CallbackSink → Bool) (m : Message) :
    Leads SameRegistry (logMessage (W := W) foreign m) := by
  intro s
  cases hlogger : s.logger with
  | none =>
      rw [logMessage_none m hlogger]
      rfl
  | some logger =>
      rw [logMessage_some m hlogger]
      have hlog : Leads SameRegistry (logger.log (W := W) foreign m) := by
        rw [Logger.log]
        split
        · split
          · exact Leads.modify fun _ => rfl
          · exact sinkIt_registry foreign m logger.sinks
        · exact pure_registry ()
      exact hlog s

theorem anyToString_registry (foreign : CallbackSink → Bool) (src : SourceLine) (data : Any) :
    Leads SameRegistry (anyToString (W := W) foreign src data) := by
  have hmessage : ∀ m, Leads SameRegistry
      (logMessage (W := W) foreign m >>= fun _ => pure "") := fun m =>
    Leads.bind SameRegistry.trans (logMessage_registry foreign m) fun _ => pure_registry ""
  match data with
  | .empty => exact hmessage _
  | .nullptr => exact hmessage _
  | .value type none => exact hmessage _
  | .value _ (some text) => exact pure_registry text

theorem linkString_registry (foreign : CallbackSink → Bool) (src : SourceLine) (msgList : List Any) :
    Leads SameRegistry (linkString (W := W) foreign src msgList) := by
  induction msgList with
  | nil => exact pure_registry ""
  | cons msg msgList ih =>
      exact Leads.bind SameRegistry.trans (anyToString_registry foreign src msg) fun _ =>
        Leads.bind SameRegistry.trans ih fun _ => pure_registry _

theorem logImpl_registry (foreign : CallbackSink → Bool) (src : SourceLine) (msgList : List Any)
    (showLine : Bool) (level : Level) :
    Leads SameRegistry (logImpl (W := W) foreign src msgList showLine level) := by
  refine Leads.bind SameRegistry.trans (linkString_registry foreign src msgList) fun _ => ?_
  split
  · exact logMessage_registry foreign _
  · split
    · exact logMessage_registry foreign _
    · split
      · exact logMessage_registry foreign _
      · exact logMessage_registry foreign _

/-- What is registered after a call was so before, or is the call's own. -/
theorem registered_step {s : LogPrivate W} {op : Op W} {id : String}
    (h : (op.step s).callbackSinks[id]? ≠ none) :
    s.callbackSinks[id]? ≠ none ∨
      (s.logger ≠ none ∧ ∃ callback level, op = .addCallBack callback level id) := by
  cases op with
  | addCallBack callback level sinkId =>
      rw [addCallBack_run] at h
      cases hlogger : s.logger with
      | none =>
          rw [hlogger] at h
          exact .inl h
      | some logger =>
          rw [hlogger] at h
          by_cases hid : sinkId = id
          · exact .inr ⟨by simp, callback, level, by rw [hid]⟩
          · refine .inl fun hnone => h ?_
            cases hold : s.callbackSinks[sinkId]? <;>
              simp [Std.ExtTreeMap.getElem?_insert, Std.ExtTreeMap.getElem?_erase, hid, hnone]
  | removeCallBack sinkId =>
      rw [removeCallBack_run] at h
      refine .inl fun hnone => h ?_
      cases s.logger with
      | none => exact hnone
      | some logger =>
          cases hold : s.callbackSinks[sinkId]? <;>
            simp [Std.ExtTreeMap.getElem?_erase, hnone]
  | setConfigPath call =>
      rw [show ((Op.setConfigPath call).step s).callbackSinks = s.callbackSinks from
        (call.run_detaches s).1.callbackSinks] at h
      exact .inl h
  | log foreign level src msgList =>
      rw [show ((Op.log foreign level src msgList).step s).callbackSinks = s.callbackSinks from
        logImpl_registry foreign src msgList (s.showLine level) level s] at h
      exact .inl h

/-! ## A process that registers callbacks -/

/-- A call from the outside, with a reading of the clock where the generator
takes one. -/
inductive Request (W : World) where
  | addCallBack (callback : Nat) (level : Level) (now : Int64)
  | removeCallBack (sinkId : String)
  | setConfigPath (call : Call W)
  | log (foreign : CallbackSink → Bool) (level : Level) (src : SourceLine) (msgList : List Any)

namespace Request

/-- The call with its id. -/
def op (pid : UInt32) (counter : UInt64) : Request W → Op W
  | addCallBack callback level now => .addCallBack callback level (generate pid counter now)
  | removeCallBack sinkId => .removeCallBack sinkId
  | setConfigPath call => .setConfigPath call
  | log foreign level src msgList => .log foreign level src msgList

/-- The reading the generator takes; without a logger it is not called. -/
def reading (s : LogPrivate W) : Request W → Option Int64
  | addCallBack _ _ now => if s.logger.isSome then some now else none
  | _ => none

/-- The state and the counter after the call. -/
def step (pid : UInt32) (st : LogPrivate W × UInt64) (r : Request W) : LogPrivate W × UInt64 :=
  ((r.op pid st.2).step st.1, if (r.reading st.1).isSome then st.2 + 1 else st.2)

/-- The id that is generated for the call is registered already. -/
def Meets (pid : UInt32) (st : LogPrivate W × UInt64) (r : Request W) : Prop :=
  ∃ now, r.reading st.1 = some now ∧ st.1.callbackSinks[generate pid st.2 now]? ≠ none

end Request

/-- All readings the generator takes in the course of the calls. -/
def readings (pid : UInt32) (st : LogPrivate W × UInt64) : List (Request W) → List Int64
  | [] => []
  | r :: rs => (r.reading st.1).toList ++ readings pid (r.step pid st) rs

theorem registered_request {pid : UInt32} {st : LogPrivate W × UInt64} {r : Request W} {id : String}
    (h : (r.step pid st).1.callbackSinks[id]? ≠ none) :
    st.1.callbackSinks[id]? ≠ none ∨
      ∃ now, r.reading st.1 = some now ∧ id = generate pid st.2 now := by
  rcases registered_step h with h | ⟨hlogger, callback, level, hop⟩
  · exact .inl h
  · cases r with
    | addCallBack callback' level' now =>
        cases hop
        exact .inr ⟨now, if_pos (Option.isSome_iff_ne_none.2 hlogger), rfl⟩
    | _ => cases hop

/-- Ids that differ from one another and from those given out before are not
registered when they are given out. -/
theorem not_meets {pid : UInt32} {r : Request W} :
    ∀ (rs : List (Request W)) (st : LogPrivate W × UInt64) (past : List String),
      (∀ id : String, st.1.callbackSinks[id]? ≠ none → id ∈ past) →
      (past ++ ids pid st.2 (readings pid st (rs ++ [r]))).Nodup →
        ¬ r.Meets pid (rs.foldl (Request.step pid) st) := by
  intro rs
  induction rs with
  | nil =>
      rintro st past hpast hnodup ⟨now, hreading, hmeets⟩
      rw [List.foldl_nil] at hreading hmeets
      rw [List.nil_append, readings, hreading] at hnodup
      have hnew := (List.nodup_append.1 hnodup).2.2 _ (hpast _ hmeets) _ List.mem_cons_self
      exact hnew rfl
  | cons r' rs ih =>
      intro st past hpast hnodup
      rw [List.cons_append, readings] at hnodup
      rw [List.foldl_cons]
      cases hreading : r'.reading st.1 with
      | none =>
          have hcounter : (r'.step pid st).2 = st.2 := by
            rw [Request.step, hreading]
            rfl
          refine ih _ past (fun id hid => ?_) ?_
          · rcases registered_request hid with hold | ⟨now, hnow, _⟩
            · exact hpast id hold
            · rw [hreading] at hnow
              cases hnow
          · rw [hreading] at hnodup
            rw [hcounter]
            exact hnodup
      | some now =>
          have hcounter : (r'.step pid st).2 = st.2 + 1 := by
            rw [Request.step, hreading]
            rfl
          refine ih _ (past ++ [generate pid st.2 now]) (fun id hid => ?_) ?_
          · rcases registered_request hid with hold | ⟨now', hnow, hid⟩
            · exact List.mem_append_left _ (hpast id hold)
            · rw [hreading] at hnow
              cases hnow
              exact List.mem_append_right _ (List.mem_singleton.2 hid)
          · rw [hreading] at hnodup
            rw [hcounter, List.append_assoc]
            exact hnodup

theorem addCallBack_logger {s : LogPrivate W} (h : s.logger ≠ none) (callback : Nat)
    (level : Level) (sinkId : String) :
    ((Op.addCallBack callback level sinkId).step s).logger ≠ none ∧
      ((Op.addCallBack callback level sinkId).step s).callbackSinks[sinkId]? ≠ none := by
  rw [addCallBack_run]
  cases hlogger : s.logger with
  | none => exact absurd hlogger h
  | some logger =>
      cases hold : s.callbackSinks[sinkId]? with
      | none => simp
      | some old => simp

/-- Two registrations in a row that are given one id. -/
theorem second_meets (pid : UInt32) (st : LogPrivate W × UInt64) (hlogger : st.1.logger ≠ none)
    {now next : Int64} (h : generate pid st.2 now = generate pid (st.2 + 1) next) :
    readings pid st [.addCallBack 0 .trace now, .addCallBack 0 .trace next] = [now, next] ∧
      (Request.addCallBack 0 .trace next).Meets pid
        (Request.step pid st (.addCallBack 0 .trace now)) := by
  have hreading : ∀ {s : LogPrivate W} {t : Int64}, s.logger ≠ none →
      (Request.addCallBack 0 .trace t : Request W).reading s = some t := fun hs =>
    if_pos (Option.isSome_iff_ne_none.2 hs)
  have hfirst := hreading (t := now) hlogger
  obtain ⟨hnext, hfound⟩ := addCallBack_logger hlogger 0 .trace (generate pid st.2 now)
  have hstep : Request.step pid st (.addCallBack 0 .trace now) =
      ((Op.addCallBack 0 .trace (generate pid st.2 now)).step st.1, st.2 + 1) := by
    rw [Request.step, hfirst]
    rfl
  rw [readings, readings, readings, hfirst, hstep, hreading hnext]
  refine ⟨rfl, next, hreading hnext, ?_⟩
  rw [← h]
  exact hfound

/-- Whatever the counter and the process, at most one call of the generator is
sure to return an id of its own, for every clock that does not go back; and
at most one is sure to give `addCallBackSink` an id that is not registered,
whatever the calls in between. -/
theorem callback_ids_iff (pid : UInt32) (counter : UInt64) (load : LoadEnv W)
    (fallback : DefaultEnv W) (files : W.File → Option (List UInt8))
    (hlogger : (constructed load fallback files).logger ≠ none) (n : Nat) :
    ((∀ now : List Int64, now.Pairwise (· ≤ ·) → now.length ≤ n → (ids pid counter now).Nodup) ↔
        n ≤ 1) ∧
      ((∀ (rs : List (Request W)) (r : Request W),
          (readings pid (constructed load fallback files, counter) (rs ++ [r])).Pairwise (· ≤ ·) →
          (readings pid (constructed load fallback files, counter) (rs ++ [r])).length ≤ n →
          ¬ r.Meets pid
            (rs.foldl (Request.step pid) (constructed load fallback files, counter))) ↔
        n ≤ 1) := by
  obtain ⟨now, next, hle, hsame⟩ := generate_repeats pid counter
  have hordered : [now, next].Pairwise (· ≤ ·) := List.pairwise_pair.2 hle
  refine ⟨⟨fun hall => ?_, fun hn readings _ hlen => ids_nodup pid counter (Nat.le_trans hlen hn)⟩,
    ⟨fun hall => ?_, fun hn rs r _ hlen => ?_⟩⟩
  · by_contra hn
    have hnodup := hall [now, next] hordered (Nat.lt_of_not_le hn)
    rw [ids, ids, hsame] at hnodup
    exact (List.nodup_cons.1 hnodup).1 List.mem_cons_self
  · by_contra hn
    obtain ⟨htaken, hmeets⟩ := second_meets pid
      (constructed load fallback files, counter) hlogger hsame
    refine hall [.addCallBack 0 .trace now] (.addCallBack 0 .trace next) ?_ ?_ hmeets
    · rw [List.singleton_append, htaken]
      exact hordered
    · rw [List.singleton_append, htaken]
      exact Nat.lt_of_not_le hn
  · refine not_meets rs _ [] (fun id hid => ?_) (ids_nodup pid counter (Nat.le_trans hlen hn))
    obtain ⟨c, hc⟩ := Option.ne_none_iff_exists'.1 hid
    exact absurd (((constructed_inStep load fallback files).registry id c).1 hc) List.not_mem_nil

theorem callback_ids_plain :
    (∀ now : List Int64, now.Pairwise (· ≤ ·) → now.length ≤ 1 → (ids 1 2 now).Nodup) ∧
      ¬ ∀ now : List Int64, now.Pairwise (· ≤ ·) → now.length ≤ 2 → (ids 1 2 now).Nodup :=
  have hlogger : plainStart.logger ≠ none := fun h => by cases h
  ⟨(callback_ids_iff 1 2 plainLoad plainFallback plainFiles hlogger 1).1.2 (Nat.le_refl 1),
    fun h => absurd ((callback_ids_iff 1 2 plainLoad plainFallback plainFiles hlogger 2).1.1 h)
      (by decide)⟩

/-- The clock moves on by one and takes back the step of the counter. -/
theorem callback_ids_repeat :
    [(4 : Int64), 5].Pairwise (· ≤ ·) ∧ ¬ (ids 1 2 [4, 5]).Nodup := by
  decide +kernel

end UempPlugin.Ref.Log
