import UempPlugin.Proofs.RequestObjects

/-!
# Any calls of the client, one after the other

A call leaves libcurl's objects as it found them but for what it lost, and the
next one starts from there. So what one request does holds for all of them,
after any calls and whatever those threw: what it owns, and what it asks for
under what was set last.
-/

namespace UempPlugin.Ref.HttpsClientPrivate

open UempPlugin.Lib
open Arena (Holding Fresh)
open HttpsClient (Headers HttpResponse Method)

variable {W : Log.World} {E : Env} {S : Setting} {s : Client W}

/-! ## A call -/

/-- How a call ends: it returns its answer, with what a failed append lost still
owned; or it throws, and a request with a handle still owns that. -/
inductive Outcome (E : Env) (S : Setting) (s : Client W) (call : Call) :
    EStateM.Result Fault (Client W) (Option HttpResponse) → Prop where
  | returned (own : Nat → Option Object) (s' : Client W) :
      Holding s.memory own s'.memory →
        ((∀ p, own p = none) ↔
          E.initFails = true ∨ ¬ Lost E.appendFails 0 call.lines false) →
        s'.config = s.config.after call →
        s'.sent = s.sent ++ s.config.transfers E S call →
        Outcome E S s call (.ok (s.config.answer E S call) s')
  | thrown (e : Exn) (own : Nat → Option Object) (s' : Client W) :
      Holding s.memory own s'.memory →
        ((∀ p, own p = none) ↔ E.initFails = true ∨ call.headers = none) →
        s'.config = s.config.after call →
        s'.sent = s.sent ∨ s'.sent = s.sent ++ s.config.transfers E S call →
        Outcome E S s call (.error (.thrown e) s')

theorem request_get (E : Env) (S : Setting) (url : Bytes) (headers : Headers) (s : Client W) :
    request E s (getOptions E S url) headers = s.config.request E S .get url none headers := rfl

theorem request_post (E : Env) (S : Setting) (url body : Bytes) (headers : Headers)
    (s : Client W) :
    request E s (postOptions E S url body) headers =
      s.config.request E S .post url (some body) headers := by
  have hbody : (some body).map (fun b => b.take (body.length : Int).toNat) = some body := by
    rw [Int.toNat_natCast, Option.map_some, List.take_length]
  rw [request, UserDefined.sent, Config.request]
  exact congrArg (fun b => Sent.mk _ _ b _ _ _ _ _ _ _ _ _) hbody

theorem outcome_of_requested {f : HttpM W HttpResponse} {call : Call} {headers : Headers}
    {req : Sent} (hheaders : call.headers = some headers)
    (hwanted : s.config.wanted E S call = some req) (hafter : s.config.after call = s.config)
    (hfresh : Fresh s.memory) (hreq : Requested E s headers.toList.length req (f s)) :
    Outcome E S s call ((some <$> f) s) := by
  have hlines : call.lines = headers.toList.length := by
    rw [Call.lines, hheaders]
    rfl
  have hnotSetter : call.headers ≠ none := by
    rw [hheaders]
    exact Option.some_ne_none _
  show Outcome E S s call (EStateM.map some f s)
  rw [EStateM.map]
  generalize f s = r at hreq
  cases hreq with
  | noHandle l hinit =>
      have hanswer : s.config.answer E S call = some { error := initFailed } := by
        rw [Config.answer, hwanted, Option.map_some, if_pos hinit]
      show Outcome E S s call (.ok (some { error := initFailed }) _)
      rw [← hanswer]
      refine .returned _ _ (Holding.start hfresh) ?_ hafter.symm ?_
      · exact ⟨fun _ => .inl hinit, fun _ _ => rfl⟩
      · rw [Config.transfers, if_pos hinit, List.append_nil]
  | noHandleThrown e l hinit =>
      refine .thrown e _ _ (Holding.start hfresh) ?_ hafter.symm (.inl rfl)
      exact ⟨fun _ => .inl hinit, fun _ _ => rfl⟩
  | finished hinit hfinished =>
      have hgot : ¬ E.initFails = true := by
        rw [hinit]
        exact Bool.false_ne_true
      have htransfers : s.config.transfers E S call = [req] := by
        rw [Config.transfers, if_neg hgot, hwanted]
        rfl
      cases hfinished with
      | returned own m l hold hlost =>
          have hanswer : s.config.answer E S call =
              some (HttpsClient.perform (E.exchange req)) := by
            rw [Config.answer, hwanted, Option.map_some, if_neg hgot]
          show Outcome E S s call (.ok (some (HttpsClient.perform (E.exchange req))) _)
          rw [← hanswer]
          refine .returned own _ hold ?_ hafter.symm ?_
          · rw [hlost, hlines, or_iff_right hgot]
          · rw [htransfers]
      | thrown e own m l sent hold howned hsent =>
          refine .thrown e own _ hold ?_ hafter.symm ?_
          · obtain ⟨p, hp⟩ := howned
            refine ⟨fun hall => absurd (hall p) hp, ?_⟩
            rintro (hfails | hnone)
            · exact absurd hfails hgot
            · exact absurd hnone hnotSetter
          · rw [htransfers]
            exact hsent

/-- A setter allocates nothing; it sets before it logs. -/
theorem outcome_of_setter {f : HttpM W Unit} {set : Client W → Client W} {call : Call}
    {line : Nat} {msgList : List LoggerUtil.Any}
    (hf : f = (modify set >>= fun _ => log S .info line msgList))
    (hheaders : call.headers = none) (hwanted : s.config.wanted E S call = none)
    (hmemory : (set s).memory = s.memory) (hsent : (set s).sent = s.sent)
    (hconfig : (set s).config = s.config.after call) (hfresh : Fresh s.memory) :
    Outcome E S s call ((f >>= fun _ => pure none) s) := by
  have htransfers : s.config.transfers E S call = [] := by
    rw [Config.transfers, hwanted]
    split
    · rfl
    · rfl
  have hanswer : s.config.answer E S call = none := by
    rw [Config.answer, hwanted]
    rfl
  have hhold : Holding s.memory (fun _ => none) (set s).memory := by
    rw [hmemory]
    exact Holding.start hfresh
  have hlost : ¬ Lost E.appendFails 0 call.lines false := by
    rw [Call.lines, hheaders]
    exact id
  have hset : (modify set : HttpM W Unit) s = .ok () (set s) := rfl
  obtain ⟨l, hlog | ⟨e, hlog⟩⟩ := log_cases S .info line msgList (set s)
  · have hrun : f s = .ok () { set s with log := l } := by
      rw [hf, bind_of_ok hset, hlog]
    rw [bind_of_ok hrun]
    show Outcome E S s call (.ok none _)
    rw [← hanswer]
    refine .returned _ _ hhold ⟨fun _ => .inr hlost, fun _ _ => rfl⟩ hconfig ?_
    rw [htransfers, List.append_nil]
    exact hsent
  · have hrun : f s = .error (.thrown e) { set s with log := l } := by
      rw [hf, bind_of_ok hset, hlog]
    rw [bind_of_error hrun]
    exact .thrown e _ _ hhold ⟨fun _ => .inr hheaders, fun _ _ => rfl⟩ hconfig (.inl hsent)

theorem Call.run_outcome (E : Env) (S : Setting) (call : Call) (hfresh : Fresh s.memory) :
    Outcome E S s call (call.run E S s) := by
  cases call with
  | get url headers =>
      have hspec := get_spec E S url headers hfresh
      rw [request_get] at hspec
      exact outcome_of_requested rfl rfl rfl hfresh hspec
  | postJson url jsonBody extraHeaders =>
      have hspec := postJson_spec E S url jsonBody extraHeaders hfresh
      rw [request_post] at hspec
      exact outcome_of_requested rfl rfl rfl hfresh hspec
  | postForm url formData extraHeaders =>
      have hspec := postForm_spec E S url formData extraHeaders hfresh
      rw [request_post] at hspec
      exact outcome_of_requested rfl rfl rfl hfresh hspec
  | setVerifySsl verify => exact outcome_of_setter rfl rfl rfl rfl rfl rfl hfresh
  | setCaBundlePath caPath => exact outcome_of_setter rfl rfl rfl rfl rfl rfl hfresh
  | setTimeout timeoutSecs => exact outcome_of_setter rfl rfl rfl rfl rfl rfl hfresh
  | setConnectTimeout timeoutSecs => exact outcome_of_setter rfl rfl rfl rfl rfl rfl hfresh

/-! ## Runs -/

/-- After any calls nothing lies where nothing was allocated, what is set is
what was set last, and the transfers are among those that were asked for. -/
theorem runCalls_spec (S : Setting) : ∀ (calls : List (Env × Call)) {s : Client W},
    Fresh s.memory →
    Fresh (runCalls S calls s).memory ∧
      (runCalls S calls s).config =
        calls.foldl (fun c (call : Env × Call) => c.after call.2) s.config ∧
      ∃ ran, ran.Sublist (s.config.allTransfers S calls) ∧
        (runCalls S calls s).sent = s.sent ++ ran := by
  intro calls
  induction calls with
  | nil => exact fun hfresh => ⟨hfresh, rfl, [], List.nil_sublist _, (List.append_nil _).symm⟩
  | cons next calls ih =>
      obtain ⟨E, call⟩ := next
      intro s hfresh
      have houtcome := Call.run_outcome E S call hfresh
      rw [runCalls, List.foldl_cons, Config.allTransfers]
      generalize call.run E S s = r at houtcome
      cases houtcome with
      | returned own s' hold hlost hconfig hsent =>
          obtain ⟨hfresh', hconfig', ran, hran, hsent'⟩ := ih hold.toFresh
          rw [hconfig] at hconfig' hran
          refine ⟨hfresh', hconfig', s.config.transfers E S call ++ ran, hran.append_left _, ?_⟩
          rw [hsent', hsent, List.append_assoc]
      | thrown e own s' hold howned hconfig hsent =>
          obtain ⟨hfresh', hconfig', ran, hran, hsent'⟩ := ih hold.toFresh
          rw [hconfig] at hconfig' hran
          rcases hsent with hsent | hsent
          · refine ⟨hfresh', hconfig', ran, hran.trans (List.sublist_append_right ..), ?_⟩
            rw [hsent', hsent]
          · refine ⟨hfresh', hconfig', s.config.transfers E S call ++ ran, hran.append_left _, ?_⟩
            rw [hsent', hsent, List.append_assoc]

theorem fresh_start : Fresh ({} : Arena Object) := fun _ _ => rfl

/-- What a call that starts in `s` must leave behind. -/
def GivesBack (E : Env) (s : Client W) (call : Call) :
    EStateM.Result Fault (Client W) (Option HttpResponse) → Prop
  | .ok _ s' =>
      (∀ p < s.memory.next, s'.memory.live p = s.memory.live p) ∧
        (s'.memory.live = s.memory.live ↔
          E.initFails = true ∨ ¬ ∃ j, j + 1 < call.lines ∧ E.appendFails j = false ∧
            E.appendFails (j + 1) = true)
  | .error (.thrown _) s' =>
      (∀ p < s.memory.next, s'.memory.live p = s.memory.live p) ∧
        (s'.memory.live = s.memory.live ↔ E.initFails = true ∨ call.headers = none)
  | .error .misuse _ => False

/-- Whatever was called before: a call uses nothing that was given back, leaves
the objects of others alone, and gives back what it got, unless an append fails
after one that did not, or a message of a request throws. -/
theorem requests_give_back (S : Setting) (log : Log.LogPrivate W) (calls : List (Env × Call))
    (E : Env) (call : Call) :
    GivesBack E (runCalls S calls { log := log }) call
      (call.run E S (runCalls S calls { log := log })) := by
  have hfresh := (runCalls_spec S calls (s := { log := log }) fresh_start).1
  generalize runCalls S calls { log := log } = s at hfresh
  have houtcome := Call.run_outcome E S call hfresh
  generalize call.run E S s = r at houtcome
  cases houtcome with
  | returned own s' hold hlost hconfig hsent =>
      refine ⟨hold.below, ?_⟩
      rw [hold.same_iff hfresh, hlost, lost_iff]
      simp
  | thrown e own s' hold howned hconfig hsent =>
      refine ⟨hold.below, ?_⟩
      rw [hold.same_iff hfresh, howned]

/-- What a call that starts in `s` under the settings `c` must have run, and
answer. -/
def AsSet (c : Config) (E : Env) (S : Setting) (s : Client W) (call : Call) :
    EStateM.Result Fault (Client W) (Option HttpResponse) → Prop
  | .ok r s' => s'.sent = s.sent ++ c.transfers E S call ∧ r = c.answer E S call
  | .error _ s' => s'.sent = s.sent ∨ s'.sent = s.sent ++ c.transfers E S call

/-- Whatever was called before, a call that returns has run exactly the transfer
that its arguments and the last setting of each kind ask for, and answers with
what it brought; one that throws has run that one or none. No other transfer is
ever run. -/
theorem requests_as_set (S : Setting) (log : Log.LogPrivate W) (calls : List (Env × Call))
    (E : Env) (call : Call) :
    let s := runCalls S calls { log := log }
    s.sent.Sublist (({} : Config).allTransfers S calls) ∧
      AsSet (calls.foldl (fun c (call : Env × Call) => c.after call.2) {}) E S s call
        (call.run E S s) := by
  intro s
  obtain ⟨hfresh, hconfig, ran, hran, hsent⟩ :=
    runCalls_spec S calls (s := { log := log }) fresh_start
  refine ⟨?_, ?_⟩
  · show (runCalls S calls { log := log }).sent.Sublist _
    rw [hsent]
    exact hran
  · have houtcome := Call.run_outcome E S call hfresh
    rw [← show s.config = calls.foldl (fun c (call : Env × Call) => c.after call.2) {} from hconfig]
    generalize hr : call.run E S s = r
    rw [show call.run E S (runCalls S calls { log := log }) = r from hr] at houtcome
    cases houtcome with
    | returned own s' hold hlost hafter hsent' => exact ⟨hsent', rfl⟩
    | thrown e own s' hold howned hafter hsent' => exact hsent'

end UempPlugin.Ref.HttpsClientPrivate
