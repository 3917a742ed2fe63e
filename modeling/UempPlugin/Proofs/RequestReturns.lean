import UempPlugin.Proofs.RequestRuns

/-!
# With a logger every call returns

What throws out of a call of the client is one of its messages. Their values are
strings and integers, whose texts are always there, so nothing is left to throw
once there is a logger and its callbacks throw nothing foreign. Then a run is
what its calls ask for, one after the other.
-/

namespace UempPlugin.Ref.HttpsClientPrivate

open UempPlugin.Lib
open Arena (Fresh)
open HttpsClient (Headers HttpResponse easyEscape toInt)

variable {W : Log.World} {E : Env} {S : Setting} {s : Client W}

/-! ## The messages -/

/-- A value of the client's messages: its text is known at once. -/
def Plain (P : LoggerUtil.Platform) (a : LoggerUtil.Any) : Prop :=
  LoggerUtil.Registered P a ∧ LoggerUtil.Sound a

@[simp] theorem plain_chars (P : LoggerUtil.Platform) (text : Bytes) : Plain P (chars text) :=
  ⟨⟨by simp [LoggerUtil.getConverters], rfl⟩, fun _ h => nomatch h⟩

@[simp] theorem plain_lit (P : LoggerUtil.Platform) (text : String) : Plain P (lit text) :=
  plain_chars P _

@[simp] theorem plain_str (P : LoggerUtil.Platform) (text : Bytes) : Plain P (str text) :=
  ⟨⟨by simp [LoggerUtil.getConverters], trivial⟩, fun _ h => nomatch h⟩

@[simp] theorem plain_long (P : LoggerUtil.Platform) (n : Int) : Plain P (long n) :=
  ⟨⟨by simp [LoggerUtil.getConverters], trivial⟩, fun _ h => nomatch h⟩

@[simp] theorem plain_sizeT (P : LoggerUtil.Platform) (n : Nat) : Plain P (sizeT n) :=
  ⟨⟨by simp [LoggerUtil.getConverters], trivial⟩, fun _ h => nomatch h⟩

theorem logMessage_returns {foreign : Log.CallbackSink → Bool} (hforeign : ∀ c, foreign c = false)
    (m : Log.Message) {l : Log.LogPrivate W} (hlogger : l.logger ≠ none) :
    ∃ l', Log.logMessage foreign m l = .ok () l' ∧ l'.logger = l.logger := by
  obtain ⟨logger, hsome⟩ := Option.ne_none_iff_exists'.1 hlogger
  rw [Log.logMessage_some m hsome, Log.Logger.log]
  split
  · split
    · exact ⟨_, rfl, rfl⟩
    · exact ⟨_, Log.sinkIt_run m logger.sinks l fun c _ => hforeign c, rfl⟩
  · exact ⟨l, rfl, rfl⟩

theorem logImpl_returns {P : LoggerUtil.Platform} {foreign : Log.CallbackSink → Bool}
    (hforeign : ∀ c, foreign c = false) (src : Log.SourceLine) {msgList : List LoggerUtil.Any}
    (hplain : ∀ a ∈ msgList, Plain P a) (showLine : Bool) (level : Log.Level)
    {l : Log.LogPrivate W} (hlogger : l.logger ≠ none) :
    ∃ l', Log.Typed.logImpl P foreign src msgList showLine level l = .ok () l' ∧
      l'.logger = l.logger := by
  obtain ⟨full, hfull⟩ := Log.Typed.rendered_sound (fun a ha => (hplain a ha).1)
    fun a ha => (hplain a ha).2
  obtain ⟨text, hlink, -⟩ := Log.Typed.linkString_run foreign src hfull l
  rw [Log.Typed.logImpl, bind_of_ok hlink]
  split
  · exact logMessage_returns hforeign _ hlogger
  · split
    · exact logMessage_returns hforeign _ hlogger
    · split
      · exact logMessage_returns hforeign _ hlogger
      · exact logMessage_returns hforeign _ hlogger

/-! ## What does not throw -/

/-- A result that is no exception, and leaves the logger there. -/
def Quiet {α : Type} : EStateM.Result Fault (Client W) α → Prop
  | .ok _ s => s.log.logger ≠ none
  | .error (.thrown _) _ => False
  | .error .misuse _ => True

structure Calm {α : Type} (f : HttpM W α) : Prop where
  quiet : ∀ s, s.log.logger ≠ none → Quiet (f s)

theorem Calm.pure {α : Type} (a : α) : Calm (pure a : HttpM W α) := ⟨fun _ hs => hs⟩

theorem Calm.bind {α β : Type} {f : HttpM W α} {g : α → HttpM W β} (hf : Calm f)
    (hg : ∀ a, Calm (g a)) : Calm (f >>= g) := by
  refine ⟨fun s hs => ?_⟩
  have hquiet := hf.quiet s hs
  cases hr : f s with
  | ok a s' =>
      rw [hr] at hquiet
      rw [bind_of_ok hr]
      exact (hg a).quiet s' hquiet
  | error e s' =>
      rw [hr] at hquiet
      rw [bind_of_error hr]
      cases e with
      | thrown e => exact hquiet
      | misuse => exact hquiet

theorem Calm.map {α β : Type} {f : HttpM W α} (hf : Calm f) (g : α → β) : Calm (g <$> f) :=
  hf.bind fun a => Calm.pure (g a)

theorem Calm.ite {α : Type} {p : Prop} [Decidable p] {f g : HttpM W α} (hf : Calm f)
    (hg : Calm g) : Calm (if p then f else g) := by
  split
  · exact hf
  · exact hg

theorem log_calm (hforeign : ∀ c, S.foreign c = false) (level : Log.Level) (line : Nat)
    {msgList : List LoggerUtil.Any} (hplain : ∀ a ∈ msgList, Plain S.P a) :
    Calm (W := W) (log S level line msgList) := by
  refine ⟨fun s hs => ?_⟩
  obtain ⟨l, hlog, hlogger⟩ :=
    logImpl_returns hforeign (S.getLine line) hplain (s.log.showLine level) level hs
  rw [log, hlog]
  show l.logger ≠ none
  rw [hlogger]
  exact hs

theorem easyAt_calm (curl : Nat) : Calm (easyAt (W := W) curl) := by
  refine ⟨fun s hs => ?_⟩
  rw [easyAt]
  split
  · exact hs
  · exact trivial

theorem slistAt_calm (list : Nat) : Calm (slistAt (W := W) list) := by
  refine ⟨fun s hs => ?_⟩
  rw [slistAt]
  split
  · exact hs
  · exact trivial

theorem strAt_calm (p : Nat) : Calm (strAt (W := W) p) := by
  refine ⟨fun s hs => ?_⟩
  rw [strAt]
  split
  · exact hs
  · exact trivial

theorem store_calm (p : Nat) (o : Option Object) : Calm (store (W := W) p o) :=
  ⟨fun _ hs => hs⟩

theorem allocate_calm (o : Object) : Calm (allocate (W := W) o) := ⟨fun _ hs => hs⟩

theorem setopt_calm (curl : Nat) (set : UserDefined → UserDefined) :
    Calm (setopt (W := W) curl set) :=
  (easyAt_calm curl).bind fun _ => store_calm ..

theorem slistAppend_calm (fails : Bool) (list : Option Nat) (line : Bytes) :
    Calm (slistAppend (W := W) fails list line) := by
  refine Calm.ite (Calm.pure _) ?_
  cases list with
  | none => exact (allocate_calm _).map _
  | some p => exact (slistAt_calm p).bind fun _ => (store_calm ..).bind fun _ => Calm.pure _

theorem appendLoop_calm (E : Env) : ∀ (headers : List (Bytes × Bytes)) (i : Nat)
    (slist : Option Nat), Calm (appendLoop (W := W) E i headers slist) := by
  intro headers
  induction headers with
  | nil => exact fun _ slist => Calm.pure slist
  | cons entry headers ih =>
      exact fun i slist => (slistAppend_calm ..).bind fun slist => ih (i + 1) slist

theorem escape_calm (fails : Bool) (string : Bytes) : Calm (escape (W := W) fails string) := by
  rw [escape]
  generalize easyEscape string (toInt string.length) = text
  cases text with
  | none => exact Calm.pure _
  | some text => exact Calm.ite (Calm.pure _) ((allocate_calm _).map _)

theorem appendEscaped_calm (formBody : Bytes) (p : Option Nat) :
    Calm (appendEscaped (W := W) formBody p) := by
  cases p with
  | none => exact Calm.pure _
  | some p =>
      have hfree : Calm (curlFree (W := W) p) := (strAt_calm p).bind fun _ => store_calm ..
      exact (strAt_calm p).bind fun _ => hfree.bind fun _ => Calm.pure _

theorem formLoop_calm (E : Env) : ∀ (formData : List (Bytes × Bytes)) (i : Nat) (first : Bool)
    (formBody : Bytes), Calm (formLoop (W := W) E i formData first formBody) := by
  intro formData
  induction formData with
  | nil => exact fun _ _ formBody => Calm.pure formBody
  | cons field formData ih =>
      intro i first formBody
      exact (escape_calm ..).bind fun _ => (escape_calm ..).bind fun _ =>
        (appendEscaped_calm ..).bind fun _ => (appendEscaped_calm ..).bind fun _ => ih ..

theorem setHeaders_calm (E : Env) (curl : Nat) (headers : Headers) :
    Calm (setHeaders (W := W) E curl headers) := by
  refine (appendLoop_calm ..).bind fun slist => ?_
  cases slist with
  | none => exact Calm.pure _
  | some list => exact (setopt_calm ..).bind fun _ => Calm.pure _

theorem applyGlobalConfig_calm (E : Env) (curl : Nat) :
    Calm (applyGlobalConfig (W := W) E curl) := by
  refine Calm.bind ⟨fun _ hs => hs⟩ fun s => ?_
  refine (setopt_calm ..).bind fun _ => (setopt_calm ..).bind fun _ => ?_
  have htail : Calm (W := W) (setopt curl (fun data =>
      { data with timeout := setTimeoutSec data.timeout s.timeout }) >>= fun _ =>
        setopt curl fun data =>
          { data with connecttimeout := setTimeoutSec data.connecttimeout s.connectTimeout }) :=
    (setopt_calm ..).bind fun _ => setopt_calm ..
  exact Calm.ite ((setopt_calm ..).bind fun _ => htail) htail

theorem linesAt_calm (list : Option Nat) : Calm (linesAt (W := W) list) := by
  cases list with
  | none => exact Calm.pure _
  | some list => exact slistAt_calm list

theorem perform_calm (hforeign : ∀ c, S.foreign c = false) (E : Env) (curl : Nat) :
    Calm (perform (W := W) E S curl) := by
  have hperform : Calm (easyPerform (W := W) E curl) :=
    (easyAt_calm curl).bind fun _ => (linesAt_calm _).bind fun _ => ⟨fun _ hs => hs⟩
  refine (setopt_calm ..).bind fun _ => (setopt_calm ..).bind fun _ => (setopt_calm ..).bind
    fun _ => (applyGlobalConfig_calm ..).bind fun _ => Calm.bind
      ((easyAt_calm curl).bind fun _ => Calm.pure _) fun url => ?_
  refine (log_calm hforeign _ _ (by simp)).bind fun _ => hperform.bind fun transfer => ?_
  refine Calm.bind ?_ fun _ => Calm.pure _
  cases transfer.result with
  | ok code => exact log_calm hforeign _ _ (by simp)
  | error text => exact log_calm hforeign _ _ (by simp)

theorem finish_calm (hforeign : ∀ c, S.foreign c = false) (E : Env) (curl : Nat)
    (headers : Headers) : Calm (finish (W := W) E S curl headers) := by
  refine (setHeaders_calm ..).bind fun slist => (perform_calm hforeign E curl).bind fun _ => ?_
  have hfree : Calm (freeList (W := W) slist) := by
    cases slist with
    | none => exact Calm.pure _
    | some list => exact (slistAt_calm list).bind fun _ => store_calm ..
  exact hfree.bind fun _ => ((easyAt_calm curl).bind fun _ => store_calm ..).bind fun _ =>
    Calm.pure _

/-- Every request begins with its handle, and says so when there is none. -/
theorem request_calm (hforeign : ∀ c, S.foreign c = false) {f : Option Nat → HttpM W HttpResponse}
    {line : Nat} {what : String} {url : Bytes} (hnone : f none = noHandle S line what url)
    (hsome : ∀ curl, Calm (f (some curl))) : Calm (easyInit E S >>= f) := by
  refine Calm.bind (Calm.ite (Calm.pure _) ((allocate_calm _).map _)) fun curl => ?_
  cases curl with
  | none =>
      rw [hnone]
      exact (log_calm hforeign _ _ (by simp)).bind fun _ => Calm.pure _
  | some curl => exact hsome curl

theorem setBody_calm (E : Env) (curl : Nat) (url body : Bytes) :
    Calm (setBody (W := W) E curl url body) :=
  (setopt_calm ..).bind fun _ => (setopt_calm ..).bind fun _ => (setopt_calm ..).bind fun _ =>
    setopt_calm ..

theorem setter_calm (hforeign : ∀ c, S.foreign c = false) {f : HttpM W Unit}
    {set : Client W → Client W} {line : Nat} {msgList : List LoggerUtil.Any}
    (hf : f = (modify set >>= fun _ => log S .info line msgList))
    (hset : ∀ s, (set s).log = s.log) (hplain : ∀ a ∈ msgList, Plain S.P a) :
    Calm (f >>= fun _ => pure (none : Option HttpResponse)) := by
  have hmodify : Calm (modify set : HttpM W Unit) := by
    refine ⟨fun s hs => ?_⟩
    show (set s).log.logger ≠ none
    rw [hset]
    exact hs
  rw [hf]
  exact (hmodify.bind fun _ => log_calm hforeign _ _ hplain).bind fun _ => Calm.pure _

theorem Call.run_calm (hforeign : ∀ c, S.foreign c = false) (E : Env) (call : Call) :
    Calm (call.run (W := W) E S) := by
  cases call with
  | get url headers =>
      refine Calm.map (request_calm hforeign rfl fun curl => ?_) _
      exact (setopt_calm ..).bind fun _ => (setopt_calm ..).bind fun _ => finish_calm hforeign ..
  | postJson url jsonBody extraHeaders =>
      refine Calm.map (request_calm hforeign rfl fun curl => ?_) _
      exact (setBody_calm ..).bind fun _ => finish_calm hforeign ..
  | postForm url formData extraHeaders =>
      refine Calm.map (request_calm hforeign rfl fun curl => ?_) _
      exact (formLoop_calm ..).bind fun _ => (setBody_calm ..).bind fun _ =>
        finish_calm hforeign ..
  | setVerifySsl verify => exact setter_calm hforeign rfl (fun _ => rfl) (by simp)
  | setCaBundlePath caPath => exact setter_calm hforeign rfl (fun _ => rfl) (by simp)
  | setTimeout timeoutSecs => exact setter_calm hforeign rfl (fun _ => rfl) (by simp)
  | setConnectTimeout timeoutSecs => exact setter_calm hforeign rfl (fun _ => rfl) (by simp)

/-! ## Runs -/

/-- With a logger, and callbacks that throw nothing foreign, a call returns. -/
theorem Call.run_returns (hforeign : ∀ c, S.foreign c = false) (E : Env) (call : Call)
    (hfresh : Fresh s.memory) (hlogger : s.log.logger ≠ none) :
    ∃ s', call.run E S s = .ok (s.config.answer E S call) s' ∧ Fresh s'.memory ∧
      s'.log.logger ≠ none ∧ s'.config = s.config.after call ∧
      s'.sent = s.sent ++ s.config.transfers E S call := by
  have hquiet := (Call.run_calm hforeign E call).quiet s hlogger
  have houtcome := Call.run_outcome E S call hfresh
  generalize call.run E S s = r at hquiet houtcome
  cases houtcome with
  | returned own s' hold hlost hconfig hsent =>
      exact ⟨s', rfl, hold.toFresh, hquiet, hconfig, hsent⟩
  | thrown => exact absurd hquiet id

end UempPlugin.Ref.HttpsClientPrivate
