import UempPlugin.Lib.Simulation
import UempPlugin.Proofs.LogText
import UempPlugin.Spec.HttpRequests

/-!
# A request gives back what it got from libcurl

Every request is followed call by call, with what it owns: its handle, its list
of header lines, for a moment two escaped strings. What it uses it owns, so no
address is ever used after its object was given back, or for an object of
another kind; and what it does not own it leaves alone.

It does not give everything back. `curl_slist_append` answers with a null
pointer when it fails, and the pointer to the list so far is overwritten with
it. And when a message throws, nothing is given back at all.
-/

namespace UempPlugin.Ref.HttpsClientPrivate

open UempPlugin.Lib
open Arena (Holding Fresh)
open HttpsClient (Headers HttpResponse Method cStr easyEscape escaped byte headerLine toInt)

variable {W : Log.World} {E : Env} {S : Setting} {s : Client W} {m base : Arena Object}
  {own rest : Nat → Option Object} {h : Nat} {data : UserDefined}

/-! ## libcurl's calls -/

theorem easyAt_eq (hlive : s.memory.live h = some (.easy data)) : easyAt h s = .ok data s := by
  rw [easyAt, hlive]

theorem slistAt_eq {l : Nat} {lines : List Bytes} (hlive : s.memory.live l = some (.slist lines)) :
    slistAt l s = .ok lines s := by
  rw [slistAt, hlive]

theorem setopt_eq (hlive : s.memory.live h = some (.easy data)) (set : UserDefined → UserDefined) :
    setopt h set s = .ok () { s with memory := s.memory.put h (some (.easy (set data))) } := by
  rw [setopt, bind_of_ok (easyAt_eq hlive)]
  rfl

/-- One option after the other. -/
theorem setopt_put (m : Arena Object) (set : UserDefined → UserDefined) :
    setopt h set { s with memory := m.put h (some (.easy data)) } =
      .ok () { s with memory := m.put h (some (.easy (set data))) } := by
  rw [setopt_eq (Arena.put_self ..)]
  simp only [Arena.put_put]

/-- A message is logged, or throws; nothing else changes. -/
theorem log_cases (S : Setting) (level : Log.Level) (line : Nat) (msgList : List LoggerUtil.Any)
    (s : Client W) :
    ∃ l, log S level line msgList s = .ok () { s with log := l } ∨
      ∃ e, log S level line msgList s = .error (.thrown e) { s with log := l } := by
  rw [log]
  generalize Log.Typed.logImpl S.P S.foreign (S.getLine line) msgList _ level s.log = r
  cases r with
  | ok u l => exact ⟨l, .inl rfl⟩
  | error e l => exact ⟨l, .inr ⟨e, rfl⟩⟩

/-! ## The list of header lines -/

/-- A list is lost when an append to it fails. -/
def Lost (fails : Nat → Bool) : Nat → Nat → Bool → Prop
  | _, 0, _ => False
  | i, n + 1, listed => fails i ∧ listed ∨ Lost fails (i + 1) n (!fails i)

/-- What is owned besides the list so far. -/
def listed (rest : Nat → Option Object) : Option (Nat × List Bytes) → Nat → Option Object
  | none => rest
  | some (l, lines) => Function.update rest l (some (.slist lines))

theorem slistAppend_fails (list : Option Nat) (line : Bytes) (s : Client W) :
    slistAppend true list line s = .ok none s := rfl

theorem slistAppend_first (line : Bytes) (s : Client W) :
    slistAppend false none line s =
      .ok (some s.memory.next) { s with memory := s.memory.add (.slist [cStr line]) } := rfl

theorem slistAppend_more {l : Nat} {lines : List Bytes}
    (hlive : s.memory.live l = some (.slist lines)) (line : Bytes) :
    slistAppend false (some l) line s =
      .ok (some l)
        { s with memory := s.memory.put l (some (.slist (lines ++ [cStr line]))) } := by
  rw [slistAppend, if_neg Bool.false_ne_true]
  show (slistAt l >>= _) s = _
  rw [bind_of_ok (slistAt_eq hlive)]
  rfl

/-- The loop over the headers, from a list so far. -/
theorem appendLoop_spec (E : Env) : ∀ (headers : List (Bytes × Bytes)) (i : Nat)
    {rest : Nat → Option Object} {cur : Option (Nat × List Bytes)} {s : Client W},
    Holding base (listed rest cur) s.memory → (∀ x ∈ cur, rest x.1 = none) →
    ∃ rest' cur' m', appendLoop E i headers (cur.map Prod.fst) s =
        .ok (cur'.map Prod.fst) { s with memory := m' } ∧
      Holding base (listed rest' cur') m' ∧ (∀ x ∈ cur', rest' x.1 = none) ∧
      cur'.map Prod.snd = keptLines E.appendFails i headers (cur.map Prod.snd) ∧
      (∀ p o, rest p = some o → rest' p = some o) ∧
      (rest' = rest ↔ ¬ Lost E.appendFails i headers.length cur.isSome) := by
  intro headers
  induction headers with
  | nil => exact fun i rest cur s hold hcur =>
      ⟨rest, cur, s.memory, rfl, hold, hcur, rfl, fun _ _ hp => hp, fun _ hno => hno, fun _ => rfl⟩
  | cons entry headers ih =>
      obtain ⟨key, val⟩ := entry
      intro i rest cur s hold hcur
      cases hfail : E.appendFails i with
      | true =>
          -- the list so far goes to what is owned for good
          have hnone : ∀ x ∈ (none : Option (Nat × List Bytes)), listed rest cur x.1 = none :=
            fun _ hx => nomatch hx
          have hold₀ : Holding base (listed (listed rest cur) none) s.memory := hold
          obtain ⟨rest', cur', m', heq, hold', hcur', hlines, hgrown, hlost⟩ :=
            ih (i + 1) hold₀ hnone
          refine ⟨rest', cur', m', ?_, hold', hcur', ?_, fun p o hp => hgrown p o ?_, ?_⟩
          · rw [appendLoop, hfail, bind_of_ok (slistAppend_fails ..)]
            exact heq
          · rw [keptLines, hfail]
            exact hlines
          · cases cur with
            | none => exact hp
            | some x =>
                obtain ⟨l, lines⟩ := x
                have hne : p ≠ l := by
                  rintro rfl
                  rw [hcur _ rfl] at hp
                  cases hp
                rw [listed, Function.update_of_ne hne]
                exact hp
          · rw [List.length_cons, Lost, hfail]
            cases cur with
            | none =>
                rw [show rest = listed rest none from rfl]
                simpa using hlost
            | some x =>
                obtain ⟨l, lines⟩ := x
                have hgone : rest' ≠ rest := by
                  intro heq
                  have hl := hgrown l (.slist lines) (Function.update_self ..)
                  rw [heq, hcur _ rfl] at hl
                  cases hl
                simp [hgone]
      | false =>
          have hstep : ∃ cur₁ m₁, slistAppend false (cur.map Prod.fst) (headerLine key val) s =
              .ok (cur₁.map Prod.fst) { s with memory := m₁ } ∧
              Holding base (listed rest cur₁) m₁ ∧ (∀ x ∈ cur₁, rest x.1 = none) ∧
              cur₁.map Prod.snd =
                some ((cur.map Prod.snd).getD [] ++ [cStr (headerLine key val)]) := by
            cases cur with
            | none =>
                refine ⟨some (s.memory.next, [cStr (headerLine key val)]), _,
                  slistAppend_first _ s, hold.add _, fun x hx => ?_, rfl⟩
                cases hx
                exact hold.fresh _ (Nat.le_refl _)
            | some x =>
                obtain ⟨l, lines⟩ := x
                have hl : listed rest (some (l, lines)) l = some (.slist lines) :=
                  Function.update_self ..
                refine ⟨some (l, lines ++ [cStr (headerLine key val)]), _,
                  slistAppend_more (hold.live hl) _, ?_, fun x hx => ?_, rfl⟩
                · have hput := hold.put hl (some (.slist (lines ++ [cStr (headerLine key val)])))
                  simp only [listed, Function.update_idem] at hput
                  exact hput
                · cases hx
                  exact hcur (l, lines) rfl
          obtain ⟨cur₁, m₁, heq₁, hold₁, hcur₁, hlines₁⟩ := hstep
          obtain ⟨rest', cur', m', heq, hold', hcur', hlines, hgrown, hlost⟩ :=
            ih (i + 1) (s := { s with memory := m₁ }) hold₁ hcur₁
          refine ⟨rest', cur', m', ?_, hold', hcur', ?_, hgrown, ?_⟩
          · rw [appendLoop, hfail, bind_of_ok heq₁]
            exact heq
          · rw [keptLines, hfail, hlines, hlines₁]
            rfl
          · have hsome : cur₁.isSome = true := by
              rw [← Option.isSome_map (f := Prod.snd), hlines₁]
              rfl
            rw [hlost, List.length_cons, Lost, hfail, hsome]
            simp

theorem lost_iff (fails : Nat → Bool) : ∀ (n i : Nat) (before : Bool),
    Lost fails i n before ↔
      (∃ j, j + 1 < n ∧ fails (i + j) = false ∧ fails (i + j + 1) = true) ∨
        0 < n ∧ fails i = true ∧ before = true := by
  intro n
  induction n with
  | zero => simp [Lost]
  | succ n ih =>
      intro i before
      rw [Lost, ih]
      constructor
      · rintro (⟨hfail, hbefore⟩ | ⟨j, hj, hok, hfail⟩ | ⟨hn, hfail, hok⟩)
        · exact .inr ⟨Nat.succ_pos n, hfail, hbefore⟩
        · refine .inl ⟨j + 1, by omega, ?_, ?_⟩
          · rw [show i + (j + 1) = i + 1 + j by omega, hok]
          · rw [show i + (j + 1) + 1 = i + 1 + j + 1 by omega, hfail]
        · refine .inl ⟨0, by omega, ?_, hfail⟩
          simpa using hok
      · rintro (⟨j, hj, hok, hfail⟩ | ⟨-, hfail, hbefore⟩)
        · cases j with
          | zero => exact .inr (.inr ⟨by omega, hfail, by simpa using hok⟩)
          | succ j =>
              refine .inr (.inl ⟨j, by omega, ?_, ?_⟩)
              · rw [show i + 1 + j = i + (j + 1) by omega, hok]
              · rw [show i + 1 + j + 1 = i + (j + 1) + 1 by omega, hfail]
        · exact .inl ⟨hfail, hbefore⟩

/-! ## The body of a form -/

/-- What is owned besides an escaped string. -/
def withStr (own : Nat → Option Object) : Option (Nat × Bytes) → Nat → Option Object
  | none => own
  | some (p, text) => Function.update own p (some (.str text))

theorem escape_spec (hold : Holding base own s.memory) (fails : Bool) (string : Bytes) :
    ∃ got m', escape fails string s = .ok (got.map Prod.fst) { s with memory := m' } ∧
      Holding base (withStr own got) m' ∧ (∀ x ∈ got, own x.1 = none) ∧
      (got.map Prod.snd).getD [] = piece fails string := by
  rw [escape, piece, escaped]
  generalize easyEscape string (toInt string.length) = text
  cases text with
  | none =>
      refine ⟨none, s.memory, rfl, hold, fun _ hx => (nomatch hx), ?_⟩
      cases fails
      · rfl
      · rfl
  | some text =>
      cases fails with
      | true => exact ⟨none, s.memory, rfl, hold, fun _ hx => (nomatch hx), rfl⟩
      | false =>
          refine ⟨some (s.memory.next, text), s.memory.add (.str text), rfl, hold.add _,
            fun x hx => ?_, rfl⟩
          cases hx
          exact hold.fresh _ (Nat.le_refl _)

theorem appendEscaped_spec {got : Option (Nat × Bytes)}
    (hold : Holding base (withStr own got) s.memory) (hgot : ∀ x ∈ got, own x.1 = none)
    (formBody : Bytes) :
    ∃ m', appendEscaped formBody (got.map Prod.fst) s =
        .ok (formBody ++ (got.map Prod.snd).getD []) { s with memory := m' } ∧
      Holding base own m' := by
  cases got with
  | none =>
      refine ⟨s.memory, ?_, hold⟩
      rw [show (Option.map Prod.snd (none : Option (Nat × Bytes))).getD [] = [] from rfl,
        List.append_nil]
      rfl
  | some x =>
      obtain ⟨p, text⟩ := x
      have hlive : s.memory.live p = some (.str text) := hold.live (Function.update_self ..)
      have hat : strAt p s = .ok text s := by
        rw [strAt, hlive]
      refine ⟨s.memory.put p none, ?_, Holding.release hold (hgot _ rfl)⟩
      show (strAt p >>= _) s = _
      rw [bind_of_ok hat]
      have hfree : curlFree p s = .ok () { s with memory := s.memory.put p none } := by
        rw [curlFree, bind_of_ok hat]
        rfl
      rw [bind_of_ok hfree]
      rfl

theorem formLoop_spec (E : Env) : ∀ (formData : List (Bytes × Bytes)) (i : Nat) (first : Bool)
    (formBody : Bytes) {s : Client W}, Holding base own s.memory →
    ∃ m', formLoop E i formData first formBody s =
        .ok (formText E.escapeFails i formData first formBody) { s with memory := m' } ∧
      Holding base own m' := by
  intro formData
  induction formData with
  | nil => exact fun i first formBody s hold => ⟨s.memory, rfl, hold⟩
  | cons field formData ih =>
      obtain ⟨key, val⟩ := field
      intro i first formBody s hold
      obtain ⟨gotKey, m₁, he₁, hold₁, hkey, htext₁⟩ :=
        escape_spec hold (E.escapeFails (2 * i)) key
      obtain ⟨gotVal, m₂, he₂, hold₂, hval, htext₂⟩ :=
        escape_spec (s := { s with memory := m₁ }) hold₁ (E.escapeFails (2 * i + 1)) val
      -- the key's string is freed while the value's is still there
      have hswap : withStr (withStr own gotKey) gotVal = withStr (withStr own gotVal) gotKey := by
        cases gotKey with
        | none => rfl
        | some x =>
            cases gotVal with
            | none => rfl
            | some y =>
                refine Function.update_comm (fun heq => ?_) _ _ _
                have htaken := hval y rfl
                rw [withStr, ← heq, Function.update_self] at htaken
                cases htaken
      rw [hswap] at hold₂
      have hkeyFree : ∀ x ∈ gotKey, withStr own gotVal x.1 = none := by
        intro x hx
        cases gotVal with
        | none => exact hkey x hx
        | some y =>
            have hne : x.1 ≠ y.1 := by
              intro heq
              have htaken := hval y rfl
              cases hx
              rw [withStr, ← heq, Function.update_self] at htaken
              cases htaken
            rw [withStr, Function.update_of_ne hne]
            exact hkey x hx
      have hvalFree : ∀ x ∈ gotVal, own x.1 = none := by
        intro y hy
        have htaken := hval y hy
        cases gotKey with
        | none => exact htaken
        | some x =>
            rw [withStr, Function.update_apply] at htaken
            split at htaken
            · cases htaken
            · exact htaken
      let begun := if !first then formBody ++ [byte '&'] else formBody
      obtain ⟨m₃, he₃, hold₃⟩ := appendEscaped_spec (s := { s with memory := m₂ }) hold₂ hkeyFree
        begun
      obtain ⟨m₄, he₄, hold₄⟩ := appendEscaped_spec (s := { s with memory := m₃ }) hold₃ hvalFree
        (begun ++ (gotKey.map Prod.snd).getD [] ++ [byte '='])
      obtain ⟨m', he, hold'⟩ := ih (i + 1) false
        (begun ++ (gotKey.map Prod.snd).getD [] ++ [byte '='] ++ (gotVal.map Prod.snd).getD [])
        (s := { s with memory := m₄ }) hold₄
      refine ⟨m', ?_, hold'⟩
      rw [formLoop, bind_of_ok he₁, bind_of_ok he₂, bind_of_ok he₃, bind_of_ok he₄, formText,
        ← htext₁, ← htext₂]
      exact he

/-! ## The transfer -/

/-- The options after `applyGlobalConfig`. -/
def configured (E : Env) (s : Client W) (data : UserDefined) : UserDefined :=
  { data with
    verifypeer := s.verifySsl
    verifyhost := s.verifySsl
    cafile :=
      if s.caBundlePath ≠ [] then setstropt E.cafileFails s.caBundlePath else data.cafile
    timeout := setTimeoutSec data.timeout s.timeout
    connecttimeout := setTimeoutSec data.connecttimeout s.connectTimeout }

/-- The options of the transfer. -/
def ready (E : Env) (s : Client W) (data : UserDefined) : UserDefined :=
  configured E s { data with callbacks := true, httpFollowMode := 1, maxredirs := 5 }

theorem applyGlobalConfig_put (E : Env) (m : Arena Object) (data : UserDefined) :
    applyGlobalConfig E h { s with memory := m.put h (some (.easy data)) } =
      .ok () { s with memory := m.put h (some (.easy (configured E s data))) } := by
  rw [applyGlobalConfig, bind_of_ok (show (MonadState.get : HttpM W _) _ = .ok _ _ from rfl),
    bind_of_ok (setopt_put ..), bind_of_ok (setopt_put ..)]
  by_cases hpath : s.caBundlePath ≠ []
  · rw [if_pos hpath, bind_of_ok (setopt_put ..)]
    dsimp only
    rw [bind_of_ok (setopt_put ..), setopt_put, configured, if_pos hpath]
  · rw [if_neg hpath]
    dsimp only
    rw [bind_of_ok (setopt_put ..), setopt_put, configured, if_neg hpath]

/-- The lines of a list that may be empty. -/
def Lines (m : Arena Object) : Option Nat → List Bytes → Prop
  | none, lines => lines = []
  | some l, lines => m.live l = some (.slist lines)

theorem linesAt_eq {list : Option Nat} {lines : List Bytes} (hlines : Lines s.memory list lines) :
    linesAt list s = .ok lines s := by
  cases list with
  | none =>
      rw [show lines = [] from hlines]
      rfl
  | some l => exact slistAt_eq hlines

/-- The options of a handle are no list. -/
theorem Lines.put {list : Option Nat} {lines : List Bytes} (hlines : Lines m list lines)
    (hlive : m.live h = some (.easy data)) (o : Object) : Lines (m.put h (some o)) list lines := by
  cases list with
  | none => exact hlines
  | some l =>
      have hlist : m.live l = some (.slist lines) := hlines
      have hne : l ≠ h := by
        rintro rfl
        rw [hlist] at hlive
        cases hlive
      exact (Arena.put_ne m hne _).trans hlist

/-- How a transfer ends, of a request `req`: the objects are as they were
before it. -/
inductive Performed (E : Env) (s : Client W) (req : Sent) :
    EStateM.Result Fault (Client W) HttpResponse → Prop where
  | returned (l : Log.LogPrivate W) :
      Performed E s req
        (.ok (HttpsClient.perform (E.exchange req)) { s with log := l, sent := s.sent ++ [req] })
  | thrown (e : Exn) (l : Log.LogPrivate W) (sent : List Sent) :
      sent = s.sent ∨ sent = s.sent ++ [req] →
        Performed E s req (.error (.thrown e) { s with log := l, sent := sent })

theorem easyPerform_eq (E : Env) {lines : List Bytes}
    (hlive : s.memory.live h = some (.easy data)) (hlines : Lines s.memory data.headers lines) :
    easyPerform E h s =
      .ok (E.exchange (data.sent lines)) { s with sent := s.sent ++ [data.sent lines] } := by
  rw [easyPerform, bind_of_ok (easyAt_eq hlive)]
  exact bind_of_ok (linesAt_eq hlines)

theorem logResponse_cases (S : Setting) (url : Bytes) (response : HttpResponse)
    (result : Except Bytes Int) (s : Client W) :
    ∃ l, logResponse S url response result s = .ok () { s with log := l } ∨
      ∃ e, logResponse S url response result s = .error (.thrown e) { s with log := l } := by
  cases result with
  | ok code => exact log_cases ..
  | error text => exact log_cases ..

theorem perform_spec (E : Env) (S : Setting) {lines : List Bytes}
    (hlive : s.memory.live h = some (.easy data)) (hlines : Lines s.memory data.headers lines) :
    Performed E { s with memory := s.memory.put h (some (.easy (ready E s data))) }
      ((ready E s data).sent lines) (perform E S h s) := by
  rw [perform, bind_of_ok (setopt_eq hlive _), bind_of_ok (setopt_put ..),
    bind_of_ok (setopt_put ..), bind_of_ok (applyGlobalConfig_put E _ _)]
  have hlines' : Lines (s.memory.put h (some (.easy (ready E s data)))) (ready E s data).headers
      lines := hlines.put hlive _
  show Performed E _ _ ((effectiveUrl h >>= _)
    { s with memory := s.memory.put h (some (.easy (ready E s data))) })
  generalize ready E s data = opts at hlines' ⊢
  have hat : ∀ l : Log.LogPrivate W,
      { s with memory := s.memory.put h (some (.easy opts)), log := l : Client W }.memory.live h =
        some (.easy opts) := fun _ => Arena.put_self ..
  have hurl : effectiveUrl h { s with memory := s.memory.put h (some (.easy opts)) } =
      .ok (opts.url.getD []) { s with memory := s.memory.put h (some (.easy opts)) } := by
    rw [effectiveUrl, bind_of_ok (easyAt_eq (hat s.log))]
    rfl
  rw [bind_of_ok hurl]
  obtain ⟨l, hlog | ⟨e, hlog⟩⟩ := log_cases S .info 144
    [lit "HTTPS 请求开始: ", chars (opts.url.getD [])]
    { s with memory := s.memory.put h (some (.easy opts)) }
  · rw [bind_of_ok hlog, bind_of_ok (easyPerform_eq E (hat l) hlines')]
    obtain ⟨l', hlog' | ⟨e, hlog'⟩⟩ := logResponse_cases S (opts.url.getD [])
      (HttpsClient.perform (E.exchange (opts.sent lines))) (E.exchange (opts.sent lines)).result
      { s with
        memory := s.memory.put h (some (.easy opts))
        log := l
        sent := s.sent ++ [opts.sent lines] }
    · rw [bind_of_ok hlog']
      exact .returned l'
    · rw [bind_of_error hlog']
      exact .thrown e l' _ (.inr rfl)
  · rw [bind_of_error hlog]
    exact .thrown e l _ (.inl rfl)

/-! ## A request -/

/-- How `finish` ends: a transfer was run, and what is still owned is what a
failed append lost; or a message threw, and the handle is still there. -/
inductive Finished (E : Env) (s : Client W) (n : Nat) (req : Sent) (base : Arena Object) :
    EStateM.Result Fault (Client W) HttpResponse → Prop where
  | returned (own : Nat → Option Object) (m : Arena Object) (l : Log.LogPrivate W) :
      Holding base own m → ((∀ p, own p = none) ↔ ¬ Lost E.appendFails 0 n false) →
        Finished E s n req base
          (.ok (HttpsClient.perform (E.exchange req))
            { s with memory := m, log := l, sent := s.sent ++ [req] })
  | thrown (e : Exn) (own : Nat → Option Object) (m : Arena Object) (l : Log.LogPrivate W)
      (sent : List Sent) :
      Holding base own m → (∃ p, own p ≠ none) → sent = s.sent ∨ sent = s.sent ++ [req] →
        Finished E s n req base
          (.error (.thrown e) { s with memory := m, log := l, sent := sent })

/-- The list is not where the handle is. -/
theorem ne_handle {rest : Nat → Option Object} {cur : Option (Nat × List Bytes)}
    (hcur : ∀ x ∈ cur, rest x.1 = none) (hh : rest h = some (.easy data)) :
    ∀ x ∈ cur, x.1 ≠ h := by
  intro x hx heq
  have htaken := hcur x hx
  rw [heq, hh] at htaken
  cases htaken

theorem update_listed {rest : Nat → Option Object} {cur : Option (Nat × List Bytes)}
    (hne : ∀ x ∈ cur, x.1 ≠ h) (o : Option Object) :
    Function.update (listed rest cur) h o = listed (Function.update rest h o) cur := by
  cases cur with
  | none => rfl
  | some x => exact Function.update_comm (hne x rfl) _ _ _

theorem listed_handle {rest : Nat → Option Object} {cur : Option (Nat × List Bytes)}
    (hne : ∀ x ∈ cur, x.1 ≠ h) : listed rest cur h = rest h := by
  cases cur with
  | none => rfl
  | some x => exact Function.update_of_ne (hne x rfl).symm _ _

theorem setHeaders_spec (E : Env) (headers : Headers) (hold : Holding base own s.memory)
    (hown : own h = some (.easy data)) (hdata : data.headers = none) :
    ∃ rest cur m', setHeaders E h headers s = .ok (cur.map Prod.fst) { s with memory := m' } ∧
      Holding base (listed (Function.update rest h
        (some (.easy { data with headers := cur.map Prod.fst }))) cur) m' ∧
      (∀ x ∈ cur, rest x.1 = none) ∧ rest h = some (.easy data) ∧
      cur.map Prod.snd = keptLines E.appendFails 0 headers.toList none ∧
      (rest = own ↔ ¬ Lost E.appendFails 0 headers.toList.length false) := by
  have hold₀ : Holding base (listed own none) s.memory := hold
  have hnone : ∀ x ∈ (none : Option (Nat × List Bytes)), own x.1 = none := fun _ hx => nomatch hx
  obtain ⟨rest, cur, m₁, heq, hold₁, hcur, hlines, hgrown, hlost⟩ :=
    appendLoop_spec E headers.toList 0 hold₀ hnone
  have hloop : appendLoop E 0 headers.toList none s =
      .ok (cur.map Prod.fst) { s with memory := m₁ } := heq
  have hh := hgrown h _ hown
  have hne := ne_handle hcur hh
  have hput := hold₁.put ((listed_handle hne).trans hh)
    (some (.easy { data with headers := cur.map Prod.fst }))
  rw [update_listed hne] at hput
  cases cur with
  | none =>
      refine ⟨rest, none, m₁, ?_, ?_, hcur, hh, hlines, hlost⟩
      · rw [setHeaders, bind_of_ok hloop]
        rfl
      · have hsame : { data with headers := none } = data := by
          rw [← hdata]
        show Holding base (Function.update rest h (some (.easy { data with headers := none }))) m₁
        rw [hsame, Function.update_eq_self_iff.2 hh.symm]
        exact hold₁
  | some x =>
      refine ⟨rest, some x, _, ?_, hput, hcur, hh, hlines, hlost⟩
      have hlive := hold₁.live ((listed_handle hne).trans hh)
      rw [setHeaders, bind_of_ok hloop]
      show (setopt h _ >>= _) _ = _
      rw [bind_of_ok (setopt_eq hlive _)]
      rfl

theorem freeList_spec {rest : Nat → Option Object} {cur : Option (Nat × List Bytes)}
    (hold : Holding base (listed rest cur) s.memory) (hcur : ∀ x ∈ cur, rest x.1 = none) :
    ∃ m', freeList (cur.map Prod.fst) s = .ok () { s with memory := m' } ∧
      Holding base rest m' := by
  cases cur with
  | none => exact ⟨s.memory, rfl, hold⟩
  | some x =>
      obtain ⟨l, lines⟩ := x
      have hlive : s.memory.live l = some (.slist lines) := hold.live (Function.update_self ..)
      refine ⟨s.memory.put l none, ?_, Holding.release hold (hcur _ rfl)⟩
      show (slistAt l >>= _) s = _
      rw [bind_of_ok (slistAt_eq hlive)]
      rfl

theorem easyCleanup_eq (hlive : s.memory.live h = some (.easy data)) :
    easyCleanup h s = .ok () { s with memory := s.memory.put h none } := by
  rw [easyCleanup, bind_of_ok (easyAt_eq hlive)]
  rfl

/-- The transfer that is run with these options and headers. -/
def request (E : Env) (s : Client W) (data : UserDefined) (headers : Headers) : Sent :=
  (ready E s data).sent ((keptLines E.appendFails 0 headers.toList none).getD [])

theorem finish_spec (E : Env) (S : Setting) (headers : Headers) (hold : Holding base own m)
    (hown : own h = some (.easy data)) (hothers : ∀ p, p ≠ h → own p = none)
    (hdata : data.headers = none) :
    Finished E s headers.toList.length (request E s data headers) base
      (finish E S h headers { s with memory := m }) := by
  obtain ⟨rest, cur, m₁, heq, hold₁, hcur, hh, hkept, hlost⟩ :=
    setHeaders_spec (s := { s with memory := m }) E headers hold hown hdata
  rw [finish, bind_of_ok heq]
  have hne := ne_handle hcur hh
  have hcur' : ∀ (o : Option Object), ∀ x ∈ cur, Function.update rest h o x.1 = none :=
    fun o x hx => (Function.update_of_ne (hne x hx) _ _).trans (hcur x hx)
  have hhandle : ∀ o : Object, listed (Function.update rest h (some o)) cur h = some o :=
    fun o => (listed_handle hne).trans (Function.update_self ..)
  have hlines : Lines m₁ (cur.map Prod.fst) ((cur.map Prod.snd).getD []) := by
    cases cur with
    | none => rfl
    | some x => exact hold₁.live (Function.update_self ..)
  rw [hkept] at hlines
  have hperformed : Performed E
      { s with
        memory := m₁.put h (some (.easy (ready E s { data with headers := cur.map Prod.fst }))) }
      (request E s data headers) (perform E S h { s with memory := m₁ }) :=
    perform_spec E S (s := { s with memory := m₁ }) (hold₁.live (hhandle _)) hlines
  have hold₂ := hold₁.put (hhandle _)
    (some (.easy (ready E s { data with headers := cur.map Prod.fst })))
  rw [update_listed hne, Function.update_idem] at hold₂
  generalize hr : perform E S h { s with memory := m₁ } = r at hperformed
  cases hperformed with
  | thrown e l sent hsent =>
      rw [bind_of_error hr]
      refine .thrown e _ _ l sent hold₂ ⟨h, ?_⟩ hsent
      rw [hhandle]
      exact Option.some_ne_none _
  | returned l =>
      rw [bind_of_ok hr]
      show Finished E s _ _ base ((freeList _ >>= _) { s with
        memory := m₁.put h (some (.easy (ready E s { data with headers := cur.map Prod.fst })))
        log := l
        sent := s.sent ++ [request E s data headers] })
      obtain ⟨m₃, hfree, hold₃⟩ := freeList_spec (s := { s with
        memory := m₁.put h (some (.easy (ready E s { data with headers := cur.map Prod.fst })))
        log := l
        sent := s.sent ++ [request E s data headers] }) hold₂ (hcur' _)
      have hlive := hold₃.live (Function.update_self ..)
      have hcleanup := easyCleanup_eq (s := { s with
        memory := m₃
        log := l
        sent := s.sent ++ [request E s data headers] }) hlive
      have hold₄ := hold₃.put (Function.update_self ..) none
      rw [Function.update_idem] at hold₄
      rw [bind_of_ok hfree, bind_of_ok hcleanup]
      refine .returned _ _ l hold₄ ?_
      rw [← hlost]
      constructor
      · intro hall
        funext p
        by_cases hp : p = h
        · rw [hp, hh, hown]
        · rw [hothers p hp, ← hall p, Function.update_of_ne hp]
      · rintro rfl p
        by_cases hp : p = h
        · rw [hp, Function.update_self]
        · rw [Function.update_of_ne hp, hothers p hp]

/-! ## The requests -/

/-- How a request ends: without a handle nothing was allocated. -/
inductive Requested (E : Env) (s : Client W) (n : Nat) (req : Sent) :
    EStateM.Result Fault (Client W) HttpResponse → Prop where
  | noHandle (l : Log.LogPrivate W) :
      E.initFails = true →
        Requested E s n req (.ok { error := initFailed } { s with log := l })
  | noHandleThrown (e : Exn) (l : Log.LogPrivate W) :
      E.initFails = true → Requested E s n req (.error (.thrown e) { s with log := l })
  | finished {r : EStateM.Result Fault (Client W) HttpResponse} :
      E.initFails = false → Finished E s n req s.memory r → Requested E s n req r

/-- The options of a new handle. -/
def fresh (S : Setting) : UserDefined := { cafile := S.cafile }

/-- The options `get` sets itself. -/
def getOptions (E : Env) (S : Setting) (url : Bytes) : UserDefined :=
  { fresh S with url := setstropt E.urlFails url, method := .get }

/-- The options both kinds of POST set themselves. -/
def postOptions (E : Env) (S : Setting) (url body : Bytes) : UserDefined :=
  { fresh S with
    url := setstropt E.urlFails url
    method := .post
    postfields := some body
    postfieldsize := body.length }

/-- A new handle is all that is owned. -/
theorem holding_handle (hfresh : Fresh s.memory) (S : Setting) :
    Holding s.memory (Function.update (fun _ => none) s.memory.next (some (.easy (fresh S))))
      (s.memory.add (.easy (fresh S))) :=
  (Holding.start hfresh).add _

/-- The end of a request whose handle is all that is owned, and whose options
are set. -/
theorem finish_handle (E : Env) (S : Setting) (headers : Headers)
    (hold : Holding s.memory
      (Function.update (fun _ => none) s.memory.next (some (.easy (fresh S)))) m)
    (hdata : data.headers = none) :
    Finished E s headers.toList.length (request E s data headers) s.memory
      (finish E S s.memory.next headers
        { s with memory := m.put s.memory.next (some (.easy data)) }) := by
  have hput := hold.put (Function.update_self ..) (some (.easy data))
  rw [Function.update_idem] at hput
  exact finish_spec E S headers hput (Function.update_self ..)
    (fun p hp => Function.update_of_ne hp ..) hdata

theorem noHandle_spec (E : Env) (S : Setting) (line : Nat) (what : String) (url : Bytes) (n : Nat)
    (req : Sent) (hinit : E.initFails = true) (s : Client W) :
    Requested E s n req (noHandle S line what url s) := by
  rw [noHandle]
  obtain ⟨l, hlog | ⟨e, hlog⟩⟩ := log_cases S .err line
    [lit what, str url, lit " — ", str initFailed] s
  · rw [bind_of_ok hlog]
    exact .noHandle l hinit
  · rw [bind_of_error hlog]
    exact .noHandleThrown e l hinit

theorem easyInit_fails (S : Setting) (hinit : E.initFails = true) (s : Client W) :
    easyInit E S s = .ok none s := by
  rw [easyInit, if_pos hinit]
  rfl

theorem easyInit_ok (S : Setting) (hinit : E.initFails = false) (s : Client W) :
    easyInit E S s =
      .ok (some s.memory.next) { s with memory := s.memory.add (.easy (fresh S)) } := by
  rw [easyInit, if_neg (by rw [hinit]; exact Bool.false_ne_true)]
  rfl

/-- Every request begins with its handle. -/
theorem requested {f : Option Nat → HttpM W HttpResponse} {n : Nat} {req : Sent}
    (hnone : E.initFails = true → Requested E s n req (f none s))
    (hsome : Finished E s n req s.memory
      (f (some s.memory.next) { s with memory := s.memory.add (.easy (fresh S)) })) :
    Requested E s n req ((easyInit E S >>= f) s) := by
  cases hinit : E.initFails with
  | true =>
      rw [bind_of_ok (easyInit_fails S hinit s)]
      exact hnone hinit
  | false =>
      rw [bind_of_ok (easyInit_ok S hinit s)]
      exact .finished hinit hsome

theorem get_spec (E : Env) (S : Setting) (url : Bytes) (headers : Headers)
    (hfresh : Fresh s.memory) :
    Requested E s (Method.get.allHeaders headers).toList.length
      (request E s (getOptions E S url) (Method.get.allHeaders headers))
      (HttpsClientPrivate.get E S url headers s) := by
  have hold := holding_handle hfresh S
  refine requested (fun hinit => noHandle_spec E S _ _ _ _ _ hinit s) ?_
  show Finished E s _ _ _ ((setopt s.memory.next _ >>= _) _)
  rw [bind_of_ok (setopt_eq (hold.live (Function.update_self ..)) _),
    bind_of_ok (setopt_put ..)]
  exact finish_handle E S _ hold rfl

theorem setBody_eq (E : Env) (S : Setting) (url body : Bytes)
    (hlive : s.memory.live h = some (.easy (fresh S))) :
    setBody E h url body s =
      .ok () { s with memory := s.memory.put h (some (.easy (postOptions E S url body))) } := by
  rw [setBody, bind_of_ok (setopt_eq hlive _), bind_of_ok (setopt_put ..),
    bind_of_ok (setopt_put ..), setopt_put]
  rfl

theorem postJson_spec (E : Env) (S : Setting) (url jsonBody : Bytes) (extraHeaders : Headers)
    (hfresh : Fresh s.memory) :
    Requested E s (Method.postJson.allHeaders extraHeaders).toList.length
      (request E s (postOptions E S url jsonBody) (Method.postJson.allHeaders extraHeaders))
      (postJson E S url jsonBody extraHeaders s) := by
  have hold := holding_handle hfresh S
  refine requested (fun hinit => noHandle_spec E S _ _ _ _ _ hinit s) ?_
  show Finished E s _ _ _ ((setBody E s.memory.next url jsonBody >>= _) _)
  rw [bind_of_ok (setBody_eq E S url jsonBody (hold.live (Function.update_self ..)))]
  exact finish_handle E S _ hold rfl

theorem postForm_spec (E : Env) (S : Setting) (url : Bytes) (formData extraHeaders : Headers)
    (hfresh : Fresh s.memory) :
    Requested E s (Method.postForm.allHeaders extraHeaders).toList.length
      (request E s (postOptions E S url (formText E.escapeFails 0 formData.toList true []))
        (Method.postForm.allHeaders extraHeaders))
      (postForm E S url formData extraHeaders s) := by
  obtain ⟨m', hform, hold⟩ := formLoop_spec E formData.toList 0 true []
    (s := { s with memory := s.memory.add (.easy (fresh S)) }) (holding_handle hfresh S)
  refine requested (fun hinit => noHandle_spec E S _ _ _ _ _ hinit s) ?_
  show Finished E s _ _ _ ((formLoop E 0 formData.toList true [] >>= _) _)
  rw [bind_of_ok hform]
  show Finished E s _ _ _ ((setBody E s.memory.next url _ >>= _) { s with memory := m' })
  rw [bind_of_ok (setBody_eq E S url _ (hold.live (Function.update_self ..)))]
  exact finish_handle E S _ hold rfl

end UempPlugin.Ref.HttpsClientPrivate
