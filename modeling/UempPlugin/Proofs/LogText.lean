import UempPlugin.Proofs.CallbackSinks
import UempPlugin.Ref.AnyToString

/-!
# When the text of a message is complete

The text of a message is to be the texts of its values, one after another, and
that of wide text is the UTF-8 of all of it. The conversion of wide text stops
at its first U+0000, or at a high surrogate right before that, and throws at
what else is not text, so a message is complete exactly when its wide values
are text without a U+0000.
-/

namespace UempPlugin.Ref

open UempPlugin.Lib

/-! ## One value -/

namespace LoggerUtil

variable {P : Platform}

/-- A pointer that is not null. -/
def NonNull : (type : TypeIndex) → type.Value → Prop
  | .constCharPtr, (p : Option (CStr UInt8)) | .charPtr, (p : Option (CStr UInt8)) => p.isSome
  | .wcharPtr, (p : Option (CStr UInt32)) | .constWcharPtr, (p : Option (CStr UInt32)) =>
      p.isSome
  | _, _ => True

/-- A value of a type in the table, and no null pointer. -/
def Registered (P : Platform) : Any → Prop
  | .empty => False
  | .value type v => type ∈ (getConverters P).map AnyConverter.type ∧ NonNull type v

/-- The wide text of a value. -/
def wide : Any → Option (List UInt32)
  | .value .wstring (ws : List UInt32) => some ws
  | .value .wcharPtr (p : Option (CStr UInt32)) => p.map CStr.chars
  | .value .constWcharPtr (p : Option (CStr UInt32)) => p.map CStr.chars
  | _ => none

/-- The text of a value that is not wide. -/
def narrow (P : Platform) : Any → Option (List UInt8)
  | .value .string (s : List UInt8) => some s
  | .value .constCharPtr (p : Option (CStr UInt8)) => p.map CStr.chars
  | .value .charPtr (p : Option (CStr UInt8)) => p.map CStr.chars
  | .value .int (n : Int32) => some (intToString n.toInt)
  | .value .unsignedInt (n : UInt32) => some (intToString n.toNat)
  | .value .long (n : Int64) => some (intToString n.toInt)
  | .value .longLong (n : Int64) => some (intToString n.toInt)
  | .value .float (x : Float32) => some (P.floatToString x)
  | .value .double (x : Float) => some (floatingNumToString P x)
  | .value .sizeT (n : UInt64) => some (intToString n.toNat)
  | .value .uint64T (n : UInt64) => some (intToString n.toNat)
  | .value .bool (b : Bool) => some (utf8 (if b then "true" else "false").toList)
  | _ => none

/-- All that a value says: wide text in UTF-8. -/
def fullText (P : Platform) (a : Any) : Option (List UInt8) :=
  match wide a with
  | some ws => (scalars ws).map utf8
  | none => narrow P a

/-- Wide text is text, and without a U+0000. -/
def Sound (a : Any) : Prop := ∀ ws, wide a = some ws → WellFormed ws ∧ 0 ∉ ws

theorem anyToString_narrow {a : Any} {text : List UInt8} (h : narrow P a = some text) :
    anyToString P a = .ok (some text) := by
  cases a with
  | empty => cases h
  | value type v =>
      cases type
      case constCharPtr | charPtr =>
        obtain ⟨p, rfl, rfl⟩ := Option.map_eq_some_iff.1 h
        rfl
      all_goals cases h
      all_goals rfl

theorem anyToString_wide {a : Any} {ws : List UInt32} (h : wide a = some ws) :
    anyToString P a = (wstringToUtf8 ws).map some := by
  cases a with
  | empty => cases h
  | value type v =>
      cases type
      case wcharPtr | constWcharPtr =>
        obtain ⟨p, rfl, rfl⟩ := Option.map_eq_some_iff.1 h
        rfl
      all_goals cases h
      all_goals rfl

theorem registered_cases {a : Any} (h : Registered P a) :
    (∃ ws, wide a = some ws) ∨ wide a = none ∧ ∃ text, narrow P a = some text := by
  cases a with
  | empty => cases h
  | value type v =>
      obtain ⟨hmem, hnull⟩ := h
      cases type
      case constCharPtr | charPtr | wcharPtr | constWcharPtr =>
        obtain ⟨p, rfl⟩ := Option.isSome_iff_exists.1 hnull
        simp [wide, narrow]
      case nullptrT | other => simp [getConverters] at hmem
      all_goals simp [wide, narrow]

/-- What comes of wide text. -/
theorem wstringToUtf8_scalars {ws : List UInt32} {cs : List Char} (h : scalars ws = some cs) :
    wstringToUtf8 ws = .ok (utf8 (cs.takeWhile (· ≠ nul))) := by
  cases ws with
  | nil =>
      cases h
      rfl
  | cons w ws =>
      have hcut := scalars_takeWhile (scalars_wellFormed _ h) h
      rw [wstringToUtf8, if_neg (by simp), toBytes, data, (scalars_wellFormed _ hcut).whole, hcut]

/-- A value that has a full text is converted to a beginning of it. -/
theorem anyToString_full {a : Any} {full : List UInt8} (hfull : fullText P a = some full) :
    ∃ text, anyToString P a = .ok (some text) ∧ text <+: full ∧ (text = full ↔ Sound a) := by
  rw [fullText] at hfull
  cases hwide : wide a with
  | none =>
      rw [hwide] at hfull
      refine ⟨full, anyToString_narrow hfull, List.prefix_refl _, ?_⟩
      simp [Sound, hwide]
  | some ws =>
      rw [hwide] at hfull
      obtain ⟨cs, hcs, rfl⟩ := Option.map_eq_some_iff.1 hfull
      have hws := scalars_wellFormed ws hcs
      refine ⟨utf8 (cs.takeWhile (· ≠ nul)), ?_, utf8_prefix (List.takeWhile_prefix _), ?_⟩
      · rw [anyToString_wide hwide, wstringToUtf8_scalars hcs]
        rfl
      · have hsound : Sound a ↔ WellFormed ws ∧ 0 ∉ ws := by
          simp [Sound, hwide]
        rw [hsound, zero_mem_iff hws hcs, ← takeWhile_ne_eq_self_iff]
        exact ⟨fun h => ⟨hws, utf8_injective h⟩, fun h => congrArg utf8 h.2⟩

theorem fullText_sound {a : Any} (h : Registered P a) (hsound : Sound a) :
    ∃ full, fullText P a = some full := by
  rw [fullText]
  rcases registered_cases h with ⟨ws, hwide⟩ | ⟨hwide, hnarrow⟩
  · obtain ⟨cs, hcs⟩ := scalars_isSome (hsound ws hwide).1
    rw [hwide]
    exact ⟨utf8 cs, congrArg (Option.map utf8) hcs⟩
  · rw [hwide]
    exact hnarrow

/-! ## Wide text of scalar values -/

/-- All of it is converted exactly when there is no U+0000 in it. -/
theorem wstringToUtf8_all_iff (cs : List Char) :
    wstringToUtf8 (cs.map Char.val) = .ok (utf8 cs) ↔ nul ∉ cs := by
  rw [wstringToUtf8_scalars (scalars_units cs), Except.ok.injEq, ← takeWhile_ne_eq_self_iff]
  exact ⟨utf8_injective, congrArg utf8⟩

/-- Two of them are told apart exactly when they differ before it. -/
theorem wstringToUtf8_eq_iff (cs cs' : List Char) :
    wstringToUtf8 (cs.map Char.val) = wstringToUtf8 (cs'.map Char.val) ↔
      cs.takeWhile (· ≠ nul) = cs'.takeWhile (· ≠ nul) := by
  rw [wstringToUtf8_scalars (scalars_units cs), wstringToUtf8_scalars (scalars_units cs'),
    Except.ok.injEq]
  exact ⟨utf8_injective, congrArg utf8⟩

/-- The conversion returns exactly when what it reads is text, but for a high
surrogate at the end. -/
theorem wstringToUtf8_returns_iff (ws : List UInt32) :
    (∃ text, wstringToUtf8 ws = .ok text) ↔ WellFormed (whole (data ws)) := by
  rw [← scalars_isSome_iff, wstringToUtf8]
  cases ws with
  | nil => exact ⟨fun _ => ⟨[], rfl⟩, fun _ => ⟨[], rfl⟩⟩
  | cons w ws =>
      rw [if_neg (by simp), toBytes]
      cases scalars (whole (data (w :: ws))) <;> simp

end LoggerUtil

/-! ## A message -/

namespace Log.Typed

open LoggerUtil (Platform Registered Sound fullText rangeError wstringToUtf8)

variable {W : World} {P : Platform} (foreign : CallbackSink → Bool) (src : SourceLine)

/-- The full texts of the values, in order. -/
def rendered (P : Platform) : List LoggerUtil.Any → Option (List UInt8)
  | [] => some []
  | msg :: msgList => do
      let text ← fullText P msg
      let texts ← rendered P msgList
      return text ++ texts

/-- Linking the values gives all of their texts, in any state and leaving it as
it is, and none of the conversions throws out of `logImpl`. -/
def Complete (W : World) (P : Platform) (msgList : List LoggerUtil.Any) : Prop :=
  ∃ text, rendered P msgList = some text ∧
    ∀ (foreign : CallbackSink → Bool) (src : SourceLine) (s : LogPrivate W),
      linkString P foreign src msgList s = .ok text s ∧
        ∀ showLine level s', logImpl P foreign src msgList showLine level s ≠ .error rangeError s'

theorem anyToString_run {a : LoggerUtil.Any} {text : List UInt8}
    (h : LoggerUtil.anyToString P a = .ok (some text)) (s : LogPrivate W) :
    anyToString P foreign src a s = .ok text s := by
  cases a with
  | empty => cases h
  | value type v =>
      by_cases hnull : type = .nullptrT
      · rw [LoggerUtil.anyToString, if_pos hnull] at h
        cases h
      · simp only [anyToString, if_neg hnull]
        exact bind_of_ok (congrFun (congrArg read h) s)

theorem rendered_cons {msg : LoggerUtil.Any} {msgList : List LoggerUtil.Any}
    {full : List UInt8} (h : rendered P (msg :: msgList) = some full) :
    ∃ text texts, fullText P msg = some text ∧ rendered P msgList = some texts ∧
      full = text ++ texts := by
  rw [rendered] at h
  obtain ⟨text, htext, h⟩ := Option.bind_eq_some_iff.1 h
  obtain ⟨texts, htexts, h⟩ := Option.bind_eq_some_iff.1 h
  exact ⟨text, texts, htext, htexts, (Option.some.inj h).symm⟩

/-- The loop appends beginnings of the full texts, and all of them exactly when
every value is sound. -/
theorem linkLoop_run {msgList : List LoggerUtil.Any} {full : List UInt8}
    (h : rendered P msgList = some full) (linkStr : List UInt8) (s : LogPrivate W) :
    ∃ text, linkLoop P foreign src msgList linkStr s = .ok (linkStr ++ text) s ∧
      text.length ≤ full.length ∧ (text = full ↔ ∀ a ∈ msgList, Sound a) := by
  induction msgList generalizing full linkStr with
  | nil =>
      cases h
      exact ⟨[], by rw [List.append_nil]; rfl, Nat.le_refl _, by simp⟩
  | cons msg msgList ih =>
      obtain ⟨first, rest, hfirst, hrest, rfl⟩ := rendered_cons h
      obtain ⟨text, hrun, hprefix, hsound⟩ := LoggerUtil.anyToString_full hfirst
      obtain ⟨texts, hruns, hle, hsounds⟩ := ih hrest (linkStr ++ text)
      refine ⟨text ++ texts, ?_, ?_, ?_⟩
      · rw [linkLoop, bind_of_ok (anyToString_run foreign src hrun s), ← List.append_assoc]
        exact hruns
      · have := hprefix.length_le
        simp only [List.length_append]
        omega
      · rw [List.forall_mem_cons, ← hsound, ← hsounds]
        constructor
        · intro heq
          have hlength := congrArg List.length heq
          have hfirst := hprefix.length_le
          simp only [List.length_append] at hlength
          exact List.append_inj heq (by omega)
        · rintro ⟨rfl, rfl⟩
          rfl

/-- The early return is what the loop does without values. -/
theorem linkString_loop (msgList : List LoggerUtil.Any) :
    linkString (W := W) P foreign src msgList = linkLoop P foreign src msgList [] := by
  cases msgList <;> rfl

theorem linkString_run {msgList : List LoggerUtil.Any} {full : List UInt8}
    (h : rendered P msgList = some full) (s : LogPrivate W) :
    ∃ text, linkString P foreign src msgList s = .ok text s ∧
      (text = full ↔ ∀ a ∈ msgList, Sound a) := by
  obtain ⟨text, hrun, -, hsound⟩ := linkLoop_run foreign src h [] s
  exact ⟨text, by rw [linkString_loop foreign src]; exact hrun, hsound⟩

theorem rendered_sound {msgList : List LoggerUtil.Any} (h : ∀ a ∈ msgList, Registered P a)
    (hsound : ∀ a ∈ msgList, Sound a) : ∃ full, rendered P msgList = some full := by
  induction msgList with
  | nil => exact ⟨[], rfl⟩
  | cons msg msgList ih =>
      obtain ⟨hmsg, hrest⟩ := List.forall_mem_cons.1 h
      obtain ⟨hsoundMsg, hsoundRest⟩ := List.forall_mem_cons.1 hsound
      obtain ⟨text, htext⟩ := LoggerUtil.fullText_sound hmsg hsoundMsg
      obtain ⟨texts, htexts⟩ := ih hrest hsoundRest
      exact ⟨text ++ texts, by rw [rendered, htext, htexts]; rfl⟩

variable {foreign src}

theorem invoke_throws {m : Message} {sink : CallbackSink} {s s' : LogPrivate W} {e : Exn}
    (h : invoke foreign m sink s = .error e s') : e = .foreign := by
  rw [invoke] at h
  rcases bind_error h with hmodify | ⟨_, s₁, _, hthrow⟩
  · cases hmodify
  · split at hthrow
    · cases hthrow
      rfl
    · cases hthrow

/-- All that logging a message can throw. -/
theorem sinkIt_throws {m : Message} {sinks : List Sink} {s s' : LogPrivate W} {e : Exn}
    (h : sinkIt foreign m sinks s = .error e s') : e = .foreign := by
  induction sinks generalizing s with
  | nil => cases h
  | cons sink sinks ih =>
      cases sink with
      | configured config level => exact ih h
      | callback sink =>
          rw [sinkIt] at h
          split at h
          · rcases bind_error h with hinvoke | ⟨_, s₁, _, hrest⟩
            · exact invoke_throws hinvoke
            · exact ih hrest
          · exact ih h

theorem logMessage_throws {m : Message} {s s' : LogPrivate W} {e : Exn}
    (h : logMessage foreign m s = .error e s') : e = .crash ∨ e = .foreign := by
  cases hlogger : s.logger with
  | none =>
      rw [logMessage_none m hlogger] at h
      cases h
      exact .inl rfl
  | some logger =>
      rw [logMessage_some m hlogger, Logger.log] at h
      split at h
      · split at h
        · cases h
        · exact .inr (sinkIt_throws h)
      · cases h

theorem logImpl_throws {msgList : List LoggerUtil.Any} {text : List UInt8}
    {s s' : LogPrivate W} (h : linkString P foreign src msgList s = .ok text s) {showLine : Bool}
    {level : Level} {e : Exn}
    (hthrows : logImpl P foreign src msgList showLine level s = .error e s') :
    e = .crash ∨ e = .foreign := by
  rw [logImpl] at hthrows
  rcases bind_error hthrows with hlink | ⟨text', s₁, _, hlog⟩
  · rw [h] at hlink
    cases hlink
  · split at hlog
    · exact logMessage_throws hlog
    · split at hlog
      · exact logMessage_throws hlog
      · split at hlog
        · exact logMessage_throws hlog
        · exact logMessage_throws hlog

/-! ## Values without their types -/

/-- A value as `logImpl` knew it so far. -/
def view (P : Platform) : LoggerUtil.Any → Any
  | .empty => .empty
  | .value type v =>
      if type = .nullptrT then .nullptr
      else .value (P.typeName type)
        ((LoggerUtil.anyToString P (.value type v)).toOption.bind (Option.map bytesText))

theorem bytesText_append (a b : List UInt8) :
    bytesText (a ++ b) = bytesText a ++ bytesText b := by
  rw [bytesText, List.map_append, String.ofList_append]
  rfl

theorem bytesText_eq_empty {a : List UInt8} : bytesText a = "" ↔ a = [] := by
  rw [bytesText, String.ofList_eq_empty_iff, List.map_eq_nil_iff]

variable (foreign src)

theorem complaint_view (m : Message) (s : LogPrivate W) :
    (logMessage foreign m >>= fun _ => (pure "" : LogM W String)) s =
      EStateM.map bytesText
        (logMessage foreign m >>= fun _ => (pure [] : LogM W (List UInt8))) s := by
  rw [EStateM.map]
  cases h : logMessage foreign m s with
  | ok _ s' =>
      rw [bind_of_ok h, bind_of_ok h]
      rfl
  | error e s' => rw [bind_of_error h, bind_of_error h]

theorem anyToString_view {a : LoggerUtil.Any} {res : Option (List UInt8)}
    (h : LoggerUtil.anyToString P a = .ok res) (s : LogPrivate W) :
    Log.anyToString foreign src (view P a) s =
      EStateM.map bytesText (anyToString P foreign src a) s := by
  cases a with
  | empty => exact complaint_view foreign _ s
  | value type v =>
      simp only [view, anyToString]
      by_cases hnull : type = .nullptrT
      · rw [if_pos hnull, if_pos hnull]
        exact complaint_view foreign _ s
      · rw [if_neg hnull, if_neg hnull, h]
        cases res with
        | some text => rfl
        | none => exact complaint_view foreign _ s

theorem linkLoop_view {msgList : List LoggerUtil.Any}
    (h : ∀ a ∈ msgList, ∃ res, LoggerUtil.anyToString P a = .ok res) (linkStr : List UInt8)
    (s : LogPrivate W) :
    EStateM.map bytesText (linkLoop P foreign src msgList linkStr) s =
      EStateM.map (bytesText linkStr ++ ·)
        (Log.linkString foreign src (msgList.map (view P))) s := by
  induction msgList generalizing linkStr s with
  | nil =>
      show EStateM.Result.ok (bytesText linkStr) s = .ok (bytesText linkStr ++ "") s
      rw [String.append_empty]
  | cons msg msgList ih =>
      obtain ⟨⟨res, hres⟩, hrest⟩ := List.forall_mem_cons.1 h
      have hview := anyToString_view foreign src hres s
      rw [EStateM.map] at hview
      rw [List.map_cons, linkLoop, Log.linkString, EStateM.map, EStateM.map]
      cases hrun : anyToString P foreign src msg s with
      | error e s' =>
          rw [hrun] at hview
          rw [bind_of_error hrun, bind_of_error hview]
      | ok text s' =>
          rw [hrun] at hview
          have hlinked := ih hrest (linkStr ++ text) s'
          rw [EStateM.map, EStateM.map] at hlinked
          rw [bind_of_ok hrun, bind_of_ok hview, hlinked]
          cases hlog : Log.linkString foreign src (msgList.map (view P)) s' with
          | error e s'' => rw [bind_of_error hlog]
          | ok texts s'' =>
              rw [bind_of_ok hlog]
              show EStateM.Result.ok (bytesText (linkStr ++ text) ++ texts) s'' =
                .ok (bytesText linkStr ++ (bytesText text ++ texts)) s''
              rw [bytesText_append, String.append_assoc]

theorem linkString_view {msgList : List LoggerUtil.Any}
    (h : ∀ a ∈ msgList, ∃ res, LoggerUtil.anyToString P a = .ok res) (s : LogPrivate W) :
    EStateM.map bytesText (linkString P foreign src msgList) s =
      Log.linkString foreign src (msgList.map (view P)) s := by
  rw [linkString_loop, linkLoop_view foreign src h]
  show EStateM.map ("" ++ ·) _ s = _
  simp only [EStateM.map, String.empty_append]
  cases Log.linkString foreign src (msgList.map (view P)) s <;> rfl

/-- While no conversion throws, `logImpl` does what it did. -/
theorem logImpl_view {msgList : List LoggerUtil.Any}
    (h : ∀ a ∈ msgList, ∃ res, LoggerUtil.anyToString P a = .ok res) (showLine : Bool)
    (level : Level) (s : LogPrivate W) :
    logImpl P foreign src msgList showLine level s =
      Log.logImpl foreign src (msgList.map (view P)) showLine level s := by
  have hlinked := linkString_view foreign src h s
  rw [logImpl, Log.logImpl]
  rw [EStateM.map] at hlinked
  cases hrun : linkString P foreign src msgList s with
  | error e s' =>
      rw [hrun] at hlinked
      rw [bind_of_error hrun, bind_of_error hlinked.symm]
  | ok text s' =>
      rw [hrun] at hlinked
      rw [bind_of_ok hrun, bind_of_ok hlinked.symm]
      simp only [List.length_map, bytesText_eq_empty]

/-! ## Complete messages -/

/-- A message is complete exactly when its wide values are text without a
U+0000. The conversion behind that returns exactly when what is before the
first U+0000 is text, but for a high surrogate at its end, gives all of a string
of scalar values exactly when it has none, and tells two of them apart exactly
when they differ before it. -/
theorem linked_text_iff {msgList : List LoggerUtil.Any} (h : ∀ a ∈ msgList, Registered P a) :
    (Complete W P msgList ↔ ∀ a ∈ msgList, Sound a) ∧
      (∀ ws, (∃ text, wstringToUtf8 ws = .ok text) ↔
        WellFormed (whole (LoggerUtil.data ws))) ∧
      (∀ cs : List Char, wstringToUtf8 (cs.map Char.val) = .ok (utf8 cs) ↔ nul ∉ cs) ∧
      ∀ cs cs' : List Char,
        wstringToUtf8 (cs.map Char.val) = wstringToUtf8 (cs'.map Char.val) ↔
          cs.takeWhile (· ≠ nul) = cs'.takeWhile (· ≠ nul) := by
  refine ⟨⟨?_, ?_⟩, LoggerUtil.wstringToUtf8_returns_iff, LoggerUtil.wstringToUtf8_all_iff,
    LoggerUtil.wstringToUtf8_eq_iff⟩
  · rintro ⟨text, hfull, hcomplete⟩
    have hlinked := (hcomplete (fun _ => false) ⟨"", 0, ""⟩ { files := fun _ => none }).1
    obtain ⟨text', hrun, hsound⟩ := linkString_run (W := W) (fun _ => false) ⟨"", 0, ""⟩ hfull
      { files := fun _ => none }
    rw [hlinked] at hrun
    injection hrun with heq
    exact hsound.1 heq.symm
  · intro hsound
    obtain ⟨full, hfull⟩ := rendered_sound h hsound
    refine ⟨full, hfull, fun foreign src s => ?_⟩
    obtain ⟨text, hrun, hiff⟩ := linkString_run foreign src hfull s
    rw [hiff.2 hsound] at hrun
    refine ⟨hrun, fun showLine level s' hthrows => ?_⟩
    rcases logImpl_throws hrun hthrows with he | he
    · cases he
    · cases he

/-! ### Two values -/

/-- No number is involved. -/
def plainPlatform : Platform where
  floatToString := fun _ => []
  doubleToString := fun _ => []
  toChars := fun _ => none
  typeName := fun _ => ""

/-- A byte string, and two wide characters. -/
def plainValues : List LoggerUtil.Any := [
  .value .string ([0x61] : List UInt8),
  .value .wstring ([0x65E5, 0x5FD7] : List UInt32)]

theorem linked_text_plain : Complete plainWorld plainPlatform plainValues := by
  refine (linked_text_iff (P := plainPlatform) ?_).1.2 ?_
  · simp [plainValues, Registered, LoggerUtil.getConverters, LoggerUtil.NonNull]
  · have hunits : WellFormed [0x65E5, 0x5FD7] :=
      .scalar (by decide) (.scalar (by decide) .nil)
    simp [plainValues, Sound, LoggerUtil.wide, hunits]

/-- A U+0000 and what follows it is left out, and so is a high surrogate at the
end, so three strings have one text; and a low surrogate on its own, or a high
one before another character, takes the whole message with it. -/
theorem linked_text_cut :
    ¬ Complete plainWorld plainPlatform [.value .wstring ([0x41, 0, 0x42] : List UInt32)] ∧
      wstringToUtf8 [0x41, 0, 0x42] = wstringToUtf8 [0x41] ∧
      wstringToUtf8 [0x41, 0xD83D] = wstringToUtf8 [0x41] ∧
      ∀ (s : LogPrivate plainWorld) (ws : List UInt32), ws = [0xDC00] ∨ ws = [0xD83D, 0x41] →
        logImpl plainPlatform (fun _ => false) plainSource [.value .wstring ws] true .info s =
          .error rangeError s := by
  refine ⟨?_, rfl, rfl, fun s ws hws => by rcases hws with rfl | rfl <;> rfl⟩
  rintro ⟨text, hfull, hcomplete⟩
  cases hfull
  cases (hcomplete (fun _ => false) plainSource { files := plainFiles }).1

end Log.Typed

end UempPlugin.Ref
