import UempPlugin.Ref.DailySize
import UempPlugin.Proofs.ConfiguredSinks

/-!
# The limits of a configured sink

Sizes are written in KB. Both sinks with a size limit are given the same
product in bits, an `int`, but only one of them turns it back into bytes, and
neither looks at its range. Numbers of files and messages are converted from
`int` as they are. So a limit survives in a range of its own for each type,
and for one type in none at all.
-/

namespace UempPlugin.Ref.Log

open UempPlugin.Lib
open Yaml (Node intMin intMax)

variable {W : World}

/-! ## What a sink holds -/

/-- The limit in bytes: `rotating_file_sink` takes bytes, and
`daily_size_rotating_file_mt` rounds its bits up to bytes. -/
def SinkConfig.byteLimit : SinkConfig → Option Nat
  | .rotatingFile _ maxSize _ _ => some maxSize
  | .dailySizeRotatingFile rootDir name dateNameFormat rotationHour rotationMin maxSize maxFiles
      rotateOnOpen =>
      some (DailyArgs.maxSizeBytes {
        dir := rootDir.toList
        namePattern := name.toList
        dateFormat := dateNameFormat.toList
        rotationHour := rotationHour
        rotationMin := rotationMin
        maxSizeBits := maxSize
        maxFiles := maxFiles
        rotateOnOpen := rotateOnOpen })
  | _ => none

def SinkConfig.fileLimit : SinkConfig → Option Nat
  | .rotatingFile _ _ maxFiles _ => some maxFiles
  | .countRotatingFile _ _ maxFiles _ _ => some maxFiles
  | .dailySizeRotatingFile _ _ _ _ _ _ maxFiles _ => some maxFiles
  | _ => none

def SinkConfig.countLimit : SinkConfig → Option Nat
  | .countRotatingFile _ maxCount _ _ _ => some maxCount
  | _ => none

def maxSizeOf (entry : Node) : Int := valueAt entry "max_size" 52428800

def maxFilesOf (entry : Node) : Int := valueAt entry "max_files" 10

def maxCountOf (entry : Node) : Int := valueAt entry "max_count" 100000

/-- The sink holds the limits of its entry, and the product in bits is an
`int`. -/
structure LimitsKept (config : SinkConfig) (entry : Node) : Prop where
  bytes : ∀ n, config.byteLimit = some n →
    (n : Int) = maxSizeOf entry * 1024 ∧
      intMin ≤ maxSizeOf entry * 8 * 1024 ∧ maxSizeOf entry * 8 * 1024 ≤ intMax
  files : ∀ n, config.fileLimit = some n → (n : Int) = maxFilesOf entry
  count : ∀ n, config.countLimit = some n → (n : Int) = maxCountOf entry

/-- The limits of an entry are in the range that its type keeps. -/
def LimitsSafe (entry : Node) : Prop :=
  if valueAt entry "type" "" = "rotating_file_mt" then False
  else if valueAt entry "type" "" = "count_rotating_file_mt" then
    0 ≤ maxCountOf entry ∧ 0 ≤ maxFilesOf entry
  else if valueAt entry "type" "" = "daily_size_rotating_file_mt" then
    1 ≤ maxSizeOf entry ∧ maxSizeOf entry ≤ 262143 ∧ 0 ≤ maxFilesOf entry
  else True

/-! ## Ranges -/

theorem decodeInt_range {text : String} {n : Int} (h : Yaml.decodeInt text = some n) :
    intMin ≤ n ∧ n ≤ intMax := by
  rw [Yaml.decodeInt] at h
  dsimp only at h
  split at h
  · cases h
  · split at h
    · next hrange =>
        cases h
        exact hrange
    · cases h

/-- What is read as an `int` is in the range of one. -/
theorem valueAt_range (entry : Node) (key : String) {dflt : Int}
    (hdflt : intMin ≤ dflt ∧ dflt ≤ intMax) :
    intMin ≤ valueAt entry key dflt ∧ valueAt entry key dflt ≤ intMax := by
  cases entry with
  | map pairs =>
      rw [valueAt]
      cases hl : Node.lookup key pairs with
      | none => exact hdflt
      | some child =>
          cases child with
          | scalar text =>
              cases hdecode : (Yaml.Convert.decode text : Option Int) with
              | none =>
                  simp only [hdecode]
                  exact hdflt
              | some n =>
                  simp only [hdecode]
                  exact decodeInt_range hdecode
          | _ => exact hdflt
  | _ => exact hdflt

theorem toU64_eq {n : Int} (h : n ≤ intMax) : (toU64 n : Int) = n ↔ 0 ≤ n := by
  rw [toU64]
  rw [intMax] at h
  omega

theorem maxFilesAt_eq (entry : Node) : (maxFilesAt entry : Int) = maxFilesOf entry ↔
    0 ≤ maxFilesOf entry :=
  toU64_eq (valueAt_range entry "max_files" (by decide)).2

theorem maxCountAt_eq (entry : Node) : (toU64 (maxCountOf entry) : Int) = maxCountOf entry ↔
    0 ≤ maxCountOf entry :=
  toU64_eq (valueAt_range entry "max_count" (by decide)).2

/-- Bits that are taken for bytes are eight times too many, unless they are
none. -/
theorem bits_as_bytes {v : Int} (hzero : toU64 (wrapInt (v * 8 * 1024)) ≠ 0) :
    ¬ ((toU64 (wrapInt (v * 8 * 1024)) : Int) = v * 1024 ∧
      intMin ≤ v * 8 * 1024 ∧ v * 8 * 1024 ≤ intMax) := by
  rw [toU64, wrapInt, intMin, intMax] at *
  omega

theorem bits_to_bytes {v : Int} (hzero : (toU64 (wrapInt (v * 8 * 1024)) + 7) % 2 ^ 64 / 8 ≠ 0) :
    (((toU64 (wrapInt (v * 8 * 1024)) + 7) % 2 ^ 64 / 8 : Nat) : Int) = v * 1024 ∧
      intMin ≤ v * 8 * 1024 ∧ v * 8 * 1024 ≤ intMax ↔ 1 ≤ v ∧ v ≤ 262143 := by
  rw [toU64, wrapInt, intMin, intMax] at *
  omega

/-! ## One entry -/

/-- A loaded entry's sink is the one it asks for, and was not refused. -/
theorem loadSink_ok {env : LoadEnv W} {i : Nat} {entry : Node} {s s' : LogPrivate W}
    {config : SinkConfig} {level : Level}
    (h : loadSink env i entry s = .ok [.configured config level] s') :
    sinkConfigAt (valueAt entry "type" "") entry = some config ∧ config.refuses = none := by
  obtain ⟨hfaults, hsinks, -⟩ := (loadSink_obeys env i entry).of_ok h
  cases hconfig : entryConfig entry with
  | none =>
      rw [entrySinks, hconfig] at hsinks
      cases hsinks
  | some config' =>
      rw [entrySinks, hconfig] at hsinks
      cases hsinks
      constructor
      · rw [entryConfig] at hconfig
        split at hconfig
        · cases hconfig
        · exact hconfig
      · rw [entryFaults, hconfig] at hfaults
        exact firstFault_eq_none.1 hfaults _ (List.mem_append_right _ List.mem_cons_self)

theorem withPath_eq {entry : Node} {key : String} {make : String → SinkConfig}
    {config : SinkConfig} (h : withPath entry key make = some config) :
    ∃ path, config = make path := by
  rw [withPath] at h
  split at h
  · cases h
  · cases h
    exact ⟨_, rfl⟩

/-- A sink without limits holds them all. -/
theorem kept_of_unlimited {config : SinkConfig} (entry : Node) (hbytes : config.byteLimit = none)
    (hfiles : config.fileLimit = none) (hcount : config.countLimit = none) :
    LimitsKept config entry where
  bytes := by rw [hbytes]; exact fun _ h => by cases h
  files := by rw [hfiles]; exact fun _ h => by cases h
  count := by rw [hcount]; exact fun _ h => by cases h

theorem rotating_not_kept {entry : Node} {filePath : String} {maxFiles : Nat}
    {rotateOnOpen : Bool}
    (h : (SinkConfig.rotatingFile filePath (maxSizeAt entry) maxFiles rotateOnOpen).refuses =
      none) :
    ¬ LimitsKept (.rotatingFile filePath (maxSizeAt entry) maxFiles rotateOnOpen) entry := by
  intro hkept
  refine bits_as_bytes ?_ (hkept.bytes _ rfl)
  intro hzero
  rw [SinkConfig.refuses, if_pos (by exact hzero)] at h
  cases h

theorem count_kept_iff (entry : Node) (filePath : String) (rotateOnOpen strictCountOnOpen : Bool) :
    LimitsKept (.countRotatingFile filePath (toU64 (maxCountOf entry)) (maxFilesAt entry)
        rotateOnOpen strictCountOnOpen) entry ↔
      0 ≤ maxCountOf entry ∧ 0 ≤ maxFilesOf entry := by
  rw [← maxCountAt_eq, ← maxFilesAt_eq]
  constructor
  · intro hkept
    exact ⟨hkept.count _ rfl, hkept.files _ rfl⟩
  · intro ⟨hcount, hfiles⟩
    refine ⟨(fun _ h => nomatch h), ?_, ?_⟩
    · intro n hn
      cases hn
      exact hfiles
    · intro n hn
      cases hn
      exact hcount

theorem daily_kept_iff {entry : Node} {rootDir name dateNameFormat : String}
    {rotationHour rotationMin : Int} {rotateOnOpen : Bool}
    (h : (SinkConfig.dailySizeRotatingFile rootDir name dateNameFormat rotationHour rotationMin
      (maxSizeAt entry) (maxFilesAt entry) rotateOnOpen).refuses = none) :
    LimitsKept (.dailySizeRotatingFile rootDir name dateNameFormat rotationHour rotationMin
        (maxSizeAt entry) (maxFilesAt entry) rotateOnOpen) entry ↔
      1 ≤ maxSizeOf entry ∧ maxSizeOf entry ≤ 262143 ∧ 0 ≤ maxFilesOf entry := by
  have hnonzero : (maxSizeAt entry + 7) % 2 ^ 64 / 8 ≠ 0 := by
    intro hzero
    rw [SinkConfig.refuses, if_pos hzero] at h
    split at h <;> cases h
  rw [← and_assoc, ← maxFilesAt_eq, ← bits_to_bytes (v := maxSizeOf entry) hnonzero]
  constructor
  · intro hkept
    exact ⟨hkept.bytes _ rfl, hkept.files _ rfl⟩
  · intro ⟨hbytes, hfiles⟩
    refine ⟨?_, ?_, (fun _ h => nomatch h)⟩
    · intro n hn
      cases hn
      exact hbytes
    · intro n hn
      cases hn
      exact hfiles

/-- The sink of an entry that is not rejected holds the configured limits
exactly when they are in the range that its type keeps. -/
theorem limits_kept_iff (env : LoadEnv W) (i : Nat) (entry : Node) (s : LogPrivate W)
    {s' : LogPrivate W} {config : SinkConfig} {level : Level}
    (h : loadSink env i entry s = .ok [.configured config level] s') :
    LimitsKept config entry ↔ LimitsSafe entry := by
  obtain ⟨hconfig, hrefuses⟩ := loadSink_ok h
  rw [LimitsSafe]
  rw [sinkConfigAt] at hconfig
  split at hconfig
  · next htype =>
      cases hconfig
      rw [htype, if_neg (by decide), if_neg (by decide), if_neg (by decide)]
      exact iff_of_true (kept_of_unlimited entry rfl rfl rfl) trivial
  split at hconfig
  · next htype =>
      obtain ⟨path, rfl⟩ := withPath_eq hconfig
      rw [htype, if_neg (by decide), if_neg (by decide), if_neg (by decide)]
      exact iff_of_true (kept_of_unlimited entry rfl rfl rfl) trivial
  split at hconfig
  · next htype =>
      obtain ⟨path, rfl⟩ := withPath_eq hconfig
      rw [if_pos htype]
      exact iff_of_false (rotating_not_kept hrefuses) id
  split at hconfig
  · next htype =>
      obtain ⟨path, rfl⟩ := withPath_eq hconfig
      rw [htype, if_neg (by decide), if_neg (by decide), if_neg (by decide)]
      exact iff_of_true (kept_of_unlimited entry rfl rfl rfl) trivial
  split at hconfig
  · next htype =>
      obtain ⟨path, rfl⟩ := withPath_eq hconfig
      rw [htype, if_neg (by decide), if_pos rfl]
      exact count_kept_iff entry path _ _
  split at hconfig
  · next htype =>
      obtain ⟨path, rfl⟩ := withPath_eq hconfig
      rw [htype, if_neg (by decide), if_neg (by decide), if_pos rfl]
      exact daily_kept_iff hrefuses
  · cases hconfig

/-! ## Two entries -/

def dailyEntry : Node :=
  .map [(.scalar "type", .scalar "daily_size_rotating_file_mt"),
    (.scalar "root_dir", .scalar "./logs"), (.scalar "max_size", .scalar "10240")]

def dailyConfig : SinkConfig :=
  .dailySizeRotatingFile "./logs" "{date}" "yyyy-MM-dd" 0 0 83886080 10 false

def rotatingEntry : Node :=
  .map [(.scalar "type", .scalar "rotating_file_mt"),
    (.scalar "file_path", .scalar "./logs/a.log"), (.scalar "max_size", .scalar "10240")]

def rotatingConfig : SinkConfig := .rotatingFile "./logs/a.log" 83886080 10 false

/-- Where every file opens, an entry without faults is loaded. -/
theorem loadSink_working {entry : Node} {sinks : List Sink}
    (hfaults : firstFault (entryFaults (working (knowing [] .null)) 0 entry) = none)
    (hsinks : entrySinks entry = sinks) :
    ∃ s', loadSink (working _) 0 entry (facing [] .null) = .ok sinks s' := by
  obtain ⟨s', he, -⟩ := loadSink_obeys (working (knowing [] .null)) 0 entry (facing [] .null)
  rw [hfaults, hsinks] at he
  exact ⟨s', he⟩

theorem limits_kept_daily :
    (∃ s', loadSink (working _) 0 dailyEntry (facing [] .null) =
        .ok [.configured dailyConfig .trace] s') ∧
      (LimitsKept dailyConfig dailyEntry ↔ LimitsSafe dailyEntry) := by
  have hload := loadSink_working (by decide +kernel)
    (show entrySinks dailyEntry = [.configured dailyConfig .trace] by decide +kernel)
  refine ⟨hload, ?_⟩
  obtain ⟨s', he⟩ := hload
  exact limits_kept_iff (working _) 0 dailyEntry (facing [] .null) he

/-- A limit of 10240 KB becomes one of 80 MB. -/
theorem rotating_eight_times :
    (∃ s', loadSink (working _) 0 rotatingEntry (facing [] .null) =
        .ok [.configured rotatingConfig .trace] s') ∧
      rotatingConfig.byteLimit = some 83886080 ∧ maxSizeOf rotatingEntry * 1024 = 10485760 :=
  ⟨loadSink_working (by decide +kernel) (by decide +kernel), rfl, by decide +kernel⟩

end UempPlugin.Ref.Log
