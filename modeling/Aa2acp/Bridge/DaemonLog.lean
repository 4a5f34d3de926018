import Aa2acp.Lib.Text

/-!
# The log of the daemon

`TeeBuffer` of `src/bridge/daemon_log.cpp`, through which `std::cout` goes to the console,
the log file and the recent log, with the level names of `logging.hpp`.  A line that does
not begin with a level gets one.  The console and the file take every write.

Whether a line has a level is seen in the chunk in which the line begins.  So output that is
levelled already is passed on as it is exactly when it is levelled up to every boundary of
the chunks (`console_writeChunks_iff`).
-/

namespace Aa2acp
namespace Bridge
namespace DaemonLog

open Text

/-! ## Levels -/

inductive LogLevel where
  | debug | info | warning | error
deriving DecidableEq, Repr

def logLevels : List LogLevel := [.debug, .info, .warning, .error]

def logLevelName : LogLevel → Bytes
  | .debug => ascii "debug"
  | .info => ascii "info"
  | .warning => ascii "warning"
  | .error => ascii "error"

def kLevelWidth : ℕ := 7

def logPrefix (level : LogLevel) (marker : UInt8) : Bytes :=
  let name := logLevelName level
  ascii "[" ++ name ++ List.replicate (kLevelWidth - name.length) 0x20 ++ ascii "] " ++
    [marker, 0x20]

/-- `has_log_level_prefix`. -/
def HasLogLevelPrefix (text : Bytes) : Prop :=
  ∃ level ∈ logLevels, ascii "[" ++ logLevelName level <+: text

instance (text : Bytes) : Decidable (HasLogLevelPrefix text) :=
  inferInstanceAs (Decidable (∃ level ∈ logLevels, _))

/-! ## The buffer -/

def kMaximumBytes : ℕ := 200 * 1024

/-- `RecentLog::append`. -/
def appendRecent (text contents : Bytes) : Bytes :=
  let contents := contents ++ text
  contents.drop (contents.length - kMaximumBytes)

structure TeeBuffer where
  console : Bytes := []
  /-- The log file, if there is one. -/
  file : Option Bytes := none
  recent : Bytes := []
  atLineStart : Bool := true
  /-- How often `log_timestamp` was called. -/
  stamps : ℕ := 0
deriving DecidableEq, Repr

/-- What a write finds around it. -/
structure TeeEnv where
  /-- `current_log_level()` of the thread that writes. -/
  currentLevel : Option LogLevel := none
  defaultLevel : LogLevel := .info
  /-- What `log_timestamp` returns, call after call. -/
  timestamp : ℕ → Bytes := fun _ => []

namespace TeeBuffer

/-- The beginning of a line, with the rest of the chunk. -/
def beginLine (env : TeeEnv) (first : Bool) (text : Bytes) (tee : TeeBuffer) : TeeBuffer :=
  let explicitLevel := HasLogLevelPrefix text
  let level := env.currentLevel.getD env.defaultLevel
  let marker := if first then 0x3E else 0x7C
  let linePrefix := if explicitLevel then [] else logPrefix level marker
  let retainedPrefix := env.timestamp tee.stamps ++ linePrefix
  { tee with
    console := tee.console ++ linePrefix
    file := tee.file.map (· ++ retainedPrefix)
    recent := appendRecent retainedPrefix tee.recent
    atLineStart := false
    stamps := tee.stamps + 1 }

/-- A line, or what the chunk has of it. -/
def put (text : Bytes) (tee : TeeBuffer) : TeeBuffer :=
  { tee with
    console := tee.console ++ text
    file := tee.file.map (· ++ text)
    recent := appendRecent text tee.recent
    atLineStart := text.getLast? = some 0x0A }

/-- The loop of `write_locked` over the text from an offset on. -/
def writeFrom (env : TeeEnv) : ℕ → Bool → Bytes → TeeBuffer → TeeBuffer
  | 0, _, _, tee => tee
  | fuel + 1, first, text, tee =>
      if text = [] then tee
      else
        let tee := if tee.atLineStart then tee.beginLine env first text else tee
        let count := match find [0x0A] text with
          | none => text.length
          | some lineEnd => lineEnd + 1
        writeFrom env fuel false (text.drop count) (tee.put (text.take count))

/-- `write_locked`. -/
def writeLocked (env : TeeEnv) (text : Bytes) (tee : TeeBuffer) : TeeBuffer :=
  writeFrom env text.length true text tee

/-- The reads of `CarPlayWorker::run`, each of which is written to `std::cout`. -/
def writeChunks (env : TeeEnv) (chunks : List Bytes) (tee : TeeBuffer) : TeeBuffer :=
  chunks.foldl (fun tee chunk => tee.writeLocked env chunk) tee

end TeeBuffer

/-! ## Where lines begin -/

/-- What follows each beginning of a line, with that line itself. -/
def lineStarts : Bool → Bytes → List Bytes
  | _, [] => []
  | atLineStart, byte :: rest =>
      (if atLineStart then [byte :: rest] else []) ++ lineStarts (byte = 0x0A) rest

/-- Every line begins with a level, also one that is not finished. -/
def Levelled (text : Bytes) : Prop := ∀ start ∈ lineStarts true text, HasLogLevelPrefix start

instance (text : Bytes) : Decidable (Levelled text) :=
  inferInstanceAs (Decidable (∀ start ∈ _, _))

/-- Whether a line begins behind a text. -/
def endsLine (atLineStart : Bool) (text : Bytes) : Bool :=
  match text.getLast? with
  | none => atLineStart
  | some byte => byte = 0x0A

theorem endsLine_cons (atLineStart : Bool) (byte : UInt8) (rest : Bytes) :
    endsLine atLineStart (byte :: rest) = endsLine (byte = 0x0A) rest := by
  unfold endsLine
  rw [List.getLast?_cons]
  cases rest.getLast? <;> rfl

theorem endsLine_append (atLineStart : Bool) (text more : Bytes) :
    endsLine atLineStart (text ++ more) = endsLine (endsLine atLineStart text) more := by
  induction text generalizing atLineStart with
  | nil => rfl
  | cons byte rest ih => rw [List.cons_append, endsLine_cons, ih, endsLine_cons]

theorem lineStarts_append (atLineStart : Bool) (text more : Bytes) :
    lineStarts atLineStart (text ++ more) =
      (lineStarts atLineStart text).map (· ++ more) ++
        lineStarts (endsLine atLineStart text) more := by
  induction text generalizing atLineStart with
  | nil => rfl
  | cons byte rest ih =>
    rw [List.cons_append, lineStarts, lineStarts, ih, endsLine_cons]
    cases atLineStart <;> simp

/-- In the middle of a line the next one begins behind the newline. -/
theorem lineStarts_false {before : Bytes} (h : 0x0A ∉ before) (rest : Bytes) :
    lineStarts false (before ++ 0x0A :: rest) = lineStarts true rest := by
  induction before with
  | nil => rfl
  | cons byte before ih =>
    rw [List.mem_cons, not_or] at h
    have hbyte : decide (byte = 0x0A) = false := decide_eq_false (Ne.symm h.1)
    rw [List.cons_append, lineStarts, hbyte, ih h.2]
    rfl

/-- Without a newline there is one line at most. -/
theorem lineStarts_noNewline {text : Bytes} (h : 0x0A ∉ text) : lineStarts false text = [] := by
  induction text with
  | nil => rfl
  | cons byte rest ih =>
    rw [List.mem_cons, not_or] at h
    have hbyte : decide (byte = 0x0A) = false := decide_eq_false (Ne.symm h.1)
    rw [lineStarts, hbyte, ih h.2]
    rfl

theorem lineStarts_eq (atLineStart : Bool) {text : Bytes} (h : text ≠ []) :
    lineStarts atLineStart text =
      (if atLineStart then [text] else []) ++ lineStarts false text := by
  obtain ⟨byte, rest, rfl⟩ := List.exists_cons_of_ne_nil h
  rw [lineStarts, lineStarts]
  simp

theorem HasLogLevelPrefix.append {text : Bytes} (h : HasLogLevelPrefix text) (more : Bytes) :
    HasLogLevelPrefix (text ++ more) := by
  obtain ⟨level, hlevel, hprefix⟩ := h
  exact ⟨level, hlevel, hprefix.trans (List.prefix_append text more)⟩

theorem logPrefix_ne_nil (level : LogLevel) (marker : UInt8) : 0 < (logPrefix level marker).length := by
  unfold logPrefix
  simp

/-! ## What a write does to the console -/

/-- What came out for a text: the text itself when `kept` holds, and something longer when
it does not. -/
structure Copies (kept : Prop) (text out : Bytes) : Prop where
  long : text.length ≤ out.length
  same : kept → out = text
  kept : out.length = text.length → kept

theorem Copies.nil {kept : Prop} (h : kept) : Copies kept [] [] :=
  ⟨Nat.le_refl 0, fun _ => rfl, fun _ => h⟩

theorem Copies.append {kept kept' : Prop} {text text' out out' : Bytes}
    (h : Copies kept text out) (h' : Copies kept' text' out') :
    Copies (kept ∧ kept') (text ++ text') (out ++ out') := by
  have hlong := h.long
  have hlong' := h'.long
  refine ⟨?_, ?_, ?_⟩
  · rw [List.length_append, List.length_append]
    omega
  · rintro ⟨hkept, hkept'⟩
    rw [h.same hkept, h'.same hkept']
  · intro hlength
    rw [List.length_append, List.length_append] at hlength
    exact ⟨h.kept (by omega), h'.kept (by omega)⟩

theorem Copies.congr {kept kept' : Prop} {text out : Bytes} (h : Copies kept text out)
    (hiff : kept ↔ kept') : Copies kept' text out := propext hiff ▸ h

namespace TeeBuffer

variable {env : TeeEnv} {tee : TeeBuffer}

theorem put_atLineStart (text : Bytes) (h : text ≠ []) (atLineStart : Bool) :
    (tee.put text).atLineStart = endsLine atLineStart text := by
  unfold put endsLine
  rw [List.getLast?_eq_some_getLast h]
  simp

/-- A line, or what the chunk has of it: a level comes before it when it begins in `text`
without one. -/
theorem copies_line (first : Bool) (text : Bytes) (line : Bytes) :
    ∃ out, ((if tee.atLineStart then tee.beginLine env first text else tee).put line).console =
        tee.console ++ out ∧
      Copies (tee.atLineStart = true → HasLogLevelPrefix text) line out := by
  cases hstart : tee.atLineStart with
  | false => exact ⟨line, rfl, Nat.le_refl _, fun _ => rfl, fun _ h => absurd h (by decide)⟩
  | true =>
    by_cases hprefix : HasLogLevelPrefix text
    · refine ⟨line, ?_, Nat.le_refl _, fun _ => rfl, fun _ _ => hprefix⟩
      simp [beginLine, put, hprefix]
    · let marker : UInt8 := if first then 0x3E else 0x7C
      let level := env.currentLevel.getD env.defaultLevel
      have hlong := logPrefix_ne_nil level marker
      refine ⟨logPrefix level marker ++ line, ?_, ?_, fun h => absurd (h rfl) hprefix, ?_⟩
      · simp [beginLine, put, hprefix, level, marker]
      · rw [List.length_append]
        omega
      · intro hlength
        rw [List.length_append] at hlength
        omega

/-- The loop: what comes out, and whether a line is open at the end. -/
theorem writeFrom_spec (fuel : ℕ) (first : Bool) (text : Bytes) (hfuel : text.length ≤ fuel) :
    ∃ out, (writeFrom env fuel first text tee).console = tee.console ++ out ∧
      Copies (∀ start ∈ lineStarts tee.atLineStart text, HasLogLevelPrefix start) text out ∧
      (writeFrom env fuel first text tee).atLineStart = endsLine tee.atLineStart text := by
  induction fuel generalizing first text tee with
  | zero =>
    rw [List.length_eq_zero_iff.mp (Nat.le_zero.mp hfuel)]
    exact ⟨[], (List.append_nil _).symm, Copies.nil (by simp [lineStarts]), rfl⟩
  | succ fuel ih =>
    by_cases hempty : text = []
    · subst hempty
      exact ⟨[], (List.append_nil _).symm, Copies.nil (by simp [lineStarts]), rfl⟩
    · unfold writeFrom
      rw [if_neg hempty]
      by_cases hnewline : 0x0A ∈ text
      · -- a whole line, and the loop goes on behind it
        obtain ⟨before, rest, rfl, hbefore⟩ := List.eq_append_cons_of_mem hnewline
        have htake : (before ++ 0x0A :: rest).take (before.length + 1) = before ++ [0x0A] := by
          rw [List.append_cons]
          exact List.take_left' (by simp)
        have hdrop : (before ++ 0x0A :: rest).drop (before.length + 1) = rest := by
          rw [List.append_cons]
          exact List.drop_left' (by simp)
        obtain ⟨lineOut, hline, hcopies⟩ :=
          @copies_line env tee first (before ++ 0x0A :: rest) (before ++ [0x0A])
        simp only [find_singleton hbefore, htake, hdrop]
        set next := (if tee.atLineStart then tee.beginLine env first (before ++ 0x0A :: rest)
          else tee).put (before ++ [0x0A]) with hnext
        have hopen : next.atLineStart = true := by
          rw [hnext, put_atLineStart _ (by simp) true]
          simp [endsLine]
        rw [List.length_append, List.length_cons] at hfuel
        obtain ⟨restOut, hrest, hcopies', hends⟩ := @ih next false rest (by omega)
        refine ⟨lineOut ++ restOut, ?_, ?_, ?_⟩
        · rw [hrest, hline, List.append_assoc]
        · have hboth := hcopies.append hcopies'
          rw [List.append_assoc] at hboth
          refine hboth.congr ?_
          rw [hopen, lineStarts_eq tee.atLineStart (by simp), lineStarts_false hbefore]
          cases tee.atLineStart <;> simp
        · rw [hends, hopen, List.append_cons, endsLine_append]
          simp [endsLine]
      · -- the rest of the chunk is on one line
        obtain ⟨out, hout, hcopies⟩ := @copies_line env tee first text text
        simp only [find_singleton_eq_none hnewline, List.take_length, List.drop_length]
        have hdone : ∀ tee', writeFrom env fuel false [] tee' = tee' := by
          intro tee'
          cases fuel <;> rfl
        rw [hdone]
        refine ⟨out, hout, hcopies.congr ?_, put_atLineStart text hempty tee.atLineStart⟩
        rw [lineStarts_eq tee.atLineStart hempty, lineStarts_noNewline hnewline]
        cases tee.atLineStart <;> simp

end TeeBuffer

/-! ## Chunks -/

/-- Every line shows its level in the chunk in which it begins. -/
def ShowsLevels : Bool → List Bytes → Prop
  | _, [] => True
  | atLineStart, chunk :: chunks =>
      (∀ start ∈ lineStarts atLineStart chunk, HasLogLevelPrefix start) ∧
        ShowsLevels (endsLine atLineStart chunk) chunks

theorem levelled_append_iff {text : Bytes} (h : Levelled text) (more : Bytes) :
    Levelled (text ++ more) ↔
      ∀ start ∈ lineStarts (endsLine true text) more, HasLogLevelPrefix start := by
  unfold Levelled
  rw [lineStarts_append, List.forall_mem_append]
  constructor
  · exact fun hboth => hboth.2
  · intro hmore
    refine ⟨?_, hmore⟩
    intro start hstart
    obtain ⟨begun, hbegun, rfl⟩ := List.mem_map.mp hstart
    exact (h begun hbegun).append more

/-- The levels show in their chunks exactly when the text is levelled up to each boundary. -/
theorem showsLevels_iff {text : Bytes} (h : Levelled text) (chunks : List Bytes) :
    ShowsLevels (endsLine true text) chunks ↔
      ∀ before, before <+: chunks → Levelled (text ++ before.flatten) := by
  induction chunks generalizing text with
  | nil =>
    constructor
    · intro _ before hbefore
      rw [List.prefix_nil.mp hbefore, List.flatten_nil, List.append_nil]
      exact h
    · exact fun _ => trivial
  | cons chunk chunks ih =>
    rw [ShowsLevels, ← levelled_append_iff h, ← endsLine_append]
    constructor
    · rintro ⟨hchunk, hchunks⟩ before hbefore
      rcases List.prefix_cons_iff.mp hbefore with rfl | ⟨rest, rfl, hrest⟩
      · rw [List.flatten_nil, List.append_nil]
        exact h
      · rw [List.flatten_cons, ← List.append_assoc]
        exact (ih hchunk).mp hchunks rest hrest
    · intro hall
      have hchunk : Levelled (text ++ chunk) := by
        have hone := hall [chunk] (List.prefix_cons_inj chunk |>.mpr List.nil_prefix)
        rwa [List.flatten_singleton] at hone
      refine ⟨hchunk, (ih hchunk).mpr fun rest hrest => ?_⟩
      have hnext := hall (chunk :: rest) ((List.prefix_cons_inj chunk).mpr hrest)
      rwa [List.flatten_cons, ← List.append_assoc] at hnext

namespace TeeBuffer

variable {env : TeeEnv} {tee : TeeBuffer} {chunks : List Bytes}

theorem writeChunks_spec (chunks : List Bytes) (tee : TeeBuffer) :
    ∃ out, (writeChunks env chunks tee).console = tee.console ++ out ∧
      Copies (ShowsLevels tee.atLineStart chunks) chunks.flatten out := by
  induction chunks generalizing tee with
  | nil => exact ⟨[], (List.append_nil _).symm, Copies.nil trivial⟩
  | cons chunk chunks ih =>
    obtain ⟨out, hout, hcopies, hends⟩ :=
      @writeFrom_spec env tee chunk.length true chunk (Nat.le_refl _)
    obtain ⟨restOut, hrest, hcopies'⟩ := ih (tee.writeLocked env chunk)
    refine ⟨out ++ restOut, ?_, ?_⟩
    · show (writeChunks env chunks (tee.writeLocked env chunk)).console = _
      rw [hrest]
      unfold writeLocked
      rw [hout, List.append_assoc]
    · unfold writeLocked at hcopies'
      rw [hends] at hcopies'
      exact hcopies.append hcopies'

/-- Output is passed on as it is exactly when it is levelled up to every boundary of the
chunks: levelled output, when no boundary is inside the level of a line. -/
theorem console_writeChunks_iff (hstart : tee.atLineStart = true) :
    (writeChunks env chunks tee).console = tee.console ++ chunks.flatten ↔
      ∀ before, before <+: chunks → Levelled before.flatten := by
  obtain ⟨out, hout, hcopies⟩ := @writeChunks_spec env chunks tee
  have hempty : Levelled [] := by
    intro start hmem
    cases hmem
  rw [hstart] at hcopies
  have hshows := showsLevels_iff hempty chunks
  simp only [List.nil_append] at hshows
  rw [hout, List.append_cancel_left_eq, ← hshows]
  constructor
  · exact fun hsame => hcopies.kept (congrArg List.length hsame)
  · exact hcopies.same

end TeeBuffer

/-! ## What the worker writes -/

/-- What a `LogLine` writes. -/
def logLine (level : LogLevel) (message : Bytes) : Bytes :=
  logPrefix level 0x3E ++ message ++ [0x0A]

theorem hasLogLevelPrefix_logLine (level : LogLevel) (message : Bytes) :
    HasLogLevelPrefix (logLine level message) := by
  have hlevel : HasLogLevelPrefix (logPrefix level 0x3E) := by cases level <;> decide
  exact (hlevel.append message).append [0x0A]

/-- Lines of messages are levelled, when the messages have no newline. -/
theorem levelled_logLines {lines : List (LogLevel × Bytes)} (h : ∀ line ∈ lines, 0x0A ∉ line.2) :
    Levelled (lines.flatMap fun line => logLine line.1 line.2) := by
  induction lines with
  | nil =>
    intro start hmem
    cases hmem
  | cons line lines ih =>
    obtain ⟨hline, hlines⟩ := List.forall_mem_cons.mp h
    have hlevel : 0x0A ∉ logPrefix line.1 0x3E := by cases line.1 <;> decide
    have hbefore : 0x0A ∉ logPrefix line.1 0x3E ++ line.2 := by
      rw [List.mem_append, not_or]
      exact ⟨hlevel, hline⟩
    intro start hmem
    rw [List.flatMap_cons, lineStarts_eq true (by simp [logLine])] at hmem
    rcases List.mem_append.mp hmem with hfirst | hrest
    · rw [if_pos rfl, List.mem_singleton] at hfirst
      rw [hfirst]
      exact (hasLogLevelPrefix_logLine line.1 line.2).append _
    · unfold logLine at hrest
      rw [List.append_assoc, List.singleton_append, lineStarts_false hbefore] at hrest
      exact ih hlines start hrest

/-- Two lines in three chunks, whose boundaries are in a message and behind a level. -/
theorem console_writeChunks_iff_twoLines :
    let chunks := [ascii "[info   ] > conn", ascii "ected\n[error", ascii "  ] > lost\n"]
    (TeeBuffer.writeChunks {} chunks {}).console = chunks.flatten := by
  intro chunks
  have hboundaries : ∀ before ∈ chunks.inits, Levelled before.flatten := by decide +kernel
  exact (TeeBuffer.console_writeChunks_iff rfl).mpr fun before hbefore =>
    hboundaries before ((List.mem_inits _ _).mpr hbefore)

/-- A boundary inside a level: the line gets another one. -/
theorem level_inserted_at_boundary :
    let chunks := [ascii "[in", ascii "fo   ] > connected\n"]
    Levelled chunks.flatten ∧ (TeeBuffer.writeChunks {} chunks {}).console =
        ascii "[info   ] > [info   ] > connected\n" ∧
      (TeeBuffer.writeChunks {} chunks {}).console ≠ chunks.flatten := by
  decide +kernel

end DaemonLog
end Bridge
end Aa2acp
