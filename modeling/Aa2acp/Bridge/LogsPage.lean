import Aa2acp.Bridge.DaemonLog
import Aa2acp.Bridge.ManagementPages
import Aa2acp.Lib.Replacement

/-!
# The page of recent logs

`render_logs_page` of `src/bridge/management_ui.cpp`.  Every line of the log is escaped, and
a line that mentions a level stands in a span for its colour.  No line brings in a character
that markup is made of, and nothing of the log is lost: without the spans and unescaped, the
log part of the page is the log, its last line finished (`unescape_removeSpans_logPart`).
-/

namespace Aa2acp
namespace Bridge
namespace Management

open Airplay DaemonLog Provenance Replacement Text

/-! ## The page -/

/-- `css_class`: that of the first level the line mentions. -/
def cssClass (line : Bytes) : Bytes :=
  match logLevels.find? fun level => (find (ascii "[" ++ logLevelName level) line).isSome with
  | some level => ascii "log-" ++ logLevelName level
  | none => []

/-- A turn of the loop of `render_logs_page`. -/
def renderLogLine (line : Bytes) : Html :=
  let css := cssClass line
  (if css ≠ [] then lits ["<span class=\""] ++ mark .page css ++ lits ["\">"] else []) ++
    escaped line ++ (if css ≠ [] then lits ["</span>"] else []) ++ lits ["\n"]

/-- The loop of `render_logs_page` over the log from an offset on. -/
def renderLogsFrom : ℕ → Bytes → Html
  | 0, _ => []
  | fuel + 1, logs =>
      if logs = [] then []
      else
        match find [0x0A] logs with
        | none => renderLogLine logs
        | some lineEnd =>
            renderLogLine (logs.take lineEnd) ++ renderLogsFrom fuel (logs.drop (lineEnd + 1))

/-- `rendered_logs`; every turn goes on behind a newline, so the length bounds the turns. -/
def renderedLogs (logs : Bytes) : Html := renderLogsFrom logs.length logs

/-- What stands in front of the number. -/
def logsPageHead : List String :=
  ["<!doctype html><html><head><meta name=\"viewport\" ",
    "content=\"width=device-width,initial-scale=1\"><title>AA2ACP ",
    "logs</title><style>body\x7bfont:16px sans-serif;max-width:60rem;",
    "margin:3rem auto;padding:0 1rem\x7dpre\x7bwhite-space:pre-wrap;",
    "word-break:break-word;background:#f5f5f5;padding:1rem\x7d.log-debug",
    "\x7bcolor:#666\x7d.log-info\x7bcolor:#174ea6\x7d.log-warning\x7bcolor:#8a5a00;",
    "background:#fff5cf\x7d.log-error\x7bcolor:#a61b1b;background:#ffe2e2\x7d",
    "</style></head>",
    "<body><p><a href=\"/\">Back to management</a></p><h1>Recent ",
    "logs</h1><p>Current service run; newest "]

/-- `render_logs_page`. -/
def renderLogsPage (logs : Bytes) (retainedKib : ℕ) : Html :=
  lits logsPageHead ++ number retainedKib ++ lits [" KiB retained.</p><pre>"] ++
    renderedLogs logs ++ lits ["</pre></body></html>"]

/-! ## Lines -/

/-- A text without a newline is one line. -/
theorem getLines_of_no_newline {line : Bytes} (hne : line ≠ []) (h : 0x0A ∉ line) :
    getLines line = [line] := by
  induction line with
  | nil => exact absurd rfl hne
  | cons byte line ih =>
      rw [List.mem_cons, not_or] at h
      rw [getLines, if_neg (Ne.symm h.1)]
      cases line with
      | nil => rfl
      | cons next line => rw [ih (by simp) h.2]

/-- The loop takes the lines one after the other. -/
theorem renderLogsFrom_eq {fuel : ℕ} {logs : Bytes} (hfuel : logs.length ≤ fuel) :
    renderLogsFrom fuel logs = (getLines logs).flatMap renderLogLine := by
  induction fuel generalizing logs with
  | zero =>
      rw [List.eq_nil_of_length_eq_zero (Nat.le_zero.mp hfuel)]
      rfl
  | succ fuel ih =>
      unfold renderLogsFrom
      by_cases hempty : logs = []
      · rw [if_pos hempty, hempty]
        rfl
      rw [if_neg hempty]
      by_cases hnewline : 0x0A ∈ logs
      · obtain ⟨line, rest, rfl, hline⟩ := List.eq_append_cons_of_mem hnewline
        have hrest : rest.length ≤ fuel := by
          simp only [List.length_append, List.length_cons] at hfuel
          omega
        have hdrop : (line ++ 0x0A :: rest).drop (line.length + 1) = rest := by
          rw [← List.drop_drop, List.drop_left]
          rfl
        rw [find_singleton hline, getLines_append_newline hline, List.flatMap_cons]
        dsimp only
        rw [List.take_left, hdrop, ih hrest]
      · rw [find_singleton_eq_none hnewline, getLines_of_no_newline hempty hnewline]
        simp

theorem renderedLogs_eq (logs : Bytes) :
    renderedLogs logs = (getLines logs).flatMap renderLogLine := renderLogsFrom_eq le_rfl

/-- The text with its last line finished. -/
def finished (text : Bytes) : Bytes :=
  if text = [] ∨ text.getLast? = some 0x0A then text else text ++ [0x0A]

theorem finished_cons (byte : UInt8) {rest : Bytes} (h : rest ≠ []) :
    finished (byte :: rest) = byte :: finished rest := by
  have hlast : (byte :: rest).getLast? = rest.getLast? := by
    cases rest with
    | nil => exact absurd rfl h
    | cons next rest => rfl
  unfold finished
  rw [hlast]
  by_cases hnewline : rest.getLast? = some 0x0A
  · rw [if_pos (Or.inr hnewline), if_pos (Or.inr hnewline)]
  · rw [if_neg (by simp [hnewline]), if_neg (by simp [h, hnewline])]
    rfl

theorem getLines_ne_nil {text : Bytes} (h : text ≠ []) : getLines text ≠ [] := by
  cases text with
  | nil => exact absurd rfl h
  | cons byte rest =>
      unfold getLines
      split
      · simp
      · split <;> simp

/-- The lines of a text, each finished, are the text. -/
theorem flatMap_getLines (text : Bytes) :
    ((getLines text).flatMap fun line => line ++ [0x0A]) = finished text := by
  induction text with
  | nil => rfl
  | cons byte rest ih =>
      unfold getLines
      by_cases hrest : rest = []
      · subst hrest
        by_cases hbyte : byte = 0x0A
        · rw [if_pos hbyte, hbyte]
          rfl
        · rw [if_neg hbyte]
          unfold finished
          rw [if_neg (by simp [hbyte])]
          rfl
      rw [finished_cons byte hrest, ← ih]
      by_cases hbyte : byte = 0x0A
      · rw [if_pos hbyte, hbyte]
        rfl
      · rw [if_neg hbyte]
        cases hlines : getLines rest with
        | nil => exact absurd hlines (getLines_ne_nil hrest)
        | cons line lines => rfl

/-! ## Unescaping -/

/-- The five entities, and what they stand for. -/
def entityRules : List (Bytes × Bytes) :=
  [(ascii "&amp;", [0x26]), (ascii "&lt;", [0x3C]), (ascii "&gt;", [0x3E]),
    (ascii "&quot;", [0x22]), (ascii "&#39;", [0x27])]

/-- The text that an escaped text shows. -/
def unescape (text : Bytes) : Bytes := replaceAll entityRules text

theorem entityRules_unambiguous : Unambiguous entityRules := by
  unfold entityRules
  repeat rw [ascii_ofList]
  decide

theorem entityRules_head : ∀ rule ∈ entityRules, rule.1.head? = some 0x26 := by
  unfold entityRules
  repeat rw [ascii_ofList]
  decide

/-- A character is escaped by an entity, or is itself. -/
theorem htmlEntity_cases (character : UInt8) :
    (htmlEntity character, [character]) ∈ entityRules ∨
      htmlEntity character = [character] ∧ character ≠ 0x26 := by
  unfold htmlEntity
  split_ifs with hamp hlt hgt hquote hapostrophe
  · simp [entityRules, hamp]
  · simp [entityRules, hlt]
  · simp [entityRules, hgt]
  · simp [entityRules, hquote]
  · simp [entityRules, hapostrophe]
  · exact Or.inr ⟨rfl, hamp⟩

/-- Escaped text is unescaped character by character. -/
theorem unescape_escaped (text rest : Bytes) :
    unescape (text.flatMap htmlEntity ++ rest) = text ++ unescape rest := by
  induction text with
  | nil => rfl
  | cons character text ih =>
      rw [List.flatMap_cons, List.append_assoc, List.cons_append, ← ih]
      rcases htmlEntity_cases character with hrule | ⟨hsame, hamp⟩
      · exact replaceAll_pattern entityRules_unambiguous hrule _
      · rw [hsame]
        exact replaceAll_append entityRules_head (by simp [Ne.symm hamp]) _

/-! ## Level spans -/

/-- The tags of the level spans. -/
def levelSpans : List Bytes :=
  ascii "</span>" :: logLevels.map fun level =>
    ascii "<span class=\"" ++ (ascii "log-" ++ logLevelName level) ++ ascii "\">"

def spanRules : List (Bytes × Bytes) := levelSpans.map fun span => (span, [])

/-- The text without the tags of the level spans. -/
def removeSpans (text : Bytes) : Bytes := replaceAll spanRules text

theorem spanRules_unambiguous : Unambiguous spanRules := by
  unfold spanRules levelSpans logLevels logLevelName
  repeat rw [ascii_ofList]
  decide +kernel

theorem spanRules_head : ∀ rule ∈ spanRules, rule.1.head? = some 0x3C := by
  unfold spanRules levelSpans logLevels logLevelName
  repeat rw [ascii_ofList]
  decide +kernel

theorem removeSpans_span {span : Bytes} (h : span ∈ levelSpans) (rest : Bytes) :
    removeSpans (span ++ rest) = removeSpans rest :=
  replaceAll_pattern spanRules_unambiguous (List.mem_map_of_mem h) rest

theorem removeSpans_other {text : Bytes} (h : 0x3C ∉ text) (rest : Bytes) :
    removeSpans (text ++ rest) = text ++ removeSpans rest :=
  replaceAll_append spanRules_head h rest

/-! ## A line of the page -/

theorem cssClass_cases (line : Bytes) :
    cssClass line = [] ∨ ∃ level ∈ logLevels, cssClass line = ascii "log-" ++ logLevelName level := by
  unfold cssClass
  split
  · rename_i level hfind
    exact Or.inr ⟨level, List.mem_of_find?_eq_some hfind, rfl⟩
  · exact Or.inl rfl

theorem plain_lits (text : String) : plain (lits [text]) = ascii text := by
  simp [lits]

theorem plain_escaped (value : Bytes) : plain (escaped value) = value.flatMap htmlEntity := by
  simp [escaped, htmlEscape]

/-- A line is its text, escaped, with the tags of a level span or without, and a newline. -/
theorem plain_renderLogLine (line : Bytes) :
    plain (renderLogLine line) = line.flatMap htmlEntity ++ [0x0A] ∨
      ∃ span ∈ levelSpans, plain (renderLogLine line) =
        span ++ (line.flatMap htmlEntity ++ (ascii "</span>" ++ [0x0A])) := by
  have hnewline : ascii "\n" = [0x0A] := by
    rw [ascii_ofList]
    rfl
  unfold renderLogLine
  dsimp only
  rcases cssClass_cases line with hnone | ⟨level, hlevel, hcss⟩
  · left
    rw [hnone]
    simp [plain_escaped, plain_lits, hnewline]
  · right
    have hne : ascii "log-" ++ logLevelName level ≠ [] := by
      rw [ascii_ofList]
      simp
    refine ⟨_, List.mem_cons_of_mem _ (List.mem_map_of_mem hlevel), ?_⟩
    rw [hcss, if_pos hne, if_pos hne]
    simp [plain_escaped, plain_lits, hnewline]

/-- Escaped text holds none of the special characters. -/
theorem not_mem_escaped {character : UInt8} (h : Special character) (text : Bytes) :
    character ∉ text.flatMap htmlEntity := by
  intro hmem
  obtain ⟨original, -, hproduced⟩ := List.mem_flatMap.mp hmem
  exact not_special_of_mem_htmlEntity original character hproduced h

theorem special_lt : Special 0x3C := Or.inl rfl

theorem removeSpans_renderLogLine (line rest : Bytes) :
    removeSpans (plain (renderLogLine line) ++ rest) =
      line.flatMap htmlEntity ++ ([0x0A] ++ removeSpans rest) := by
  have hescaped := not_mem_escaped special_lt line
  have hnewline : (0x3C : UInt8) ∉ [0x0A] := by decide
  rcases plain_renderLogLine line with hplain | ⟨span, hspan, hplain⟩
  · rw [hplain, List.append_assoc, removeSpans_other hescaped, removeSpans_other hnewline]
  · rw [hplain]
    simp only [List.append_assoc]
    rw [removeSpans_span hspan, removeSpans_other hescaped,
      removeSpans_span List.mem_cons_self, removeSpans_other hnewline]

/-- The log part without its spans is the log, escaped line by line. -/
theorem removeSpans_renderedLogs (lines : List Bytes) :
    removeSpans (plain (lines.flatMap renderLogLine)) =
      (lines.flatMap fun line => line ++ [0x0A]).flatMap htmlEntity := by
  have hnewline : htmlEntity 0x0A = [0x0A] := rfl
  induction lines with
  | nil => rfl
  | cons line lines ih =>
      rw [List.flatMap_cons, plain_append, removeSpans_renderLogLine, ih]
      simp [hnewline]

/-! ## Where the log part stands -/

/-- No occurrence of the needle begins in a text, whatever stands behind it. -/
def Absent (needle text : Bytes) : Prop :=
  ∀ rest, find needle (text ++ rest) = (find needle rest).map (· + text.length)

theorem absent_append {needle text more : Bytes} (h : Absent needle text)
    (hmore : Absent needle more) : Absent needle (text ++ more) := by
  intro rest
  rw [List.append_assoc, h, hmore, Option.map_map, List.length_append]
  congr 1
  funext index
  simp [Nat.add_comm text.length, Nat.add_assoc]

theorem absent_of_not_mem {first : UInt8} {needle text : Bytes} (h : first ∉ text) :
    Absent (first :: needle) text := fun _ => find_skip h

/-- Every place of the text differs from the needle before either of them ends. -/
def differs (needle : Bytes) : Bytes → Bool
  | [] => true
  | byte :: rest =>
      !(needle.isPrefixOf (byte :: rest)) && !((byte :: rest).isPrefixOf needle) &&
        differs needle rest

theorem absent_of_differs {needle text : Bytes} (h : differs needle text = true) :
    Absent needle text := by
  intro rest
  induction text with
  | nil => simp
  | cons byte text ih =>
      simp only [differs, Bool.and_eq_true, Bool.not_eq_true'] at h
      obtain ⟨⟨hneedle, htext⟩, hrest⟩ := h
      have hhere : needle.isPrefixOf (byte :: (text ++ rest)) = false := by
        by_contra hbegins
        rw [Bool.not_eq_false, List.isPrefixOf_iff_prefix] at hbegins
        -- two beginnings of one text are comparable
        rcases List.prefix_or_prefix_of_prefix hbegins (List.prefix_append (byte :: text) rest) with
          hle | hle
        · rw [List.isPrefixOf_iff_prefix.mpr hle] at hneedle
          cases hneedle
        · rw [List.isPrefixOf_iff_prefix.mpr hle] at htext
          cases htext
      rw [List.cons_append, find, hhere, if_neg (by simp), ih hrest, Option.map_map]
      congr 1

theorem find_of_absent {needle text : Bytes} (hne : needle ≠ []) (h : Absent needle text)
    (rest : Bytes) : find needle (text ++ (needle ++ rest)) = some text.length := by
  have hhere : find needle (needle ++ rest) = some 0 := by
    cases needle with
    | nil => exact absurd rfl hne
    | cons byte needle =>
        rw [List.cons_append, find, if_pos]
        exact List.isPrefixOf_iff_prefix.mpr (List.prefix_append (byte :: needle) rest)
  rw [h, hhere]
  simp

/-- The part of the page between `<pre>` and `</pre>`. -/
def logPart (page : Bytes) : Bytes :=
  match find (ascii "<pre>") page with
  | none => []
  | some start =>
      let text := page.drop (start + 5)
      match find (ascii "</pre>") text with
      | none => text
      | some stop => text.take stop

/-- No line ends the log part early. -/
theorem absent_renderedLogs (lines : List Bytes) :
    Absent (ascii "</pre>") (plain (lines.flatMap renderLogLine)) := by
  have hend : ascii "</pre>" = 0x3C :: (ascii "</pre>").tail := by
    rw [ascii_ofList]
    rfl
  have hspans : ∀ span ∈ levelSpans, differs (ascii "</pre>") span = true := by
    unfold levelSpans logLevels logLevelName
    repeat rw [ascii_ofList]
    decide +kernel
  have hspan {span : Bytes} (h : span ∈ levelSpans) : Absent (ascii "</pre>") span :=
    absent_of_differs (hspans span h)
  have hother {text : Bytes} (h : 0x3C ∉ text) : Absent (ascii "</pre>") text := by
    rw [hend]
    exact absent_of_not_mem h
  have hnewline : Absent (ascii "</pre>") [0x0A] := hother (by decide)
  induction lines with
  | nil => exact hother (by simp)
  | cons line lines ih =>
      have hescaped := hother (not_mem_escaped special_lt line)
      rw [List.flatMap_cons, plain_append]
      refine absent_append ?_ ih
      rcases plain_renderLogLine line with hplain | ⟨span, hmem, hplain⟩
      · rw [hplain]
        exact absent_append hescaped hnewline
      · rw [hplain]
        exact absent_append (hspan hmem)
          (absent_append hescaped (absent_append (hspan List.mem_cons_self) hnewline))

/-- The head of the page does not begin the log part early. -/
theorem absent_logsPageHead (retainedKib : ℕ) :
    Absent (ascii "<pre>")
      (logsPageHead.flatMap ascii ++ (decimal retainedKib ++ ascii " KiB retained.</p>")) := by
  have hhead : differs (ascii "<pre>") (logsPageHead.flatMap ascii) = true := by
    simp only [logsPageHead, List.flatMap_cons, List.flatMap_nil]
    repeat rw [ascii_ofList]
    decide +kernel
  have htail : differs (ascii "<pre>") (ascii " KiB retained.</p>") = true := by
    repeat rw [ascii_ofList]
    decide +kernel
  have hdigits : Absent (ascii "<pre>") (decimal retainedKib) := by
    have hbegin : ascii "<pre>" = 0x3C :: (ascii "<pre>").tail := by
      rw [ascii_ofList]
      rfl
    rw [hbegin]
    exact absent_of_not_mem fun hmem =>
      not_special_of_isDigit (isDigit_of_mem_decimal hmem) special_lt
  exact absent_append (absent_of_differs hhead)
    (absent_append hdigits (absent_of_differs htail))

theorem logPart_renderLogsPage (logs : Bytes) (retainedKib : ℕ) :
    logPart (plain (renderLogsPage logs retainedKib)) = plain (renderedLogs logs) := by
  set rendered := plain (renderedLogs logs) with hrendered
  have hpre : ascii " KiB retained.</p><pre>" = ascii " KiB retained.</p>" ++ ascii "<pre>" := by
    repeat rw [ascii_ofList]
    rfl
  have hend : ascii "</pre></body></html>" = ascii "</pre>" ++ ascii "</body></html>" := by
    repeat rw [ascii_ofList]
    rfl
  have hpage : plain (renderLogsPage logs retainedKib) =
      (logsPageHead.flatMap ascii ++ (decimal retainedKib ++ ascii " KiB retained.</p>")) ++
        (ascii "<pre>" ++ (rendered ++ (ascii "</pre>" ++ ascii "</body></html>"))) := by
    unfold renderLogsPage
    simp only [plain_append, plain_lits, hpre, hend, ← hrendered]
    simp [lits, number]
  have hstart := find_of_absent (by rw [ascii_ofList]; simp) (absent_logsPageHead retainedKib)
    (rendered ++ (ascii "</pre>" ++ ascii "</body></html>"))
  have hstop := find_of_absent (by rw [ascii_ofList]; simp)
    (absent_renderedLogs (getLines logs)) (ascii "</body></html>")
  rw [← renderedLogs_eq, ← hrendered] at hstop
  have hlength : (ascii "<pre>").length = 5 := by
    rw [ascii_ofList]
    rfl
  unfold logPart
  rw [hpage, hstart]
  dsimp only
  rw [← hlength, ← List.drop_drop, List.drop_left, List.drop_left, hstop]
  exact List.take_left

/-- Nothing of the log is lost. -/
theorem unescape_removeSpans_logPart (logs : Bytes) (retainedKib : ℕ) :
    unescape (removeSpans (logPart (plain (renderLogsPage logs retainedKib)))) = finished logs := by
  rw [logPart_renderLogsPage, renderedLogs_eq, removeSpans_renderedLogs, flatMap_getLines,
    ← List.append_nil ((finished logs).flatMap htmlEntity), unescape_escaped]
  exact List.append_nil _

/-! ## Both pages -/

theorem renderLogsPage_safe (logs : Bytes) (retainedKib : ℕ) :
    Safe (renderLogsPage logs retainedKib) := by
  have hcss (css : Bytes) : Safe (mark .page css) := confined_mark_of_allowed ofBuild_page css
  have hline (line : Bytes) : Safe (renderLogLine line) := by
    simp [renderLogLine, hcss]
  unfold renderLogsPage
  rw [renderedLogs_eq]
  simp [hline]

/-- Whatever the settings, the devices nearby, the messages and the log hold: the characters
of the two pages that markup is made of are none of theirs, and the page of logs shows the
log as it is. -/
theorem management_pages (version : Option Bytes) (config : Config) (snapshot : Snapshot)
    (hotspotNeedsSetup saved carplayError : Bool) (random : ℕ → UInt32) (logs : Bytes)
    (retainedKib : ℕ) :
    Safe (renderPage version config snapshot hotspotNeedsSetup saved carplayError
        (randomToken random)) ∧
      Safe (renderLogsPage logs retainedKib) ∧
      unescape (removeSpans (logPart (plain (renderLogsPage logs retainedKib)))) =
        finished logs :=
  ⟨renderPage_safe (safe_randomToken random) config snapshot version hotspotNeedsSetup saved
      carplayError,
    renderLogsPage_safe logs retainedKib, unescape_removeSpans_logPart logs retainedKib⟩

end Management
end Bridge
end Aa2acp
