import Mathlib.Data.List.DropRight
import SessionManager.Python.Text

/-!
# The lines of the application log

The formatter `OneLineErrorFormatter`, with the format that `configure_logging` gives it.

* `LogRecord`, `getMessage` — a record, and its message with the arguments filled in by the `%` of
  `str`, which is a parameter.
* `format` — the text a handler writes for a record.
* `ShownWhole` — one line for an error, the message as it is for anything else.
* `shownWhole_iff` — for every record.
-/

namespace SessionManager

open Python

namespace OneLineErrorFormatter

/-! ### Records -/

/-- `logging.ERROR`. -/
def errorLevel : ℕ := 40

/-- `logging.getLevelName(level)`, with the two levels that `logger_config` adds. -/
def getLevelName : ℕ → String
  | 50 => "CRITICAL"
  | 40 => "ERROR"
  | 30 => "WARNING"
  | 20 => "INFO"
  | 16 => "AGENTLOG"
  | 15 => "ESLOG"
  | 10 => "DEBUG"
  | 0 => "NOTSET"
  | level => "Level " ++ toString level

/-- `logging.LogRecord`: `msg` is the text of the message, `args` is `none` where it is empty,
`created` is the local time in seconds, and the exception is the text that `formatException` makes
of it. The identifiers of the trace are attributes that a record may not have. -/
structure LogRecord (Args : Type) where
  levelno : ℕ
  created : ℕ
  msg : String
  args : Option Args
  excInfo : Option String
  stackInfo : Option String
  otelTraceID : Option String
  otelSpanID : Option String

section Format

variable {Args Err : Type} (percent : String → Args → Except Err String)

/-- `record.getMessage()` for the operator `percent`: without arguments the message is no
template. -/
def LogRecord.getMessage (record : LogRecord Args) : Except Err String :=
  match record.args with
  | none => .ok record.msg
  | some args => percent record.msg args

/-! ### The formatter -/

/-- `time.strftime("%Y-%m-%d %H:%M:%S", ct)` for a date and the second of its day. -/
def strftime : ℕ × ℕ × ℕ → ℕ → String
  | (year, month, day), second =>
    zeroPad 4 year ++ "-" ++ zeroPad 2 month ++ "-" ++ zeroPad 2 day ++ " " ++
      zeroPad 2 (second / 3600) ++ ":" ++ zeroPad 2 (second / 60 % 60) ++ ":" ++
      zeroPad 2 (second % 60)

/-- `formatTime(record, "%Y-%m-%d %H:%M:%S")`. -/
def formatTime (created : ℕ) : String := strftime (civil (created / 86400)) (created % 86400)

/-- `formatMessage(record)` with `fmt="%(asctime)s [%(levelname)s] %(message)s"`. -/
def formatMessage (asctime levelname message : String) : String :=
  asctime ++ " [" ++ levelname ++ "] " ++ message

/-- The trace and the span a record belongs to. -/
def otelPrefix (record : LogRecord Args) : String :=
  "[trace=" ++ record.otelTraceID.getD "-" ++ " span=" ++ record.otelSpanID.getD "-" ++ "]"

/-- `text.replace(chr(10), r'\\n')`: a raw string keeps both backslashes. -/
def replaceNewlines (text : String) : String :=
  String.ofList (text.toList.flatMap fun c => if c = '\n' then ['\\', '\\', 'n'] else [c])

/-- An optional text behind what is formatted so far: in the same line under its name for an error,
in lines of its own for anything else. -/
def withText (levelno : ℕ) (name : String) (formatted : String) : Option String → String
  | none => formatted
  | some text =>
    if errorLevel ≤ levelno then formatted ++ " " ++ name ++ ": " ++ replaceNewlines text
    else formatted ++ "\n" ++ text

/-- `format(record)`. -/
def format (record : LogRecord Args) : Except Err String := do
  let message ← record.getMessage percent
  let messageBody := if errorLevel ≤ record.levelno then "errmsg: " ++ message else message
  let shown := strip (otelPrefix record ++ " " ++ messageBody)
  let formatted := formatMessage (formatTime record.created) (getLevelName record.levelno) shown
  let formatted := withText record.levelno "stack_trace" formatted record.excInfo
  return withText record.levelno "stack_info" formatted (nonEmpty record.stackInfo)

/-! ### What a log should show -/

/-- The message behind the identifiers of the trace. -/
def keptMessage (otelPrefix message : String) : String :=
  if message = "" then otelPrefix else otelPrefix ++ " " ++ message

/-- The text around a message: the time and the level in front of it, the traceback and the stack
behind it. -/
def around (record : LogRecord Args) (message : String) : String :=
  withText record.levelno "stack_info"
    (withText record.levelno "stack_trace"
      (formatMessage (formatTime record.created) (getLevelName record.levelno) message)
      record.excInfo)
    (nonEmpty record.stackInfo)

/-- The text of a record is one line if it is about an error, and otherwise has the whole message
between the identifiers of the trace and the traceback. -/
def ShownWhole (record : LogRecord Args) : Prop :=
  ∃ message shown, record.getMessage percent = .ok message ∧ format percent record = .ok shown ∧
    (errorLevel ≤ record.levelno → '\n' ∉ shown.toList) ∧
    (record.levelno < errorLevel →
      shown = around record (keptMessage (otelPrefix record) message))

/-- The message of an error has line breaks at its end only, its identifiers have none, and any
other message ends in no white space. -/
def PlainMessage (record : LogRecord Args) : Prop :=
  ∃ message, record.getMessage percent = .ok message ∧
    (errorLevel ≤ record.levelno →
      '\n' ∉ (otelPrefix record).toList ∧ '\n' ∉ message.toList.rdropWhile isSpace) ∧
    (record.levelno < errorLevel → ∀ c ∈ message.toList.getLast?, isSpace c = false)

end Format

/-! ### White space at the end -/

section WhiteSpace

theorem rdropWhile_append {α : Type} (p : α → Bool) (a b : List α) :
    (a ++ b).rdropWhile p =
      if b.rdropWhile p = [] then a.rdropWhile p else a ++ b.rdropWhile p := by
  simp only [List.rdropWhile, List.reverse_append, List.dropWhile_append, List.isEmpty_iff,
    List.reverse_eq_nil_iff]
  split
  · rfl
  · simp

/-- A message behind a blank, as far as `strip` leaves it. -/
def behind (message : String) : String :=
  String.ofList ((' ' :: message.toList).rdropWhile isSpace)

theorem toList_behind (message : String) :
    (behind message).toList =
      if message.toList.rdropWhile isSpace = [] then []
      else ' ' :: message.toList.rdropWhile isSpace := by
  have hspace : isSpace ' ' = true := rfl
  rw [behind, String.toList_ofList, ← List.singleton_append, rdropWhile_append,
    List.rdropWhile_singleton, if_pos hspace, List.singleton_append]

theorem newline_mem_behind (message : String) :
    '\n' ∈ (behind message).toList ↔ '\n' ∈ message.toList.rdropWhile isSpace := by
  rw [toList_behind]
  split
  case isTrue hblank => rw [hblank]
  case isFalse => simp

/-- Nothing is stripped from a text that begins and ends with other characters. -/
theorem toList_strip {s : String} {first last : Char} {mid back : List Char}
    (hs : s.toList = first :: mid ++ [last] ++ back) (hfirst : isSpace first = false)
    (hlast : isSpace last = false) :
    (strip s).toList = first :: mid ++ [last] ++ back.rdropWhile isSpace := by
  have hfront : s.toList.dropWhile isSpace = s.toList := by
    rw [hs]
    simp [hfirst]
  have hend : (first :: mid ++ [last]).rdropWhile isSpace = first :: mid ++ [last] :=
    List.rdropWhile_concat_neg _ _ _ (by simp [hlast])
  have hback : (strip s).toList = s.toList.rdropWhile isSpace := by
    rw [strip, hfront, String.toList_ofList, List.rdropWhile]
  rw [hback, hs, rdropWhile_append, hend]
  split
  case isTrue hblank => rw [hblank, List.append_nil]
  case isFalse => rfl

end WhiteSpace

/-! ### Texts without line breaks -/

section Newlines

theorem newline_not_mem_toDigits (n : ℕ) : '\n' ∉ Nat.toDigits 10 n := by
  intro hmem
  exact absurd (Nat.isDigit_of_mem_toDigits (by decide) (by decide) hmem) (by decide)

theorem newline_not_mem_zeroPad (width n : ℕ) : '\n' ∉ (zeroPad width n).toList := by
  rw [zeroPad, String.toList_append, String.toList_ofList, Nat.toString_eq_repr, Nat.toList_repr,
    List.mem_append, List.mem_replicate]
  rintro (⟨-, hzero⟩ | hmem)
  · exact absurd hzero (by decide)
  · exact newline_not_mem_toDigits n hmem

theorem newline_not_mem_strftime (date : ℕ × ℕ × ℕ) (second : ℕ) :
    '\n' ∉ (strftime date second).toList := by
  obtain ⟨year, month, day⟩ := date
  simp only [strftime, String.toList_append, List.mem_append, newline_not_mem_zeroPad]
  decide

theorem newline_not_mem_formatTime (created : ℕ) : '\n' ∉ (formatTime created).toList :=
  newline_not_mem_strftime _ _

theorem newline_not_mem_getLevelName (level : ℕ) : '\n' ∉ (getLevelName level).toList := by
  unfold getLevelName
  split
  case h_9 => simp [newline_not_mem_toDigits]
  all_goals decide

theorem newline_not_mem_replaceNewlines (text : String) :
    '\n' ∉ (replaceNewlines text).toList := by
  rw [replaceNewlines, String.toList_ofList, List.mem_flatMap]
  rintro ⟨c, -, hmem⟩
  split at hmem
  case isTrue => exact absurd hmem (by decide)
  case isFalse hc => exact hc (List.mem_singleton.1 hmem).symm

/-- What is behind an error adds no line break. -/
theorem newline_mem_withText {levelno : ℕ} (hlevel : errorLevel ≤ levelno) {name : String}
    (hname : '\n' ∉ name.toList) (formatted : String) (text : Option String) :
    '\n' ∈ (withText levelno name formatted text).toList ↔ '\n' ∈ formatted.toList := by
  cases text with
  | none => exact Iff.rfl
  | some text =>
    rw [withText, if_pos hlevel]
    simp [hname, newline_not_mem_replaceNewlines]

theorem newline_mem_formatMessage (created levelno : ℕ) (message : String) :
    '\n' ∈ (formatMessage (formatTime created) (getLevelName levelno) message).toList ↔
      '\n' ∈ message.toList := by
  simp [formatMessage, newline_not_mem_formatTime, newline_not_mem_getLevelName]

end Newlines

/-! ### The text of a record -/

section Text

variable {Args Err : Type} {percent : String → Args → Except Err String} (record : LogRecord Args)

/-- What is in front of a message, up to the last character that is no blank. -/
def label : String :=
  if errorLevel ≤ record.levelno then otelPrefix record ++ " errmsg:" else otelPrefix record

theorem toList_otelPrefix : ∃ ids, (otelPrefix record).toList = '[' :: ids ++ [']'] :=
  ⟨"trace=".toList ++ (record.otelTraceID.getD "-").toList ++ " span=".toList ++
    (record.otelSpanID.getD "-").toList, by simp [otelPrefix]⟩

/-- Only the end of a message is stripped: the identifiers stand in brackets, and the label of an
error ends in a colon. -/
theorem strip_message (message : String) :
    strip (otelPrefix record ++ " " ++
        if errorLevel ≤ record.levelno then "errmsg: " ++ message else message) =
      label record ++ behind message := by
  obtain ⟨ids, hids⟩ := toList_otelPrefix record
  rw [← String.toList_inj, label, String.toList_append, behind, String.toList_ofList]
  split
  case isTrue =>
    have hs : (otelPrefix record ++ " " ++ ("errmsg: " ++ message)).toList =
        '[' :: (ids ++ "] errmsg".toList) ++ [':'] ++ (' ' :: message.toList) := by
      simp [hids]
    rw [toList_strip hs rfl rfl]
    simp [hids]
  case isFalse =>
    have hs : (otelPrefix record ++ " " ++ message).toList =
        '[' :: ids ++ [']'] ++ (' ' :: message.toList) := by
      simp [hids]
    rw [toList_strip hs rfl rfl]
    simp [hids]

variable {record}

theorem format_of_ok {message : String} (h : record.getMessage percent = .ok message) :
    format percent record = .ok (around record (label record ++ behind message)) := by
  rw [← strip_message, format, h]
  rfl

/-- The text of an error has the line breaks of its identifiers and its message, and no others. -/
theorem newline_mem_error (hlevel : errorLevel ≤ record.levelno) (message : String) :
    '\n' ∈ (around record (label record ++ behind message)).toList ↔
      '\n' ∈ (otelPrefix record).toList ∨ '\n' ∈ message.toList.rdropWhile isSpace := by
  rw [around, newline_mem_withText hlevel (by decide), newline_mem_withText hlevel (by decide),
    newline_mem_formatMessage, String.toList_append, List.mem_append, newline_mem_behind, label,
    if_pos hlevel, String.toList_append, List.mem_append]
  have hlabel : '\n' ∉ " errmsg:".toList := by decide
  simp only [hlabel, or_false]

/-- Below an error the text in front can be read off. -/
theorem withText_inj {levelno : ℕ} (hlevel : levelno < errorLevel)
    {name formatted formatted' : String} {text : Option String} :
    withText levelno name formatted text = withText levelno name formatted' text ↔
      formatted = formatted' := by
  cases text with
  | none => exact Iff.rfl
  | some text =>
    rw [withText, withText, if_neg (by omega), if_neg (by omega), String.append_left_inj,
      String.append_left_inj]

theorem around_inj (hlevel : record.levelno < errorLevel) {message message' : String} :
    around record message = around record message' ↔ message = message' := by
  rw [around, around, withText_inj hlevel, withText_inj hlevel, formatMessage, formatMessage,
    String.append_right_inj]

theorem toList_rdropWhile_eq_iff (message : String) :
    message.toList.rdropWhile isSpace = message.toList ↔
      ∀ c ∈ message.toList.getLast?, isSpace c = false := by
  rw [List.rdropWhile_eq_self_iff]
  constructor
  · intro hlast c hc
    obtain ⟨hne, rfl⟩ := List.mem_getLast?_eq_getLast hc
    exact Bool.not_eq_true _ ▸ hlast hne
  · intro hlast hne
    rw [hlast _ (List.getLast?_eq_getLast_of_ne_nil hne)]
    exact Bool.false_ne_true

/-- A message is kept when it does not end in white space. -/
theorem behind_eq_kept_iff (front message : String) :
    front ++ behind message = keptMessage front message ↔
      ∀ c ∈ message.toList.getLast?, isSpace c = false := by
  rw [← toList_rdropWhile_eq_iff, keptMessage]
  split
  case isTrue hempty =>
    rw [hempty]
    exact ⟨fun _ => rfl, fun _ => String.append_empty⟩
  case isFalse hne =>
    have hnil : message.toList ≠ [] := by simpa using hne
    rw [String.append_assoc, String.append_right_inj, ← String.toList_inj, toList_behind]
    split
    -- the message is white space, and all of it is lost
    case isTrue hblank => simp [hblank, hnil.symm]
    case isFalse => simp

end Text

/-- Whatever `%` makes of templates and arguments, an error is shown in one line, and any other
message as it is, exactly when the message is plain. -/
theorem shownWhole_iff {Args Err : Type} (percent : String → Args → Except Err String)
    (record : LogRecord Args) : ShownWhole percent record ↔ PlainMessage percent record := by
  constructor
  · rintro ⟨message, shown, hmessage, hshown, herror, hother⟩
    obtain rfl := Except.ok.inj ((format_of_ok hmessage).symm.trans hshown)
    refine ⟨message, hmessage, fun hlevel => ?_, fun hlevel => ?_⟩
    · exact not_or.1 (mt (newline_mem_error hlevel message).2 (herror hlevel))
    · have hkept := hother hlevel
      rw [around_inj hlevel, label, if_neg (by omega)] at hkept
      exact (behind_eq_kept_iff _ _).1 hkept
  · rintro ⟨message, hmessage, herror, hother⟩
    refine ⟨message, _, hmessage, format_of_ok hmessage, fun hlevel => ?_, fun hlevel => ?_⟩
    · exact mt (newline_mem_error hlevel message).1 (not_or.2 (herror hlevel))
    · rw [label, if_neg (by omega), (behind_eq_kept_iff _ _).2 (hother hlevel)]

/-- `msg % args` for a template whose placeholders are all `%s`, and arguments that are texts. It
refuses any other template. -/
def fillIn : List Char → List String → Except PyError (List Char)
  | [], [] => .ok []
  | [], _ :: _ => .error .typeError
  | '%' :: 's' :: cs, arg :: args => (fillIn cs args).map (arg.toList ++ ·)
  | '%' :: 's' :: _, [] => .error .typeError
  | '%' :: _, _ => .error .valueError
  | c :: cs, args => (fillIn cs args).map (c :: ·)

/-- The operator on texts. -/
def percentTexts (msg : String) (args : List String) : Except PyError String :=
  (fillIn msg.toList args).map String.ofList

/-- The failure to look up a customer number that a request gives with a line break in it. -/
def failedLookup : LogRecord (List String) where
  levelno := errorLevel
  created := 0
  msg := "Failed to retrieve %s batch profile from MinIO for CUSNO %s: %s"
  args := some ["daily", "1\n2", "timed out"]
  excInfo := none
  stackInfo := none
  otelTraceID := none
  otelSpanID := none

theorem getMessage_failedLookup : failedLookup.getMessage percentTexts =
    .ok "Failed to retrieve daily batch profile from MinIO for CUSNO 1\n2: timed out" := by
  decide

/-- The customer number is filled in as it is. -/
theorem not_shownWhole : ¬ ShownWhole percentTexts failedLookup := by
  rintro ⟨message, shown, hmessage, hshown, herror, -⟩
  obtain rfl := Except.ok.inj (getMessage_failedLookup.symm.trans hmessage)
  obtain rfl := Except.ok.inj ((format_of_ok hmessage).symm.trans hshown)
  refine herror (Nat.le_refl _) ((newline_mem_error (Nat.le_refl _) _).2 (Or.inr ?_))
  decide

end OneLineErrorFormatter

end SessionManager
