import Mathlib
import OsScanner.Observability.Redaction

/-!
# The log stream

`app/observability/logging.py`: a call merges the context of the task, the context of its logger and
its own fields, redacts them and adds what the logger itself says about the event. The handler writes
every record as one line of JSON, also the records that reach it without a `StructuredLogger`.

What a collector reads back from the lines is what was written: no field ends a line, none stands for
the event, the level or the time, and what was given under the name of a secret is not there.
-/

namespace OsScanner.Observability

open Lib

/-! ## Names, levels and times -/

/-- `[a-zA-Z0-9_.-]` -/
def isEventChar (c : Char) : Bool := c.isAlphanum || c == '_' || c == '.' || c == '-'

/-- `_EVENT_NAME.fullmatch(event)` -/
def isEventName (event : String) : Bool :=
  match event.toList with
  | [] => false
  | c :: rest => c.isAlpha && decide (rest.length ≤ 127) && rest.all isEventChar

/-- `logging.getLevelName(level)` -/
def levelName (level : Int) : String :=
  if level = 50 then "CRITICAL"
  else if level = 40 then "ERROR"
  else if level = 30 then "WARNING"
  else if level = 20 then "INFO"
  else if level = 10 then "DEBUG"
  else if level = 0 then "NOTSET"
  else "Level " ++ String.ofList (Json.intRepr level)

/-- The characters of an ISO 8601 time in UTC. -/
def isStampChar (c : Char) : Bool := c.isDigit || "-:.TZ".toList.contains c

/-- `datetime.now(UTC).isoformat(…)` with a `Z` at its end -/
abbrev Stamp := { s : String // s.toList.all isStampChar = true }

/-! ## Calls -/

/-- A call of `StructuredLogger.log` and what it reads. -/
structure Call where
  redactor : Redactor
  /-- `_CURRENT_CONTEXT`, which the enclosing `log_context` blocks have set. -/
  current : Fields
  /-- The context that `bind` has added to the logger. -/
  context : Fields
  now : Stamp
  level : Int
  event : String
  message : Option String
  fields : Fields

namespace Call

variable (c : Call)

/-- `{**(_CURRENT_CONTEXT.get() or {}), **self._context, **fields}` -/
def combined : Fields := Assoc.merge (Assoc.merge c.current c.context) c.fields

/-- `self._redactor.value(combined)`; the limit on the depth lets at least one object through. -/
def redacted : JsonObject := c.redactor.mapped (c.redactor.fieldValues 1 c.combined)

/-- The payload of the record. -/
def payload : JsonObject :=
  let payload := Assoc.merge c.redacted [("timestamp", .str c.now.val),
    ("level", .str (levelName c.level)), ("event", .str c.event)]
  match c.message with
  | some message => Assoc.insert "message" (.str (c.redactor.text message)) payload
  | none => payload

end Call

/-! ## Records -/

/-- A `logging.LogRecord` -/
inductive Record where
  /-- `record.structured_payload` -/
  | structured (payload : JsonObject)
  /-- A record of another caller, with its time, its level and its message. -/
  | plain (now : Stamp) (level : Int) (message : String)

/-- What `StructuredJsonFormatter.format` prints. -/
def Record.payload : Record → Json
  | .structured payload => .obj payload
  | .plain now level message => .obj [("timestamp", .str now.val),
      ("level", .str (levelName level)), ("event", .str "unstructured_log"),
      ("message", .str message)]

/-- What reaches the `logging.Logger`. -/
inductive Event where
  | log (c : Call)
  | plain (now : Stamp) (level : Int) (message : String)

/-- `log(level, event, message, **fields)` up to the handler: a level below the logger's own is dropped. -/
def Call.log (threshold : Int) (c : Call) : Except String (Option Record) :=
  if isEventName c.event then
    .ok (if c.level ≥ threshold then some (.structured c.payload) else none)
  else .error "structured log event name is invalid"

/-- The record that an event leaves, if any. -/
def Event.record (threshold : Int) : Event → Option Record
  | .log c => (c.log threshold).toOption.join
  | .plain now level message =>
    if level ≥ threshold then some (.plain now level message) else none

/-! ## The stream -/

section Stream

variable (rt : Runtime) (threshold : Int)

/-- `json.dumps(payload, …)` -/
def format (record : Record) : List Char := (Json.canonicalJson rt record.payload).toList

/-- `StreamHandler.emit` -/
def handle (stream : List Char) (event : Event) : List Char :=
  match event.record threshold with
  | some record => stream ++ (format rt record ++ ['\n'])
  | none => stream

/-- What a run of the program has written. -/
def stream (events : List Event) : List Char := events.foldl (handle rt threshold) []

/-- The payloads of the records that pass, in their order. -/
def written (events : List Event) : List Json :=
  (events.filterMap (Event.record threshold)).map Record.payload

/-! ### Reading the stream -/

theorem stream_eq (events : List Event) : stream rt threshold events =
    (events.filterMap (Event.record threshold)).flatMap fun record => format rt record ++ ['\n'] := by
  have hrun : ∀ (events : List Event) (before : List Char),
      events.foldl (handle rt threshold) before = before ++
        (events.filterMap (Event.record threshold)).flatMap fun record =>
          format rt record ++ ['\n'] := by
    intro events
    induction events with
    | nil => exact fun before => (List.append_nil before).symm
    | cons event events ih =>
      intro before
      rw [List.foldl_cons, ih, handle, List.filterMap_cons]
      cases event.record threshold with
      | none => rfl
      | some record => rw [List.flatMap_cons, List.append_assoc]
  exact hrun events []

/-- Lines without line feeds in them are told apart by the line feeds after them. -/
theorem splitOn_lines {lines : List (List Char)} (h : ∀ line ∈ lines, '\n' ∉ line) :
    (lines.flatMap (· ++ ['\n'])).splitOn '\n' = lines ++ [[]] := by
  have hjoin : lines.flatMap (· ++ ['\n']) = ['\n'].intercalate (lines ++ [[]]) := by
    clear h
    induction lines with
    | nil => rfl
    | cons line lines ih =>
      rw [List.flatMap_cons, ih]
      cases lines <;> simp [List.intercalate]
  rw [hjoin, List.splitOn_intercalate]
  · intro line hline
    rcases List.mem_append.mp hline with hline | hline
    · exact h line hline
    · rw [List.mem_singleton.mp hline]
      exact List.not_mem_nil
  · exact List.append_ne_nil_of_right_ne_nil _ (List.cons_ne_nil _ _)

theorem format_one_line (record : Record) : '\n' ∉ format rt record := fun h =>
  absurd (Json.canonicalJson_one_line rt record.payload '\n' h) (by decide)

end Stream

/-! ## Secrets -/

/-- The calls differ at most in what stands under the names of secrets. -/
structure Call.SameUpToSecrets (c d : Call) : Prop where
  redactor : c.redactor = d.redactor
  now : c.now = d.now
  level : c.level = d.level
  event : c.event = d.event
  message : c.message = d.message
  current : c.redactor.hideFields c.current = d.redactor.hideFields d.current
  context : c.redactor.hideFields c.context = d.redactor.hideFields d.context
  fields : c.redactor.hideFields c.fields = d.redactor.hideFields d.fields

inductive Event.SameUpToSecrets : Event → Event → Prop where
  | log {c d : Call} (h : c.SameUpToSecrets d) : SameUpToSecrets (.log c) (.log d)
  | plain (now : Stamp) (level : Int) (message : String) :
      SameUpToSecrets (.plain now level message) (.plain now level message)

theorem Call.SameUpToSecrets.payload_eq {c d : Call} (h : c.SameUpToSecrets d) :
    c.payload = d.payload := by
  obtain ⟨redactor, current, context, now, level, event, message, fields⟩ := c
  obtain ⟨redactor', current', context', now', level', event', message', fields'⟩ := d
  obtain ⟨rfl, rfl, rfl, rfl, rfl, hcurrent, hcontext, hfields⟩ := h
  dsimp only at hcurrent hcontext hfields
  have hcombined : redactor.hideFields (Assoc.merge (Assoc.merge current context) fields) =
      redactor.hideFields (Assoc.merge (Assoc.merge current' context') fields') := by
    rw [Redactor.hideFields_merge, Redactor.hideFields_merge, Redactor.hideFields_merge,
      Redactor.hideFields_merge, hcurrent, hcontext, hfields]
  unfold payload redacted combined
  rw [redactor.fieldValues_eq_of_hide_eq hcombined 1]

theorem Event.SameUpToSecrets.record_eq {e f : Event} (h : e.SameUpToSecrets f) (threshold : Int) :
    e.record threshold = f.record threshold := by
  cases h with
  | plain => rfl
  | log h => rw [record, record, Call.log, Call.log, h.event, h.level, h.payload_eq]

/-- Runs that differ in secrets only leave the same stream. -/
theorem stream_keeps_secrets (rt : Runtime) (threshold : Int) {events others : List Event}
    (h : List.Forall₂ Event.SameUpToSecrets events others) :
    stream rt threshold events = stream rt threshold others := by
  have hrecords : events.filterMap (Event.record threshold) =
      others.filterMap (Event.record threshold) := by
    induction h with
    | nil => rfl
    | cons hevent _ ih => rw [List.filterMap_cons, List.filterMap_cons, hevent.record_eq, ih]
  rw [stream_eq, stream_eq, hrecords]

namespace Sample

/-- The default redactor for ASCII. -/
def redactor : Redactor := ⟨.standard, Char.isAlphanum, fun s => String.ofList (s.toList.map Char.toLower)⟩

/-- A failed login; the user sent this password. -/
def login (password : String) : Call where
  redactor := redactor
  current := [("scan_id", .str "s-1")]
  context := []
  now := ⟨"2024-05-01T08:00:00.000Z", rfl⟩
  level := 30
  event := "login.failed"
  message := none
  fields := [("user", .str "eve\nroot"), ("Password", .str password)]

end Sample

theorem stream_keeps_secrets_login : stream Runtime.sample 20 [.log (Sample.login "first")] =
    stream Runtime.sample 20 [.log (Sample.login "second")] := by
  have hsensitive : Sample.redactor.sensitiveKey "Password" = true := by decide +kernel
  have hfields : ∀ password, Sample.redactor.hideFields (Sample.login password).fields =
      [("user", .str "eve\nroot"), ("Password", .null)] := by
    intro password
    have huser : Sample.redactor.sensitiveKey "user" = false := by decide +kernel
    simp [Sample.login, Redactor.hideFields, huser, hsensitive, Redactor.hide]
  exact stream_keeps_secrets Runtime.sample 20 (.cons (.log ⟨rfl, rfl, rfl, rfl, rfl, rfl, rfl,
    (hfields "first").trans (hfields "second").symm⟩) .nil)

/-! ## What a call can put into its line -/

theorem isLineChar_event {event : String} (h : isEventName event = true) :
    ∀ c ∈ event.toList, Redactor.isLineChar c = true := by
  have hchar : ∀ c : Char, isEventChar c = true → Redactor.isLineChar c = true := by
    intro c hc
    refine Redactor.isLineChar_of_visible (decide_eq_true ?_)
    simp only [isEventChar, Bool.or_eq_true, beq_iff_eq] at hc
    rcases hc with ((hc | rfl) | rfl) | rfl
    · simp only [Char.isAlphanum, Char.isAlpha, Char.isUpper, Char.isLower, Char.isDigit,
        Bool.or_eq_true, decide_eq_true_eq, ge_iff_le, UInt32.le_iff_toNat_le,
        Bool.and_eq_true] at hc
      change ((65 ≤ c.toNat ∧ c.toNat ≤ 90) ∨ (97 ≤ c.toNat ∧ c.toNat ≤ 122)) ∨
        (48 ≤ c.toNat ∧ c.toNat ≤ 57) at hc
      omega
    all_goals decide
  unfold isEventName at h
  split at h
  · cases h
  · next c rest hevent =>
    rw [Bool.and_eq_true, Bool.and_eq_true, List.all_eq_true] at h
    have hfirst : isEventChar c = true := by
      rw [isEventChar, Char.isAlphanum, h.1.1]
      rfl
    rw [hevent, List.forall_mem_cons]
    exact ⟨hchar c hfirst, fun c hc => hchar c (h.2 c hc)⟩

theorem isLineChar_levelName (level : Int) :
    ∀ c ∈ (levelName level).toList, Redactor.isLineChar c = true := by
  have hvisible : ∀ l : List Char, l.all Json.visible = true →
      ∀ c ∈ l, Redactor.isLineChar c = true :=
    fun l => Json.forall_of_visible fun _ => Redactor.isLineChar_of_visible
  unfold levelName
  split_ifs
  · exact hvisible _ rfl
  · exact hvisible _ rfl
  · exact hvisible _ rfl
  · exact hvisible _ rfl
  · exact hvisible _ rfl
  · exact hvisible _ rfl
  · have hnumber : (String.ofList (Json.intRepr level)).toList = Json.intRepr level :=
      String.toList_ofList
    rw [String.toList_append, List.forall_mem_append, hnumber]
    exact ⟨hvisible _ rfl, fun c hc => Redactor.isLineChar_of_visible
      (Json.visible_of_isNumberChar (Json.intRepr_chars level c hc))⟩

theorem isLineChar_stamp (now : Stamp) : ∀ c ∈ now.val.toList, Redactor.isLineChar c = true := by
  intro c hc
  have hstamp := List.all_eq_true.mp now.property c hc
  rw [isStampChar, Bool.or_eq_true, List.contains_iff_mem] at hstamp
  refine Redactor.isLineChar_of_visible ?_
  rcases hstamp with hdigit | hmark
  · exact Json.visible_of_isNumberChar (by rw [isNumberChar, hdigit]; rfl)
  · exact Json.forall_of_visible (fun _ h => h) rfl c hmark

namespace Call

variable (c : Call)

theorem logged_redacted : c.redactor.Logged c.redactor.config.maxDepth (.obj c.redacted) := by
  have hpos := c.redactor.config.depth_range.1
  have hvalue := c.redactor.logged_value (.dict c.combined) 0
  rw [Redactor.value, Redactor.shallow, if_neg (by omega), Nat.sub_zero] at hvalue
  exact hvalue

/-- The entries of a payload: the caller's, and one for each thing that the logger says. -/
theorem forall_mem_payload {P : String × Json → Prop} (hredacted : ∀ e ∈ c.redacted, P e)
    (hnow : P ("timestamp", .str c.now.val)) (hlevel : P ("level", .str (levelName c.level)))
    (hevent : P ("event", .str c.event))
    (hmessage : ∀ message, P ("message", .str (c.redactor.text message))) :
    ∀ e ∈ c.payload, P e := by
  have hlogger : ∀ e ∈ Assoc.merge c.redacted [("timestamp", .str c.now.val),
      ("level", .str (levelName c.level)), ("event", .str c.event)], P e := by
    refine Assoc.forall_mem_merge hredacted ?_
    rw [List.forall_mem_cons, List.forall_mem_cons, List.forall_mem_singleton]
    exact ⟨hnow, hlevel, hevent⟩
  unfold payload
  split
  · next message _ =>
    intro e he
    rcases Assoc.mem_insert he with rfl | he
    · exact hmessage message
    · exact hlogger e he
  · exact hlogger

theorem length_payload : c.payload.length ≤ c.redacted.length + 4 := by
  have hmerge := Assoc.length_merge_le [("timestamp", Json.str c.now.val),
    ("level", .str (levelName c.level)), ("event", .str c.event)] c.redacted
  unfold payload
  split
  · exact (Assoc.length_insert_le _ _ _).trans (Nat.succ_le_succ hmerge)
  · exact hmerge.trans (Nat.le_succ _)

/-- What the logger says about an event cannot be said by a field. -/
theorem lookup_payload (key : String) : Assoc.lookup key c.payload =
    match c.message with
    | some message =>
      if key = "message" then some (.str (c.redactor.text message)) else
        if key = "event" then some (.str c.event) else
          if key = "level" then some (.str (levelName c.level)) else
            if key = "timestamp" then some (.str c.now.val) else Assoc.lookup key c.redacted
    | none =>
      if key = "event" then some (.str c.event) else
        if key = "level" then some (.str (levelName c.level)) else
          if key = "timestamp" then some (.str c.now.val) else Assoc.lookup key c.redacted := by
  unfold payload
  cases c.message <;> simp [Assoc.lookup_insert, eq_comm (b := key)]

/-- The texts that the logger adds to those of the redactor. -/
def ownTexts : List String :=
  [c.redactor.config.replacement, c.now.val, levelName c.level, c.event]

theorem texts_payload : ∀ t ∈ (Json.obj c.payload).texts,
    t ∈ c.ownTexts ∨ c.redactor.LoggedText t := by
  have hname : ∀ name : String, name.toList.all Json.visible = true → name.length ≤ 64 →
      ∀ v : Json, (∀ t ∈ v.texts, t ∈ c.ownTexts ∨ c.redactor.LoggedText t) →
        ∀ t, t = name ∨ t ∈ v.texts → t ∈ c.ownTexts ∨ c.redactor.LoggedText t := by
    rintro name hvisible hlength v hv t (rfl | ht)
    · exact Or.inr (c.redactor.loggedText_of_visible hvisible hlength)
    · exact hv t ht
  have hstr : ∀ s : String, (s ∈ c.ownTexts ∨ c.redactor.LoggedText s) →
      ∀ t ∈ (Json.str s).texts, t ∈ c.ownTexts ∨ c.redactor.LoggedText t := by
    intro s hs t ht
    rw [Json.texts, List.mem_singleton] at ht
    exact ht ▸ hs
  have hfields : ∀ e ∈ c.payload, ∀ t, t = e.1 ∨ t ∈ e.2.texts →
      t ∈ c.ownTexts ∨ c.redactor.LoggedText t := by
    refine c.forall_mem_payload (fun e he t ht => ?_) ?_ ?_ ?_ fun message => ?_
    · have hlogged := c.logged_redacted.logged t
        (by rw [Json.texts, Json.mem_textsOfFields]; exact ⟨e, he, ht⟩)
      exact hlogged.imp (fun h => by simp [ownTexts, h]) id
    · exact hname "timestamp" rfl (by decide) _ (hstr _ (Or.inl (by simp [ownTexts])))
    · exact hname "level" rfl (by decide) _ (hstr _ (Or.inl (by simp [ownTexts])))
    · exact hname "event" rfl (by decide) _ (hstr _ (Or.inl (by simp [ownTexts])))
    · exact hname "message" rfl (by decide) _ (hstr _ (Or.inr (c.redactor.loggedText_text message)))
  intro t ht
  rw [Json.texts, Json.mem_textsOfFields] at ht
  obtain ⟨e, he, ht⟩ := ht
  exact hfields e he t ht

theorem bounded_payload : Json.Bounded (c.redactor.config.maxCollectionItems + 5)
    c.redactor.config.maxDepth (.obj c.payload) := by
  have hredacted := c.logged_redacted.bounded.mono
    (Nat.add_le_add_left (by decide : 1 ≤ 5) c.redactor.config.maxCollectionItems)
  have hlength := c.length_payload
  have hwidth : c.redacted.length ≤ c.redactor.config.maxCollectionItems + 1 := by
    have h := c.logged_redacted.bounded
    generalize c.redactor.config.maxDepth = depth at h
    cases h with
    | obj h _ => exact h
  generalize c.redactor.config.maxDepth = depth at hredacted ⊢
  cases hredacted with
  | obj _ hfields =>
    exact .obj (by omega)
      (c.forall_mem_payload hfields (.str _) (.str _) (.str _) fun _ => .str _)

end Call

end OsScanner.Observability
