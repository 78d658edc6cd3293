import Mathlib
import OsScanner.Lib.Threads
import OsScanner.Json.Value
import OsScanner.Storage.Texts

/-!
# The osquery adapter

`app/tools/osquery/adapter.py`: registered queries are looked up in a cache, singleton queries are
batched into one statement, and the units that remain run in a pool of threads. The clock, the
executable and its runner are operations of the threads; so are the two blocks under the lock of
the cache. What the decoder of the standard library and the host do is given.
-/

namespace OsScanner.Tools

open Lib Lib.Check Storage

/-! ## Texts -/

/-- `_CONTROL_CHARACTERS` -/
def isControlCharacter (c : Char) : Bool :=
  decide (c.toNat ≤ 8 ∨ c.toNat = 11 ∨ c.toNat = 12 ∨ (14 ≤ c.toNat ∧ c.toNat ≤ 31) ∨ c.toNat = 127)

/-- `clean_text(value, maximum=…)` -/
def cleanText (value : String) (maximum : Nat := 4096) : String :=
  let kept := value.toList.filter fun c => !isControlCharacter c
  let spaced := kept.map fun c => if c = '\r' ∨ c = '\n' then ' ' else c
  String.ofList ((strip (String.ofList spaced)).toList.take maximum)

def isIdentifierChar (c : Char) : Bool := c.isAlphanum || c == '_'

/-- `_IDENTIFIER_PATTERN` -/
def isSqlIdentifier (text : String) : Bool :=
  match text.toList with
  | [] => false
  | c :: rest => isIdentifierChar c && !c.isDigit && rest.all isIdentifierChar

/-! ## Queries -/

/-- `QueryDefinition`, with what it checks save the shape of the statement. -/
structure QueryDefinition where
  identifier : String
  category : String
  sql : String
  maximumRows : Nat := 10000
  batchColumns : List String := []
  cacheTtlSeconds : ℚ := 0
  identifier_valid : isSqlIdentifier identifier = true := by decide +kernel
  category_length : 1 ≤ category.length ∧ category.length ≤ 128 := by decide +kernel
  rows_range : 1 ≤ maximumRows ∧ maximumRows ≤ 100000 := by decide
  columns_valid : ∀ column ∈ batchColumns, isSqlIdentifier column = true := by decide +kernel
  columns_nodup : batchColumns.Nodup := by decide +kernel
  columns_singleton : batchColumns ≠ [] → maximumRows = 1 := by decide +kernel
  ttl_range : 0 ≤ cacheTtlSeconds ∧ cacheTtlSeconds ≤ 3600 := by norm_num

/-- `_query_sql(definition)` -/
def QueryDefinition.querySql (definition : QueryDefinition) : String :=
  let text := (strip definition.sql).toList
  let text := if text.getLast? = some ';' then text.dropLast else text
  String.ofList (text.rdropWhile isSpace)

/-! ## Executions -/

abbrev Row := JsonObject

inductive ToolState where
  | success
  | partialResult
  | failed
  | unavailable
  | timeout
  deriving DecidableEq, Repr

/-- `ToolExecution` of osquery. -/
structure Execution where
  status : ToolState
  payload : Option (List Row) := none
  durationSeconds : ℚ := 0
  exitCode : Option Int := none
  error : Option String := none
  metadata : JsonObject := []

/-- `_copy_execution(execution, …)` -/
def Execution.copy (execution : Execution) (metadata : JsonObject) : Execution :=
  { execution with
    metadata := metadata.foldl (fun all field => all.set field.1 field.2) execution.metadata }

structure CommandResult where
  returncode : Option Int
  stdout : String
  stderr : String := ""
  durationSeconds : ℚ := 0
  timedOut : Bool := false
  stdoutTruncated : Bool := false

/-- What `runner.run` does. -/
inductive RunOutcome where
  /-- `ToolUnavailableError` -/
  | unavailable
  /-- An `OSError` or a `ValueError`. -/
  | raised (message : String)
  | finished (result : CommandResult)

/-- What the standard library makes of texts. -/
structure JsonLibrary where
  /-- `json.loads(text)`; of a `ValueError` that is no `JSONDecodeError` it has the text. -/
  loads : String → Except (Option String) Json
  /-- `int(text)`, absent where it raises. -/
  int : String → Option Int
  /-- `str(value)` -/
  str : Json → String

/-! ## Rows -/

def cleanValue : Json → Json
  | .str s => .str (cleanText s 8192)
  | value => value

def isNested : Json → Bool
  | .arr _ | .obj _ => true
  | _ => false

def parseField (row : Row) (field : String × Json) : Except String Row :=
  let key := cleanText field.1 128
  if key = "" then .ok row
  else if isNested field.2 then .error "osquery row contains a nested value"
  else .ok (row.set key (cleanValue field.2))

def parseRow (item : Json) : Except String Row :=
  match item with
  | .obj fields => do
    raiseIf (fields.length > 128) "osquery row has too many fields"
    fields.foldlM parseField []
  | _ => .error "osquery rows must be JSON objects"

def parseDocument (document : Json) : Except String (List Row) :=
  match document with
  | .arr items => items.mapM parseRow
  | _ => .error "osquery response must be a JSON array"

/-! ## The cache -/

/-- The text of the query and the fingerprint of the executable. -/
abbrev CacheKey := String × String

structure CacheEntry where
  expiresAt : ℚ
  estimatedBytes : Nat
  execution : Execution

/-- `_cache` and `_cache_bytes` -/
structure Cache where
  entries : List (CacheKey × CacheEntry) := []
  bytes : Int := 0

def Cache.remove (cache : Cache) (drop : CacheKey × CacheEntry → Bool) : Cache where
  entries := cache.entries.filter fun e => !drop e
  bytes := cache.bytes - ((cache.entries.filter drop).map fun e => (e.2.estimatedBytes : Int)).sum

def Cache.append (cache : Cache) (key : CacheKey) (entry : CacheEntry) : Cache where
  entries := cache.entries ++ [(key, entry)]
  bytes := cache.bytes + entry.estimatedBytes

/-- The block of `_cached`: what is expired goes, and an entry that is found becomes the newest. -/
def Cache.lookup (key : CacheKey) (now : ℚ) (cache : Cache) : Option Execution × Cache :=
  let cache := cache.remove fun e => decide (e.2.expiresAt ≤ now)
  match Assoc.lookup key cache.entries with
  | none => (none, cache)
  | some entry =>
    let others := cache.remove fun e => decide (e.1 = key)
    (some entry.execution, { entries := others.entries ++ [(key, entry)], bytes := cache.bytes })

/-- `while …: popitem(last=False)` -/
def evict (maxEntries maxBytes : Nat) : List (CacheKey × CacheEntry) → Int → Cache
  | [], bytes => ⟨[], bytes⟩
  | e :: rest, bytes =>
    if rest.length + 1 > maxEntries ∨ bytes > maxBytes then
      evict maxEntries maxBytes rest (bytes - e.2.estimatedBytes)
    else ⟨e :: rest, bytes⟩

/-- The block of `_store_cached`. -/
def Cache.store (maxEntries maxBytes : Nat) (key : CacheKey) (entry : CacheEntry) (cache : Cache) :
    Cache :=
  let cache := (cache.remove fun e => decide (e.1 = key)).append key entry
  evict maxEntries maxBytes cache.entries cache.bytes

/-! ## The operations of the threads -/

inductive Op where
  /-- `_find_executable()` -/
  | find
  /-- `_executable_fingerprint(executable)` -/
  | fingerprint (executable : String)
  /-- `time.monotonic()` -/
  | clock
  | lookup (key : CacheKey) (now : ℚ)
  | store (key : CacheKey) (entry : CacheEntry)
  /-- `runner.run(executable, ("--json", sql), timeout_seconds=…)` -/
  | run (executable sql : String) (timeoutSeconds : Option ℚ)

abbrev Answer : Op → Type
  | .find => Option String
  | .fingerprint _ => String
  | .clock => ℚ
  | .lookup _ _ => Option Execution
  | .store _ _ => Unit
  | .run _ _ _ => RunOutcome

abbrev Task (α : Type) := Program Op Answer α

def findExecutable : Task (Option String) := .request Op.find
def fingerprint (executable : String) : Task String := .request (Op.fingerprint executable)
def clock : Task ℚ := .request Op.clock
def lookup (key : CacheKey) (now : ℚ) : Task (Option Execution) := .request (Op.lookup key now)
def store (key : CacheKey) (entry : CacheEntry) : Task Unit := .request (Op.store key entry)

def runStatement (executable sql : String) (timeoutSeconds : Option ℚ) : Task RunOutcome :=
  .request (Op.run executable sql timeoutSeconds)

/-! ## The adapter -/

/-- `OsqueryAdapter`; its registry has one definition for each identifier. -/
structure OsqueryAdapter where
  library : JsonLibrary
  queries : List QueryDefinition
  maxConcurrency : Nat := 4
  maxOutputBytes : Nat := 8 * 1024 * 1024
  maxCacheEntries : Nat := 64
  maxCacheBytes : Nat := 16 * 1024 * 1024
  queries_nodup : (queries.map QueryDefinition.identifier).Nodup
  concurrency_range : 1 ≤ maxConcurrency ∧ maxConcurrency ≤ 32 := by decide
  output_range : 1024 ≤ maxOutputBytes ∧ maxOutputBytes ≤ 100 * 1024 * 1024 := by decide
  cache_entries_range : 1 ≤ maxCacheEntries ∧ maxCacheEntries ≤ 256 := by decide
  cache_bytes_range : 1024 ≤ maxCacheBytes ∧ maxCacheBytes ≤ 100 * 1024 * 1024 := by decide

def queryMetadata (definition : QueryDefinition) : JsonObject :=
  [("query_id", .str definition.identifier)]

def unavailable (definition : QueryDefinition) : Execution where
  status := .unavailable
  error := some "osquery executable is unavailable"
  metadata := queryMetadata definition

/-- `_failure(query_id, result, error=…)` -/
def failure (definition : QueryDefinition) (result : CommandResult) (error : String) : Execution where
  status := if result.timedOut then .timeout else .failed
  durationSeconds := result.durationSeconds
  exitCode := result.returncode
  error := some error
  metadata := queryMetadata definition

def exhausted (definition : QueryDefinition) (error : String) : Execution where
  status := .timeout
  error := some error
  metadata := queryMetadata definition

/-- `text or default` -/
def textOr (text default : String) : String := if text = "" then default else text

/-- `_cache_key(query_id, executable)` -/
def cacheKey (definition : QueryDefinition) (fingerprint : String) : CacheKey :=
  (definition.identifier ++ ":" ++ definition.sql, fingerprint)

namespace OsqueryAdapter

variable (self : OsqueryAdapter)

/-- `parse(output)` -/
def parse (output : String) : Except String (List Row) :=
  if output.length > self.maxOutputBytes then .error "JSON response exceeds the adapter limit"
  else
    match self.library.loads output with
    | .error message => .error (message.getD "tool returned invalid JSON")
    | .ok document => parseDocument document

/-- `_estimated_execution_bytes(execution)` -/
def estimatedExecutionBytes (execution : Execution) : Nat :=
  256 + ((execution.payload.getD []).map fun row => 128 + (row.map fun field =>
    64 + field.1.utf8ByteSize +
      if field.2 = .null then 4 else (self.library.str field.2).utf8ByteSize).sum).sum

/-- `_cached(query_id, executable)` -/
def cached (definition : QueryDefinition) (executable : String) : Task (Option Execution) :=
  if definition.cacheTtlSeconds ≤ 0 then pure none
  else do
    let fingerprint ← fingerprint executable
    let now ← clock
    let found ← lookup (cacheKey definition fingerprint) now
    pure (found.map fun execution =>
      { execution.copy [("cache_hit", .bool true)] with durationSeconds := 0 })

/-- `_store_cached(query_id, executable, execution)` -/
def storeCached (definition : QueryDefinition) (executable : String) (execution : Execution) :
    Task Unit :=
  if definition.cacheTtlSeconds ≤ 0 ∨ execution.status ≠ .success then pure ()
  else do
    let fingerprint ← fingerprint executable
    let estimatedBytes := self.estimatedExecutionBytes execution
    if estimatedBytes > self.maxCacheBytes then pure ()
    else do
      let now ← clock
      store (cacheKey definition fingerprint)
        { expiresAt := now + definition.cacheTtlSeconds
          estimatedBytes := estimatedBytes
          execution := execution.copy [("cache_hit", .bool false)] }

/-! ### One query -/

/-- What `execute` makes of a run that finished. -/
def judge (definition : QueryDefinition) (result : CommandResult) : Execution :=
  if result.timedOut then failure definition result "osquery execution timed out"
  else if result.returncode ≠ some 0 then
    failure definition result (textOr (cleanText result.stderr 1024) "osquery execution failed")
  else if result.stdoutTruncated then
    failure definition result "osquery output exceeded the size limit"
  else
    match self.parse result.stdout with
    | .error e => failure definition result e
    | .ok rows =>
      if rows.length > definition.maximumRows then
        failure definition result "osquery row limit exceeded"
      else
        { status := .success
          payload := some rows
          durationSeconds := result.durationSeconds
          exitCode := result.returncode
          metadata := [("query_id", .str definition.identifier),
            ("category", .str definition.category), ("count", .int rows.length)] }

/-- `execute(query_id, timeout_seconds=…)` -/
def execute (definition : QueryDefinition) (timeoutSeconds : Option ℚ) : Task Execution := do
  match ← findExecutable with
  | none => pure (unavailable definition)
  | some executable =>
    match ← cached definition executable with
    | some execution => pure execution
    | none =>
      match ← runStatement executable definition.sql timeoutSeconds with
      | .unavailable => pure (unavailable definition)
      | .raised message =>
        pure
          { status := .failed
            error := some (cleanText message 512)
            metadata := queryMetadata definition }
      | .finished result => do
        -- only a success is stored
        let execution := self.judge definition result
        self.storeCached definition executable execution
        pure execution

/-! ### Batches -/

/-- `_BatchPlan`: of each query the alias of its count, and its columns with their aliases. -/
structure BatchPlan where
  queries : List QueryDefinition
  sql : String
  aliases : List (String × List (String × String))

def tableAlias (index : Nat) : String := "scanner_q" ++ toString index
def countAlias (index : Nat) : String := "__scanner_count_" ++ toString index

def valueAlias (index column : Nat) : String :=
  "__scanner_value_" ++ toString index ++ "_" ++ toString column

def queryAliases (index : Nat) (definition : QueryDefinition) : String × List (String × String) :=
  (countAlias index, definition.batchColumns.zipIdx.map fun e => (e.1, valueAlias index e.2))

def cte (index : Nat) (definition : QueryDefinition) : String :=
  tableAlias index ++ " AS (" ++ definition.querySql ++ ")"

/-- What is selected for one query: the count, and each column of the first row. -/
def selections (index : Nat) (definition : QueryDefinition) : List String :=
  let aliases := queryAliases index definition
  ("(SELECT COUNT(*) FROM " ++ tableAlias index ++ ") AS \"" ++ aliases.1 ++ "\"") ::
    aliases.2.map fun e => "(SELECT \"" ++ e.1 ++ "\" FROM " ++ tableAlias index ++
      " LIMIT 1) AS \"" ++ e.2 ++ "\""

def isBatchable (definition : QueryDefinition) : Bool :=
  decide (definition.maximumRows = 1 ∧ definition.batchColumns ≠ [])

def batchSqlLimitBytes : Nat := 7900
def batchFieldLimit : Nat := 120

/-- `_make_batch_plan(query_ids)` -/
def makeBatchPlan (queries : List QueryDefinition) : Option BatchPlan :=
  let numbered := queries.zipIdx
  let selected := numbered.flatMap fun e => selections e.2 e.1
  let sql := "WITH " ++ ", ".intercalate (numbered.map fun e => cte e.2 e.1) ++ " SELECT " ++
    ", ".intercalate selected ++ ";"
  if queries.length < 2 then none
  else if queries.any (fun definition => !isBatchable definition) then none
  else if sql.utf8ByteSize > batchSqlLimitBytes then none
  else if selected.length > batchFieldLimit then none
  else some ⟨queries, sql, numbered.map fun e => queryAliases e.2 e.1⟩

/-- The units so far, and the batch that is being filled. -/
structure Units where
  units : List (List QueryDefinition) := []
  pending : List QueryDefinition := []

/-- `flush()` -/
def Units.flush (state : Units) : Units :=
  if state.pending = [] then state else ⟨state.units ++ [state.pending], []⟩

def Units.add (state : Units) (definition : QueryDefinition) : Units :=
  if !isBatchable definition then
    let flushed := state.flush
    { flushed with units := flushed.units ++ [[definition]] }
  else
    let candidate := state.pending ++ [definition]
    if candidate.length > 1 ∧ (makeBatchPlan candidate).isNone then
      { state.flush with pending := [definition] }
    else { state with pending := candidate }

/-- `_batch_units(query_ids)` -/
def batchUnits (queries : List QueryDefinition) : List (List QueryDefinition) :=
  (queries.foldl Units.add {}).flush.units

/-- `_batch_count(value)` -/
def batchCount (value : Json) : Option Nat :=
  let count := match value with
    | .int n => some n
    | .str s => self.library.int s
    | _ => none
  match count with
  | some 0 => some 0
  | some 1 => some 1
  | _ => none

/-- The execution of one query of a batch, from the combined row. -/
def batchedExecution (plan : BatchPlan) (result : CommandResult) (combined : Row)
    (definition : QueryDefinition) (aliases : String × List (String × String)) : Option Execution :=
  (self.batchCount (combined.get aliases.1)).map fun count : Nat =>
    { status := .success
      payload := some (if count = 1 then [aliases.2.map fun e => (e.1, combined.get e.2)] else [])
      durationSeconds := result.durationSeconds / plan.queries.length
      exitCode := result.returncode
      metadata := [("query_id", .str definition.identifier),
        ("category", .str definition.category), ("count", .int count), ("batched", .bool true),
        ("batch_size", .int plan.queries.length), ("cache_hit", .bool false)] }

/-- `set(combined) == expected` -/
def hasExpected (plan : BatchPlan) (combined : Row) : Bool :=
  let expected := plan.aliases.flatMap fun e => e.1 :: e.2.map Prod.snd
  decide ((∀ field ∈ combined, field.1 ∈ expected) ∧ ∀ name ∈ expected, combined.has name = true)

/-- The executions of a batch that ran to its end, if they can be told apart. -/
def batchedExecutions (plan : BatchPlan) (result : CommandResult) :
    Option (List (QueryDefinition × Execution)) :=
  match self.parse result.stdout with
  | .ok [combined] =>
    if hasExpected plan combined then
      (plan.queries.zip plan.aliases).mapM fun e =>
        (self.batchedExecution plan result combined e.1 e.2).map fun execution => (e.1, execution)
    else none
  | _ => none

def failedBatch (plan : BatchPlan) (result : CommandResult) (error : String) :
    List (QueryDefinition × Execution) :=
  plan.queries.map fun definition => (definition, { failure definition result error with
    durationSeconds := result.durationSeconds / plan.queries.length })

/-- `_execute_batch(plan, timeout_seconds=…)` -/
def executeBatch (plan : BatchPlan) (timeoutSeconds : Option ℚ) :
    Task (Option (List (QueryDefinition × Execution))) := do
  match ← findExecutable with
  | none => pure none
  | some executable =>
    match ← runStatement executable plan.sql timeoutSeconds with
    | .unavailable => pure none
    | .raised _ => pure none
    | .finished result =>
      if result.timedOut then
        pure (some (failedBatch plan result "osquery batched execution timed out"))
      else if result.returncode ≠ some 0 then pure none
      else if result.stdoutTruncated then
        pure (some (failedBatch plan result "osquery batched output exceeded the size limit"))
      else
        match self.batchedExecutions plan result with
        | none => pure none
        | some executions => do
          let _ ← executions.mapM fun e => self.storeCached e.1 executable e.2
          pure (some executions)

/-! ### A selection of queries -/

/-- The timeout that remains, or nothing when the deadline is over. -/
def remainingTimeout (timeoutSeconds deadlineAt : Option ℚ) : Task (Option (Option ℚ)) :=
  match deadlineAt with
  | none => pure (some timeoutSeconds)
  | some deadline => do
    let now ← clock
    let remaining := deadline - now
    if remaining ≤ 0 then pure none
    else pure (some (some (match timeoutSeconds with
      | none => remaining
      | some timeout => min timeout remaining)))

/-- `execute_with_budget(query_id)` -/
def executeWithBudget (timeoutSeconds deadlineAt : Option ℚ) (definition : QueryDefinition) :
    Task Execution := do
  match ← remainingTimeout timeoutSeconds deadlineAt with
  | none =>
    pure (exhausted definition "scan deadline exhausted before osquery query started")
  | some timeout => self.execute definition timeout

def fallBack (timeoutSeconds deadlineAt : Option ℚ) (unit : List QueryDefinition) :
    Task (List (QueryDefinition × Execution)) :=
  unit.mapM fun definition => do
    let execution ← self.executeWithBudget timeoutSeconds deadlineAt definition
    pure (definition, execution.copy [("batch_fallback", .bool true)])

/-- `execute_unit(unit)` -/
def executeUnit (timeoutSeconds deadlineAt : Option ℚ) (unit : List QueryDefinition) :
    Task (List (QueryDefinition × Execution)) :=
  match unit with
  | [definition] => do
    let execution ← self.executeWithBudget timeoutSeconds deadlineAt definition
    pure [(definition, execution)]
  | unit => do
    match ← remainingTimeout timeoutSeconds deadlineAt with
    | none => pure (unit.map fun definition => (definition,
        exhausted definition "scan deadline exhausted before osquery batch started"))
    | some timeout =>
      match makeBatchPlan unit with
      | none => self.fallBack timeoutSeconds deadlineAt unit
      | some plan =>
        match ← self.executeBatch plan timeout with
        | some executions => pure executions
        | none => self.fallBack timeoutSeconds deadlineAt unit

/-- What the calling thread does before the units run. -/
inductive Prepared where
  | raised (message : String)
  | finished (outcomes : List (QueryDefinition × Execution))
  | units (selected : List QueryDefinition) (hits : List (QueryDefinition × Execution))
    (units : List (List QueryDefinition))

/-- The loop over the cache: hits and misses. -/
def splitCached (executable : String) : List QueryDefinition →
    Task (List (QueryDefinition × Execution) × List QueryDefinition)
  | [] => pure ([], [])
  | definition :: rest => do
    let found ← cached definition executable
    let others ← splitCached executable rest
    pure (match found with
      | some execution => ((definition, execution) :: others.1, others.2)
      | none => (others.1, definition :: others.2))

/-- `validate_input(query_id)` -/
def validateInput (queryId : String) : Option QueryDefinition :=
  self.queries.find? fun definition => decide (definition.identifier = queryId)

def prepare (queryIds : List String) (deadlineAt : Option ℚ) : Task Prepared :=
  if queryIds = [] ∨ queryIds.length > self.queries.length then
    pure (.raised "query selection must be non-empty and bounded")
  else if ¬ queryIds.Nodup then pure (.raised "query selection contains duplicates")
  else
    match queryIds.mapM self.validateInput with
    | none => pure (.raised "unknown osquery query identifier")
    | some selected => do
      match ← findExecutable with
      | none => pure (.finished (selected.map fun definition => (definition, unavailable definition)))
      | some executable =>
        match ← remainingTimeout none deadlineAt with
        | none => pure (.finished (selected.map fun definition => (definition,
            exhausted definition "scan deadline exhausted before osquery query started")))
        | some _ => do
          let split ← splitCached executable selected
          pure (.units selected split.1 (batchUnits split.2))

/-- `{query_id: outcomes[query_id] for query_id in selected}`; the last outcome of a query counts. -/
def collect (selected : List QueryDefinition) (outcomes : List (QueryDefinition × Execution)) :
    Except String (List (String × Execution)) :=
  let byId := (outcomes.map fun e => (e.1.identifier, e.2)).reverse
  match selected.mapM fun definition => (Assoc.lookup definition.identifier byId).map fun execution =>
      (definition.identifier, execution) with
  | some collected => .ok collected
  | none => .error "KeyError"

/-! ### Runs -/

variable (env : ∀ op, Answer op → Prop)

/-- What an operation answers and what it makes of the cache; `env` says what the outside may answer. -/
def step : ∀ op, Cache → Answer op → Cache → Prop
  | .lookup key now, cache, answer, cache' => cache.lookup key now = (answer, cache')
  | .store key entry, cache, _, cache' =>
    cache' = cache.store self.maxCacheEntries self.maxCacheBytes key entry
  | .find, cache, answer, cache' => env .find answer ∧ cache' = cache
  | .fingerprint executable, cache, answer, cache' => env (.fingerprint executable) answer ∧ cache' = cache
  | .clock, cache, answer, cache' => env .clock answer ∧ cache' = cache
  | .run executable sql timeout, cache, answer, cache' =>
    env (.run executable sql timeout) answer ∧ cache' = cache

/-- `run_registered(query_ids, timeout_seconds=…, deadline_at=…)`: what it returns or raises, and the
cache before and after it. The bound of the pool only rules out some of the orders. -/
inductive RunRegistered (queryIds : List String) (timeoutSeconds deadlineAt : Option ℚ) :
    Cache → Except String (List (String × Execution)) → Cache → Prop
  | raised {cache cache' : Cache} {message : String}
    (hprepare : Interleaved (self.step env) [self.prepare queryIds deadlineAt] cache
      [.raised message] cache') :
    RunRegistered queryIds timeoutSeconds deadlineAt cache (.error message) cache'
  | finished {cache cache' : Cache} {outcomes : List (QueryDefinition × Execution)}
    (hprepare : Interleaved (self.step env) [self.prepare queryIds deadlineAt] cache
      [.finished outcomes] cache') :
    RunRegistered queryIds timeoutSeconds deadlineAt cache
      (.ok (outcomes.map fun e => (e.1.identifier, e.2))) cache'
  | sequential {cache cache' cache'' : Cache} {selected : List QueryDefinition}
    {hits : List (QueryDefinition × Execution)} {units : List (List QueryDefinition)}
    {executed : List (List (QueryDefinition × Execution))}
    (hprepare : Interleaved (self.step env) [self.prepare queryIds deadlineAt] cache
      [.units selected hits units] cache')
    (hworkers : min self.maxConcurrency units.length ≤ 1)
    (hunits : Interleaved (self.step env)
      [units.mapM (self.executeUnit timeoutSeconds deadlineAt)] cache' [executed] cache'') :
    RunRegistered queryIds timeoutSeconds deadlineAt cache
      (collect selected (hits ++ executed.flatten)) cache''
  | concurrent {cache cache' cache'' : Cache} {selected : List QueryDefinition}
    {hits : List (QueryDefinition × Execution)} {units : List (List QueryDefinition)}
    {executed : List (List (QueryDefinition × Execution))}
    (hprepare : Interleaved (self.step env) [self.prepare queryIds deadlineAt] cache
      [.units selected hits units] cache')
    (hworkers : 1 < min self.maxConcurrency units.length)
    (hunits : Interleaved (self.step env)
      (units.map (self.executeUnit timeoutSeconds deadlineAt)) cache' executed cache'') :
    RunRegistered queryIds timeoutSeconds deadlineAt cache
      (collect selected (hits ++ executed.flatten)) cache''

/-- The caches that calls of an adapter lead to. -/
inductive Lifetime : Cache → Prop
  | fresh : Lifetime {}
  | call {queryIds : List String} {timeoutSeconds deadlineAt : Option ℚ} {cache cache' : Cache}
    {result : Except String (List (String × Execution))} (h : Lifetime cache)
    (hrun : self.RunRegistered env queryIds timeoutSeconds deadlineAt cache result cache') :
    Lifetime cache'

end OsqueryAdapter

end OsScanner.Tools
