import OcorRuntime.Events.Envelope

/-! The canonical event backbone (`c5/backbone.py`): `publish` writes one line to the console producer
of a Kafka topic, `consume` reads the lines of the console consumer back, and the dedup keys and
watermarks of an instance are a cache of the topic, rebuilt by `_recover_from_journal`. The topic is
an append-only list of keyed records; what each command of a call answers is an argument of the call. -/
namespace OcorRuntime.Events
open StandardJson
set_option autoImplicit false
set_option maxHeartbeats 250000
set_option maxRecDepth 120000

/-! ## Text of the standard library -/

def bar : CodePoint := codePoint 0x7C
def newline : CodePoint := codePoint 0x0A
def carriageReturn : CodePoint := codePoint 0x0D

/-- The characters that end a line for `str.splitlines`. -/
def IsLineBreak (c : CodePoint) : Prop :=
  c.val ∈ [0x0A, 0x0B, 0x0C, 0x0D, 0x1C, 0x1D, 0x1E, 0x85, 0x2028, 0x2029]

instance (c : CodePoint) : Decidable (IsLineBreak c) := inferInstanceAs (Decidable (_ ∈ _))

/-- A character in front of the lines that follow it. -/
def prepend (c : CodePoint) : List PyStr → List PyStr
  | [] => [[c]]
  | line :: lines => (c :: line) :: lines

/-- `str.splitlines()`; a carriage return and a newline are one end. -/
def splitlines : PyStr → List PyStr
  | [] => []
  | [c] => if IsLineBreak c then [[]] else [[c]]
  | c :: d :: rest =>
    if c = carriageReturn ∧ d = newline then [] :: splitlines rest
    else if IsLineBreak c then [] :: splitlines (d :: rest)
    else prepend c (splitlines (d :: rest))

example : splitlines (py "a\r\n\nb\x0bc") = [py "a", [], py "b", py "c"] := by decide

/-- `str.split("|", maxsplit)`. -/
def splitBars : ℕ → PyStr → List PyStr
  | 0, s => [s]
  | limit + 1, s =>
    if bar ∈ s then s.takeWhile (· ≠ bar) :: splitBars limit ((s.dropWhile (· ≠ bar)).drop 1) else [s]

/-- The decimal digits of the Unicode character database start at these zeros. -/
def decimalZeros : List ℕ := [0x30, 0x660, 0x6F0, 0x7C0, 0x966, 0x9E6, 0xA66, 0xAE6, 0xB66, 0xBE6, 0xC66, 0xCE6, 0xD66,
  0xDE6, 0xE50, 0xED0, 0xF20, 0x1040, 0x1090, 0x17E0, 0x1810, 0x1946, 0x19D0, 0x1A80, 0x1A90, 0x1B50, 0x1BB0, 0x1C40,
  0x1C50, 0xA620, 0xA8D0, 0xA900, 0xA9D0, 0xA9F0, 0xAA50, 0xABF0, 0xFF10, 0x104A0, 0x10D30, 0x11066, 0x110F0, 0x11136,
  0x111D0, 0x112F0, 0x11450, 0x114D0, 0x11650, 0x116C0, 0x11730, 0x118E0, 0x11950, 0x11C50, 0x11D50, 0x11DA0, 0x11F50,
  0x16A60, 0x16AC0, 0x16B50, 0x1D7CE, 0x1D7D8, 0x1D7E2, 0x1D7EC, 0x1D7F6, 0x1E140, 0x1E2F0, 0x1E4F0, 0x1E950, 0x1FBF0]

def decimalDigit (c : CodePoint) : Option ℕ :=
  (decimalZeros.find? fun first => first ≤ c.val ∧ c.val < first + 10).map fun first => c.val - first

/-- The digits of an integer literal, with single underscores between them. -/
def literalDigits : Bool → PyStr → Option (List ℕ)
  | afterDigit, [] => if afterDigit then some [] else none
  | afterDigit, c :: rest =>
    if c.val = 0x5F then (if afterDigit then literalDigits false rest else none)
    else do
      let digit ← decimalDigit c
      let digits ← literalDigits true rest
      return digit :: digits

/-- The white space `int` skips at both ends. -/
def isLiteralSpace (c : CodePoint) : Bool := (0x09 ≤ c.val && c.val ≤ 0x0D) || c.val == 0x20 || (127 ≤ c.val && isSpace c)

/-- `int(text)`; `none` is its `ValueError`. -/
def intOf (text : PyStr) : Option ℤ :=
  let body := ((text.dropWhile isLiteralSpace).reverse.dropWhile isLiteralSpace).reverse
  let neg := body.head?.map Fin.val = some 0x2D
  let digits := if neg ∨ body.head?.map Fin.val = some 0x2B then body.drop 1 else body
  match literalDigits false digits with
  | some ds =>
    if maxStrDigits < ds.length then none
    else
      let n : ℕ := ds.foldl (fun acc d => acc * 10 + d) 0
      some (if neg then -(n : ℤ) else n)
  | none => none

example : intOf (py " -1_0 ") = some (-10) ∧ intOf (py "1__0") = none := by decide

/-! ## The topic and its two console tools -/

structure TopicRecord where
  key : PyStr
  value : PyStr
deriving DecidableEq

/-- The lines of an input that ends with a newline. -/
def inputLines : PyStr → List PyStr
  | [] => []
  | c :: rest => if c = newline then [] :: inputLines rest else prepend c (inputLines rest)

/-- `parse.key=true` with `key.separator=|`: a line without a separator stops the producer. -/
def parseMessage (line : PyStr) : Option TopicRecord :=
  if bar ∈ line then some ⟨line.takeWhile (· ≠ bar), (line.dropWhile (· ≠ bar)).drop 1⟩ else none

/-- The records of the lines up to the first one that is no message, and whether there is none. -/
def readMessages : List PyStr → List TopicRecord × Bool
  | [] => ([], true)
  | line :: lines =>
    match parseMessage line with
    | some record => (record :: (readMessages lines).1, (readMessages lines).2)
    | none => ([], false)

/-- The broker's partitioner: the topic has three partitions, and a key always goes to the same one. -/
structure Broker where
  partitionOf : PyStr → Fin 3

variable (broker : Broker)

/-- The offset of the record at an index, a 64-bit number: the records of its partition before it. -/
def Broker.offsetOf (topic : List TopicRecord) (index : ℕ) (key : PyStr) : ℕ :=
  ((topic.take index).filter fun r => broker.partitionOf r.key = broker.partitionOf key).length % 2 ^ 63

/-- One record as the console consumer prints it. -/
def Broker.printed (topic : List TopicRecord) (index : ℕ) (r : TopicRecord) : PyStr :=
  py "Partition:" ++ natText (broker.partitionOf r.key).val ++ py "|Offset:" ++
    natText (broker.offsetOf topic index r.key) ++ py "|" ++ r.key ++ py "|" ++ r.value ++ [newline]

/-- The records a consumer prints, by their index in the topic: each once, in any order of the partitions. -/
structure Delivery where
  indices : List ℕ
  nodup : indices.Nodup

/-- The standard output of the console consumer. -/
def Broker.output (topic : List TopicRecord) (delivery : Delivery) : PyStr :=
  delivery.indices.flatMap fun index => (topic[index]?.map (broker.printed topic index)).getD []

/-! ## Consuming -/

structure DeliveredRecord where
  partition : ℤ
  offset : ℤ
  envelope : CanonicalIngestionEnvelope
deriving DecidableEq

def valueError (message : String) : EventError := .builtin ⟨.valueError, message, []⟩

def intField (label : String) (part : PyStr) : Except EventError ℤ :=
  orRaise (intOf (if py label <+: part then part.drop (py label).length else part))
    (valueError "invalid literal for int() with base 10")

/-- One line of the consumer's output; a line that does not name a partition is skipped. -/
def readLine (line : PyStr) : Except EventError (Option DeliveredRecord) :=
  if py "Partition:" <+: line then
    match splitBars 3 line with
    | [partitionPart, offsetPart, _, payload] => do
      let value ← (loads payload).mapError .builtin
      let partition ← intField "Partition:" partitionPart
      let offset ← intField "Offset:" offsetPart
      let envelope ← CanonicalIngestionEnvelope.fromMapping value
      return some { partition, offset, envelope }
    | _ => .error (valueError "not enough values to unpack (expected 4)")
  else .ok none

def readLines (lines : List PyStr) : Except EventError (List DeliveredRecord) := do
  let records ← lines.mapM readLine
  return records.filterMap id

/-- `consume`, on what the console consumer printed. -/
def consume (stdout : PyStr) (count : ℕ) : Except EventError (List DeliveredRecord) := do
  let records ← readLines (splitlines stdout)
  refuseIf (records.length ≠ count) (.kafka "expected %d records, received %d" [.int count, .int records.length])
  return records

/-! ## Publishing -/

structure QuarantinedEnvelope where
  reasonCode : String
  raw : PyValue
deriving DecidableEq

/-- An instance, and the topic it is the active producer of. -/
structure CanonicalEventBackbone where
  lastSequence : Dict (PyStr × PyStr) ℤ := .empty
  seenIdempotencyKeys : List (PyStr × PyStr) := []
  quarantine : List QuarantinedEnvelope := []
  recovered : Bool := false
  topic : List TopicRecord := []
deriving DecidableEq

/-- A command that does not return its output: a non-zero exit, or the timeout of `subprocess.run`. -/
inductive CommandFault
  | exit
  | timeout
deriving DecidableEq

def CommandFault.error : CommandFault → EventError
  | .exit => .kafka "command failed" []
  | .timeout => .timeoutExpired

/-- How the producer command of a call ends, and whether its records were appended. -/
inductive ProducerOutcome
  | succeeded
  | failed (fault : CommandFault) (appended : Bool)
deriving DecidableEq

/-- What the commands of one call answer. -/
structure Replies where
  earliest : Option CommandFault := none
  latest : Option CommandFault := none
  samePartitions : Bool := true
  /-- What the consumer prints; `none` is its timeout. -/
  delivered : Option Delivery
  produced : ProducerOutcome

def command (fault : Option CommandFault) : Op CanonicalEventBackbone EventError Unit :=
  match fault with
  | none => pure ()
  | some fault => Op.raise fault.error

/-- The dedup keys of the records. -/
def seenOf (records : List DeliveredRecord) : List (PyStr × PyStr) :=
  records.map fun r => (r.envelope.governedContextDigest, r.envelope.idempotencyKey)

/-- The highest sequence of each aggregate in each context. -/
def lastOf (records : List DeliveredRecord) : Dict (PyStr × PyStr) ℤ :=
  records.foldl (fun last r =>
    let key := (r.envelope.governedContextDigest, r.envelope.aggregateRef)
    let sequence := r.envelope.sequence.value
    last.set key (max sequence ((last.get? key).getD sequence))) .empty

def journalRecords (replies : Replies) (b : CanonicalEventBackbone) : Except EventError (List DeliveredRecord) :=
  if b.topic.length = 0 then .ok []
  else
    match replies.delivered with
    | none => .error .timeoutExpired
    | some delivery =>
      match consume (broker.output b.topic delivery) b.topic.length with
      | .ok records => .ok records
      | .error error =>
        .error (if error.unreadable then .kafka "journal topic %r holds an unreadable record: %s" [] else error)

/-- `_recover_from_journal`. -/
def recoverFromJournal (replies : Replies) : Op CanonicalEventBackbone EventError Unit := do
  command replies.earliest
  command replies.latest
  Op.lift (refuseIf (replies.samePartitions = false) (.kafka "journal topic %r changed partitions during recovery" []))
  let b ← Op.read
  let records ← Op.lift (journalRecords broker replies b)
  Op.update fun b => { b with seenIdempotencyKeys := seenOf records, lastSequence := lastOf records, recovered := true }

def registeredSchemas : List PyStr := [py "urn:ocor:schema:canonical-ingestion-envelope:1"]

def quarantined (reasonCode : String) (raw : PyValue) : Op CanonicalEventBackbone EventError Unit :=
  Op.update fun b => { b with quarantine := b.quarantine ++ [⟨reasonCode, raw⟩] }

/-- The line `publish` hands to the producer. -/
def lineOf (envelope : CanonicalIngestionEnvelope) : Except PyError PyStr := do
  let text ← dumps envelope.toMapping
  return envelope.aggregateRef ++ py "|" ++ text

/-- `kafka-console-producer` with the given input. A text with a lone surrogate is not encoded, so nothing is sent. -/
def produce (input : PyStr) (outcome : ProducerOutcome) : Op CanonicalEventBackbone EventError Unit := fun b =>
  let messages := readMessages (inputLines input)
  let appended := { b with topic := b.topic ++ messages.1 }
  if Scalar input then
    match outcome with
    | .succeeded => (if messages.2 then .ok () else .error CommandFault.exit.error, appended)
    | .failed fault true => (.error fault.error, appended)
    | .failed fault false => (.error fault.error, b)
  else (.error (valueError "surrogates not allowed"), b)

/-- A write that failed with `KafkaBackboneError` may be durable: the cache is rebuilt before the next publish. -/
def forgetUnacknowledged (error : EventError) : Op CanonicalEventBackbone EventError Unit :=
  match error with
  | .kafka message args => fun b => (.error (.kafka message args), { b with recovered := false })
  | error => Op.raise error

def ensureRecovered (replies : Replies) : Op CanonicalEventBackbone EventError Unit := do
  let b ← Op.read
  if b.recovered then return () else recoverFromJournal broker replies

/-- Check, write and update, on a cache that covers the journal. -/
def publishRecovered (envelope : CanonicalIngestionEnvelope) (replies : Replies) :
    Op CanonicalEventBackbone EventError Unit := do
  let b ← Op.read
  let context := envelope.governedContextDigest
  if (context, envelope.idempotencyKey) ∈ b.seenIdempotencyKeys then return ()
  let last := b.lastSequence.get? (context, envelope.aggregateRef)
  if last.any fun last => envelope.sequence.value ≤ last then
    quarantined "OUT_OF_ORDER" envelope.toMapping
    Op.raise (.backbone "OUT_OF_ORDER" "sequence %d does not advance past %d for %r"
      [.int envelope.sequence.value, .int (last.getD 0), .text envelope.aggregateRef])
  let line ← Op.lift ((lineOf envelope).mapError .builtin)
  Op.guarded (produce (line ++ [newline]) replies.produced) forgetUnacknowledged
  Op.update fun b => { b with
    lastSequence := b.lastSequence.set (context, envelope.aggregateRef) envelope.sequence.value
    seenIdempotencyKeys := b.seenIdempotencyKeys ++ [(context, envelope.idempotencyKey)] }

/-- The part of `publish` that runs under the lock. -/
def publishLocked (envelope : CanonicalIngestionEnvelope) (replies : Replies) :
    Op CanonicalEventBackbone EventError Unit := do
  ensureRecovered broker replies
  publishRecovered envelope replies

def publish (envelope : CanonicalIngestionEnvelope) (replies : Replies) :
    Op CanonicalEventBackbone EventError Unit := do
  if envelope.schemaRef ∉ registeredSchemas then
    quarantined "UNKNOWN_SCHEMA" envelope.toMapping
    Op.raise (.backbone "UNKNOWN_SCHEMA" "%r is not a registered schema" [.text envelope.schemaRef])
  if envelope.governedContextDigest = [] then
    quarantined "MISSING_CONTEXT" envelope.toMapping
    Op.raise (.backbone "MISSING_CONTEXT" "governed_context_digest must be a non-empty string" [])
  publishLocked broker envelope replies

def publishFromMapping (raw : List (MappingKey × PyValue)) (replies : Replies) :
    Op CanonicalEventBackbone EventError Unit :=
  match CanonicalIngestionEnvelope.fromMapping (.mapping raw) with
  | .ok envelope => publish broker envelope replies
  | .error (.backbone reasonCode message args) => do
    quarantined reasonCode (.mapping raw)
    Op.raise (.backbone reasonCode message args)
  | .error error => Op.raise error

end OcorRuntime.Events
