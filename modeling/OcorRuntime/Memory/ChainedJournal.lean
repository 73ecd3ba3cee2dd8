import OcorRuntime.Canonical.JsonLoads
import OcorRuntime.Memory.Item

/-! The two durable journals of the memory (`JournalMemoryVersionLedger` in
`memory/model.py`, `JournalTombstoneStore` in `memory/lifecycle.py`): canonical JSON lines,
each bound to the one before it by its digest. They differ in the name of the payload, in
what is read back from it and in the index it goes into; an instance catches up with the
lines of other writers before it appends. -/
namespace OcorRuntime.Memory
open Canonical Kernel
set_option autoImplicit false
set_option maxHeartbeats 250000

/-! ## Lines -/

def lineFeed : Byte := byte 0x0A
def carriageReturn : Byte := byte 0x0D

/-- `bytes.splitlines()`. -/
def splitLines : Bytes → List Bytes
  | [] => []
  | [b] => if b = lineFeed ∨ b = carriageReturn then [[]] else [[b]]
  | b :: c :: rest =>
    if b = carriageReturn ∧ c = lineFeed then [] :: splitLines rest
    else if b = lineFeed ∨ b = carriageReturn then [] :: splitLines (c :: rest)
    else match splitLines (c :: rest) with
      | [] => [[b]]
      | line :: lines => (b :: line) :: lines

example : splitLines ([0x61, 0x0D, 0x0A, 0x0A, 0x62].map byte) = [[byte 0x61], [], [byte 0x62]] := by decide

/-- `GENESIS`. -/
def genesis : PyStr := py "urn:sha256:" ++ List.replicate 64 (codePoint 0x30)

/-- `canonical_digest`, with the refusal of a value that is no I-JSON. -/
def digestOf (value : PyValue) : Except PyError PyStr := do
  let bytes ← canonicalize value
  return py "urn:sha256:" ++ Sha256.hexdigest bytes

/-- `set(mapping) == names`. -/
def HasKeys (names : List String) (es : List (MappingKey × PyValue)) : Prop :=
  (∀ e ∈ es, e.1 ∈ names.map fun name => MappingKey.str (py name)) ∧
    ∀ name ∈ names, MappingKey.str (py name) ∈ es.map Prod.fst

instance (names : List String) (es : List (MappingKey × PyValue)) : Decidable (HasKeys names es) :=
  inferInstanceAs (Decidable (_ ∧ _))

/-- `mapping[name]`, of a name that is there. -/
def memberOf (es : List (MappingKey × PyValue)) (name : String) : PyValue :=
  (Dict.find es (.str (py name))).getD .none

/-- `hmac.compare_digest(digest, str(given))`: two texts are compared only if both are ASCII. The `str` of a value
that is no text is not a digest. -/
def compareDigest (digest : PyStr) : PyValue → Except PyError Bool
  | .str given =>
    if given.all fun c => c.val < 0x80 then .ok (given = digest)
    else .error ⟨.typeError, "comparing strings with non-ASCII characters is not supported", []⟩
  | _ => .ok false

/-! ## Journals -/

/-- What the two journals differ in, and the index their records go into. -/
structure JournalKind (α μ : Type) where
  /-- The name of the payload in a line. -/
  field : String
  corrupted : String → List ErrorArg → PyError
  toMapping : α → PyValue
  fromMapping : PyValue → Except PyError α
  /-- What an append checks of the record alone. -/
  verify : α → Except PyError Unit
  /-- What an append checks of the record against the index. -/
  conflict : α → μ → Option PyError
  insert : α → μ → μ
  /-- The message for a line whose record the index refuses. -/
  violation : String

/-- One instance over the file: its index and how far it has read. -/
structure Journal (μ : Type) where
  memory : μ
  offset : ℕ
  seq : ℕ
  head : PyStr

def Journal.fresh {μ : Type} (empty : μ) : Journal μ := ⟨empty, 0, 0, genesis⟩

namespace JournalKind
variable {α μ : Type} (k : JournalKind α μ)

/-- `f"...: {exc}"`. -/
def wrapped (text : String) (exc : PyError) : PyError := k.corrupted (text ++ exc.message) exc.args

/-- `append` of the in-memory index. -/
def admitted (a : α) (m : μ) : Except PyError μ := do
  k.verify a
  match k.conflict a m with
  | some error => .error error
  | none => .ok (k.insert a m)

def body (seq prev payload : PyValue) : PyValue :=
  .mapping [(.str (py "seq"), seq), (.str (py "prev"), prev), (.str (py k.field), payload)]

/-- `dict(body, entry_digest=digest)`. -/
def chained (seq prev payload : PyValue) (digest : PyStr) : PyValue :=
  .mapping [(.str (py "seq"), seq), (.str (py "prev"), prev), (.str (py k.field), payload),
    (.str (py "entry_digest"), .str digest)]

/-- The checks of `_apply` up to the payload: the record and the digest of the line. -/
def readLine (j : Journal μ) (line : Bytes) : Except PyError (α × PyStr) := do
  let value ← ((loadIJson (.bytes line)).mapError (k.wrapped "journal entry is not I-JSON: "))
  match value with
  | .mapping es =>
    refuseIf (¬ HasKeys ["seq", "prev", k.field, "entry_digest"] es)
      (k.corrupted "journal entry is not a closed chain entry" [])
    let bytes ← canonicalize value
    refuseIf (bytes ≠ line) (k.corrupted "journal entry is not in canonical form" [])
    refuseIf ((memberOf es "seq").pyEq (.int (j.seq + 1)) = false ∨ (memberOf es "prev").pyEq (.str j.head) = false)
      (k.corrupted "journal chain is broken or reordered" [])
    let digest ← digestOf (k.body (memberOf es "seq") (memberOf es "prev") (memberOf es k.field))
    let same ← compareDigest digest (memberOf es "entry_digest")
    refuseIf (same = false) (k.corrupted "journal entry digest mismatch" [])
    let record ← k.fromMapping (memberOf es k.field)
    return (record, digest)
  | _ => .error (k.corrupted "journal entry is not a closed chain entry" [])

/-- `_apply`: an exception leaves the instance as it was. -/
def applied (j : Journal μ) (line : Bytes) : Except PyError (Journal μ) := do
  let (record, digest) ← k.readLine j line
  let memory ← ((k.admitted record j.memory).mapError (k.wrapped k.violation))
  return { j with memory, seq := j.seq + 1, head := digest }

/-- The loop of `_catch_up`. -/
def applyLines : List Bytes → Op (Journal μ) PyError Unit
  | [] => pure ()
  | line :: lines => do
    let j ← Op.read
    let j' ← Op.lift (k.applied j line)
    Op.update fun _ => { j' with offset := j'.offset + line.length + 1 }
    applyLines lines

/-- `_catch_up`. -/
def catchUp (file : Bytes) : Op (Journal μ) PyError Unit := do
  let j ← Op.read
  let data := file.drop j.offset
  if data = [] then pure ()
  else if data.getLast? ≠ some lineFeed then
    Op.raise (k.corrupted "journal ends with a torn, unacknowledged write" [])
  else k.applyLines (splitLines data)

/-- The instance a new process opens. -/
def opened (empty : μ) (file : Bytes) : Except PyError Unit × Journal μ := k.catchUp file (.fresh empty)

/-- The bytes of the next line, without its end. -/
def line (j : Journal μ) (a : α) : Except PyError Bytes := do
  let seq := PyValue.int (j.seq + 1)
  let digest ← digestOf (k.body seq (.str j.head) (k.toMapping a))
  canonicalize (k.chained seq (.str j.head) (k.toMapping a) digest)

/-- `append`, on the instance and the file. -/
def append (a : α) : Op (Journal μ × Bytes) PyError Unit := fun s =>
  match k.verify a with
  | .error error => (.error error, s)
  | .ok () =>
    match k.catchUp s.2 s.1 with
    | (.error error, j) => (.error error, (j, s.2))
    | (.ok (), j) =>
      match k.conflict a j.memory with
      | some error => (.error error, (j, s.2))
      | none =>
        match k.line j a with
        | .error error => (.error error, (j, s.2))
        | .ok line =>
          -- the line is in the file before it is read back
          let file := s.2 ++ line ++ [lineFeed]
          match k.applied j line with
          | .error error => (.error error, (j, file))
          | .ok j' => (.ok (), ({ j' with offset := j'.offset + (line.length + 1) }, file))

/-! ## Instances over one file -/

/-- The file and the instances that have it open. -/
structure Shared (ι μ : Type) where
  instances : ι → Journal μ
  file : Bytes

/-- What an instance does under the lock of the file. -/
inductive Action (ι α : Type)
  | append (i : ι) (a : α)
  /-- A read that catches up first. -/
  | refresh (i : ι)
  /-- A new process in the place of the instance. -/
  | reopen (i : ι)

section Shared
variable {ι : Type} [DecidableEq ι] (empty : μ)

def Shared.start (ι : Type) (empty : μ) : Shared ι μ := ⟨fun _ => .fresh empty, []⟩

/-- The outcome of an action, and what it leaves. -/
def perform (s : Shared ι μ) : Action ι α → Except PyError Unit × Shared ι μ
  | .append i a =>
    let (outcome, j, file) := k.append a (s.instances i, s.file)
    (outcome, ⟨Function.update s.instances i j, file⟩)
  | .refresh i =>
    let (outcome, j) := k.catchUp s.file (s.instances i)
    (outcome, ⟨Function.update s.instances i j, s.file⟩)
  | .reopen i =>
    let (outcome, j) := k.opened empty s.file
    (outcome, ⟨Function.update s.instances i j, s.file⟩)

def step (s : Shared ι μ) (action : Action ι α) : Shared ι μ := (k.perform empty s action).2

/-- The records whose append returns. -/
def accepted (s : Shared ι μ) (action : Action ι α) : List α :=
  match action, (k.perform empty s action).1 with
  | .append _ a, .ok () => [a]
  | _, _ => []

end Shared

end JournalKind

end OcorRuntime.Memory
