import OcorRuntime.Memory.Admission
import OcorRuntime.Memory.TombstoneJournal

/-! Consolidation as a computation on payloads (`memory/consolidation.py`): the assertions
of the inputs, their merge into statements and conflicts, and the payload of a summary and
of its correction. -/
namespace OcorRuntime
set_option autoImplicit false
set_option maxHeartbeats 250000

/-! ## Float arithmetic -/

/-- `x < y` of floats. -/
def FiniteFloat.below (x y : FiniteFloat) : Bool :=
  let signed (z : FiniteFloat) : ℤ := if z.neg then -(z.ratio.1 : ℤ) else z.ratio.1
  signed x * y.ratio.2 < signed y * x.ratio.2

def Binary64.below : Binary64 → Binary64 → Bool
  | .finite x, .finite y => x.below y
  | .infinite true, .finite _ | .finite _, .infinite false | .infinite true, .infinite false => true
  | _, _ => false

/-- `x * y`, of finite floats; a confidence is one. -/
def Binary64.times : Binary64 → Binary64 → Binary64
  | .finite x, .finite y => ofRatio (x.neg != y.neg) (x.ratio.1 * y.ratio.1) (x.ratio.2 * y.ratio.2)
  | _, _ => .nan

/-- `math.floor`. -/
def FiniteFloat.floor (x : FiniteFloat) : ℤ :=
  if x.neg then -((x.ratio.1 + x.ratio.2 - 1) / x.ratio.2 : ℕ) else (x.ratio.1 / x.ratio.2 : ℕ)

namespace Memory
open Canonical Kernel

def consolidationError (reasonCode detailCode message : String) (args : List ErrorArg := []) : PyError :=
  memoryError .consolidation reasonCode detailCode message args

/-- `_schema_error` of the consolidation. -/
def consolidationInvalid (detailCode message : String) (args : List ErrorArg := []) : PyError :=
  consolidationError "MEMORY_SCHEMA_INVALID" detailCode message args

/-! ## Confidence -/

/-- `float(confidence)`. -/
def confidenceFloat : PyValue → Except PyError Binary64
  | .int n => .ok (.ofInt n)
  | .float x => .ok x
  | v => .error ⟨.typeError, "float() argument must be a string or a real number, not '%s'", [.text (py (typeName v))]⟩

/-- `min`, which returns the first of the least. -/
def leastOf {α : Type} (less : α → α → Bool) : List α → Except PyError α
  | [] => .error ⟨.valueError, "min() iterable argument is empty", []⟩
  | a :: rest => .ok (rest.foldl (fun best b => if less b best then b else best) a)

def boundedConfidence (minimum : Binary64) (statements conflicts : ℕ) : Except PyError Binary64 :=
  let total := statements + conflicts
  let ratio := if total = 0 then Binary64.ofInt 0 else .ofRatio false statements total
  match (minimum.times ratio).times (.ofInt 1000000) with
  | .finite x => .ok (.ofRatio (x.floor < 0) x.floor.natAbs 1000000)
  | _ => .error ⟨.valueError, "cannot convert float NaN to integer", []⟩

/-! ## Assertions -/

structure ClaimSource where
  versionRef : PyStr
  itemDigest : PyStr
  contentDigest : PyStr
  confidence : Binary64
  assertions : List (PyStr × PyStr × PyValue)

def ClaimSource.citation (source : ClaimSource) : PyValue :=
  fields [("memory_version_ref", some (.str source.versionRef)), ("item_digest", some (.str source.itemDigest)),
    ("content_digest", some (.str source.contentDigest))]

def unparseable (message : String) : PyError := consolidationInvalid "CONSOLIDATION_INPUT_UNPARSEABLE" message

/-- `isinstance(value, (dict, list))`. -/
def isContainer : PyValue → Bool
  | .mapping _ => true
  | .list _ => true
  | _ => false

def parseAssertion : PyValue → Except PyError (PyStr × PyStr × PyValue)
  | .mapping es =>
    if HasKeys ["subject", "attribute", "value"] es then
      match memberOf es "subject", memberOf es "attribute" with
      | .str (c :: subject), .str (d :: attr) =>
        if isContainer (memberOf es "value") then .error (unparseable "value must be a scalar")
        else .ok (c :: subject, d :: attr, memberOf es "value")
      | _, _ => .error (unparseable "subject and attribute must be strings")
    else .error (unparseable "assertion must be \x7bsubject, attribute, value\x7d")
  | _ => .error (unparseable "assertion must be \x7bsubject, attribute, value\x7d")

def parseAssertions (payload : Bytes) : Except PyError (List (PyStr × PyStr × PyValue)) :=
  match loadIJson (.bytes payload) with
  | .error _ => .error (unparseable "input is not I-JSON")
  | .ok (.mapping es) =>
    if HasKeys ["assertions"] es then
      match memberOf es "assertions" with
      | .list (entry :: raw) => (entry :: raw).mapM parseAssertion
      | _ => .error (unparseable "assertions must be non-empty")
    else .error (unparseable "input must be a closed \x7bassertions\x7d object")
  | .ok _ => .error (unparseable "input must be a closed \x7bassertions\x7d object")

/-! ## Merging -/

/-- `(subject, attribute)`. -/
abbrev ClaimKey := PyStr × PyStr

/-- The order of tuples of texts. -/
def ClaimKey.Le (a b : ClaimKey) : Prop := [a.1, a.2] ≤ [b.1, b.2]

instance : DecidableRel ClaimKey.Le := fun _ _ => inferInstanceAs (Decidable (_ ≤ _))

def sortedKeys (keys : List ClaimKey) : List ClaimKey := keys.insertionSort ClaimKey.Le

/-- A value and the versions that support it, a set. -/
abbrev Support := PyValue × List PyStr

def Support.add (support : Support) (versionRef : PyStr) : Support :=
  if versionRef ∈ support.2 then support else (support.1, support.2 ++ [versionRef])

abbrev ClaimGroups := Dict ClaimKey (Dict Bytes Support)

/-- One pass of the loop of `merge_claims`. -/
def addAssertion (groups : ClaimGroups) (assertion : PyStr × PyStr × PyStr × PyValue) : Except PyError ClaimGroups := do
  let (versionRef, subject, attr, value) := assertion
  let values := (groups.get? (subject, attr)).getD .empty
  let canonical ← canonicalize value
  let support := ((values.get? canonical).getD (value, [])).add versionRef
  return groups.set (subject, attr) (values.set canonical support)

structure Statement where
  subject : PyStr
  attr : PyStr
  value : PyValue
  supportRefs : List PyStr

def Statement.key (s : Statement) : ClaimKey := (s.subject, s.attr)

def Statement.toMapping (s : Statement) : PyValue :=
  fields [("subject", some (.str s.subject)), ("attribute", some (.str s.attr)), ("value", some s.value),
    ("support_refs", some (strings s.supportRefs))]

structure Conflict where
  conflictId : PyStr
  subject : PyStr
  attr : PyStr
  /-- The values in the order of their canonical bytes, each with its sorted support. -/
  alternatives : List Support

def Conflict.key (c : Conflict) : ClaimKey := (c.subject, c.attr)

def alternativeMapping (alternative : Support) : PyValue :=
  fields [("value", some alternative.1), ("support_refs", some (strings alternative.2)),
    ("support_count", some (.int alternative.2.length))]

/-- The entries of a conflict; a summary adds its `dissent_ref`. -/
def Conflict.entries (c : Conflict) : List (String × Option PyValue) :=
  [("conflict_id", some (.str c.conflictId)), ("subject", some (.str c.subject)), ("attribute", some (.str c.attr)),
    ("alternatives", some (.list (c.alternatives.map alternativeMapping))), ("resolution", some (.str (py "UNRESOLVED")))]

structure MergeResult where
  statements : List Statement
  conflicts : List Conflict

/-- `_key_id`. -/
def keyId (key : ClaimKey) : Except PyError PyStr :=
  digestOf (fields [("subject", some (.str key.1)), ("attribute", some (.str key.2))])

/-- The values of a group by their canonical bytes, each with its sorted support. -/
def sortedAlternatives (values : Dict Bytes Support) : List Support :=
  (values.entries.insertionSort fun a b => a.1 ≤ b.1).map fun entry => (entry.2.1, sortedTexts entry.2.2)

/-- One group: agreement is a statement, disagreement a conflict. -/
def mergeGroup (key : ClaimKey) (values : Dict Bytes Support) : Except PyError (Statement ⊕ Conflict) :=
  match values.entries with
  | [(_, value, support)] => .ok (.inl ⟨key.1, key.2, value, sortedTexts support⟩)
  | _ => do
    let conflictId ← keyId key
    return .inr ⟨conflictId, key.1, key.2, sortedAlternatives values⟩

def mergeClaims (sources : List ClaimSource) : Except PyError MergeResult := do
  let assertions := sources.flatMap fun source => source.assertions.map fun assertion => (source.versionRef, assertion)
  let groups ← assertions.foldlM addAssertion .empty
  let merged ← (sortedKeys groups.keys).mapM fun key => mergeGroup key ((groups.get? key).getD .empty)
  return ⟨merged.filterMap Sum.getLeft?, merged.filterMap Sum.getRight?⟩

def uncertaintyRecord (sources : List ClaimSource) (statements conflicts : ℕ) : Except PyError PyValue := do
  let less (a b : ClaimSource) : Bool :=
    a.confidence.below b.confidence || (!b.confidence.below a.confidence && decide (a.versionRef < b.versionRef))
  let weakest ← leastOf less sources
  return fields [("method", some (.str (py "claim-merge-agreement:1.0"))), ("source_count", some (.int sources.length)),
    ("statement_count", some (.int statements)), ("conflict_count", some (.int conflicts)),
    ("weakest_source_ref", some (.str weakest.versionRef))]

/-! ## Payloads -/

def dissentPayload (jobRef : PyStr) (conflict : Conflict) (sources : List ClaimSource) : PyValue :=
  fields [("content_schema_ref", some (.str (py "urn:ocor:memory-content:dissent:1.0"))), ("job_ref", some (.str jobRef)),
    ("conflict", some (fields conflict.entries)), ("sources", some (.list (sources.map ClaimSource.citation)))]

/-- The conflicts of a summary, each with the dissent item that keeps it. -/
def keptConflicts (conflicts : List Conflict) (dissentRefs : List PyStr) : List PyValue :=
  List.zipWith (fun conflict ref => fields (conflict.entries ++ [("dissent_ref", some (.str ref))])) conflicts dissentRefs

def summaryPayload (schema jobRef : PyStr) (algorithm : PyValue) (sources : List ClaimSource) (merged : MergeResult)
    (dissentRefs : List PyStr) (uncertainty : PyValue) : PyValue :=
  fields [("content_schema_ref", some (.str schema)), ("job_ref", some (.str jobRef)), ("algorithm", some algorithm),
    ("sources", some (.list (sources.map ClaimSource.citation))),
    ("statements", some (.list (merged.statements.map Statement.toMapping))),
    ("conflicts", some (.list (keptConflicts merged.conflicts dissentRefs))), ("uncertainty", some uncertainty),
    ("correction", some .none)]

/-! ## Corrections -/

/-- `_string`, of a value. -/
def nonEmptyText (name : String) : PyValue → Except PyError PyStr
  | .str (c :: text) => .ok (c :: text)
  | _ => .error (consolidationInvalid "ENVELOPE_INVALID" "%s must be a non-empty string" [.text (py name)])

/-- `_ref_list`, of texts. -/
def sortedRefs (name : String) (refs : List PyStr) : Except PyError (List PyStr) :=
  if refs.Nodup then .ok (sortedTexts refs)
  else .error (consolidationInvalid "ENVELOPE_INVALID" "%s must not contain duplicates" [.text (py name)])

def refList (name : String) : PyValue → Except PyError (List PyStr)
  | .list (ref :: refs) => do
    let texts ← (ref :: refs).mapM (nonEmptyText name)
    sortedRefs name texts
  | _ => .error (consolidationInvalid "ENVELOPE_INVALID" "%s must be a non-empty array" [.text (py name)])

def correctedStatement : PyValue → Except PyError Statement
  | .mapping es => do
    refuseIf (¬ HasKeys ["subject", "attribute", "value", "support_refs"] es)
      (consolidationInvalid "ENVELOPE_INVALID" "statement must be \x7bsubject, attribute, value, support_refs\x7d")
    let subject ← nonEmptyText "subject" (memberOf es "subject")
    let attr ← nonEmptyText "attribute" (memberOf es "attribute")
    refuseIf (isContainer (memberOf es "value") = true)
      (consolidationInvalid "ENVELOPE_INVALID" "statement value must be a scalar")
    let support ← refList "support_refs" (memberOf es "support_refs")
    return ⟨subject, attr, memberOf es "value", support⟩
  | _ => .error (consolidationInvalid "ENVELOPE_INVALID" "statement must be \x7bsubject, attribute, value, support_refs\x7d")

theorem claimKey_lawful : LawfulBEq ClaimKey := inferInstance

attribute [local instance] claimKey_lawful

/-- The loop of `_corrected_statements`, with the keys seen so far. -/
def correctedEntries (keys : List ClaimKey) : List PyValue → Except PyError (List Statement)
  | [] => .ok []
  | entry :: rest => do
    let statement ← correctedStatement entry
    refuseIf (statement.key ∈ keys) (consolidationInvalid "ENVELOPE_INVALID" "a statement key is corrected twice")
    let statements ← correctedEntries (statement.key :: keys) rest
    return statement :: statements

/-- `_corrected_statements`. -/
def correctedStatements : PyValue → Except PyError (List Statement)
  | .list (entry :: rest) => correctedEntries [] (entry :: rest)
  | _ => .error (consolidationInvalid "ENVELOPE_INVALID" "corrected_statements must be a non-empty array")

/-- The members of a payload document. -/
abbrev Members := List (MappingKey × PyValue)

def entriesOf? : PyValue → Option Members
  | .mapping es => some es
  | _ => none

/-- `_members`. -/
def membersOf (payload : Members) (name : String) : Except PyError (List Members) :=
  match memberOf payload name with
  | .list items => orRaise (items.mapM entriesOf?)
      (consolidationError "INTERNAL_ERROR" "CONSOLIDATED_PAYLOAD_INVALID" "%s is not a list of objects" [.text (py name)])
  | _ => .error (consolidationError "INTERNAL_ERROR" "CONSOLIDATED_PAYLOAD_INVALID" "%s is not a list of objects"
      [.text (py name)])

/-- `entry[name]`. -/
def entryMember (entry : Members) (name : String) : Except PyError PyValue :=
  orRaise (Dict.find entry (.str (py name))) ⟨.keyError, name, []⟩

section Correcting
-- `str` of a value that is no text
variable (str : PyValue → PyStr)

/-- `str(value)`. -/
def textOfValue : PyValue → PyStr
  | .str s => s
  | v => str v

/-- `str(entry[name])`. -/
def textMember (entry : Members) (name : String) : Except PyError PyStr := do
  let value ← entryMember entry name
  return textOfValue str value

/-- `(str(entry["subject"]), str(entry["attribute"]))`. -/
def entryKey (entry : Members) : Except PyError ClaimKey := do
  let subject ← textMember str entry "subject"
  let attr ← textMember str entry "attribute"
  return (subject, attr)

/-- A correction touches no conflict and cites the sources of the corrected version. -/
def checkCorrection (payload : Members) (statements : List Statement) : Except PyError Unit := do
  let sources ← membersOf payload "sources"
  let cited ← sources.mapM fun entry => textMember str entry "memory_version_ref"
  let conflicts ← membersOf payload "conflicts"
  let conflictKeys ← conflicts.mapM (entryKey str)
  statements.forM fun statement => do
    refuseIf (statement.key ∈ conflictKeys)
      (consolidationError "POLICY_DENIED" "DISSENT_ERASURE" "a correction cannot resolve or rewrite a preserved conflict")
    refuseIf (¬ ∀ ref ∈ statement.supportRefs, ref ∈ cited)
      (consolidationError "POLICY_DENIED" "CORRECTION_SOURCE_REWRITE"
        "a correction can only cite the sources of the corrected version")

/-- The statements of the corrected version: those that are kept and those of the correction. -/
def newStatements (payload : Members) (statements : List Statement) : Except PyError (List Members) := do
  let old ← membersOf payload "statements"
  let keyed ← old.mapM fun entry => (entryKey str entry).map fun key => (key, entry)
  let kept := keyed.filter fun entry => entry.1 ∉ statements.map Statement.key
  let corrected := statements.map fun s => (s.key, (entriesOf? s.toMapping).getD [])
  return ((kept ++ corrected).insertionSort fun a b => a.1.Le b.1).map Prod.snd

end Correcting

/-- `{**payload, ...}`. -/
def correctedPayload (payload : Members) (statements : List Members) (uncertainty correction : PyValue) : PyValue :=
  .mapping (Dict.put (.str (py "correction")) correction (Dict.put (.str (py "uncertainty")) uncertainty
    (Dict.put (.str (py "statements")) (.list (statements.map .mapping)) payload)))

/-- The `correction` member of a corrected payload. -/
def correctionMember (correctionRef targetRef reasonRef : PyStr) (statements : List Statement) : PyValue :=
  fields [("correction_ref", some (.str correctionRef)), ("correction_of_ref", some (.str targetRef)),
    ("correction_reason_ref", some (.str reasonRef)),
    ("corrected_keys", some (.list ((sortedKeys (statements.map Statement.key)).map fun key =>
      fields [("subject", some (.str key.1)), ("attribute", some (.str key.2))])))]

end Memory
end OcorRuntime
