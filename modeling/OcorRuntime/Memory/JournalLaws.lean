import OcorRuntime.Foundations.Run
import OcorRuntime.Kernel.Records
import OcorRuntime.Memory.ChainedJournal

/-! What a chained journal keeps: a line that was written is read back as the record it was
written for, so an instance that catches up, or a new one that opens the file, is in the
state its writer was in. -/
namespace OcorRuntime.Memory
open Canonical Kernel
set_option autoImplicit false
set_option maxHeartbeats 250000

/-! ## Lines of a file -/

/-- No byte that ends a line. -/
def Unbroken (line : Bytes) : Prop := ∀ b ∈ line, b ≠ lineFeed ∧ b ≠ carriageReturn

theorem splitLines_line {line : Bytes} (h : Unbroken line) (rest : Bytes) :
    splitLines (line ++ lineFeed :: rest) = line :: splitLines rest := by
  have hdistinct : lineFeed ≠ carriageReturn := by decide
  induction line with
  | nil => cases rest <;> simp [splitLines, hdistinct]
  | cons b line ih =>
    obtain ⟨hfeed, hreturn⟩ := h b List.mem_cons_self
    have hrec := ih fun c hc => h c (List.mem_cons_of_mem b hc)
    obtain ⟨c, tail, htail⟩ : ∃ c tail, line ++ lineFeed :: rest = c :: tail := by
      cases line with
      | nil => exact ⟨_, _, rfl⟩
      | cons c line => exact ⟨_, _, rfl⟩
    rw [List.cons_append, htail, splitLines, ← htail, hrec]
    simp [hfeed, hreturn]

def fileOf (lines : List Bytes) : Bytes := lines.flatMap fun line => line ++ [lineFeed]

@[simp] theorem fileOf_nil : fileOf [] = [] := rfl

theorem fileOf_cons (line : Bytes) (lines : List Bytes) : fileOf (line :: lines) = line ++ lineFeed :: fileOf lines := by
  simp [fileOf]

theorem fileOf_append (first second : List Bytes) : fileOf (first ++ second) = fileOf first ++ fileOf second := by
  simp [fileOf]

theorem splitLines_fileOf {lines : List Bytes} (h : ∀ line ∈ lines, Unbroken line) : splitLines (fileOf lines) = lines := by
  induction lines with
  | nil => rfl
  | cons line lines ih =>
    rw [fileOf_cons, splitLines_line (h line List.mem_cons_self), ih fun l hl => h l (List.mem_cons_of_mem _ hl)]

theorem fileOf_ends {lines : List Bytes} (h : lines ≠ []) : (fileOf lines).getLast? = some lineFeed := by
  obtain ⟨init, last, rfl⟩ : ∃ init last, lines = init ++ [last] := ⟨_, _, (List.dropLast_append_getLast h).symm⟩
  simp [fileOf]

/-! ## Canonical bytes -/

/-- The canonical bytes of an I-JSON value. -/
def bytesOf (v : PyValue) : Bytes := utf8Encode (render (canon v))

theorem unbroken_bytesOf (v : PyValue) : Unbroken (bytesOf v) := by
  intro b hb
  obtain ⟨c, hc, hbc⟩ := List.mem_flatMap.mp hb
  have hb' := utf8Char_printable (render_printable _ c hc) b hbc
  constructor <;> rintro rfl <;> revert hb' <;> decide

theorem hex_ascii {bs : Bytes} {c : CodePoint} (h : c ∈ hex bs) : c.val < 0x80 := by
  obtain ⟨b, -, hc⟩ := List.mem_flatMap.mp h
  have hb := b.isLt
  simp only [List.mem_cons, List.not_mem_nil, or_false] at hc
  rcases hc with rfl | rfl
  · rw [hexDigit_val (by omega)]
    split_ifs <;> omega
  · rw [hexDigit_val (by omega)]
    split_ifs <;> omega

/-- The normal form of a record: its members are found under their names, and it has no others. -/
theorem canon_record {entries : List (String × Option PyValue)} (h : IJson (fields entries))
    (hall : ∀ entry ∈ entries, entry.2.isSome = true) : ∃ ms, canon (fields entries) = .mapping ms ∧
      HasKeys (entries.map Prod.fst) ms ∧ ∀ entry ∈ entries, ∀ v ∈ entry.2, memberOf ms entry.1 = canon v := by
  obtain ⟨ms, hms, hfind, hkeys⟩ := canon_fields_find h
  refine ⟨ms, hms, ⟨fun e he => ?_, fun name hname => ?_⟩, fun entry hentry v hv => ?_⟩
  · obtain ⟨name, v, hmem, hkey⟩ := (hkeys e.1).mp (List.mem_map_of_mem he)
    rw [hkey]
    exact List.mem_map_of_mem (List.mem_map.mpr ⟨_, hmem, rfl⟩)
  · obtain ⟨⟨name', value⟩, hmem, rfl⟩ := List.mem_map.mp hname
    obtain ⟨v, hv⟩ := Option.isSome_iff_exists.mp (hall _ hmem)
    dsimp only at hv
    exact (hkeys _).mpr ⟨name', v, hv ▸ hmem, rfl⟩
  · obtain ⟨name, value⟩ := entry
    cases hv
    rw [memberOf, hfind name v hentry]
    rfl

/-- A digest as the journals write it. -/
def urnOf (bytes : Bytes) : PyStr := py "urn:sha256:" ++ Sha256.hexdigest bytes

theorem urnOf_ascii (bytes : Bytes) : ∀ c ∈ urnOf bytes, c.val < 0x80 := by
  have hurn : ((py "urn:sha256:").all fun c => c.val < 0x80) = true := by decide
  intro c hc
  rcases List.mem_append.mp hc with h | h
  · simpa using List.all_eq_true.mp hurn c h
  · exact hex_ascii h

theorem scalar_urnOf (bytes : Bytes) : Scalar (urnOf bytes) := by
  intro c hc
  have hascii := urnOf_ascii bytes c hc
  unfold IsSurrogate
  omega

theorem digestOf_eq {v : PyValue} (hv : IJson v) : digestOf v = .ok (urnOf (bytesOf v)) := by
  rw [digestOf, canonicalize_eq hv]
  rfl

theorem compareDigest_self (bytes : Bytes) : compareDigest (urnOf bytes) (.str (urnOf bytes)) = .ok true := by
  have hascii : ((urnOf bytes).all fun c => c.val < 0x80) = true :=
    List.all_eq_true.mpr fun c hc => by simpa using urnOf_ascii bytes c hc
  rw [compareDigest, if_pos hascii, decide_eq_true rfl]

/-! ## One line -/

namespace JournalKind
variable {α μ : Type} (k : JournalKind α μ)

/-- The payload is named apart from the other members of a line. -/
def Named : Prop := k.field ≠ "seq" ∧ k.field ≠ "prev" ∧ k.field ≠ "entry_digest"

/-- The record is read back as it is written. -/
structure Keeps (a : α) : Prop where
  iJson : IJson (k.toMapping a)
  reads : k.fromMapping (canon (k.toMapping a)) = .ok a
  verified : k.verify a = .ok ()

/-- The digest of the next line. -/
def linkOf (j : Journal μ) (a : α) : PyStr :=
  urnOf (bytesOf (k.body (.int (j.seq + 1)) (.str j.head) (k.toMapping a)))

/-- The bytes of the next line. -/
def lineOf (j : Journal μ) (a : α) : Bytes :=
  bytesOf (k.chained (.int (j.seq + 1)) (.str j.head) (k.toMapping a) (k.linkOf j a))

/-- The instance after the line. -/
def next (j : Journal μ) (a : α) : Journal μ :=
  ⟨k.insert a j.memory, j.offset + ((k.lineOf j a).length + 1), j.seq + 1, k.linkOf j a⟩

variable {k} (hk : k.Named)
include hk

theorem iJson_body {n : ℕ} (hn : n ≤ maxSafeInteger) {prev : PyStr} (hprev : Scalar prev) {payload : PyValue}
    (hpayload : IJson payload) : IJson (k.body (.int n) (.str prev) payload) := by
  have hkeys : ("seq" : String) ≠ "prev" := by decide
  rw [body, IJson]
  refine ⟨?_, ?_⟩
  · simp only [List.map_cons, List.map_nil, List.nodup_cons, List.mem_cons, List.not_mem_nil, or_false,
      MappingKey.str.injEq, Function.Injective.eq_iff py_injective]
    simp [hkeys, hk.1.symm, hk.2.1.symm]
  · simp [hpayload, hprev, hn]

theorem iJson_chained {n : ℕ} (hn : n ≤ maxSafeInteger) {prev digest : PyStr} (hprev : Scalar prev)
    (hdigest : Scalar digest) {payload : PyValue} (hpayload : IJson payload) :
    IJson (k.chained (.int n) (.str prev) payload digest) := by
  have hkeys : ("seq" : String) ≠ "prev" ∧ "seq" ≠ "entry_digest" ∧ "prev" ≠ "entry_digest" := by decide
  rw [chained, IJson]
  refine ⟨?_, ?_⟩
  · simp only [List.map_cons, List.map_nil, List.nodup_cons, List.mem_cons, List.not_mem_nil, or_false,
      MappingKey.str.injEq, Function.Injective.eq_iff py_injective]
    simp [hkeys, hk.1.symm, hk.2.1.symm, hk.2.2]
  · simp [hpayload, hprev, hn, hdigest]

section Line
variable {j : Journal μ} {a : α} (ha : IJson (k.toMapping a)) (hhead : Scalar j.head) (hseq : j.seq + 1 ≤ maxSafeInteger)
include ha hhead hseq

theorem line_eq : k.line j a = .ok (k.lineOf j a) := by
  have hbody := iJson_body hk hseq hhead ha
  have hchained := iJson_chained hk hseq hhead (scalar_urnOf (bytesOf (k.body (.int ((j.seq + 1 : ℕ) : ℤ)) (.str j.head)
    (k.toMapping a)))) ha
  push_cast at hbody hchained
  unfold line
  dsimp only
  rw [digestOf_eq hbody]
  exact canonicalize_eq hchained

theorem readLine_lineOf : k.readLine j (k.lineOf j a) =
    (k.fromMapping (canon (k.toMapping a))).map fun record => (record, k.linkOf j a) := by
  have hbody := iJson_body hk hseq hhead ha
  have hbody' := iJson_body hk hseq hhead (iJson_canon _ ha)
  have hchained := iJson_chained hk hseq hhead (scalar_urnOf (bytesOf (k.body (.int ((j.seq + 1 : ℕ) : ℤ)) (.str j.head)
    (k.toMapping a)))) ha
  push_cast at hbody hbody' hchained
  obtain ⟨ms, hms, hfind, hkeys⟩ := canon_mapping_find hchained
  have hload : loadIJson (.bytes (k.lineOf j a)) = .ok (.mapping ms) := by
    rw [← hms]
    exact loadIJson_canon hchained
  have hcanonical : canonicalize (.mapping ms) = .ok (k.lineOf j a) := by
    have hbytes := canonicalize_eq (iJson_canon _ hchained)
    rw [canon_canon hchained] at hbytes
    rw [← hms]
    exact hbytes
  have hclosed : HasKeys ["seq", "prev", k.field, "entry_digest"] ms := by
    refine ⟨fun e he => ?_, fun name hname => ?_⟩
    · have hmem := (hkeys e.1).mp (List.mem_map_of_mem he)
      simpa using hmem
    · refine (hkeys _).mpr ?_
      simp only [List.mem_cons, List.not_mem_nil, or_false] at hname
      rcases hname with rfl | rfl | rfl | rfl <;> simp
  have hseqv : memberOf ms "seq" = .int (j.seq + 1) := by
    rw [memberOf, hfind _ (.int (j.seq + 1)) (by simp)]
    simp [canon]
  have hprevv : memberOf ms "prev" = .str j.head := by
    rw [memberOf, hfind _ (.str j.head) (by simp)]
    simp [canon]
  have hpayload : memberOf ms k.field = canon (k.toMapping a) := by
    rw [memberOf, hfind _ (k.toMapping a) (by simp)]
    rfl
  have hdigestv : memberOf ms "entry_digest" = .str (k.linkOf j a) := by
    rw [memberOf, hfind _ (.str (k.linkOf j a)) (by simp [linkOf])]
    simp [canon]
  -- the digest is taken of the payload as it was parsed, which has the same normal form
  have hdigest : digestOf (k.body (.int (j.seq + 1)) (.str j.head) (canon (k.toMapping a))) = .ok (k.linkOf j a) := by
    rw [digestOf_eq hbody', linkOf, bytesOf, bytesOf]
    have hsame : canon (k.body (.int (j.seq + 1)) (.str j.head) (canon (k.toMapping a))) =
        canon (k.body (.int (j.seq + 1)) (.str j.head) (k.toMapping a)) := by
      simp only [body, canon_mapping, canonMembers, List.map_cons, List.map_nil, canon_canon ha]
    rw [hsame]
  have hcompare : compareDigest (k.linkOf j a) (.str (k.linkOf j a)) = .ok true := compareDigest_self _
  unfold readLine
  rw [hload]
  simp only [Except.mapError, bind, Except.bind]
  rw [hseqv, hprevv, hpayload, hdigestv, hcanonical, hdigest]
  cases hread : k.fromMapping (canon (k.toMapping a)) <;>
    simp [refuseIf, hclosed, hcompare, hread, PyValue.pyEq, PyValue.numberEq, PyValue.integer?, pure, Except.pure,
      Except.map]

end Line

section Kept
variable {j : Journal μ} {a : α} (ha : k.Keeps a) (hhead : Scalar j.head) (hseq : j.seq + 1 ≤ maxSafeInteger)
include ha hhead hseq

theorem applied_lineOf (hconflict : k.conflict a j.memory = none) :
    k.applied j (k.lineOf j a) = .ok { j with memory := k.insert a j.memory, seq := j.seq + 1, head := k.linkOf j a } := by
  have hadmitted : k.admitted a j.memory = .ok (k.insert a j.memory) := by
    unfold admitted
    rw [ha.verified, hconflict]
    rfl
  unfold applied
  rw [readLine_lineOf hk ha.iJson hhead hseq, ha.reads]
  simp only [Except.map, bind, Except.bind, hadmitted, Except.mapError]
  rfl

end Kept

omit hk
variable (k)

/-! ## A file -/

/-- The instance after the records. -/
def replay (j : Journal μ) (records : List α) : Journal μ := records.foldl k.next j

/-- The lines of the records. -/
def linesOf : Journal μ → List α → List Bytes
  | _, [] => []
  | j, a :: records => k.lineOf j a :: linesOf (k.next j a) records

attribute [local grind =] linesOf

/-- No record conflicts with those before it. -/
def Accepts : Journal μ → List α → Prop
  | _, [] => True
  | j, a :: records => k.conflict a j.memory = none ∧ Accepts (k.next j a) records

variable {k}

@[simp] theorem replay_nil (j : Journal μ) : k.replay j [] = j := rfl

@[simp] theorem replay_cons (j : Journal μ) (a : α) (records : List α) :
    k.replay j (a :: records) = k.replay (k.next j a) records := rfl

theorem replay_append (j : Journal μ) (first second : List α) :
    k.replay j (first ++ second) = k.replay (k.replay j first) second := List.foldl_append

theorem linesOf_append (j : Journal μ) (first second : List α) :
    k.linesOf j (first ++ second) = k.linesOf j first ++ k.linesOf (k.replay j first) second := by
  induction first generalizing j with
  | nil => rfl
  | cons a first ih => simp only [List.cons_append, linesOf, ih, replay_cons]

theorem accepts_append {j : Journal μ} {first second : List α} :
    k.Accepts j (first ++ second) ↔ k.Accepts j first ∧ k.Accepts (k.replay j first) second := by
  induction first generalizing j with
  | nil => simp [Accepts]
  | cons a first ih => simp only [List.cons_append, Accepts, ih, replay_cons, and_assoc]

theorem replay_seq (j : Journal μ) (records : List α) : (k.replay j records).seq = j.seq + records.length := by
  induction records generalizing j with
  | nil => rfl
  | cons a records ih =>
    rw [replay_cons, ih, List.length_cons]
    simp only [next]
    omega

theorem replay_offset (j : Journal μ) (records : List α) :
    (k.replay j records).offset = j.offset + (fileOf (k.linesOf j records)).length := by
  induction records generalizing j with
  | nil => rfl
  | cons a records ih =>
    rw [replay_cons, ih, linesOf, fileOf_cons, List.length_append, List.length_cons]
    simp only [next]
    omega

theorem replay_memory (j : Journal μ) (records : List α) :
    (k.replay j records).memory = records.foldl (fun m a => k.insert a m) j.memory := by
  induction records generalizing j with
  | nil => rfl
  | cons a records ih => rw [replay_cons, ih, List.foldl_cons]; rfl

theorem scalar_replay {j : Journal μ} (hj : Scalar j.head) (records : List α) : Scalar (k.replay j records).head := by
  induction records generalizing j with
  | nil => exact hj
  | cons a records ih => exact ih (scalar_urnOf _)

theorem scalar_fresh (empty : μ) : Scalar (Journal.fresh empty).head := by
  change Scalar genesis
  decide

theorem unbroken_linesOf (j : Journal μ) (records : List α) : ∀ line ∈ k.linesOf j records, Unbroken line := by
  induction records generalizing j with
  | nil => simp [linesOf]
  | cons a records ih =>
    intro line hline
    rcases List.mem_cons.mp hline with rfl | hline
    · exact unbroken_bytesOf _
    · exact ih _ line hline

include hk in
theorem applyLines_linesOf {records : List α} (hkeeps : ∀ a ∈ records, k.Keeps a) : ∀ {j : Journal μ}, Scalar j.head →
    j.seq + records.length ≤ maxSafeInteger → k.Accepts j records →
      k.applyLines (k.linesOf j records) j = (.ok (), k.replay j records) := by
  induction records with
  | nil => intros; rfl
  | cons a records ih =>
    intro j hhead hseq haccepts
    rw [List.length_cons] at hseq
    have happlied := applied_lineOf hk (hkeeps a List.mem_cons_self) hhead (by omega) haccepts.1
    have hrest := ih (fun b hb => hkeeps b (List.mem_cons_of_mem a hb)) (scalar_urnOf _)
      (show (k.next j a).seq + records.length ≤ maxSafeInteger by simp only [next]; omega) haccepts.2
    rw [linesOf, applyLines, Op.read_bind, happlied, Op.lift_ok_bind, Op.update_bind]
    exact hrest

include hk in
theorem catchUp_replay {j : Journal μ} {file : Bytes} {records : List α} (hfile : file.drop j.offset = fileOf (k.linesOf j records))
    (hkeeps : ∀ a ∈ records, k.Keeps a) (hhead : Scalar j.head) (hseq : j.seq + records.length ≤ maxSafeInteger)
    (haccepts : k.Accepts j records) : k.catchUp file j = (.ok (), k.replay j records) := by
  unfold catchUp
  rw [Op.read_bind, hfile]
  cases records with
  | nil => rfl
  | cons a records =>
    have hends := fileOf_ends (show k.linesOf j (a :: records) ≠ [] by simp [linesOf])
    have hne : fileOf (k.linesOf j (a :: records)) ≠ [] := by
      intro hnil
      rw [hnil] at hends
      cases hends
    rw [if_neg hne, if_neg (by simp [hends]), splitLines_fileOf (unbroken_linesOf _ _)]
    exact applyLines_linesOf hk hkeeps hhead hseq haccepts

section File
variable (empty : μ)

/-- The file holds exactly these records, each accepted after those before it. -/
structure Holds (k : JournalKind α μ) (empty : μ) (records : List α) (file : Bytes) : Prop where
  file_eq : file = fileOf (k.linesOf (.fresh empty) records)
  accepts : k.Accepts (.fresh empty) records
  keeps : ∀ a ∈ records, k.Keeps a

/-- The instance has read a first part of the records. -/
def Lags (k : JournalKind α μ) (empty : μ) (records : List α) (j : Journal μ) : Prop :=
  ∃ n ≤ records.length, j = k.replay (.fresh empty) (records.take n)

theorem holds_nil (k : JournalKind α μ) (empty : μ) : k.Holds empty [] [] :=
  ⟨rfl, trivial, by simp⟩

theorem lags_fresh (k : JournalKind α μ) (empty : μ) (records : List α) : k.Lags empty records (.fresh empty) :=
  ⟨0, Nat.zero_le _, by simp⟩

theorem lags_full (k : JournalKind α μ) (empty : μ) (records : List α) :
    k.Lags empty records (k.replay (.fresh empty) records) :=
  ⟨records.length, le_rfl, by rw [List.take_length]⟩

variable {empty} {records : List α} {file : Bytes} {j : Journal μ}

theorem Lags.append (h : k.Lags empty records j) (a : α) : k.Lags empty (records ++ [a]) j := by
  obtain ⟨n, hn, rfl⟩ := h
  refine ⟨n, by rw [List.length_append]; omega, ?_⟩
  rw [List.take_append_of_le_length hn]

include hk

/-- **An instance that catches up is where its writers are.** -/
theorem catchUp_holds (hfile : k.Holds empty records file) (hlags : k.Lags empty records j)
    (hbound : records.length ≤ maxSafeInteger) : k.catchUp file j = (.ok (), k.replay (.fresh empty) records) := by
  obtain ⟨n, hn, rfl⟩ := hlags
  have hsplit := List.take_append_drop n records
  have hrest : file.drop (k.replay (.fresh empty) (records.take n)).offset =
      fileOf (k.linesOf (k.replay (.fresh empty) (records.take n)) (records.drop n)) := by
    have hlines := linesOf_append (k := k) (.fresh empty) (records.take n) (records.drop n)
    rw [hsplit] at hlines
    rw [hfile.file_eq, hlines, fileOf_append, replay_offset]
    simp only [Journal.fresh, Nat.zero_add]
    exact List.drop_left
  have haccepts := hfile.accepts
  rw [← hsplit, accepts_append] at haccepts
  have hcaught := catchUp_replay hk hrest (fun a ha => hfile.keeps a (List.mem_of_mem_drop ha))
    (scalar_replay (scalar_fresh empty) _) (by
      rw [replay_seq, List.length_take, List.length_drop]
      simp only [Journal.fresh]
      omega) haccepts.2
  rw [hcaught, ← replay_append, hsplit]

theorem opened_holds (hfile : k.Holds empty records file) (hbound : records.length ≤ maxSafeInteger) :
    k.opened empty file = (.ok (), k.replay (.fresh empty) records) :=
  catchUp_holds hk hfile (lags_fresh k empty records) hbound

theorem append_refused (hfile : k.Holds empty records file) (hlags : k.Lags empty records j)
    (hbound : records.length ≤ maxSafeInteger) {a : α} (hverify : k.verify a = .ok ()) {error : PyError}
    (hconflict : k.conflict a (k.replay (.fresh empty) records).memory = some error) :
    k.append a (j, file) = (.error error, (k.replay (.fresh empty) records, file)) := by
  unfold append
  rw [hverify]
  dsimp only
  rw [catchUp_holds hk hfile hlags hbound]
  dsimp only
  rw [hconflict]

omit hk in
theorem Holds.snoc (hfile : k.Holds empty records file) {a : α} (ha : k.Keeps a)
    (hconflict : k.conflict a (k.replay (.fresh empty) records).memory = none) :
    k.Holds empty (records ++ [a]) (file ++ k.lineOf (k.replay (.fresh empty) records) a ++ [lineFeed]) := by
  refine ⟨?_, accepts_append.2 ⟨hfile.accepts, hconflict, trivial⟩, ?_⟩
  · rw [linesOf_append, fileOf_append, ← hfile.file_eq, linesOf, linesOf, fileOf_cons, fileOf_nil, List.append_assoc]
  · intro b hb
    rcases List.mem_append.mp hb with hb | hb
    · exact hfile.keeps b hb
    · rw [List.mem_singleton.mp hb]
      exact ha

theorem append_accepted (hfile : k.Holds empty records file) (hlags : k.Lags empty records j)
    (hbound : records.length + 1 ≤ maxSafeInteger) {a : α} (ha : k.Keeps a)
    (hconflict : k.conflict a (k.replay (.fresh empty) records).memory = none) :
    k.append a (j, file) = (.ok (), (k.replay (.fresh empty) (records ++ [a]),
      file ++ k.lineOf (k.replay (.fresh empty) records) a ++ [lineFeed])) := by
  have hhead := scalar_replay (k := k) (scalar_fresh empty) records
  have hseq : (k.replay (.fresh empty) records).seq + 1 ≤ maxSafeInteger := by
    rw [replay_seq]
    simp only [Journal.fresh]
    omega
  unfold append
  rw [ha.verified]
  dsimp only
  rw [catchUp_holds hk hfile hlags (by omega)]
  dsimp only
  rw [hconflict]
  dsimp only
  rw [line_eq hk ha.iJson hhead hseq]
  dsimp only
  rw [applied_lineOf hk ha hhead hseq hconflict, replay_append]
  rfl

/-- A record that is not read back is in the file all the same when its append raises. -/
theorem append_unread (hfile : k.Holds empty records file) (hlags : k.Lags empty records j)
    (hbound : records.length + 1 ≤ maxSafeInteger) {a : α} (hverify : k.verify a = .ok ())
    (hconflict : k.conflict a (k.replay (.fresh empty) records).memory = none) (hjson : IJson (k.toMapping a))
    {error : PyError} (hread : k.fromMapping (canon (k.toMapping a)) = .error error) :
    k.append a (j, file) = (.error error, (k.replay (.fresh empty) records,
      file ++ k.lineOf (k.replay (.fresh empty) records) a ++ [lineFeed])) := by
  have hhead := scalar_replay (k := k) (scalar_fresh empty) records
  have hseq : (k.replay (.fresh empty) records).seq + 1 ≤ maxSafeInteger := by
    rw [replay_seq]
    simp only [Journal.fresh]
    omega
  have happlied : k.applied (k.replay (.fresh empty) records) (k.lineOf (k.replay (.fresh empty) records) a) =
      .error error := by
    unfold applied
    rw [readLine_lineOf hk hjson hhead hseq, hread]
    rfl
  unfold append
  rw [hverify]
  dsimp only
  rw [catchUp_holds hk hfile hlags (by omega)]
  dsimp only
  rw [hconflict]
  dsimp only
  rw [line_eq hk hjson hhead hseq]
  dsimp only
  rw [happlied]

end File

/-! ## Runs of instances over one file -/

section Runs
variable {ι : Type} [DecidableEq ι] {empty : μ}

/-- The file holds the records, and no instance has read anything else. -/
structure Coherent (k : JournalKind α μ) (empty : μ) (records : List α) (s : Shared ι μ) : Prop where
  holds : k.Holds empty records s.file
  lags : ∀ i, k.Lags empty records (s.instances i)

theorem coherent_start (k : JournalKind α μ) (ι : Type) [DecidableEq ι] (empty : μ) :
    k.Coherent empty [] (Shared.start ι empty) :=
  ⟨holds_nil k empty, fun _ => lags_fresh k empty []⟩

/-- The appended record, if the action is an append, satisfies `P`. -/
def Appends (P : α → Prop) : Action ι α → Prop
  | .append _ a => P a
  | .refresh _ | .reopen _ => True

theorem Coherent.update {records records' : List α} {s : Shared ι μ} (h : k.Coherent empty records s) {i : ι}
    {j : Journal μ} {file : Bytes} (hholds : k.Holds empty records' file) (hj : k.Lags empty records' j)
    (hmono : ∀ {j'}, k.Lags empty records j' → k.Lags empty records' j') :
    k.Coherent empty records' ⟨Function.update s.instances i j, file⟩ := by
  refine ⟨hholds, fun i' => ?_⟩
  by_cases hi : i' = i
  · subst hi
    simpa using hj
  · simpa [Function.update_of_ne hi] using hmono (h.lags i')

include hk

theorem coherent_step {records : List α} {s : Shared ι μ} (h : k.Coherent empty records s)
    (hbound : records.length + 1 ≤ maxSafeInteger) {action : Action ι α}
    (haction : Appends (fun a => k.verify a = .ok () → k.Keeps a) action) :
    k.Coherent empty (records ++ k.accepted empty s action) (k.step empty s action) := by
  have hcaught : ∀ i, k.catchUp s.file (s.instances i) = (.ok (), k.replay (.fresh empty) records) :=
    fun i => catchUp_holds hk h.holds (h.lags i) (by omega)
  cases action with
  | append i a =>
    simp only [step, accepted, perform]
    cases hverify : k.verify a with
    | error error =>
      have happend : k.append a (s.instances i, s.file) = (.error error, (s.instances i, s.file)) := by
        simp only [append, hverify]
      rw [happend]
      simpa using h
    | ok u =>
      have ha := haction hverify
      cases hconflict : k.conflict a (k.replay (.fresh empty) records).memory with
      | some error =>
        rw [append_refused hk h.holds (h.lags i) (by omega) hverify hconflict]
        simpa using h.update h.holds (lags_full k empty records) id
      | none =>
        rw [append_accepted hk h.holds (h.lags i) hbound ha hconflict]
        exact h.update (h.holds.snoc ha hconflict) (lags_full k empty _) fun hj => hj.append a
  | refresh i =>
    simp only [step, accepted, perform, hcaught]
    simpa using h.update h.holds (lags_full k empty records) id
  | reopen i =>
    simp only [step, accepted, perform, opened_holds hk h.holds (show records.length ≤ maxSafeInteger by omega)]
    simpa using h.update h.holds (lags_full k empty records) id

omit hk in
theorem accepted_length (s : Shared ι μ) (action : Action ι α) : (k.accepted empty s action).length ≤ 1 := by
  unfold accepted
  split <;> simp

/-- **A run of instances over one file.** The file holds the accepted records in the order they were accepted. -/
theorem coherent_run {actions : List (Action ι α)} {records : List α} {s : Shared ι μ} (h : k.Coherent empty records s)
    (hbound : records.length + actions.length ≤ maxSafeInteger)
    (hactions : ∀ action ∈ actions, Appends (fun a => k.verify a = .ok () → k.Keeps a) action) :
    k.Coherent empty (records ++ trace (k.step empty) (k.accepted empty) s actions) (run (k.step empty) s actions) := by
  induction actions generalizing records s with
  | nil => simpa [trace] using h
  | cons action actions ih =>
    rw [List.length_cons] at hbound
    have hstep := coherent_step hk h (by omega) (hactions action List.mem_cons_self)
    have hone : (k.accepted empty s action).length ≤ 1 := accepted_length s action
    rw [run_cons, trace, ← List.append_assoc]
    refine ih hstep ?_ fun a ha => hactions a (List.mem_cons_of_mem _ ha)
    rw [List.length_append]
    omega

end Runs

end JournalKind

end OcorRuntime.Memory
