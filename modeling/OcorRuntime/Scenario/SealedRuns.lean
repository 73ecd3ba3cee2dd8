import OcorRuntime.Scenario.SealedResults

/-! Sealed results under any interleaving of clients and any loss of requests and responses. The conditional
write keeps one version for each key; a call that returns has seen or written its payload there. -/
namespace OcorRuntime.Scenario
open Canonical Events
set_option autoImplicit false
set_option maxHeartbeats 250000
set_option maxRecDepth 120000

/-! ## The server -/

def Version.Locked (v : Version) : Prop := ∃ lock, v.retention = some lock ∧ lock.mode = retentionMode

/-- One version for each key, under a digest, each with an id and the lock. -/
structure Bucket.Sound (b : Bucket) : Prop where
  single : (b.map Version.key).Nodup
  addressed : ∀ v ∈ b, ∃ digest, IsHexDigest digest ∧ v.key = keyPrefix ++ digest
  named : ∀ v ∈ b, v.versionId ≠ []
  locked : ∀ v ∈ b, v.Locked

/-- A write is stored with the lock it asks for. -/
def LocksWrites (_ : Bucket) (q : Request) (fate : Fate) : Prop :=
  match q with
  | .put _ _ _ => fate.locks = true
  | _ => True

/-- Versions are only added. -/
def sealing : Service Bucket Request (Option (ℕ × Content)) Fate where
  serve := serve
  Inv := Bucket.Sound
  Allowed := LocksWrites
  Rely b b' := b <+: b'
  rely_refl := List.prefix_refl
  rely_trans := List.IsPrefix.trans

theorem sound_put {b : Bucket} (h : b.Sound) {digest versionId : PyStr} {payload : Bytes} {lock : Retention}
    (hdigest : IsHexDigest digest) (hnew : ¬ ∃ v ∈ b, v.key = keyPrefix ++ digest) (hid : versionId ≠ [])
    (hmode : lock.mode = retentionMode) :
    Bucket.Sound (b ++ [⟨keyPrefix ++ digest, versionId, payload, some lock⟩]) := by
  refine ⟨?_, fun v hv => ?_, fun v hv => ?_, fun v hv => ?_⟩
  · rw [List.map_append, List.map_singleton, List.nodup_append]
    refine ⟨h.single, List.nodup_singleton _, fun k hk j hj => ?_⟩
    obtain ⟨v, hv, rfl⟩ := List.mem_map.mp hk
    rw [List.mem_singleton.mp hj]
    exact fun heq => hnew ⟨v, hv, heq⟩
  · rcases List.mem_append.mp hv with hv | hv
    · exact h.addressed v hv
    · rw [List.mem_singleton.mp hv]
      exact ⟨digest, hdigest, rfl⟩
  · rcases List.mem_append.mp hv with hv | hv
    · exact h.named v hv
    · rw [List.mem_singleton.mp hv]
      exact hid
  · rcases List.mem_append.mp hv with hv | hv
    · exact h.locked v hv
    · rw [List.mem_singleton.mp hv]
      exact ⟨lock, rfl, hmode⟩

/-- A request that reads leaves the bucket as it is. -/
def ReadsOnly (q : Request) : Prop := ∀ locks b, (handle locks b q).1 = b

theorem readsOnly_listVersions (key : PyStr) : ReadsOnly (.listVersions key) := fun _ _ => rfl

theorem readsOnly_getVersion (key versionId : PyStr) : ReadsOnly (.getVersion key versionId) := by
  intro locks b
  simp only [handle]
  split <;> rfl

theorem readsOnly_getRetention (key versionId : PyStr) : ReadsOnly (.getRetention key versionId) := by
  intro locks b
  simp only [handle]
  split <;> rfl

/-! ## What the calls find -/

section
variable {α : Type} {b : Bucket}

theorem meets_lift {x : Except PyError α} {post : α → Bucket → Prop} (h : ∀ a, x = .ok a → post a b) :
    sealing.Meets post (Session.lift x : Call α) b := by
  cases x with
  | ok a => exact h a rfl
  | error e => trivial

/-- A request that reads: either its answer in some later bucket, or an empty one. -/
theorem meets_send {q : Request} (hq : ReadsOnly q) {post : ℕ × Content → Bucket → Prop}
    (hanswer : ∀ b', b <+: b' → Bucket.Sound b' → ∀ locks, post (handle locks b' q).2 b')
    (hempty : ∀ b', b <+: b' → Bucket.Sound b' → ∀ status, post (status, .empty) b') : sealing.Meets post (send q) b := by
  intro b' hrely hinv fate _
  have hstate : (serve b' q fate).1 = b' := by
    cases fate <;> simp [serve, hq _ b']
  change Bucket.Sound (serve b' q fate).1 ∧ b' <+: (serve b' q fate).1 ∧ sealing.Meets post _ (serve b' q fate).1
  rw [hstate]
  refine ⟨hinv, List.prefix_refl b', ?_⟩
  cases fate with
  | answered locks => exact hanswer b' hrely hinv locks
  | lost handled locks => trivial
  | failed status handled locks => exact hempty b' hrely hinv status

/-- The version is stored under the key. -/
def Holds (key : PyStr) (payload : Bytes) (b : Bucket) : Prop := ∃ v ∈ b, v.key = key ∧ v.payload = payload

theorem Holds.mono {key : PyStr} {payload : Bytes} {b b' : Bucket} (h : Holds key payload b) (hb : b <+: b') :
    Holds key payload b' := by
  obtain ⟨v, hv, hkey⟩ := h
  exact ⟨v, hb.subset hv, hkey⟩

theorem meets_sealedVersion (key : PyStr) :
    sealing.Meets (fun r b' => ∀ versionId, r = some versionId → ∃ v ∈ b', v.key = key ∧ v.versionId = versionId)
      (sealedVersion key) b := by
  refine Service.Meets.bind (meets_send (readsOnly_listVersions key) (fun b' _ _ locks => ?_) fun b' _ _ status => ?_)
  · refine Service.Meets.bind (meets_lift fun _ _ => Service.Meets.bind (meets_lift fun _ _ => ?_))
    simp only [handle]
    refine Service.Meets.bind (meets_lift fun _ _ => ?_)
    split
    · rintro versionId ⟨⟩
    · next versionId hlast =>
      refine Service.Meets.bind (meets_lift fun _ _ => ?_)
      rintro found ⟨⟩
      have hmem := List.mem_of_getLast? hlast
      obtain ⟨entry, hentry, rfl⟩ := List.mem_map.mp hmem
      rw [List.mem_filter] at hentry
      obtain ⟨v, hv, rfl⟩ := List.mem_map.mp hentry.1
      have hv' := List.mem_filter.mp (List.mem_reverse.mp (List.mem_of_mem_take hv))
      exact ⟨v, hv'.1, by simpa using hentry.2, rfl⟩
  · exact Service.Meets.bind (meets_lift fun _ _ => Service.Meets.bind (meets_lift fun _ _ => trivial))

/-- Bytes that were found are the content of the stored version, or the body of an empty response. -/
theorem meets_sealedBytes (key : PyStr) :
    sealing.Meets (fun r b' => ∀ raw, r = some raw → raw ≠ [] → Holds key raw b') (sealedBytes key) b := by
  refine Service.Meets.bind ((meets_sealedVersion key).mono fun r b' hr => ?_)
  cases r with
  | none => rintro raw ⟨⟩
  | some versionId =>
    obtain ⟨v, hv, hkey, hid⟩ := hr versionId rfl
    refine Service.Meets.bind (meets_send (readsOnly_getVersion key versionId) (fun b'' hb hinv locks => ?_) fun b'' _ _ status => ?_)
    · refine Service.Meets.bind (meets_lift fun _ _ => Service.Meets.bind (meets_lift fun _ _ => ?_))
      rintro raw ⟨⟩ hraw
      simp only [handle] at hraw ⊢
      split at hraw
      · next w hw =>
        have hmatch := List.find?_some hw
        simp only [decide_eq_true_eq] at hmatch
        exact ⟨w, List.mem_of_find?_eq_some hw, hmatch.1, rfl⟩
      · exact absurd rfl hraw
    · refine Service.Meets.bind (meets_lift fun _ _ => Service.Meets.bind (meets_lift fun _ _ => ?_))
      rintro raw ⟨⟩ hraw
      exact absurd rfl hraw

theorem objectKey_eq_ok {digest key : PyStr} (h : objectKey digest = .ok key) :
    IsHexDigest digest ∧ key = keyPrefix ++ digest := by
  obtain ⟨hdigest, h⟩ := check_bind_eq_ok.1 h
  rw [refuseIf_eq_ok, not_not] at hdigest
  cases h
  exact ⟨hdigest, rfl⟩

theorem settle_eq_ok {payload existing : Bytes} {digest : PyStr} {r : SealedResult}
    (h : settle payload existing digest = .ok r) : existing = payload := by
  obtain ⟨hsame, -⟩ := check_bind_eq_ok.1 h
  rwa [refuseIf_eq_ok, not_not] at hsame

theorem sealedPayload_ne_nil {o : CausalOutcome} {payload : Bytes} (h : sealedPayload o = .ok payload) : payload ≠ [] := by
  obtain ⟨hencode, -⟩ := sealedPayload_eq_ok h
  obtain ⟨text, hdumps, hscalar, rfl⟩ := encode_eq_ok.1 hencode
  obtain ⟨c, t, rfl, hc⟩ := (UnicodeJson.loadsTo_dumps _ text hdumps hscalar).head
  intro hnil
  have hchar : utf8Char c = [] := (List.append_eq_nil_iff.mp (by rwa [utf8Encode, List.flatMap_cons] at hnil)).1
  unfold utf8Char at hchar
  dsimp only at hchar
  split_ifs at hchar

/-! ## Sealing and reading -/

/-- A conditional write keeps the bucket sound; a success has stored the payload. -/
theorem meets_put {digest : PyStr} (hdigest : IsHexDigest digest) (payload : Bytes) {lock : Retention}
    (hmode : lock.mode = retentionMode) :
    sealing.Meets (fun r b' => r.1 = 200 → r.2.versionId ≠ [] → Holds (keyPrefix ++ digest) payload b')
      (send (.put (keyPrefix ++ digest) payload lock)) b := by
  intro b' hrely hinv fate hlocks
  have hlocks : fate.locks = true := hlocks
  set key := keyPrefix ++ digest with hkey
  have hhandle : (handle true b' (.put key payload lock)).1.Sound ∧
      b' <+: (handle true b' (.put key payload lock)).1 ∧
      ((handle true b' (.put key payload lock)).2.1 = 200 → Holds key payload (handle true b' (.put key payload lock)).1) := by
    simp only [handle]
    split_ifs with hexists
    · exact ⟨hinv, List.prefix_refl b', fun h => absurd h (show ¬ (412 : ℕ) = 200 by decide)⟩
    · refine ⟨sound_put hinv hdigest hexists (natText_ne_nil _) hmode, List.prefix_append _ _, fun _ => ?_⟩
      exact ⟨_, List.mem_append_right _ (List.mem_singleton_self _), rfl, rfl⟩
  obtain ⟨hsound, hgrows, hstored⟩ := hhandle
  cases fate with
  | answered locks =>
    cases hlocks
    exact ⟨hsound, hgrows, fun hstatus _ => hstored hstatus⟩
  | lost handled locks =>
    cases hlocks
    cases handled with
    | true => exact ⟨hsound, hgrows, trivial⟩
    | false => exact ⟨hinv, List.prefix_refl b', trivial⟩
  | failed status handled locks =>
    cases hlocks
    cases handled with
    | true => exact ⟨hsound, hgrows, fun _ hid => absurd rfl hid⟩
    | false => exact ⟨hinv, List.prefix_refl b', fun _ hid => absurd rfl hid⟩

/-- The payload of the outcome is stored under its digest. -/
def Stored (o : CausalOutcome) (b : Bucket) : Prop :=
  ∃ payload, sealedPayload o = .ok payload ∧ Holds (keyPrefix ++ o.reproducibilityDigest) payload b

theorem meets_settle {o : CausalOutcome} {payload existing : Bytes} {b : Bucket} (hpayload : sealedPayload o = .ok payload)
    (h : existing ≠ [] → Holds (keyPrefix ++ o.reproducibilityDigest) existing b) :
    sealing.Meets (fun _ b' => Stored o b') (Session.lift (settle payload existing o.reproducibilityDigest) : Call SealedResult) b := by
  refine meets_lift fun r hr => ?_
  obtain rfl := settle_eq_ok hr
  exact ⟨existing, hpayload, h (sealedPayload_ne_nil hpayload)⟩

theorem meets_sealResult (client : Client) (now : Instant) (o : CausalOutcome) :
    sealing.Meets (fun _ b' => Stored o b') (sealResult client now o) b := by
  refine Service.Meets.bind (meets_lift fun _ _ => Service.Meets.bind (meets_lift fun payload hpayload => ?_))
  refine Service.Meets.bind (meets_lift fun key hkey => ?_)
  obtain ⟨hdigest, rfl⟩ := objectKey_eq_ok hkey
  refine Service.Meets.bind ((meets_sealedBytes _).mono fun found b' hfound => ?_)
  cases found with
  | some existing => exact meets_settle hpayload (hfound existing rfl)
  | none =>
    refine Service.Meets.bind (meets_lift fun lockedUntil _ => ?_)
    refine Service.Meets.bind ((meets_put hdigest payload rfl).mono fun r b'' hr => ?_)
    refine Service.Meets.bind (meets_lift fun _ _ => ?_)
    split_ifs with hstatus
    · refine Service.Meets.bind ((meets_sealedBytes _).mono fun found' b''' hfound' => ?_)
      cases found' with
      | some existing => exact meets_settle hpayload (hfound' existing rfl)
      | none => trivial
    · refine Service.Meets.bind (meets_lift fun _ hok => ?_)
      rw [refuseIf_eq_ok, not_or, not_not] at hok
      have hheld := hr hok.1 hok.2
      refine Service.Meets.bind (meets_send (readsOnly_getRetention _ _) (fun c hc _ locks => ?_) fun c hc _ status => ?_)
      · exact Service.Meets.bind (meets_lift fun _ _ => ⟨payload, hpayload, hheld.mono hc⟩)
      · exact Service.Meets.bind (meets_lift fun _ _ => ⟨payload, hpayload, hheld.mono hc⟩)

theorem decode_nil (digest : PyStr) (o : CausalOutcome) : decode [] digest ≠ .ok o := by
  intro h
  obtain ⟨-, h⟩ := check_bind_eq_ok.1 h
  obtain ⟨value, hvalue, -⟩ := bind_eq_ok.1 h
  have hparse : parsePayload [] = .error (tampered "the sealed content is not canonical JSON") := by decide
  rw [hparse] at hvalue
  cases hvalue

theorem meets_readSealedResult (client : Client) (digest : PyStr) :
    sealing.Meets (fun o b' => ∃ payload, Holds (keyPrefix ++ digest) payload b' ∧ decode payload digest = .ok o)
      (readSealedResult client digest) b := by
  refine Service.Meets.bind (meets_lift fun key hkey => Service.Meets.bind (meets_lift fun _ _ => ?_))
  obtain ⟨-, rfl⟩ := objectKey_eq_ok hkey
  refine Service.Meets.bind ((meets_sealedBytes _).mono fun found b' hfound => ?_)
  cases found with
  | none => trivial
  | some payload =>
    refine meets_lift fun o ho => ⟨payload, hfound payload rfl ?_, ho⟩
    rintro rfl
    exact decode_nil digest o ho

end

/-! ## Runs -/

/-- The sealed outcomes have a lineage of JSON values. -/
def SealsJson : StoreCall → Prop
  | .sealResult _ _ o => JsonValue (.mapping o.lineage.entries)
  | .readSealedResult _ _ => True

/-- What a call that returned has established. -/
def Established : StoreCall → StoreResult → Bucket → Prop
  | .sealResult _ _ o, _, b => JsonValue (.mapping o.lineage.entries) ∧ Stored o b
  | .readSealedResult _ digest, .outcome o, b => ∃ payload, Holds (keyPrefix ++ digest) payload b ∧ decode payload digest = .ok o
  | .readSealedResult _ _, .sealed _, _ => True

theorem established_mono (c : StoreCall) (r : StoreResult) (b b' : Bucket) (hb : b <+: b') (h : Established c r b) :
    Established c r b' := by
  cases c with
  | sealResult client now o =>
    obtain ⟨hjson, payload, hpayload, hheld⟩ := h
    exact ⟨hjson, payload, hpayload, hheld.mono hb⟩
  | readSealedResult client digest =>
    cases r with
    | sealed result => trivial
    | outcome o =>
      obtain ⟨payload, hheld, hdecode⟩ := h
      exact ⟨payload, hheld.mono hb, hdecode⟩

theorem meets_program (c : StoreCall) (hc : SealsJson c) (b : Bucket) : sealing.Meets (Established c) (program c) b := by
  cases c with
  | sealResult client now o => exact Service.Meets.bind ((meets_sealResult client now o).mono fun r b' h => ⟨hc, h⟩)
  | readSealedResult client digest => exact Service.Meets.bind ((meets_readSealedResult client digest).mono fun r b' h => h)

/-- Writes are stored with their lock, and what is sealed is JSON. -/
def SealingTurn : Store → Turn StoreCall Fate → Prop := Interleaving.AllowedTurn SealsJson LocksWrites

theorem sealingTurn_answer {fate : Fate} (hfate : fate.locks = true) (s : Store) (i : ℕ) : SealingTurn s (.answer i fate) := by
  unfold SealingTurn Interleaving.AllowedTurn
  dsimp only
  split
  · next q _ _ =>
    unfold LocksWrites
    split
    · exact hfate
    · trivial
  · trivial

theorem sound_run {turns : List (Turn StoreCall Fate)} (h : AllSteps Store.step SealingTurn Store.initial turns) :
    Interleaving.Sound sealing Established (run Store.step Store.initial turns) := by
  refine Interleaving.run_meets (P := sealing) established_mono (fun c hc b _ => meets_program c hc b) ?_ h
  exact ⟨⟨List.nodup_nil, fun v hv => absurd hv List.not_mem_nil, fun v hv => absurd hv List.not_mem_nil,
    fun v hv => absurd hv List.not_mem_nil⟩, fun c hc => absurd hc List.not_mem_nil⟩

/-! ## What is sealed stays and is read back -/

/-- The version a key was first written with. -/
def Bucket.oldest (b : Bucket) (key : PyStr) : Option Version := b.find? fun v => v.key = key

/-- Every request is answered. -/
def answering (b : Bucket) (q : Request) : Bucket × Option (ℕ × Content) := serve b q (.answered true)

theorem filter_key {b : Bucket} (hsingle : (b.map Version.key).Nodup) {v : Version} (hv : v ∈ b) :
    (b.filter fun w => w.key = v.key) = [v] := by
  induction b with
  | nil => cases hv
  | cons w b ih =>
    rw [List.map_cons, List.nodup_cons] at hsingle
    rcases List.mem_cons.mp hv with rfl | hv
    · rw [List.filter_cons_of_pos (by simp), List.filter_eq_nil_iff.mpr]
      intro u hu
      simp only [decide_eq_true_eq]
      intro hkey
      exact hsingle.1 (hkey ▸ List.mem_map_of_mem hu)
    · have hne : ¬ w.key = v.key := fun hkey => hsingle.1 (hkey ▸ List.mem_map_of_mem hv)
      rw [List.filter_cons_of_neg (by simpa using hne), ih hsingle.2 hv]

theorem key_unique {b : Bucket} (hsingle : (b.map Version.key).Nodup) {v w : Version} (hv : v ∈ b) (hw : w ∈ b)
    (hkey : w.key = v.key) : w = v :=
  List.inj_on_of_nodup_map hsingle hw hv hkey

theorem find_of_unique {b : Bucket} {p : Version → Bool} {v : Version} (hv : v ∈ b) (hp : p v = true)
    (hunique : ∀ w ∈ b, p w = true → w = v) : b.find? p = some v := by
  cases hfind : b.find? p with
  | none => exact absurd hp (List.find?_eq_none.mp hfind v hv)
  | some w => rw [hunique w (List.mem_of_find?_eq_some hfind) (List.find?_some hfind)]

theorem oldest_eq {b : Bucket} (hsingle : (b.map Version.key).Nodup) {v : Version} (hv : v ∈ b) :
    b.oldest v.key = some v :=
  find_of_unique hv (by simp) fun w hw hkey => key_unique hsingle hv hw (by simpa using hkey)

theorem prefix_iff_key {b : Bucket} (h : b.Sound) {digest : PyStr} (hdigest : IsHexDigest digest) {v : Version}
    (hv : v ∈ b) : keyPrefix ++ digest <+: v.key ↔ v.key = keyPrefix ++ digest := by
  obtain ⟨digest', hdigest', hkey⟩ := h.addressed v hv
  rw [hkey]
  constructor
  · intro hgrows
    refine (hgrows.eq_of_length ?_).symm
    rw [List.length_append, List.length_append, hdigest.1, hdigest'.1]
  · rintro heq
    rw [heq]

theorem answered_sealedVersion {b : Bucket} (h : b.Sound) {digest : PyStr} (hdigest : IsHexDigest digest) {v : Version}
    (hv : v ∈ b) (hkey : v.key = keyPrefix ++ digest) :
    (sealedVersion (keyPrefix ++ digest)).answered answering b = (.ok (some v.versionId), b) := by
  have hfound : (b.filter fun w => keyPrefix ++ digest <+: w.key) = [v] := by
    rw [← filter_key h.single hv, hkey]
    exact List.filter_congr fun w hw => by rw [decide_eq_decide]; exact prefix_iff_key h hdigest hw
  have hlist : answering b (.listVersions (keyPrefix ++ digest)) =
      (b, some (200, .versions false [(keyPrefix ++ digest, v.versionId)])) := by
    simp only [answering, serve, handle, hfound]
    rw [← hkey]
    rfl
  have hsend : (send (.listVersions (keyPrefix ++ digest))).answered answering b =
      (.ok (200, .versions false [(keyPrefix ++ digest, v.versionId)]), b) := by
    simp only [send, Session.request_bind, Session.answered, hlist]
    rfl
  rw [sealedVersion, Session.answered_bind hsend]
  simp [denied, refuseIf, h.named v hv, Session.answered, pure]

theorem answered_sealedBytes {b : Bucket} (h : b.Sound) {digest : PyStr} (hdigest : IsHexDigest digest) {v : Version}
    (hv : v ∈ b) (hkey : v.key = keyPrefix ++ digest) :
    (sealedBytes (keyPrefix ++ digest)).answered answering b = (.ok (some v.payload), b) := by
  have hfind : (b.find? fun w => w.key = keyPrefix ++ digest ∧ w.versionId = v.versionId) = some v := by
    refine find_of_unique hv (by simp [hkey]) fun w hw hmatch => key_unique h.single hv hw ?_
    rw [decide_eq_true_eq] at hmatch
    rw [hmatch.1, hkey]
  have hget : answering b (.getVersion (keyPrefix ++ digest) v.versionId) = (b, some (200, .object v.payload)) := by
    simp only [answering, serve, handle, hfind]
  have hsend : (send (.getVersion (keyPrefix ++ digest) v.versionId)).answered answering b =
      (.ok (200, .object v.payload), b) := by
    simp only [send, Session.request_bind, Session.answered, hget]
    rfl
  rw [sealedBytes, Session.answered_bind (answered_sealedVersion h hdigest hv hkey)]
  dsimp only
  rw [Session.answered_bind hsend]
  simp [denied, refuseIf, Session.answered, Content.raw, pure]

theorem answered_readSealedResult {b : Bucket} (h : b.Sound) {digest : PyStr} (hdigest : IsHexDigest digest)
    {v : Version} (hv : v ∈ b) (hkey : v.key = keyPrefix ++ digest) {client : Client} (hclient : client.initialized = true)
    {o : CausalOutcome} (ho : decode v.payload digest = .ok o) :
    (readSealedResult client digest).answered answering b = (.ok o, b) := by
  have hobject : objectKey digest = .ok (keyPrefix ++ digest) := by
    simp [objectKey, refuseIf, hdigest, bind, Except.bind, pure, Except.pure]
  have hinit : requireInitialized client = .ok () := by
    simp [requireInitialized, refuseIf, hclient]
  simp only [readSealedResult, hobject, hinit, Session.lift_ok, Session.returned_bind]
  rw [Session.answered_bind (answered_sealedBytes h hdigest hv hkey)]
  simp only [ho, Session.lift_ok, Session.answered]

/-- The outcome is sealed: the oldest version under its digest is its payload and carries the retention, and a
read returns an outcome equal to it. -/
structure Retained (o : CausalOutcome) (b : Bucket) : Prop where
  oldest : ∃ v, b.oldest (keyPrefix ++ o.reproducibilityDigest) = some v ∧ sealedPayload o = .ok v.payload ∧ v.Locked
  reads : ∀ client : Client, client.initialized = true → ∃ o',
    (readSealedResult client o.reproducibilityDigest).answered answering b = (.ok o', b) ∧ o.eq o' = true

/-- At most one version is written for each key, every call that returned sealed its outcome, and every read of
that digest that returned, returned an outcome equal to it. -/
structure ResultsRetained (s : Store) : Prop where
  single : ∀ key, (s.service.filter fun v => v.key = key).length ≤ 1
  retained : ∀ client now o result, s.Returned (.sealResult client now o) (.sealed result) → Retained o s.service
  read : ∀ client now o result, s.Returned (.sealResult client now o) (.sealed result) →
    ∀ client' o', s.Returned (.readSealedResult client' o.reproducibilityDigest) (.outcome o') → o.eq o' = true

theorem single_of_sound {b : Bucket} (h : b.Sound) (key : PyStr) : (b.filter fun v => v.key = key).length ≤ 1 := by
  cases hfilter : b.filter fun v => v.key = key with
  | nil => simp
  | cons v rest =>
    have hv : v ∈ b.filter fun v => v.key = key := by
      rw [hfilter]
      exact List.mem_cons_self
    have hmem := List.mem_filter.mp hv
    have hkey : v.key = key := by simpa using hmem.2
    have hone := filter_key h.single hmem.1
    rw [hkey, hfilter] at hone
    rw [hone]
    rfl

theorem isHexDigest_sealed {o : CausalOutcome} {payload : Bytes} (h : sealedPayload o = .ok payload) :
    IsHexDigest o.reproducibilityDigest := by
  rw [← (sealedPayload_eq_ok h).2]
  refine ⟨Sha256.hexdigest_length payload, fun c hc => ?_⟩
  obtain ⟨d, hd, rfl⟩ := mem_hex hc
  rw [hexDigit_val hd]
  split_ifs <;> omega

theorem decode_stored {o : CausalOutcome} (hjson : JsonValue (.mapping o.lineage.entries)) {b : Bucket} (h : Stored o b) :
    ∃ v ∈ b, v.key = keyPrefix ++ o.reproducibilityDigest ∧ sealedPayload o = .ok v.payload ∧
      ∃ o', decode v.payload o.reproducibilityDigest = .ok o' ∧ o.eq o' = true := by
  obtain ⟨payload, hpayload, v, hv, hkey, rfl⟩ := h
  exact ⟨v, hv, hkey, hpayload, decode_sealedPayload hpayload hjson⟩

/-- **Sealed results are retained.** In every interleaving of clients, with requests and responses lost or failed
anywhere, in which every version is stored with the lock its write asks for and the lineage of every sealed outcome
is a JSON value: whatever was sealed is the oldest and only version, under retention, and is read back. -/
theorem sealed_results_retained (turns : List (Turn StoreCall Fate))
    (h : AllSteps Store.step SealingTurn Store.initial turns) :
    ResultsRetained (run Store.step Store.initial turns) := by
  have hsound := sound_run h
  have hinv : (run Store.step Store.initial turns).service.Sound := hsound.inv
  refine ⟨single_of_sound hinv, fun client now o result hret => ?_, fun client now o result hret client' o' hret' => ?_⟩
  · obtain ⟨hjson, hstored⟩ := hsound.of_returned hret
    obtain ⟨v, hv, hkey, hpayload, o', hdecode, heq⟩ := decode_stored hjson hstored
    refine ⟨⟨v, hkey ▸ oldest_eq hinv.single hv, hpayload, hinv.locked v hv⟩, fun reader hreader => ⟨o', ?_, heq⟩⟩
    exact answered_readSealedResult hinv (isHexDigest_sealed hpayload) hv hkey hreader hdecode
  · obtain ⟨hjson, hstored⟩ := hsound.of_returned hret
    obtain ⟨v, hv, hkey, -, o'', hdecode, heq⟩ := decode_stored hjson hstored
    obtain ⟨payload, ⟨w, hw, hkey', rfl⟩, hdecode'⟩ := hsound.of_returned hret'
    rw [key_unique hinv.single hv hw (hkey'.trans hkey.symm), hdecode] at hdecode'
    cases hdecode'
    exact heq

/-! ## A version without its lock -/

section
variable {o : CausalOutcome} {payload : Bytes} {client : Client} {now : Instant}

theorem objectKey_sealed (hpayload : sealedPayload o = .ok payload) :
    objectKey o.reproducibilityDigest = .ok (keyPrefix ++ o.reproducibilityDigest) := by
  simp [objectKey, refuseIf, isHexDigest_sealed hpayload, bind, Except.bind, pure, Except.pure]

def unlocked (o : CausalOutcome) (payload : Bytes) : Version :=
  ⟨keyPrefix ++ o.reproducibilityDigest, natText 1, payload, none⟩

theorem play_unlocked (hpayload : sealedPayload o = .ok payload) (hclient : client.initialized = true)
    {lockedUntil : PyStr} (huntil : retainUntil client now = .ok lockedUntil) :
    (program (.sealResult client now o)).play serve [.answered true, .answered false, .answered true] [] =
      (.raised (sealedResultError "RETENTION_NOT_APPLIED" "the sealed version has no COMPLIANCE retention"),
        [unlocked o payload]) := by
  simp only [program, sealResult, requireInitialized, hclient, hpayload, objectKey_sealed hpayload, refuseIf,
    Session.lift_ok, Session.returned_bind, Bool.true_eq_false, if_false, sealedBytes, sealedVersion, send, huntil]
  simp [Session.play, serve, handle, bind, Session.bind, Session.request, denied, refuseIf, pure, Content.versionId,
    natText_ne_nil, confirmRetention, send, unlocked]

theorem play_again (hpayload : sealedPayload o = .ok payload) (hclient : client.initialized = true) :
    (program (.sealResult client now o)).play serve [.answered true, .answered true] [unlocked o payload] =
      (.returned (.sealed ⟨o.reproducibilityDigest, false⟩), [unlocked o payload]) := by
  simp only [program, sealResult, requireInitialized, hclient, hpayload, objectKey_sealed hpayload, refuseIf,
    Session.lift_ok, Session.returned_bind, Bool.true_eq_false, if_false, sealedBytes, sealedVersion, send]
  simp [Session.play, serve, handle, bind, Session.bind, Session.request, denied, refuseIf, pure, Content.raw, maxKeys,
    natText_ne_nil, settle, unlocked, Except.bind, Except.pure]

end

theorem sortedMembers_bodyFields (o : CausalOutcome) : StandardJson.sortedMembers (bodyFields o) =
    [(py "assumptions", .list (o.assumptions.map .str)), (py "details", .mapping o.details.entries),
      (py "effect", optionalText o.effect), (py "lineage", .mapping o.lineage.entries),
      (py "method", optionalText o.method), (py "reason_code", optionalText o.reasonCode), (py "status", .str o.status)] := by
  simp +decide only [StandardJson.sortedMembers, bodyFields, List.map_cons, List.map_nil, keyText,
    List.insertionSort, List.foldr, List.orderedInsert, StandardJson.MemberLe, if_true, if_false]

def sampleText : PyStr :=
  py "\x7b" ++ joinCommas [py "\"assumptions\":[]", py "\"details\":\x7b\x7d", py "\"effect\":null",
    py "\"lineage\":\x7b\x7d", py "\"method\":null", py "\"reason_code\":" ++ py "\"RELEASE_MISMATCH\"",
    py "\"status\":\"ABSTAIN\""] ++ py "\x7d"

def samplePayload : Bytes := utf8Encode sampleText

/-- An outcome that abstains. -/
def abstention (digest : PyStr) : CausalOutcome where
  status := py "ABSTAIN"
  reasonCode := some (py "RELEASE_MISMATCH")
  method := none
  effect := none
  details := .empty
  described := fun _ he => absurd he List.not_mem_nil
  assumptions := []
  lineage := .empty
  traced := fun _ he => absurd he List.not_mem_nil
  reproducibilityDigest := digest

theorem abstention_digest (digest : PyStr) : (abstention digest).reproducibilityDigest = digest := rfl

def sampleOutcome : CausalOutcome := abstention (Sha256.hexdigest samplePayload)

theorem sealedPayload_sample : sealedPayload sampleOutcome = .ok samplePayload := by
  have hdumps : UnicodeJson.dumps (body sampleOutcome) = .ok sampleText := by
    rw [body, UnicodeJson.dumps_mapping (str?_isSome (bodyFields_textKeys _)), sortedMembers_bodyFields]
    decide
  have hscalar : Scalar sampleText := by decide
  have hencode : encode (body sampleOutcome) = .ok samplePayload := encode_eq_ok.2 ⟨sampleText, hdumps, hscalar, rfl⟩
  exact sealedPayload_of_encode hencode (abstention_digest _).symm

def sampleClient : Client := ⟨true, 900000000, by decide⟩

def sampleCall : StoreCall := .sealResult sampleClient 0 sampleOutcome

/-- The first write loses its lock; the same call is sent again. -/
def unlockedTurns : List (Turn StoreCall Fate) :=
  [.start sampleCall, .answer 0 (.answered true), .answer 0 (.answered false), .answer 0 (.answered true),
    .start sampleCall, .answer 1 (.answered true), .answer 1 (.answered true)]

theorem run_two_calls {c d : StoreCall} {fates fates' : List Fate} {x y : Call StoreResult} {b b' : Bucket}
    (hfirst : (program c).play serve fates [] = (x, b)) (hsecond : (program d).play serve fates' b = (y, b')) :
    run Store.step Store.initial (.start c :: (fates.map (.answer 0) ++ .start d :: fates'.map (.answer 1))) =
      ⟨b', [(c, x), (d, y)]⟩ := by
  have hplay := Interleaving.run_play serve program c fates (program c) [] []
  have hplay' := Interleaving.run_play serve program d fates' (program d) b [(c, x)]
  rw [hfirst] at hplay
  rw [hsecond] at hplay'
  rw [run_cons, run_append]
  exact (congrArg (fun s => run Store.step s _) hplay).trans hplay'

theorem run_unlockedTurns : run Store.step Store.initial unlockedTurns =
    ⟨[unlocked sampleOutcome samplePayload],
      [(sampleCall, .raised (sealedResultError "RETENTION_NOT_APPLIED" "the sealed version has no COMPLIANCE retention")),
        (sampleCall, .returned (.sealed ⟨sampleOutcome.reproducibilityDigest, false⟩))]⟩ := by
  have huntil : retainUntil sampleClient 0 = .ok (py "1970-01-01T00:15:00Z") := by decide
  have hfirst := play_unlocked sealedPayload_sample (show sampleClient.initialized = true from rfl) huntil
  have hsecond : (program sampleCall).play serve [.answered true, .answered true] _ = _ :=
    play_again sealedPayload_sample (show sampleClient.initialized = true from rfl)
  have hturns : unlockedTurns = .start sampleCall ::
      ([Fate.answered true, .answered false, .answered true].map (.answer 0) ++
        .start sampleCall :: [Fate.answered true, .answered true].map (.answer 1)) := rfl
  rw [hturns]
  exact run_two_calls hfirst hsecond

/-- **A retry reports a result as sealed whose version has no retention.** -/
theorem unlocked_result_is_sealed : ∃ turns, ¬ ResultsRetained (run Store.step Store.initial turns) := by
  refine ⟨unlockedTurns, fun h => ?_⟩
  rw [run_unlockedTurns] at h
  have hret := h.retained sampleClient 0 sampleOutcome _ (List.mem_cons_of_mem _ List.mem_cons_self)
  obtain ⟨v, hv, -, lock, hlock, -⟩ := hret.oldest
  have hfound : Bucket.oldest [unlocked sampleOutcome samplePayload] (keyPrefix ++ sampleOutcome.reproducibilityDigest) =
      some (unlocked sampleOutcome samplePayload) := by
    simp [Bucket.oldest, unlocked]
  rw [hfound] at hv
  cases hv
  cases hlock

/-- Two clients seal at once: the second write is refused, and both calls return. -/
theorem sealed_results_retained_raced :
    let turns : List (Turn StoreCall Fate) := [.start sampleCall, .start sampleCall, .answer 0 (.answered true),
      .answer 1 (.answered true), .answer 0 (.answered true), .answer 1 (.answered true), .answer 0 (.lost true true)]
    AllSteps Store.step SealingTurn Store.initial turns ∧ ResultsRetained (run Store.step Store.initial turns) := by
  intro turns
  have hseal : SealsJson sampleCall :=
    .mapping (fun e he => absurd he List.not_mem_nil) List.nodup_nil fun e he => absurd he List.not_mem_nil
  have h : AllSteps Store.step SealingTurn Store.initial turns := by
    refine allSteps_of_forall (fun turn hturn s => ?_) _
    simp only [turns, List.mem_cons, List.not_mem_nil, or_false] at hturn
    rcases hturn with rfl | rfl | rfl | rfl | rfl | rfl | rfl
    · exact hseal
    · exact hseal
    all_goals exact sealingTurn_answer rfl s _
  exact ⟨h, sealed_results_retained turns h⟩

end OcorRuntime.Scenario
