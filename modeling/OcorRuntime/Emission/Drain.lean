import OcorRuntime.Emission.Sharing

/-! Draining the outbox through one of several fences that share it. The outbox is
sorted by time and versions of an aggregate are in time order, so a drain meets the
pending versions of an aggregate in their order. What can stop it is what the fence
remembers: a version it has passed, or a registration made before another fence
emitted the event. -/
namespace OcorRuntime.Emission
open Store Capabilities Marking
set_option autoImplicit false
set_option maxHeartbeats 250000
set_option maxRecDepth 120000

def NeverRaises (sink : Sink) : Prop := ∀ calls event, ∃ value, (callSink sink calls event).1 = .ok value

def EmissionFence.Plain (f : EmissionFence) : Prop := f.markingEngine = none ∧ f.requireCapability = false

namespace EmissionFence.Plain
variable {f : EmissionFence}

theorem checkDisclosure (h : f.Plain) (r : EmitRequest) : f.checkDisclosure r = .ok () := by
  rw [EmissionFence.checkDisclosure, h.1]

theorem checkCapability (h : f.Plain) (r : EmitRequest) (event : OutboxEvent) (instant : Instant) :
    f.checkCapability r event instant = (.ok (), f) := by
  simp [EmissionFence.checkCapability, h.2]

end EmissionFence.Plain

namespace Boundary

def Pending (b : Boundary) (e : OutboxEvent) : Prop := b.store.events.get? e.eventId = some e ∧ e.emittedAt = none

/-- The fence has not passed the version of `e`, and no earlier version that it registered as pending and holds no
receipt for is recorded as emitted by now. -/
def Unobstructed (b : Boundary) (e : OutboxEvent) : Prop :=
  b.fence.last e.aggregateId < e.aggregateVersion ∧
    ∀ c ∈ b.fence.registered.values, c.aggregateId = e.aggregateId → c.aggregateVersion < e.aggregateVersion →
      c.emittedAt = none → b.fence.receipts.get? c.eventId = none →
      ∀ d, b.store.getEvent c.eventId = some d → d.emittedAt = none

variable {S : Set Bytes} {b : Boundary}

/-! ## One registration -/

theorem registered_pending (ht : Tracks b.store b.fence) {e : OutboxEvent} (he : b.Pending e) :
    ∀ x, b.fence.registered.get? e.eventId = some x → x = e := by
  intro x hx
  obtain ⟨d, hd, hxd⟩ := ht.registered hx
  rw [he.1] at hd
  cases hd
  have hself : { e with emittedAt := none } = e := by rw [← he.2]
  rcases hxd with rfl | rfl
  · rfl
  · exact hself

theorem register_pending (hc : b.store.Consistent S) (ht : Tracks b.store b.fence) {e : OutboxEvent} (he : b.Pending e) :
    b.fence.register b.store e = (.ok e, b.fence.enroll e) := by
  unfold EmissionFence.register
  rw [EmissionFence.admissible_self hc he.1 (registered_pending ht he)]
  dsimp only
  rw [EmissionFence.accept_pending he.2]

theorem unobstructed_registered (ht : Tracks b.store b.fence) {e : OutboxEvent} (he : b.Pending e) (x : OutboxEvent) :
    Unobstructed { b with fence := b.fence.enroll e } x ↔
      Unobstructed b x := by
  refine and_congr Iff.rfl ⟨fun h c hc => ?_, fun h c hc => ?_⟩
  · obtain ⟨id, hid⟩ := (Dict.mem_values_iff _ c).mp hc
    by_cases heq : e.eventId = id
    · have hce := registered_pending ht he c (heq ▸ hid)
      intro _ _ _ _ d hd
      rw [hce, AtomicOutboxStore.getEvent, he.1] at hd
      cases hd
      exact he.2
    · exact h c ((Dict.mem_values_iff _ c).mpr ⟨id, (Dict.get?_set_of_ne _ e heq).trans hid⟩)
  · obtain ⟨id, hid⟩ := (Dict.mem_values_iff _ c).mp hc
    rw [EmissionFence.enroll, Dict.get?_set] at hid
    split_ifs at hid
    · cases hid
      intro _ _ _ _ d hd
      rw [AtomicOutboxStore.getEvent, he.1] at hd
      cases hd
      exact he.2
    · exact h c ((Dict.mem_values_iff _ c).mpr ⟨id, hid⟩)

theorem registerAll_pending (hc : b.store.Consistent S) (ht : Tracks b.store b.fence) (hplain : b.fence.Plain)
    {events : List OutboxEvent} (hevents : ∀ e ∈ events, b.Pending e) :
    ∃ f, b.registerAll events = (.ok (), { b with fence := f }) ∧ Tracks b.store f ∧ f.Plain ∧
      ∀ x, Unobstructed { b with fence := f } x ↔ Unobstructed b x := by
  induction events generalizing b with
  | nil => exact ⟨b.fence, rfl, ht, hplain, fun x => Iff.rfl⟩
  | cons e events ih =>
    have he := hevents e (List.mem_cons_self ..)
    have htracks := EmissionFence.tracks_register ht e
    rw [register_pending hc ht he] at htracks
    obtain ⟨f, hf, htf, hplainf, hsame⟩ :=
      @ih { b with fence := b.fence.enroll e } hc htracks hplain
        fun x hx => hevents x (List.mem_cons_of_mem e hx)
    refine ⟨f, ?_, htf, hplainf, fun x => (hsame x).trans (unobstructed_registered ht he x)⟩
    rw [registerAll, register_pending hc ht he]
    exact hf

/-! ## One emission -/

theorem Unobstructed.order (hc : b.store.Consistent S) (ht : Tracks b.store b.fence) {e : OutboxEvent} (he : b.Pending e)
    (hfirst : ∀ x, b.Pending x → x.aggregateId = e.aggregateId → e.aggregateVersion ≤ x.aggregateVersion)
    (h : Unobstructed b e) : (b.fence.accept e).checkOrder b.store e = .ok () := by
  rw [EmissionFence.accept_pending he.2]
  refine (@EmissionFence.checkOrder_eq_ok b.store (b.fence.enroll e) ht.bound e).mpr ⟨h.1, ?_⟩
  rintro c hcand hca hcv hcpending hreceipt
  have hearlier : ∀ d, b.store.events.get? c.eventId = some d → d.emittedAt = none → d = c → False := by
    rintro d hd hpending rfl
    exact absurd hcv (not_lt.mpr (hfirst d ⟨hd, hpending⟩ hca))
  rcases hcand with hreg | hstore
  · obtain ⟨id, hid⟩ := (Dict.mem_values_iff _ c).mp hreg
    rw [EmissionFence.enroll, Dict.get?_set] at hid
    split_ifs at hid with heq
    · cases hid
      exact absurd hcv (lt_irrefl _)
    · obtain ⟨d, hd, hcd⟩ := ht.registered hid
      have hcid : c.eventId = id := ht.registered_id hc hid
      rw [← hcid] at hd hid
      have hpending := h.2 c ((Dict.mem_values_iff _ c).mpr ⟨_, hid⟩) hca hcv hcpending hreceipt d hd
      refine hearlier d hd hpending ?_
      rcases hcd with rfl | rfl
      · rfl
      · rw [← hpending]
  · obtain ⟨id, hid⟩ := (Dict.mem_values_iff _ c).mp hstore
    rw [← (hc.event_id hid).1] at hid
    exact hearlier c hid hcpending rfl

theorem unobstructed_of_order (ht : Tracks b.store b.fence) {e : OutboxEvent} (he : b.Pending e)
    (h : (b.fence.accept e).checkOrder b.store e = .ok ()) : Unobstructed b e := by
  rw [EmissionFence.accept_pending he.2] at h
  obtain ⟨hlast, hclear⟩ := (@EmissionFence.checkOrder_eq_ok b.store (b.fence.enroll e) ht.bound e).mp h
  refine ⟨hlast, fun c hc hca hcv hcpending hreceipt d hd => ?_⟩
  by_contra
  obtain ⟨id, hid⟩ := (Dict.mem_values_iff _ c).mp hc
  refine hclear c (Or.inl ((Dict.mem_values_iff _ c).mpr ⟨id, ?_⟩)) hca hcv hcpending hreceipt
  by_cases heq : e.eventId = id
  · have hce := registered_pending ht he c (heq ▸ hid)
    rw [hce] at hcv
    exact absurd hcv (lt_irrefl _)
  · exact (Dict.get?_set_of_ne _ e heq).trans hid

theorem emit_unobstructed (hc : b.store.Consistent S) (ht : Tracks b.store b.fence) (hplain : b.fence.Plain)
    {r : EmitRequest} (hsink : NeverRaises r.sink) {t : Instant} (hinstant : requireAware r.instant "at" = .ok t)
    {e : OutboxEvent} (he : b.Pending e) (htime : e.occurredAt ≤ t)
    (horder : (b.fence.accept e).checkOrder b.store e = .ok ()) : ∃ receipt b', b.emit r e = (.ok receipt, b') := by
  have hreceipt : b.fence.receipts.get? e.eventId = none := by
    by_contra hne
    obtain ⟨receipt, hr⟩ := Option.ne_none_iff_exists'.mp hne
    obtain ⟨d, hd, hemitted⟩ := ht.receipts hr
    rw [he.1] at hd
    cases hd
    exact hemitted he.2
  rw [EmissionFence.accept_pending he.2] at horder
  unfold emit
  rw [hinstant]
  dsimp only
  rw [hreceipt, register_pending hc ht he]
  dsimp only
  unfold release
  have henrolled : (b.fence.enroll e).Plain := hplain
  rw [checkGates_eq_ok.2 ⟨htime, horder, henrolled.checkDisclosure r⟩]
  dsimp only
  rw [henrolled.checkCapability r e t]
  dsimp only
  rcases @deliver_cases { b with fence := b.fence.enroll e } ht.bound r e t
    he.1 he.2 htime with ⟨err, calls, herr, -⟩ | ⟨value, h⟩
  · obtain ⟨value, hvalue⟩ := hsink b.calls e
    rw [hvalue] at herr
    cases herr
  · exact ⟨_, _, h⟩

theorem emit_pending (hc : b.store.Consistent S) (ht : Tracks b.store b.fence) (hplain : b.fence.Plain)
    {r : EmitRequest} (hsink : NeverRaises r.sink) {t : Instant} (hinstant : requireAware r.instant "at" = .ok t)
    {e : OutboxEvent} (he : b.Pending e) (htime : e.occurredAt ≤ t)
    (hfirst : ∀ x, b.Pending x → x.aggregateId = e.aggregateId → e.aggregateVersion ≤ x.aggregateVersion) :
    (Unobstructed b e ∧ ∃ t' value b', b.emit r e = (.ok (receiptOf e t' value), b') ∧ Crossed b b' e t' value) ∨
      (¬ Unobstructed b e ∧ ∃ err b', b.emit r e = (.error err, b')) := by
  rcases emit_cases ht.bound r e with ⟨receipt, hr, -⟩ | ⟨err, b', hemit, -⟩ | ⟨d, t', value, b', hid, hemit, hx⟩
  · obtain ⟨d, hd, hemitted⟩ := ht.receipts hr
    rw [he.1] at hd
    cases hd
    exact absurd he.2 hemitted
  · refine Or.inr ⟨fun hready => ?_, err, b', hemit⟩
    obtain ⟨receipt, b'', h⟩ := emit_unobstructed hc ht hplain hsink hinstant he htime (hready.order hc ht he hfirst)
    rw [h] at hemit
    cases hemit
  · have hde : d = e := by
      have hd := hx.durable
      rw [hid, he.1] at hd
      exact (Option.some.inj hd).symm
    subst hde
    exact Or.inl ⟨unobstructed_of_order ht he hx.order, t', value, b', hemit, hx⟩

theorem Crossed.plain {b' : Boundary} {e : OutboxEvent} {t : Instant} {value : PyValue} (h : Crossed b b' e t value)
    (hplain : b.fence.Plain) : b'.fence.Plain := by
  obtain ⟨authority, hf⟩ := h.fence
  rw [hf, EmissionFence.accept_pending h.pending]
  exact hplain

theorem Crossed.unobstructed (hc : b.store.Consistent S) (ht : Tracks b.store b.fence) {b' : Boundary} {e : OutboxEvent}
    {t : Instant} {value : PyValue} (h : Crossed b b' e t value) (hready : Unobstructed b e) {x : OutboxEvent}
    (hlater : e.aggregateId = x.aggregateId → e.aggregateVersion < x.aggregateVersion) :
    Unobstructed b' x ↔ Unobstructed b x := by
  have hlast : b'.fence.last x.aggregateId < x.aggregateVersion ↔ b.fence.last x.aggregateId < x.aggregateVersion := by
    rw [h.last]
    split_ifs with ha
    · have h1 := hready.1
      have h2 := hlater ha
      rw [ha] at h1
      omega
    · exact Iff.rfl
  refine and_congr hlast ⟨fun hx c hm hca hcv hcp hcr d hd => ?_, fun hx c hm hca hcv hcp hcr d hd => ?_⟩
  · obtain ⟨id, hid⟩ := (Dict.mem_values_iff _ c).mp hm
    by_cases heq : e.eventId = id
    · have hce := registered_pending ht ⟨h.durable, h.pending⟩ c (heq ▸ hid)
      rw [hce, AtomicOutboxStore.getEvent, h.durable] at hd
      cases hd
      exact h.pending
    · have hcid : c.eventId = id := ht.registered_id hc hid
      refine hx c ((Dict.mem_values_iff _ c).mpr ⟨id, ?_⟩) hca hcv hcp ?_ d ?_
      · rw [h.registered, Dict.get?_set_of_ne _ _ heq, hid]
      · rwa [h.receipts, Dict.get?_set_of_ne _ _ (hcid ▸ heq)]
      · exact h.events.mpr ⟨d, hd, (if_neg (hcid ▸ Ne.symm heq)).symm⟩
  · obtain ⟨id, hid⟩ := (Dict.mem_values_iff _ c).mp hm
    rw [h.registered, Dict.get?_set] at hid
    split_ifs at hid with heq
    · cases hid
      rw [h.receipts, Dict.get?_set_self] at hcr
      cases hcr
    · have hcid : c.eventId = id := ht.registered_id hc hid
      rw [h.receipts, Dict.get?_set_of_ne _ _ (hcid ▸ heq)] at hcr
      obtain ⟨y, hy, rfl⟩ := h.events.mp hd
      rw [if_neg (hcid ▸ Ne.symm heq)]
      exact hx c ((Dict.mem_values_iff _ c).mpr ⟨id, hid⟩) hca hcv hcp hcr y hy

/-! ## The second loop -/

theorem version_le_of_sortLe (hc : b.store.Consistent S) {e x : OutboxEvent} (he : b.Pending e) (hx : b.Pending x)
    (ha : x.aggregateId = e.aggregateId) (h : AtomicOutboxStore.SortLe e x) : e.aggregateVersion ≤ x.aggregateVersion := by
  by_contra hlt
  have htime := hc.version_time hx.1 he.1 ha (not_le.mp hlt)
  unfold AtomicOutboxStore.SortLe AtomicOutboxStore.sortKey at h
  rw [ha] at h
  simp only [Prod.Lex.toLex_le_toLex, lt_irrefl, true_and, false_or] at h
  rcases h with h | ⟨-, h⟩
  · exact absurd htime (not_le.mpr h)
  · omega

/-- The loop over the pending events: with all of them unobstructed each is delivered, in order, and nothing stays
pending; otherwise it raises. -/
theorem emitAll_pending {events : List OutboxEvent} {r : EmitRequest} (hsink : NeverRaises r.sink) {t : Instant}
    (hinstant : requireAware r.instant "at" = .ok t) (hsorted : events.Pairwise AtomicOutboxStore.SortLe)
    (hnodup : events.Nodup) (htime : ∀ e ∈ events, e.occurredAt ≤ t) (hc : b.store.Consistent S)
    (ht : Tracks b.store b.fence) (hplain : b.fence.Plain) (hevents : ∀ e, e ∈ events ↔ b.Pending e) :
    ((∀ e ∈ events, Unobstructed b e) ∧ ∃ receipts b' answers, b.emitAll r events = (.ok receipts, b') ∧
        b'.calls = b.calls ++ answers ∧ answers.map SinkCall.event = events ∧
        (∀ call ∈ answers, call.answer.isOk = true) ∧ b'.store.Consistent S ∧ ∀ e, ¬ b'.Pending e) ∨
      ((¬ ∀ e ∈ events, Unobstructed b e) ∧ ∃ err b', b.emitAll r events = (.error err, b')) := by
  induction events generalizing b with
  | nil =>
    refine Or.inl ⟨by simp, [], b, [], rfl, by simp, rfl, by simp, hc, fun e he => ?_⟩
    exact absurd ((hevents e).mpr he) List.not_mem_nil
  | cons e events ih =>
    have he := (hevents e).mp (List.mem_cons_self ..)
    rw [List.pairwise_cons] at hsorted
    rw [List.nodup_cons] at hnodup
    have hfirst : ∀ x, b.Pending x → x.aggregateId = e.aggregateId → e.aggregateVersion ≤ x.aggregateVersion := by
      intro x hx ha
      rcases List.mem_cons.mp ((hevents x).mpr hx) with rfl | hmem
      · exact le_refl _
      · exact version_le_of_sortLe hc he hx ha (hsorted.1 x hmem)
    rcases emit_pending hc ht hplain hsink hinstant he (htime e (List.mem_cons_self ..)) hfirst with
      ⟨hready, t', value, b', hemit, hx⟩ | ⟨hnot, err, b', hemit⟩
    · have hlater : ∀ x ∈ events, e.aggregateId = x.aggregateId → e.aggregateVersion < x.aggregateVersion := by
        intro x hmem ha
        have hpx := (hevents x).mp (List.mem_cons_of_mem e hmem)
        refine lt_of_le_of_ne (hfirst x hpx ha.symm) fun hv => hnodup.1 ?_
        have hid := hc.version_unique he.1 hpx.1 ha hv
        have hxe := hpx.1
        rw [← hid, he.1] at hxe
        rwa [Option.some.inj hxe]
      have hrest : ∀ x, x ∈ events ↔ b'.Pending x := by
        intro x
        constructor
        · intro hmem
          have hpx := (hevents x).mp (List.mem_cons_of_mem e hmem)
          have hne : ¬ x.eventId = e.eventId := by
            intro hid
            have hxe := hpx.1
            rw [hid, he.1] at hxe
            exact hnodup.1 (Option.some.inj hxe ▸ hmem)
          exact ⟨hx.events.mpr ⟨x, hpx.1, (if_neg hne).symm⟩, hpx.2⟩
        · rintro ⟨hget, hpending⟩
          obtain ⟨y, hy, hxy⟩ := hx.events.mp hget
          split_ifs at hxy with hid
          · rw [hxy] at hpending
            cases hpending
          · subst hxy
            rcases List.mem_cons.mp ((hevents x).mpr ⟨hy, hpending⟩) with rfl | hmem
            · exact absurd rfl hid
            · exact hmem
      have hready' : (∀ x ∈ e :: events, Unobstructed b x) ↔ ∀ x ∈ events, Unobstructed b' x := by
        rw [List.forall_mem_cons]
        constructor
        · exact fun h x hmem => (hx.unobstructed hc ht hready (hlater x hmem)).mpr (h.2 x hmem)
        · exact fun h => ⟨hready, fun x hmem => (hx.unobstructed hc ht hready (hlater x hmem)).mp (h x hmem)⟩
      rw [hready', emitAll, hemit]
      dsimp only
      rcases ih hsorted.2 hnodup.2 (fun x hmem => htime x (List.mem_cons_of_mem e hmem)) (hx.consistent hc)
        (hx.tracks ht) (hx.plain hplain) hrest with
        ⟨hall, receipts, b'', answers, hrun, hcalls, hmap, hok, hc'', hnone⟩ | ⟨hnot, err, b'', hrun⟩
      · refine Or.inl ⟨hall, receiptOf e t' value :: receipts, b'', ⟨e, .ok value⟩ :: answers, by rw [hrun], ?_, ?_, ?_,
          hc'', hnone⟩
        · rw [hcalls, hx.calls, List.append_assoc, List.singleton_append]
        · rw [List.map_cons, hmap]
        · exact List.forall_mem_cons.mpr ⟨rfl, hok⟩
      · exact Or.inr ⟨hnot, err, b'', by rw [hrun]⟩
    · refine Or.inr ⟨fun h => hnot (h e (List.mem_cons_self ..)), err, b', ?_⟩
      rw [emitAll, hemit]

/-! ## Drains -/

theorem mem_outbox (hc : b.store.Consistent S) (e : OutboxEvent) : e ∈ b.store.outbox ↔ b.Pending e := by
  rw [AtomicOutboxStore.outbox, List.mem_insertionSort, List.mem_filter, hc.mem_values_iff, Pending]
  simp

theorem outbox_sorted (store : AtomicOutboxStore) : store.outbox.Pairwise AtomicOutboxStore.SortLe := by
  have htotal : Std.Total AtomicOutboxStore.SortLe :=
    ⟨fun x y => le_total (AtomicOutboxStore.sortKey x) (AtomicOutboxStore.sortKey y)⟩
  have htrans : IsTrans OutboxEvent AtomicOutboxStore.SortLe := ⟨fun x y z hxy hyz => le_trans hxy hyz⟩
  exact List.pairwise_insertionSort _ _

theorem outbox_nodup (hc : b.store.Consistent S) : b.store.outbox.Nodup :=
  (List.perm_insertionSort _ _).nodup_iff.mpr (hc.values_nodup.filter _)

/-- The drain succeeds, hands the sink exactly the events pending at the call, each once and in the order of the
outbox, and leaves nothing pending. -/
def Drains (b : Boundary) (r : EmitRequest) : Prop :=
  ∃ receipts b' answers, b.drain r = (.ok receipts, b') ∧ b'.calls = b.calls ++ answers ∧
    answers.map SinkCall.event = b.store.outbox ∧ (∀ call ∈ answers, call.answer.isOk = true) ∧ b'.store.outbox = []

theorem drains_iff (hc : b.store.Consistent S) (ht : Tracks b.store b.fence) (hplain : b.fence.Plain) {r : EmitRequest}
    (hsink : NeverRaises r.sink) {t : Instant} (hinstant : requireAware r.instant "at" = .ok t)
    (htime : ∀ e ∈ b.store.outbox, e.occurredAt ≤ t) :
    Drains b r ↔ ∀ e ∈ b.store.outbox, Unobstructed b e := by
  obtain ⟨f, hregister, htf, hplainf, hsame⟩ :=
    registerAll_pending hc ht hplain fun e he => (mem_outbox hc e).mp he
  have hdrain : b.drain r = ({ b with fence := f } : Boundary).emitAll r b.store.outbox := by
    unfold drain
    rw [if_pos ht.bound, hregister]
  have hloop := @emitAll_pending S { b with fence := f } b.store.outbox r hsink t hinstant (outbox_sorted b.store)
    (outbox_nodup hc) htime hc htf hplainf (mem_outbox hc)
  simp only [hsame] at hloop
  rcases hloop with ⟨hall, receipts, b', answers, hrun, hcalls, hmap, hok, hc', hnone⟩ | ⟨hnot, err, b', hrun⟩
  · refine ⟨fun _ => hall, fun _ => ⟨receipts, b', answers, by rw [hdrain, hrun], hcalls, hmap, hok, ?_⟩⟩
    exact List.eq_nil_iff_forall_not_mem.mpr fun e he => hnone e ((mem_outbox hc' e).mp he)
  · refine ⟨fun h => ?_, fun h => absurd h hnot⟩
    obtain ⟨receipts, b'', answers, hdrained, -⟩ := h
    rw [hdrain, hrun] at hdrained
    cases hdrained

/-! ## Reachable states -/

/-- The store has only grown, and the fence tracks it. -/
structure Kept (S : Set Bytes) (store : AtomicOutboxStore) (b : Boundary) : Prop where
  consistent : b.store.Consistent S
  tracks : Tracks b.store b.fence
  grown : Extends store b.store

variable {store : AtomicOutboxStore}

theorem Kept.register (h : Kept S store b) (event : OutboxEvent) :
    Kept S store { b with fence := (b.fence.register b.store event).2 } :=
  ⟨h.consistent, EmissionFence.tracks_register h.tracks event, h.grown⟩

theorem Kept.emit (h : Kept S store b) (r : EmitRequest) (event : OutboxEvent) : Kept S store (b.emit r event).2 := by
  rcases emit_cases h.tracks.bound r event with ⟨receipt, -, he⟩ | ⟨err, b', he, hs⟩ | ⟨d, t, v, b', -, he, hx⟩
  · rwa [he]
  · rw [he]
    exact ⟨hs.store ▸ h.consistent, hs.tracks h.tracks, hs.store ▸ h.grown⟩
  · rw [he]
    exact ⟨hx.consistent h.consistent, hx.tracks h.tracks, extends_trans h.grown hx.extends⟩

theorem Kept.step (hinj : Set.InjOn Sha256.digest S) (h : Kept S store b) (call : Call)
    (hS : ∀ seed ∈ b.callSeeds call, seed ∈ S) : Kept S store (b.step call) := by
  cases call with
  | write r =>
    have hext := extends_write hinj h.consistent hS
    exact ⟨h.consistent.write hinj hS, h.tracks.extends hext, extends_trans h.grown hext⟩
  | register event => exact h.register event
  | emit r event => exact h.emit r event
  | drain r => exact drain_induction (fun b event hb => hb.register event) (fun b event hb => hb.emit r event) h
  | authority authority => exact ⟨h.consistent, h.tracks.authority _, h.grown⟩

end Boundary

namespace System
variable {S : Set Bytes}

structure Shared (S : Set Bytes) (s : System) : Prop where
  consistent : s.store.Consistent S
  tracks : ∀ {name f}, s.fences.get? name = some f → Tracks s.store f

theorem extends_step (hinj : Set.InjOn Sha256.digest S) {store : AtomicOutboxStore} (hc : store.Consistent S)
    (call : AtomicOutboxStore.Call) (hS : ∀ seed ∈ store.callSeeds call, seed ∈ S) : Extends store (store.step call) := by
  cases call with
  | write r => exact extends_write hinj hc hS
  | markEmitted eventId emittedAt => exact extends_markEmitted hc eventId emittedAt
  | get _ | getEvent _ | outbox _ | snapshotCounts | verifyAtomicity => exact extends_refl store

theorem Shared.kept (hinj : Set.InjOn Sha256.digest S) {s : System} (h : Shared S s) {name : ℕ} {f : EmissionFence}
    (hf : s.fences.get? name = some f) {call : Boundary.Call} (hS : ∀ seed ∈ s.callSeeds (.fence name call), seed ∈ S) :
    Boundary.Kept S s.store ((s.boundary f).step call) := by
  rw [callSeeds, hf] at hS
  exact Boundary.Kept.step hinj ⟨h.consistent, h.tracks hf, extends_refl s.store⟩ call hS

theorem Shared.store_step (hinj : Set.InjOn Sha256.digest S) {s : System} (h : Shared S s) (call : Call)
    (hS : ∀ seed ∈ s.callSeeds call, seed ∈ S) :
    (s.step call).store.Consistent S ∧ Extends s.store (s.step call).store := by
  cases call with
  | store call =>
    exact ⟨AtomicOutboxStore.Consistent.step hinj s.store call h.consistent hS, extends_step hinj h.consistent call hS⟩
  | construct name authority requireCapability engine =>
    rw [System.step]
    cases EmissionFence.create true authority requireCapability engine with
    | error e => exact ⟨h.consistent, extends_refl s.store⟩
    | ok f => exact ⟨h.consistent, extends_refl s.store⟩
  | fence name call =>
    cases hf : s.fences.get? name with
    | none =>
      rw [System.step, hf]
      exact ⟨h.consistent, extends_refl s.store⟩
    | some f =>
      have hkept := h.kept hinj hf hS
      rw [System.step, hf]
      exact ⟨hkept.consistent, hkept.grown⟩

theorem Shared.step (hinj : Set.InjOn Sha256.digest S) (s : System) (call : Call) (h : Shared S s)
    (hS : ∀ seed ∈ s.callSeeds call, seed ∈ S) : Shared S (s.step call) := by
  obtain ⟨hconsistent, hext⟩ := h.store_step hinj call hS
  refine ⟨hconsistent, fun {name g} hg => ?_⟩
  rcases fences_step_cases hg with hg | ⟨authority, requireCapability, engine, hg⟩ | ⟨f, c, rfl, hf, rfl⟩
  · exact (h.tracks hg).extends hext
  · exact tracks_create hg
  · have hkept := h.kept hinj hf hS
    rw [System.step, hf]
    exact hkept.tracks

theorem shared_run {writer : PyStr} {start : System} (hstart : create writer = .ok start) (calls : List Call)
    (hinj : Set.InjOn Sha256.digest {seed | seed ∈ trace step callSeeds start calls}) :
    Shared {seed | seed ∈ trace step callSeeds start calls} (run step start calls) := by
  refine run_induction_of (Shared.step hinj) ?_ (allSteps_of_trace fun _ hseed => hseed)
  obtain ⟨store, hstore, h⟩ := bind_eq_ok.1 hstart
  cases h
  refine ⟨?_, fun hf => by cases hf⟩
  unfold AtomicOutboxStore.create at hstore
  split_ifs at hstore
  cases hstore
  exact AtomicOutboxStore.consistent_empty _ writer

/-- **Draining a shared outbox.** In every reachable state of a store shared by fences, with an instant not earlier than
any pending event and a sink that never raises, a drain through a fence without marking engine or capability
requirement delivers the whole outbox in its order exactly when every pending event is unobstructed there. -/
theorem drain_complete_iff (writer : PyStr) (start : System) (hstart : create writer = .ok start) (calls : List Call)
    (hinj : Set.InjOn Sha256.digest {seed | seed ∈ trace step callSeeds start calls}) (name : ℕ) (f : EmissionFence)
    (hf : (run step start calls).fences.get? name = some f) (hplain : f.Plain) (r : EmitRequest) (t : Instant)
    (hinstant : requireAware r.instant "at" = .ok t)
    (htime : ∀ e ∈ (run step start calls).store.outbox, e.occurredAt ≤ t) (hsink : NeverRaises r.sink) :
    ((run step start calls).boundary f).Drains r ↔
      ∀ e ∈ (run step start calls).store.outbox, ((run step start calls).boundary f).Unobstructed e := by
  have h := shared_run hstart calls hinj
  exact @Boundary.drains_iff _ ((run step start calls).boundary f) h.consistent (h.tracks hf) hplain r hsink t hinstant htime

theorem quietSink_neverRaises : NeverRaises Boundary.quietSink := fun _ _ => ⟨.none, rfl⟩

def onePending : List Call := [.construct 0 none false none, .store (.write (Boundary.emptyWrite "k1" 5))]

theorem drain_complete_iff_onePending :
    ∃ f, (run step emptySystem onePending).fences.get? 0 = some f ∧
      ((run step emptySystem onePending).boundary f).Drains { sink := Boundary.quietSink, instant := .utc 9 } := by
  have hinj := AtomicOutboxStore.digest_injOn_of_nodup (trace step callSeeds emptySystem onePending) (by decide)
  have heval : ∀ e ∈ (run step emptySystem onePending).store.outbox, e.occurredAt ≤ 9 ∧ 0 < e.aggregateVersion := by
    decide
  refine ⟨⟨true, none, false, none, .empty, .empty, .empty⟩, rfl, ?_⟩
  refine (drain_complete_iff (py "w") emptySystem rfl onePending hinj 0 _ rfl ⟨rfl, rfl⟩ _ 9 (requireAware_utc 9 "at")
    (fun e he => (heval e he).1) quietSink_neverRaises).mpr fun e he => ⟨(heval e he).2, fun c hc => ?_⟩
  cases hc

def brokenSink : Sink := .function fun _ _ => .error ⟨.foreign "Unavailable", "sink unavailable", []⟩

/-- The first fence registers an event and its sink raises, the second one emits the event, and another version is
written. -/
def staleRegistration : List Call :=
  [.construct 0 none false none, .construct 1 none false none, .store (.write (Boundary.emptyWrite "k1" 5)),
    .fence 0 (.drain { sink := brokenSink, instant := .utc 9 }),
    .fence 1 (.drain { sink := Boundary.quietSink, instant := .utc 9 }),
    .store (.write (Boundary.emptyWrite "k2" 6))]

/-- The first fence still counts the emitted version as pending and refuses the next one. -/
theorem stale_registration_blocks_drain :
    ¬ ∀ name f r t, (run step emptySystem staleRegistration).fences.get? name = some f → f.Plain →
        requireAware r.instant "at" = .ok t →
        (∀ e ∈ (run step emptySystem staleRegistration).store.outbox, e.occurredAt ≤ t) → NeverRaises r.sink →
        ((run step emptySystem staleRegistration).boundary f).Drains r := by
  intro h
  have heval : ((run step emptySystem staleRegistration).fences.get? 0).map (fun f =>
      (f.markingEngine.isNone, f.requireCapability,
        (run step emptySystem staleRegistration).store.outbox.all fun e => e.occurredAt ≤ 9,
        ((run step emptySystem staleRegistration).boundary f |>.drain
          { sink := Boundary.quietSink, instant := .utc 9 }).1.isOk)) = some (true, false, true, false) := by decide
  obtain ⟨f, hf, hfields⟩ := Option.map_eq_some_iff.mp heval
  simp only [Prod.mk.injEq] at hfields
  obtain ⟨hengine, hcapability, hoccurred, hfailed⟩ := hfields
  have htime : ∀ e ∈ (run step emptySystem staleRegistration).store.outbox, e.occurredAt ≤ 9 :=
    fun e he => of_decide_eq_true (List.all_eq_true.mp hoccurred e he)
  obtain ⟨receipts, b', answers, hdrained, -⟩ := h 0 f { sink := Boundary.quietSink, instant := .utc 9 } 9 hf
    ⟨Option.isNone_iff_eq_none.mp hengine, hcapability⟩ (requireAware_utc 9 "at") htime quietSink_neverRaises
  rw [hdrained] at hfailed
  cases hfailed

end System
end OcorRuntime.Emission
