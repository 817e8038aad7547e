import Okoscope.Server.NotificationSystem

/-!
# What holds of the notification tables in every run

Ids are unique and drawn before they are used, every delivery of a message has
its message, and every claim a worker acts on names a delivery. One lemma for each
kind of write says how it keeps this; the steps of the system are made of these
writes.
-/
namespace Okoscope.Server.NotificationInvariants

open Lib.Run Lib.Table Lib.Word Lib.Outcome
open NotificationTables NotificationWorker NotificationSystem List

/-! ## The writes -/

variable {d : Delivery} {id : Nat}

@[simp] theorem leasedTo_iff {owner : Nat} : d.leasedTo id owner ↔ d.id = id ∧ d.state.leaseOwner = some owner := by
  simp [Delivery.leasedTo]

theorem isTerminal_of_leaseOwner {s : DeliveryState} {owner : Nat} (h : s.leaseOwner = some owner) :
    s.isTerminal = false := by
  cases s with
  | inFlight => rfl
  | _ => cases h

/-- What the transaction of an attempt makes of its delivery. -/
def attempted (o : OpenAttempt) (d : Delivery) : Delivery :=
  match o.attempt.outcome with
  | .succeeded =>
    { d with
      state := .ended .succeeded o.attempt.finishedAt
      attemptCount := o.attempt.attemptNumber
      lastErrorClass := none }
  | .failed =>
    { d with
      state := .ended .failed o.attempt.finishedAt
      attemptCount := o.attempt.attemptNumber
      lastErrorClass := o.attempt.errorClass }
  | .retryable =>
    { d with
      state := .pending
      attemptCount := o.attempt.attemptNumber
      availableAt := o.attempt.finishedAt + o.delaySeconds * microsPerSecond
      lastErrorClass := o.attempt.errorClass }

theorem writeDelivery_eq {o : OpenAttempt} {db : Db} : writeDelivery o.claim o.attempt o.delaySeconds db = { db with
        deliveries := updateWhere (Delivery.leasedTo o.claim.id o.claim.leaseOwner) (attempted o) db.deliveries } := by
  unfold writeDelivery attempted
  cases o.attempt.outcome <;> rfl

section
variable (o : OpenAttempt) (d : Delivery)

@[simp] theorem attempted_id : (attempted o d).id = d.id := by
  unfold attempted; split <;> rfl

@[simp] theorem attempted_outboxMessageId : (attempted o d).outboxMessageId = d.outboxMessageId := by
  unfold attempted; split <;> rfl

@[simp] theorem attempted_maxAttempts : (attempted o d).maxAttempts = d.maxAttempts := by
  unfold attempted; split <;> rfl

@[simp] theorem attempted_leaseOwner : (attempted o d).state.leaseOwner = none := by
  unfold attempted; split <;> rfl

end

/-- What completing makes of a message. -/
def processed (t : Int) (m : OutboxMessage) : OutboxMessage :=
  { m with processedAt := some t, completionReason := some .deliveriesTerminal }

theorem commit_eq {o : OpenAttempt} {db : Db} :
    o.commit db =
      { db with
        attempts := db.attempts ++ [o.attempt]
        deliveries := updateWhere (Delivery.leasedTo o.claim.id o.claim.leaseOwner) (attempted o) db.deliveries
        messages := updateWhere (fun m => o.completes && o.claim.outboxMessageId = some m.id)
          (processed o.attempt.finishedAt) db.messages } := by
  unfold OpenAttempt.commit
  rw [writeDelivery_eq]
  cases hm : o.claim.outboxMessageId with
  | none =>
    have hnone : ∀ m ∈ db.messages, (o.completes && decide (none = some m.id)) = false := by
      simp
    rw [updateWhere_of_none hnone]
  | some id =>
    cases hc : o.completes with
    | false =>
      have hnone : ∀ m ∈ db.messages, (false && decide (some id = some m.id)) = false := fun _ _ => rfl
      rw [updateWhere_of_none hnone]
      rfl
    | true =>
      have hsame : (fun m : OutboxMessage => true && decide (some id = some m.id)) = fun m => decide (m.id = id) := by
        simp [eq_comm]
      rw [hsame]
      rfl

variable {c : DeliveryClaim} {config : NotificationConfig} {db : Db} {draw : Nat} {now startedAt : Int}
  {result : AttemptResult}

/-- What the statements of an attempt that were not refused leave to its commit. -/
theorem attemptStatements_eq_ok {o : OpenAttempt}
    (h : attemptStatements now config c startedAt result draw db = .ok o) :
    o.claim = c ∧ o.attempt = attemptOf now startedAt c result ∧
      o.completes = c.outboxMessageId.any fun id =>
        completable id (writeDelivery o.claim o.attempt o.delaySeconds db) := by
  have hsame : ∀ (a : Attempt) (delay : Nat) (id : Nat) (attempts : List Attempt),
      completable id (writeDelivery c a delay { db with attempts }) = completable id (writeDelivery c a delay db) := by
    intro a delay id attempts
    unfold writeDelivery
    cases a.outcome <;> rfl
  unfold attemptStatements at h
  obtain ⟨inserted, hinserted, h⟩ := bind_eq_ok.mp h
  obtain rfl := ok_eq_ok.mp h
  simp only [insertAttempt, ite_error_eq_ok, ok_eq_ok] at hinserted
  obtain ⟨-, -, -, -, rfl⟩ := hinserted
  exact ⟨rfl, rfl, by simp [hsame]⟩

/-! ## Materialization -/

/-- A delivery as materialization creates it. -/
structure Materialized (now : Int) (messageId : Nat) (d : Delivery) : Prop where
  outboxMessageId : d.outboxMessageId = some messageId
  recoveryGeneration : d.recoveryGeneration = 0
  attemptCount : d.attemptCount = 0
  state : d.state = .pending ∨ d.state = .ended .suppressed now

/-- The rows are new, with ids drawn in turn. -/
def Fresh (nextId : Nat) (new : List Delivery) : Prop := new.map Delivery.id = List.range' nextId new.length

theorem Fresh.nodup {nextId : Nat} {new : List Delivery} (h : Fresh nextId new) : (new.map Delivery.id).Nodup :=
  h ▸ nodup_range'

theorem Fresh.id_range {nextId : Nat} {new : List Delivery} (h : Fresh nextId new) (hd : d ∈ new) :
    nextId ≤ d.id ∧ d.id < nextId + new.length := by
  have hm : d.id ∈ List.range' nextId new.length := h ▸ mem_map_of_mem hd
  obtain ⟨_, hi, he⟩ := mem_range'.mp hm
  omega

theorem insertForOutbox_eq (input : NewOutboxDelivery) (db : Db) : insertForOutbox now input db = (false, db) ∨
      ∃ d, insertForOutbox now input db =
          (true, { db with nextId := db.nextId + 1, deliveries := db.deliveries ++ [d] }) ∧
        d.id = db.nextId ∧ d.outboxMessageId = some input.outboxMessageId ∧ d.recoveryGeneration = 0 ∧
        d.attemptCount = 0 ∧ d.state = input.state := by
  unfold insertForOutbox
  dsimp only
  split
  · exact .inl rfl
  · exact .inr ⟨_, rfl, rfl, rfl, rfl, rfl, rfl⟩

/-- Creating the deliveries of a message adds rows to the table, and the count says
whether one of them is pending. -/
theorem materializeDeliveries_spec (m : OutboxMessage) {targets : List Destination} (db : Db) :
    ∃ new, (materializeDeliveries now config m targets db).2 =
        { db with nextId := db.nextId + new.length, deliveries := db.deliveries ++ new } ∧
      Fresh db.nextId new ∧ (∀ d ∈ new, Materialized now m.id d) ∧
      ((materializeDeliveries now config m targets db).1 = 0 ↔ ∀ d ∈ new, d.state.isTerminal) := by
  induction targets generalizing db with
  | nil => exact ⟨[], by simp [materializeDeliveries], rfl, by simp, by simp [materializeDeliveries]⟩
  | cons w _ ih =>
    rw [materializeDeliveries]
    generalize hs : (decide (m.source = .backfill) && !w.deliverBackfill) = suppressed
    generalize hin : ({
      destinationId := w.id, outboxMessageId := m.id, source := m.source,
      state := if suppressed then .ended .suppressed now else .pending,
      maxAttempts := config.attemptLimit,
      lastErrorClass := if suppressed then some "backfill_suppressed" else none } : NewOutboxDelivery) = input
    have hmessage : input.outboxMessageId = m.id := by rw [← hin]
    have hstate : input.state = if suppressed then .ended .suppressed now else .pending := by rw [← hin]
    obtain he | ⟨d, he, hid, hm, hg, hc, hst⟩ := insertForOutbox_eq input db
    · rw [he]
      obtain ⟨new, hdb, hfresh, hnew, hcount⟩ := ih db
      refine ⟨new, hdb, hfresh, hnew, ?_⟩
      simpa using hcount
    · rw [he]
      obtain ⟨new, hdb, hfresh, hnew, hcount⟩ :=
        ih { db with nextId := db.nextId + 1, deliveries := db.deliveries ++ [d] }
      refine ⟨d :: new, ?_, ?_, ?_, ?_⟩
      · rw [hdb]
        simp only [length_cons, append_assoc, singleton_append, Db.mk.injEq, and_true]
        omega
      · unfold Fresh at hfresh ⊢
        rw [map_cons, hfresh, hid, length_cons, range'_succ]
      · rw [forall_mem_cons]
        refine ⟨⟨hm.trans (by rw [hmessage]), hg, hc, ?_⟩, hnew⟩
        rw [hst, hstate]
        cases suppressed
        · exact .inl rfl
        · exact .inr rfl
      · rw [forall_mem_cons, ← hcount, hst, hstate]
        cases suppressed <;> simp [DeliveryState.isTerminal]

/-- What materialization makes of its message when it created the given deliveries. -/
structure MaterializedAs (now : Int) (new : List Delivery) (f : OutboxMessage → OutboxMessage) : Prop where
  id : ∀ m, (f m).id = m.id
  materializedAt : ∀ m, (f m).materializedAt = some now
  processedAt : ∀ m, (f m).processedAt =
    if ∀ d ∈ new, d.state.isTerminal then some now else m.processedAt

theorem materializeMessage_spec (reason : EligibilityReason) (destinations : List Destination) {m : OutboxMessage} :
    ∃ new f, materializeMessage now config reason destinations db m = { db with
          nextId := db.nextId + new.length
          deliveries := db.deliveries ++ new
          messages := updateWhere (fun m' => m'.id = m.id) f db.messages } ∧
      Fresh db.nextId new ∧ (∀ d ∈ new, Materialized now m.id d) ∧ MaterializedAs now new f := by
  -- every branch records the eligibility, perhaps adds deliveries, and then updates the message once more
  have hupdate : ∀ rows f, Fresh db.nextId rows → (∀ d ∈ rows, Materialized now m.id d) → MaterializedAs now rows f →
      ∃ new g, updateMessage m.id f
            { recordEligibility m.id reason db with
              nextId := db.nextId + rows.length
              deliveries := db.deliveries ++ rows } =
          { db with
            nextId := db.nextId + new.length
            deliveries := db.deliveries ++ new
            messages := updateWhere (fun m' => m'.id = m.id) g db.messages } ∧
        Fresh db.nextId new ∧ (∀ d ∈ new, Materialized now m.id d) ∧ MaterializedAs now new g := by
    intro rows f hfresh hnew hf
    refine ⟨rows, f ∘ fun m => { m with eligibilityReason := some reason }, ?_, hfresh, hnew, ?_⟩
    · simp only [updateMessage, recordEligibility, updateWhere, map_map]
      congr 1
      apply map_congr_left
      intro m' _
      by_cases hm : m'.id = m.id <;> simp [hm]
    · exact ⟨fun _ => hf.id _, fun _ => hf.materializedAt _, fun _ => hf.processedAt _⟩
  have hnone : ∀ f, MaterializedAs now [] f → _ := fun f => hupdate [] f rfl (forall_mem_nil _)
  rw [append_nil] at hnone
  unfold materializeMessage
  dsimp only
  split
  · exact hnone _ ⟨fun _ => rfl, fun _ => rfl, fun _ => by simp⟩
  split
  · exact hnone _ ⟨fun _ => rfl, fun _ => rfl, fun _ => by simp⟩
  split
  · exact hnone _ ⟨fun _ => rfl, fun _ => rfl, fun _ => by simp⟩
  obtain ⟨new, hdb, hfresh, hnew, hcount⟩ := materializeDeliveries_spec m (recordEligibility m.id reason db)
  rw [hdb]
  split
  next hall => exact hupdate new _ hfresh hnew ⟨fun _ => rfl, fun _ => rfl, fun _ => (if_pos (hcount.mp hall)).symm⟩
  next hleft => exact hupdate new _ hfresh hnew ⟨fun _ => rfl, fun _ => rfl, fun _ => (if_neg (mt hcount.mpr hleft)).symm⟩

variable {limit : Nat} {locked : List Nat} {destinations : List Destination}

/-- What materializing one waiting message keeps, a whole materialization keeps. -/
theorem materializeOnce_invariant {eligibility : Nat → EligibilityReason} (inv : Db → Prop)
    (hstep : ∀ db m reason, inv db → m ∈ db.messages → m.materializedAt = none → m.processedAt = none →
      inv (materializeMessage now config reason destinations db m))
    (hdb : inv db) (hids : (db.messages.map OutboxMessage.id).Nodup) :
    inv (materializeOnce now config locked eligibility destinations db) := by
  unfold materializeOnce
  have hnodup : ((claimFirstSeen config.claimSize locked db).map OutboxMessage.id).Nodup := by
    apply ((take_sublist _ _).map OutboxMessage.id).nodup
    rw [((perm_insertionSort _ _).map OutboxMessage.id).nodup_iff]
    exact (filter_sublist.map OutboxMessage.id).nodup hids
  have hwaiting : ∀ m ∈ claimFirstSeen config.claimSize locked db,
      m ∈ db.messages ∧ m.materializedAt = none ∧ m.processedAt = none := by
    intro m h
    have hm := (mem_insertionSort _).mp (mem_of_mem_take h)
    simp only [mem_filter, Bool.and_eq_true, Option.isNone_iff_eq_none] at hm
    exact ⟨hm.1, hm.2.1.2, hm.2.1.1⟩
  generalize claimFirstSeen config.claimSize locked db = ms at hnodup hwaiting
  clear hids
  -- the messages still to come keep their rows, because no two of them share an id
  induction ms generalizing db with
  | nil => exact hdb
  | cons m _ ih =>
    obtain ⟨hm, hms⟩ := forall_mem_cons.mp hwaiting
    rw [map_cons, nodup_cons] at hnodup
    refine ih (hstep db m _ hdb hm.1 hm.2.1 hm.2.2) hnodup.2 ?_
    intro m' hm'
    have hwait := hms m' hm'
    obtain ⟨_, _, hspec, -⟩ := materializeMessage_spec (eligibility m.id) destinations
    have hne : m'.id ≠ m.id := fun he => hnodup.1 (he ▸ mem_map_of_mem hm')
    refine ⟨?_, hwait.2⟩
    dsimp only
    rw [hspec]
    exact mem_updateWhere.mpr ⟨m', hwait.1, by simp [hne]⟩

/-! ## Recovery commands -/

variable {r : DeliveryRecoveryResult}

theorem retryDelivery_eq_ok {db' : Db} (h : retryDelivery now id db = .ok (r, db')) :
    ∃ d ∈ db.deliveries, d.id = id ∧ d.state.isFailed ∧
      db' = (requeueFailed now id (saturatingSuccI32 d.recoveryGeneration) db).2 := by
  obtain ⟨l, hl, h⟩ := bind_eq_ok.mp h
  obtain ⟨hok, h⟩ := bind_unit_eq_ok.mp h
  obtain ⟨d, hd, hl⟩ := Option.bind_eq_some_iff.mp (okOr_eq_ok.mp hl)
  obtain ⟨_, -, hl⟩ := Option.bind_eq_some_iff.mp hl
  cases hl
  obtain ⟨hmem, hid⟩ := get?_eq_some hd
  have hfailed : d.state.isFailed := by
    unfold ensureRetryEligible at hok
    rw [ite_error_eq_ok, ite_error_eq_ok, ite_error_eq_ok] at hok
    simpa using hok.2.2.1
  refine ⟨d, hmem, hid, hfailed, ?_⟩
  dsimp only at h
  split at h
  · cases h
  · cases h
    rfl

/-- What requeueing does to a delivery. -/
def requeued (now : Int) (generation : Nat) (d : Delivery) : Delivery :=
  { d with
    state := .pending
    recoveryGeneration := generation
    attemptCount := 0
    availableAt := now
    lastErrorClass := none }

section
variable (inv : Db → Prop) (admissible : Delivery → Prop)
  (hstep : ∀ db id previous, inv db →
    (∀ d ∈ db.deliveries, d.id = id → d.state.isFailed → d.recoveryGeneration = previous ∧ admissible d) →
    inv (requeueFailed now id (saturatingSuccI32 previous) db).2)
  (hdb : inv db)
include hstep hdb

/-- The rule for a whole selection: what requeueing one delivery keeps, requeueing all of
them keeps. The generation to requeue a failed delivery under stays the next one of its row,
because a delivery already requeued is not failed any more. -/
theorem requeueAll_invariant {selection : List (Nat × Nat)}
    (hsel : ∀ p ∈ selection, ∀ d ∈ db.deliveries, d.id = p.1 → d.state.isFailed → d.recoveryGeneration = p.2 ∧ admissible d) :
    inv (requeueAll now selection db).2 := by
  induction selection generalizing db with
  | nil => exact hdb
  | cons p _ ih =>
    obtain ⟨id, previous⟩ := p
    obtain ⟨hp, hrest⟩ := forall_mem_cons.mp hsel
    refine ih (hstep db id previous hdb hp) ?_
    intro p hmem d hd hid hfailed
    obtain ⟨d', hd', rfl⟩ := mem_updateWhere.mp hd
    by_cases hc : (decide (d'.id = id) && d'.state.isFailed)
    · rw [if_pos hc] at hfailed
      cases hfailed
    · rw [if_neg hc] at hid hfailed ⊢
      exact hrest p hmem d' hd' hid hfailed

theorem bulkSelection_invariant {f : RetryFilter} (hids : (db.deliveries.map Delivery.id).Nodup)
    (hsel : ∀ d ∈ db.retryable f, admissible d) : inv (requeueAll now (bulkSelection f limit locked db) db).2 := by
  refine requeueAll_invariant inv admissible hstep hdb fun p hp d hd hid _ => ?_
  obtain ⟨d', hd', rfl⟩ := mem_map.mp (mem_of_mem_take hp)
  have hd' := (mem_filter.mp ((mem_insertionSort _).mp (mem_of_mem_take hd'))).1
  obtain rfl : d' = d := eq_of_key_eq hids (mem_filter.mp hd').1 hd hid.symm
  exact ⟨rfl, hsel d' hd'⟩

end

/-- What leasing makes of a delivery. -/
def leased (owner : Nat) (expiresAt : Int) (d : Delivery) : Delivery := { d with state := .inFlight owner expiresAt }

theorem mem_claimCandidates (h : id ∈ claimCandidates now limit locked db) :
    ∃ d ∈ db.deliveries, d.id = id ∧ d.due now ∧ id ∉ locked := by
  obtain ⟨d, hd, rfl⟩ := mem_map.mp h
  have hd := (mem_insertionSort _).mp (mem_of_mem_take hd)
  simp only [mem_filter, Bool.and_eq_true, Bool.not_eq_true', contains_eq_mem, decide_eq_false_iff_not] at hd
  exact ⟨d, hd.1, rfl, hd.2.1, hd.2.2⟩

theorem isTerminal_of_due (h : d.due now) : d.state.isTerminal = false := by
  unfold Delivery.due at h
  split at h
  · next hs => rw [hs]; rfl
  · next hs => rw [hs]; rfl
  · cases h

/-- What a cancellation makes of a delivery. -/
def cancelled (now : Int) (errorClass : String) (d : Delivery) : Delivery :=
  { d with state := .ended .cancelled now, lastErrorClass := some errorClass }

/-! ## The invariant of the tables -/

/-- A write to a delivery never changes what it is a delivery of. -/
structure Keeps (f : Delivery → Delivery) : Prop where
  id : ∀ d, (f d).id = d.id
  message : ∀ d, (f d).outboxMessageId = d.outboxMessageId
  limit : ∀ d, (f d).maxAttempts = d.maxAttempts

theorem keeps_attempted (o : OpenAttempt) : Keeps (attempted o) :=
  ⟨attempted_id o, attempted_outboxMessageId o, attempted_maxAttempts o⟩

theorem keeps_requeued {generation : Nat} : Keeps (requeued now generation) :=
  ⟨fun _ => rfl, fun _ => rfl, fun _ => rfl⟩

theorem keeps_leased (owner : Nat) (expiresAt : Int) : Keeps (leased owner expiresAt) :=
  ⟨fun _ => rfl, fun _ => rfl, fun _ => rfl⟩

theorem keeps_cancelled {errorClass : String} : Keeps (cancelled now errorClass) :=
  ⟨fun _ => rfl, fun _ => rfl, fun _ => rfl⟩

structure TablesInv (nextId : Nat) (messages : List OutboxMessage) (deliveries : List Delivery) : Prop where
  deliveryIds : (deliveries.map Delivery.id).Nodup
  messageIds : (messages.map OutboxMessage.id).Nodup
  deliveryKnown : ∀ d ∈ deliveries, d.id < nextId
  ownerKnown : ∀ d ∈ deliveries, ∀ owner, d.state.leaseOwner = some owner → owner < nextId
  messageKnown : ∀ m ∈ messages, m.id < nextId
  parent : ∀ d ∈ deliveries, ∀ id, d.outboxMessageId = some id →
    ∃ m ∈ messages, m.id = id ∧ m.materializedAt.isSome

/-- The claim names a delivery, and its lease owner was drawn. -/
def Known (nextId : Nat) (deliveries : List Delivery) (c : DeliveryClaim) : Prop :=
  c.leaseOwner < nextId ∧
    ∃ d ∈ deliveries, d.id = c.id ∧ d.outboxMessageId = c.outboxMessageId ∧ d.maxAttempts = c.maxAttempts

variable {cond : Delivery → Bool} {f : Delivery → Delivery}

section
variable {nextId n : Nat} {messages : List OutboxMessage} {deliveries : List Delivery}

section
variable (h : TablesInv nextId messages deliveries)
include h

theorem TablesInv.mono (hn : nextId ≤ n) : TablesInv n messages deliveries where
  deliveryIds := h.deliveryIds
  messageIds := h.messageIds
  deliveryKnown := fun d hd => (h.deliveryKnown d hd).trans_le hn
  ownerKnown := fun d hd owner ho => (h.ownerKnown d hd owner ho).trans_le hn
  messageKnown := fun m hm => (h.messageKnown m hm).trans_le hn
  parent := h.parent

theorem TablesInv.updateDeliveries (hn : nextId ≤ n) (hf : Keeps f)
    (howner : ∀ d ∈ deliveries, ∀ owner, (f d).state.leaseOwner = some owner → owner < n) :
    TablesInv n messages (updateWhere cond f deliveries) := by
  have h := h.mono hn
  refine { h with deliveryIds := ?_, deliveryKnown := ?_, ownerKnown := ?_, parent := ?_ }
  · rw [map_key_updateWhere hf.id]
    exact h.deliveryIds
  · refine forall_mem_updateWhere h.deliveryKnown fun d hd _ => ?_
    rw [hf.id]
    exact h.deliveryKnown d hd
  · exact forall_mem_updateWhere h.ownerKnown fun d hd _ => howner d hd
  · refine forall_mem_updateWhere h.parent fun d hd _ id hid => ?_
    rw [hf.message] at hid
    exact h.parent d hd id hid

theorem TablesInv.updateMessages {cond : OutboxMessage → Bool} {g : OutboxMessage → OutboxMessage}
    (hid : ∀ m, (g m).id = m.id) (hmat : ∀ m, m.materializedAt.isSome → (g m).materializedAt.isSome) :
    TablesInv nextId (updateWhere cond g messages) deliveries := by
  refine { h with messageIds := ?_, messageKnown := ?_, parent := ?_ }
  · rw [map_key_updateWhere hid]
    exact h.messageIds
  · refine forall_mem_updateWhere h.messageKnown fun m hm _ => ?_
    rw [hid]
    exact h.messageKnown m hm
  intro d hd id he
  obtain ⟨m, hm, hmid, hmm⟩ := h.parent d hd id he
  refine ⟨_, mem_updateWhere.mpr ⟨m, hm, rfl⟩, ?_, ?_⟩
  · split
    · rw [hid, hmid]
    · exact hmid
  · split
    · exact hmat m hmm
    · exact hmm

theorem TablesInv.addDeliveries {new : List Delivery} (hids : (new.map Delivery.id).Nodup)
    (hrange : ∀ d ∈ new, nextId ≤ d.id ∧ d.id < n) (hn : nextId ≤ n)
    (howner : ∀ d ∈ new, ∀ owner, d.state.leaseOwner = some owner → owner < n)
    (hparent : ∀ d ∈ new, ∀ id, d.outboxMessageId = some id → ∃ m ∈ messages, m.id = id ∧ m.materializedAt.isSome) :
    TablesInv n messages (deliveries ++ new) := by
  have hm := h.mono hn
  refine { hm with deliveryIds := ?_, deliveryKnown := ?_, ownerKnown := ?_, parent := ?_ }
  · rw [map_append, nodup_append]
    refine ⟨h.deliveryIds, hids, ?_⟩
    intro i hi j hj
    obtain ⟨d, hd, rfl⟩ := mem_map.mp hi
    obtain ⟨e, he, rfl⟩ := mem_map.mp hj
    have hlt := h.deliveryKnown d hd
    have hge := (hrange e he).1
    omega
  · exact forall_mem_append.mpr ⟨hm.deliveryKnown, fun d hd => (hrange d hd).2⟩
  · exact forall_mem_append.mpr ⟨hm.ownerKnown, howner⟩
  · exact forall_mem_append.mpr ⟨hm.parent, hparent⟩

theorem TablesInv.addMessage {m : OutboxMessage} (hm : m.id = nextId) :
    TablesInv (nextId + 1) (messages ++ [m]) deliveries := by
  have hmono := h.mono (Nat.le_add_right nextId 1)
  refine { hmono with messageIds := ?_, messageKnown := ?_, parent := ?_ }
  · exact nodup_map_append_singleton h.messageIds fun m' hm' => hm ▸ (h.messageKnown m' hm').ne
  · refine forall_mem_append.mpr ⟨hmono.messageKnown, ?_⟩
    simp [hm]
  · intro d hd id hid
    obtain ⟨m', hm', hmid, hmat⟩ := h.parent d hd id hid
    exact ⟨m', mem_append_left _ hm', hmid, hmat⟩

/-- Materializing a message creates its deliveries together with their materialized parent. -/
theorem TablesInv.materialize {m : OutboxMessage} (hm : m ∈ messages) {new : List Delivery}
    {f : OutboxMessage → OutboxMessage} (hfresh : Fresh nextId new) (hnew : ∀ d ∈ new, Materialized now m.id d)
    (hf : MaterializedAs now new f) :
    TablesInv (nextId + new.length) (updateWhere (fun m' => m'.id = m.id) f messages) (deliveries ++ new) := by
  have hupdated : TablesInv nextId (updateWhere (fun m' => m'.id = m.id) f messages) deliveries :=
    h.updateMessages hf.id fun m' _ => by rw [hf.materializedAt]; rfl
  refine hupdated.addDeliveries hfresh.nodup (fun d hd => hfresh.id_range hd) (Nat.le_add_right _ _) ?_ ?_
  · intro d hd owner ho
    obtain hs | hs := (hnew d hd).state
    · rw [hs] at ho
      cases ho
    · rw [hs] at ho
      cases ho
  · intro d hd id hid
    rw [(hnew d hd).outboxMessageId] at hid
    cases hid
    refine ⟨f m, mem_updateWhere.mpr ⟨m, hm, by simp⟩, hf.id m, ?_⟩
    rw [hf.materializedAt]
    rfl

end

theorem Known.update (h : Known nextId deliveries c) (hn : nextId ≤ n) (hf : Keeps f) :
    Known n (updateWhere cond f deliveries) c := by
  obtain ⟨ho, d, hd, hid, hm, hl⟩ := h
  refine ⟨ho.trans_le hn, _, mem_updateWhere.mpr ⟨d, hd, rfl⟩, ?_⟩
  split
  · rw [hf.id, hf.message, hf.limit]
    exact ⟨hid, hm, hl⟩
  · exact ⟨hid, hm, hl⟩

theorem Known.append (h : Known nextId deliveries c) (hn : nextId ≤ n) (new : List Delivery) :
    Known n (deliveries ++ new) c := by
  obtain ⟨ho, d, hd, hk⟩ := h
  exact ⟨ho.trans_le hn, d, mem_append_left _ hd, hk⟩

end

variable {w : World}

theorem mem_tickets : c ∈ w.tickets ↔ (∃ j ∈ w.jobs, j.claim = c) ∨ ∃ o ∈ w.opens, o.claim = c := by
  simp [World.tickets]

/-! ## What a step does -/

/-- The world after a step. -/
inductive Change (w : World) : Step → World → Prop
  /-- No message, delivery or attempt changes, and no claim and no transaction is new. -/
  | same {a : Step} {w' : World} (hn : w.db.nextId ≤ w'.db.nextId) (hm : w'.db.messages = w.db.messages)
      (hd : w'.db.deliveries = w.db.deliveries) (ha : w'.db.attempts = w.db.attempts)
      (ht : ∀ c ∈ w'.tickets, c ∈ w.tickets) (ho : w'.opens.Sublist w.opens) : Change w a w'
  | announce (source : Source) : Change w (.announce source) { w with db := insertFirstSeen w.now source w.db }
  | materialize (config : NotificationConfig) (locked : List Nat) (eligibility : Nat → EligibilityReason)
      (destinations : List Destination) : Change w (.materialize config locked eligibility destinations)
        { w with db := materializeOnce w.now config locked eligibility destinations w.db }
  | claim (config : NotificationConfig) (locked : List Nat) :
      Change w (.claim config locked) (step w (.claim config locked)).2
  | persist {config : NotificationConfig} {job : Job} {draw : Nat} {startedAt : Int} {result : AttemptResult}
      {o : OpenAttempt} (hj : job ∈ w.jobs)
      (ho : attemptStatements w.now config job.claim startedAt result draw w.db = .ok o)
      (hfree : ∀ o' ∈ w.opens, o'.attempt.key ≠ o.attempt.key) :
      Change w (.persist config job draw) { w with jobs := w.jobs.erase job, opens := w.opens ++ [o] }
  | commit {o : OpenAttempt} (ho : o ∈ w.opens) :
      Change w (.commit o) { w with db := o.commit w.db, opens := w.opens.erase o }
  | testDestination (config : NotificationConfig) (id : Nat) : Change w (.testDestination config id)
      { w with
        db := (insertTest w.now id config.leaseSeconds w.db).2
        jobs := w.jobs ++ [⟨(insertTest w.now id config.leaseSeconds w.db).1, none⟩] }
  | disable (id : Nat) :
      Change w (.disable id) { w with db := cancelForDestination w.now id (disableDestination id w.db) }
  | retry {d : Delivery} (hd : d ∈ w.db.deliveries) : Change w (.retry d.id)
      { w with db := (requeueFailed w.now d.id (saturatingSuccI32 d.recoveryGeneration) w.db).2 }
  | cancel (id : Nat) : Change w (.cancel id) { w with db := (cancelPending w.now id w.db).2 }
  | bulkRetry (f : BulkRetryFilter) (locked : List Nat) (limit : Nat) : Change w (.bulkRetry f locked)
      { w with db := (requeueAll w.now (bulkSelection f.retryFilter limit (w.written ++ locked) w.db) w.db).2 }

section
variable {w : World} {a : Step}

theorem Change.idle : Change w a w :=
  .same le_rfl rfl rfl rfl (fun _ hc => hc) (.refl _)

/-- Workers drop a claim or a transaction. -/
theorem Change.dropped {jobs : List Job} {opens : List OpenAttempt} (hj : ∀ j ∈ jobs, ∃ j' ∈ w.jobs, j'.claim = j.claim)
    (ho : opens.Sublist w.opens) : Change w a { w with jobs, opens } := by
  refine .same le_rfl rfl rfl rfl (fun c hc => ?_) ho
  rw [mem_tickets] at hc ⊢
  obtain ⟨j, hmem, rfl⟩ | ⟨o, hmem, rfl⟩ := hc
  · exact .inl (hj j hmem)
  · exact .inr ⟨o, ho.subset hmem, rfl⟩

theorem change_persist {job : Job} (hj : job ∈ w.jobs) :
    Change w (.persist config job draw) (w.persist config job draw startedAt result).2 := by
  unfold World.persist
  split
  · exact .idle
  next hfree =>
  split
  · exact .dropped (fun j hmem => ⟨j, mem_of_mem_erase hmem, rfl⟩) (.refl _)
  next ho =>
  refine .persist hj ho fun o' ho' heq => hfree (any_eq_true.mpr ⟨o', ho', ?_⟩)
  rw [heq, (attemptStatements_eq_ok ho).2.1]
  exact decide_eq_true rfl

theorem change_recover {command : Except RecoveryError (DeliveryRecoveryResult × Db)}
    (hc : ∀ r db, command = .ok (r, db) → Change w a { w with db }) : Change w a (w.recover id command).2 := by
  unfold World.recover
  split
  · exact .idle
  · split
    · exact .idle
    · next r db => exact hc r db rfl

theorem change_step (w : World) (a : Step) : Change w a (step w a).2 := by
  cases a with
  | announce source => exact .announce source
  | createDestination =>
    exact .same (Nat.le_add_right _ 1) rfl rfl rfl (fun _ hc => hc) (.refl _)
  | disable id =>
    simp only [step]
    split
    · exact .idle
    · split
      · exact .idle
      · exact .disable id
  | materialize => exact .materialize ..
  | claim => exact .claim ..
  | send job =>
    simp only [step]
    split
    · next hj =>
      refine .dropped (fun j hmem => ?_) (.refl _)
      obtain hmem | hmem := mem_append.mp hmem
      · exact ⟨j, mem_of_mem_erase hmem, rfl⟩
      · exact ⟨job, hj.1, by rw [mem_singleton.mp hmem]⟩
    · exact .idle
  | stop => exact .dropped (fun j hmem => ⟨j, mem_of_mem_erase hmem, rfl⟩) (.refl _)
  | persist =>
    simp only [step]
    split
    · next hj =>
      split
      · exact .idle
      · exact change_persist hj
    · exact .idle
  | commit =>
    simp only [step]
    split
    · next ho => exact .commit ho
    · exact .idle
  | abort => exact .dropped (fun j hmem => ⟨j, hmem, rfl⟩) erase_sublist
  | testDestination config id =>
    simp only [step]
    split
    · exact .testDestination config id
    · exact .idle
  | retry =>
    refine change_recover fun r db hok => ?_
    obtain ⟨_, hd, rfl, -, rfl⟩ := retryDelivery_eq_ok hok
    exact .retry hd
  | cancel id =>
    refine change_recover fun r db hok => ?_
    obtain ⟨_, -, hok⟩ := bind_eq_ok.mp hok
    obtain ⟨-, hok⟩ := bind_unit_eq_ok.mp hok
    dsimp only at hok
    split at hok
    · cases hok
    · cases hok
      exact .cancel id
  | bulkRetry f locked =>
    simp only [step]
    split
    · exact .idle
    · next hok =>
      obtain ⟨limit, -, hok⟩ := bind_eq_ok.mp hok
      cases hok
      exact .bulkRetry f locked limit
  | _ => exact .same le_rfl rfl rfl rfl (fun _ hc => hc) (.refl _)

end

/-! ## The invariant of the workers -/

structure BaseInv (w : World) : Prop where
  tables : TablesInv w.db.nextId w.db.messages w.db.deliveries
  tickets : ∀ c ∈ w.tickets, Known w.db.nextId w.db.deliveries c

theorem baseInv_init : BaseInv World.init where
  tables := ⟨nodup_nil, nodup_nil, by simp [World.init, Db.empty], by simp [World.init, Db.empty],
    by simp [World.init, Db.empty], by simp [World.init, Db.empty]⟩
  tickets := by simp [World.tickets, World.init]

section
variable {w w' : World}

theorem BaseInv.same (h : BaseInv w) (hn : w.db.nextId ≤ w'.db.nextId) (hm : w'.db.messages = w.db.messages)
    (hd : w'.db.deliveries = w.db.deliveries) (ht : ∀ c ∈ w'.tickets, c ∈ w.tickets) : BaseInv w' where
  tables := by
    rw [hm, hd]
    exact h.tables.mono hn
  tickets := fun c hc => by
    obtain ⟨ho, hk⟩ := h.tickets c (ht c hc)
    rw [hd]
    exact ⟨ho.trans_le hn, hk⟩

theorem BaseInv.update (h : BaseInv w) (hf : Keeps f) (hn : w.db.nextId ≤ w'.db.nextId)
    (hm : w'.db.messages = w.db.messages) (hd : w'.db.deliveries = updateWhere cond f w.db.deliveries)
    (howner : ∀ d ∈ w.db.deliveries, ∀ owner, (f d).state.leaseOwner = some owner → owner < w'.db.nextId)
    (ht : ∀ c ∈ w'.tickets, c ∈ w.tickets ∨ Known w'.db.nextId w'.db.deliveries c) : BaseInv w' where
  tables := by
    rw [hm, hd]
    exact h.tables.updateDeliveries hn hf howner
  tickets := fun c hc => by
    obtain hold | hnew := ht c hc
    · rw [hd]
      exact (h.tickets c hold).update hn hf
    · exact hnew

end

theorem mem_claimDue_tickets {leaseSeconds : Nat} (h : c ∈ (claimDue now limit leaseSeconds locked db).1) :
    ∃ d ∈ db.deliveries, d.id ∈ claimCandidates now limit locked db ∧ c = d.claim db.nextId := by
  obtain ⟨d, hd, rfl⟩ := mem_map.mp h
  obtain ⟨hd, -⟩ := mem_filter.mp hd
  obtain ⟨hd, hc⟩ := mem_filter.mp hd
  exact ⟨d, hd, by simpa using hc, rfl⟩

theorem tickets_claim {cs : List DeliveryClaim}
    (h : c ∈ ({ w with db, jobs := w.jobs ++ cs.map fun c => ⟨c, none⟩ } : World).tickets) : c ∈ w.tickets ∨ c ∈ cs := by
  simp only [mem_tickets, mem_append, mem_map] at h ⊢
  obtain ⟨j, hj | ⟨_, hc', rfl⟩, hjc⟩ | ho := h
  · exact .inl (.inl ⟨j, hj, hjc⟩)
  · exact .inr (hjc ▸ hc')
  · exact .inl (.inr ho)

theorem tickets_persist {job : Job} {o : OpenAttempt} (hj : job ∈ w.jobs)
    (ho : attemptStatements w.now config job.claim startedAt result draw w.db = .ok o) :
    ∀ c ∈ ({ w with jobs := w.jobs.erase job, opens := w.opens ++ [o] } : World).tickets, c ∈ w.tickets := by
  intro c hc
  simp only [mem_tickets, mem_append, mem_singleton] at hc ⊢
  obtain ⟨j, hjob, hjc⟩ | ⟨o', ho' | rfl, hoc⟩ := hc
  · exact .inl ⟨j, mem_of_mem_erase hjob, hjc⟩
  · exact .inr ⟨o', ho', hoc⟩
  · exact .inl ⟨job, hj, (attemptStatements_eq_ok ho).1.symm.trans hoc⟩

theorem BaseInv.cancel (h : BaseInv w) (errorClass : String) (hn : db.nextId = w.db.nextId)
    (hm : db.messages = w.db.messages)
    (hd : db.deliveries = updateWhere cond (cancelled now errorClass) w.db.deliveries) : BaseInv { w with db } :=
  h.update keeps_cancelled hn.ge hm hd nofun fun _ hc => .inl hc

theorem baseInv_requeue (h : BaseInv w) {generation : Nat} :
    BaseInv { w with db := (requeueFailed now id generation w.db).2 } := by
  refine h.update keeps_requeued le_rfl rfl rfl ?_ fun c hc => .inl hc
  intro d _ owner ho
  cases ho

theorem baseInv_materializeMessage (h : BaseInv { w with db }) {reason : EligibilityReason} {m : OutboxMessage}
    (hm : m ∈ db.messages) : BaseInv { w with db := materializeMessage now config reason destinations db m } := by
  obtain ⟨new, _, hspec, hfresh, hnew, hf⟩ := materializeMessage_spec reason destinations
  rw [hspec]
  exact ⟨h.tables.materialize hm hfresh hnew hf, fun c hc => (h.tickets c hc).append (Nat.le_add_right _ _) new⟩

theorem baseInv_step (h : BaseInv w) {a : Step} : BaseInv (step w a).2 := by
  have hstep := change_step w a
  generalize (step w a).2 = w' at hstep
  cases hstep with
  | same hn hm hd _ ht => exact h.same hn hm hd ht
  | announce =>
    exact ⟨h.tables.addMessage rfl, fun c hc =>
      (append_nil w.db.deliveries ▸ (h.tickets c hc).append (Nat.le_add_right _ 1) [] :)⟩
  | materialize =>
    refine materializeOnce_invariant (fun db => BaseInv { w with db }) ?_ h h.tables.messageIds
    exact fun db m reason hdb hm _ _ => baseInv_materializeMessage hdb hm
  | claim config locked =>
    refine h.update (keeps_leased w.db.nextId _) (Nat.le_add_right _ 1) rfl rfl ?_ fun c hc => ?_
    · intro d _ owner ho
      cases ho
      exact Nat.lt_succ_self _
    obtain hc | hc := tickets_claim hc
    · exact .inl hc
    · obtain ⟨d, hd, hcand, rfl⟩ := mem_claimDue_tickets hc
      have hleased : leased w.db.nextId (w.now + config.leaseSeconds * microsPerSecond) d ∈
          (claimDue w.now config.claimSize config.leaseSeconds (w.written ++ locked) w.db).2.deliveries := by
        refine mem_updateWhere.mpr ⟨d, hd, ?_⟩
        rw [if_pos (by simpa using hcand)]
        rfl
      exact .inr ⟨Nat.lt_succ_self _, _, hleased, rfl, rfl, rfl⟩
  | persist hj ho => exact h.same le_rfl rfl rfl (tickets_persist hj ho)
  | @commit o ho =>
    rw [commit_eq]
    refine ⟨?_, fun c hc => (h.tickets c ?_).update le_rfl (keeps_attempted o)⟩
    · refine (h.tables.updateDeliveries le_rfl (keeps_attempted o) ?_).updateMessages (fun _ => rfl)
        fun _ hm => hm
      intro d _ owner ho
      rw [attempted_leaseOwner] at ho
      cases ho
    · rw [mem_tickets] at hc ⊢
      exact hc.imp_right exists_mem_of_erase
  | testDestination config id =>
    refine ⟨?_, fun c hc => ?_⟩
    · refine h.tables.addDeliveries (nodup_singleton _) ?_ (Nat.le_add_right _ 2) ?_ ?_
      · intro d hd
        rw [mem_singleton.mp hd]
        exact ⟨le_rfl, Nat.lt_add_of_pos_right (by decide)⟩
      · intro d hd owner ho
        rw [mem_singleton.mp hd] at ho
        cases ho
        exact Nat.lt_succ_self _
      · intro d hd id hid
        rw [mem_singleton.mp hd] at hid
        cases hid
    · have hcase : c ∈ w.tickets ∨ c ∈ [(insertTest w.now id config.leaseSeconds w.db).1] := tickets_claim hc
      obtain hc | hc := hcase
      · exact (h.tickets c hc).append (Nat.le_add_right _ 2) _
      · rw [mem_singleton.mp hc]
        exact ⟨Nat.lt_succ_self _, _, mem_concat_self, rfl, rfl, rfl⟩
  | disable => exact h.cancel "destination_disabled" rfl rfl rfl
  | retry => exact baseInv_requeue h
  | cancel => exact h.cancel "user_cancelled" rfl rfl rfl
  | bulkRetry =>
    refine bulkSelection_invariant (fun db => BaseInv { w with db }) (fun _ => True) ?_ h h.tables.deliveryIds
      fun _ _ => trivial
    exact fun db id previous hdb _ => baseInv_requeue hdb

/-- In every run of the workers and the commands, however their steps follow one another, the tables fit
together and every claim that a worker still acts on names a delivery. -/
theorem tables_consistent (steps : List Step) : BaseInv (trace step World.init steps).2 :=
  trace_invariant step (fun _ w => BaseInv w) (fun _ _ _ h => baseInv_step h) baseInv_init steps

end Okoscope.Server.NotificationInvariants
