import Okoscope.Server.NotificationInvariants

/-!
# Completion of outbox messages

A materialized message is processed when none of its deliveries is left. Only the
transaction of an attempt looks for that: it completes the message if, at its last
statement, every other delivery has ended. A command that ends or requeues a
delivery does not look, and neither does an attempt see a sibling that commits
after its last statement. Where none of this happens, a message is processed
exactly when its deliveries have ended.
-/
namespace Okoscope.Server.OutboxCompletion

open Lib.Table Lib.Run
open NotificationTables NotificationWorker NotificationSystem
open NotificationInvariants
open World List

/-- Every delivery of the message is in a terminal status. -/
def Ended (deliveries : List Delivery) (messageId : Nat) : Prop :=
  ∀ d ∈ deliveries, d.outboxMessageId = some messageId → d.state.isTerminal

instance (deliveries : List Delivery) (messageId : Nat) : Decidable (Ended deliveries messageId) :=
  inferInstanceAs (Decidable (∀ d ∈ deliveries, _ → _))

/-- A materialized message that has deliveries is processed exactly when they have ended. -/
def CompletionExact (db : Db) : Prop :=
  ∀ m ∈ db.messages, m.materializedAt.isSome → (∃ d ∈ db.deliveries, d.outboxMessageId = some m.id) →
    (m.processedAt.isSome ↔ Ended db.deliveries m.id)

instance (db : Db) : Decidable (CompletionExact db) :=
  inferInstanceAs (Decidable (∀ m ∈ db.messages, _ → _ → (_ ↔ _)))

/-! ## The condition -/

/-- No transaction of an attempt on the message is open. -/
def Quiet (w : World) (messageId : Nat) : Prop := ∀ o ∈ w.opens, o.claim.outboxMessageId ≠ some messageId

instance (w : World) (messageId : Nat) : Decidable (Quiet w messageId) :=
  inferInstanceAs (Decidable (∀ o ∈ w.opens, _))

/-- The delivery may be requeued: its message is not processed and no attempt on it is open. -/
def MayRequeue (w : World) (d : Delivery) : Prop :=
  ∀ id ∈ d.outboxMessageId, Quiet w id ∧ ∀ m ∈ w.db.messages, m.id = id → m.processedAt = none

instance (w : World) (d : Delivery) : Decidable (MayRequeue w d) :=
  inferInstanceAs (Decidable (∀ id ∈ d.outboxMessageId, _))

/-- The delivery may be ended by a command: no attempt on its message is open, and another
delivery of the message, which the command does not touch, is unfinished. -/
def MayEnd (w : World) (touched : Delivery → Bool) (d : Delivery) : Prop :=
  ∀ id ∈ d.outboxMessageId, Quiet w id ∧
    ∃ e ∈ w.db.deliveries, e.outboxMessageId = some id ∧ touched e = false ∧ e.state.isTerminal = false

instance (w : World) (touched : Delivery → Bool) (d : Delivery) : Decidable (MayEnd w touched d) :=
  inferInstanceAs (Decidable (∀ id ∈ d.outboxMessageId, _))

/-- Attempts on one message are recorded one after the other and no command on a delivery of the
message comes in between; a retry finds the message not processed; and a cancellation leaves the
message another unfinished delivery. -/
def Undisturbed (w : World) : Step → Prop
  | .persist _ job _ => ∀ id ∈ job.claim.outboxMessageId, Quiet w id
  | .retry id => ∀ d ∈ w.db.deliveries, d.id = id → d.state.isFailed → MayRequeue w d
  | .bulkRetry f _ => ∀ d ∈ w.db.retryable f.retryFilter, MayRequeue w d
  | .cancel id => ∀ d ∈ w.db.deliveries, d.id = id → d.state = .pending → MayEnd w (fun e => e.id = id) d
  | .disable id => ∀ d ∈ w.db.deliveries, d.destinationId = id → d.state.isTerminal = false →
      MayEnd w (fun e => e.destinationId = id) d
  | _ => True

instance Undisturbed.decidable (w : World) : ∀ a, Decidable (Undisturbed w a)
  | .persist _ job _ => inferInstanceAs (Decidable (∀ id ∈ job.claim.outboxMessageId, _))
  | .retry _ => inferInstanceAs (Decidable (∀ d ∈ w.db.deliveries, _ → _ → _))
  | .bulkRetry f _ => inferInstanceAs (Decidable (∀ d ∈ w.db.retryable f.retryFilter, _))
  | .cancel _ => inferInstanceAs (Decidable (∀ d ∈ w.db.deliveries, _ → _ → _))
  | .disable _ => inferInstanceAs (Decidable (∀ d ∈ w.db.deliveries, _ → _ → _))
  | .pass _ | .announce _ | .createDestination _ | .updateDestination _ | .materialize _ _ _ _ | .claim _ _
  | .send _ _ _ | .stop _ | .commit _ | .abort _ | .testDestination _ _ => .isTrue trivial

/-! ## The invariant -/

/-- Whether the delivery has ended once the transaction is committed. -/
def endsWith (o : OpenAttempt) (d : Delivery) : Bool :=
  (if d.leasedTo o.claim.id o.claim.leaseOwner then attempted o d else d).state.isTerminal

variable {o : OpenAttempt}

theorem endsWith_of_not_leased {d : Delivery} (h : d.leasedTo o.claim.id o.claim.leaseOwner = false) :
    endsWith o d = d.state.isTerminal := by
  rw [endsWith, h]
  rfl

structure CompletionInv (w : World) : Prop where
  exact : CompletionExact w.db
  /-- An open transaction completes its message exactly if its commit ends the last delivery. -/
  decided : ∀ o ∈ w.opens, ∀ id, o.claim.outboxMessageId = some id →
    (o.completes ↔ ∀ d ∈ w.db.deliveries, d.outboxMessageId = some id → endsWith o d)
  alone : w.opens.Pairwise fun o o' => ∀ id, o.claim.outboxMessageId = some id → o'.claim.outboxMessageId ≠ some id

theorem completionInv_init : CompletionInv init where
  exact := nofun
  decided := nofun
  alone := .nil

variable {config : NotificationConfig} {cond : Delivery → Bool} {now : Int}

section
variable {w w' : World}

theorem CompletionInv.same (h : CompletionInv w) (hm : w'.db.messages = w.db.messages)
    (hd : w'.db.deliveries = w.db.deliveries) (ho : w'.opens.Sublist w.opens) : CompletionInv w' where
  exact := by
    unfold CompletionExact
    rw [hm, hd]
    exact h.exact
  decided := by
    rw [hd]
    exact fun o hmem => h.decided o (ho.subset hmem)
  alone := h.alone.sublist ho

/-- Rewriting deliveries. A rewritten delivery of a message either keeps its part in the message's
completion, or its message is quiet, not processed and left with an unfinished delivery. -/
theorem CompletionInv.update (h : CompletionInv w) {db : Db} {f : Delivery → Delivery} (hf : Keeps f)
    (hm : db.messages = w.db.messages) (hd : db.deliveries = updateWhere cond f w.db.deliveries)
    (hrow : ∀ d ∈ w.db.deliveries, cond d → ∀ id, d.outboxMessageId = some id →
      ((f d).state.isTerminal = d.state.isTerminal ∧
        ∀ o ∈ w.opens, o.claim.outboxMessageId = some id → endsWith o (f d) = endsWith o d) ∨
      (Quiet w id ∧ (∀ m ∈ w.db.messages, m.id = id → m.processedAt = none) ∧
        ∃ e ∈ db.deliveries, e.outboxMessageId = some id ∧ e.state.isTerminal = false)) :
    CompletionInv { w with db } where
  exact := by
    intro m hmem hmat hex
    rw [hm] at hmem
    rw [hd, exists_keyed_updateWhere hf.message] at hex
    by_cases hkept : ∀ d ∈ w.db.deliveries, cond d → d.outboxMessageId = some m.id →
        (f d).state.isTerminal = d.state.isTerminal
    · rw [h.exact m hmem hmat hex, hd, Ended, Ended, forall_keyed_updateWhere hf.message]
      refine forall₃_congr fun d hd' hid => ?_
      split
      · next hc => rw [hkept d hd' hc hid]
      · rfl
    · push Not at hkept
      obtain ⟨d, hd', hc, hid, hne⟩ := hkept
      obtain hsame | ⟨-, hunprocessed, e, he, heid, hlive⟩ := hrow d hd' hc m.id hid
      · exact absurd hsame.1 hne
      rw [hunprocessed m hmem rfl]
      refine iff_of_false Bool.false_ne_true fun hended => ?_
      rw [hended e he heid] at hlive
      cases hlive
  decided := by
    intro o ho id hid
    rw [hd, h.decided o ho id hid, forall_keyed_updateWhere hf.message]
    refine forall₃_congr fun d hmem hdid => ?_
    split
    · next hc =>
      obtain hk | ⟨hquiet, -, -⟩ := hrow d hmem hc id hdid
      · rw [hk.2 o ho hid]
      · exact absurd hid (hquiet o ho)
    · rfl
  alone := h.alone

/-! ## Steps -/

theorem delivery_of_ticket (hb : BaseInv w) {c : DeliveryClaim} (hc : c ∈ w.tickets) :
    ∃ d ∈ w.db.deliveries, d.id = c.id ∧ d.outboxMessageId = c.outboxMessageId ∧
      ∀ e ∈ w.db.deliveries, e.id = c.id → e = d := by
  obtain ⟨-, d, hd, hid, hmsg, -⟩ := hb.tickets c hc
  exact ⟨d, hd, hid, hmsg, fun e he heid => eq_of_key_eq hb.tables.deliveryIds he hd (heid.trans hid.symm)⟩

theorem completionInv_announce (h : CompletionInv w) (hb : BaseInv w) {source : Source} :
    CompletionInv (step w (.announce source)).2 where
  exact := by
    intro m hm hmat hex
    obtain hm | hm := mem_append.mp hm
    · exact h.exact m hm hmat hex
    obtain ⟨d, hd, hid⟩ := hex
    obtain ⟨m', hm', hid', -⟩ := hb.tables.parent d hd m.id hid
    have hlt := hb.tables.messageKnown m' hm'
    have hnew : m.id = w.db.nextId := congrArg OutboxMessage.id (mem_singleton.mp hm)
    omega
  decided := h.decided
  alone := h.alone

theorem completionInv_materializeMessage {db : Db} (h : CompletionInv { w with db }) (hb : BaseInv { w with db })
    {reason : EligibilityReason} {destinations : List Destination} {m : OutboxMessage} (hm : m ∈ db.messages)
    (hmat : m.materializedAt = none) (hproc : m.processedAt = none) :
    CompletionInv { w with db := materializeMessage now config reason destinations db m } := by
  obtain ⟨new, _, hspec, -, hnew, hf⟩ := materializeMessage_spec reason destinations
  rw [hspec]
  have hnone : ∀ d ∈ db.deliveries, d.outboxMessageId ≠ some m.id := by
    intro d hd hid
    obtain ⟨m', hm', hid', hmat'⟩ := hb.tables.parent d hd m.id hid
    have hsame : m' = m := eq_of_key_eq hb.tables.messageIds hm' hm hid'
    rw [hsame, hmat] at hmat'
    cases hmat'
  have hothers : ∀ id, id ≠ m.id → ∀ d ∈ new, d.outboxMessageId ≠ some id := by
    intro id hne d hd hid
    rw [(hnew d hd).outboxMessageId] at hid
    exact hne (Option.some.inj hid).symm
  refine ⟨?_, ?_, h.alone⟩
  · intro m' hm' hmat' hex
    obtain ⟨m₀, hm₀, rfl⟩ := mem_updateWhere.mp hm'
    by_cases hid : m₀.id = m.id
    · -- the message itself: its deliveries are the new ones
      have hsame : m₀ = m := eq_of_key_eq hb.tables.messageIds hm₀ hm hid
      subst hsame
      rw [if_pos (decide_eq_true rfl), hf.processedAt, hf.id, hproc]
      have hended : Ended (db.deliveries ++ new) m₀.id ↔ ∀ d ∈ new, d.state.isTerminal := by
        rw [Ended, forall_mem_append, and_iff_right fun d hd hdid => absurd hdid (hnone d hd)]
        exact forall₂_congr fun d hd => forall_prop_of_true (hnew d hd).outboxMessageId
      rw [hended]
      split
      · next hall => exact iff_of_true rfl hall
      · next hall => exact iff_of_false Bool.false_ne_true hall
    · rw [if_neg (by simpa using hid)] at hmat' hex ⊢
      have hapart := hothers m₀.id hid
      exact (h.exact m₀ hm₀ hmat' ((exists_keyed_append hapart).mp hex)).trans (forall_keyed_append hapart).symm
  · intro o ho id hid
    obtain ⟨d, hd, -, hmsg, -⟩ := delivery_of_ticket hb (mem_tickets.mpr (.inr ⟨o, ho, rfl⟩))
    have hne : id ≠ m.id := fun he => hnone d hd (by rw [hmsg, hid, he])
    exact (h.decided o ho id hid).trans (forall_keyed_append (hothers id hne)).symm

section
variable (h : CompletionInv w)
include h

section
variable (hb : BaseInv w)
include hb

theorem completionInv_claim {locked : List Nat} : CompletionInv (step w (.claim config locked)).2 := by
  have hleased : CompletionInv { w with
      db := (claimDue w.now config.claimSize config.leaseSeconds (w.written ++ locked) w.db).2 } := by
    refine h.update (keeps_leased w.db.nextId (w.now + config.leaseSeconds * microsPerSecond)) rfl rfl ?_
    intro d hd hc id hid
    obtain ⟨d', hd', hid', hdue, hfree⟩ := mem_claimCandidates (by simpa using hc)
    have hsame : d' = d := eq_of_key_eq hb.tables.deliveryIds hd' hd hid'
    subst hsame
    have hlive := isTerminal_of_due hdue
    refine .inl ⟨by rw [hlive]; rfl, fun o ho _ => ?_⟩
    -- the row is not the transaction's own, neither before the lease nor after it
    have hbefore : d'.leasedTo o.claim.id o.claim.leaseOwner = false := by
      rw [Bool.eq_false_iff]
      intro hl
      apply hfree
      refine mem_append_left _ (mem_map.mpr ⟨o, mem_filter.mpr ⟨ho, ?_⟩, ?_⟩)
      · exact any_eq_true.mpr ⟨d', hd, hl⟩
      · exact (leasedTo_iff.mp hl).1.symm
    have hafter : (leased w.db.nextId (w.now + config.leaseSeconds * microsPerSecond) d').leasedTo o.claim.id
        o.claim.leaseOwner = false := by
      rw [Bool.eq_false_iff]
      intro hl
      have howner : w.db.nextId = o.claim.leaseOwner := Option.some.inj (leasedTo_iff.mp hl).2
      have hlt := (hb.tickets o.claim (mem_tickets.mpr (.inr ⟨o, ho, rfl⟩))).1
      omega
    rw [endsWith_of_not_leased hbefore, endsWith_of_not_leased hafter, hlive]
    rfl
  exact hleased.same rfl rfl (.refl _)

theorem completionInv_persist {job : Job} {draw : Nat} {startedAt : Int} {result : AttemptResult}
    (hj : job ∈ w.jobs) (hquiet : ∀ id ∈ job.claim.outboxMessageId, Quiet w id)
    (ho : attemptStatements w.now config job.claim startedAt result draw w.db = .ok o) :
    CompletionInv { w with jobs := w.jobs.erase job, opens := w.opens ++ [o] } := by
  obtain ⟨hclaim, -, hdone⟩ := attemptStatements_eq_ok ho
  refine ⟨h.exact, forall_mem_append.mpr ⟨h.decided, fun o' ho' id hid => ?_⟩, ?_⟩
  · rw [mem_singleton.mp ho'] at hid ⊢
    rw [hclaim] at hid
    obtain ⟨d, hd, -, hmsg, -⟩ := delivery_of_ticket hb (mem_tickets.mpr (.inl ⟨job, hj, rfl⟩))
    obtain ⟨m, hm, hmid, hmat⟩ := hb.tables.parent d hd id (hmsg.trans hid)
    have hmaterialized : w.db.messages.any (fun m => decide (m.id = id) && m.materializedAt.isSome) :=
      any_eq_true.mpr ⟨m, hm, by simp [hmid, hmat]⟩
    rw [hdone, hid, Option.any_some, writeDelivery_eq, completable]
    simp only [hmaterialized, Bool.true_and, Db.deliveriesEnded, Db.deliveriesOf, all_eq_true,
      mem_filter, decide_eq_true_eq, and_imp]
    exact forall_keyed_updateWhere (attempted_outboxMessageId o)
  · rw [pairwise_append]
    refine ⟨h.alone, pairwise_singleton _ _, ?_⟩
    intro o' ho' o'' ho'' id hid hid''
    rw [mem_singleton.mp ho'', hclaim] at hid''
    exact hquiet id hid'' o' ho' hid

theorem completionInv_commit (ho : o ∈ w.opens) :
    CompletionInv { w with db := o.commit w.db, opens := w.opens.erase o } := by
  obtain ⟨_, hd₀, hid₀, hmsg₀, hunique⟩ := delivery_of_ticket hb (mem_tickets.mpr (.inr ⟨o, ho, rfl⟩))
  have hended : ∀ id, Ended (updateWhere (Delivery.leasedTo o.claim.id o.claim.leaseOwner) (attempted o)
      w.db.deliveries) id ↔ ∀ d ∈ w.db.deliveries, d.outboxMessageId = some id → endsWith o d :=
    fun id => forall_keyed_updateWhere (attempted_outboxMessageId o)
  -- only the transaction's own delivery is written
  have hother : ∀ id, o.claim.outboxMessageId ≠ some id → ∀ d ∈ w.db.deliveries, d.outboxMessageId = some id →
      d.leasedTo o.claim.id o.claim.leaseOwner = false := by
    intro id hne d hd hdid
    rw [Bool.eq_false_iff]
    intro hl
    rw [hunique d hd (leasedTo_iff.mp hl).1, hmsg₀] at hdid
    exact hne hdid
  have hsymm : ∀ {o o' : OpenAttempt}, (∀ id, o.claim.outboxMessageId = some id → o'.claim.outboxMessageId ≠ some id) →
      ∀ id, o'.claim.outboxMessageId = some id → o.claim.outboxMessageId ≠ some id :=
    fun hoo id hid' hid => hoo id hid hid'
  rw [commit_eq]
  refine ⟨?_, ?_, h.alone.sublist erase_sublist⟩
  · intro m' hm' hmat hex
    obtain ⟨m, hm, rfl⟩ := mem_updateWhere.mp hm'
    have hids : (if (o.completes && decide (o.claim.outboxMessageId = some m.id)) then
        processed o.attempt.finishedAt m else m).id = m.id := by
      split <;> rfl
    have hmats : m.materializedAt.isSome := by
      revert hmat
      split <;> exact fun hmat => hmat
    rw [hids] at hex ⊢
    rw [show ({ w with db := _, opens := _ } : World).db.deliveries = _ from rfl, hended]
    have hold := h.exact m hm hmats ((exists_keyed_updateWhere (attempted_outboxMessageId o)).mp hex)
    by_cases hmine : o.claim.outboxMessageId = some m.id
    · rw [← h.decided o ho m.id hmine]
      cases hc : o.completes with
      | true => simp [hmine, processed]
      | false =>
        simp only [Bool.false_and, Bool.false_eq_true, if_false, iff_false]
        -- a processed message has no lease left, so its attempt would complete it again
        intro hp
        have hall := hold.mp hp
        have hagain := (h.decided o ho m.id hmine).mpr fun d hd hdid => by
          have hterminal := hall d hd hdid
          have hfree : d.leasedTo o.claim.id o.claim.leaseOwner = false := by
            rw [Bool.eq_false_iff]
            intro hl
            have hlive := isTerminal_of_leaseOwner (leasedTo_iff.mp hl).2
            rw [hterminal] at hlive
            cases hlive
          rw [endsWith_of_not_leased hfree]
          exact hterminal
        rw [hc] at hagain
        cases hagain
    · have hkept : (o.completes && decide (o.claim.outboxMessageId = some m.id)) = false := by simp [hmine]
      rw [hkept, if_neg Bool.false_ne_true, hold]
      refine forall_congr' fun d => forall_congr' fun hd => forall_congr' fun hdid => ?_
      rw [endsWith_of_not_leased (hother m.id hmine d hd hdid)]
  · intro o' ho' id hid
    have hmem := mem_of_mem_erase ho'
    rw [h.decided o' hmem id hid]
    have hne : o.claim.outboxMessageId ≠ some id :=
      fun he => (pairwise_cons.mp (((perm_cons_erase ho).pairwise_iff hsymm).mp h.alone)).1 o' ho' id he hid
    refine (forall₃_congr fun d hd hdid => ?_).trans (forall_keyed_updateWhere (attempted_outboxMessageId o)).symm
    rw [hother id hne d hd hdid]
    rfl

end

theorem completionInv_requeue {id generation : Nat}
    (hmay : ∀ d ∈ w.db.deliveries, d.id = id → d.state.isFailed → MayRequeue w d) :
    CompletionInv { w with db := (requeueFailed now id generation w.db).2 } := by
  refine h.update keeps_requeued rfl rfl ?_
  intro d hd hc messageId hmessage
  rw [Bool.and_eq_true, decide_eq_true_eq] at hc
  obtain ⟨hquiet, hunprocessed⟩ := hmay d hd hc.1 hc.2 messageId hmessage
  refine .inr ⟨hquiet, hunprocessed, requeued now generation d, mem_updateWhere.mpr ⟨d, hd, ?_⟩, hmessage, rfl⟩
  rw [if_pos (by simp [hc.1, hc.2])]
  rfl

/-- Ending the deliveries that a command touches. -/
theorem completionInv_cancel (hb : BaseInv w) (touched : Delivery → Bool) {db : Db} {errorClass : String}
    (hm : db.messages = w.db.messages)
    (hd : db.deliveries = updateWhere cond (cancelled now errorClass) w.db.deliveries)
    (htouched : ∀ d ∈ w.db.deliveries, cond d → touched d ∧ MayEnd w touched d) : CompletionInv { w with db } := by
  refine h.update keeps_cancelled hm hd ?_
  intro d hmem hc id hid
  obtain ⟨hquiet, e, he, heid, hfree, hlive⟩ := (htouched d hmem hc).2 id hid
  refine .inr ⟨hquiet, fun m hm hmid => ?_, e, ?_, heid, hlive⟩
  · -- a message with an unfinished delivery is not processed
    obtain ⟨m', hm', hid', hmat⟩ := hb.tables.parent e he id heid
    obtain rfl : m' = m := eq_of_key_eq hb.tables.messageIds hm' hm (hid'.trans hmid.symm)
    rw [← hmid] at heid
    by_contra hp
    have hended := (h.exact m' hm hmat ⟨e, he, heid⟩).mp (Option.isSome_iff_ne_none.mpr hp)
    rw [hended e he heid] at hlive
    cases hlive
  · rw [hd]
    refine mem_updateWhere.mpr ⟨e, he, if_neg fun hce => ?_⟩
    rw [(htouched e he hce).1] at hfree
    cases hfree

theorem completionInv_step (hb : BaseInv w) {a : Step} (hu : Undisturbed w a) : CompletionInv (step w a).2 := by
  have hstep := change_step w a
  generalize (step w a).2 = w' at hstep
  cases hstep with
  | same _ hm hd _ _ ho => exact h.same hm hd ho
  | announce => exact completionInv_announce h hb
  | materialize config locked eligibility destinations =>
    let inv := fun db => BaseInv { w with db } ∧ CompletionInv { w with db }
    have hboth : inv (materializeOnce w.now config locked eligibility destinations w.db) := by
      refine materializeOnce_invariant inv ?_ ⟨hb, h⟩ hb.tables.messageIds
      intro db m reason hdb hm hmat hproc
      exact ⟨baseInv_materializeMessage hdb.1 hm, completionInv_materializeMessage hdb.2 hdb.1 hm hmat hproc⟩
    exact hboth.2
  | claim => exact completionInv_claim h hb
  | persist hj ho => exact completionInv_persist h hb hj hu ho
  | commit ho => exact completionInv_commit h hb ho
  | testDestination config id =>
    obtain ⟨d, hd, hnone⟩ : ∃ d, (insertTest w.now id config.leaseSeconds w.db).2.deliveries = w.db.deliveries ++ [d] ∧
        d.outboxMessageId = none := ⟨_, rfl, rfl⟩
    have hother : ∀ id, ∀ e ∈ [d], e.outboxMessageId ≠ some id := by simp [hnone]
    refine ⟨fun m hm hmat hex => ?_, fun o ho id hid => ?_, h.alone⟩
    · rw [hd] at hex ⊢
      rw [Ended, forall_keyed_append (hother m.id)]
      exact h.exact m hm hmat ((exists_keyed_append (hother m.id)).mp hex)
    · rw [hd, forall_keyed_append (hother id)]
      exact h.decided o ho id hid
  | disable id =>
    refine completionInv_cancel h hb (fun e => e.destinationId = id) rfl rfl fun d hd hc => ?_
    simp only [Bool.and_eq_true, Bool.not_eq_true', decide_eq_true_eq] at hc
    exact ⟨decide_eq_true hc.1, hu d hd hc.1 hc.2⟩
  | retry => exact completionInv_requeue h hu
  | cancel id =>
    refine completionInv_cancel h hb (fun e => e.id = id) rfl rfl fun d hd hc => ?_
    simp only [Bool.and_eq_true, decide_eq_true_eq] at hc
    exact ⟨decide_eq_true hc.1, hu d hd hc.1 hc.2⟩
  | bulkRetry f locked limit =>
    let inv := fun db => CompletionInv { w with db } ∧ db.messages = w.db.messages
    have hboth : inv (requeueAll w.now (bulkSelection f.retryFilter limit (w.written ++ locked) w.db) w.db).2 := by
      refine bulkSelection_invariant inv (MayRequeue w) ?_ ⟨h, rfl⟩ hb.tables.deliveryIds hu
      intro db id previous hdb hmay
      refine ⟨completionInv_requeue hdb.1 fun d hd hid hfailed messageId hmessage => ?_, hdb.2⟩
      obtain ⟨hquiet, hunprocessed⟩ := (hmay d hd hid hfailed).2 messageId hmessage
      exact ⟨hquiet, hdb.2 ▸ hunprocessed⟩
    exact hboth.1

end

end

/-- In a run whose steps are all undisturbed, a materialized message that has deliveries is
processed exactly when all of them have ended. -/
theorem undisturbed_completion_exact (steps : List Step) (h : Along step Undisturbed init steps) :
    CompletionExact (trace step init steps).2.db := by
  have hinv := trace_invariant_along (fun _ w => BaseInv w ∧ CompletionInv w)
    (fun _ w a hw hu => ⟨baseInv_step hw.1, completionInv_step hw.2 hw.1 hu⟩)
    ⟨baseInv_init, completionInv_init⟩ h
  exact hinv.2.exact

/-! ## Runs -/

/-- A worker with leases of five seconds and a single attempt. -/
def singleAttempt : NotificationConfig where
  claimSize := 10
  leaseSeconds := 5
  maxAttempts := 1
  backoffMinSeconds := 1
  backoffMaxSeconds := 1
  claimSize_range := by decide
  leaseSeconds_range := by decide
  maxAttempts_range := by decide
  backoffMin_range := by decide
  backoffMax_range := by decide
  backoff_ordered := by decide

/-- A message with one delivery, leased by one worker. -/
def leasedRun : List Step :=
  [.createDestination false, .announce .live,
    .materialize singleAttempt [] (fun _ => .eligible) [⟨0, true, false, 1⟩], .claim singleAttempt []]

/-- The claim on the delivery under the given lease. -/
def claimUnder (owner : Nat) : DeliveryClaim := ⟨2, 0, some 1, 0, 0, singleAttempt.attemptLimit, owner⟩

def accepted : SendOutcome := .sent (.ok ⟨200, "", 3, none⟩)

def answeredAt (t : Int) (owner : Nat) : Job := ⟨claimUnder owner, some (t, attemptResult 3 accepted)⟩

/-- What the transaction of the claim under the first lease has written. -/
def firstAttempt (t : Int) (completes : Bool) : OpenAttempt :=
  ⟨claimUnder 3, attemptOf t 0 (claimUnder 3) (attemptResult 3 accepted), 1, completes⟩

/-- The only delivery is sent and its attempt recorded. -/
def deliveredRun : List Step :=
  leasedRun ++ [.send ⟨claimUnder 3, none⟩ 3 accepted, .persist singleAttempt (answeredAt 0 3) 0,
    .commit (firstAttempt 0 true)]

theorem undisturbed_completion_exact_deliveredRun :
    Along step Undisturbed init deliveredRun ∧ CompletionExact (trace step init deliveredRun).2.db := by
  have hrun : Along step Undisturbed init deliveredRun := by decide +kernel
  exact ⟨hrun, undisturbed_completion_exact deliveredRun hrun⟩

/-- The only delivery of a message before any worker claims it. -/
def pendingRun : List Step :=
  [.createDestination false, .announce .live, .materialize singleAttempt [] (fun _ => .eligible) [⟨0, true, false, 1⟩]]

def rejected : SendOutcome := .sent (.ok ⟨404, "", 3, none⟩)

/-- The only delivery fails, which completes the message, and is then retried. -/
def retriedRun : List Step :=
  leasedRun ++ [.send ⟨claimUnder 3, none⟩ 3 rejected,
    .persist singleAttempt ⟨claimUnder 3, some (0, attemptResult 3 rejected)⟩ 0,
    .commit ⟨claimUnder 3, attemptOf 0 0 (claimUnder 3) (attemptResult 3 rejected), 1, true⟩, .retry 2]

/-- The claims on the two deliveries of a message, under one lease. -/
def siblingClaim (id destinationId : Nat) : DeliveryClaim :=
  ⟨id, destinationId, some 2, 0, 0, singleAttempt.attemptLimit, 5⟩

def siblingAttempt (id destinationId : Nat) : OpenAttempt :=
  ⟨siblingClaim id destinationId, attemptOf 0 0 (siblingClaim id destinationId) (attemptResult 3 accepted), 1, false⟩

/-- Two deliveries of one message are delivered, and the statements of both attempts run before
either commits. -/
def siblingRun : List Step :=
  [.createDestination false, .createDestination false, .announce .live,
    .materialize singleAttempt [] (fun _ => .eligible) [⟨0, true, false, 1⟩, ⟨1, true, false, 1⟩],
    .claim singleAttempt [], .send ⟨siblingClaim 3 0, none⟩ 3 accepted, .send ⟨siblingClaim 4 1, none⟩ 3 accepted,
    .persist singleAttempt ⟨siblingClaim 3 0, some (0, attemptResult 3 accepted)⟩ 0,
    .persist singleAttempt ⟨siblingClaim 4 1, some (0, attemptResult 3 accepted)⟩ 0,
    .commit (siblingAttempt 3 0), .commit (siblingAttempt 4 1)]

/-- The message's completion and the states of its deliveries. -/
def outcome (steps : List Step) : List (Bool × Bool) × List DeliveryState :=
  ((trace step init steps).2.db.messages.map fun m => (m.materializedAt.isSome, m.processedAt.isSome),
    (trace step init steps).2.db.deliveries.map Delivery.state)

/-- Cancelling the last delivery, disabling its destination and committing the last two deliveries
side by side leave the message unprocessed; retrying a delivery leaves it processed. -/
theorem completion_not_exact : outcome (pendingRun ++ [.cancel 2]) = ([(true, false)], [.ended .cancelled 0]) ∧
    outcome (pendingRun ++ [.disable 0]) = ([(true, false)], [.ended .cancelled 0]) ∧
    outcome siblingRun = ([(true, false)], [.ended .succeeded 0, .ended .succeeded 0]) ∧
    outcome retriedRun = ([(true, true)], [.pending]) ∧
    ¬ CompletionExact (trace step init (pendingRun ++ [.cancel 2])).2.db ∧
    ¬ CompletionExact (trace step init (pendingRun ++ [.disable 0])).2.db ∧
    ¬ CompletionExact (trace step init siblingRun).2.db ∧ ¬ CompletionExact (trace step init retriedRun).2.db := by
  decide +kernel

end Okoscope.Server.OutboxCompletion
