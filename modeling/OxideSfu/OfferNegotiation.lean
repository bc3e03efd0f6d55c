import OxideSfu.SubscriptionStores
import OxideSfu.StepRuns

/-!
# Offers to a subscriber

A subscriber with a transport of its own gets its offers from the server, one at a time. A request
that comes while an offer is created or waits for its answer is noted, and the answer starts the
next one (`stores/media.rs`, `router/session.rs`, `signal_request.rs`). A step is what happens
without a gap in time; what the peer connection answers is part of it.
-/

namespace OxideSfu.Signaling

open FiniteMaps StepRuns List

structure SubscriberOfferIdStore where
  ids : FiniteMap ParticipantKey UInt32

namespace SubscriberOfferIdStore

def nextOfferId (s : SubscriberOfferIdStore) (subscriber : ParticipantKey) :
    UInt32 × SubscriberOfferIdStore :=
  let next := (s.ids.lookup subscriber).getD 0+1
  let id := if next=0 then 1 else next
  (id,⟨s.ids.insert subscriber id⟩)

def currentOfferId (s : SubscriberOfferIdStore) (subscriber : ParticipantKey) : Option UInt32 :=
  s.ids.lookup subscriber

def removeParticipant (s : SubscriberOfferIdStore) (subscriber : ParticipantKey) :
    SubscriberOfferIdStore :=
  ⟨s.ids.erase subscriber⟩

end SubscriberOfferIdStore

inductive SubscriberOfferNegotiationRequest | start | coalesced deriving DecidableEq

/-- An offer that is being created, or one that waits for its answer; `pending` notes that a
request was coalesced with it. -/
inductive SubscriberOfferNegotiationState
  | creating (pending : Bool)
  | inFlight (offerId : UInt32) (pending : Bool)
  deriving DecidableEq

namespace SubscriberOfferNegotiationState

def pending : SubscriberOfferNegotiationState→Bool
  | creating pending => pending | inFlight _ pending => pending

def setPending : SubscriberOfferNegotiationState → SubscriberOfferNegotiationState
  | creating _ => creating true | inFlight offerId _ => inFlight offerId true

def isCreating : SubscriberOfferNegotiationState→Bool
  | creating _ => true | inFlight .. => false

end SubscriberOfferNegotiationState

open SubscriberOfferNegotiationState

structure SubscriberOfferNegotiationStore where
  entries : FiniteMap ParticipantKey SubscriberOfferNegotiationState

namespace SubscriberOfferNegotiationStore

def requestOffer (s : SubscriberOfferNegotiationStore) (subscriber : ParticipantKey) :
    SubscriberOfferNegotiationRequest × SubscriberOfferNegotiationStore :=
  match s.entries.lookup subscriber with
  | some entry => (.coalesced,⟨s.entries.insert subscriber entry.setPending⟩)
  | none => (.start,⟨s.entries.insert subscriber (.creating false)⟩)

def markOfferInFlight (s : SubscriberOfferNegotiationStore) (subscriber : ParticipantKey)
    (offerId : UInt32) : SubscriberOfferNegotiationStore :=
  let pending := (s.entries.lookup subscriber).any (·.pending)
  ⟨s.entries.insert subscriber (.inFlight offerId pending)⟩

def abortOfferCreation (s : SubscriberOfferNegotiationStore) (subscriber : ParticipantKey) :
    SubscriberOfferNegotiationStore :=
  if (s.entries.lookup subscriber).any (·.isCreating) then ⟨s.entries.erase subscriber⟩ else s

/-- Finishes the matching offer and tells whether coalesced work must be retried. -/
def finishAnswer (s : SubscriberOfferNegotiationStore) (subscriber : ParticipantKey)
    (offerId : UInt32) : Bool × SubscriberOfferNegotiationStore :=
  match s.entries.lookup subscriber with
  | some (.inFlight expected pending) =>
    if expected≠offerId then (false,s) else (pending,⟨s.entries.erase subscriber⟩)
  | _ => (false,s)

def removeParticipant (s : SubscriberOfferNegotiationStore) (subscriber : ParticipantKey) :
    SubscriberOfferNegotiationStore :=
  ⟨s.entries.erase subscriber⟩

end SubscriberOfferNegotiationStore

open SubscriberOfferNegotiationStore

inductive AnswerOutcome | applied | failed | ignoredAsStale deriving DecidableEq

/-- The steps of a subscriber's negotiation. `initialOffer` is the offer with which
`create_subscriber_offer` opens a transport. An answer that was applied is handled further,
and `answerHandled` is the end of that; it names the offer that the handler completes. -/
inductive OfferStep | request | initialOffer | creationSucceeds | creationFails
  | answer (id : UInt32) (outcome : AnswerOutcome)
  | answerHandled (completed : UInt32)
  | removeParticipant deriving DecidableEq

/-- The stores, how many offers are being created, and the offers whose answers are being
handled. `answerConsumed` tells of the offer in flight whether a handler has ended that
took its answer. -/
structure OfferState where
  offerIds : SubscriberOfferIdStore
  negotiations : SubscriberOfferNegotiationStore
  creations : ℕ
  handling : List UInt32
  answerConsumed : Bool

namespace OfferState

def initial : OfferState := ⟨⟨.empty⟩,⟨.empty⟩,0,[],false⟩

def entry (s : OfferState) (subscriber : ParticipantKey) :
    Option SubscriberOfferNegotiationState :=
  s.negotiations.entries.lookup subscriber

/-- `signal_server_offer_with_offer_id`, until the offer is being created. -/
def request (s : OfferState) (subscriber : ParticipantKey) :
    SubscriberOfferNegotiationRequest × OfferState :=
  let (reply,negotiations) := s.negotiations.requestOffer subscriber
  (reply,{s with
    negotiations
    creations := if reply = .start then s.creations+1 else s.creations})

def sendOffer (s : OfferState) (subscriber : ParticipantKey) : OfferState :=
  let (id,offerIds) := s.offerIds.nextOfferId subscriber
  {s with
    offerIds
    negotiations := s.negotiations.markOfferInFlight subscriber id,answerConsumed := false}

/-- The offer that an answer is for, if it is not an answer to an earlier offer. Zero stands
for the current offer. -/
def answeredOffer (s : OfferState) (subscriber : ParticipantKey) (id : UInt32) : Option UInt32 :=
  match s.offerIds.currentOfferId subscriber with
  | some expected => if id≠0 ∧ id≠expected then none else some expected
  | none => some id

def awaits (s : OfferState) (subscriber : ParticipantKey) (offerId : UInt32) : Bool :=
  (s.entry subscriber).any fun
    | .inFlight expected _ => expected == offerId | .creating _ => false

/-- The handler of an answer, until the answer has been applied. An error ends it. -/
def takeAnswer (s : OfferState) (subscriber : ParticipantKey) (id : UInt32)
    (outcome : AnswerOutcome) : OfferState :=
  match s.answeredOffer subscriber id,outcome with
  | some completed, .applied => {s with handling := completed::s.handling}
  | some completed, .failed =>
    {s with answerConsumed := s.answerConsumed || s.awaits subscriber completed}
  | _, _ => s

/-- The end of the handler: coalesced work is requested again. -/
def handleAnswer (s : OfferState) (subscriber : ParticipantKey) (completed : UInt32) :
    Option SubscriberOfferNegotiationRequest × OfferState :=
  if completed∈s.handling then
    let (retry,negotiations) := s.negotiations.finishAnswer subscriber completed
    let s := {s with negotiations,handling := s.handling.erase completed}
    if retry then
      let (reply,s) := s.request subscriber
      (some reply,s)
    else (none,s)
  else (none,s)

def step (subscriber : ParticipantKey) (s : OfferState) :
    OfferStep→Option SubscriberOfferNegotiationRequest × OfferState
  | .request =>
    let (reply,s) := s.request subscriber
    (some reply,s)
  | .initialOffer => (some .start,s.sendOffer subscriber)
  | .creationSucceeds =>
    if s.creations=0 then (none,s)
    else (none,{s with creations := s.creations-1}.sendOffer subscriber)
  | .creationFails =>
    if s.creations=0 then (none,s)
    else (none,{s with
      creations := s.creations-1,negotiations := s.negotiations.abortOfferCreation subscriber})
  | .answer id outcome => (none,s.takeAnswer subscriber id outcome)
  | .answerHandled completed => s.handleAnswer subscriber completed
  | .removeParticipant => (none,{s with
      offerIds := s.offerIds.removeParticipant subscriber
      negotiations := s.negotiations.removeParticipant subscriber})

end OfferState

def offersAfter (subscriber : ParticipantKey) (steps : List OfferStep) : OfferState :=
  exec (OfferState.step subscriber) .initial steps

variable {s : OfferState} {u : ParticipantKey}

theorem request_of_entry {e : SubscriberOfferNegotiationState} (h : s.entry u=some e) :
    s.request u=(.coalesced,{s with
      negotiations := ⟨s.negotiations.entries.insert u e.setPending⟩}) := by
  have hl : s.negotiations.entries.lookup u=some e := h
  simp [OfferState.request,requestOffer,hl]

theorem request_of_free (h : s.entry u=none) :
    s.request u=(.start,{s with
      negotiations := ⟨s.negotiations.entries.insert u (.creating false)⟩
      creations := s.creations+1}) := by
  have hl : s.negotiations.entries.lookup u=none := h
  simp [OfferState.request,requestOffer,hl]

theorem entry_sendOffer (s : OfferState) (u : ParticipantKey) :
    (s.sendOffer u).entry u =
      some (.inFlight (s.offerIds.nextOfferId u).1 ((s.entry u).any (·.pending))) :=
  if_pos rfl

theorem pending_setPending (e : SubscriberOfferNegotiationState) : e.setPending.pending := by
  cases e <;> rfl

/-- The end of a handler leaves the entry alone, or takes out the offer that was answered and
starts the next one if a request was noted with it. -/
theorem handleAnswer_cases (s : OfferState) (u : ParticipantKey) (completed : UInt32) :
    ((s.handleAnswer u completed).1=none ∧
      ((s.handleAnswer u completed).2.entry u=s.entry u ∨
        ∃offerId,s.entry u=some (.inFlight offerId false) ∧
          (s.handleAnswer u completed).2.entry u=none) ∧
      (s.handleAnswer u completed).2.creations=s.creations ∧
      (s.handleAnswer u completed).2.answerConsumed=s.answerConsumed) ∨
    ((s.handleAnswer u completed).1=some .start ∧
      (s.handleAnswer u completed).2.entry u=some (.creating false) ∧
      (s.handleAnswer u completed).2.creations=s.creations+1) := by
  rw [OfferState.handleAnswer]
  split_ifs
  swap
  · exact .inl ⟨rfl,.inl rfl,rfl,rfl⟩
  cases he : s.entry u with
  | none =>
    have hl : s.negotiations.entries.lookup u=none := he
    simp [finishAnswer,hl,OfferState.entry]
  | some e =>
    have hl : s.negotiations.entries.lookup u=some e := he
    cases e with
    | creating pending =>
      simp [finishAnswer,hl,OfferState.entry]
    | inFlight expected pending =>
      by_cases hm : expected=completed
      · cases pending with
        | false =>
          simp [finishAnswer,hl,OfferState.entry,hm]
        | true =>
          -- The entry is gone when the request comes, so an offer is started.
          simp [finishAnswer,hl,OfferState.entry,hm,OfferState.request,requestOffer]
      · simp [finishAnswer,hl,OfferState.entry,hm]

def PendingWork (subscriber : ParticipantKey) (s : OfferState) : Prop :=
  (s.entry subscriber).any (·.pending)

/-- The offer in the store can still be answered: it is being created, or no handler has ended
that took its answer. -/
def OfferOpen (subscriber : ParticipantKey) (s : OfferState) : Prop :=
  (∀pending,s.entry subscriber=some (.creating pending) → 0<s.creations) ∧
  (∀offerId pending,s.entry subscriber=some (.inFlight offerId pending) →
    s.answerConsumed=false)

/-- What the environment must not do: fail to create an offer with which a request has been
coalesced, and fail to apply the answer to the offer in flight. -/
def Lossless (subscriber : ParticipantKey) (s : OfferState) : OfferStep→Prop
  | .creationFails => s.entry subscriber≠some (.creating true)
  | .answer id .failed => (s.answeredOffer subscriber id).any (s.awaits subscriber)=false
  | _ => True

instance (subscriber : ParticipantKey) (s : OfferState) (step : OfferStep) :
    Decidable (Lossless subscriber s step) :=
  match step with
  | .creationFails => inferInstanceAs (Decidable (_≠_))
  | .answer _ .failed => inferInstanceAs (Decidable (_=_))
  | .answer _ .applied | .answer _ .ignoredAsStale | .request | .initialOffer
  | .creationSucceeds | .answerHandled _ | .removeParticipant => isTrue trivial

variable {subscriber : ParticipantKey} {pending : Bool}

theorem offerOpen_of_inFlight {offerId : UInt32}
    (he : s.entry subscriber=some (.inFlight offerId pending))
    (ho : s.answerConsumed=false) : OfferOpen subscriber s := by
  refine ⟨?_,fun _ _ _ => ho⟩
  intro pending' hc
  rw [he] at hc
  cases hc

theorem offerOpen_of_creating (he : s.entry subscriber=some (.creating pending))
    (hc : 0<s.creations) :
    OfferOpen subscriber s := by
  refine ⟨fun _ _ => hc,?_⟩
  intro offerId pending' hi
  rw [he] at hi
  cases hi

theorem offerOpen_of_free (he : s.entry subscriber=none) : OfferOpen subscriber s := by
  simp [OfferOpen,he]

theorem OfferOpen.request (h : OfferOpen subscriber s) :
    OfferOpen subscriber (s.request subscriber).2 := by
  cases he : s.entry subscriber with
  | none =>
    rw [request_of_free he]
    exact offerOpen_of_creating (if_pos rfl) (Nat.succ_pos _)
  | some e =>
    rw [request_of_entry he]
    cases e with
    | creating pending =>
      have hn : ({s with negotiations := ⟨s.negotiations.entries.insert subscriber
          (.creating true)⟩} : OfferState).entry subscriber=some (.creating true) := if_pos rfl
      exact offerOpen_of_creating hn (h.1 pending he)
    | inFlight offerId pending =>
      have hn : ({s with negotiations := ⟨s.negotiations.entries.insert subscriber
          (.inFlight offerId true)⟩} : OfferState).entry subscriber =
            some (.inFlight offerId true) := if_pos rfl
      exact offerOpen_of_inFlight hn (h.2 offerId pending he)

theorem OfferOpen.creationFails (h : OfferOpen subscriber s) :
    OfferOpen subscriber (s.step subscriber .creationFails).2 := by
  rw [OfferState.step]
  split_ifs
  · exact h
  cases he : s.entry subscriber with
  | none =>
    apply offerOpen_of_free
    have hl : s.negotiations.entries.lookup subscriber=none := he
    simp [OfferState.entry,abortOfferCreation,hl]
  | some e =>
    have hl : s.negotiations.entries.lookup subscriber=some e := he
    cases e with
    | creating pending =>
      apply offerOpen_of_free
      simp [OfferState.entry,abortOfferCreation,hl,isCreating]
    | inFlight offerId pending =>
      have hk : s.negotiations.abortOfferCreation subscriber=s.negotiations := by
        simp [abortOfferCreation,hl,isCreating]
      rw [hk]
      exact offerOpen_of_inFlight he (h.2 offerId pending he)

/-- The handler of an answer does not touch the entry before its end. -/
theorem takeAnswer_keeps (s : OfferState) (u : ParticipantKey) (id : UInt32)
    (outcome : AnswerOutcome) :
    (s.takeAnswer u id outcome).negotiations=s.negotiations ∧
      (s.takeAnswer u id outcome).creations=s.creations := by
  unfold OfferState.takeAnswer
  split <;> exact ⟨rfl,rfl⟩

theorem takeAnswer_answerConsumed {id : UInt32} {outcome : AnswerOutcome}
    (h : Lossless subscriber s (.answer id outcome)) :
    (s.takeAnswer subscriber id outcome).answerConsumed=s.answerConsumed := by
  unfold OfferState.takeAnswer
  split
  · rfl
  · next completed ha =>
    have ho : (s.answeredOffer subscriber id).any (s.awaits subscriber)=false := h
    rw [ha,Option.any_some] at ho
    rw [ho,Bool.or_false]
  · rfl

theorem OfferOpen.step (h : OfferOpen subscriber s) {step : OfferStep}
    (hl : Lossless subscriber s step) :
    OfferOpen subscriber (s.step subscriber step).2 := by
  cases step with
  | request => exact h.request
  | initialOffer => exact offerOpen_of_inFlight (entry_sendOffer s subscriber) rfl
  | creationSucceeds =>
    rw [OfferState.step]
    split_ifs
    · exact h
    · exact offerOpen_of_inFlight (entry_sendOffer _ subscriber) rfl
  | creationFails => exact h.creationFails
  | answer id outcome =>
    obtain ⟨hn,hc⟩ := takeAnswer_keeps s subscriber id outcome
    have he : (s.takeAnswer subscriber id outcome).entry subscriber=s.entry subscriber := by
      rw [OfferState.entry,hn,OfferState.entry]
    refine ⟨?_,?_⟩
    · intro pending hcr
      change 0<(s.takeAnswer subscriber id outcome).creations
      rw [hc]
      exact h.1 pending (he ▸ hcr)
    · intro offerId pending hi
      change (s.takeAnswer subscriber id outcome).answerConsumed=false
      rw [takeAnswer_answerConsumed hl]
      exact h.2 offerId pending (he ▸ hi)
  | answerHandled completed =>
    change OfferOpen subscriber (s.handleAnswer subscriber completed).2
    obtain ⟨-,he | ⟨-,-,hf⟩,hc,hco⟩ | ⟨-,hcr,hc⟩ := handleAnswer_cases s subscriber completed
    · rw [OfferOpen,he,hc,hco]
      exact h
    · exact offerOpen_of_free hf
    · exact offerOpen_of_creating hcr (hc ▸ Nat.succ_pos _)
  | removeParticipant => exact offerOpen_of_free (if_pos rfl)

/-- Pending work stays until an offer is started or the participant is removed. -/
theorem PendingWork.step (h : PendingWork subscriber s) {step : OfferStep}
    (hl : Lossless subscriber s step) :
    (s.step subscriber step).1=some .start ∨ step = .removeParticipant ∨
      PendingWork subscriber (s.step subscriber step).2 := by
  obtain ⟨entry,he,hp⟩ : ∃entry,s.entry subscriber=some entry ∧ entry.pending := by
    simpa [PendingWork,Option.any_eq_true] using h
  have hlo : s.negotiations.entries.lookup subscriber=some entry := he
  cases step with
  | request =>
    right; right
    change PendingWork subscriber (s.request subscriber).2
    rw [request_of_entry he]
    simp [PendingWork,OfferState.entry,pending_setPending]
  | initialOffer => exact .inl rfl
  | creationSucceeds =>
    right; right
    rw [OfferState.step]
    split_ifs
    · exact h
    · rw [PendingWork,entry_sendOffer]
      exact h
  | creationFails =>
    right; right
    rw [OfferState.step]
    split_ifs
    · exact h
    · cases entry with
      | creating pending =>
        cases hp
        exact absurd he hl
      | inFlight offerId pending =>
        simpa [PendingWork,OfferState.entry,abortOfferCreation,hlo,isCreating] using hp
  | answer id outcome =>
    right; right
    change PendingWork subscriber (s.takeAnswer subscriber id outcome)
    rw [PendingWork,OfferState.entry,(takeAnswer_keeps s subscriber id outcome).1]
    exact h
  | answerHandled completed =>
    change (s.handleAnswer subscriber completed).1=_ ∨ _ ∨
      PendingWork subscriber (s.handleAnswer subscriber completed).2
    obtain ⟨-,hsame | ⟨offerId,ho,-⟩,-,-⟩ | ⟨hs,-,-⟩ := handleAnswer_cases s subscriber completed
    · right; right
      rw [PendingWork,hsame]
      exact h
    · rw [he] at ho
      cases ho
      cases hp
    · exact .inl hs
  | removeParticipant => exact .inr (.inl rfl)

theorem pendingWork_of_coalesced {step : OfferStep}
    (h : (s.step subscriber step).1=some .coalesced) :
    PendingWork subscriber (s.step subscriber step).2 := by
  cases step with
  | request =>
    change some (s.request subscriber).1=_ at h
    change PendingWork subscriber (s.request subscriber).2
    cases he : s.entry subscriber with
    | none =>
      rw [request_of_free he] at h
      cases h
    | some e =>
      rw [request_of_entry he]
      simp [PendingWork,OfferState.entry,pending_setPending]
  | initialOffer => cases h
  | creationSucceeds =>
    rw [OfferState.step] at h
    split_ifs at h
  | creationFails =>
    rw [OfferState.step] at h
    split_ifs at h
  | answer id outcome => cases h
  | answerHandled completed =>
    change (s.handleAnswer subscriber completed).1=_ at h
    obtain ⟨hn,-⟩ | ⟨hs,-⟩ := handleAnswer_cases s subscriber completed
    · rw [hn] at h
      cases h
    · rw [hs] at h
      cases h
  | removeParticipant => cases h

def StartsOffer (subscriber : ParticipantKey) (earlier later : List OfferStep) : Prop :=
  ∃between step rest,later=between++step::rest ∧
    ((offersAfter subscriber (earlier++between)).step subscriber step).1=some .start

/-- What a run owes to its requests: after a request that was answered `Coalesced` an offer is
started, or the participant is removed, or the work is noted with an offer that can still be
answered; and no offer is in flight whose answer has been consumed. -/
structure OffersKept (subscriber : ParticipantKey) (steps : List OfferStep) : Prop where
  coalesced : ∀earlier step later,steps=earlier++step::later →
    ((offersAfter subscriber earlier).step subscriber step).1=some .coalesced →
      StartsOffer subscriber (earlier++[step]) later ∨ .removeParticipant∈later ∨
        (PendingWork subscriber (offersAfter subscriber steps) ∧
          OfferOpen subscriber (offersAfter subscriber steps))
  unanswered : ∀offerId pending,
    (offersAfter subscriber steps).entry subscriber=some (.inFlight offerId pending) →
      (offersAfter subscriber steps).answerConsumed=false

theorem offersAfter_concat (u : ParticipantKey) (steps : List OfferStep) (step : OfferStep) :
    offersAfter u (steps++[step])=((offersAfter u steps).step u step).2 :=
  exec_concat _ _ steps step

theorem offerOpen_offersAfter {steps : List OfferStep}
    (h : AtEveryStep (fun e => Lossless u (offersAfter u e)) steps) :
    OfferOpen u (offersAfter u steps) := by
  refine h.induction (offerOpen_of_free rfl) (fun steps step ho hst => ?_)
  rw [offersAfter_concat]
  exact ho.step hst

theorem StartsOffer.append {e l : List OfferStep} (h : StartsOffer u e l) (more : List OfferStep) :
    StartsOffer u e (l++more) := by
  obtain ⟨between,step,rest,rfl,hs⟩ := h
  exact ⟨between,step,rest++more,by simp,hs⟩

theorem pendingWork_later {earlier later : List OfferStep}
    (hp : PendingWork u (offersAfter u earlier))
    (h : AtEveryStep (fun earlier => Lossless u (offersAfter u earlier)) (earlier++later)) :
    StartsOffer u earlier later ∨ .removeParticipant∈later ∨
      PendingWork u (offersAfter u (earlier++later)) := by
  induction later using reverseRecOn with
  | nil =>
    right; right
    rwa [append_nil]
  | append_singleton later step ih =>
    rw [← append_assoc] at h ⊢
    obtain ⟨hl,hste⟩ := (atEveryStep_concat _ _ step).mp h
    obtain hs | hr | hst := ih hl
    · exact .inl (hs.append [step])
    · exact .inr (.inl (mem_append_left _ hr))
    · obtain hs | rfl | hst := hst.step hste
      · exact .inl ⟨later,step,[],rfl,hs⟩
      · exact .inr (.inl (mem_append_right _ mem_cons_self))
      · rw [offersAfter_concat]
        exact .inr (.inr hst)

/-- As long as no offer fails that carries a coalesced request and no answer fails that the
offer in flight waits for, coalesced requests are not lost. -/
theorem offersKept_of_lossless (subscriber : ParticipantKey) (steps : List OfferStep)
    (h : AtEveryStep (fun earlier => Lossless subscriber (offersAfter subscriber earlier)) steps) :
    OffersKept subscriber steps where
  coalesced := by
    rintro earlier step later rfl hc
    have hp := pendingWork_of_coalesced hc
    rw [← offersAfter_concat] at hp
    have hs : earlier++step::later=(earlier++[step])++later := by simp
    rw [hs] at h ⊢
    obtain hst | hr | hsti := pendingWork_later hp h
    · exact .inl hst
    · exact .inr (.inl hr)
    · exact .inr (.inr ⟨hsti,offerOpen_offersAfter h⟩)
  unanswered := (offerOpen_offersAfter h).2

/-- A request comes while the opening offer waits for its answer, and the answer starts the
next offer; an answer to an old offer fails and an offer without noted work fails. -/
theorem offersKept_of_answered_offer :
    ((offersAfter ⟨"room", "bob"⟩ [.initialOffer]).step ⟨"room", "bob"⟩ .request).1 =
      some .coalesced ∧
    OffersKept ⟨"room", "bob"⟩ [.initialOffer,.request,.answer 1 .applied,.request,
      .answerHandled 1,.answer 1 .failed,.creationFails,.request] :=
  ⟨by decide +kernel,offersKept_of_lossless _ _ (by decide +kernel)⟩

/-- A request is coalesced with an offer that is then not created: no offer follows, and
nothing is noted. And an offer whose answer could not be applied stays in flight. -/
theorem coalesced_offer_lost :
    ¬ OffersKept ⟨"room", "bob"⟩ [.request,.request,.creationFails] ∧
    ¬ OffersKept ⟨"room", "bob"⟩ [.request,.creationSucceeds,.answer 1 .failed] := by
  constructor
  · intro h
    have hlo := h.coalesced [.request] .request [.creationFails] rfl (by decide +kernel)
    obtain ⟨between,step,rest,hs,hst⟩ | hr | ⟨hp,-⟩ := hlo
    · cases between with
      | nil =>
        obtain ⟨rfl,rfl⟩ := cons.inj hs
        exact absurd hst (by decide +kernel)
      | cons first between =>
        have hl := congrArg length hs
        simp at hl
    · exact absurd hr (by decide)
    · exact absurd hp (by unfold PendingWork; decide +kernel)
  · intro h
    exact absurd (h.unanswered 1 false (by decide +kernel)) (by decide +kernel)

end OxideSfu.Signaling
