import OxideSfu.DataTrackStores

/-!
# Handles of data-track subscriptions

All subscribers get their handles from one counter, which stops at `u16::MAX`. A subscriber gets a
handle as long as fewer than 65535 subscriptions have been opened before, however few of them are
left.
-/

namespace OxideSfu.Signaling

open FiniteMaps Rooms RoomStore DataTrackSubscriptionStore List

def asksForHandle (key : ParticipantKey) (dataTracks : DataTrackStore)
    (s : DataTrackSubscriptionStore) (update : DataSubscriptionUpdate) : Bool :=
  update.subscribe &&
    (s.subscriptions.lookup ⟨key.room,key.identity,update.trackSid⟩).isNone &&
    decide (dataTracks.publishers key.room update.trackSid).Nonempty

def handlesAskedBy (key : ParticipantKey) (dataTracks : DataTrackStore) (rooms : RoomStore)
    (first : FirstFound) : DataTrackSubscriptionStore → List DataSubscriptionUpdate → ℕ
  | _, [] => 0
  | s, update::updates =>
    (asksForHandle key dataTracks s update).toNat +
      handlesAskedBy key dataTracks rooms first (applyUpdate key dataTracks rooms first s update)
        updates

def handlesAskedIn (s : DataTrackStores) : DataTrackCall → ℕ
  | .update key updates first =>
    handlesAskedBy key s.dataTracks s.rooms first s.subscriptions updates
  | _ => 0

def handlesAsked : DataTrackStores → List DataTrackCall → ℕ
  | _, [] => 0 | s,call::calls => handlesAskedIn s call+handlesAsked (s.apply call) calls

theorem publishers_nonempty_iff {dataTracks : DataTrackStore} {room sid : String} :
    (dataTracks.publishers room sid).Nonempty ↔ ∃q,dataTracks.Publishes ⟨room,q⟩ sid :=
  exists_congr (fun _ => DataTrackStore.mem_publishers)

variable {key : ParticipantKey} {dataTracks : DataTrackStore} {rooms : RoomStore}
  {first : FirstFound} {s t : DataTrackSubscriptionStore} {u : DataSubscriptionUpdate}

theorem asksForHandle_eq_true_iff :
    asksForHandle key dataTracks s u ↔
      u.subscribe ∧
        s.subscriptions.lookup ⟨key.room,key.identity,u.trackSid⟩=none ∧
        ∃q,dataTracks.Publishes ⟨key.room,q⟩ u.trackSid := by
  rw [asksForHandle,Bool.and_eq_true,Bool.and_eq_true,Option.isNone_iff_eq_none,
    decide_eq_true_iff,publishers_nonempty_iff,and_assoc]

/-- The counter goes up exactly when a handle is asked for, until it is full. -/
theorem DataTrackSubscriptionStore.Updated.nextHandle (h : Updated key dataTracks rooms s u t)
    (hf : s.nextHandle≤2^32-1) :
    t.nextHandle=min (s.nextHandle+(asksForHandle key dataTracks s u).toNat) (2^32-1) := by
  cases h with
  | unsubscribed ha =>
    have hask : asksForHandle key dataTracks s u=false := by simp [asksForHandle,ha]
    rw [hask,Bool.toNat_false,add_zero,min_eq_left hf]
  | known ha b hk =>
    have hask : asksForHandle key dataTracks s u=false := by simp [asksForHandle,hk]
    rw [hask,Bool.toNat_false,add_zero,min_eq_left hf]
  | unpublished ha hnew hn =>
    have hask : asksForHandle key dataTracks s u=false := by
      rw [Bool.eq_false_iff]
      exact fun h => hn (asksForHandle_eq_true_iff.mp h).2.2
    rw [hask,Bool.toNat_false,add_zero,min_eq_left hf]
  | exhausted ha hnew hp hh =>
    rw [asksForHandle_eq_true_iff.mpr ⟨ha,hnew,hp⟩]
    rfl
  | opened ha hnew q k ht hsid hh =>
    rw [asksForHandle_eq_true_iff.mpr ⟨ha,hnew,q,k,ht,hsid⟩,Bool.toNat_true]
    dsimp only
    omega

theorem nextHandle_update (key : ParticipantKey) (dataTracks : DataTrackStore) (rooms : RoomStore)
    (first : FirstFound) (us : List DataSubscriptionUpdate) (hf : s.nextHandle≤2^32-1) :
    (s.update key us dataTracks rooms first).nextHandle =
      min (s.nextHandle+handlesAskedBy key dataTracks rooms first s us) (2^32-1) := by
  induction us generalizing s with
  | nil => exact (min_eq_left hf).symm
  | cons u us ih =>
    have hs := (updated_applyUpdate key dataTracks rooms first s u).nextHandle hf
    have hr := ih (s := applyUpdate key dataTracks rooms first s u) (by omega)
    rw [handlesAskedBy]
    change (update _ key us dataTracks rooms first).nextHandle=_
    omega

theorem nextHandle_apply {s : DataTrackStores} (call : DataTrackCall)
    (hf : s.subscriptions.nextHandle≤2^32-1) :
    (s.apply call).subscriptions.nextHandle = min (s.subscriptions.nextHandle+handlesAskedIn s call)
      (2^32-1) := by
  cases call with
  | join | publish | remove => exact (min_eq_left hf).symm
  | unpublish key n =>
    have hs : (s.unpublish key n).subscriptions.nextHandle=s.subscriptions.nextHandle := by
      rw [DataTrackStores.unpublish]
      split <;> rfl
    exact hs.trans (min_eq_left hf).symm
  | update key us first =>
    exact nextHandle_update key s.dataTracks s.rooms first us hf

theorem handlesAsked_append (s : DataTrackStores) (calls l : List DataTrackCall) :
    handlesAsked s (calls++l)=handlesAsked s calls+handlesAsked (s.run calls) l := by
  induction calls generalizing s with
  | nil => exact (zero_add _).symm
  | cons call calls ih =>
    rw [cons_append,handlesAsked,ih,← add_assoc]
    rfl

theorem nextHandle_run (defaults : RoomDefaults) (calls : List DataTrackCall) :
    ((DataTrackStores.initial defaults).run calls).subscriptions.nextHandle =
      min (handlesAsked (.initial defaults) calls) (2^32-1) := by
  induction calls using reverseRecOn with
  | nil => rfl
  | append_singleton calls call ih =>
    rw [DataTrackStores.run_concat,nextHandle_apply call (by omega),ih,handlesAsked_append,
      handlesAsked,handlesAsked,add_zero]
    omega

def GetsHandle (s : DataTrackStores) (key : ParticipantKey) (trackSid : String)
    (options : Option DataTrackSubscriptionOptions) (first : FirstFound) : Prop :=
  ∃subscription,(s.update key [⟨trackSid,true,options⟩] first).subscriptions.subscriptions.lookup
    ⟨key.room,key.identity,trackSid⟩=some subscription

def Subscribed (s : DataTrackStores) (key : ParticipantKey) (trackSid : String) : Prop :=
  (s.subscriptions.subscriptions.lookup ⟨key.room,key.identity,trackSid⟩).isSome

def subscriptionCount (s : DataTrackStores) (key : ParticipantKey) : ℕ :=
  (s.subscriptions.subscriptions.keys.filter (fun entry =>
    entry.room=key.room ∧ entry.subscriber=key.identity)).card

theorem getsHandle_iff_of_nextHandle {s : DataTrackStores} {key : ParticipantKey}
    {sid : String} (hp : ∃q,s.dataTracks.Publishes ⟨key.room,q⟩
      sid) (options : Option DataTrackSubscriptionOptions) (first : FirstFound) :
    GetsHandle s key sid options first ↔ Subscribed s key sid ∨
      s.subscriptions.nextHandle<65535 := by
  rw [Subscribed]
  change (∃b,(applyUpdate key s.dataTracks s.rooms first s.subscriptions
    ⟨sid,true,options⟩).subscriptions.lookup _=some b) ↔ _
  have hu := updated_applyUpdate key s.dataTracks s.rooms first s.subscriptions ⟨sid,true,options⟩
  generalize applyUpdate key s.dataTracks s.rooms first s.subscriptions ⟨sid,true,options⟩=t at hu
  cases hu with
  | unsubscribed ha => cases ha
  | known ha b hk =>
    simp [hk]
  | unpublished ha hnew hn => exact absurd hp hn
  | exhausted ha hnew hp hh =>
    simp [hnew,not_lt.mpr hh]
  | opened ha hnew q k ht hsid hh =>
    simp [hh]

/-- A subscriber that asks for a published track gets a handle exactly when it is subscribed to it
already or fewer than 65535 handles were asked for in the run, by anybody in any room. -/
theorem getsHandle_iff (defaults : RoomDefaults) (calls : List DataTrackCall)
    (key : ParticipantKey) (trackSid : String) (options : Option DataTrackSubscriptionOptions)
    (first : FirstFound)
    (hpublished : ∃publisher,((DataTrackStores.initial defaults).run calls).dataTracks.Publishes
      ⟨key.room,publisher⟩ trackSid) :
    GetsHandle ((DataTrackStores.initial defaults).run calls) key trackSid options first ↔
      Subscribed ((DataTrackStores.initial defaults).run calls) key trackSid ∨
        handlesAsked (.initial defaults) calls < 65535 := by
  rw [getsHandle_iff_of_nextHandle hpublished,nextHandle_run]
  have hcap : min (handlesAsked (.initial defaults) calls) (2^32-1)<65535 ↔
      handlesAsked (.initial defaults) calls<65535 := by omega
  rw [hcap]

def publishTelemetry : DataTrackCall := .publish ⟨"room","alice"⟩ ⟨7,"telemetry"⟩ 5

def subscribeAndLeave : DataTrackCall :=
  .update ⟨"room","bob"⟩ [⟨"DTR_00000000000000050007",true,none⟩,
    ⟨"DTR_00000000000000050007",false,none⟩] (firstInOrder (.sorted String))

/-- One more round takes one more handle and leaves no subscription. -/
theorem apply_subscribeAndLeave {s : DataTrackStores} {n : ℕ}
    (hp : s.dataTracks.Publishes ⟨"room","alice"⟩ "DTR_00000000000000050007")
    (hs : s.subscriptions=⟨.empty,n⟩) (hn : n<65535) :
    s.apply subscribeAndLeave={s with subscriptions := ⟨.empty,n+1⟩} := by
  rw [subscribeAndLeave,DataTrackStores.apply,DataTrackStores.update,hs, update,foldl_cons]
  have hu := updated_applyUpdate ⟨"room","bob"⟩ s.dataTracks s.rooms
    (firstInOrder (.sorted String)) ⟨.empty,n⟩ ⟨"DTR_00000000000000050007",true,none⟩
  generalize applyUpdate ⟨"room","bob"⟩ s.dataTracks s.rooms (firstInOrder (.sorted String))
    ⟨.empty,n⟩ ⟨"DTR_00000000000000050007",true,none⟩=t at hu
  cases hu with
  | unsubscribed ha => cases ha
  | known ha b hk => cases hk
  | unpublished ha hnew hno => exact absurd ⟨"alice",hp⟩ hno
  | exhausted ha hnew hp hh => exact absurd hn (not_lt.mpr hh)
  | opened ha hnew q k ht hsid hh =>
    congr 1
    change (⟨(FiniteMap.insert _ _ _).erase _,n+1⟩ : DataTrackSubscriptionStore)=_
    congr 1
    ext1 entry
    by_cases he : entry=⟨"room","bob","DTR_00000000000000050007"⟩ <;> simp [he]

theorem run_subscribeAndLeave {s : DataTrackStores}
    (hp : s.dataTracks.Publishes ⟨"room","alice"⟩ "DTR_00000000000000050007")
    (hs : s.subscriptions=⟨.empty,0⟩) {n : ℕ} (hn : n≤65535) :
    s.run (replicate n subscribeAndLeave)={s with subscriptions := ⟨.empty,n⟩} := by
  induction n with
  | zero => rw [← hs]; rfl
  | succ n ih =>
    rw [replicate_succ',DataTrackStores.run_concat,ih (by omega)]
    exact apply_subscribeAndLeave hp rfl (by omega)

theorem getsHandle_of_new_subscriber :
    GetsHandle ((DataTrackStores.initial {}).run [publishTelemetry,subscribeAndLeave])
      ⟨"room", "bob"⟩ "DTR_00000000000000050007" none (firstInOrder (.sorted String)) := by
  refine (getsHandle_iff {} [publishTelemetry,subscribeAndLeave] _ _ _ _ ⟨"alice",?_⟩).mpr (.inr ?_)
  · decide +kernel
  · decide +kernel

def comingAndGoing : List DataTrackCall :=
  publishTelemetry::replicate 65535 subscribeAndLeave

/-- Afterwards Bob holds no subscription and the track is still published, and Bob gets no handle
any more. -/
theorem handles_run_out :
    subscriptionCount ((DataTrackStores.initial {}).run comingAndGoing) ⟨"room", "bob"⟩ = 0 ∧
      ((DataTrackStores.initial {}).run comingAndGoing).dataTracks.Publishes ⟨"room", "alice"⟩
        "DTR_00000000000000050007" ∧
      ¬ GetsHandle ((DataTrackStores.initial {}).run comingAndGoing) ⟨"room", "bob"⟩
        "DTR_00000000000000050007" none (firstInOrder (.sorted String)) := by
  have hp : ((DataTrackStores.initial {}).apply publishTelemetry).dataTracks.Publishes
      ⟨"room","alice"⟩ "DTR_00000000000000050007" := by decide +kernel
  have hrun : (DataTrackStores.initial {}).run comingAndGoing =
      {(DataTrackStores.initial {}).apply publishTelemetry with
        subscriptions := ⟨.empty,65535⟩} := by
    rw [comingAndGoing,DataTrackStores.run_cons,run_subscribeAndLeave hp rfl (le_refl _)]
  rw [hrun]
  refine ⟨rfl,hp,?_⟩
  rw [getsHandle_iff_of_nextHandle ⟨"alice",hp⟩]
  rintro (hs | hh)
  · cases hs
  · exact absurd hh (lt_irrefl _)

end OxideSfu.Signaling
