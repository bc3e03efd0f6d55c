import OxideSfu.CriticalSections
import OxideSfu.RoomTables

/-!
# Who holds the lock of a room

A caller of `lock_room` reads the clock, then looks at the table of locks, and starts again when
somebody else has the lock. Of the locks that were granted and not given back no two are good at
once, as long as no room is deleted while its lock is held.
-/

namespace OxideSfu.Rooms

open FiniteMaps StepRuns CriticalSections FiniteMap RoomStore List Option

namespace RoomStore

variable {s t : RoomStore} (room : String)

theorem roomLocks_editParticipant (i : String)
    (edit : ParticipantInfo→Except RoomStoreError ParticipantInfo) :
    (s.editParticipant room i edit).2.roomLocks=s.roomLocks := by
  obtain ⟨e,heq⟩ | ⟨r,p,d,-,-,-,heq⟩ := s.editParticipant_cases room i edit
  · rw [heq]
  · rw [heq]
    rfl

theorem Switches.roomLocks {named : MediaTrackKey→Prop} {subscribed : Bool}
    (h : Switches s t named subscribed) : t.roomLocks=s.roomLocks := by
  rcases h with rfl | ⟨keys,rfl,-⟩ <;> rfl

theorem roomLocks_joinParticipantWithPermission (r : JoinRequest) (now : ℤ) :
    (s.joinParticipantWithPermission r now).2.roomLocks=s.roomLocks := by
  have he : (s.ensureRoom r.room now).2.roomLocks=s.roomLocks := by
    rw [ensureRoom]
    split <;> rfl
  simp only [joinParticipantWithPermission]
  split_ifs
  · exact he
  · exact he

theorem roomLocks_updateParticipant (i : String) (u : ParticipantUpdate) :
    (s.updateParticipant room i u).2.roomLocks=s.roomLocks := by
  obtain ⟨e,heq⟩ | ⟨r,p,-,-,heq⟩ := s.updateParticipant_cases room i u
  · rw [heq]
  · rw [heq]
    split_ifs <;> rfl

theorem lookup_roomLocks_deleteRoom (name : String) :
    (s.deleteRoom room).2.roomLocks.lookup name =
      if name=room ∧ (s.rooms.lookup room).isSome then none else s.roomLocks.lookup name := by
  cases hr : s.rooms.lookup room with
  | none => simp [deleteRoom,hr]
  | some r =>
    have hl : (s.deleteRoom room).2.roomLocks=s.roomLocks.erase room := by
      rw [deleteRoom,hr]
      rfl
    rw [hl]
    simp

theorem roomLocks_apply {op : RoomOperation} (h : ∀room,op ≠ .deleteRoom room) :
    (s.apply op).roomLocks=s.roomLocks := by
  cases op with
  | createRoom r now =>
    rw [apply,createRoom]
    split <;> rfl
  | storeRoomWithInternal room now =>
    rw [apply,storeRoomWithInternal]
    split_ifs
    · rfl
    · split <;> rfl
  | updateRoomMetadata room m =>
    rw [apply,updateRoomMetadata]
    split <;> rfl
  | deleteRoom room => exact absurd rfl (h room)
  | cleanupExpiredEmptyRooms ms now => rfl
  | joinParticipantWithPermission r now =>
    exact roomLocks_joinParticipantWithPermission r now
  | removeParticipantWithReason room i re now =>
    obtain ⟨e,heq⟩ | ⟨rc,p,-,-,heq⟩ := s.removeParticipantWithReason_cases room i re now
    · rw [apply,heq]
    · rw [apply,heq]
      rfl
  | moveParticipant room i d now =>
    obtain ⟨e,heq⟩ | ⟨c,p,rc,-,-,-,-,heq⟩ := s.moveParticipant_cases room i d now
    · rw [apply,heq]
    · rw [apply,heq]
      rfl
  | getParticipant room i => rfl
  | removeParticipantTrack room i sid =>
    obtain ⟨e,heq⟩ | ⟨rc,p,ed,-,-,-,heq⟩ := s.removeParticipantTrack_cases room i sid
    · rw [apply,heq]
    · rw [apply,heq]
      rfl
  | updateParticipant room i u =>
    exact roomLocks_updateParticipant room i u
  | setMediaTrackSubscribed => exact (s.switches_setMediaTrackSubscribed ..).roomLocks
  | setMediaTrackSubscribedByTrackSid =>
    exact (s.switches_setMediaTrackSubscribedByTrackSid ..).roomLocks
  | setMediaTrackSubscribedByPublisherSid =>
    exact (s.switches_setMediaTrackSubscribedByPublisherSid ..).roomLocks
  | _ => exact roomLocks_editParticipant ..

end RoomStore

/-- A lock that was granted, with the time when it ends. -/
structure LockGrant where
  (room token : String)
  expiresAt : ℤ

/-- The store, the clock of the callers, and the locks that were granted to them and not
released since, expired or not. -/
structure LockingStore where
  inner : RoomStoreInner
  clock : ℤ
  granted : List LockGrant

inductive LockCall
  | lockRoom (room : String) (lockIntervalMs : ℕ)
  | unlockRoom (room token : String)
  | operation (operation : RoomStore.RoomOperation)
  | elapse (ms : ℕ)

/-- Where a caller of `lock_room` can be: before the clock, or before the table with the time it
has read. -/
inductive LockPoint
  | beforeClock (room : String) (lockIntervalMs : ℕ)
  | beforeTable (room : String) (lockIntervalMs : ℕ) (now : ℤ)

namespace LockingStore

def start (defaults : RoomDefaults) (clock : ℤ) : LockingStore :=
  ⟨.withDefaults defaults,clock,[]⟩

def holders (s : LockingStore) (room : String) : List LockGrant :=
  s.granted.filter (fun grant => grant.room=room ∧ s.clock<grant.expiresAt)

def tryLock (s : LockingStore) (room : String) (lockIntervalMs : ℕ) (now : ℤ) :
    LockingStore × Option LockPoint :=
  match s.inner.tryLockRoom room lockIntervalMs now with
  | (some token,inner) =>
    let grant := ⟨room,token,(s.inner.nextLock lockIntervalMs now).expiresAt⟩
    ({s with inner,granted := grant::s.granted},none)
  | (none,_) => (s,some (.beforeClock room lockIntervalMs))

/-- A release by token gives the locks of this token back, whoever got them. -/
def unlock (s : LockingStore) (room token : String) : LockingStore :=
  match s.inner.unlockRoom room token with
  | (.error _,_) => s
  | (.ok _,inner) =>
    {s with
      inner
      granted := s.granted.filter (fun grant => ¬(grant.room=room ∧ grant.token=token))}

def operate (s : LockingStore) (operation : RoomStore.RoomOperation) : LockingStore :=
  {s with inner := s.inner.apply (.operation operation)}

end LockingStore

def lockCallers : Machine LockingStore LockCall LockPoint where
  enter
    | .lockRoom room lockIntervalMs, s =>
      match RoomStoreInner.lockRoomRefusal room lockIntervalMs with
      | some _ => (s,none) | none => (s,some (.beforeClock room lockIntervalMs))
    | .unlockRoom room token, s => (s.unlock room token,none)
    | .operation operation, s => (s.operate operation,none)
    | .elapse ms, s => ({s with clock := s.clock+ms},none)
  resume
    | .beforeClock room lockIntervalMs, s => (s,some (.beforeTable room lockIntervalMs s.clock))
    | .beforeTable room lockIntervalMs now, s => s.tryLock room lockIntervalMs now

def lockingAfter (defaults : RoomDefaults) (clock : ℤ) (events : List (Event LockCall)) :
    Threads LockingStore LockPoint :=
  lockCallers.run (.idle (.start defaults clock)) events

variable {grant : LockGrant}

namespace LockingStore

variable {s : LockingStore}

/-- An unexpired lock that was granted is the one in the table, and there is one of them for a
room at most. -/
structure Exclusive (s : LockingStore) : Prop where
  inTable : ∀grant∈s.granted,s.clock<grant.expiresAt →
    s.inner.store.roomLocks.lookup grant.room=some ⟨grant.token,grant.expiresAt⟩
  atMostOne : ∀room,(s.holders room).length≤1

def PointInTime : LockPoint → LockingStore→Prop
  | .beforeClock _ _, _ => True | .beforeTable _ _ now,s => now ≤ s.clock

theorem mem_holders {room : String} :
    grant∈s.holders room ↔ grant∈s.granted ∧ grant.room=room ∧ s.clock<grant.expiresAt := by
  simp [holders]

/-- Nobody holds a lock that a caller finds available at a time which is over. -/
theorem Exclusive.holders_eq_nil (h : s.Exclusive) {room : String} {now : ℤ} (hnow : now ≤ s.clock)
    (ha : s.inner.lockAvailable room now) : s.holders room=[] := by
  refine eq_nil_iff_forall_not_mem.mpr ?_
  intro grant hg
  obtain ⟨hmem,rfl,hu⟩ := mem_holders.mp hg
  rw [RoomStoreInner.lockAvailable,h.inTable grant hmem hu] at ha
  have he : grant.expiresAt≤now := of_decide_eq_true ha
  omega

/-- What can be left of a state: fewer grants, a later clock, and the table as far as it has
locks that are still granted. -/
theorem Exclusive.of_sublist (h : s.Exclusive) {t : LockingStore}
    (hgr : t.granted.Sublist s.granted) (hc : s.clock≤t.clock)
    (ht : ∀grant∈t.granted,t.clock<grant.expiresAt →
      s.inner.store.roomLocks.lookup grant.room=some ⟨grant.token,grant.expiresAt⟩ →
      t.inner.store.roomLocks.lookup grant.room=some ⟨grant.token,grant.expiresAt⟩) :
    t.Exclusive where
  inTable := by
    intro grant hg hu
    refine ht grant hg hu ?_
    exact h.inTable grant (hgr.mem hg) (by omega)
  atMostOne := by
    intro room
    have hsub : (t.holders room).Sublist (s.holders room) := by
      have hl : (t.holders room).Sublist
          (t.granted.filter (fun grant => grant.room=room ∧ s.clock<grant.expiresAt)) := by
        refine monotone_filter_right _ ?_
        intro grant hg
        have hu := of_decide_eq_true hg
        exact decide_eq_true ⟨hu.1,by omega⟩
      exact hl.trans (hgr.filter _)
    exact hsub.length_le.trans (h.atMostOne room)

theorem Exclusive.start (defaults : RoomDefaults) (clock : ℤ) :
    (LockingStore.start defaults clock).Exclusive where
  inTable := by
    intro grant hg
    cases hg
  atMostOne := fun _ => Nat.zero_le 1

theorem tryLock_cases (room : String) (ms : ℕ) (now : ℤ) :
    s.inner.lockAvailable room now=false ∧ s.tryLock room ms now=(s,some (.beforeClock room ms)) ∨
      s.inner.lockAvailable room now ∧
        ∃lock : RoomLockState,(s.tryLock room ms now).2=none ∧
          (s.tryLock room ms now).1.clock=s.clock ∧
          (s.tryLock room ms now).1.granted=⟨room,lock.token,lock.expiresAt⟩::s.granted ∧
          (s.tryLock room ms now).1.inner.store.roomLocks =
            s.inner.store.roomLocks.insert room lock := by
  cases ha : s.inner.lockAvailable room now with
  | false => exact .inl ⟨rfl,by simp [tryLock,RoomStoreInner.tryLockRoom,ha]⟩
  | true =>
    have htry : s.inner.tryLockRoom room ms now =
        (some (s.inner.nextLock ms now).token,{s.inner with
          nextRoomLockTokenId := saturatingSucc 64 s.inner.nextRoomLockTokenId
          store := {s.inner.store with
            roomLocks := s.inner.store.roomLocks.insert room (s.inner.nextLock ms now)}}) := by
      rw [RoomStoreInner.tryLockRoom,if_pos ha]
    refine .inr ⟨rfl,s.inner.nextLock ms now,?_⟩
    rw [tryLock,htry]
    exact ⟨rfl,rfl,rfl,rfl⟩

/-- A lock is granted only when nobody holds it, so it is the only one afterwards. -/
theorem Exclusive.tryLock (h : s.Exclusive) (room : String) (ms : ℕ) {now : ℤ}
    (hnow : now ≤ s.clock) : (s.tryLock room ms now).1.Exclusive := by
  obtain ⟨-,heq⟩ | ⟨ha,lock,-,hc,hgr,hl⟩ := s.tryLock_cases room ms now
  · rw [heq]
    exact h
  · have hf := h.holders_eq_nil hnow ha
    refine ⟨?_,?_⟩
    · intro grant hg hu
      rw [hgr,mem_cons] at hg
      rw [hl]
      rcases hg with rfl | hg
      · simp
      · rw [hc] at hu
        have ho : grant.room≠room := by
          intro hr
          have hh : grant∈s.holders room := mem_holders.mpr ⟨hg,hr,hu⟩
          rw [hf] at hh
          cases hh
        rw [lookup_insert,if_neg ho]
        exact h.inTable grant hg hu
    · intro name
      rw [holders,hgr,hc,filter_cons]
      split_ifs with hnew
      · obtain rfl : room=name := (of_decide_eq_true hnew).1
        change (s.holders room).length+1≤1
        rw [hf]
        rfl
      · exact h.atMostOne name

variable {inner : RoomStoreInner}

theorem unlockRoom_of_not_holdsToken {room token : String}
    (h : inner.holdsToken room token=false) : (inner.unlockRoom room token).2=inner := by
  rw [RoomStoreInner.unlockRoom]
  split_ifs
  · rfl
  · rfl
  · rename_i hh
    rw [h] at hh
    cases hh
  · rfl

theorem lookup_roomLocks_unlockRoom {room token name : String} {lock : RoomLockState}
    (hl : inner.store.roomLocks.lookup name=some lock) (ho : ¬(name=room ∧ lock.token=token)) :
    (inner.unlockRoom room token).2.store.roomLocks.lookup name=some lock := by
  by_cases hh : inner.holdsToken room token
  · have hn : name≠room := by
      rintro rfl
      rw [RoomStoreInner.holdsToken,hl] at hh
      exact ho ⟨rfl,of_decide_eq_true hh⟩
    rw [RoomStoreInner.unlockRoom]
    split_ifs
    · exact hl
    · exact hl
    · rw [lookup_erase,if_neg hn]
      exact hl
  · rw [unlockRoom_of_not_holdsToken (Bool.eq_false_iff.mpr hh)]
    exact hl

theorem Exclusive.unlock (h : s.Exclusive) (room token : String) :
    (s.unlock room token).Exclusive := by
  rw [LockingStore.unlock]
  split
  · exact h
  · rename_i r inner heq
    refine h.of_sublist filter_sublist le_rfl ?_
    intro grant hg _ hl
    have ho := of_decide_eq_true (mem_filter.mp hg).2
    have hk := lookup_roomLocks_unlockRoom hl ho
    rw [heq] at hk
    exact hk

theorem Exclusive.operate (h : s.Exclusive) {op : RoomStore.RoomOperation}
    (hd : ∀room,op = .deleteRoom room →
      s.inner.store.rooms.lookup room=none ∨ s.inner.lockAvailable room s.clock) :
    (s.operate op).Exclusive := by
  refine h.of_sublist (List.Sublist.refl _) le_rfl ?_
  intro grant hg hu hl
  change (s.inner.store.apply op).roomLocks.lookup grant.room=_
  by_cases hop : ∀room,op ≠ .deleteRoom room
  · rw [roomLocks_apply hop]
    exact hl
  · obtain ⟨room,rfl⟩ := not_forall_not.mp hop
    rw [apply,lookup_roomLocks_deleteRoom,if_neg,hl]
    rintro ⟨rfl,hr⟩
    obtain hn | ha := hd grant.room rfl
    · rw [hn] at hr
      cases hr
    · have hf := h.holders_eq_nil le_rfl ha
      have hh : grant∈s.holders grant.room := mem_holders.mpr ⟨hg,rfl,hu⟩
      rw [hf] at hh
      cases hh

end LockingStore

open LockingStore

/-- A room that is deleted is not locked, or its lock has expired. -/
def deletesUnlocked (c : Threads LockingStore LockPoint) : Event LockCall→Bool
  | .enter _ (.operation (.deleteRoom room)) =>
    (c.shared.inner.store.rooms.lookup room).isNone ||
      c.shared.inner.lockAvailable room c.shared.clock
  | _ => true

variable {x : LockPoint}

theorem pointInTime_of_le {s t : LockingStore} (h : PointInTime x s) (hc : s.clock≤t.clock) :
    PointInTime x t := by
  cases x with
  | beforeClock room ms => trivial
  | beforeTable room ms now => exact le_trans h hc

variable {c : Threads LockingStore LockPoint} {event : Event LockCall}
  {result : LockingStore × Option LockPoint}

theorem clock_le_of_ran (hran : lockCallers.ran c event=some result) :
    c.shared.clock≤result.1.clock := by
  obtain ⟨call,-,rfl⟩ | ⟨point,-,-,rfl⟩ := lockCallers.ran_eq_some hran
  · cases call with
    | lockRoom room lockIntervalMs =>
      simp only [lockCallers]
      split <;> rfl
    | unlockRoom room token =>
      simp only [lockCallers,unlock]
      split <;> rfl
    | operation operation => rfl
    | elapse ms => exact Int.le_add_of_nonneg_right (Int.natCast_nonneg ms)
  · cases point with
    | beforeClock room lockIntervalMs => rfl
    | beforeTable room lockIntervalMs now =>
      obtain ⟨-,heq⟩ | ⟨-,lock,-,hc,-⟩ := c.shared.tryLock_cases room lockIntervalMs now
      · exact (congrArg (·.1.clock) heq).ge
      · exact hc.ge

theorem pointInTime_of_ran (hran : lockCallers.ran c event=some result) (hp : result.2=some x) :
    PointInTime x result.1 := by
  obtain ⟨call,-,rfl⟩ | ⟨e,-,-,rfl⟩ := lockCallers.ran_eq_some hran
  · cases call with
    | lockRoom room ms =>
      simp only [lockCallers] at hp
      split at hp
      · cases hp
      · cases hp
        trivial
    | unlockRoom | operation | elapse => cases hp
  · cases e with
    | beforeClock room ms =>
      cases hp
      exact le_refl c.shared.clock
    | beforeTable room ms now =>
      obtain ⟨-,heq⟩ | ⟨-,lock,hn,-⟩ := c.shared.tryLock_cases room ms now
      · obtain rfl := some.inj ((congrArg Prod.snd heq).symm.trans hp)
        trivial
      · cases hn.symm.trans hp

theorem exclusive_of_ran (h : Annotated Exclusive PointInTime c)
    (hd : deletesUnlocked c event) (hran : lockCallers.ran c event=some result) :
    result.1.Exclusive := by
  obtain ⟨call,he,rfl⟩ | ⟨x,-,hp,rfl⟩ := lockCallers.ran_eq_some hran
  · cases call with
    | lockRoom room lockIntervalMs =>
      simp only [lockCallers]
      split <;> exact h.1
    | unlockRoom room token => exact h.1.unlock room token
    | operation op =>
      refine h.1.operate ?_
      rintro room rfl
      rw [he,deletesUnlocked,Bool.or_eq_true,isNone_iff_eq_none] at hd
      exact hd
    | elapse ms =>
      refine h.1.of_sublist (List.Sublist.refl _) ?_ (fun grant _ _ hl => hl)
      exact Int.le_add_of_nonneg_right (Int.natCast_nonneg ms)
  · cases x with
    | beforeClock room lockIntervalMs => exact h.1
    | beforeTable room lockIntervalMs now =>
      exact h.1.tryLock room lockIntervalMs (h.2 event.thread _ hp)

theorem exclusive_lockingAfter (defaults : RoomDefaults) (clock : ℤ)
    {es : List (Event LockCall)}
    (hd : AtEveryStep (fun ea e =>
      deletesUnlocked (lockingAfter defaults clock ea) e) es) :
    Annotated Exclusive PointInTime (lockingAfter defaults clock es) := by
  have hs : Annotated Exclusive PointInTime
    (.idle (.start defaults clock) : Threads LockingStore LockPoint) := by
    refine ⟨.start defaults clock,?_⟩
    intro t x hp
    cases hp
  refine @Annotated.run _ _ _ lockCallers _ _ _ es hs (fun c e => deletesUnlocked c e) hd ?_
  intro c e r hc hde hran
  refine ⟨exclusive_of_ran hc hde hran,fun x => pointInTime_of_ran hran,?_⟩
  intro o x _ hp
  exact pointInTime_of_le (hc.2 o x hp) (clock_le_of_ran hran)

/-- A section that adds a lock to the granted ones found it available. -/
theorem holders_eq_nil_of_granted (h : Annotated Exclusive PointInTime c)
    (hg : (lockCallers.step c event).shared.granted=grant::c.shared.granted) :
    c.shared.holders grant.room=[] := by
  have hl : c.shared.granted.length<(lockCallers.step c event).shared.granted.length := by
    rw [hg]
    exact Nat.lt_succ_self _
  obtain hs | ⟨r,hran,hs⟩ := lockCallers.step_cases c event
  · rw [hs] at hl
    exact absurd hl (lt_irrefl _)
  · rw [hs,Threads.moveTo_shared] at hg hl
    obtain ⟨call,-,rfl⟩ | ⟨x,-,hp,rfl⟩ := lockCallers.ran_eq_some hran
    · refine absurd hl (not_lt.mpr (List.Sublist.length_le ?_))
      cases call with
      | lockRoom room lockIntervalMs =>
        simp only [lockCallers]
        split <;> exact List.Sublist.refl _
      | unlockRoom room token =>
        simp only [lockCallers,unlock]
        split
        · exact List.Sublist.refl _
        · exact filter_sublist
      | operation op => exact List.Sublist.refl _
      | elapse ms => exact List.Sublist.refl _
    · cases x with
      | beforeClock room lockIntervalMs => exact absurd hl (lt_irrefl _)
      | beforeTable room lockIntervalMs now =>
        obtain ⟨-,heq⟩ | ⟨ha,lock,-,-,hgr,-⟩ := c.shared.tryLock_cases room lockIntervalMs now
        · simp only [lockCallers,heq] at hl
          exact absurd hl (lt_irrefl _)
        · obtain ⟨rfl,-⟩ := cons.inj (hgr.symm.trans hg)
          exact h.1.holders_eq_nil (h.2 event.thread _ hp) ha

/-- The locks exclude each other: there are never two holders of one room, nothing is granted
while there is a holder, and a release by another token than the one of the holder has no
effect, nor has one by another token than the one in the table when there is no holder. -/
structure LocksExclude (c : Threads LockingStore LockPoint) : Prop where
  atMostOne : ∀room,(c.shared.holders room).length≤1
  grantedWhenFree : ∀event grant,
    (lockCallers.step c event).shared.granted=grant::c.shared.granted →
      c.shared.holders grant.room=[]
  holderKeeps : ∀room token,∀grant∈c.shared.holders room,grant.token≠token →
    (c.shared.inner.unlockRoom room token).2=c.shared.inner
  otherTokens : ∀room token,c.shared.inner.holdsToken room token=false →
    (c.shared.inner.unlockRoom room token).2=c.shared.inner

/-- In every schedule in which no room is deleted while its lock is good, the locks exclude each
other. -/
theorem locksExclude_of_deletesUnlocked (defaults : RoomDefaults) (clock : ℤ)
    (events : List (Event LockCall))
    (hdeletes : AtEveryStep (fun earlier event =>
      deletesUnlocked (lockingAfter defaults clock earlier) event) events) :
    LocksExclude (lockingAfter defaults clock events) := by
  have h := exclusive_lockingAfter defaults clock hdeletes
  refine ⟨h.1.atMostOne,fun event grant => holders_eq_nil_of_granted h,?_,?_⟩
  · intro room token grant hh ht
    obtain ⟨hg,rfl,hu⟩ := mem_holders.mp hh
    refine unlockRoom_of_not_holdsToken ?_
    rw [RoomStoreInner.holdsToken,h.1.inTable grant hg hu]
    exact decide_eq_false ht
  · intro room token ho
    exact unlockRoom_of_not_holdsToken ho

def lockAtOnce (thread : ℕ) (room : String) (lockIntervalMs : ℕ) : List (Event LockCall) :=
  [.enter thread (.lockRoom room lockIntervalMs),.resume thread,.resume thread]

def hallLockedTwice : List (Event LockCall) :=
  .enter 0 (.operation (.createRoom ⟨"hall",0,0,0,"",[]⟩ 0))::lockAtOnce 1 "hall" 1000 ++
    [.enter 0 (.elapse 1000),.enter 0 (.operation (.deleteRoom "hall"))] ++
    lockAtOnce 2 "hall" 1000

theorem locksExclude_hallLockedTwice :
    (lockingAfter {} 0 hallLockedTwice).shared.granted.length = 2 ∧
      LocksExclude (lockingAfter {} 0 hallLockedTwice) :=
  ⟨by decide +kernel,locksExclude_of_deletesUnlocked {} 0 hallLockedTwice (by decide +kernel)⟩

def hallDeletedUnderLock : List (Event LockCall) :=
  .enter 0 (.operation (.createRoom ⟨"hall",0,0,0,"",[]⟩ 0))::lockAtOnce 1 "hall" 1000 ++
    [.enter 0 (.operation (.deleteRoom "hall"))]++lockAtOnce 2 "hall" 1000

theorem two_holders_of_hallDeletedUnderLock :
    ((lockingAfter {} 0 hallDeletedUnderLock).shared.holders "hall").map LockGrant.token =
        ["rl_0000000000000002", "rl_0000000000000001"] ∧
      ¬ LocksExclude (lockingAfter {} 0 hallDeletedUnderLock) := by
  have hh : ((lockingAfter {} 0 hallDeletedUnderLock).shared.holders "hall").map
      LockGrant.token=["rl_0000000000000002","rl_0000000000000001"] := by
    decide +kernel
  refine ⟨hh,?_⟩
  intro h
  have hl := h.atMostOne "hall"
  exact absurd hl (by decide)

end OxideSfu.Rooms
