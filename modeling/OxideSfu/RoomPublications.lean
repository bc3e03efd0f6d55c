import OxideSfu.RoomParticipants
import OxideSfu.SubscriptionLimits

/-!
# Published tracks in the room store

Who publishes what, and which tracks are switched off for whom, followed through the calls that
requests about media make.
-/

namespace OxideSfu.Rooms

open FiniteMaps RoomStore Signaling Option

variable {s t : RoomStore} {room i trackSid : String}

def publishes (s : RoomStore) (room publisher trackSid : String) : Bool :=
  (s.getParticipant room publisher).toOption.any (fun participant =>
    participant.tracks.any (·.sid=trackSid))

theorem publishes_congr (hr : t.rooms=s.rooms) (room q sid : String) :
    publishes t room q sid=publishes s room q sid := by
  rw [publishes,publishes,toOption_getParticipant,toOption_getParticipant,hr]

variable {r : RoomRecord} {p : ParticipantInfo}

theorem publishes_of_mem {k : TrackInfo} (hr : s.rooms.lookup room=some r)
    (hp : r.participants.lookup i=some p) (ht : k∈p.tracks) : publishes s room i k.sid := by
  rw [publishes,toOption_getParticipant,hr,bind_some,hp,any_some,List.any_eq_true]
  exact ⟨k,ht,by simp⟩

theorem publishes_replaced (hre : s.rooms.lookup room=some r) (i : String)
    (d : ParticipantInfo) (ht : t.rooms=(s.setRoom room {r with
      participants := r.participants.insert i d}).rooms)
    (o q trackSid : String) :
    publishes t o q trackSid =
      if o=room ∧ q=i then
        d.tracks.any (·.sid=trackSid)
      else publishes s o q trackSid := by
  rw [publishes,publishes,toOption_getParticipant,toOption_getParticipant,ht,RoomStore.setRoom,
    FiniteMap.lookup_insert]
  by_cases hr : o=room
  · subst hr
    rw [if_pos rfl,bind_some,FiniteMap.lookup_insert,hre,bind_some]
    by_cases hp : q=i
    · rw [if_pos hp,if_pos ⟨rfl,hp⟩,any_some]
    · rw [if_neg hp,if_neg (fun h => hp h.2)]
  · rw [if_neg hr,if_neg (fun h => hr h.1)]

variable (s)

theorem publishes_editParticipant (room i : String)
    {edit : ParticipantInfo→Except RoomStoreError ParticipantInfo} (hed : Unseen edit)
    (o q trackSid : String) :
    publishes (s.editParticipant room i edit).2 o q trackSid=publishes s o q trackSid := by
  rcases s.editParticipant_cases room i edit with ⟨e,heq⟩ | ⟨r,p,edited,hr,hp,he,heq⟩
  · rw [heq]
  · rw [heq,publishes_replaced hr i edited rfl]
    split_ifs with hsame
    · obtain ⟨rfl,rfl⟩ := hsame
      have hs := congrArg Prod.snd (hed p edited he).2
      have hany : ∀ks : List TrackInfo,ks.any (·.sid=trackSid) =
          (ks.map (fun k => (k.sid,k.type))).any (fun shown =>
            shown.1=trackSid) := by
        intro ks
        rw [List.any_map]
        rfl
      rw [publishes,toOption_getParticipant,hr,bind_some,hp,any_some,hany,hany]
      exact congrArg (fun ks => List.any ks _) hs
    · rfl

theorem mediaUnsubscribed_editParticipant (room i : String)
    (edit : ParticipantInfo→Except RoomStoreError ParticipantInfo) :
    (s.editParticipant room i edit).2.mediaUnsubscribed=s.mediaUnsubscribed := by
  rcases s.editParticipant_cases room i edit with ⟨e,heq⟩ | ⟨r,p,edited,hr,hp,he,heq⟩
  · rw [heq]
  · rw [heq]
    rfl

theorem publishes_addParticipantTrack_of_ne (room i : String) (k : TrackInfo)
    {o q : String} (hne : ¬(room=o ∧ i=q ∧ k.sid=trackSid)) :
    publishes (s.addParticipantTrack room i k).2 o q trackSid=publishes s o q trackSid := by
  rcases s.editParticipant_cases room i (fun p =>
    .ok (newVersion {p with tracks := p.tracks++[k]})) with
    ⟨error,heq⟩ | ⟨r,p,edited,hr,hp,he,heq⟩
  · rw [addParticipantTrack,heq]
  · rw [addParticipantTrack,heq,publishes_replaced hr i edited rfl]
    split_ifs with hs
    · obtain ⟨rfl,rfl⟩ := hs
      have hsid : ¬k.sid=trackSid := fun hsid => hne ⟨rfl,rfl,hsid⟩
      have ht : edited.tracks=p.tracks++[k] := by
        rw [← Except.ok.inj he]
        rfl
      rw [publishes,toOption_getParticipant,hr,bind_some,hp,ht]
      simp [hsid]
    · rfl

variable {s}

theorem publishes_removed {d : ParticipantInfo} (hr : s.rooms.lookup room=some r)
    (hp : r.participants.lookup i=some p)
    (he : d=newVersion {p with
      tracks := p.tracks.filter (·.sid≠trackSid)})
    (ht : t.rooms=(s.setRoom room {r with participants := r.participants.insert i d}).rooms)
    (o q sid : String) :
    publishes t o q sid=(publishes s o q sid && !(o=room ∧ q=i ∧ sid=trackSid)) := by
  rw [publishes_replaced hr i d ht]
  split_ifs with hs
  · obtain ⟨rfl,rfl⟩ := hs
    rw [publishes,toOption_getParticipant,hr,bind_some,hp,he]
    change (p.tracks.filter (·.sid≠trackSid)).any _=_
    rw [List.any_filter]
    by_cases hsid : sid=trackSid
    · subst hsid
      simp
    · have hk : (fun k : TrackInfo => decide (k.sid≠trackSid) && decide (k.sid=sid))=fun k =>
        decide (k.sid=sid) := by
        funext k
        by_cases htr : k.sid=sid
        · simp [htr,hsid]
        · simp [htr]
      rw [hk]
      simp [hsid]
  · have hnot : ¬(o=room ∧ q=i ∧ sid=trackSid) :=
      fun h => hs ⟨h.1,h.2.1⟩
    simp [hnot]

end OxideSfu.Rooms
