import Mathlib.Algebra.Order.BigOperators.Group.List
import OxideSfu.SessionOutcomes

/-!
# Relayed joins against local joins

A join for a room of another node travels as an intent, which repeats the grants of the token but
not its list of sources. What it leaves on the owner's node is compared with what a local join would
have left.
-/

namespace OxideSfu.Signaling

open Rooms RoomStore SessionState PermissionStores Option List

/-- A list of sources never covers every text. -/
theorem exists_source_not_listed (names : List String) :
    ∃c,toAsciiLowercase c∉names.map toAsciiLowercase := by
  have hb : ∀name∈names,name.toList.length≤(names.map (·.toList.length)).sum :=
    fun name hn =>
      single_le_sum (fun _ _ => Nat.zero_le _) _ (mem_map.mpr ⟨name,hn,rfl⟩)
  generalize (names.map (·.toList.length)).sum=bound at hb
  -- a text longer than all the names together
  refine ⟨String.ofList (replicate (bound+1) 'x'),fun hmem => ?_⟩
  obtain ⟨name,hn,hs⟩ := mem_map.mp hmem
  have hlen : name.toList.length=bound+1 := by
    have hl := congrArg (·.toList.length) hs
    simpa [toAsciiLowercase] using hl
  have hle := hb name hn
  omega

/-- Two states give a participant the same permission, and the stores the same answers. -/
structure SameGrants (key : ParticipantKey) (s t : SessionState) : Prop where
  permission : (participantOf t key).map (·.permission)=(participantOf s key).map (·.permission)
  media : t.permissions.publish.canPublishMedia key=s.permissions.publish.canPublishMedia key
  data : t.permissions.publish.canPublishData key=s.permissions.publish.canPublishData key
  sources : ∀source,t.permissions.publish.canPublishSource key source =
    s.permissions.publish.canPublishSource key source
  subscribe : t.permissions.subscribe.canSubscribe key=s.permissions.subscribe.canSubscribe key

def rightsWithoutSources (video : VideoGrants) : Rights :=
  {video.rights with publishSources := []}

def permissionWithoutSources (video : VideoGrants) : ParticipantPermission :=
  {video.permission with canPublishSources := []}

theorem canPublishSource_agrees_iff (ps b : PermissionStores) (key : ParticipantKey)
    (video : VideoGrants) :
    (∀c,(b.grant key (rightsWithoutSources video)).publish.canPublishSource key
        c=(ps.grant key video.rights).publish.canPublishSource key c) ↔
      video.canPublish=false ∨ video.canPublishSources=[] := by
  have ha : ∀c,((b.grant key (rightsWithoutSources
      video)).publish.canPublishSource key c =
        (ps.grant key video.rights).publish.canPublishSource key c) ↔
      (video.canPublish → video.canPublishSources=[] ∨
        toAsciiLowercase c∈video.canPublishSources.map toAsciiLowercase) := by
    intro c
    rw [Bool.eq_iff_iff,canPublishSource_grant,canPublishSource_grant]
    simp [rightsWithoutSources,VideoGrants.rights]
  constructor
  · intro hag
    cases hp : video.canPublish with
    | false => exact .inl rfl
    | true =>
      obtain ⟨c,hs⟩ := exists_source_not_listed video.canPublishSources
      exact .inr (((ha c).mp (hag c) hp).resolve_right hs)
  · rintro (hp | he) c
    · exact (ha c).mpr (fun h => absurd (hp.symm.trans h) (by simp))
    · exact (ha c).mpr (fun _ => .inl he)

theorem permissionWithoutSources_eq_iff (video : VideoGrants) :
    permissionWithoutSources video=video.permission ↔
      ∀name∈video.canPublishSources,sourceNumber name=none := by
  rw [← filterMap_eq_nil_iff]
  constructor
  · intro hs
    exact (congrArg ParticipantPermission.canPublishSources hs).symm
  · intro hn
    rw [permissionWithoutSources,VideoGrants.permission,hn]

variable {s t u : SessionState} {auth : AuthContext} {r : SignalJoinRequest} {now : ℤ}

theorem relayed_of_accepted (hk : Keyed s.rooms) (ha : (s.executeJoin (.ofJoin auth r) now).1) :
    (participantOf (s.executeJoin (.ofJoin auth r) now).2 auth.key).map (·.permission) =
        some (some (permissionWithoutSources auth.claims.video)) ∧
      ∃b : PermissionStores,
        (s.executeJoin (.ofJoin auth r) now).2.permissions =
          b.grant auth.key (rightsWithoutSources auth.claims.video) := by
  obtain ⟨-,hr⟩ | ⟨j,ps,he,ho⟩ := effect_executeJoin hk (.ofJoin auth r) now
  · exact absurd (ha.symm.trans hr) (by simp)
  obtain ⟨hr,-⟩ | ⟨-,hpe,hp⟩ := ho
  · exact absurd (ha.symm.trans hr) (by simp)
  have hs : participantOf (s.executeJoin (.ofJoin auth r) now).2 auth.key=some j := he.self
  refine ⟨?_,_,he.permissions.trans hp⟩
  rw [hs,map_some,hpe]
  rfl

theorem sameGrants_iff {key : ParticipantKey} {video : VideoGrants} {ps b : PermissionStores}
    {pm : Option ParticipantPermission} (ht : (participantOf t key).map (·.permission)=some pm)
    (hts : t.permissions=ps.grant key video.rights)
    (hu : (participantOf u key).map (·.permission)=some (some (permissionWithoutSources video)))
    (hus : u.permissions=b.grant key (rightsWithoutSources video)) :
    SameGrants key t u ↔ pm=some (permissionWithoutSources video) ∧
      (video.canPublish=false ∨ video.canPublishSources=[]) := by
  rw [← canPublishSource_agrees_iff ps b key video,← hts,← hus]
  constructor
  · intro h
    refine ⟨?_,h.sources⟩
    have hsame := h.permission
    rw [hu,ht] at hsame
    exact (some.inj hsame).symm
  · rintro ⟨hp,hs⟩
    refine ⟨by rw [hu,ht,hp],?_,?_,hs,?_⟩
    · rw [hus,hts,canPublishMedia_grant,canPublishMedia_grant,if_pos rfl,if_pos rfl]
      rfl
    · rw [hus,hts,canPublishData_grant,canPublishData_grant,if_pos rfl,if_pos rfl]
      rfl
    · rw [hus,hts,canSubscribe_grant,canSubscribe_grant,if_pos rfl,if_pos rfl]
      rfl

/-- The intent loses nothing of the token: no source has a number when the permission is stored
anew, the stored permission is the token's without sources when a session is resumed, and no
restriction is enforced. -/
def NothingToLose (s : SessionState) (auth : AuthContext) (request : SignalJoinRequest) : Prop :=
  (if request.reconnect then
      (participantOf s auth.key).bind (·.permission) =
        some (permissionWithoutSources auth.claims.video)
    else ∀name∈auth.claims.video.canPublishSources,sourceNumber name=none) ∧
  (auth.claims.video.canPublish=false ∨ auth.claims.video.canPublishSources=[])

/-- After any run, a token and a request that are accepted on both paths are granted the same
exactly if the intent loses nothing. -/
theorem relayedJoin_grants_same_iff (defaults : RoomDefaults) (autoCreate : Bool)
    (events : List SessionEvent) (auth : AuthContext) (request : SignalJoinRequest)
    (now relayedNow : ℤ)
    (hopens : OpensSession ((initial defaults autoCreate).run events) auth request now)
    (haccepted : (((initial defaults autoCreate).run events).executeJoin (.ofJoin auth request)
      relayedNow).1) :
    SameGrants auth.key (((initial defaults autoCreate).run events).runJoinSocket auth request
        true now) (((initial defaults autoCreate).run events).executeJoin (.ofJoin auth request)
          relayedNow).2 ↔
      NothingToLose ((initial defaults autoCreate).run events) auth request := by
  have hk := keyed_sessionRun (keyed_sessionInitial defaults autoCreate) events
  generalize (initial defaults autoCreate).run events=s at *
  obtain ⟨hrel,before,hr⟩ := relayed_of_accepted hk haccepted
  rw [NothingToLose]
  cases hre : request.reconnect with
  | true =>
    obtain ⟨hres,he⟩ := hopens.resumed hre
    obtain ⟨participant,hf,-⟩ := map_eq_some_iff.mp hres.1
    have hp := (getParticipant_eq s auth.key).symm.trans hf
    have hl : (participantOf (s.runJoinSocket auth request true now) auth.key).map
        (·.permission)=some participant.permission := by
      rw [he.self,hp,map_some]
    rw [sameGrants_iff hl he.permissions hrel hr,hp]
    rfl
  | false =>
    obtain ⟨participant,permissions,hpe,he⟩ := hopens.joined hre
    have hl : (participantOf (s.runJoinSocket auth request true now) auth.key).map
        (·.permission)=some (some auth.claims.video.permission) := by
      rw [he.self,map_some,hpe]
    rw [sameGrants_iff hl he.permissions hrel hr,some.injEq,eq_comm,permissionWithoutSources_eq_iff]
    rfl

/-- Without sources nothing is lost. -/
theorem relayedJoin_of_unrestricted_token :
    SameGrants alice ((initial {} true).runJoinSocket (aliceToken []) {} true 0)
      ((initial {} true).executeJoin (.ofJoin (aliceToken []) {}) 0).2 :=
  (relayedJoin_grants_same_iff {} true [] (aliceToken []) {} 0 0 (by decide +kernel)
    (by decide +kernel)).mpr ⟨fun _ hmem => (by cases hmem),.inr rfl⟩

/-- A camera alone becomes everything: the intent has no sources, neither for the room nor for the
stores. -/
theorem relayedJoin_loses_sources :
    let joined := (initial {} true).runJoinSocket (aliceToken ["camera"]) {} true 0
    let relayed := ((initial {} true).executeJoin (.ofJoin (aliceToken ["camera"]) {}) 0).2
    OpensSession (initial {} true) (aliceToken ["camera"]) {} 0 ∧
      ((initial {} true).executeJoin (.ofJoin (aliceToken ["camera"]) {}) 0).1 ∧
      joined.permissions.publish.canPublishSource alice "microphone" = false ∧
      relayed.permissions.publish.canPublishSource alice "microphone" = true ∧
      ((participantOf joined alice).bind (·.permission)).map (·.canPublishSources)=some [1] ∧
      ((participantOf relayed alice).bind (·.permission)).map (·.canPublishSources)=some [] ∧
      ¬ SameGrants alice joined relayed := by
  refine ⟨by decide +kernel,by decide +kernel,by decide +kernel,by decide +kernel,
    by decide +kernel,by decide +kernel,fun hs => ?_⟩
  have hm := hs.sources "microphone"
  revert hm
  decide +kernel

end OxideSfu.Signaling
