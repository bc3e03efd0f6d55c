import OxideSfu.UpdateHubInterleaving

/-!
# The order of participant updates

The versions that a receiver gets for one sid should increase, and the newest one passed while it
listens should get to it. The hub compares under another lock than it sends under: a broadcast can
be overtaken, a join broadcast is not compared, and a version accepted before a receiver listened is
kept from it.
-/

namespace OxideSfu.Signaling

open FiniteMaps Rooms RoomStore CriticalSections StepRuns FiniteMap HubState List Option

/-- A snapshot for an update is newer than those of its sid that were join broadcasts, were hidden
or were passed before one of the receivers of the room was there; without a sid it is newer than all
others without one. A join broadcast is newer than all snapshots of its sid, none of which is being
sent. A broadcast sends before the newer ones of its sid. -/
def InOrder (c : Threads HubState RoomSnapshot) : Event HubCall→Prop
  | .enter _ (.broadcastUpdate room participant) =>
      participantIsHidden participant=false ∨ participant.state = .disconnected →
        ∀entry∈c.shared.passed,entry.SameSid ⟨room,participant⟩ →
          (participant.sid = "" ∨ entry.verdict = .joined ∨
            participantIsHidden entry.participant ∨
            ∃channel∈c.shared.channels room,channel∉entry.receivers) →
          entry.version<participant.version
  | .enter _ (.registerAndBroadcastJoin room participant _) =>
      participantIsHidden participant=false →
        (∀entry∈c.shared.passed,entry.SameSid ⟨room,participant⟩ →
          entry.version<participant.version) ∧
        ∀thread∈c.running.keys,∀waiting∈c.running.lookup thread,
          ¬ waiting.SameSid ⟨room,participant⟩
  | .resume thread => ∀sending∈c.running.lookup thread,
      ∀other∈c.running.keys,∀waiting∈c.running.lookup other,waiting.SameSid sending →
        sending.version≤waiting.version
  | _ => True

instance (c : Threads HubState RoomSnapshot) :
    (event : Event HubCall)→Decidable (InOrder c event)
  | .enter _ (.broadcastUpdate _ _) => inferInstanceAs (Decidable (_ → _))
  | .enter _ (.registerAndBroadcastJoin _ _ _) => inferInstanceAs (Decidable (_ → _))
  | .resume _ => inferInstanceAs (Decidable (∀sending∈_,_))
  | .enter _ (.register ..) | .enter _ (.close _) => isTrue trivial

/-- Of two snapshots of one sid that a receiver gets, the later one has the greater version. -/
def MovesForward (s : HubState) : Prop :=
  s.sent.Pairwise (fun earlier later => earlier.channel=later.channel →
    earlier.participant.sid=later.participant.sid → earlier.version<later.version)
  deriving Decidable

/-- A visible snapshot of a sid that was passed to `broadcast_update` while a receiver listened. -/
def Passed.VisibleTo (entry : Passed) (channel : ℕ) (sid : String) : Prop :=
  entry.verdict ≠ .joined ∧ participantIsHidden entry.participant=false ∧
    entry.participant.sid=sid ∧ channel∈entry.receivers

def GotVersion (s : HubState) (channel : ℕ) (sid : String) (version : ℕ) : Prop :=
  ∃sent∈s.sent,sent.channel=channel ∧ sent.participant.sid=sid ∧ sent.version=version

def BeingSent (c : Threads HubState RoomSnapshot) (room sid : String) (version : ℕ) : Prop :=
  ∃thread snapshot,c.running.lookup thread=some snapshot ∧ snapshot.room=room ∧
    snapshot.participant.sid=sid ∧ snapshot.version=version

/-- The newest version of a visible participant that was passed to `broadcast_update` while a
receiver listened has reached the receiver, or is about to. -/
def NewestDelivered (c : Threads HubState RoomSnapshot) : Prop :=
  ∀channel∉c.shared.hub.closed,∀sid,∀entry∈c.shared.passed,entry.VisibleTo channel sid →
    (∀other∈c.shared.passed,other.VisibleTo channel sid → other.version≤entry.version) →
    GotVersion c.shared channel sid entry.version ∨ BeingSent c entry.room sid entry.version

/-- The recorded versions are those of the newest accepted snapshots. -/
structure VersionsRecorded (s : HubState) : Prop where
  passed : ∀room key latest,s.hub.latestVersions.lookup (room,key)=some latest →
    ∃entry∈s.passed,entry.verdict = .accepted ∧ entry.room=room ∧
      participantUpdateVersionKey entry.participant=some key ∧ entry.version=latest
  newest : ∀entry∈s.passed,entry.verdict = .accepted →
    ∀key∈participantUpdateVersionKey entry.participant,
      ∃latest∈s.hub.latestVersions.lookup (entry.room,key),entry.version≤latest

def Admitted (s : HubState) (snapshot : RoomSnapshot) : Prop :=
  ∃entry∈s.passed,entry.verdict ≠ .refused ∧ entry.toRoomSnapshot=snapshot

structure SendsAdmitted (c : Threads HubState RoomSnapshot) : Prop where
  sent : ∀sent∈c.shared.sent,Admitted c.shared sent.toRoomSnapshot
  waiting : ∀thread snapshot,c.running.lookup thread=some snapshot → Admitted c.shared snapshot

variable {s t : HubState} {c d : Threads HubState RoomSnapshot} {event : Event HubCall}

theorem VersionsRecorded.of_same (h : VersionsRecorded s)
    (hv : t.hub.latestVersions=s.hub.latestVersions)
    (hk : ∀e∈s.passed,e∈t.passed) (hp : ∀e∈t.passed,e.verdict = .accepted → e∈s.passed) :
    VersionsRecorded t where
  passed room key latest hl := by
    rw [hv] at hl
    obtain ⟨e,hmem,he⟩ := h.passed room key latest hl
    exact ⟨e,hk e hmem,he⟩
  newest e hmem ha := by
    rw [hv]
    exact h.newest e (hp e hmem ha) ha

variable {verdict : Verdict}

theorem VersionsRecorded.pass (h : VersionsRecorded s) (n : RoomSnapshot)
    (hv : verdict ≠ .accepted) : VersionsRecorded (s.pass n verdict) := by
  refine h.of_same rfl (fun _ => mem_append_left _) (fun e hmem ha => ?_)
  obtain hold | rfl := mem_passed_pass hmem
  · exact hold
  · exact absurd ha hv

variable {snapshot : RoomSnapshot} (ch : ℕ)

theorem VersionsRecorded.accept (h : VersionsRecorded s)
    (hnew : ∀key∈participantUpdateVersionKey snapshot.participant,
      ∀latest∈s.hub.latestVersions.lookup (snapshot.room,key),latest<snapshot.version) :
    VersionsRecorded {s.pass snapshot .accepted with hub := recordVersion s.hub snapshot} where
  passed room key latest hl := by
    rw [lookup_recordVersion] at hl
    split_ifs at hl with hs
    · refine ⟨_,mem_append_right _ mem_cons_self,rfl,hs.1.symm,hs.2,?_⟩
      exact some.inj hl
    · obtain ⟨entry,hmem,he⟩ := h.passed room key latest hl
      exact ⟨entry,mem_append_left _ hmem,he⟩
  newest entry hmem ha key hkey := by
    rw [lookup_recordVersion]
    obtain hold | rfl := mem_passed_pass hmem
    · obtain ⟨latest,hl,hle⟩ := h.newest entry hold ha key hkey
      split_ifs with hs
      · rw [hs.1] at hl
        exact ⟨_,rfl,hle.trans (hnew key hs.2 latest hl).le⟩
      · exact ⟨latest,hl,hle⟩
    · rw [if_pos ⟨rfl,hkey⟩]
      exact ⟨_,rfl,le_rfl⟩

theorem latestVersions_close : (s.close ch).hub.latestVersions=s.hub.latestVersions := by
  rw [close]
  split_ifs <;> rfl

theorem latestVersions_send (n : RoomSnapshot) :
    (s.send n).hub.latestVersions=s.hub.latestVersions := by
  rw [send,ParticipantUpdateHub.retainListening]
  split <;> rfl

@[simp] theorem passed_close : (s.close ch).passed=s.passed := by
  rw [close]
  split_ifs <;> rfl

@[simp] theorem sent_close : (s.close ch).sent=s.sent := by
  rw [close]
  split_ifs <;> rfl

theorem VersionsRecorded.step (h : VersionsRecorded c.shared) (hs : HubStep c event d) :
    VersionsRecorded d.shared := by
  cases hs with
  | nothing => exact h
  | registered => exact h.of_same rfl (fun _ => id) (fun _ hmem _ => hmem)
  | closed _ ch =>
    refine h.of_same (latestVersions_close ch) (fun e hmem => ?_) (fun e hmem _ => ?_)
    · rwa [passed_close]
    · rwa [passed_close] at hmem
  | joined _ n =>
    exact (h.pass n (by decide)).of_same rfl (fun _ => id) (fun _ hmem _ => hmem)
  | refused _ n => exact h.pass n (by decide)
  | accepted _ n _ hnew => exact h.accept hnew
  | sent _ n =>
    exact h.of_same (latestVersions_send n) (fun _ => id) (fun _ hmem _ => hmem)

theorem Admitted.mono (h : Admitted s snapshot) (hk : ∀e∈s.passed,e∈t.passed) :
    Admitted t snapshot := by
  obtain ⟨e,hmem,he⟩ := h
  exact ⟨e,hk e hmem,he⟩

theorem admitted_pass (s : HubState) (n : RoomSnapshot) (hv : verdict ≠ .refused) :
    Admitted (s.pass n verdict) n :=
  ⟨_,mem_append_right _ mem_cons_self,hv,rfl⟩

theorem SendsAdmitted.of_same (h : SendsAdmitted c) (hk : ∀e∈c.shared.passed,e∈d.shared.passed)
    (hs : ∀sent∈d.shared.sent,sent∈c.shared.sent ∨ Admitted d.shared sent.toRoomSnapshot)
    (hw : ∀t n,d.running.lookup t=some n → c.running.lookup t=some n ∨ Admitted d.shared n) :
      SendsAdmitted d where
  sent sent hmem := by
    obtain hold | hnew := hs sent hmem
    · exact (h.sent sent hold).mono hk
    · exact hnew
  waiting t n hr := by
    obtain hold | hnew := hw t n hr
    · exact (h.waiting t n hold).mono hk
    · exact hnew

theorem SendsAdmitted.step (h : SendsAdmitted c) (hs : HubStep c event d) : SendsAdmitted d := by
  cases hs with
  | nothing => exact h
  | registered => exact h.of_same (fun _ => id) (fun _ => .inl) (fun _ _ => .inl)
  | closed _ ch =>
    refine h.of_same (fun e hmem => ?_) (fun sent hmem => ?_) (fun _ _ => .inl)
    · rwa [passed_close]
    · rw [sent_close] at hmem
      exact .inl hmem
  | joined _ n =>
    refine h.of_same (fun _ => mem_append_left _) (fun sent hmem => ?_) (fun _ _ => .inl)
    obtain hold | ⟨rfl,-⟩ := mem_sent_deliver.mp hmem
    · exact .inl hold
    · exact .inr (admitted_pass c.shared _ (by decide))
  | refused => exact h.of_same (fun _ => mem_append_left _) (fun _ => .inl) (fun _ _ => .inl)
  | accepted t n =>
    refine h.of_same (fun _ => mem_append_left _) (fun _ => .inl) (fun o w hr => ?_)
    obtain ⟨-,rfl⟩ | ⟨-,hold⟩ := lookup_of_insert hr
    · exact .inr (admitted_pass c.shared w (by decide))
    · exact .inl hold
  | sent t n hr =>
    refine h.of_same (fun _ => id) (fun sent hmem => ?_) (fun o w hw => .inl (lookup_of_erase hw).2)
    obtain hold | ⟨rfl,-⟩ := mem_sent_deliver.mp hmem
    · exact .inl hold
    · exact .inr (h.waiting t _ hr)

/-- A version that is accepted is newer than all that were admitted before it. -/
theorem newer_of_accepted {thread : ℕ} (hr : VersionsRecorded c.shared)
    (ho : InOrder c (.enter thread (.broadcastUpdate snapshot.room snapshot.participant)))
    (ha : participantIsHidden snapshot.participant=false ∨ snapshot.participant.state =
      .disconnected)
    (hnew : ∀key∈participantUpdateVersionKey snapshot.participant,
      ∀latest∈c.shared.hub.latestVersions.lookup (snapshot.room,key),latest<snapshot.version)
    {other : RoomSnapshot} (had : Admitted c.shared other) (hs : other.SameSid snapshot) :
    other.version<snapshot.version := by
  obtain ⟨entry,hmem,hv,rfl⟩ := had
  by_cases hsid : snapshot.participant.sid = ""
  · exact ho ha entry hmem hs (.inl hsid)
  cases he : entry.verdict with
  | joined => exact ho ha entry hmem hs (.inr (.inl he))
  | refused => exact absurd he hv
  | accepted =>
    have hkey : participantUpdateVersionKey entry.participant =
      some ("sid:" ++ snapshot.participant.sid) := by
      rw [← hs.2] at hsid ⊢
      exact participantUpdateVersionKey_of_sid hsid
    obtain ⟨latest,hl,hle⟩ := hr.newest entry hmem he _ hkey
    rw [hs.1] at hl
    exact hle.trans_lt (hnew _ (participantUpdateVersionKey_of_sid hsid) latest hl)

variable {e : Event HubCall}

/-- What is about to be sent is newer than what was sent, and no version is about to be sent twice.
-/
structure SendsInOrder (c : Threads HubState RoomSnapshot) : Prop where
  ahead : ∀sent∈c.shared.sent,∀thread waiting,c.running.lookup thread=some waiting →
    sent.SameSid waiting → sent.version<waiting.version
  apart : ∀thread other snapshot waiting,thread≠other →
    c.running.lookup thread=some snapshot → c.running.lookup other=some waiting →
    snapshot.SameSid waiting → snapshot.version≠waiting.version
  forward : MovesForward c.shared

variable {n : RoomSnapshot}

theorem MovesForward.deliver (h : MovesForward s) (hr : Registered s)
    (hn : ∀sent∈s.sent,sent.SameSid n → sent.version<n.version) :
    MovesForward (s.deliver n) := by
  refine pairwise_append.mpr ⟨h,?_,?_⟩
  · refine pairwise_map.mpr ((hr.distinct_channels n.room).imp ?_)
    intro c o hne heq
    exact absurd heq hne
  · intro e he l hla hc hsid
    obtain ⟨c,hl,rfl⟩ := mem_map.mp hla
    refine hn e he ⟨?_,hsid⟩
    -- A receiver has one room.
    have hh := hr.home_of_channel hl
    rw [← show e.channel=c from hc,hr.sentHome e he] at hh
    exact some.inj hh

theorem SendsInOrder.step (h : SendsInOrder c) (hr : Registered c.shared)
    (hre : VersionsRecorded c.shared)
    (ha : SendsAdmitted c) (ho : InOrder c e) (hst : HubStep c e d) : SendsInOrder d := by
  cases hst with
  | nothing => exact h
  | registered => exact ⟨h.ahead,h.apart,h.forward⟩
  | closed _ channel =>
    refine ⟨?_,h.apart,?_⟩
    · rw [sent_close]
      exact h.ahead
    · rw [MovesForward,sent_close]
      exact h.forward
  | joined thread snapshot owner hv =>
    obtain ⟨hnewe,hq⟩ := ho hv
    refine ⟨?_,h.apart,?_⟩
    · intro sent hmem other waiting hw hs
      obtain hold | ⟨rfl,-⟩ := mem_sent_deliver.mp hmem
      · exact h.ahead sent hold other waiting hw hs
      · exact absurd ⟨hs.1.symm,hs.2.symm⟩ (hq other (mem_keys_of_lookup hw) waiting hw)
    · refine MovesForward.deliver (s := c.shared.pass snapshot .joined) h.forward
        (hr.pass snapshot .joined) (fun sent hmem hs => ?_)
      obtain ⟨entry,he,-,heq⟩ := ha.sent sent hmem
      have hl := hnewe entry he
      rw [heq] at hl
      exact hl hs
  | refused => exact ⟨h.ahead,h.apart,h.forward⟩
  | accepted thread snapshot han hnew =>
    have hn : ∀other,Admitted c.shared other → other.SameSid snapshot →
        other.version<snapshot.version := fun other =>
      newer_of_accepted hre ho han hnew
    refine ⟨?_,?_,h.forward⟩
    · intro sent hmem other waiting hw hs
      obtain ⟨-,rfl⟩ | ⟨-,hold⟩ := lookup_of_insert hw
      · exact hn _ (ha.sent sent hmem) hs
      · exact h.ahead sent hmem other waiting hold hs
    · intro first second waiting later hne hf hse hs
      obtain ⟨rfl,rfl⟩ | ⟨-,hb⟩ := lookup_of_insert hf
      · obtain ⟨rfl,-⟩ | ⟨-,haf⟩ := lookup_of_insert hse
        · exact absurd rfl hne
        · exact (hn later (ha.waiting second later haf) ⟨hs.1.symm,hs.2.symm⟩).ne'
      · obtain ⟨rfl,rfl⟩ | ⟨-,haf⟩ := lookup_of_insert hse
        · exact (hn waiting (ha.waiting first waiting hb) hs).ne
        · exact h.apart first second waiting later hne hb haf hs
  | sent thread snapshot hru =>
    refine ⟨?_,?_,?_⟩
    · intro sent hmem other waiting hw hs
      obtain ⟨hot,hb⟩ := lookup_of_erase hw
      obtain hold | ⟨rfl,-⟩ := mem_sent_deliver.mp hmem
      · exact h.ahead sent hold other waiting hb hs
      · have hle := ho _ hru other (mem_keys_of_lookup hb) waiting hb ⟨hs.1.symm,hs.2.symm⟩
        exact lt_of_le_of_ne hle (h.apart thread other _ waiting hot.symm hru hb hs)
    · intro first second waiting later hne hf hse hs
      exact h.apart first second waiting later hne (lookup_of_erase hf).2 (lookup_of_erase hse).2 hs
    · exact MovesForward.deliver h.forward hr
        (fun sent hmem hs => h.ahead sent hmem thread snapshot hru hs)

/-- A version got to a receiver, is about to, or a newer one was passed for the receiver. -/
def Reaches (c : Threads HubState RoomSnapshot) (channel : ℕ) (sid : String) (entry : Passed) :
    Prop :=
  GotVersion c.shared channel sid entry.version ∨ BeingSent c entry.room sid entry.version ∨
    ∃other∈c.shared.passed,other.VisibleTo channel sid ∧ entry.version<other.version

def Served (c : Threads HubState RoomSnapshot) : Prop :=
  ∀channel∉c.shared.hub.closed,∀sid,∀entry∈c.shared.passed,entry.VisibleTo channel sid →
    Reaches c channel sid entry

theorem Served.newestDelivered (h : Served c) : NewestDelivered c := by
  intro ch hop sid e hmem hv hn
  obtain hgot | hs | ⟨o,hot,ho,hne⟩ := h ch hop sid e hmem hv
  · exact .inl hgot
  · exact .inr hs
  · exact absurd hne (hn o hot ho).not_gt

theorem Reaches.mono {ch : ℕ} {sid : String} {e : Passed} (h : Reaches c ch sid e)
    (hse : ∀sent∈c.shared.sent,sent∈d.shared.sent)
    (hp : ∀e∈c.shared.passed,e∈d.shared.passed)
    (hw : ∀t n,c.running.lookup t=some n →
      n.room=e.room → d.running.lookup t=some n ∨ ∃sent∈d.shared.sent,sent.toRoomSnapshot=n ∧
        sent.channel=ch) :
    Reaches d ch sid e := by
  obtain ⟨sent,hmem,hgot⟩ | ⟨t,n,hr,hroom,hsid,hv⟩ | ⟨o,ho,hn⟩ := h
  · exact .inl ⟨sent,hse sent hmem,hgot⟩
  · obtain hs | ⟨sent,hmem,rfl,hc⟩ := hw t n hr hroom
    · exact .inr (.inl ⟨t,n,hs,hroom,hsid,hv⟩)
    · exact .inl ⟨sent,hmem,hc,hsid,hv⟩
  · exact .inr (.inr ⟨o,hp o ho,hn⟩)

/-- A refused version is not newer than an accepted one, which was passed for all who listen. -/
theorem Served.refused (h : Served c) (hre : VersionsRecorded c.shared) {t : ℕ}
    (ho : InOrder c (.enter t (.broadcastUpdate n.room n.participant)))
    (ha : participantIsHidden n.participant=false ∨ n.participant.state = .disconnected)
    (hold : ∃key∈participantUpdateVersionKey n.participant,
      ∃latest∈c.shared.hub.latestVersions.lookup (n.room,key),n.version≤latest)
    {ch : ℕ} (hl : ch∈c.shared.channels n.room) :
    Reaches c ch n.participant.sid ⟨n,c.shared.channels n.room,.refused⟩ := by
  obtain ⟨key,hkey,latest,hla,hle⟩ := hold
  obtain ⟨e,hmem,hac,hroom,he,rfl⟩ := hre.passed n.room key latest hla
  have hsid : e.participant.sid=n.participant.sid :=
    sid_eq_of_participantUpdateVersionKey (he.trans (mem_def.mp hkey).symm)
  have hnot := mt (ho ha e hmem ⟨hroom,hsid⟩) (Nat.not_lt.mpr hle)
  simp only [not_or,not_exists,not_and,not_not] at hnot
  obtain ⟨-,-,hs,hall⟩ := hnot
  have hv : e.VisibleTo ch n.participant.sid :=
    ⟨by rw [hac]; decide,by simpa using hs,hsid,hall ch hl⟩
  obtain hles | heq := hle.lt_or_eq
  · exact .inr (.inr ⟨e,hmem,hv,hles⟩)
  · have hr := h ch (mem_channels.mp hl).1 _ e hmem hv
    rw [Reaches,← heq,hroom] at hr
    exact hr

theorem Served.step (h : Served c) (hre : Registered c.shared) (hrec : VersionsRecorded c.shared)
    (hor : InOrder c event) (hs : HubStep c event d) : Served d := by
  cases hs with
  | nothing => exact h
  | registered => exact h
  | closed _ ch =>
    intro o ho sid e hmem hv
    have hb : o∉c.shared.hub.closed := by
      intro hc
      apply ho
      rw [close]
      split_ifs
      · exact Finset.mem_insert_of_mem hc
      · exact hc
    rw [passed_close] at hmem
    refine (h o hb sid e hmem hv).mono (fun sent hse => ?_) (fun e he => ?_)
      (fun _ _ hr _ => .inl hr)
    · rwa [sent_close]
    · rwa [passed_close]
  | joined _ n =>
    intro ch ho sid e hmem hv
    obtain hold | rfl := mem_passed_pass hmem
    · exact (h ch ho sid e hold hv).mono (fun _ => mem_append_left _)
        (fun _ => mem_append_left _) (fun _ _ hr _ => .inl hr)
    · exact absurd rfl hv.1
  | refused _ n ha hle =>
    intro ch ho sid e hmem hv
    have hrea : Reaches c ch sid e := by
      obtain hold | rfl := mem_passed_pass hmem
      · exact h ch ho sid e hold hv
      · obtain ⟨-,-,rfl,hl⟩ := hv
        exact h.refused hrec hor ha hle hl
    exact hrea.mono (fun _ => id) (fun _ => mem_append_left _) (fun _ _ hr _ => .inl hr)
  | accepted t n _ _ hi =>
    intro ch ho sid e hmem hv
    obtain hold | rfl := mem_passed_pass hmem
    · rw [closed_recordVersion] at ho
      refine (h ch ho sid e hold hv).mono (fun _ => id) (fun _ => mem_append_left _)
        (fun o w hr _ => .inl ?_)
      have hot : o≠t := by
        rintro rfl
        rw [hi] at hr
        cases hr
      rw [lookup_insert,if_neg hot]
      exact hr
    · refine .inr (.inl ⟨t,n,?_,rfl,hv.2.2.1,rfl⟩)
      rw [lookup_insert,if_pos rfl]
  | sent t n hr =>
    intro ch ho sid e hmem hv
    rw [closed_send] at ho
    refine (h ch ho sid e hmem hv).mono (fun _ => mem_append_left _) (fun _ => id)
      (fun o w hw hroom => ?_)
    by_cases hot : o=t
    · rw [hot,hr] at hw
      obtain rfl := some.inj hw
      have hl := hre.listens e hmem ch hv.2.2.2 ho
      rw [← hroom] at hl
      exact .inr ⟨⟨n,ch⟩,mem_sent_deliver.mpr (.inr ⟨rfl,hl⟩),rfl,rfl⟩
    · left
      rw [lookup_erase,if_neg hot]
      exact hw

structure HubInvariant (c : Threads HubState RoomSnapshot) : Prop where
  registered : Registered c.shared
  recorded : VersionsRecorded c.shared
  admitted : SendsAdmitted c
  ordered : SendsInOrder c
  served : Served c

theorem hubInvariant_initial : HubInvariant (.idle .initial) where
  registered := ⟨fun _ _ h => absurd h not_mem_nil,fun _ => nodup_nil,
    fun _ h => absurd h not_mem_nil,fun _ h => absurd h not_mem_nil⟩
  recorded := ⟨fun _ _ _ h => (by cases h),fun _ h => absurd h not_mem_nil⟩
  admitted := ⟨fun _ h => absurd h not_mem_nil,fun _ _ h => (by cases h)⟩
  ordered := ⟨fun _ h => absurd h not_mem_nil,fun _ _ _ _ _ h => (by cases h),List.Pairwise.nil⟩
  served := fun _ _ _ _ h => absurd h not_mem_nil

theorem HubInvariant.step {c : Threads HubState RoomSnapshot} (h : HubInvariant c)
    {e : Event HubCall} (ho : InOrder c e) :
    HubInvariant (hubMachine.step c e) where
  registered := h.registered.step (hubStep c e)
  recorded := h.recorded.step (hubStep c e)
  admitted := h.admitted.step (hubStep c e)
  ordered := h.ordered.step h.registered h.recorded h.admitted ho (hubStep c e)
  served := h.served.step h.registered h.recorded ho (hubStep c e)

/-- In every run whose steps are in order, each receiver sees each participant move forward and gets
the newest version that was passed while it listened. -/
theorem receivers_move_forward (events : List (Event HubCall))
    (horder : AtEveryStep (fun earlier event => InOrder (hubRun earlier) event) events) :
    MovesForward (hubRun events).shared ∧ NewestDelivered (hubRun events) := by
  have hi : HubInvariant (hubRun events) := by
    refine horder.induction hubInvariant_initial (fun earlier event hi hev => ?_)
    rw [hubRun,Machine.run_concat]
    exact hi.step hev
  exact ⟨hi.ordered.forward,hi.served.newestDelivered⟩

def aliceAt (version : ℕ) : ParticipantInfo where
  sid := "PA_1"
  version := version
  identity := "alice"
  name := ""
  metadata := ""
  attributes := .empty
  permission := none
  state := .joined
  joinedAt := 0

def twoBroadcasts (sends : List ℕ) : List (Event HubCall) :=
  [.enter 0 (.register "room" ⟨"room","bob"⟩),.enter 1 (.broadcastUpdate "room" (aliceAt 1)),
    .enter 2 (.broadcastUpdate "room" (aliceAt 2))]++sends.map .resume

theorem bob_sees_alice_move_forward :
    ((hubRun (twoBroadcasts [1,2])).shared.sent.map fun sent => (sent.channel,sent.version)) =
        [(0,1),(0,2)] ∧
      MovesForward (hubRun (twoBroadcasts [1,2])).shared ∧
      NewestDelivered (hubRun (twoBroadcasts [1,2])) :=
  ⟨by decide +kernel,receivers_move_forward _ (by decide +kernel)⟩

def lateReceiver : List (Event HubCall) :=
  [.enter 1 (.broadcastUpdate "room" (aliceAt 1)),.resume 1,
    .enter 0 (.register "room" ⟨"room","bob"⟩),.enter 1 (.broadcastUpdate "room" (aliceAt 1))]

/-- The broadcast of the second version overtakes the first one, and Bob never gets the version that
was accepted before it listened. -/
theorem bob_sees_alice_move_back :
    (((hubRun (twoBroadcasts [2,1])).shared.sent.map fun sent => (sent.channel,sent.version)) =
        [(0,2),(0,1)] ∧
      ¬ MovesForward (hubRun (twoBroadcasts [2,1])).shared) ∧
    (hubRun lateReceiver).shared.sent = [] ∧ ¬ NewestDelivered (hubRun lateReceiver) := by
  have hp : (hubRun lateReceiver).shared.passed =
      [⟨⟨"room",aliceAt 1⟩,[],.accepted⟩,⟨⟨"room",aliceAt 1⟩,[0],.refused⟩] := rfl
  have hi : (hubRun lateReceiver).running.keys=∅ := by decide +kernel
  refine ⟨⟨by decide +kernel,by decide +kernel⟩,rfl,fun hd => ?_⟩
  have hn : ∀other∈(hubRun lateReceiver).shared.passed,other.VisibleTo 0 "PA_1" →
    other.version≤1 := by
    intro other ho _
    rw [hp] at ho
    simp only [mem_cons,not_mem_nil,or_false] at ho
    obtain rfl | rfl := ho <;> exact le_rfl
  obtain ⟨sent,hmem,-⟩ | ⟨thread,snapshot,hr,-⟩ :=
    hd 0 (by decide +kernel) "PA_1" ⟨⟨"room",aliceAt 1⟩,[0],.refused⟩
      (by rw [hp]; simp) ⟨by decide,rfl,rfl,by simp⟩ hn
  · cases hmem
  · have hmem := mem_keys_of_lookup hr
    cases hmem

end OxideSfu.Signaling
