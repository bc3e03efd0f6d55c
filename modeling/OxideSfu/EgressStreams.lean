import Mathlib.Data.List.DropRight
import OxideSfu.RoomStore

/-!
# Stream urls of an egress

The streams of an egress record (`oxidesfu-room/src/room.rs`): a start lists the urls of its outputs
as they come, an update removes urls and adds others.
-/

namespace OxideSfu.Rooms

open RoomStore

inductive StreamStatus | active | finished | failed deriving DecidableEq

structure StreamInfo where
  url : String
  startedAt : ℤ
  status : StreamStatus
  deriving DecidableEq

inductive EgressStatus | starting | active | ending | complete | failed | aborted | limitReached
  deriving DecidableEq

def EgressStatus.asStrName : EgressStatus → String
  | .starting => "EGRESS_STARTING" | .active => "EGRESS_ACTIVE" | .ending => "EGRESS_ENDING"
  | .complete => "EGRESS_COMPLETE" | .failed => "EGRESS_FAILED" | .aborted => "EGRESS_ABORTED"
  | .limitReached => "EGRESS_LIMIT_REACHED"

structure EgressInfo where
  status : EgressStatus
  (startedAt updatedAt : ℤ)
  streamResults : List StreamInfo
  deriving DecidableEq

/-- What an output of a `StartEgressRequest` is configured as. Only streams have urls. -/
inductive OutputConfig
  | stream (urls : List String)
  | file | segments | images

/-- Requests that start an egress: the ones of the first version have lists of stream outputs, a
track egress has none. -/
inductive EgressStart
  | egress (outputs : List (Option OutputConfig))
  | v1 (streamOutputs : List (List String))
  | track

def streamUrls : Option OutputConfig → List String
  | some (.stream urls) => urls | _ => []

/-- The urls that a request lists. -/
def EgressStart.listed : EgressStart → List String
  | .egress outputs => outputs.flatMap streamUrls | .v1 outputs => outputs.flatten | .track => []

def activeStream (now : ℤ) (url : String) : StreamInfo := ⟨url,now,.active⟩

def streamResultsFromUrls (urls : List String) (now : ℤ) : List StreamInfo :=
  ((urls.map trim).filter (· ≠ "")).map (activeStream now)

def streamResultsFromOutputs (outputs : List (Option OutputConfig)) (now : ℤ) : List StreamInfo :=
  streamResultsFromUrls (outputs.flatMap streamUrls) now

def streamResultsFromV1StreamOutputs (outputs : List (List String)) (now : ℤ) : List StreamInfo :=
  streamResultsFromUrls outputs.flatten now

def storeStartedEgressInfo (streamResults : List StreamInfo) (now : ℤ) : EgressInfo :=
  ⟨.starting,now,now,streamResults⟩

/-- `None`: a `StartEgressRequest` without outputs is refused. -/
def EgressStart.info (now : ℤ) : EgressStart→Option EgressInfo
  | .egress outputs => if outputs.isEmpty then none
      else some (storeStartedEgressInfo (streamResultsFromOutputs outputs now) now)
  | .v1 outputs => some (storeStartedEgressInfo (streamResultsFromV1StreamOutputs outputs now) now)
  | .track => some (storeStartedEgressInfo [] now)

def urlsOf (streams : List StreamInfo) : List String := streams.map StreamInfo.url

namespace EgressInfo

def urls (info : EgressInfo) : List String := urlsOf info.streamResults

def assertEgressCanBeUpdated (info : EgressInfo) : Except RoomStoreError Unit :=
  match info.status with
  | .starting | .active => .ok ()
  | status => .error (.invalidArgument
      ("egress with status "++status.asStrName++" cannot be updated"))

def addStream (now : ℤ) (streams : List StreamInfo) (url : String) : List StreamInfo :=
  let trimmed := trim url
  if trimmed = "" then streams
  else if streams.any (·.url=trimmed) then streams
  else streams++[activeStream now trimmed]

def updateEgressStreamUrls (info : EgressInfo) (addOutputUrls removeOutputUrls : List String)
    (now : ℤ) : Except RoomStoreError EgressInfo := do
  info.assertEgressCanBeUpdated
  let kept := info.streamResults.filter (fun stream => !(stream.url∈removeOutputUrls))
  return {info with
    streamResults := addOutputUrls.foldl (addStream now) kept,updatedAt := now}

/-- An update request and when it comes. -/
structure StreamUpdate where
  (addOutputUrls removeOutputUrls : List String)
  now : ℤ

/-- The stored record after an update, which is the old one if the update is refused. -/
def afterUpdate (info : EgressInfo) (u : StreamUpdate) : EgressInfo :=
  (info.updateEgressStreamUrls u.addOutputUrls u.removeOutputUrls u.now).toOption.getD info

end EgressInfo

open EgressInfo List

theorem trim_trim (u : String) : trim (trim u)=trim u := by
  let l := u.toList.dropWhile isWhitespace
  -- what is left of `l` starts as `l` does
  have hd : (l.rdropWhile isWhitespace).dropWhile isWhitespace=l.rdropWhile isWhitespace := by
    rw [dropWhile_eq_self_iff]
    intro hl
    have hp := l.rdropWhile_prefix isWhitespace
    rw [hp.getElem hl]
    exact dropWhile_eq_self_iff.mp (dropWhile_idempotent isWhitespace u.toList) _
  have hr := rdropWhile_idempotent isWhitespace l
  unfold trim
  rw [String.toList_ofList]
  change String.ofList (((l.rdropWhile isWhitespace).dropWhile isWhitespace).rdropWhile
    isWhitespace)=String.ofList (l.rdropWhile isWhitespace)
  rw [hd,hr]

/-- Urls that are distinct, trimmed and not empty. -/
def UrlSet (urls : List String) : Prop := urls.Nodup ∧ ∀url∈urls,url≠"" ∧ trim url=url

variable {now : ℤ} {streams : List StreamInfo}

theorem urlsOf_addStream (url : String) : urlsOf (addStream now streams url)=
    if trim url = "" ∨ trim url∈urlsOf streams then urlsOf streams
    else urlsOf streams++[trim url] := by
  have hm : (streams.any (·.url=trim url)) ↔ trim url∈urlsOf streams := by
    simp [urlsOf]
  have ha : urlsOf (streams++[activeStream now (trim url)])=urlsOf streams++[trim url] := map_append
  simp only [addStream,hm,ite_or,apply_ite urlsOf,ha]

theorem UrlSet.foldl_addStream (urls : List String) (h : UrlSet (urlsOf streams)) :
    UrlSet (urlsOf (urls.foldl (addStream now) streams)) := by
  induction urls generalizing streams with
  | nil => exact h
  | cons url urls ih =>
    refine ih ?_
    rw [urlsOf_addStream]
    split_ifs with hc
    · exact h
    · rw [not_or] at hc
      refine ⟨nodup_append.mpr ⟨h.1,nodup_singleton _,?_⟩,?_⟩
      · rintro w hw _ hs rfl
        exact hc.2 (mem_singleton.mp hs ▸ hw)
      · intro w hw
        obtain hw | hw := mem_append.mp hw
        · exact h.2 w hw
        · exact mem_singleton.mp hw ▸ ⟨hc.1,trim_trim url⟩

theorem urlsOf_filter (removed : List String) :
    urlsOf (streams.filter (fun stream => !(stream.url∈removed)))=
      (urlsOf streams).filter (fun url => !(url∈removed)) := by
  rw [urlsOf,urlsOf,filter_map]
  rfl

variable {info : EgressInfo}

theorem afterUpdate_eq (h : info.status=.starting) (u : StreamUpdate) :
    info.afterUpdate u={info with
      streamResults := u.addOutputUrls.foldl (addStream u.now)
        (info.streamResults.filter (fun stream => !(stream.url∈u.removeOutputUrls)))
      updatedAt := u.now} := by
  simp [afterUpdate,updateEgressStreamUrls,assertEgressCanBeUpdated,h,Except.toOption,bind,
    Except.bind,pure,Except.pure]

theorem urlSet_updates (hs : info.status=.starting) (h : UrlSet info.urls)
    (updates : List StreamUpdate) :
    (updates.foldl afterUpdate info).status=.starting ∧
      UrlSet (updates.foldl afterUpdate info).urls := by
  induction updates generalizing info with
  | nil => exact ⟨hs,h⟩
  | cons u updates ih =>
    rw [foldl_cons,afterUpdate_eq hs]
    refine ih hs (UrlSet.foldl_addStream _ ?_)
    rw [urlsOf_filter]
    exact ⟨h.1.filter _,fun url hu => h.2 url (mem_of_mem_filter hu)⟩

/-- A url that is added and removed again leaves no trace unless it has blanks around it. -/
theorem urls_add_remove (hs : info.status=.starting) (h : UrlSet info.urls) {u : String}
    (hu : trim u∉info.urls) (t₁ t₂ : ℤ) :
    ((info.afterUpdate ⟨[u],[],t₁⟩).afterUpdate ⟨[],[u],t₂⟩).urls=info.urls ↔ trim u = "" ∨
      trim u=u := by
  have hs' : (info.afterUpdate ⟨[u],[],t₁⟩).status=.starting := by rw [afterUpdate_eq hs]; exact hs
  have ha : (info.afterUpdate ⟨[u],[],t₁⟩).urls=
      if trim u = "" then info.urls else info.urls++[trim u] := by
    have he := @urlsOf_addStream t₁ info.streamResults u
    rw [← urls,if_congr (or_iff_left hu) rfl rfl] at he
    simpa [afterUpdate_eq hs,urls] using he
  have hn : info.urls.filter (fun url => !(url∈[u]))=info.urls := by
    refine filter_eq_self.mpr fun url hm => ?_
    have hne : url≠u := by
      rintro rfl
      exact hu ((h.2 url hm).2.symm ▸ hm)
    simpa using hne
  rw [afterUpdate_eq hs',urls,foldl_nil,urlsOf_filter,← urls,ha]
  split_ifs with he
  · rw [hn]
    simp [he]
  · rw [filter_append,hn]
    by_cases ht : trim u=u <;> simp [ht,he]

theorem urls_start {start : EgressStart} (h : start.info now=some info) :
    info.status=.starting ∧ info.urls=(start.listed.map trim).filter (· ≠ "") := by
  have hu : ∀urls,urlsOf (streamResultsFromUrls urls now)=(urls.map trim).filter (· ≠ "") := by
    intro urls
    simp [urlsOf,streamResultsFromUrls,activeStream,Function.comp_def]
  cases start with
  | egress outputs =>
    rw [EgressStart.info] at h
    split_ifs at h
    cases h
    exact ⟨rfl,hu _⟩
  | v1 outputs =>
    cases h
    exact ⟨rfl,hu _⟩
  | track =>
    cases h
    exact ⟨rfl,rfl⟩

/-- The urls of a record are a set through all updates, and adding `u` can be undone, when the start
lists no url twice and `u` is blank or has no blanks around it. -/
theorem stream_urls_undoable_iff (start : EgressStart) (now : ℤ) (info : EgressInfo)
    (h : start.info now=some info) (u : String) :
    (∀(updates : List StreamUpdate) (t₁ t₂ : ℤ),
      let record := updates.foldl afterUpdate info
      (record.urls.Nodup ∧ ∀url∈record.urls,url≠"" ∧ trim url=url) ∧
        (trim u∉record.urls →
          ((record.afterUpdate ⟨[u],[],t₁⟩).afterUpdate ⟨[],[u],t₂⟩).urls=record.urls)) ↔
    ((start.listed.map trim).filter (· ≠ "")).Nodup ∧ (trim u = "" ∨ trim u=u) := by
  obtain ⟨hs,hu⟩ := urls_start h
  constructor
  · intro ha
    have hset := (ha [] 0 0).1
    refine ⟨hu ▸ hset.1,?_⟩
    -- after the url was removed it can be added
    let removal : StreamUpdate := ⟨[],[trim u],0⟩
    obtain ⟨hs',hset'⟩ := urlSet_updates hs hset [removal]
    have hn : trim u∉(info.afterUpdate removal).urls := by
      rw [afterUpdate_eq hs,urls,foldl_nil,urlsOf_filter]
      simp [removal]
    exact (urls_add_remove hs' hset' hn 0 0).mp ((ha [removal] 0 0).2 hn)
  · rintro ⟨hn,ht⟩ updates t₁ t₂
    have hset : UrlSet info.urls := by
      rw [hu]
      refine ⟨hn,fun url hm => ?_⟩
      obtain ⟨hm,hne⟩ := mem_filter.mp hm
      obtain ⟨w,-,rfl⟩ := mem_map.mp hm
      exact ⟨of_decide_eq_true hne,trim_trim w⟩
    obtain ⟨hs',hset'⟩ := urlSet_updates hs hset updates
    exact ⟨hset',fun hm => (urls_add_remove hs' hset' hm t₁ t₂).mpr ht⟩

theorem two_streams_undoable :
    let info : EgressInfo := ⟨.starting,0,0,[⟨"rtmp://a",0,.active⟩,⟨"rtmp://b",0,.active⟩]⟩
    ((info.afterUpdate ⟨["rtmp://c"],[],1⟩).afterUpdate ⟨[],["rtmp://c"],2⟩).urls=info.urls :=
  ((stream_urls_undoable_iff (.v1 [["rtmp://a","rtmp://b"]]) 0 _ (by decide +kernel) "rtmp://c").mpr
    (by decide +kernel) [] 1 2).2 (by decide +kernel)

/-- A start keeps a repeated url, and a url with a blank is stored without it and is not found by
the same string again. -/
theorem added_url_stays :
    let info : EgressInfo := ⟨.starting,0,0,[]⟩
    (EgressStart.v1 [["rtmp://a"," rtmp://a"]]).info 0=
      some ⟨.starting,0,0,[⟨"rtmp://a",0,.active⟩,⟨"rtmp://a",0,.active⟩]⟩ ∧
    EgressStart.track.info 0=some info ∧ trim "rtmp://a "∉info.urls ∧
    ((info.afterUpdate ⟨["rtmp://a "],[],1⟩).afterUpdate ⟨[],["rtmp://a "],2⟩).urls=
      ["rtmp://a"] := by
  decide +kernel

end OxideSfu.Rooms
