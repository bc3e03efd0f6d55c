import Mathlib.Data.String.Basic
import OxideSfu.KeyedSets
import OxideSfu.RoomStore

/-!
# Paged listings of SIP trunks

SIP trunks are kept in three maps (`oxidesfu-room/src/sip.rs`). A listing converts the trunks of
several maps to one form, sorts them by id and goes on after the last id of the page before.
-/

namespace OxideSfu.Sip

open FiniteMaps KeyedSets KeyedSet Rooms List

inductive TrunkKind | legacy | inbound | outbound deriving DecidableEq

structure SipTrunkInfo where
  sipTrunkId : String
  kind : TrunkKind := .legacy
  (inboundAddresses inboundNumbers : List String := [])
  (inboundUsername inboundPassword : String := "")
  (outboundAddress outboundNumber outboundUsername outboundPassword : String := "")
  transport : ℤ := 0
  (name metadata : String := "")
  deriving DecidableEq

structure SipInboundTrunkInfo where
  (sipTrunkId name metadata : String)
  (numbers allowedAddresses : List String)
  (authUsername authPassword : String)

structure SipOutboundTrunkInfo where
  (sipTrunkId name metadata address : String)
  numbers : List String
  (authUsername authPassword : String)
  transport : ℤ

def sipTrunkToInbound (info : SipTrunkInfo) : SipInboundTrunkInfo where
  sipTrunkId := info.sipTrunkId
  name := info.name
  metadata := info.metadata
  numbers := if info.inboundNumbers.isEmpty ∧ info.outboundNumber≠"" then [info.outboundNumber]
    else info.inboundNumbers
  allowedAddresses := info.inboundAddresses
  authUsername := info.inboundUsername
  authPassword := info.inboundPassword

def sipTrunkToOutbound (info : SipTrunkInfo) : SipOutboundTrunkInfo where
  sipTrunkId := info.sipTrunkId
  name := info.name
  metadata := info.metadata
  address := info.outboundAddress
  numbers := if info.outboundNumber = "" then [] else [info.outboundNumber]
  authUsername := info.outboundUsername
  authPassword := info.outboundPassword
  transport := info.transport

def sipInboundToLegacy (info : SipInboundTrunkInfo) : SipTrunkInfo where
  sipTrunkId := info.sipTrunkId
  kind := .inbound
  inboundNumbers := info.numbers
  inboundAddresses := info.allowedAddresses
  inboundUsername := info.authUsername
  inboundPassword := info.authPassword
  name := info.name
  metadata := info.metadata

def sipOutboundToLegacy (info : SipOutboundTrunkInfo) : SipTrunkInfo where
  sipTrunkId := info.sipTrunkId
  kind := .outbound
  outboundAddress := info.address
  outboundNumber := info.numbers.headD ""
  outboundUsername := info.authUsername
  outboundPassword := info.authPassword
  transport := info.transport
  name := info.name
  metadata := info.metadata

structure Pagination where
  afterId : String
  limit : ℤ

variable {β : Type} (idOf : β → String)

/-- A map of trunks. None has an empty id. -/
structure TrunkMap where
  trunks : KeyedSet idOf
  named : ∀info∈trunks,idOf info≠""

variable {idOf}

def TrunkMap.store (m : TrunkMap idOf) (info : β) : Except RoomStoreError (TrunkMap idOf) :=
  if h : idOf info = "" then .error (.invalidArgument "sip trunk id must not be empty")
  else .ok ⟨m.trunks.insert info,fun other hm => by
    obtain rfl | ⟨-,hm⟩ := mem_insert.mp hm
    · exact h
    · exact m.named other hm⟩

variable (idOf)

def after (items : List β) (afterId : String) : List β :=
  if afterId = "" then items else items.filter (fun item => afterId < idOf item)

def collectAfterLimit (items : List β) (page : Option Pagination) : List β :=
  let items := items.insertionSort (fun a b => idOf a ≤ idOf b)
  match page with
  | none => items
  | some page =>
    let items := after idOf items page.afterId
    if 0<page.limit then items.take page.limit.toNat else items

/-- What a client receives that asks for pages after the last id it knows until one is empty. -/
inductive Received (list : Option Pagination → List β) (limit : ℤ) : String → List β→Prop
  | done {afterId : String} : list (some ⟨afterId,limit⟩)=[] → Received list limit afterId []
  | next {afterId : String} {page rest : List β} {last : β} : list (some ⟨afterId,limit⟩)=page →
      page.getLast?=some last → Received list limit (idOf last) rest →
      Received list limit afterId (page++rest)

/-- Pages of any size return every item once. -/
def CompletePages (list : Option Pagination → List β) (items : List β) : Prop :=
  ∀limit,1≤limit → ∃received,Received idOf list limit "" received ∧ received.Perm items

variable {idOf} {items page received : List β} {limit : ℤ} {a : String}

theorem mem_after {x : β} (h : x∈after idOf items a) : x∈items ∧ (a = "" ∨ a < idOf x) := by
  rw [after] at h
  split_ifs at h with ha
  · exact ⟨h,.inl ha⟩
  · obtain ⟨hm,hlt⟩ := mem_filter.mp h
    exact ⟨hm,.inr (of_decide_eq_true hlt)⟩

/-- In pages of one item no id comes twice. -/
theorem Received.pairwise (hn : ∀x∈items,idOf x≠"")
    (h : Received idOf (collectAfterLimit idOf items) 1 a received) :
    (∀x∈received,a = "" ∨ a < idOf x) ∧ received.Pairwise (fun x y => idOf x < idOf y) := by
  induction h with
  | done => simp
  | next hp hl _ ih =>
    rename_i afterId page rest last _
    obtain ⟨init,rfl⟩ := getLast?_eq_some_iff.mp hl
    have hm := mem_after (mem_of_mem_take (hp ▸ mem_append_right init (mem_singleton_self last)))
    have hlen : (init++[last]).length≤1 := hp ▸ length_take_le _ _
    have hi : init=[] := by simpa using hlen
    have hlast : idOf last≠"" := hn last ((mem_insertionSort _).mp hm.1)
    have hr : ∀y∈rest,idOf last < idOf y := fun y hy => (ih.1 y hy).resolve_left hlast
    subst hi
    refine ⟨?_,pairwise_cons.mpr ⟨hr,ih.2⟩⟩
    rw [nil_append,singleton_append,forall_mem_cons]
    exact ⟨hm.2,fun y hy => hm.2.imp_right fun hlt => hlt.trans (hr y hy)⟩

theorem after_of_pairwise {last : β} {before rest : List β} (hlast : idOf last≠"")
    (hs : (before++last::rest).Pairwise (fun x y => idOf x < idOf y)) :
    after idOf (before++last::rest) (idOf last)=rest := by
  obtain ⟨-,hr,hb⟩ := pairwise_append.mp hs
  have hb' : before.filter (fun x => idOf last < idOf x)=[] := by
    rw [filter_eq_nil_iff]
    intro x hx
    rw [decide_eq_true_eq]
    exact (hb x hx last mem_cons_self).le
  have hr' : rest.filter (fun x => idOf last < idOf x)=rest := by
    rw [filter_eq_self]
    intro x hx
    simpa using (pairwise_cons.mp hr).1 x hx
  rw [after,if_neg hlast,filter_append,filter_cons_of_neg (by simp),hb',hr',nil_append]

/-- What comes after `a` is received, page by page. -/
theorem received_suffix {sorted : List β} (hn : ∀x∈sorted,idOf x≠"")
    (hs : sorted.Pairwise (fun x y => idOf x < idOf y)) (hl : 1≤limit)
    {list : Option Pagination → List β}
    (hlist : ∀b,list (some ⟨b,limit⟩)=(after idOf sorted b).take limit.toNat) (before rest : List β)
    (he : sorted=before++rest) (ha : after idOf sorted a=rest) :
    Received idOf list limit a rest := by
  induction hk : rest.length using Nat.strong_induction_on generalizing before rest a with
  | _ k ih =>
    cases hg : (rest.take limit.toNat).getLast? with
    | none =>
      have hnil : rest=[] := by
        rw [getLast?_eq_none_iff,take_eq_nil_iff] at hg
        exact hg.resolve_left (by omega)
      rw [hnil] at ha ⊢
      exact .done (by rw [hlist,ha,take_nil])
    | some last =>
      obtain ⟨init,hi⟩ := getLast?_eq_some_iff.mp hg
      have hsplit : sorted=(before++init)++last::rest.drop limit.toNat := by
        have hr := take_append_drop limit.toNat rest
        rw [hi] at hr
        rw [he]
        nth_rewrite 1 [← hr]
        simp
      have hlast : idOf last≠"" := hn last (by rw [hsplit]; simp)
      have hd : after idOf sorted (idOf last)=rest.drop limit.toNat := by
        rw [hsplit] at hs ⊢
        exact after_of_pairwise hlast hs
      rw [← take_append_drop limit.toNat rest]
      refine .next (by rw [hlist,ha]) hg (ih _ ?_ (before++init++[last]) _ ?_ hd rfl)
      · have hne : rest≠[] := by
          rintro rfl
          simp at hg
        have := length_pos_of_ne_nil hne
        rw [length_drop]
        omega
      · rw [hsplit]
        simp

theorem completePages_iff (hn : ∀x∈items,idOf x≠"") :
    CompletePages idOf (collectAfterLimit idOf items) items ↔ (items.map idOf).Nodup := by
  constructor
  · intro h
    obtain ⟨received,hr,hp⟩ := h 1 le_rfl
    rw [← (hp.map idOf).nodup_iff,List.Nodup,pairwise_map]
    exact (hr.pairwise hn).2.imp ne_of_lt
  · intro h limit hl
    have hp := perm_insertionSort (fun x y => idOf x ≤ idOf y) items
    have hs := (pairwise_insertionSort (fun x y => idOf x ≤ idOf y) items).and
      (hp.symm.pairwise (pairwise_map.mp h) Ne.symm)
    exact ⟨_,received_suffix (fun x hx => hn x (hp.mem_iff.mp hx))
      (hs.imp fun h => lt_of_le_of_ne h.1 h.2) hl (fun _ => if_pos hl) [] _ rfl
      (if_pos rfl),hp⟩

def matchesNumbersFilter (filterNumbers trunkNumbers : List String) : Bool :=
  filterNumbers.isEmpty || trunkNumbers.isEmpty || trunkNumbers.any filterNumbers.contains

def matchesIdsFilter (filterIds : List String) (id : String) : Bool :=
  filterIds.isEmpty || filterIds.contains id

/-- The three maps. -/
structure SipTrunks where
  legacy : TrunkMap SipTrunkInfo.sipTrunkId
  inbound : TrunkMap SipInboundTrunkInfo.sipTrunkId
  outbound : TrunkMap SipOutboundTrunkInfo.sipTrunkId

namespace SipTrunks

variable (s : SipTrunks) (order : Iteration String) (trunkIds numbers : List String)

/-- The trunks that a listing is about. -/
def trunks : List SipTrunkInfo :=
  s.legacy.trunks.values order++(s.inbound.trunks.values order).map sipInboundToLegacy++
    (s.outbound.trunks.values order).map sipOutboundToLegacy

def inboundTrunks : List SipInboundTrunkInfo :=
  (s.inbound.trunks.values order++(s.legacy.trunks.values order).map sipTrunkToInbound).filter
    (fun info => matchesIdsFilter trunkIds info.sipTrunkId &&
      matchesNumbersFilter numbers info.numbers)

def outboundTrunks : List SipOutboundTrunkInfo :=
  (s.outbound.trunks.values order++(s.legacy.trunks.values order).map sipTrunkToOutbound).filter
    (fun info => matchesIdsFilter trunkIds info.sipTrunkId &&
      matchesNumbersFilter numbers info.numbers)

def listSipTrunk (page : Option Pagination) : List SipTrunkInfo :=
  collectAfterLimit SipTrunkInfo.sipTrunkId (s.trunks order) page

def listSipInboundTrunk (page : Option Pagination) : List SipInboundTrunkInfo :=
  collectAfterLimit SipInboundTrunkInfo.sipTrunkId (s.inboundTrunks order trunkIds numbers) page

def listSipOutboundTrunk (page : Option Pagination) : List SipOutboundTrunkInfo :=
  collectAfterLimit SipOutboundTrunkInfo.sipTrunkId (s.outboundTrunks order trunkIds numbers) page

/-- Paging through a listing is complete when its trunks have different ids. -/
theorem sip_pages_complete_iff :
    (CompletePages SipTrunkInfo.sipTrunkId (s.listSipTrunk order) (s.trunks order) ↔
      ((s.trunks order).map SipTrunkInfo.sipTrunkId).Nodup) ∧
    (CompletePages SipInboundTrunkInfo.sipTrunkId (s.listSipInboundTrunk order trunkIds numbers)
        (s.inboundTrunks order trunkIds numbers) ↔
      ((s.inboundTrunks order trunkIds numbers).map SipInboundTrunkInfo.sipTrunkId).Nodup) ∧
    (CompletePages SipOutboundTrunkInfo.sipTrunkId (s.listSipOutboundTrunk order trunkIds numbers)
        (s.outboundTrunks order trunkIds numbers) ↔
      ((s.outboundTrunks order trunkIds numbers).map SipOutboundTrunkInfo.sipTrunkId).Nodup) := by
  refine ⟨completePages_iff ?_,completePages_iff ?_,completePages_iff ?_⟩
  · rintro x hx
    simp only [trunks,mem_append,mem_map,mem_values] at hx
    obtain (hx | ⟨y,hy,rfl⟩) | ⟨y,hy,rfl⟩ := hx
    · exact s.legacy.named x hx
    · exact s.inbound.named y hy
    · exact s.outbound.named y hy
  · rintro x hx
    simp only [inboundTrunks,mem_filter,mem_append,mem_map,mem_values] at hx
    obtain ⟨hx | ⟨y,hy,rfl⟩,-⟩ := hx
    · exact s.inbound.named x hx
    · exact s.legacy.named y hy
  · rintro x hx
    simp only [outboundTrunks,mem_filter,mem_append,mem_map,mem_values] at hx
    obtain ⟨hx | ⟨y,hy,rfl⟩,-⟩ := hx
    · exact s.outbound.named x hx
    · exact s.legacy.named y hy

end SipTrunks

def noTrunks {β : Type} (idOf : β → String) : TrunkMap idOf :=
  ⟨empty,fun b h => absurd h (not_mem_empty b)⟩

/-- One trunk in two forms. -/
def bothForms : Option SipTrunks := do
  let legacy ← ((noTrunks _).store {sipTrunkId := "ST_a"}).toOption
  let inbound ← ((noTrunks _).store ⟨"ST_a","","",[],[],"",""⟩).toOption
  return ⟨legacy,inbound,noTrunks _⟩

theorem second_form_skipped :
    bothForms.map (fun s => (s.listSipTrunk (.sorted String) none,
      s.listSipTrunk (.sorted String) (some ⟨"",1⟩),
      s.listSipTrunk (.sorted String) (some ⟨"ST_a",1⟩)))=
    some ([{sipTrunkId := "ST_a"},{sipTrunkId := "ST_a",kind := .inbound}],[{sipTrunkId := "ST_a"}],
      []) := by
  decide +kernel

end OxideSfu.Sip
